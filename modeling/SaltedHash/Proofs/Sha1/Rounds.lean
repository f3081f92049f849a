import Mathlib
import SaltedHash.Proofs.Sha1.Absorption

/-!
# Rounds on any accumulators

A block may meet any accumulators that are words, also such as no message leads to. In every round the
window has the words that the round needs, and no number outgrows 32 bits, although one of them is made of a
negative integer on the way. A block that is full leaves nothing but zeros behind.
-/

namespace SaltedHash.Sha1

/-! ## Integers without bound -/

namespace Unbounded

def mix (i : Nat) (x y z : Int) : Int :=
  if i < 20 then Int.lor (Int.land x y) (Int.land (Int.lnot x) z)
  else if i < 40 then Int.xor (Int.xor x y) z
  else if i < 60 then Int.lor (Int.lor (Int.land x y) (Int.land x z)) (Int.land y z)
  else Int.xor (Int.xor x y) z

def mixWithoutCarry (i : Nat) (x y z : Int) : Int :=
  if i < 20 then Int.xor (Int.land x y) (Int.land (Int.lnot x) z)
  else if i < 40 then Int.xor (Int.xor x y) z
  else if i < 60 then Int.xor (Int.xor (Int.land x y) (Int.land x z)) (Int.land y z)
  else Int.xor (Int.xor x y) z

end Unbounded

theorem select_eq_land (x : Int) (m : Nat) : (select x m : Int) = Int.land x m := by
  cases x with
  | ofNat n => rfl
  | negSucc n =>
    have hbits : m ^^^ (n &&& m) = Nat.ldiff m n := by
      apply Nat.eq_of_testBit_eq
      intro i
      rw [Nat.testBit_xor, Nat.testBit_and, Nat.testBit_ldiff]
      cases m.testBit i <;> cases n.testBit i <;> rfl
    exact congrArg Int.ofNat hbits

theorem mix_eq_unbounded (i x y z : Nat) : (mix i x y z : Int) = Unbounded.mix i x y z := by
  unfold mix Unbounded.mix
  split_ifs with h20 h40 h60
  · have hselect := select_eq_land (~~~(Int.ofNat x)) z
    show Int.lor (Int.land x y) (select (~~~(Int.ofNat x)) z) = _
    rw [hselect]
    rfl
  · rfl
  · rfl
  · rfl

theorem land_lnot_toNat (x z : UInt32) :
    Int.land (Int.lnot x.toNat) z.toNat = ((~~~x &&& z).toNat : Int) := by
  have hselect := select_eq_land (~~~(Int.ofNat x.toNat)) z.toNat
  rw [select_complement] at hselect
  rw [← and_xor_self, UInt32.toNat_xor, UInt32.toNat_and]
  exact hselect.symm

theorem mixWithoutCarry_toNat (i : Nat) (x y z : UInt32) :
    Unbounded.mixWithoutCarry i x.toNat y.toNat z.toNat = ((Standard.mix i x y z).toNat : Int) := by
  unfold Unbounded.mixWithoutCarry Standard.mix
  split_ifs with h20 h40 h60
  · rw [land_lnot_toNat, UInt32.toNat_xor, UInt32.toNat_and]
    rfl
  · simp only [UInt32.toNat_xor]
    rfl
  · simp only [UInt32.toNat_xor, UInt32.toNat_and]
    rfl
  · simp only [UInt32.toNat_xor]
    rfl

/-! ## Accumulators that are words -/

namespace Chain

def state (x : Chain) : Standard.State :=
  ⟨.ofNat x.a, .ofNat x.b, .ofNat x.c, .ofNat x.d, .ofNat x.e⟩

theorem state_ofState (s : Standard.State) : (ofState s).state = s := by
  simp only [state, ofState, UInt32.ofNat_toNat]

theorem IsWords.ofState_state {x : Chain} (h : x.IsWords) : ofState x.state = x := by
  obtain ⟨ha, hb, hc, hd, he⟩ := h
  simp only [ofState, state, UInt32.toNat_ofNat_of_lt' ha, UInt32.toNat_ofNat_of_lt' hb,
    UInt32.toNat_ofNat_of_lt' hc, UInt32.toNat_ofNat_of_lt' hd, UInt32.toNat_ofNat_of_lt' he]

/-- How round `i` mixes three of the accumulators. The complement of one is a negative integer, and
what is made of it is a word. -/
structure Mixes (x : Chain) (i : Nat) : Prop where
  lnot_neg : Int.lnot x.b < 0
  mix_eq : (mix i x.b x.c x.d : Int) = Unbounded.mix i x.b x.c x.d
  withoutCarry_eq : Unbounded.mixWithoutCarry i x.b x.c x.d = Unbounded.mix i x.b x.c x.d
  standard_eq : (Standard.mix i x.state.b x.state.c x.state.d).toNat = mix i x.b x.c x.d
  mix_lt : mix i x.b x.c x.d < 2 ^ 32

theorem IsWords.mixes {x : Chain} (h : x.IsWords) (i : Nat) : x.Mixes i := by
  obtain ⟨s, rfl⟩ : ∃ s, x = ofState s := ⟨x.state, h.ofState_state.symm⟩
  have hmix : mix i (ofState s).b (ofState s).c (ofState s).d = (Standard.mix i s.b s.c s.d).toNat :=
    mix_toNat i s.b s.c s.d
  refine ⟨Int.negSucc_lt_zero _, mix_eq_unbounded i _ _ _, ?_, ?_, ?_⟩
  · rw [← mix_eq_unbounded, hmix]
    exact mixWithoutCarry_toNat i s.b s.c s.d
  · rw [hmix, state_ofState]
  · rw [hmix]
    exact UInt32.toNat_lt _

end Chain

/-! ## The window in a round -/

namespace Window

theorem Holds.isWord {w : Window} {block : Vector UInt32 16} {n : Nat} (h : w.Holds block n)
    (slot : Nat) : w.at slot < 2 ^ 32 := by
  -- The last word of the schedule so far that has this slot.
  have hlast : ∃ t < max n 16, max n 16 ≤ t + 16 ∧ slot % 16 = t % 16 :=
    ⟨max n 16 - 1 - (max n 16 - 1 - slot % 16) % 16, by omega, by omega, by omega⟩
  obtain ⟨t, ht, hold, hslot⟩ := hlast
  rw [h.at_slot hslot ht hold]
  exact UInt32.toNat_lt _

/-- A window as round `i` needs it: the word of the round is in its slot, and once the block is used
up the fifteen words before it are in the others. -/
structure Serves (w : Window) (schedule : Vector UInt32 80) (i : Fin 80) : Prop where
  word : w.at i = schedule[i].toNat
  before : 16 ≤ i.val → ∀ j : Fin 80, j < i → i.val ≤ j.val + 15 → w.at j = schedule[j].toNat
  isWord : ∀ slot, w.at slot < 2 ^ 32

theorem Holds.serves {w : Window} {block : Vector UInt32 16} {i : Fin 80} (h : w.Holds block i) :
    (w.advance i).Serves (Standard.schedule block 80) i where
  word := by
    rw [h.at_advance]
    exact congrArg _ (Standard.getElem_schedule block i.isLt).symm
  before := by
    intro h16 j hj hold
    have hword := h.advance j (by omega) (by omega)
    rw [hword]
    exact congrArg _ (Standard.getElem_schedule block j.isLt).symm
  isWord := h.advance.isWord

end Window

/-! ## A block that is full -/

/-- Octets that a context takes in until its block is full, and what the block holds then. -/
structure Context.Fills (c : Context) (octets : Octets) (block : Block) : Prop where
  room_le : c.room ≤ octets.length
  block_eq : c.block.write c.buffered.val (octets.take c.room) = block

theorem Context.Fills.fill_eq {c : Context} {octets : Octets} {block : Block}
    (h : c.Fills octets block) :
    c.fill octets = ⟨compress c.chain block, c.bitCount + 8 * c.room, 0, Block.zero⟩ := by
  have hlength : (octets.take c.room).length = c.room := List.length_take_of_le h.room_le
  have hfull : ¬ c.buffered.val + c.room < 64 := by
    rw [room]
    omega
  rw [fill]
  simp only [h.block_eq, hlength, dif_neg hfull]

theorem Context.fills_toList {c : Context} (h : c.buffered = 0) (block : Block) :
    c.Fills block.toList block where
  room_le := by simp [room, h]
  block_eq := by
    apply Vector.ext
    intro i hi
    rw [Block.getElem_write, h]
    simp [room, h, hi]

/-! ## All rounds -/

namespace Rounds

theorem run_tracks_words (block : Block) {chain : Chain} (h : chain.IsWords) {n : Nat} (hn : n ≤ 80) :
    (run block chain n).window.Holds (Standard.words block.toList) n ∧
      (run block chain n).chain =
        Chain.ofState
          (Standard.rounds (Standard.schedule (Standard.words block.toList) 80) chain.state n) := by
  have htracks := run_tracks block chain.state hn
  rwa [h.ofState_state] at htracks

theorem isWords_run (block : Block) {chain : Chain} (h : chain.IsWords) {n : Nat} (hn : n ≤ 80) :
    (run block chain n).chain.IsWords := by
  rw [(run_tracks_words block h hn).2]
  exact Chain.isWords_ofState _

end Rounds

theorem compress_of_isWords (block : Block) {chain : Chain} (h : chain.IsWords) :
    compress chain block = Chain.ofState (Standard.compress chain.state block.toList) := by
  rw [← compress_ofState, h.ofState_state]

/-- Every round finds the words of the schedule in its window, mixes words to a word, and leaves the
accumulators of the standard. -/
theorem compress_words (block : Block) (chain : Chain) (h : chain.IsWords) :
    let schedule := Standard.schedule (Standard.words block.toList) 80
    (∀ n ≤ 80, (Rounds.run block chain n).chain.IsWords ∧
      (Rounds.run block chain n).chain =
        Chain.ofState (Standard.rounds schedule chain.state n)) ∧
    (∀ i : Fin 80, ((Rounds.run block chain i).window.advance i).Serves schedule i ∧
      (Rounds.run block chain i).chain.Mixes i) ∧
    (compress chain block).IsWords ∧
    compress chain block = Chain.ofState (Standard.compress chain.state block.toList) ∧
    ∀ (c : Context) (octets : Octets), c.chain = chain → c.Fills octets block →
      (c.fill octets).chain = compress chain block ∧ (c.fill octets).block = Block.zero := by
  intro schedule
  have hcompress := compress_of_isWords block h
  refine ⟨?_, ?_, ?_, hcompress, ?_⟩
  · intro n hn
    exact ⟨Rounds.isWords_run block h hn, (Rounds.run_tracks_words block h hn).2⟩
  · intro i
    have hi : i.val ≤ 80 := i.isLt.le
    exact ⟨(Rounds.run_tracks_words block h hi).1.serves, (Rounds.isWords_run block h hi).mixes i⟩
  · rw [hcompress]
    exact Chain.isWords_ofState _
  · rintro c octets rfl hfills
    rw [hfills.fill_eq]
    exact ⟨rfl, rfl⟩

theorem compress_words_largest :
    let chain : Chain := ⟨mask32, mask32, mask32, mask32, mask32⟩
    let block : Block := Vector.replicate 64 0xFF
    let c : Context := ⟨chain, 0, 0, Block.zero⟩
    chain.IsWords ∧ c.Fills block.toList block ∧ (Rounds.run block chain 80).chain.IsWords ∧
      (∀ i : Fin 80, (Rounds.run block chain i).chain.Mixes i) ∧
      (c.fill block.toList).chain = Chain.ofState (Standard.compress chain.state block.toList) ∧
      (c.fill block.toList).block = Block.zero := by
  intro chain block c
  have hwords : chain.IsWords := ⟨by decide, by decide, by decide, by decide, by decide⟩
  have hfills : c.Fills block.toList block := Context.fills_toList rfl block
  obtain ⟨hruns, hrounds, -, hcompress, hcontexts⟩ := compress_words block chain hwords
  obtain ⟨hchain, hblock⟩ := hcontexts c block.toList rfl hfills
  exact ⟨hwords, hfills, (hruns 80 (le_refl 80)).1, fun i => (hrounds i).2,
    hchain.trans hcompress, hblock⟩

end SaltedHash.Sha1
