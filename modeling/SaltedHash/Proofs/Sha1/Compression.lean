import Mathlib
import SaltedHash.Proofs.Octets
import SaltedHash.Proofs.Sha1.Words

/-!
# Compressing a block

The engine keeps sixteen words of the schedule and overwrites the oldest one in place; the standard
has all eighty. What one round needs of the window is always there, so the rounds agree, and with
them the compression of a block.
-/

namespace SaltedHash.Sha1

/-! ## The schedule of the standard -/

namespace Standard

def scheduleWord (block : Vector UInt32 16) (t : Nat) : UInt32 := (schedule block (t + 1))[t]

theorem getElem_schedule (block : Vector UInt32 16) {n t : Nat} (h : t < n) :
    (schedule block n)[t] = scheduleWord block t := by
  induction n with
  | zero => omega
  | succ n ih =>
    by_cases ht : t < n
    · rw [schedule, Vector.getElem_push_lt ht, ih ht]
    · obtain rfl : t = n := by omega
      rfl

theorem scheduleWord_of_lt (block : Vector UInt32 16) {t : Nat} (h : t < 16) :
    scheduleWord block t = block[t] := by
  simp [scheduleWord, schedule, nextWord, h]

theorem scheduleWord_of_ge (block : Vector UInt32 16) {t : Nat} (h : 16 ≤ t) :
    scheduleWord block t =
      rotl (scheduleWord block (t - 3) ^^^ scheduleWord block (t - 8) ^^^
        scheduleWord block (t - 14) ^^^ scheduleWord block (t - 16)) 1 := by
  have hlt : ¬ t < 16 := by omega
  rw [scheduleWord, schedule, Vector.getElem_push_eq, nextWord, dif_neg hlt]
  rw [getElem_schedule block (by omega), getElem_schedule block (by omega),
    getElem_schedule block (by omega), getElem_schedule block (by omega)]

end Standard

/-! ## The window of the engine -/

namespace Window

theorem at_congr (w : Window) {i j : Nat} (h : i % 16 = j % 16) : w.at i = w.at j := by
  simp only [Window.at, h]

theorem at_set (w : Window) (i x j : Nat) (h : i % 16 < 16) :
    Window.at (w.set (i % 16) x h) j = if i % 16 = j % 16 then x else w.at j := by
  simp only [Window.at, Vector.getElem_set]

/-- The window before round `n` has the sixteen words of the schedule up to that round, each in the
slot of its number. -/
def Holds (w : Window) (block : Vector UInt32 16) (n : Nat) : Prop :=
  ∀ t < max n 16, max n 16 ≤ t + 16 → w.at t = (Standard.scheduleWord block t).toNat

theorem getElem_words (block : Block) (i : Nat) (h : i < 16) :
    ((Standard.words block.toList)[i]).toNat =
      Octets.toNat [block[4 * i], block[4 * i + 1], block[4 * i + 2], block[4 * i + 3]] := by
  have htake : (block.toList.drop (4 * i)).take 4 =
      [block[4 * i], block[4 * i + 1], block[4 * i + 2], block[4 * i + 3]] := by
    apply List.ext_getElem
    · simp
      omega
    · intro k hk _
      simp only [List.length_take, List.length_drop, Vector.length_toList] at hk
      have : k < 4 := by omega
      interval_cases k <;> simp
  have hsmall := Octets.toNat_lt
    [block[4 * i], block[4 * i + 1], block[4 * i + 2], block[4 * i + 3]]
  rw [Standard.words, Vector.getElem_ofFn, htake, UInt32.toNat_ofNat']
  exact Nat.mod_eq_of_lt (lt_of_lt_of_eq hsmall (by norm_num))

theorem holds_ofBlock (block : Block) : (ofBlock block).Holds (Standard.words block.toList) 0 := by
  intro t ht _
  have h16 : t < 16 := by omega
  rw [Standard.scheduleWord_of_lt _ h16, getElem_words block t h16]
  simp [Window.at, ofBlock, Nat.mod_eq_of_lt h16]

theorem Holds.at_slot {w : Window} {block : Vector UInt32 16} {n slot t : Nat}
    (h : w.Holds block n) (hslot : slot % 16 = t % 16) (ht : t < max n 16)
    (hold : max n 16 ≤ t + 16) : w.at slot = (Standard.scheduleWord block t).toNat :=
  (at_congr w hslot).trans (h t ht hold)

theorem Holds.advance {w : Window} {block : Vector UInt32 16} {n : Nat} (h : w.Holds block n) :
    (w.advance n).Holds block (n + 1) := by
  intro t ht hold
  unfold Window.advance
  split_ifs with h16
  · exact h t (by omega) (by omega)
  · rw [at_set]
    by_cases htn : t = n
    · -- The four words that the new one is made of are still in the window.
      have e3 := h.at_slot (show (n + 13) % 16 = (n - 3) % 16 by omega) (by omega) (by omega)
      have e8 := h.at_slot (show (n + 8) % 16 = (n - 8) % 16 by omega) (by omega) (by omega)
      have e14 := h.at_slot (show (n + 2) % 16 = (n - 14) % 16 by omega) (by omega) (by omega)
      have e16 := h.at_slot (show n % 16 = (n - 16) % 16 by omega) (by omega) (by omega)
      rw [if_pos (by rw [htn]), e3, e8, e14, e16, htn,
        Standard.scheduleWord_of_ge block (show 16 ≤ n by omega)]
      simp only [← UInt32.toNat_xor]
      exact rol_toNat _ Nat.one_pos (by decide)
    · rw [if_neg (by omega)]
      exact h t (by omega) (by omega)

theorem Holds.at_advance {w : Window} {block : Vector UInt32 16} {n : Nat} (h : w.Holds block n) :
    (w.advance n).at n = (Standard.scheduleWord block n).toNat :=
  h.advance n (by omega) (by omega)

end Window

/-! ## Rounds -/

theorem round_toNat (n : Nat) (w : UInt32) (s : Standard.State) :
    (rol s.a.toNat 5 + mix n s.b.toNat s.c.toNat s.d.toNat + s.e.toNat + constant n + w.toNat) &&&
        mask32 =
      (Standard.round n w s).a.toNat := by
  rw [and_mask32, rol_toNat s.a (by decide) (by decide), mix_toNat, constant_toNat]
  simp only [Standard.round, UInt32.toNat_add]
  rw [show UInt32.ofNat 5 = 5 from rfl]
  omega

namespace Rounds

/-- What the first `n` rounds keep: the window holds the schedule, and the accumulators are those of
the standard. -/
theorem run_tracks (block : Block) (s : Standard.State) {n : Nat} (h : n ≤ 80) :
    (run block (Chain.ofState s) n).window.Holds (Standard.words block.toList) n ∧
      (run block (Chain.ofState s) n).chain =
        Chain.ofState
          (Standard.rounds (Standard.schedule (Standard.words block.toList) 80) s n) := by
  induction n with
  | zero => exact ⟨Window.holds_ofBlock block, rfl⟩
  | succ n ih =>
    obtain ⟨hwindow, hchain⟩ := ih (by omega)
    rw [run_succ]
    refine ⟨hwindow.advance, ?_⟩
    have hword : (Standard.schedule (Standard.words block.toList) 80).getD n 0 =
        Standard.scheduleWord (Standard.words block.toList) n := by
      rw [← Standard.getElem_schedule _ (show n < 80 by omega)]
      simp [Vector.getD, show n < 80 by omega]
    rw [Standard.rounds, hword]
    simp only [step, hchain, hwindow.at_advance]
    unfold Chain.ofState
    rw [round_toNat, rol_toNat _ (by decide) (by decide)]
    rfl

end Rounds

theorem compress_ofState (s : Standard.State) (block : Block) :
    compress (Chain.ofState s) block = Chain.ofState (Standard.compress s block.toList) := by
  rw [compress, (Rounds.run_tracks block s (le_refl 80)).2, Chain.ofState_add]
  rfl

end SaltedHash.Sha1
