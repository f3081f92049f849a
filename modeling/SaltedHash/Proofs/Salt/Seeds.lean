import Mathlib
import SaltedHash.Proofs.Salt.Linear

/-!
# Seeds with the same draws

A draw of the linear generator hides the low 16 bits of the state and does not see the top one. Two states
still give the same draws only if they agree in all bits but the top one: the gap between them is
multiplied at every step, and sooner or later it shows.
-/

namespace SaltedHash.Salt

/-! ## Powers of the multiplier -/

def multiplier : Int := 1103515245

/-- To the power of `2 ^ k` the multiplier is one plus an odd number of times `2 ^ (k + 2)`. -/
theorem exists_multiplier_pow (k : Nat) :
    ∃ m, Odd m ∧ multiplier ^ 2 ^ k = 1 + 2 ^ (k + 2) * m := by
  induction k with
  | zero => exact ⟨275878811, by decide, by norm_num [multiplier]⟩
  | succ k ih =>
    obtain ⟨m, hodd, hpow⟩ := ih
    have heven : Even (2 ^ (k + 1) * m ^ 2) :=
      (even_two.pow_of_ne_zero k.succ_ne_zero).mul_right _
    refine ⟨m + 2 ^ (k + 1) * m ^ 2, hodd.add_even heven, ?_⟩
    rw [pow_succ, pow_mul, hpow]
    ring

theorem multiplier_pow_mul {k v : Nat} (hk : k + v = 28) {u : Int} (hu : Odd u) :
    multiplier ^ 2 ^ k * (2 ^ v * u) ≡ 2 ^ v * u + 2 ^ 30 [ZMOD 2 ^ 31] := by
  obtain ⟨m, hm, hpow⟩ := exists_multiplier_pow k
  obtain ⟨j, hj⟩ := hm.mul hu
  have hexponent : 2 ^ (k + 2) * 2 ^ v = (2 ^ 30 : Int) := by
    rw [← pow_add, show k + 2 + v = 30 by omega]
  have hsum : multiplier ^ 2 ^ k * (2 ^ v * u) = 2 ^ v * u + 2 ^ 30 + 2 ^ 31 * j := by
    calc multiplier ^ 2 ^ k * (2 ^ v * u)
        = 2 ^ v * u + 2 ^ (k + 2) * 2 ^ v * (m * u) := by rw [hpow]; ring
      _ = 2 ^ v * u + 2 ^ 30 * (2 * j + 1) := by rw [hexponent, hj]
      _ = 2 ^ v * u + 2 ^ 30 + 2 ^ 31 * j := by ring
  rw [hsum]
  exact Int.modEq_iff_dvd.mpr ⟨-j, by ring⟩

/-! ## Gaps between states -/

/-- A gap between two states with the same output: it is one between the bits that are hidden. -/
def Near (d : Int) : Prop := ∃ r, d ≡ r [ZMOD 2 ^ 31] ∧ -65536 < r ∧ r < 65536

theorem near_of_output_eq {s t : UInt32} (h : output s = output t) :
    Near (s.toNat - t.toNat) := by
  unfold output maxOutput at h
  refine ⟨s.toNat % 65536 - t.toNat % 65536, ?_, by omega, by omega⟩
  unfold Int.ModEq
  omega

theorem Near.not_near {d e : Int} (hd : Near d) (h : e ≡ d + 2 ^ 30 [ZMOD 2 ^ 31]) : ¬ Near e := by
  rintro ⟨q, hq, hlow, hhigh⟩
  obtain ⟨r, hr, hless, hmore⟩ := hd
  unfold Int.ModEq at *
  omega

theorem Near.modEq_zero {d : Int} (h : Near d) (hd : 2 ^ 16 ∣ d) : d ≡ 0 [ZMOD 2 ^ 31] := by
  obtain ⟨r, hr, hlow, hhigh⟩ := h
  unfold Int.ModEq at *
  omega

theorem modEq_zero_of_near {d : Int} (h : ∀ n, Near (multiplier ^ n * d)) :
    d ≡ 0 [ZMOD 2 ^ 31] := by
  have hnear : Near d := by simpa using h 0
  by_cases hzero : d = 0
  · rw [hzero]
  have hfinite : FiniteMultiplicity 2 d := Int.finiteMultiplicity_iff.mpr ⟨by decide, hzero⟩
  obtain ⟨u, hd, hu⟩ := hfinite.exists_eq_pow_mul_and_not_dvd
  have hodd : Odd u := Int.not_even_iff_odd.mp (mt Even.two_dvd hu)
  by_cases hv : 16 ≤ multiplicity 2 d
  · -- The gap is a multiple of `2 ^ 16`, and no hidden bit differs.
    exact hnear.modEq_zero (hd ▸ (pow_dvd_pow 2 hv).mul_right u)
  · -- Some power of the multiplier moves the gap by half of the modulus, too far to be hidden.
    obtain ⟨k, hk⟩ : ∃ k, k + multiplicity 2 d = 28 := ⟨28 - multiplicity 2 d, by omega⟩
    have hfar := multiplier_pow_mul hk hodd
    rw [← hd] at hfar
    exact absurd (h (2 ^ k)) (hnear.not_near hfar)

theorem gap_advance (s t : UInt32) :
    ((advance s).toNat - (advance t).toNat : Int) ≡ multiplier * (s.toNat - t.toNat) [ZMOD 2 ^ 31] := by
  have hs := toNat_advance s
  have ht := toNat_advance t
  unfold Int.ModEq multiplier
  omega

theorem gap_iterate (s t : UInt32) (n : Nat) :
    ((advance^[n] s).toNat - (advance^[n] t).toNat : Int) ≡
      multiplier ^ n * (s.toNat - t.toNat) [ZMOD 2 ^ 31] := by
  induction n with
  | zero => simp
  | succ n ih =>
    rw [Function.iterate_succ_apply', Function.iterate_succ_apply', pow_succ' multiplier, mul_assoc]
    exact (gap_advance _ _).trans (ih.mul_left multiplier)

/-! ## States with the same draws -/

def Alike (s t : UInt32) : Prop := (s.toNat : Int) ≡ t.toNat [ZMOD 2 ^ 31]

theorem Alike.advance {s t : UInt32} (h : Alike s t) : Alike (advance s) (advance t) := by
  have hs := toNat_advance s
  have ht := toNat_advance t
  unfold Alike Int.ModEq at *
  omega

theorem Alike.iterate {s t : UInt32} (h : Alike s t) (n : Nat) :
    Alike (Salt.advance^[n] s) (Salt.advance^[n] t) := by
  induction n with
  | zero => exact h
  | succ n ih =>
    rw [Function.iterate_succ_apply', Function.iterate_succ_apply']
    exact ih.advance

theorem Alike.output_eq {s t : UInt32} (h : Alike s t) : output s = output t := by
  unfold Alike Int.ModEq at h
  unfold output maxOutput
  omega

theorem alike_of_outputs_eq {s t : UInt32}
    (h : ∀ i, output (advance^[i + 1] s) = output (advance^[i + 1] t)) : Alike s t := by
  have hnear (n : Nat) : Near (multiplier ^ n * (multiplier * (s.toNat - t.toNat))) := by
    obtain ⟨r, hr, hbounds⟩ := near_of_output_eq (h n)
    have hgap := gap_iterate s t (n + 1)
    rw [pow_succ multiplier, mul_assoc] at hgap
    exact ⟨r, hgap.symm.trans hr, hbounds⟩
  have hcoprime : IsCoprime (2 ^ 31 : Int) multiplier := by
    rw [Int.isCoprime_iff_gcd_eq_one]
    decide
  have hdvd := hcoprime.dvd_of_dvd_mul_left (Int.modEq_zero_iff_dvd.mp (modEq_zero_of_near hnear))
  exact (Int.modEq_iff_dvd.mpr hdvd).symm

theorem Supply.draw_linear_eq_iff {s t : UInt32} (system system' : Stream) :
    draw ⟨.linear s, system⟩ = draw ⟨.linear t, system'⟩ ↔ Alike s t := by
  rw [funext_iff]
  simp only [draw_linear, Nat.cast_inj]
  exact ⟨alike_of_outputs_eq, fun h i => (h.iterate (i + 1)).output_eq⟩

theorem generate_congr {s s' : Supply} (h : s.draw = s'.draw) (length : Datum) :
    (generate length s).1 = (generate length s').1 := by
  have hslice (n : Nat) : s.slice 0 n = s'.slice 0 n := by
    rw [Supply.slice, Supply.slice, h]
  unfold generate
  split
  · rfl
  · split_ifs
    · rfl
    · split
      · simp only [Supply.salt_eq, hslice]
      · rfl

/-! ## Seeds -/

theorem alike_seeded_iff {a b : Int} : Alike (seeded a) (seeded b) ↔ a ≡ b [ZMOD 2 ^ 31] := by
  have ha := keeps_seeded a
  have hb := keeps_seeded b
  unfold Keeps at ha hb
  unfold Alike Int.ModEq
  omega

theorem alike_flip_top (s : UInt32) : Alike (s ^^^ 0x80000000) s := by
  have hflip : (s ^^^ 0x80000000).toNat % 2 ^ 31 = s.toNat % 2 ^ 31 := by
    rw [UInt32.toNat_xor, Nat.xor_mod_two_pow]
    simp
  unfold Alike Int.ModEq
  omega

/-- How a linear source comes to a seed: it is made of it, or started again with it. -/
inductive Start where
  | made
  | again (earlier : Start) (first : Int) (draws : Nat)

def Start.supply (start : Start) (seed : Int) (system : Stream) : Except Fault Supply :=
  match start with
  | made => (Source.ofSeed (.integer seed)).map (⟨·, system⟩)
  | again earlier first draws => do
    let s ← earlier.supply first system
    let source ← (s.drop draws).source.reseed (.integer seed)
    return { s.drop draws with source }

theorem Start.supply_eq (start : Start) (seed : Int) (system : Stream) :
    start.supply seed system = .ok ⟨.linear (seeded seed), system⟩ := by
  induction start generalizing seed with
  | made => rfl
  | again earlier first draws ih =>
    rw [supply, ih]
    show (do
      let source ← (Supply.drop ⟨.linear (seeded first), system⟩ draws).source.reseed (.integer seed)
      return (⟨source, _⟩ : Supply)) = _
    rw [Supply.drop_linear]
    rfl

def sequences (system : Stream) : Set (Nat → Int) :=
  {draws | ∃ (start : Start) (seed : Int) (s : Supply),
    start.supply seed system = .ok s ∧ s.draw = draws}

theorem ncard_sequences (system : Stream) : (sequences system).ncard = 2 ^ 31 := by
  let draws (seed : Int) : Nat → Int := Supply.draw ⟨.linear (seeded seed), system⟩
  have hsame {a b : Int} : draws a = draws b ↔ a ≡ b [ZMOD 2 ^ 31] :=
    (Supply.draw_linear_eq_iff system system).trans alike_seeded_iff
  have hset : sequences system = draws '' (Finset.Ico (0 : Int) (2 ^ 31)) := by
    ext found
    constructor
    · rintro ⟨start, seed, s, hs, rfl⟩
      rw [start.supply_eq] at hs
      cases hs
      refine ⟨seed % 2 ^ 31, ?_, hsame.mpr (Int.mod_modEq seed (2 ^ 31))⟩
      rw [Finset.coe_Ico, Set.mem_Ico]
      omega
    · rintro ⟨seed, -, rfl⟩
      exact ⟨.made, seed, _, Start.supply_eq _ _ _, rfl⟩
  have hinj : Set.InjOn draws (Finset.Ico (0 : Int) (2 ^ 31)) := by
    intro a ha b hb h
    rw [Finset.coe_Ico, Set.mem_Ico] at ha hb
    have hmod := hsame.mp h
    unfold Int.ModEq at hmod
    omega
  rw [hset, hinj.ncard_image, Set.ncard_coe_finset, Int.card_Ico]
  rfl

/-- Two linear sources have the same draws, however each came to its seed, exactly if the seeds
agree modulo `2 ^ 31`. -/
theorem draw_eq_iff_modEq :
    (∀ (start start' : Start) (a b : Int) (system system' : Stream), ∃ s s',
        start.supply a system = .ok s ∧ start'.supply b system' = .ok s' ∧
          (s.draw = s'.draw ↔ a ≡ b [ZMOD 2 ^ 31])) ∧
      (∀ (state : UInt32) (system : Stream),
        let s : Supply := ⟨.linear state, system⟩
        let flipped : Supply := ⟨.linear (state ^^^ 0x80000000), system⟩
        flipped.draw = s.draw ∧ ∀ length, (generate length flipped).1 = (generate length s).1) ∧
      ∀ system : Stream, (sequences system).ncard = 2 ^ 31 := by
  refine ⟨?_, ?_, ncard_sequences⟩
  · intro start start' a b system system'
    refine ⟨_, _, start.supply_eq a system, start'.supply_eq b system', ?_⟩
    rw [Supply.draw_linear_eq_iff, alike_seeded_iff]
  · intro state system s flipped
    have hdraws : flipped.draw = s.draw :=
      (Supply.draw_linear_eq_iff system system).mpr (alike_flip_top state)
    exact ⟨hdraws, generate_congr hdraws⟩

end SaltedHash.Salt
