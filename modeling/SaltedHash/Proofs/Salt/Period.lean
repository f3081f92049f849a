import Mathlib
import SaltedHash.Proofs.Salt.Seeds

/-!
# The period of the linear generator

The low `k` bits of a state take all their `2 ^ k` values before one comes again. So the states are on one
cycle, and the draws, which do not see the top bit, repeat after half of it and no sooner.
-/

namespace SaltedHash.Salt

open Function

/-! ## A power of two of steps -/

namespace Unbounded

theorem exists_iterate_two_pow (k : Nat) :
    ∃ u, Odd u ∧ ∀ x, advance^[2 ^ k] x = multiplier ^ 2 ^ k * x + 2 ^ k * u := by
  induction k with
  | zero =>
    refine ⟨12345, by decide, ?_⟩
    intro x
    simp [advance, multiplier, mul_comm]
  | succ k ih =>
    obtain ⟨u, hu, hsteps⟩ := ih
    obtain ⟨m, -, hpow⟩ := exists_multiplier_pow k
    have hodd : Odd (2 ^ (k + 1) * m + 1) :=
      ((even_two.pow_of_ne_zero k.succ_ne_zero).mul_right m).add_one
    refine ⟨u * (2 ^ (k + 1) * m + 1), hu.mul hodd, ?_⟩
    intro x
    rw [pow_succ 2 k, mul_two, iterate_add_apply, hsteps, hsteps, pow_add, hpow]
    ring

/-- After `2 ^ k` steps the gap to the start is an odd number of times `2 ^ k`. -/
theorem exists_gap_two_pow (k : Nat) (x : Int) :
    ∃ u, Odd u ∧ advance^[2 ^ k] x - x = 2 ^ k * u := by
  obtain ⟨u, hu, hsteps⟩ := exists_iterate_two_pow k
  obtain ⟨m, -, hpow⟩ := exists_multiplier_pow k
  refine ⟨u + 2 * (2 * m * x), hu.add_even (even_two_mul _), ?_⟩
  rw [hsteps, hpow]
  ring

end Unbounded

/-! ## The cycle of the low bits -/

/-- The generator on the low `k` bits. -/
def advanceLow (k : Nat) (y : ZMod (2 ^ k)) : ZMod (2 ^ k) := y * 1103515245 + 12345

theorem intCast_low_eq_iff {k : Nat} {a b : Int} :
    (a : ZMod (2 ^ k)) = b ↔ a ≡ b [ZMOD 2 ^ k] := by
  rw [ZMod.intCast_eq_intCast_iff]
  norm_cast

theorem iterate_advanceLow (k n : Nat) (x : Int) :
    (advanceLow k)^[n] x = ((Unbounded.advance^[n] x : Int) : ZMod (2 ^ k)) := by
  have hstep : Semiconj (Int.cast : Int → ZMod (2 ^ k)) Unbounded.advance (advanceLow k) := by
    intro y
    simp [Unbounded.advance, advanceLow]
  exact (hstep.iterate_right n x).symm

theorem isPeriodicPt_advanceLow_iff {k n : Nat} {x : Int} :
    IsPeriodicPt (advanceLow k) n x ↔ 2 ^ k ∣ Unbounded.advance^[n] x - x := by
  rw [IsPeriodicPt, IsFixedPt, iterate_advanceLow, eq_comm, intCast_low_eq_iff, Int.modEq_iff_dvd]

theorem minimalPeriod_advanceLow (k : Nat) (x : Int) : minimalPeriod (advanceLow k) x = 2 ^ k := by
  cases k with
  | zero =>
    have hround : IsPeriodicPt (advanceLow 0) 1 x := by
      rw [isPeriodicPt_advanceLow_iff, pow_zero]
      exact one_dvd _
    exact Nat.dvd_one.mp hround.minimalPeriod_dvd
  | succ k =>
    have hprime : Fact (Nat.Prime 2) := ⟨Nat.prime_two⟩
    apply minimalPeriod_eq_prime_pow
    · intro h
      obtain ⟨u, hodd, hgap⟩ := Unbounded.exists_gap_two_pow k x
      have hdvd : (2 ^ k * 2 : Int) ∣ 2 ^ k * u := by
        rw [← hgap, ← pow_succ]
        exact isPeriodicPt_advanceLow_iff.mp h
      have htwo : 2 ∣ u := Int.dvd_of_mul_dvd_mul_left (by positivity) hdvd
      exact Int.not_even_iff_odd.mpr hodd (even_iff_two_dvd.mpr htwo)
    · obtain ⟨u, -, hgap⟩ := Unbounded.exists_gap_two_pow (k + 1) x
      exact isPeriodicPt_advanceLow_iff.mpr ⟨u, hgap⟩

theorem Unbounded.iterate_modEq_iff {k m n : Nat} (x : Int) :
    advance^[m] x ≡ advance^[n] x [ZMOD 2 ^ k] ↔ m ≡ n [MOD 2 ^ k] := by
  have hround (n : Nat) : (advanceLow k)^[n % 2 ^ k] x = (advanceLow k)^[n] x := by
    apply IsPeriodicPt.iterate_mod_apply
    rw [isPeriodicPt_iff_minimalPeriod_dvd, minimalPeriod_advanceLow]
  have hless (n : Nat) : n % 2 ^ k < minimalPeriod (advanceLow k) (x : ZMod (2 ^ k)) := by
    rw [minimalPeriod_advanceLow]
    exact Nat.mod_lt n (by positivity)
  rw [← intCast_low_eq_iff, ← iterate_advanceLow, ← iterate_advanceLow, ← hround m, ← hround n]
  exact iterate_eq_iterate_iff_of_lt_minimalPeriod (hless m) (hless n)

/-! ## States and draws -/

theorem seeded_eq_iff {a b : Int} : seeded a = seeded b ↔ a ≡ b [ZMOD 2 ^ 32] := by
  have ha := keeps_seeded a
  have hb := keeps_seeded b
  unfold Keeps at ha hb
  rw [← UInt32.toNat_inj]
  unfold Int.ModEq
  omega

theorem iterate_seeded (seed : Int) (n : Nat) :
    advance^[n] (seeded seed) = seeded (Unbounded.advance^[n] seed) :=
  ((keeps_seeded seed).iterate n).eq_seeded

theorem iterate_seeded_eq_iff (seed : Int) {m n : Nat} :
    advance^[m] (seeded seed) = advance^[n] (seeded seed) ↔ m ≡ n [MOD 2 ^ 32] := by
  rw [iterate_seeded, iterate_seeded, seeded_eq_iff, Unbounded.iterate_modEq_iff]

theorem periodic_draw_iff (seed : Int) (system : Stream) {p : Nat} :
    Periodic (Supply.draw ⟨.linear (seeded seed), system⟩) p ↔ 2 ^ 31 ∣ p := by
  let s : Supply := ⟨.linear (seeded seed), system⟩
  have hlater : (s.drop p).draw = s.draw ↔ Alike (advance^[p] (seeded seed)) (seeded seed) := by
    rw [Supply.drop_linear, Supply.draw_linear_eq_iff]
  have hperiodic : Periodic s.draw p ↔ (s.drop p).draw = s.draw := by
    simp only [Periodic, funext_iff, Supply.draw_drop, Nat.add_comm p]
  rw [hperiodic, hlater, iterate_seeded, alike_seeded_iff]
  exact (Unbounded.iterate_modEq_iff (n := 0) seed).trans Nat.modEq_zero_iff_dvd

/-- A linear source of any seed goes through all its `2 ^ 32` states and comes back to the first. The least
period of its draws is `2 ^ 31`. -/
theorem states_distinct_draws_periodic (seed : Int) (system : Stream) :
    ∃ source states, Source.ofSeed (.integer seed) = .ok source ∧
      (∀ n, Supply.drop ⟨source, system⟩ n = ⟨.linear (states n), system⟩) ∧
      Set.InjOn states (Set.Iio (2 ^ 32)) ∧ states (2 ^ 32) = states 0 ∧
      IsLeast {p | 0 < p ∧ Periodic (Supply.draw ⟨source, system⟩) p} (2 ^ 31) := by
  refine ⟨.linear (seeded seed), fun n => advance^[n] (seeded seed), rfl, ?_, ?_, ?_, ?_, ?_⟩
  · exact Supply.drop_linear system (seeded seed)
  · intro m hm n hn h
    have hmod := (iterate_seeded_eq_iff seed).mp h
    exact Nat.ModEq.eq_of_lt_of_lt hmod hm hn
  · exact (iterate_seeded_eq_iff seed).mpr (by decide)
  · exact ⟨by decide, (periodic_draw_iff seed system).mpr dvd_rfl⟩
  · intro p hp
    exact Nat.le_of_dvd hp.1 ((periodic_draw_iff seed system).mp hp.2)

end SaltedHash.Salt
