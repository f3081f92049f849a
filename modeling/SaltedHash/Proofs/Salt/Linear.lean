import Mathlib
import SaltedHash.Proofs.Salt.Draws

/-!
# The linear generator without a bound

The state of the linear generator is the low 32 bits of a state that grows without bound, and a draw
looks only at those. So the draws are those of the generator over the integers, whatever the seed.
-/

namespace SaltedHash.Salt

/-! ## The generator over the integers -/

namespace Unbounded

def advance (x : Int) : Int := x * 1103515245 + 12345

def output (x : Int) : Int := (x.fdiv 65536).fmod 32768

theorem output_eq (x : Int) : output x = x / 65536 % 32768 := by
  rw [output, Int.fdiv_eq_ediv_of_nonneg _ (by decide), Int.fmod_eq_emod_of_nonneg _ (by decide)]

theorem output_bounds (x : Int) : 0 ≤ output x ∧ output x ≤ 32767 := by
  rw [output_eq]
  omega

end Unbounded

/-! ## Low bits -/

/-- A state holds the low 32 bits of an integer. -/
def Keeps (state : UInt32) (x : Int) : Prop := (state.toNat : Int) = x % 2 ^ 32

theorem keeps_seeded (x : Int) : Keeps (seeded x) x := by
  have hnonneg := Int.emod_nonneg x (by decide : (2 ^ 32 : Int) ≠ 0)
  have hsmall : (x % 2 ^ 32).toNat < 2 ^ 32 := by omega
  have hstate : (seeded x).toNat = (x % 2 ^ 32).toNat := UInt32.toNat_ofNat_of_lt' hsmall
  rw [Keeps, hstate, Int.toNat_of_nonneg hnonneg]

theorem Keeps.eq_seeded {state : UInt32} {x : Int} (h : Keeps state x) : state = seeded x := by
  apply UInt32.toNat_inj.mp
  have hseeded := keeps_seeded x
  unfold Keeps at h hseeded
  omega

theorem toNat_advance (state : UInt32) :
    (advance state).toNat = (state.toNat * 1103515245 + 12345) % 2 ^ 32 := by
  simp [advance, UInt32.toNat_add, UInt32.toNat_mul]

theorem Keeps.advance {state : UInt32} {x : Int} (h : Keeps state x) :
    Keeps (advance state) (Unbounded.advance x) := by
  have hstate := toNat_advance state
  unfold Keeps at h ⊢
  unfold Unbounded.advance
  omega

theorem Keeps.iterate {state : UInt32} {x : Int} (h : Keeps state x) (n : Nat) :
    Keeps (Salt.advance^[n] state) (Unbounded.advance^[n] x) := by
  induction n with
  | zero => exact h
  | succ n ih =>
    rw [Function.iterate_succ_apply', Function.iterate_succ_apply']
    exact ih.advance

/-- The bits above the low 32 do not reach an output. -/
theorem Keeps.output {state : UInt32} {x : Int} (h : Keeps state x) :
    (output state : Int) = Unbounded.output x := by
  unfold Keeps at h
  rw [Unbounded.output_eq, Salt.output, maxOutput]
  omega

/-! ## Draws -/

theorem Supply.draw_linear (state : UInt32) (system : Stream) (i : Nat) :
    draw ⟨.linear state, system⟩ i = output (advance^[i + 1] state) := by
  rw [draw, drop_linear, Function.iterate_succ_apply']
  rfl

/-- The draws of a linear source are the outputs of the generator over the integers, and what the
source keeps are the low bits of the state there. -/
theorem draws_unbounded (seed : Int) (system : Stream) :
    ∃ source, Source.ofSeed (.integer seed) = .ok source ∧
      ∀ n, Supply.draw ⟨source, system⟩ n = Unbounded.output (Unbounded.advance^[n + 1] seed) ∧
        0 ≤ Supply.draw ⟨source, system⟩ n ∧ Supply.draw ⟨source, system⟩ n ≤ 32767 ∧
        Supply.drop ⟨source, system⟩ n = ⟨.linear (seeded (Unbounded.advance^[n] seed)), system⟩ := by
  refine ⟨.linear (seeded seed), rfl, ?_⟩
  intro n
  have hkept := (keeps_seeded seed).iterate
  have hdraw : Supply.draw ⟨.linear (seeded seed), system⟩ n =
      Unbounded.output (Unbounded.advance^[n + 1] seed) := by
    rw [Supply.draw_linear, (hkept (n + 1)).output]
  obtain ⟨hlow, hhigh⟩ := Unbounded.output_bounds (Unbounded.advance^[n + 1] seed)
  rw [hdraw, Supply.drop_linear, (hkept n).eq_seeded]
  exact ⟨rfl, hlow, hhigh, rfl⟩

example : Supply.draw ⟨.linear (seeded 1), default⟩ 0 = 16838 := rfl

end SaltedHash.Salt
