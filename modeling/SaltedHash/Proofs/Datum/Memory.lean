import Mathlib
import SaltedHash.Proofs.Datum.Items

/-!
# Pieces of memory

Octets that no gap divides are taken for one piece of memory, with one exception: a window without octets
may be refused, though nothing stands between them.
-/

namespace SaltedHash.Datum

/-- The octets of a value, if they stand one after another in memory. -/
def memory? : Datum → Option Octets
  | octets o | buffer o => some o
  | view seen gapped => if gapped && 1 < seen.length then none else some seen
  | words items => some (octetsOfWords items)
  | grid g => if g.contiguous then some g.seen else none
  | _ => none

/-- A window without octets that skips, or that is a grid. -/
def IsVoid : Datum → Prop
  | view seen gapped => gapped = true ∧ seen = []
  | grid g => g.seen = []
  | _ => False

theorem octets?_eq_some_iff {d : Datum} {o : Octets} :
    d.octets? = some o ↔ d.memory? = some o ∧ ¬ d.IsVoid := by
  cases d with
  | view seen gapped =>
    rcases gapped with _ | _ <;> rcases seen with _ | ⟨x, _ | ⟨y, rest⟩⟩ <;>
      simp [octets?, memory?, IsVoid, contiguous]
  | grid g =>
    by_cases hseen : g.seen = []
    · simp [octets?, memory?, IsVoid, hseen]
    · cases hgap : g.gapped <;> simp [octets?, memory?, IsVoid, Grid.contiguous, hseen, hgap]
  | _ => simp [octets?, memory?, IsVoid]

theorem octets?_of_isVoid {d : Datum} (h : d.IsVoid) : d.octets? = none := by
  cases hoctets : d.octets? with
  | none => rfl
  | some o => exact absurd h (octets?_eq_some_iff.mp hoctets).2

def noRows : Datum := grid ⟨[0, 3], [], false, rfl, by decide⟩

end SaltedHash.Datum
