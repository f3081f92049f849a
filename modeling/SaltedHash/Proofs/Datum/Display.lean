import Mathlib
import SaltedHash.Datum.Display

/-!
# Numbers in messages

A message that names a number can be written unless the number is an integer of too many digits.
-/

namespace SaltedHash.Datum

def IsLong : Datum → Prop
  | integer n => 10 ^ Text.maxDigits ≤ n.natAbs
  | _ => False

instance : DecidablePred IsLong
  | integer n => inferInstanceAs (Decidable (10 ^ Text.maxDigits ≤ n.natAbs))
  | nothing | flag _ | real _ | text _ | list _ | octets _ | buffer _ | view _ _ | words _ | grid _
  | released | mapping _ => inferInstanceAs (Decidable False)

theorem display_integer (n : Int) :
    (integer n).display =
      if 10 ^ Text.maxDigits ≤ n.natAbs then .error .tooManyDigits else .ok (Text.ofInt n) := by
  rw [display, nested, integerText, Nat.pow_eq]
  exact nofun

theorem display_of_isLong {d : Datum} (h : d.IsLong) : d.display = .error .tooManyDigits := by
  cases d with
  | integer n => exact (display_integer n).trans (if_pos h)
  | _ => cases h

theorem exists_display {d : Datum} {n : Number} (hnumber : d.number? = some n) (h : ¬ d.IsLong) :
    ∃ t, d.display = .ok t := by
  cases d with
  | integer n => exact ⟨_, (display_integer n).trans (if_neg h)⟩
  | flag b => exact ⟨_, rfl⟩
  | real x => exact ⟨_, rfl⟩
  | _ => cases hnumber

theorem naming_of_isLong {d : Datum} (h : d.IsLong) (cause : Text → Fault) :
    d.naming cause = .tooManyDigits := by
  rw [naming, display_of_isLong h]

theorem exists_naming {d : Datum} {n : Number} (hnumber : d.number? = some n) (h : ¬ d.IsLong)
    (cause : Text → Fault) : ∃ t, d.naming cause = cause t := by
  obtain ⟨t, ht⟩ := exists_display hnumber h
  exact ⟨t, by rw [naming, ht]⟩

end SaltedHash.Datum
