import SaltedHash.Binary64.Basic

/-!
# Shortest decimals

The text of a number has the fewest digits that read back as the number. On the grid of decimals
with so many digits only the two neighbours of the number need a look; where both read back, the
nearer one is taken, and from the middle the even one.
-/

namespace SaltedHash.Binary64

def pointOf (units : Nat) : Int :=
  (Decimal.size (units * Nat.pow 10 400 / one) : Int) - 400

def neighbours (units : Nat) (power : Int) : List Nat :=
  let n := if power < 0 then units * Nat.pow 10 power.natAbs else units
  let d := if power < 0 then one else one * Nat.pow 10 power.natAbs
  let low := n / d
  if nearest n d = low then [low, low + 1] else [low + 1, low]

def allDigits (negative : Bool) (units : Nat) : Decimal :=
  ⟨negative, units * Nat.pow 5 1074, -1074⟩

/-- The shortest decimal of `units` units that has `size` digits or more; all digits, if `more`
sizes have been tried in vain. -/
def search (negative : Bool) (units : Nat) (size : Nat) : (more : Nat) → Decimal
  | 0 => allDigits negative units
  | more + 1 =>
    let power := pointOf units - size
    let candidates := (neighbours units power).map fun digits => Decimal.mk negative digits power
    match candidates.find? fun x => (ofDecimal x).units? == some (signed negative units) with
    | some x => x
    | none => search negative units (size + 1) more

/-- The shortest decimal of a finite number. Seventeen digits suffice. -/
def shortest (negative : Bool) (units : Nat) : Decimal :=
  if units = 0 then ⟨negative, 0, 0⟩ else search negative units 1 17

def toText : Binary64 → Text
  | finite negative significand exponent =>
    (shortest negative (significand.val * Nat.pow 2 exponent.val)).toText
  | infinite negative => if negative then "-inf" else "inf"
  | notANumber => "nan"

end SaltedHash.Binary64
