import SaltedHash.Decimal

/-!
# Numbers of the binary64 format

A finite number is a significand of 53 bits and a power of two, and has a sign even if it is zero.
The least positive number is the unit, so a finite number is a whole count of units, and its
arithmetic is that of integers. What lies between two numbers is rounded to the nearer one, and
from the middle to the one with an even significand. What is no number is neither below nor above
any number, and not equal to itself.
-/

namespace SaltedHash

/-- A number of the format: `significand * 2 ^ exponent` units, infinity, or no number. -/
inductive Binary64 where
  | finite (negative : Bool) (significand : Fin 9007199254740992) (exponent : Fin 2046)
  | infinite (negative : Bool)
  | notANumber
  deriving DecidableEq, Repr

namespace Binary64

def zero (negative : Bool) : Binary64 := finite negative ⟨0, by decide⟩ ⟨0, by decide⟩

instance : Inhabited Binary64 := ⟨zero false⟩

def one : Nat := Nat.pow 2 1074

def signed (negative : Bool) (n : Nat) : Int := if negative then -Int.ofNat n else Int.ofNat n

def negative : Binary64 → Bool
  | finite negative _ _ => negative
  | infinite negative => negative
  | notANumber => false

def units? : Binary64 → Option Int
  | finite negative significand exponent =>
    some (signed negative (significand.val * Nat.pow 2 exponent.val))
  | infinite _ | notANumber => none

/-! ## Order -/

def below (x : Binary64) (n : Int) : Bool :=
  match x.units? with
  | some units => units < n * one
  | none => x == infinite true

def above (x : Binary64) (n : Int) : Bool :=
  match x.units? with
  | some units => n * one < units
  | none => x == infinite false

def isZero (x : Binary64) : Bool := x.units? == some 0

def isWhole (x : Binary64) : Bool :=
  match x.units? with
  | some units => units % one == 0
  | none => false

def truncate? (x : Binary64) : Option Int := x.units?.map fun units => units.tdiv one

def equalsInt (x : Binary64) (n : Int) : Bool := x.units? == some (n * one)

def equal (x y : Binary64) : Bool :=
  match x.units?, y.units? with
  | some a, some b => a == b
  | none, none => x == y && x != notANumber
  | _, _ => false

/-! ## Rounding -/

/-- The quotient to the nearest integer, and from the middle to the even one. -/
def nearest (n d : Nat) : Nat :=
  let q := n / d
  let r := n % d
  if 2 * r < d then q
  else if d < 2 * r then q + 1
  else if q % 2 = 0 then q
  else q + 1

def ofParts (negative : Bool) (significand exponent : Nat) : Binary64 :=
  if h : significand < 9007199254740992 ∧ exponent < 2046 then
    finite negative ⟨significand, h.1⟩ ⟨exponent, h.2⟩
  else if h : exponent + 1 < 2046 then
    finite negative ⟨4503599627370496, by decide⟩ ⟨exponent + 1, h⟩
  else infinite negative

def round (negative : Bool) (n d : Nat) : Binary64 :=
  let exponent := (n / d).log2 - 52
  ofParts negative (nearest n (d * Nat.pow 2 exponent)) exponent

def ofUnits (units : Int) : Binary64 := round (units < 0) units.natAbs 1

def ofInt? (n : Int) : Option Binary64 :=
  match ofUnits (n * one) with
  | infinite _ => none
  | x => some x

/-- The number nearest to a sum. A sum of zero is negative if both numbers are. -/
def add (x y : Binary64) : Binary64 :=
  match x.units?, y.units? with
  | some a, some b => if a + b = 0 then zero (x.negative && y.negative) else ofUnits (a + b)
  | some _, none => y
  | none, some _ => x
  | none, none => if x = y then x else notANumber

def ofDecimal (x : Decimal) : Binary64 :=
  let point : Int := Decimal.size x.digits + x.power
  if x.digits = 0 ∨ point < -400 then zero x.negative
  else if 400 < point then infinite x.negative
  else if 0 ≤ x.power then round x.negative (x.digits * Nat.pow 10 x.power.natAbs * one) 1
  else round x.negative (x.digits * one) (Nat.pow 10 x.power.natAbs)

end Binary64

end SaltedHash
