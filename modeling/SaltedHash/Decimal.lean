import SaltedHash.Text.CodePoint

/-!
# Decimal numbers

A number in decimal digits: an integer of digits and a power of ten. The number is written
positionally as long as it is neither very large nor very small.
-/

namespace SaltedHash

structure Decimal where
  negative : Bool
  digits : Nat
  power : Int
  deriving DecidableEq, Repr, Inhabited

namespace Decimal

def size (n : Nat) : Nat := (toString n).toList.length

def trimZeros (digits : List Char) : List Char :=
  (digits.reverse.dropWhile (· == '0')).reverse

/-- The digits with a point after `point` of them and at least one digit on either side. -/
def positional (digits : List Char) (point : Int) : List Char :=
  if point ≤ 0 then
    '0' :: '.' :: (List.replicate point.natAbs '0' ++ digits)
  else
    let whole := digits.take point.toNat ++ List.replicate (point.toNat - digits.length) '0'
    let fraction := digits.drop point.toNat
    whole ++ '.' :: (if fraction = [] then ['0'] else fraction)

def scientific (digits : List Char) (power : Int) : List Char :=
  let mantissa :=
    match digits with
    | first :: second :: rest => first :: '.' :: second :: rest
    | digits => digits
  let size := (toString power.natAbs).toList
  mantissa ++ 'e' :: (if power < 0 then '-' else '+') ::
    (List.replicate (2 - size.length) '0' ++ size)

/-- The number without needless zeros: positional when the first digit stands between the fourth
place after the point and the sixteenth before it, scientific beyond. -/
def toChars (x : Decimal) : List Char :=
  let sign := if x.negative then ['-'] else []
  let digits := trimZeros (toString x.digits).toList
  let point : Int := size x.digits + x.power
  if x.digits = 0 then sign ++ ['0', '.', '0']
  else if -4 < point ∧ point ≤ 16 then sign ++ positional digits point
  else sign ++ scientific digits (point - 1)

def toText (x : Decimal) : Text := x.toChars.map CodePoint.ofChar

end Decimal

end SaltedHash
