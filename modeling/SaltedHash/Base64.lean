import SaltedHash.Octets

/-!
# Base64

The padded encoding of RFC 4648, and a strict reader: only digits, then only padding. The
reader drops the spare low bits of the last digit and forgives padding after a whole group,
so a text it accepts need not be the one that `encode` writes.
-/

namespace SaltedHash.Base64

/-! ## Digits -/

def digit (value : Nat) : CodePoint :=
  CodePoint.ofChar
    (if value < 26 then Char.ofNat (65 + value)
     else if value < 52 then Char.ofNat (71 + value)
     else if value < 62 then Char.ofNat (value - 4)
     else if value = 62 then '+'
     else '/')

def value? (c : CodePoint) : Option Nat :=
  if 65 ≤ c.val ∧ c.val ≤ 90 then some (c.val - 65)
  else if 97 ≤ c.val ∧ c.val ≤ 122 then some (c.val - 71)
  else if 48 ≤ c.val ∧ c.val ≤ 57 then some (c.val + 4)
  else if c.val = 43 then some 62
  else if c.val = 47 then some 63
  else none

def pad : CodePoint := CodePoint.ofChar '='

/-! ## Writing -/

def encode : Octets → Text
  | [] => []
  | [a] => [digit (a.toNat / 4), digit (a.toNat % 4 * 16), pad, pad]
  | [a, b] =>
    [digit (a.toNat / 4), digit (a.toNat % 4 * 16 + b.toNat / 16), digit (b.toNat % 16 * 4), pad]
  | a :: b :: c :: rest =>
    digit (a.toNat / 4) :: digit (a.toNat % 4 * 16 + b.toNat / 16) ::
      digit (b.toNat % 16 * 4 + c.toNat / 64) :: digit (c.toNat % 64) :: encode rest

/-! ## Reading -/

/-- Four digits to three octets; of two or three digits at the end the spare bits are dropped. -/
def octetsOf : List Nat → Octets
  | a :: b :: c :: d :: rest =>
    UInt8.ofNat (a * 4 + b / 16) :: UInt8.ofNat (b % 16 * 16 + c / 4) ::
      UInt8.ofNat (c % 4 * 64 + d) :: octetsOf rest
  | [a, b, c] => [UInt8.ofNat (a * 4 + b / 16), UInt8.ofNat (b % 16 * 16 + c / 4)]
  | [a, b] => [UInt8.ofNat (a * 4 + b / 16)]
  | _ => []

/-- Whether `padding` pad characters may follow `digits` digits. Two digits of a group need two
and three need one; after whole groups any number may stand, but not at the very start. -/
def padded (digits padding : Nat) : Bool :=
  match digits % 4 with
  | 0 => digits != 0 || padding == 0
  | 2 => padding == 2
  | 3 => padding == 1
  | _ => false

def decode (t : Text) : Option Octets :=
  let digits := t.takeWhile fun c => (value? c).isSome
  let padding := t.drop digits.length
  if padding.all (· == pad) && padded digits.length padding.length then
    some (octetsOf (digits.filterMap value?))
  else
    none

end SaltedHash.Base64
