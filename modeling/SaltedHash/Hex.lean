import SaltedHash.Octets

/-!
# Hexadecimal text

Writing octets as two digits each, and reading them back with the position of the first
fault. Blanks may stand between octets, as in a dump.
-/

namespace SaltedHash.Hex

def digit (value : Nat) : CodePoint :=
  CodePoint.ofChar (if value < 10 then Char.ofNat (48 + value) else Char.ofNat (87 + value))

def upperDigit (value : Nat) : CodePoint :=
  CodePoint.ofChar (if value < 10 then Char.ofNat (48 + value) else Char.ofNat (55 + value))

def value? (c : CodePoint) : Option Nat :=
  if 48 ≤ c.val ∧ c.val ≤ 57 then some (c.val - 48)
  else if 65 ≤ c.val ∧ c.val ≤ 70 then some (c.val - 55)
  else if 97 ≤ c.val ∧ c.val ≤ 102 then some (c.val - 87)
  else none

def encode (octets : Octets) : Text :=
  octets.flatMap fun octet => [digit (octet.toNat / 16), digit (octet.toNat % 16)]

def encodeUpper (octets : Octets) : Text :=
  octets.flatMap fun octet => [upperDigit (octet.toNat / 16), upperDigit (octet.toNat % 16)]

def isGap (c : CodePoint) : Bool := c.val == 32 || (9 ≤ c.val && c.val ≤ 13)

/-- Reads octets from `position` on; the error is the place of the first character that is not
the digit wanted there. -/
def decodeFrom (position : Nat) : Text → Except Nat Octets
  | [] => .ok []
  | c :: rest =>
    if isGap c then decodeFrom (position + 1) rest
    else
      match value? c with
      | none => .error position
      | some high =>
        match rest with
        | [] => .error (position + 1)
        | d :: rest =>
          match value? d with
          | none => .error (position + 1)
          | some low =>
            match decodeFrom (position + 2) rest with
            | .error place => .error place
            | .ok octets => .ok (UInt8.ofNat (16 * high + low) :: octets)

/-- The octets that a text spells. A character outside ASCII is reported before any other. -/
def decode (t : Text) : Except Nat Octets :=
  match t.findIdx? fun c => 128 ≤ c.val with
  | some position => .error position
  | none => decodeFrom 0 t

end SaltedHash.Hex
