import SaltedHash.Text.CodePoint

/-!
# UTF-8

The octets of a text. A text that holds a surrogate has none.
-/

namespace SaltedHash

abbrev Octets := List UInt8

namespace CodePoint

def utf8 (c : CodePoint) : Octets :=
  let n := c.val
  if n < 0x80 then
    [UInt8.ofNat n]
  else if n < 0x800 then
    [UInt8.ofNat (0xC0 + n / 0x40), UInt8.ofNat (0x80 + n % 0x40)]
  else if n < 0x10000 then
    [UInt8.ofNat (0xE0 + n / 0x1000), UInt8.ofNat (0x80 + n / 0x40 % 0x40),
      UInt8.ofNat (0x80 + n % 0x40)]
  else
    [UInt8.ofNat (0xF0 + n / 0x40000), UInt8.ofNat (0x80 + n / 0x1000 % 0x40),
      UInt8.ofNat (0x80 + n / 0x40 % 0x40), UInt8.ofNat (0x80 + n % 0x40)]

end CodePoint

namespace Text

/-- The UTF-8 octets of a text, or `none` if a code point of it is a surrogate. -/
def utf8? (t : Text) : Option Octets :=
  if t.any CodePoint.isSurrogate then none else some (t.flatMap CodePoint.utf8)

end Text

end SaltedHash
