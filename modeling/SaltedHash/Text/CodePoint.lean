/-!
# Texts

A text is a list of Unicode code points. Unlike a `String` it may hold lone surrogates,
because a password typed by a caller may, and the library has to say what becomes of it.
-/

namespace SaltedHash

/-- A Unicode code point, surrogates included. -/
abbrev CodePoint := Fin 0x110000

abbrev Text := List CodePoint

namespace CodePoint

def ofChar (c : Char) : CodePoint :=
  ⟨c.toNat, by
    have h := c.valid
    simp only [UInt32.isValidChar, Nat.isValidChar] at h
    show c.val.toNat < 0x110000
    omega⟩

/-- Surrogates are the code points that no character has. -/
def isSurrogate (c : CodePoint) : Bool := 0xD800 ≤ c.val && c.val ≤ 0xDFFF

@[simp] theorem val_ofChar (c : Char) : (ofChar c).val = c.toNat := rfl

theorem isSurrogate_ofChar (c : Char) : isSurrogate (ofChar c) = false := by
  have h := c.valid
  simp only [UInt32.isValidChar, Nat.isValidChar] at h
  have hv : c.val.toNat = c.toNat := rfl
  show (decide (0xD800 ≤ c.toNat) && decide (c.toNat ≤ 0xDFFF)) = false
  simp
  omega

end CodePoint

namespace Text

def ofString (s : String) : Text := s.toList.map CodePoint.ofChar

def ofNat (n : Nat) : Text := ofString (toString n)

def ofInt : Int → Text
  | .ofNat n => ofNat n
  | .negSucc n => CodePoint.ofChar '-' :: ofNat (n + 1)

def line (t : Text) : Text := t ++ [CodePoint.ofChar '\n']

def join (separator : Text) : List Text → Text
  | [] => []
  | [t] => t
  | t :: rest => t ++ separator ++ join separator rest

end Text

instance : Coe String Text := ⟨Text.ofString⟩

end SaltedHash
