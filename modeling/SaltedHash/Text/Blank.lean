import SaltedHash.Text.CodePoint

/-!
# Blanks

Two sets of blank code points. White space is Unicode's property of that name. The separators
add to it the four information separators U+001C to U+001F, and a text splits into fields there.
-/

namespace SaltedHash

namespace CodePoint

def isWhite (c : CodePoint) : Bool :=
  let n := c.val
  (9 ≤ n && n ≤ 13) || n == 0x20 || n == 0x85 || n == 0xA0 || n == 0x1680 ||
    (0x2000 ≤ n && n ≤ 0x200A) || n == 0x2028 || n == 0x2029 || n == 0x202F || n == 0x205F ||
    n == 0x3000

def isSeparator (c : CodePoint) : Bool := isWhite c || (0x1C ≤ c.val && c.val ≤ 0x1F)

end CodePoint

namespace Text

def dropEnd (p : CodePoint → Bool) (t : Text) : Text := (t.reverse.dropWhile p).reverse

def trimBy (p : CodePoint → Bool) (t : Text) : Text := dropEnd p (t.dropWhile p)

def trim (t : Text) : Text := trimBy CodePoint.isWhite t

/-- The fields after `field`, which is read already. -/
def fieldsFrom (field : Text) : Text → List Text
  | [] => if field.isEmpty then [] else [field]
  | c :: rest =>
    if CodePoint.isSeparator c then
      if field.isEmpty then fieldsFrom [] rest else field :: fieldsFrom [] rest
    else fieldsFrom (field ++ [c]) rest

def fields (t : Text) : List Text := fieldsFrom [] t

end Text

end SaltedHash
