import SaltedHash.Text.Printable

/-!
# Quoted text

A text as messages show it: between quotes, with what has no picture written as an escape.
-/

namespace SaltedHash.Text

def hexDigits : (width : Nat) → (n : Nat) → List Char
  | 0, _ => []
  | width + 1, n => hexDigits width (n / 16) ++ [Nat.digitChar (n % 16)]

def escape (c : CodePoint) : List Char :=
  if c.val < 0x100 then '\\' :: 'x' :: hexDigits 2 c.val
  else if c.val < 0x10000 then '\\' :: 'u' :: hexDigits 4 c.val
  else '\\' :: 'U' :: hexDigits 8 c.val

def quotedPoint (quote c : CodePoint) : Text :=
  if c = quote || c = CodePoint.ofChar '\\' then [CodePoint.ofChar '\\', c]
  else if c = CodePoint.ofChar '\t' then ofString "\\t"
  else if c = CodePoint.ofChar '\n' then ofString "\\n"
  else if c = CodePoint.ofChar '\r' then ofString "\\r"
  else if CodePoint.isPrintable c then [c]
  else (escape c).map CodePoint.ofChar

/-- Single quotes, unless the text has a single quote in it and no double one. -/
def quoteFor (t : Text) : CodePoint :=
  if t.contains (CodePoint.ofChar '\'') && !t.contains (CodePoint.ofChar '"') then
    CodePoint.ofChar '"'
  else CodePoint.ofChar '\''

def quoted (t : Text) : Text :=
  let quote := quoteFor t
  quote :: (t.flatMap (quotedPoint quote) ++ [quote])

end SaltedHash.Text
