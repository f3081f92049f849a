import SaltedHash.Text.Blank
import SaltedHash.Text.Digit

/-!
# Integers in text

Digits of any script with single underscores between them, after an optional sign and between
blanks.
-/

namespace SaltedHash.Text

/-- The value of digits after `value` of them is read. One underscore may stand before a digit,
and none at the end. -/
def digitsFrom (value : Nat) : Text → Option Nat
  | [] => some value
  | c :: rest =>
    match CodePoint.digit? c with
    | some d => digitsFrom (10 * value + d) rest
    | none =>
      if c = CodePoint.ofChar '_' then
        match rest with
        | [] => none
        | d :: rest =>
          match CodePoint.digit? d with
          | some d => digitsFrom (10 * value + d) rest
          | none => none
      else none

def digits? (t : Text) : Option Nat :=
  match t with
  | [] => none
  | c :: _ => if (CodePoint.digit? c).isSome then digitsFrom 0 t else none

def sign (t : Text) : Int × Text :=
  match t with
  | c :: rest =>
    if c = CodePoint.ofChar '-' then (-1, rest)
    else if c = CodePoint.ofChar '+' then (1, rest)
    else (1, t)
  | [] => (1, [])

def maxDigits : Nat := 4300

def integer? (t : Text) : Option Int :=
  let (factor, body) := sign (trim t)
  if maxDigits < (body.filter fun c => (CodePoint.digit? c).isSome).length then none
  else (digits? body).map fun n => factor * n

end SaltedHash.Text
