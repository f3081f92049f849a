import SaltedHash.Settings.Basic
import SaltedHash.Text.Integer

/-!
# Integers in settings

A plain integer is digits without a needless zero, perhaps after a minus sign. A setting may be
loose about it: blanks around it, a plus sign, zeros in front, a fraction of zeros and underscores
are taken away one after another, and a minus sign is set aside meanwhile. What is left has to be
plain.

Zeros and underscores in front may stand before a minus sign as well as before a digit.
-/

namespace SaltedHash.Settings.Numeral

local instance : Coe Char CodePoint := ⟨CodePoint.ofChar⟩

inductive Problem where
  | malformed
  | tooLong
  deriving DecidableEq, Repr

def isDigit (c : CodePoint) : Bool := (CodePoint.asciiDigit? c).isSome

def isLeading (c : CodePoint) : Bool :=
  isDigit c && c ≠ ('0' : CodePoint) || c = ('-' : CodePoint)

/-! ## What is taken away -/

def minus (t : Text) : Bool × Text :=
  match t with
  | c :: rest => if c = ('-' : CodePoint) then (true, rest) else (false, t)
  | [] => (false, [])

def dropPlus? (t : Text) : Option Text :=
  match t with
  | [] => some []
  | c :: rest =>
    if c ≠ ('+' : CodePoint) then some t
    else if rest.head? = some ('-' : CodePoint) then none
    else some rest

/-- What is kept of a text after the zero or underscore `last`. It is the one that is kept when
nothing else follows, or the point of a fraction. -/
def afterZero? (last : CodePoint) : Text → Option Text
  | [] => some [last]
  | c :: rest =>
    if c = ('0' : CodePoint) || c = ('_' : CodePoint) then afterZero? c rest
    else if isLeading c then some (c :: rest)
    else if c = ('.' : CodePoint) then some (last :: c :: rest)
    else none

def dropZeros? (t : Text) : Option Text :=
  match t with
  | [] => none
  | c :: rest =>
    if c = ('0' : CodePoint) then afterZero? c rest
    else if isLeading c then some t
    else none

def dropFraction (t : Text) : Text :=
  match t.span (· ≠ ('.' : CodePoint)) with
  | (whole, _ :: first :: more) =>
    if (first :: more).all (· = ('0' : CodePoint)) then whole else t
  | _ => t

def spaced (t : Text) : Bool :=
  t.head? ≠ some ('_' : CodePoint) && t.getLast? ≠ some ('_' : CodePoint) &&
    !(t.zip (t.drop 1)).any fun pair => pair == (('_' : CodePoint), ('_' : CodePoint))

def dropUnderscores (t : Text) : Text := if spaced t then t.filter (· ≠ ('_' : CodePoint)) else t

/-! ## What is left -/

def value (digits : Text) : Nat :=
  digits.foldl (fun n c => 10 * n + (CodePoint.asciiDigit? c).getD 0) 0

/-- The integer of a plain text. Its length is that of its digits, without the sign, and too many of
them are found out before anything wrong behind them. -/
def plain (t : Text) : Except Problem Int :=
  let (negative, digits) := minus t
  let run := digits.takeWhile isDigit
  if digits.head? = some ('0' : CodePoint) then
    if digits.length = 1 then .ok 0 else .error .malformed
  else if run.isEmpty then .error .malformed
  else if Text.maxDigits < run.length then .error .tooLong
  else if run.length ≠ digits.length then .error .malformed
  else .ok (if negative then -Int.ofNat (value run) else Int.ofNat (value run))

def tighten? (t : Text) : Option Text := do
  let (negative, unsigned) := minus (← dropPlus? (Text.trim t))
  let digits := dropUnderscores (dropFraction (← dropZeros? unsigned))
  return if negative then ('-' : CodePoint) :: digits else digits

def loose? (t : Text) : Option Int := do (plain (← tighten? t)).toOption

/-- The integer that a text spells. A plain reading comes first and alone finds that there are too
many digits: what has to be tightened to be read is malformed when it is too long. -/
def read (t : Text) : Except Problem Int :=
  match plain t with
  | .error .malformed => (loose? t).elim (.error .malformed) .ok
  | result => result

end SaltedHash.Settings.Numeral

namespace SaltedHash.Settings

def integerOfText (t : Text) : Except Problem Int :=
  if t.any CodePoint.isSurrogate then .error .surrogate
  else
    match Numeral.read t with
    | .ok n => .ok n
    | .error .malformed => .error .integerText
    | .error .tooLong => .error .integerSize

def integerOfReal (x : Binary64) : Except Problem Int :=
  match x.truncate? with
  | none => .error .infinite
  | some n =>
    if !x.isWhole then .error .fraction
    else if x.above (-9223372036854775808) && x.below 9223372036854775808 then .ok n
    else .error .integerSize

def integerOf : Datum → Except Problem Int
  | .integer n => .ok n
  | .flag b => .ok (if b then 1 else 0)
  | .real x => integerOfReal x
  | .text t => integerOfText t
  | _ => .error .integerKind

end SaltedHash.Settings
