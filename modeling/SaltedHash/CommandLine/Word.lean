import SaltedHash.CommandLine.Command

/-!
# Options among the arguments

Each argument is an option, an operand, or the divider after which all are operands. An option may
be shortened as long as one option alone starts that way, and may carry its value after an equals
sign. A negative number and an argument with a space in it are operands, unless they spell an
option.
-/

namespace SaltedHash.CommandLine

inductive Attached where
  | nothing
  | value (text : Text)
  /-- What stands right after an option of one letter, or after it and an equals sign: at least one
  character. -/
  | letters (text : Text)
  deriving DecidableEq, Repr

inductive Role where
  | operand
  | divider
  | option (flag : Flag) (attached : Attached)
  | unknown
  deriving DecidableEq, Repr

structure Word where
  text : Text
  role : Role
  deriving DecidableEq, Repr

namespace Word

def hyphen : CodePoint := CodePoint.ofChar '-'

def divider : Text := [hyphen, hyphen]

def spellings : List (Text × Flag) :=
  [("-h", .help), ("--help", .help), ("--salt-length", .saltLength)]

def spelled? (t : Text) : Option Flag :=
  (spellings.find? fun entry => entry.1 == t).map Prod.snd

def splitValue (t : Text) : Text × Attached :=
  match t.span (· ≠ CodePoint.ofChar '=') with
  | (name, _ :: value) => (name, .value value)
  | (name, []) => (name, .nothing)

def allDigits (t : Text) : Bool := !t.isEmpty && t.all fun c => (CodePoint.digit? c).isSome

/-- Whether a text is a hyphen and then a number, with or without a point. One line feed may
follow. -/
def isNegativeNumber (t : Text) : Bool :=
  let t := if t.getLast? = some (CodePoint.ofChar '\n') then t.dropLast else t
  match t with
  | [] => false
  | c :: body =>
    c == hyphen &&
      (allDigits body ||
        match body.span fun c => (CodePoint.digit? c).isSome with
        | (_, point :: fraction) => point == CodePoint.ofChar '.' && allDigits fraction
        | _ => false)

def isShort (name : Text) : Bool := name.length == 2

/-- What a value after an equals sign is to the option with a name. A value of an option of one
letter is letters. -/
def attach (name value : Text) : Attached :=
  if isShort name && !value.isEmpty then .letters value else .value value

def shortened (name : Text) : List Flag :=
  (spellings.filter fun entry => name.isPrefixOf entry.1).map Prod.snd

def shortRole (t : Text) (c : CodePoint) (tail : Text) : Except Complaint Role :=
  let (name, attached) := splitValue t
  let found :=
    if c = hyphen then (shortened name).map fun flag => Role.option flag attached
    else ((spelled? [hyphen, c]).map fun flag => Role.option flag (.letters tail)).toList
  match found with
  | [role] => .ok role
  | _ :: _ :: _ => .error (.ambiguous t)
  | [] =>
    if isNegativeNumber t || t.contains (CodePoint.ofChar ' ') then .ok .operand else .ok .unknown

def roleOf (t : Text) : Except Complaint Role :=
  match t with
  | [] => .ok .operand
  | [_] => .ok .operand
  | c :: d :: tail =>
    if c ≠ hyphen then .ok .operand
    else
      match spelled? t with
      | some flag => .ok (.option flag .nothing)
      | none =>
        match splitValue t with
        | (name, .value value) =>
          match spelled? name with
          | some flag => .ok (.option flag (attach name value))
          | none => shortRole t d tail
        | _ => shortRole t d tail

def ofArguments : List Text → Except Complaint (List Word)
  | [] => .ok []
  | t :: rest =>
    if t = divider then .ok (⟨t, .divider⟩ :: rest.map fun t => ⟨t, .operand⟩)
    else do
      let role ← roleOf t
      let words ← ofArguments rest
      return ⟨t, role⟩ :: words

def isOption (w : Word) : Bool :=
  match w.role with
  | .option _ _ | .unknown => true
  | .operand | .divider => false

end Word

end SaltedHash.CommandLine
