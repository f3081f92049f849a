import SaltedHash.CommandLine.Word

/-!
# From arguments to a request

The command and its operands are the first run of arguments between options. Operands in a later
run are not recognized. Options act where they stand: help ends the reading at once.
-/

namespace SaltedHash.CommandLine

structure Reading where
  found : Option (Command × List Text)
  saltLength : SaltLength
  unrecognized : List Text
  deriving DecidableEq, Repr

namespace Reading

def empty : Reading := ⟨none, .unsaid, []⟩

def leave (r : Reading) (arguments : List Text) : Reading :=
  { r with unrecognized := r.unrecognized ++ arguments }

/-! ## Operands -/

/-- Reads a run of operands: the command is the first of them, and the others are its own. Dividers
around the command do not count, and neither does the first one after these. -/
def operands (r : Reading) (run : List Word) : Except Halt Reading :=
  match r.found, run.dropWhile (·.role == .divider) with
  | none, first :: rest =>
    match Command.ofText? first.text with
    | some command =>
      let others := (rest.dropWhile (·.role == .divider)).map Word.text
      .ok { r with found := some (command, others.erase Word.divider) }
    | none => .error (.complaint (.unknownCommand first.text))
  | _, _ => .ok (r.leave (run.map Word.text))

/-! ## Options -/

def saltLengthOf (value : Text) : Except Halt SaltLength :=
  match Text.integer? value with
  | some n => .ok (.octets n)
  | none => .error (.complaint (.notAnInteger value))

def attachedLength (value : Text) : Except Halt SaltLength :=
  if value = Word.divider then .ok .empty else saltLengthOf value

/-- What the letters after a short help option come to. They are options themselves, and help is the
only one that a letter stands for. The first other letter, with all that follows it, is taken for a
value and refused. -/
def helpLetters : Text → Halt
  | [] => .help
  | c :: rest =>
    if c = CodePoint.ofChar 'h' then helpLetters rest
    else .complaint (.unwantedValue .help (c :: rest))

def option (r : Reading) (w : Word) : Except Halt Reading :=
  match w.role with
  | .option .help .nothing => .error .help
  | .option .help (.letters letters) => .error (helpLetters letters)
  | .option .help (.value value) => .error (.complaint (.unwantedValue .help value))
  | .option .saltLength .nothing => .error (.complaint (.missingValue .saltLength))
  | .option .saltLength (.value value) | .option .saltLength (.letters value) =>
    (attachedLength value).map fun saltLength => { r with saltLength }
  | .unknown | .operand | .divider => .ok (r.leave [w.text])

/-- Reads the words to the end. An option that wants a value and carries none takes the operand
after it. -/
def words (r : Reading) : List Word → Except Halt Reading
  | [] => .ok r
  | ⟨_, .option .saltLength .nothing⟩ :: ⟨value, .operand⟩ :: rest =>
    match saltLengthOf value with
    | .error halt => .error halt
    | .ok saltLength => words { r with saltLength } rest
  | w :: rest =>
    if w.isOption then
      match r.option w with
      | .error halt => .error halt
      | .ok r => words r rest
    else
      match r.operands (w :: rest.takeWhile (!·.isOption)) with
      | .error halt => .error halt
      | .ok r => words r (rest.dropWhile (!·.isOption))
termination_by list => list.length
decreasing_by
  all_goals simp only [List.length_cons]
  · omega
  · omega
  · have := (List.dropWhile_suffix (fun w : Word => !w.isOption) (l := rest)).length_le
    omega

def request (r : Reading) : Except Halt Request :=
  match r.found with
  | none => .error (.complaint .missingCommand)
  | some (command, operands) =>
    if r.unrecognized.isEmpty then .ok ⟨command, operands, r.saltLength⟩
    else .error (.complaint (.unrecognized r.unrecognized))

end Reading

def Request.ofArguments (arguments : List Text) : Except Halt Request :=
  match Word.ofArguments arguments with
  | .error complaint => .error (.complaint complaint)
  | .ok words => do
    let r ← Reading.empty.words words
    r.request

end SaltedHash.CommandLine
