import SaltedHash.CommandLine.Run
import SaltedHash.Settings.Sources

/-!
# The program

The thin layer around `CommandLine.run`: it fetches what a run may consult and prints what the run
shows. A run is a pure function, so it is simply run again when it turns out to need another answer
or more random bits; what it has shown before stays the same.
-/

namespace SaltedHash.Program

/-! ## Texts and strings -/

def toString (t : Text) : String :=
  String.ofList (t.map fun c => if CodePoint.isSurrogate c then '\uFFFD' else Char.ofNat c.val)

/-! ## What a run may consult -/

def variableNames : List String :=
  let fields : List Settings.Field :=
    [.logLevel, .saltLength, .saltSource, .saltSeed, .readChunkSize]
  let names := fields.map fun field => "sshacrypt_" ++ field.name
  names ++ names.map String.toUpper

def environment : IO (List (Text × Text)) := do
  let found ← variableNames.filterMapM fun name => do
    return (← IO.getEnv name).map fun value => (Text.ofString name, Text.ofString value)
  return found

def variableFile : IO Text := do
  try return Text.ofString (← IO.FS.readFile ".env")
  catch _ => return []

/-- The seconds of the clock, read off a file that is made for it. -/
def clock : IO Datum.Number := do
  let (_, path) ← IO.FS.createTempFile
  let time := (← path.metadata).modified
  IO.FS.removeFile path
  let nanoseconds := time.sec * 1000000000 + time.nsec.toNat
  return .real (Binary64.ofDecimal ⟨nanoseconds < 0, nanoseconds.natAbs, -9⟩)

def randomDraws (n : Nat) : IO (List Int) :=
  (List.range n).mapM fun _ => do
    let bytes ← IO.getRandomBytes 4
    return Int.ofNat (Octets.toNat bytes.toList)

def readFile (name : String) : IO (Except FileFault Octets) := do
  try return .ok (← IO.FS.readBinFile name).toList
  catch
    | .noFileOrDirectory _ _ _ => return .error .missing
    | .inappropriateType _ 20 _ => return .error .notADirectory
    | .inappropriateType _ _ _ => return .error .directory
    | .invalidArgument _ _ _ => return .error .nameTooLong
    | error => return .error (.other error.toString)

def contents (arguments : List Text) :
    IO (List (Text × Except FileFault Octets) × Octets) := do
  match CommandLine.Request.ofArguments arguments with
  | .ok ⟨.digest, [], _⟩ =>
    let bytes ← (← IO.getStdin).readBinToEnd
    return ([], bytes.toList)
  | .ok ⟨.digest, operands, _⟩ =>
    let files ← operands.mapM fun operand => do
      let name := FileName.normal operand
      return (name, ← readFile (toString name))
    return (files, [])
  | _ => return ([], [])

/-- The size of the largest buffer, as far as the addresses of a machine reach. -/
def room : Nat := 140737488355327

/-! ## Running -/

structure Progress where
  answers : List Prompt.Answer
  draws : List Int
  printed : Nat

def ask (prompt : Text) : IO (Option Text) := do
  let err ← IO.getStderr
  err.putStr (toString prompt)
  err.flush
  let line ← (← IO.getStdin).getLine
  if line.isEmpty then return none
  return some (Text.ofString (if line.endsWith "\n" then (line.dropEnd 1).toString else line))

partial def settle (run : List Prompt.Answer → List Int → CommandLine.Transcript × Host)
    (p : Progress) : IO (CommandLine.Transcript × Nat) := do
  let (t, h) := run p.answers p.draws
  if p.draws.length < h.system.taken then
    let more ← randomDraws (h.system.taken - p.draws.length)
    settle run { p with draws := p.draws ++ more }
  else if p.answers.length < t.asked.length then
    -- The end of the input is the last thing that such a run writes about.
    let soFar := t.err.dropLast
    (← IO.getStderr).putStr (toString (soFar.drop p.printed))
    match ← ask (t.asked.getLast?.getD []) with
    | some answer =>
      settle run { p with answers := p.answers ++ [.given (.text answer)], printed := soFar.length }
    | none => return (t, soFar.length)
  else return (t, p.printed)

def finish (t : CommandLine.Transcript) (printed : Nat) : IO UInt32 := do
  let out ← IO.getStdout
  let err ← IO.getStderr
  for entry in t.log do
    err.putStrLn s!"{entry.channel.name} - {entry.level.name} - {toString entry.text}"
  out.putStr (toString (t.stdout ++ t.out))
  err.putStr (toString (t.stderr ++ t.err.drop printed))
  match t.ending with
  | .status code | .exit code => return UInt32.ofNat code
  | .fault cause =>
    err.putStrLn (toString cause.message)
    return 1

end SaltedHash.Program

open SaltedHash SaltedHash.Program in
def main (arguments : List String) : IO UInt32 := do
  let err ← IO.getStderr
  match Settings.usual.ofSources [] (← environment) (← variableFile) with
  | .error refusals =>
    for refusal in refusals do
      err.putStrLn s!"{refusal.field.name}: {refusal.problem.message}"
    return 1
  | .ok settings =>
    let arguments := arguments.map Text.ofString
    let clock ← clock
    let (files, stdin) ← contents arguments
    let read := fun name => (files.lookup name).getD (.error .missing)
    let run := fun answers draws =>
      CommandLine.run ⟨settings, clock, Salt.Stream.cycle draws, none⟩ arguments
        ⟨answers, read, ⟨stdin, false⟩, room⟩
    let (t, printed) ← settle run ⟨[], [], 0⟩
    finish t printed
