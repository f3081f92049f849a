import SaltedHash.CommandLine.Parser
import SaltedHash.CommandLine.Usage
import SaltedHash.FileTree
import SaltedHash.Host
import SaltedHash.Prompt
import SaltedHash.SelfTest

/-!
# Running a command

A run is a function of its arguments and of what it may consult: the host, the answers to its
prompts, the files and the standard input. It yields everything it shows and how it ends.
-/

namespace SaltedHash.CommandLine

structure Sources where
  answers : List Prompt.Answer
  read : Text → Except FileFault Octets
  stdin : HashStream.Input
  /-- The size of the largest buffer that a read can have. -/
  room : Nat

inductive Ending where
  | status (code : Nat)
  | exit (code : Nat)
  | fault (cause : Fault)
  deriving DecidableEq, Repr

/-- All that a run shows. Commands write to `out` and `err`; the explanations of the command line
and the self-test write to the streams of the process. -/
structure Transcript where
  ending : Ending
  asked : List Text
  out : Text
  err : Text
  stdout : Text
  stderr : Text
  log : List Log.Entry
  deriving DecidableEq, Repr

namespace Transcript

def silent (ending : Ending) : Transcript := ⟨ending, [], [], [], [], [], []⟩

def logged (entries : List Log.Entry) (t : Transcript) : Transcript :=
  { t with log := entries ++ t.log }

/-- The run of a program by itself, which has the streams of the process only, and which exits with
the status of its command. -/
def asProgram (t : Transcript) : Transcript :=
  { t with
    ending := match t.ending with | .status code => .exit code | ending => ending
    out := []
    err := []
    stdout := t.stdout ++ t.out
    stderr := t.stderr ++ t.err }

end Transcript

/-! ## Failures that commands handle -/

def onFault : Fault → Ending × Text
  | .input cause => (.status 1, Text.line ("Error: " ++ cause.message))
  | cause => (.fault cause, [])

def onStop : Prompt.Stop → Ending × Text
  | .endOfInput => (.status 1, Text.line [])
  | .interrupted => (.status 1, Text.line (Text.line (Text.line []) ++ "Interrupted by user"))
  | .fault cause => onFault cause

def afterDialogue {α : Type} (h : Host) (d : Prompt.Dialogue α)
    (next : Host → α → Transcript × Host) : Transcript × Host :=
  let h := h.drawn d.supply
  let (t, h) :=
    match d.result with
    | .ok value => next h value
    | .error stop =>
      let (ending, err) := onStop stop
      ({ Transcript.silent ending with err }, h)
  ({ t with asked := d.asked ++ t.asked, err := d.err ++ t.err, log := d.log ++ t.log }, h)

/-! ## The commands -/

section

variable [Cryptography]

def mkpass (h : Host) (source : Salt.Source) (answers : List Prompt.Answer) : Transcript × Host :=
  afterDialogue h (Prompt.record ⟨source, h.system⟩ answers) fun h record =>
    ({ Transcript.silent (.status 0) with out := Text.line record.toHex }, h)

def crypt (h : Host) (source : Salt.Source) (saltLength : SaltLength)
    (answers : List Prompt.Answer) : Transcript × Host :=
  let dialogue := Prompt.password ⟨source, h.system⟩ answers
  afterDialogue h dialogue fun h plaintext =>
    let room := Datum.integer Crypt.maxLength
    let made := h.makeCrypt plaintext room saltLength.datum (some source)
    let log := made.result.log
    match made.result.value with
    | .ok (some text) =>
      ({ Transcript.silent (.status 0) with out := Text.line text, log }, made.host)
    | .ok none =>
      ({ Transcript.silent (.status 1) with
          err := Text.line "Error: could not create password hash", log }, made.host)
    | .error cause =>
      let (ending, err) := onFault cause
      ({ Transcript.silent ending with err, log }, made.host)

def check (h : Host) (source : Salt.Source) (text : Text) (answers : List Prompt.Answer) :
    Transcript × Host :=
  afterDialogue h (Prompt.once ⟨source, h.system⟩ answers) fun h plaintext =>
    let verdict := Crypt.check (.text text) plaintext
    let log := verdict.log
    match verdict.value with
    | .ok true => ({ Transcript.silent (.status 0) with out := Text.line "OK", log }, h)
    | .ok false => ({ Transcript.silent (.status 1) with out := Text.line "FAILED", log }, h)
    | .error cause =>
      let (ending, err) := onFault cause
      ({ Transcript.silent ending with err, log }, h)

end

def digestLine (digest name : Text) : Text := Text.line (digest ++ "  " ++ name)

/-- Hashes files one after another. A file that cannot be read has a line among the errors and makes
the status one; a failure of another sort ends the run. The status so far comes along. -/
def digestFiles (sources : Sources) (chunkSize : Int) (status : Nat) :
    List Text → Transcript
  | [] => .silent (.status status)
  | operand :: rest =>
    let name := FileName.normal operand
    match FileName.fault? name with
    | some cause => .silent (.fault cause)
    | none =>
      match sources.read name with
      | .error cause =>
        let later := digestFiles sources chunkSize 1 rest
        { later with err := Text.line (name ++ ": " ++ Text.ofString cause.message) ++ later.err }
      | .ok content =>
        match HashStream.digestFile sources.room content chunkSize with
        | .error cause =>
          let (ending, err) := onFault cause
          { Transcript.silent ending with err }
        | .ok digest =>
          let later := digestFiles sources chunkSize status rest
          { later with out := digestLine digest name ++ later.out }

def digest (h : Host) (files : List Text) (sources : Sources) : Transcript :=
  if files.isEmpty then
    match HashStream.digestInput sources.room sources.stdin h.settings.readChunkSize with
    | .error cause =>
      let (ending, err) := onFault cause
      { Transcript.silent ending with err }
    | .ok digest => { Transcript.silent (.status 0) with out := digestLine digest "-" }
  else digestFiles sources h.settings.readChunkSize 0 files

variable [Cryptography]

def selftest (vectors : List SelfTest.KnownDigest) (examples : List SelfTest.KnownCrypt) :
    Transcript :=
  let printed := SelfTest.print vectors
  match printed.value with
  | .error cause =>
    let (ending, err) := onFault cause
    { Transcript.silent ending with err, stdout := printed.stdout, log := printed.log }
  | .ok () =>
    let checked := SelfTest.validate vectors examples
    let stdout := printed.stdout ++ checked.stdout
    let log := printed.log ++ checked.log
    match checked.value with
    | .error cause =>
      let (ending, err) := onFault cause
      { Transcript.silent ending with err, stdout, log }
    | .ok verdict => { Transcript.silent (.status (if verdict then 0 else 1)) with stdout, log }

/-! ## A run -/

def perform (h : Host) (source : Salt.Source) (sources : Sources) (r : Request) :
    Transcript × Host :=
  match r.command with
  | .mkpass => mkpass h source sources.answers
  | .crypt => crypt h source r.saltLength sources.answers
  | .check =>
    match r.operands with
    | [text] => check h source text sources.answers
    | _ =>
      ({ Transcript.silent (.status 2) with
          err := Text.line "Error: check needs exactly one \x7bSSHA\x7d string" }, h)
  | .digest => (digest h r.operands sources, h)
  | .selftest => (selftest SelfTest.vectors SelfTest.examples, h)

def announcement (h : Host) (c : Command) : Log.Entry :=
  ⟨.debug, .main, s!"Running {c.name} with {h.settings.saltSource.name} salt source"⟩

/-- Runs the program on its arguments. The log has a threshold before anything else happens, and
shows the entries that reach it. -/
def run (h : Host) (arguments : List Text) (sources : Sources) : Transcript × Host :=
  match Log.threshold? h.settings.logLevel with
  | none => (.silent (.fault (.unknownLevel h.settings.logLevel)), h)
  | some threshold =>
    match Request.ofArguments arguments with
    | .error .help =>
      ({ Transcript.silent (.exit 0) with stdout := help h.settings.saltLength }, h)
    | .error (.complaint what) =>
      ({ Transcript.silent (.exit 2) with stderr := complaintText what }, h)
    | .ok request =>
      let source := h.sourceOfSettings
      let (t, h) :=
        match source.value with
        | .error cause => (Transcript.silent (.fault cause), h)
        | .ok source =>
          let (t, h) := perform h source sources request
          (t.logged [announcement h request.command], h)
      let t := t.logged source.log
      ({ t with log := Log.atLeast threshold t.log }, h)

end SaltedHash.CommandLine
