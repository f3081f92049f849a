import SaltedHash.Crypt
import SaltedHash.Datum.Equal
import SaltedHash.HashStream
import SaltedHash.Record

/-!
# Known answers

Messages with their digests, and strings with the verdict on a plaintext. Each message is hashed
by the engine, by a second implementation, and by the engine in pieces of several sizes. The second
implementation is whatever the check is given; without one it is that of the library.
-/

namespace SaltedHash.SelfTest

structure KnownDigest where
  description : Datum
  message : Datum
  digest : Datum
  deriving Inhabited

structure KnownCrypt where
  plaintext : Datum
  crypt : Datum
  expected : Datum
  deriving Inhabited

def octetsOf (s : String) : Octets := (Text.utf8? (Text.ofString s)).getD []

def known (description message digest : String) : KnownDigest :=
  ⟨.text description, .octets (octetsOf message), .text digest⟩

def vectors : List KnownDigest :=
  [known "Empty message" "" "da39a3ee5e6b4b0d3255bfef95601890afd80709",
    known "FIPS 180 one-block message" "abc" "a9993e364706816aba3e25717850c26c9cd0d89d",
    known "FIPS 180 two-block message" "abcdbcdecdefdefgefghfghighijhijkijkljklmklmnlmnomnopnopq"
      "84983e441c3bd26ebaae4aa1f95129e5e54670f1",
    known "Pangram" "The quick brown fox jumps over the lazy dog"
      "2fd4e1c67a2d28fced849ee1bb76e7391b93eb12"]

def knownMatch (plaintext body : String) (expected : Bool) : KnownCrypt :=
  ⟨.text plaintext, .text (Crypt.tag ++ Text.ofString body), .flag expected⟩

def examples : List KnownCrypt :=
  [knownMatch "secret" "2gDsLm/57U00KyShbiYsgvPIsQtzYWx0" true,
    knownMatch "abcdef" "AZz7VpGpy0tnrooaGm++zs9zqgZiVHhbKEc=" true,
    knownMatch "abcdef" "6Nrfz6LziwIo8HsSAkjm/nCeledLUntDZlw=" true,
    knownMatch "abcdeg" "8Lqg317f9lLd0M3EnwIe7BHiH3liVHhbKEc=" true,
    knownMatch "abcdeg" "AZz7VpGpy0tnrooaGm++zs9zqgZiVHhbKEc=" false]

/-! ## Computing the digests -/

structure Computed where
  vector : KnownDigest
  computed : Text
  reference : Text
  deriving Inhabited

def compute (second : Hash) (v : KnownDigest) : Except Fault Computed := do
  let computed ← Sha1.digestHex v.message
  let reference ← second v.message
  return ⟨v, computed, Hex.encode reference⟩

def generateWith (second : Hash) (vectors : List KnownDigest) : Except Fault (List Computed) :=
  vectors.mapM (compute second)

/-! ## What is printed -/

structure Report where
  text : Text
  fault : Option Fault

def Report.ofLines : List (Except Fault Text) → Report
  | [] => ⟨[], none⟩
  | .error cause :: _ => ⟨[], some cause⟩
  | .ok line :: rest =>
    let later := Report.ofLines rest
    ⟨Text.line line ++ later.text, later.fault⟩

structure Outcome (α : Type) where
  stdout : Text
  value : Except Fault α
  log : List Log.Entry

def Report.outcome {α : Type} (r : Report) (value : α) (log : List Log.Entry) : Outcome α :=
  ⟨r.text, r.fault.elim (.ok value) .error, log⟩

/-! ## Checking the answers -/

def pieceSizes : List Nat := [1, 3, 63, 64, 65]

/-- The pieces of a message, with so many items each. -/
def pieces (message : Datum) (size : Nat) : Except Fault (List Datum) :=
  match message with
  | .octets o => .ok ((Octets.chunks size o).map .octets)
  | .buffer o => .ok ((Octets.chunks size o).map .buffer)
  | .view o gapped => .ok ((Octets.chunks size o).map (.view · gapped))
  | .words items => .ok ((Octets.chunks size items).map .words)
  | .grid g =>
    if g.shape.isEmpty then .error .noDimension
    else
      .ok ((List.range ((g.rows + size - 1) / size)).map fun i => .grid ((g.drop (i * size)).take size))
  -- Nothing else is hashed, unless it is no message at all.
  | message => message.count.map fun _ => []

def inPieces (message : Datum) (size : Nat) : Except Fault Text :=
  (pieces message size).bind HashStream.digestChunks

def failureReport (i : Nat) (c : Computed) : Report :=
  .ofLines
    [c.vector.description.display.map (s!"Test vector {i} failed: " ++ ·),
      c.vector.digest.display.map ("  Expected:  " ++ ·), .ok ("  Reference: " ++ c.reference),
      .ok ("  Got:       " ++ c.computed)]

def isKnown (v : KnownDigest) (digest : Text) : Bool := v.digest.equal (.text digest)

/-- The first size of pieces in which a message does not hash to its known digest. -/
def badPieces (c : Computed) : List Nat → Except Fault (Option Nat)
  | [] => .ok none
  | size :: rest => do
    let digest ← inPieces c.vector.message size
    if isKnown c.vector digest then badPieces c rest else return some size

/-- What is wrong with a vector, if anything: a digest, or the pieces of some size. -/
def vectorFailure (i : Nat) (c : Computed) : Except Fault (Option Report) :=
  if !(isKnown c.vector c.computed && isKnown c.vector c.reference) then
    .ok (some (failureReport i c))
  else
    (badPieces c pieceSizes).map fun size =>
      size.map fun size => .ofLines [.ok s!"Test vector {i} failed with {size}-byte updates"]

def firstVectorFailure (i : Nat) : List Computed → Except Fault (Option Report)
  | [] => .ok none
  | c :: rest => do
    match ← vectorFailure i c with
    | some report => return some report
    | none => firstVectorFailure (i + 1) rest

def cryptFailureReport (i : Nat) (e : KnownCrypt) : Report :=
  .ofLines [e.crypt.display.map (s!"Crypt example {i} failed: " ++ ·)]

def passed (vectors examples : Nat) : Report :=
  .ofLines [.ok s!"✓ All {vectors} test vectors and {examples} crypt examples passed"]

variable [Cryptography]

def firstExampleFailure (i : Nat) : List KnownCrypt → Logged (Except Fault (Option Report))
  | [] => ⟨.ok none, []⟩
  | e :: rest =>
    let verdict := Crypt.check e.crypt e.plaintext
    match verdict.value with
    | .error cause => ⟨.error cause, verdict.log⟩
    | .ok answer =>
      if !e.expected.equal (.flag answer) then ⟨.ok (some (cryptFailureReport i e)), verdict.log⟩
      else
        let later := firstExampleFailure (i + 1) rest
        ⟨later.value, verdict.log ++ later.log⟩

/-- Checks all vectors and then all examples, up to the first failure. -/
def validateWith (second : Hash) (vectors : List KnownDigest) (examples : List KnownCrypt) :
    Outcome Bool :=
  match (generateWith second vectors).bind (firstVectorFailure 0) with
  | .error cause => ⟨[], .error cause, []⟩
  | .ok (some report) => report.outcome false []
  | .ok none =>
    let failure := firstExampleFailure 1 examples
    match failure.value with
    | .error cause => ⟨[], .error cause, failure.log⟩
    | .ok (some report) => report.outcome false failure.log
    | .ok none => (passed vectors.length examples.length).outcome true failure.log

/-! ## With the library -/

def generate (vectors : List KnownDigest) : Except Fault (List Computed) :=
  generateWith Cryptography.hash vectors

def validate (vectors : List KnownDigest) (examples : List KnownCrypt) : Outcome Bool :=
  validateWith Cryptography.hash vectors examples

/-! ## Printing the vectors -/

def ruler : Text := List.replicate 70 (CodePoint.ofChar '=')

def knownOctets (digest : Datum) : Except Fault Text := do
  let .text t := digest | throw (.hexKind digest.kind)
  let octets ← Record.hexField t
  return Text.join [CodePoint.ofChar ':'] (octets.map fun octet => Sha1.hexItem octet.toNat)

def vectorReport (i : Nat) (c : Computed) : Report :=
  .ofLines
    [c.vector.description.display.map fun t => Text.line [] ++ (s!"Vector {i}: " ++ t),
      c.vector.message.count.map fun size => s!"  Length:     {size} bytes",
      (knownOctets (.text c.computed)).map ("  Calculated: " ++ ·),
      (knownOctets c.vector.digest).map ("  Known:      " ++ ·)]

def vectorLines (i : Nat) : List Computed → Report
  | [] => ⟨[], none⟩
  | c :: rest =>
    let report := vectorReport i c
    match report.fault with
    | some _ => report
    | none =>
      let later := vectorLines (i + 1) rest
      ⟨report.text ++ later.text, later.fault⟩

def print (vectors : List KnownDigest) : Outcome Unit :=
  let head := Text.line (Text.line [] ++ ruler) ++ Text.line "SHA-1 Test Vectors" ++ Text.line ruler
  match generate vectors with
  | .error cause => ⟨head, .error cause, []⟩
  | .ok computed =>
    let lines := vectorLines 0 computed
    match lines.fault with
    | some cause => ⟨head ++ lines.text, .error cause, []⟩
    | none =>
      ⟨head ++ lines.text ++ Text.line (Text.line [] ++ ruler ++ Text.line []), .ok (), []⟩

end SaltedHash.SelfTest
