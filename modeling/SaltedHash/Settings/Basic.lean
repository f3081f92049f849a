import SaltedHash.Datum.Basic

/-!
# Settings

Five fields, each with a default and a rule of its own. A field is judged alone: what one field
holds has no say in what becomes of another. Where the fields have their values from, and how a
text or an integer is read, is left to a library.
-/

namespace SaltedHash

inductive SaltSource where
  | system | linear
  deriving DecidableEq, Repr, Inhabited

def SaltSource.name : SaltSource → String
  | system => "system"
  | linear => "linear"

structure Settings where
  /-- The name of the log's threshold. Whether there is such a threshold is not asked here. -/
  logLevel : Text
  saltLength : Int
  saltSource : SaltSource
  /-- The seed of the linear source; without one the clock is the seed. -/
  saltSeed : Option Int
  readChunkSize : Int
  deriving DecidableEq, Repr, Inhabited

namespace Settings

def default : Settings := ⟨"WARNING", 6, .system, none, 65536⟩

inductive Field where
  | logLevel | saltLength | saltSource | saltSeed | readChunkSize
  deriving DecidableEq, Repr

def Field.name : Field → String
  | logLevel => "log_level"
  | saltLength => "salt_length"
  | saltSource => "salt_source"
  | saltSeed => "salt_seed"
  | readChunkSize => "read_chunk_size"

inductive Problem where
  | notText
  | notASource
  | integerText
  | integerKind
  | fraction
  /-- An integer of too many digits, or too large to be given as a number with a point. -/
  | integerSize
  | infinite
  /-- A text with a lone surrogate, where more is asked than to keep it. -/
  | surrogate
  | below (least : Nat)
  | above (most : Nat)
  | notAbove (bound : Nat)
  deriving DecidableEq, Repr

def Problem.code : Problem → String
  | notText => "string_type"
  | notASource => "literal_error"
  | integerText => "int_parsing"
  | integerKind => "int_type"
  | fraction => "int_from_float"
  | integerSize => "int_parsing_size"
  | infinite => "finite_number"
  | surrogate => "string_unicode"
  | below _ => "greater_than_equal"
  | above _ => "less_than_equal"
  | notAbove _ => "greater_than"

def Problem.message : Problem → String
  | notText => "Input should be a valid string"
  | notASource => "Input should be 'system' or 'linear'"
  | integerText => "Input should be a valid integer, unable to parse string as an integer"
  | integerKind => "Input should be a valid integer"
  | fraction => "Input should be a valid integer, got a number with a fractional part"
  | integerSize => "Unable to parse input string as an integer, exceeded maximum size"
  | infinite => "Input should be a finite number"
  | surrogate => "Input should be a valid string, unable to parse raw data as a unicode string"
  | below least => s!"Input should be greater than or equal to {least}"
  | above most => s!"Input should be less than or equal to {most}"
  | notAbove bound => s!"Input should be greater than {bound}"

/-! ## The rules of the fields -/

def sourceOf : Datum → Except Problem SaltSource
  | .text t =>
    if t.any CodePoint.isSurrogate then .error .surrogate
    else if t = "system" then .ok .system
    else if t = "linear" then .ok .linear
    else .error .notASource
  | _ => .error .notASource

/-! ## A library of settings -/

abbrev Given := Field → Option Datum

abbrev Binding := Text × Option Text

/-- What is left to a library of settings. -/
structure Library where
  /-- The variables that the text of a file gives in an environment. -/
  bindings : (environment : List (Text × Text)) → (file : Text) → List Binding
  /-- The values of the fields, of which the arguments, the environment and the file give some. -/
  choose : (arguments : List (Text × Datum)) → (environment : List (Text × Text)) →
    (file : List Binding) → Given
  /-- The text that a value is read as. -/
  text : Datum → Except Problem Text
  /-- The integer that a value is read as. -/
  integer : Datum → Except Problem Int

namespace Library

variable (lib : Library)

def seedOf : Datum → Except Problem (Option Int)
  | .nothing => .ok none
  | d => (lib.integer d).map some

def saltLengthOf (d : Datum) : Except Problem Int := do
  let n ← lib.integer d
  if n < 1 then throw (.below 1)
  if 16 < n then throw (.above 16)
  return n

def chunkSizeOf (d : Datum) : Except Problem Int := do
  let n ← lib.integer d
  if n ≤ 0 then throw (.notAbove 0)
  return n

end Library

/-! ## Judging all fields -/

def resolve {α : Type} (rule : Datum → Except Problem α) (fallback : α) :
    Option Datum → Except Problem α
  | none => .ok fallback
  | some d => rule d

structure Refusal where
  field : Field
  problem : Problem
  deriving DecidableEq, Repr

def refusal {α : Type} (field : Field) : Except Problem α → List Refusal
  | .ok _ => []
  | .error problem => [⟨field, problem⟩]

/-- The settings that the given values make, or what is wrong with them, field by field. -/
def Library.ofGiven (lib : Library) (given : Given) : Except (List Refusal) Settings :=
  let logLevel := resolve lib.text default.logLevel (given .logLevel)
  let saltLength := resolve lib.saltLengthOf default.saltLength (given .saltLength)
  let saltSource := resolve sourceOf default.saltSource (given .saltSource)
  let saltSeed := resolve lib.seedOf default.saltSeed (given .saltSeed)
  let readChunkSize := resolve lib.chunkSizeOf default.readChunkSize (given .readChunkSize)
  match logLevel, saltLength, saltSource, saltSeed, readChunkSize with
  | .ok logLevel, .ok saltLength, .ok saltSource, .ok saltSeed, .ok readChunkSize =>
    .ok { logLevel, saltLength, saltSource, saltSeed, readChunkSize }
  | _, _, _, _, _ =>
    .error (refusal .logLevel logLevel ++ refusal .saltLength saltLength ++
      refusal .saltSource saltSource ++ refusal .saltSeed saltSeed ++
      refusal .readChunkSize readChunkSize)

def Library.ofSources (lib : Library) (arguments : List (Text × Datum))
    (environment : List (Text × Text)) (file : Text) : Except (List Refusal) Settings :=
  lib.ofGiven (lib.choose arguments environment (lib.bindings environment file))

def Library.ofEnvironment (lib : Library) (environment : List (Text × Text)) :
    Except (List Refusal) Settings :=
  lib.ofSources [] environment []

end Settings

end SaltedHash
