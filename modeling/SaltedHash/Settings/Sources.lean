import SaltedHash.Settings.Numeral
import SaltedHash.Settings.VariableFile

/-!
# Where settings come from

Arguments of a call come before variables of the environment, and these before a file of
variables. Names are compared without regard to case; variables carry a tag before the name.
Where one source gives a name twice, the first argument counts, or else the last variable.
-/

namespace SaltedHash.Settings

/-- The lower-case form of a code point, as far as it is an ASCII letter. The Kelvin sign is a
capital K too. -/
def lower (c : CodePoint) : CodePoint :=
  if h : 65 ≤ c.val ∧ c.val ≤ 90 then ⟨c.val + 32, by omega⟩
  else if c.val = 0x212A then CodePoint.ofChar 'k'
  else c

def variableTag : Text := "sshacrypt_"

def lookupFirst {α : Type} (name : Text) (entries : List (Text × α)) : Option α :=
  (entries.find? fun entry => entry.1.map lower == name).map Prod.snd

def lookupLast {α : Type} (name : Text) (entries : List (Text × α)) : Option α :=
  lookupFirst name entries.reverse

def ofArguments (arguments : List (Text × Datum)) : Given :=
  fun field => lookupFirst field.name arguments

def ofVariables (bindings : List Binding) : Given :=
  fun field =>
    match lookupLast (variableTag ++ Text.ofString field.name) bindings with
    | some (some value) => some (.text value)
    | _ => none

def lookedUp (arguments : List (Text × Datum)) (environment : List (Text × Text))
    (file : List Binding) : Given :=
  fun field =>
    (ofArguments arguments field).or
      ((ofVariables (environment.map fun entry => (entry.1, some entry.2)) field).or
        (ofVariables file field))

def textOf : Datum → Except Problem Text
  | .text t => .ok t
  | _ => .error .notText

/-- The library that the program is run with. -/
def usual : Library where
  bindings := VariableFile.resolve
  choose := lookedUp
  text := textOf
  integer := integerOf

end SaltedHash.Settings
