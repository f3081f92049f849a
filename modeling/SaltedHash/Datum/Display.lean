import SaltedHash.Binary64.Shortest
import SaltedHash.Datum.Basic
import SaltedHash.Fault
import SaltedHash.Text.Integer

/-!
# Values in messages

How a message writes a value: a text stands as it is, and inside a list or a mapping it stands
between quotes. An integer of more digits than are read is not written either.
-/

namespace SaltedHash.Datum

def pointsOf (octets : Octets) : Text :=
  octets.map fun o => ⟨o.toNat, Nat.lt_trans o.toNat_lt (by decide)⟩

def literal (escaped : CodePoint) (octets : Octets) : Text :=
  let points := pointsOf octets
  let quote := Text.quoteFor points
  let body := points.flatMap fun c =>
    if 0x7F ≤ c.val then (Text.escape c).map CodePoint.ofChar else Text.quotedPoint escaped c
  CodePoint.ofChar 'b' :: quote :: (body ++ [quote])

def fixedLiteral (octets : Octets) : Text := literal (Text.quoteFor (pointsOf octets)) octets

def bufferLiteral (octets : Octets) : Text :=
  "bytearray(" ++ literal (CodePoint.ofChar '\'') octets ++ ")"

/-- The decimal digits of an integer, unless there are too many. -/
def integerText (n : Int) : Except Fault Text :=
  if Nat.pow 10 Text.maxDigits ≤ n.natAbs then .error .tooManyDigits else .ok (Text.ofInt n)

mutual

def nested : Datum → Except Fault Text
  | nothing => .ok "None"
  | flag b => .ok (if b then "True" else "False")
  | integer n => integerText n
  | real x => .ok x.toText
  | text t => .ok (Text.quoted t)
  | list items => (nestedItems items).map fun t => "[" ++ t ++ "]"
  | octets o => .ok (fixedLiteral o)
  | buffer o => .ok (bufferLiteral o)
  | view _ _ | words _ | grid _ => .ok "<memory>"
  | released => .ok "<released memory>"
  | mapping entries => (nestedEntries entries).map fun t => "\x7b" ++ t ++ "\x7d"

def nestedItems : List Datum → Except Fault Text
  | [] => .ok []
  | [d] => nested d
  | d :: rest => do return (← nested d) ++ ", " ++ (← nestedItems rest)

def nestedEntries : List (Text × Datum) → Except Fault Text
  | [] => .ok []
  | [(key, d)] => (nested d).map fun t => Text.quoted key ++ ": " ++ t
  | (key, d) :: rest => do
    return Text.quoted key ++ ": " ++ (← nested d) ++ ", " ++ (← nestedEntries rest)

end

def display : Datum → Except Fault Text
  | text t => .ok t
  | d => nested d

/-- The fault whose message names a value, unless the value cannot be written. -/
def naming (d : Datum) (cause : Text → Fault) : Fault :=
  match d.display with
  | .ok t => cause t
  | .error fault => fault

end SaltedHash.Datum
