import SaltedHash.Sha1.Context
import SaltedHash.Hex

/-!
# Digests

Hashing in one call, hashing a salt together with a plaintext, and the text of a digest.
-/

namespace SaltedHash.Sha1

def digestSize : Nat := 20

def blockSize : Nat := 64

def blockWords : Nat := 16

def digest (data : Datum) : Except Fault Octets :=
  match Context.new data with
  | .error cause => .error cause
  | .ok c => c.final.1

def digestHex (data : Datum) : Except Fault Text := (digest data).map Hex.encode

def Context.finalHex (c : Context) : Except Fault Text × Context :=
  let (digest, c) := c.final
  (digest.map Hex.encode, c)

/-! ## Salt and plaintext -/

def plaintextOctets (plaintext : Datum) : Except Fault Octets :=
  match plaintext with
  | .text t =>
    match Text.utf8? t with
    | some octets => .ok octets
    | none => .error (.input .plaintextSurrogate)
  | .released => .error .released
  | plaintext =>
    match plaintext.octets? with
    | some octets => .ok octets
    | none => .error (.input (.plaintextKind plaintext.kind))

def saltOctets (salt : Datum) : Except Fault Octets :=
  match salt with
  | .nothing => .ok []
  | salt => dataOctets salt

/-- The digest of the salt and then the plaintext. The plaintext is judged first. -/
def saltedDigest (salt plaintext : Datum) : Except Fault Octets := do
  let secret ← plaintextOctets plaintext
  let salt ← saltOctets salt
  let salted ← Context.fresh.extend salt
  let full ← salted.extend secret
  return (full.absorb full.padding).chain.octets

/-! ## Upper-case octets with a separator -/

def hexItem (n : Int) : Text :=
  let digits := (Nat.toDigits 16 n.natAbs).map Char.toUpper
  if n < 0 then Text.ofString (String.ofList ('-' :: digits))
  else Text.ofString (String.ofList (List.replicate (2 - digits.length) '0' ++ digits))

def formatItem (item : Datum) : Except Fault Text :=
  match item with
  | .flag b => .ok (hexItem (if b then 1 else 0))
  | .integer n => .ok (hexItem n)
  | .real _ => .error (.formatCode .real)
  | .text _ => .error (.formatCode .text)
  | item => .error (.noFormat item.kind)

def digestItems (digest : Datum) : Except Fault (List Datum) :=
  match digest with
  | .list items => .ok items
  | .text t => .ok (t.map fun c => .text [c])
  | .mapping entries => .ok (entries.map fun entry => .text entry.1)
  | .octets o | .buffer o | .view o _ => .ok (o.map fun octet => .integer octet.toNat)
  | .words items => .ok (items.map fun w => .integer w.toNat)
  | .grid g => .error (if g.shape.isEmpty then .noDimension else .rowOfGrid)
  | .released => .error .released
  | digest => .error (.notIterable digest.kind)

/-- The items of a digest as upper-case octets, joined by the separator. Octets are a separator
too, but join only octets: with them an empty digest alone has a form, which is empty octets. -/
def formatDigest (digest separator : Datum) : Except Fault Datum := do
  match separator with
  | .text _ | .octets _ | .buffer _ => pure ()
  | separator => throw (.noMember separator.kind "join")
  let items ← digestItems digest
  let texts ← items.mapM formatItem
  match separator with
  | .text sep => return .text (Text.join sep texts)
  | separator =>
    if texts.isEmpty then
      return (if separator.kind = .buffer then .buffer [] else .octets [])
    else throw (.joinedByOctets separator.kind)

def colon : Datum := .text [CodePoint.ofChar ':']

end SaltedHash.Sha1
