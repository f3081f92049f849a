import SaltedHash.Base64
import SaltedHash.Record
import SaltedHash.Salt.Source

/-!
# Salted SHA-1 strings

The tag of the scheme and then, in Base64, the digest of the salt and the plaintext followed by
the salt. The digest comes first, so the salt is whatever remains after twenty octets.

Reading a string never says to the caller why it is refused; the log does.
-/

namespace SaltedHash.Crypt

def tag : Text := ['\x7b', 'S', 'S', 'H', 'A', '\x7d'].map CodePoint.ofChar

def maxSalt : Nat := 16

def defaultSalt : Nat := 6

/-- The room that any string fits in, with one place left over: the tag and the Base64 size of a
payload rounded up to a multiple of four. -/
def maxLength : Nat :=
  tag.length + ((Sha1.digestSize + maxSalt + 3) / 4 * 4) * 4 / 3 + 1

def encode (digest salt : Octets) : Text := tag ++ Base64.encode (digest ++ salt)

def entry (level : Log.Level) (text : Text) : Log.Entry := ⟨level, .crypt, text⟩

/-! ## Writing -/

def refused (text : Except Fault Text) : Logged (Except Fault (Option Text)) :=
  match text with
  | .ok text => ⟨.ok none, [entry .error text]⟩
  | .error cause => ⟨.error cause, []⟩

def outsideRange (length : Text) : Text := "Salt length " ++ length ++ s!" outside 1-{maxSalt}"

def overflowing (size : Nat) (room : Text) : Text :=
  "Buffer of " ++ room ++ s!" cannot hold a {size} character password"

def fits (size : Nat) (room : Datum) : Except Fault Bool :=
  match room.number? with
  | none => .error (.notOrdered ">=" .integer room.kind)
  | some n => .ok (!n.atMost size)

/-- The string for a plaintext and a salt, or `none` if the salt has no length that is allowed,
the plaintext cannot be hashed, or the string does not fit the room. -/
def create (plaintext salt room : Datum) : Logged (Except Fault (Option Text)) :=
  match salt.count with
  | .error cause => ⟨.error cause, []⟩
  | .ok n =>
    if n = 0 ∨ maxSalt < n then refused (.ok (outsideRange (Text.ofNat n)))
    else
      match Sha1.saltedDigest salt plaintext with
      | .error (.input cause) => refused (.ok ("Cannot hash plaintext: " ++ cause.message))
      | .error cause => ⟨.error cause, []⟩
      | .ok digest =>
        match salt.toOctets with
        | .error cause => ⟨.error cause, []⟩
        | .ok octets =>
          let text := encode digest octets
          match fits text.length room with
          | .error cause => ⟨.error cause, []⟩
          | .ok false => refused (room.display.map (overflowing text.length))
          | .ok true =>
            ⟨.ok (some text),
              [entry .debug ("Password hash created (salt=" ++ Hex.encode octets ++ ")")]⟩

def allowsLength (length : Datum) : Except Fault Bool :=
  match length.number? with
  | none => .error (.notOrdered "<=" .integer length.kind)
  | some n => .ok (n.atLeast 1 && n.atMost maxSalt)

structure Fresh where
  result : Logged (Except Fault (Option Text))
  supply : Salt.Supply

/-- The string for a plaintext and a new salt. A length that is not allowed draws nothing; any
other outcome has drawn the salt. -/
def createFresh (plaintext room length : Datum) (supply : Salt.Supply) : Fresh :=
  match allowsLength length with
  | .error cause => ⟨⟨.error cause, []⟩, supply⟩
  | .ok false => ⟨refused (length.display.map outsideRange), supply⟩
  | .ok true =>
    match Salt.generate length supply with
    | (.error cause, supply) => ⟨⟨.error cause, []⟩, supply⟩
    | (.ok salt, supply) => ⟨create plaintext (.octets salt) room, supply⟩

/-! ## Reading -/

def isTagged (value : Datum) : Bool :=
  match value with
  | .text t => tag.isPrefixOf t
  | _ => false

def body? (value : Datum) : Option Text :=
  match value with
  | .text t => if tag.isPrefixOf t ∧ tag.length < t.length then some (t.drop tag.length) else none
  | _ => none

inductive Refusal where
  | untagged
  | undecodable
  | payloadSize (size : Nat)
  | notCanonical
  | plaintext (cause : InputFault)
  deriving DecidableEq, Repr

def Refusal.message : Refusal → Text
  | untagged => "Not a salted SHA-1 crypt"
  | undecodable => "Crypt decode error"
  | payloadSize size => s!"Crypt payload of {size} bytes has no usable salt"
  | notCanonical => "Crypt is not canonically encoded"
  | plaintext cause => "Cannot hash candidate plaintext: " ++ cause.message

/-- The digest and the salt that a string carries. A text is taken for the encoding of them only if
they are written in this very way. -/
def payload (crypt : Datum) : Except Refusal Octets := do
  let some text := body? crypt | throw .untagged
  let some payload := Base64.decode text | throw .undecodable
  if payload.length ≤ Sha1.digestSize ∨ Sha1.digestSize + maxSalt < payload.length then
    throw (.payloadSize payload.length)
  if Base64.encode payload ≠ text then throw .notCanonical
  return payload

def mismatch (cause : Refusal) : Logged (Except Fault Bool) :=
  ⟨.ok false, [entry .debug cause.message]⟩

/-- Whether a plaintext matches a string. A refusal goes to the log and counts as no match. -/
def check [Cryptography] (crypt plaintext : Datum) : Logged (Except Fault Bool) :=
  match payload crypt with
  | .error cause => mismatch cause
  | .ok payload =>
    match Sha1.saltedDigest (.octets (payload.drop Sha1.digestSize)) plaintext with
    | .error (.input cause) => mismatch (.plaintext cause)
    | .error cause => ⟨.error cause, []⟩
    | .ok digest => ⟨.ok (Cryptography.same digest (payload.take Sha1.digestSize)), []⟩

end SaltedHash.Crypt
