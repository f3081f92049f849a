import SaltedHash.Cryptography
import SaltedHash.Sha1.Digest
import SaltedHash.Text.Blank
import SaltedHash.Log

/-!
# Password records

A record pairs a salt with the digest of the salt and the plaintext. Its binary form is the salt
and then the digest; its text is the two in upper-case hexadecimal with a space between.

The sizes are counted in the items of the values a record is built from, before these are turned
into octets.
-/

namespace SaltedHash

structure Record where
  salt : Octets
  digest : Octets
  deriving DecidableEq, Repr, Inhabited

namespace Record

def saltSize : Nat := 8

def size : Nat := saltSize + Sha1.digestSize

/-- A record of a salt of eight items and a digest of twenty. -/
def make (salt digest : Datum) : Except Fault Record := do
  let n ← salt.count
  if n ≠ saltSize then throw (.saltSize n)
  let n ← digest.count
  if n ≠ Sha1.digestSize then throw (.digestSize n)
  let salt ← salt.toOctets
  let digest ← digest.toOctets
  return ⟨salt, digest⟩

/-! ## Binary form -/

def toOctets (r : Record) : Octets := r.salt ++ r.digest

def ofOctets (data : Datum) : Except Fault Record := do
  let n ← data.count
  if n ≠ size then throw (.recordSize n)
  let salt ← (data.takeItems saltSize).toOctets
  let digest ← (data.dropItems saltSize).toOctets
  make (.octets salt) (.octets digest)

/-! ## Text -/

def toHex (r : Record) : Text :=
  Hex.encodeUpper r.salt ++ CodePoint.ofChar ' ' :: Hex.encodeUpper r.digest

def hexField (t : Text) : Except Fault Octets :=
  match Hex.decode t with
  | .ok octets => .ok octets
  | .error position => .error (.hexDigit position)

/-- Reads a text of two fields. The digits are judged before the sizes, and the salt before the
digest. -/
def ofHex (text : Datum) : Except Fault Record :=
  match text with
  | .text t =>
    match Text.fields t with
    | [salt, digest] => do
      let salt ← hexField salt
      let digest ← hexField digest
      make (.octets salt) (.octets digest)
    | _ => .error .fieldCount
  | .octets o | .buffer o =>
    -- Octets have fields too, but no hexadecimal text is read from them.
    let isBlank := fun octet : UInt8 => octet = 32 ∨ (9 ≤ octet ∧ octet ≤ 13)
    let fields := o.splitBy fun x y => decide (isBlank x) == decide (isBlank y)
    if (fields.filter fun field => !field.any fun x => decide (isBlank x)).length = 2 then
      .error (.hexKind text.kind)
    else .error .fieldCount
  | text => .error (.noMember text.kind "split")

/-! ## Passwords -/

def ofPlaintext (salt plaintext : Datum) : Logged (Except Fault Record) :=
  match salt.count with
  | .error cause => ⟨.error cause, []⟩
  | .ok n =>
    if n ≠ saltSize then ⟨.error (.saltSize n), []⟩
    else
      match Sha1.saltedDigest salt plaintext with
      | .error cause => ⟨.error cause, []⟩
      | .ok digest =>
        match salt.toOctets with
        | .error cause => ⟨.error cause, []⟩
        | .ok octets =>
          ⟨make (.octets octets) (.octets digest),
            [⟨.debug, .passwd, "Password record created (salt=" ++ Hex.encode octets ++ ")"⟩]⟩

/-- Whether two records have the same digest. The salts are not looked at: records are compared
that were built with one salt. -/
def sameDigest [Cryptography] (a b : Record) : Bool := Cryptography.same a.digest b.digest

end Record

end SaltedHash
