import SaltedHash.Datum.Basic
import SaltedHash.Fault
import SaltedHash.Sha1.Standard

/-!
# A library of cryptography

Two things are not done here: octets are compared by a library, in a time that does not tell where
they differ, and known answers are checked against its implementation of the hash. Of the library
nothing is used but what it promises.
-/

namespace SaltedHash

abbrev Hash := Datum → Except Fault Octets

/-- An implementation gives messages within the ceiling the digest of the standard. -/
def Hash.MeetsStandard (hash : Hash) : Prop :=
  ∀ m : Octets, m.length ≤ maxMessageOctets → hash (.octets m) = .ok (Sha1.Standard.digest m)

/-- What is used of a library, and what it promises. -/
class Cryptography where
  same : Octets → Octets → Bool
  same_iff : ∀ a b, same a b = true ↔ a = b
  hash : Hash
  meetsStandard : hash.MeetsStandard

namespace Cryptography

theorem same_eq [Cryptography] (a b : Octets) : same a b = (a == b) := by
  rw [Bool.eq_iff_iff, same_iff, beq_iff_eq]

/-- The digest that the standard gives a message. The library takes octets, and so no window of
words. -/
def reference : Hash
  | .words _ => .error (.notABuffer .window)
  | message =>
    match message.octets? with
    | some octets => .ok (Sha1.Standard.digest octets)
    | none => .error (.notABuffer message.kind)

instance plain : Cryptography where
  same a b := a == b
  same_iff _ _ := beq_iff_eq
  hash := reference
  meetsStandard _ _ := rfl

end Cryptography

end SaltedHash
