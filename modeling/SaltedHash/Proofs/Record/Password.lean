import Mathlib
import SaltedHash.Proofs.Record.Serialization
import SaltedHash.Proofs.Sha1.Salted

/-!
# Passwords that are tried again

The record of a password is written and read back any number of times, and another password is tried
with the salt that was read. The two match if the salt has the same digest with both.
-/

namespace SaltedHash.Record

/-! ## Records for plaintexts -/

theorem ofPlaintext_of_hashable {salt plaintext : Datum} {s p : Octets}
    (hsalt : salt = .octets s ∨ salt = .buffer s) (hs : s.length = 8)
    (hp : Sha1.HashableAs plaintext p) (hfits : 8 + p.length ≤ maxMessageOctets) :
    (ofPlaintext salt plaintext).value = .ok ⟨s, Sha1.Standard.digest (s ++ p)⟩ := by
  obtain ⟨hcount, hsome, hcopy⟩ := Datum.own_octets hsalt
  have hlength := Datum.count_eq_ok_iff.mp hcount
  have hoctets : Sha1.saltOctets salt = .ok s := Sha1.saltOctets_eq_ok_iff.mpr (.inr hsome)
  have hdigest : Sha1.saltedDigest salt plaintext = .ok (Sha1.Standard.digest (s ++ p)) := by
    apply (Sha1.saltedDigest_eq_ok_iff hoctets).mpr
    exact ⟨p, hp, by omega, rfl⟩
  exact ofPlaintext_eq_ok_iff.mpr
    ⟨hs ▸ hlength, hdigest, hcopy, ⟨hs, Sha1.length_digest _⟩⟩

theorem ofPlaintext_text_eq {t : Text} {o : Octets} (h : Text.utf8? t = some o) (salt : Datum) :
    ofPlaintext salt (.text t) = ofPlaintext salt (.octets o) := by
  have hsame : Sha1.plaintextOctets (.text t) = Sha1.plaintextOctets (.octets o) := by
    simp only [Sha1.plaintextOctets, h, Datum.octets?]
  unfold ofPlaintext
  rw [Sha1.saltedDigest_congr hsame]

/-! ## Trying a password -/

section

variable [Cryptography]

theorem sameDigest_iff {a b : Record} : a.sameDigest b = true ↔ a.digest = b.digest := by
  simp [sameDigest, Cryptography.same_iff]

theorem beq_iff_sameDigest (a b : Record) :
    (a == b) = true ↔ a.sameDigest b = true ∧ a.salt = b.salt := by
  rw [beq_iff_eq, sameDigest_iff]
  cases a
  cases b
  simp [and_comm]

/-- A plaintext with certain octets that can be hashed with the salt of a record. -/
def Storable (plaintext : Datum) (p : Octets) : Prop :=
  Sha1.HashableAs plaintext p ∧ 8 + p.length ≤ maxMessageOctets

/-- A password that is stored, written and read back in any forms matches another exactly if the
salt has the same digest with both. -/
theorem password_matches_iff {salt plaintext : Datum} {s p : Octets}
    (hsalt : salt = .octets s ∨ salt = .buffer s) (hs : s.length = 8)
    (hp : Storable plaintext p) :
    (∃ stored, (ofPlaintext salt plaintext).value = .ok stored ∧ stored.salt = s ∧
        stored.digest = Sha1.Standard.digest (s ++ p) ∧
        ∀ forms : List Form, ∃ t, rereadAll forms stored = .ok t ∧ t = stored ∧
          ∀ (candidate : Datum) (q : Octets), Storable candidate q →
            ∃ tried, (ofPlaintext (.octets t.salt) candidate).value = .ok tried ∧
              (t.sameDigest tried = true ↔
                Sha1.Standard.digest (s ++ p) = Sha1.Standard.digest (s ++ q))) ∧
      (∀ t, Text.utf8? t = some p →
        ofPlaintext salt (.text t) = ofPlaintext salt (.octets p)) ∧
      ∀ a b : Record, (a == b) = true ↔ a.sameDigest b = true ∧ a.salt = b.salt := by
  refine ⟨?_, fun t ht => ofPlaintext_text_eq ht salt, beq_iff_sameDigest⟩
  have hstored := ofPlaintext_of_hashable hsalt hs hp.1 hp.2
  have hsizes : WellFormed ⟨s, Sha1.Standard.digest (s ++ p)⟩ := ⟨hs, Sha1.length_digest _⟩
  refine ⟨_, hstored, rfl, rfl, ?_⟩
  intro forms
  refine ⟨_, rereadAll_eq hsizes forms, rfl, ?_⟩
  intro candidate q hq
  have htried := ofPlaintext_of_hashable (.inl rfl) hs hq.1 hq.2
  exact ⟨_, htried, sameDigest_iff⟩

end

theorem password_matches_itself :
    ∃ stored, (ofPlaintext (.buffer [1, 2, 3, 4, 5, 6, 7, 8]) (.text "pw")).value = .ok stored ∧
      ∃ t, rereadAll [.hex, .binary] stored = .ok t ∧
        ∃ tried, (ofPlaintext (.octets t.salt) (.view [112, 119] false)).value = .ok tried ∧
          t.sameDigest tried = true := by
  have hp : Storable (.text "pw") [112, 119] :=
    ⟨Sha1.hashableAs_text_iff.mpr (by decide), by decide⟩
  have hq : Storable (.view [112, 119] false) [112, 119] := ⟨.inr rfl, by decide⟩
  obtain ⟨⟨stored, hstored, -, -, hforms⟩, -, -⟩ := password_matches_iff
    (.inr rfl : Datum.buffer [1, 2, 3, 4, 5, 6, 7, 8] = .octets _ ∨ _) rfl hp
  obtain ⟨t, hread, -, htry⟩ := hforms [.hex, .binary]
  obtain ⟨tried, htried, hmatch⟩ := htry _ _ hq
  exact ⟨stored, hstored, t, hread, tried, htried, hmatch.mpr rfl⟩

end SaltedHash.Record
