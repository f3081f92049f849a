import Mathlib
import SaltedHash.Proofs.Datum.Memory
import SaltedHash.Proofs.Sha1.Digest

/-!
# Salted digests

The digest of a salt and a plaintext is the standard's digest of the octets of the one followed by
those of the other.
-/

namespace SaltedHash.Sha1

/-- The octets that a plaintext stands for when it is hashed. -/
def HashableAs (plaintext : Datum) (p : Octets) : Prop :=
  (∃ t, plaintext = .text t ∧ (∀ c ∈ t, CodePoint.isSurrogate c = false) ∧
      p = t.flatMap CodePoint.utf8) ∨
    plaintext.octets? = some p

theorem hashableAs_text_iff {t : Text} {p : Octets} :
    HashableAs (.text t) p ↔ Text.utf8? t = some p := by
  unfold HashableAs
  rw [Text.utf8?]
  split_ifs with hsurrogate
  · have hnot : ¬ ∀ c ∈ t, CodePoint.isSurrogate c = false := by
      simpa using hsurrogate
    simp [hnot, Datum.octets?]
  · have hall : ∀ c ∈ t, CodePoint.isSurrogate c = false := by
      simpa using hsurrogate
    constructor
    · rintro (⟨t, ⟨⟩, -, rfl⟩ | h)
      · rfl
      · cases h
    · intro h
      exact .inl ⟨t, rfl, hall, (Option.some.inj h).symm⟩

/-- The octets of a plaintext: those of a text in UTF-8, or those that stand one after another in memory. -/
def IsPlaintext (plaintext : Datum) (p : Octets) : Prop :=
  (∃ t, plaintext = .text t ∧ (∀ c ∈ t, CodePoint.isSurrogate c = false) ∧
      p = t.flatMap CodePoint.utf8) ∨
    plaintext.memory? = some p

theorem hashableAs_iff {plaintext : Datum} {p : Octets} :
    HashableAs plaintext p ↔ IsPlaintext plaintext p ∧ ¬ plaintext.IsVoid := by
  unfold HashableAs IsPlaintext
  rw [Datum.octets?_eq_some_iff]
  constructor
  · rintro (⟨t, rfl, h⟩ | ⟨hmemory, hvoid⟩)
    · exact ⟨.inl ⟨t, rfl, h⟩, id⟩
    · exact ⟨.inr hmemory, hvoid⟩
  · rintro ⟨h | hmemory, hvoid⟩
    · exact .inl h
    · exact .inr ⟨hmemory, hvoid⟩

theorem plaintextOctets_eq_ok_iff {plaintext : Datum} {p : Octets} :
    plaintextOctets plaintext = .ok p ↔ HashableAs plaintext p := by
  unfold plaintextOctets
  split
  · rename_i t
    rw [hashableAs_text_iff]
    cases Text.utf8? t with
    | none => simp
    | some octets => simp
  · simp [HashableAs, Datum.octets?]
  · rename_i hnotext _
    unfold HashableAs
    cases hoctets : plaintext.octets? with
    | none => simpa using fun t ht => absurd ht (hnotext t)
    | some octets => simpa using fun t ht => absurd ht (hnotext t)

@[simp] theorem length_digest (m : Octets) : (Standard.digest m).length = 20 := by
  simp [Standard.digest, Standard.State.octets]

@[simp] theorem saltOctets_octets (salt : Octets) : saltOctets (.octets salt) = .ok salt := rfl

theorem saltedDigest_of_no_plaintext {plaintext : Datum} {cause : Fault}
    (h : plaintextOctets plaintext = .error cause) (salt : Datum) :
    saltedDigest salt plaintext = .error cause := by
  rw [saltedDigest, h]
  rfl

theorem saltedDigest_of_no_salt {salt plaintext : Datum} {p : Octets} {cause : Fault}
    (hp : plaintextOctets plaintext = .ok p) (hs : saltOctets salt = .error cause) :
    saltedDigest salt plaintext = .error cause := by
  rw [saltedDigest, hp, hs]
  rfl

theorem saltedDigest_of_octets {salt plaintext : Datum} {s p : Octets}
    (hs : saltOctets salt = .ok s) (hp : plaintextOctets plaintext = .ok p) :
    saltedDigest salt plaintext =
      if s.length + p.length ≤ maxMessageOctets then .ok (Standard.digest (s ++ p))
      else .error (.input .overCeiling) := by
  have hfirst : Context.fresh.extend s =
      if s.length ≤ maxMessageOctets then .ok (Context.ofMessage s) else .error (.input .overCeiling) := by
    rw [Context.extend, ← Context.ofMessage_nil, Context.fits_ofMessage, Context.absorb_ofMessage]
    simp
  have hsecond : (Context.ofMessage s).extend p =
      if s.length + p.length ≤ maxMessageOctets then .ok (Context.ofMessage (s ++ p))
      else .error (.input .overCeiling) := by
    rw [Context.extend, Context.fits_ofMessage, Context.absorb_ofMessage]
    norm_cast
    simp
  unfold saltedDigest
  rw [hp, hs]
  show (Context.fresh.extend s >>= fun salted => _) = _
  rw [hfirst]
  split_ifs with hsalt hboth hboth
  · -- There is room for the salt, and then for the plaintext.
    show ((Context.ofMessage s).extend p >>= fun full => _) = _
    rw [hsecond, if_pos hboth]
    show Except.ok _ = _
    rw [Context.octets_absorb_padding]
  · show ((Context.ofMessage s).extend p >>= fun full => _) = _
    rw [hsecond, if_neg hboth]
    rfl
  · omega
  · rfl

theorem saltedDigest_eq_ok_iff {salt plaintext : Datum} {s d : Octets}
    (hs : saltOctets salt = .ok s) :
    saltedDigest salt plaintext = .ok d ↔
      ∃ p, HashableAs plaintext p ∧ s.length + p.length ≤ maxMessageOctets ∧
        d = Standard.digest (s ++ p) := by
  constructor
  · intro h
    cases hp : plaintextOctets plaintext with
    | error cause =>
      rw [saltedDigest_of_no_plaintext hp] at h
      cases h
    | ok p =>
      rw [saltedDigest_of_octets hs hp] at h
      split_ifs at h with hfits
      exact ⟨p, plaintextOctets_eq_ok_iff.mp hp, hfits, (Except.ok.inj h).symm⟩
  · rintro ⟨p, hp, hfits, rfl⟩
    rw [saltedDigest_of_octets hs (plaintextOctets_eq_ok_iff.mpr hp), if_pos hfits]

theorem plaintextOctets_eq_error {plaintext : Datum} {cause : Fault}
    (h : plaintextOctets plaintext = .error cause) :
    plaintext = .released ∧ cause = .released ∨
      plaintext ≠ .released ∧ ∃ input, cause = .input input := by
  unfold plaintextOctets at h
  split at h
  · split at h
    · cases h
    · cases h
      exact .inr ⟨nofun, _, rfl⟩
  · cases h
    exact .inl ⟨rfl, rfl⟩
  · rename_i hkept
    split at h
    · cases h
    · cases h
      exact .inr ⟨hkept, _, rfl⟩

theorem saltedDigest_eq_error {salt plaintext : Datum} {s : Octets} {cause : Fault}
    (hs : saltOctets salt = .ok s) (h : saltedDigest salt plaintext = .error cause) :
    plaintext = .released ∧ cause = .released ∨
      plaintext ≠ .released ∧ ∃ input, cause = .input input := by
  cases hp : plaintextOctets plaintext with
  | error found =>
    rw [saltedDigest_of_no_plaintext hp] at h
    cases h
    exact plaintextOctets_eq_error hp
  | ok p =>
    rw [saltedDigest_of_octets hs hp] at h
    split_ifs at h
    cases h
    refine .inr ⟨?_, _, rfl⟩
    rintro rfl
    cases hp

theorem saltedDigest_congr {salt plaintext plaintext' : Datum}
    (h : plaintextOctets plaintext = plaintextOctets plaintext') :
    saltedDigest salt plaintext = saltedDigest salt plaintext' := by
  unfold saltedDigest
  rw [h]

/-! ## Salts that are hashed -/

theorem saltOctets_eq_ok_iff {salt : Datum} {s : Octets} :
    saltOctets salt = .ok s ↔ salt = .nothing ∧ s = [] ∨ salt.octets? = some s := by
  unfold saltOctets
  split
  · simp [Datum.octets?, eq_comm]
  · rename_i hsome
    rw [dataOctets_eq_ok_iff]
    simpa using fun hnothing => absurd hnothing hsome

theorem exists_saltedDigest_iff {salt plaintext : Datum} {d : Octets} :
    saltedDigest salt plaintext = .ok d ↔
      ∃ s p, saltOctets salt = .ok s ∧ HashableAs plaintext p ∧
        s.length + p.length ≤ maxMessageOctets ∧ d = Standard.digest (s ++ p) := by
  constructor
  · intro h
    cases hs : saltOctets salt with
    | error cause =>
      cases hp : plaintextOctets plaintext with
      | error found =>
        rw [saltedDigest_of_no_plaintext hp] at h
        cases h
      | ok p =>
        rw [saltedDigest_of_no_salt hp hs] at h
        cases h
    | ok s =>
      obtain ⟨p, hp, hfits, hd⟩ := (saltedDigest_eq_ok_iff hs).mp h
      exact ⟨s, p, rfl, hp, hfits, hd⟩
  · rintro ⟨s, p, hs, hp, hfits, hd⟩
    exact (saltedDigest_eq_ok_iff hs).mpr ⟨p, hp, hfits, hd⟩

theorem octets_of_saltOctets {salt : Datum} {s : Octets} {n : Nat}
    (hlength : salt.length? = some n) (hs : saltOctets salt = .ok s) :
    salt.toOctets = .ok s ∧ s.length = salt.itemSize * n := by
  rcases saltOctets_eq_ok_iff.mp hs with ⟨rfl, -⟩ | hoctets
  · cases hlength
  · have hcopy := Datum.toOctets_of_octets? hoctets
    exact ⟨hcopy, Datum.length_toOctets hcopy hlength⟩

end SaltedHash.Sha1
