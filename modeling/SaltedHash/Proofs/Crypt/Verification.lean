import Mathlib
import SaltedHash.Crypt
import SaltedHash.Proofs.Base64
import SaltedHash.Proofs.Sha1.Salted

/-!
# The strings that are accepted

A string is accepted for a plaintext only as it would have been written for it with some salt.
-/

namespace SaltedHash.Crypt

/-! ## The body of a string -/

theorem body?_eq_some_iff {value : Datum} {body : Text} :
    body? value = some body ↔ value = .text (tag ++ body) ∧ body ≠ [] := by
  constructor
  · intro h
    unfold body? at h
    split at h
    · split_ifs at h with htagged
      obtain ⟨hstart, hlong⟩ := htagged
      obtain ⟨rest, rfl⟩ := List.isPrefixOf_iff_prefix.mp hstart
      have hbody : rest = body := by simpa using h
      subst hbody
      refine ⟨rfl, ?_⟩
      rintro rfl
      simp at hlong
    · cases h
  · rintro ⟨rfl, hbody⟩
    have hpos := List.length_pos_iff.mpr hbody
    simp [body?, hpos]

/-! ## Verifying -/

def SizeAllowed (payload : Octets) : Prop := 20 < payload.length ∧ payload.length ≤ 36

theorem payload_eq_ok_iff {crypt : Datum} {o : Octets} :
    payload crypt = .ok o ↔ SizeAllowed o ∧ crypt = .text (tag ++ Base64.encode o) := by
  have hwindow (o : Octets) :
      ¬ (o.length ≤ Sha1.digestSize ∨ Sha1.digestSize + maxSalt < o.length) ↔ SizeAllowed o := by
    simp only [SizeAllowed, Sha1.digestSize, maxSalt]
    omega
  constructor
  · intro h
    unfold payload at h
    cases hbody : body? crypt with
    | none =>
      rw [hbody] at h
      cases h
    | some body =>
      rw [hbody] at h
      cases hdecoded : Base64.decode body with
      | none =>
        simp only [hdecoded] at h
        cases h
      | some decoded =>
        simp only [hdecoded] at h
        obtain ⟨hsize, h⟩ := guard_eq_ok_iff.mp h
        obtain ⟨hcanonical, h⟩ := guard_eq_ok_iff.mp h
        cases h
        rw [not_not] at hcanonical
        subst hcanonical
        exact ⟨(hwindow _).mp hsize, (body?_eq_some_iff.mp hbody).1⟩
  · rintro ⟨hsize, rfl⟩
    have hne : Base64.encode o ≠ [] := by
      apply List.ne_nil_of_length_pos
      rw [Base64.length_encode]
      have := hsize.1
      omega
    have hdecoded := Base64.decode_encode o
    unfold payload
    rw [body?_eq_some_iff.mpr ⟨rfl, hne⟩]
    simp only [hdecoded, (hwindow o).mpr hsize, if_false, ne_eq, not_true_eq_false]
    rfl

section

variable [Cryptography]

theorem check_of_payload {crypt : Datum} {o : Octets} (h : payload crypt = .ok o)
    (plaintext : Datum) :
    check crypt plaintext =
      match Sha1.saltedDigest (.octets (o.drop 20)) plaintext with
      | .error (.input cause) => mismatch (.plaintext cause)
      | .error cause => ⟨.error cause, []⟩
      | .ok digest => ⟨.ok (digest == o.take 20), []⟩ := by
  unfold check
  rw [h]
  simp only [Cryptography.same_eq]
  rfl

theorem check_of_refusal {crypt : Datum} {cause : Refusal} (h : payload crypt = .error cause)
    (plaintext : Datum) : check crypt plaintext = mismatch cause := by
  unfold check
  rw [h]

end

/-! ## The strings that are accepted -/

/-- The string of a salt and the octets of a plaintext, by the digest that the standard gives. -/
def written (salt p : Octets) : Text :=
  tag ++ Base64.encode (Sha1.Standard.digest (salt ++ p) ++ salt)

def payload? (t : Text) : Option Octets := Base64.decode (t.drop tag.length)

theorem payload?_written (salt p : Octets) :
    payload? (written salt p) = some (Sha1.Standard.digest (salt ++ p) ++ salt) := by
  rw [payload?, written, List.drop_left, Base64.decode_encode]

theorem payload_written {salt p : Octets} (hpos : 1 ≤ salt.length) (hmost : salt.length ≤ maxSalt) :
    payload (.text (written salt p)) = .ok (Sha1.Standard.digest (salt ++ p) ++ salt) := by
  refine payload_eq_ok_iff.mpr ⟨?_, rfl⟩
  simp only [SizeAllowed, List.length_append, Sha1.length_digest]
  simp only [maxSalt] at hmost
  omega

/-- A string that is looked into: a digest of twenty octets and a salt that is neither empty nor
too long. -/
def IsRead (crypt : Datum) : Prop :=
  ∃ digest salt : Octets, digest.length = 20 ∧ 1 ≤ salt.length ∧ salt.length ≤ 16 ∧
    crypt = .text (tag ++ Base64.encode (digest ++ salt))

theorem isRead_iff {crypt : Datum} : IsRead crypt ↔ ∃ o, payload crypt = .ok o := by
  constructor
  · rintro ⟨digest, salt, hdigest, hpos, hmost, rfl⟩
    refine ⟨digest ++ salt, payload_eq_ok_iff.mpr ⟨?_, rfl⟩⟩
    rw [SizeAllowed, List.length_append]
    omega
  · rintro ⟨o, ho⟩
    obtain ⟨⟨hshort, hlong⟩, rfl⟩ := payload_eq_ok_iff.mp ho
    refine ⟨o.take 20, o.drop 20, ?_, ?_, ?_, by rw [List.take_append_drop]⟩
    · rw [List.length_take]
      omega
    · rw [List.length_drop]
      omega
    · rw [List.length_drop]
      omega

section

variable [Cryptography]

theorem check_written {salt p : Octets} {plaintext : Datum} (hpos : 1 ≤ salt.length)
    (hmost : salt.length ≤ maxSalt) (hp : Sha1.HashableAs plaintext p)
    (hfits : salt.length + p.length ≤ maxMessageOctets) :
    check (.text (written salt p)) plaintext = ⟨.ok true, []⟩ := by
  have hdigest := Sha1.length_digest (salt ++ p)
  rw [check_of_payload (payload_written hpos hmost), List.drop_left' hdigest,
    List.take_left' hdigest,
    (Sha1.saltedDigest_eq_ok_iff (Sha1.saltOctets_octets salt)).mpr ⟨p, hp, hfits, rfl⟩]
  simp only [beq_self_eq_true]

theorem written_of_check {crypt plaintext : Datum} (h : (check crypt plaintext).value = .ok true) :
    ∃ salt p : Octets, 1 ≤ salt.length ∧ salt.length ≤ maxSalt ∧ Sha1.HashableAs plaintext p ∧
      salt.length + p.length ≤ maxMessageOctets ∧ crypt = .text (written salt p) := by
  cases hpayload : payload crypt with
  | error cause =>
    rw [check_of_refusal hpayload] at h
    cases h
  | ok o =>
    obtain ⟨⟨hshort, hlong⟩, rfl⟩ := payload_eq_ok_iff.mp hpayload
    rw [check_of_payload hpayload] at h
    have hsalt : (o.drop 20).length = o.length - 20 := List.length_drop
    cases hdigest : Sha1.saltedDigest (.octets (o.drop 20)) plaintext with
    | error cause =>
      rw [hdigest] at h
      cases cause <;> cases h
    | ok digest =>
      have hsame : digest = o.take 20 := by simpa [hdigest] using h
      obtain ⟨p, hp, hfits, rfl⟩ :=
        (Sha1.saltedDigest_eq_ok_iff (Sha1.saltOctets_octets _)).mp hdigest
      refine ⟨o.drop 20, p, by omega, by simp only [maxSalt]; omega, hp, hfits, ?_⟩
      rw [written, hsame, List.take_append_drop]

theorem check_error_iff {crypt plaintext : Datum} {cause : Fault} :
    (check crypt plaintext).value = .error cause ↔
      cause = .released ∧ plaintext = .released ∧ IsRead crypt := by
  cases hpayload : payload crypt with
  | error refusal =>
    -- The string is refused before the plaintext is looked at.
    rw [check_of_refusal hpayload, isRead_iff, hpayload]
    simp [mismatch]
  | ok o =>
    rw [check_of_payload hpayload, isRead_iff, hpayload]
    cases hdigest : Sha1.saltedDigest (.octets (o.drop 20)) plaintext with
    | ok digest =>
      have hkept : plaintext ≠ .released := by
        rintro rfl
        cases hdigest
      simp [hkept]
    | error found =>
      rcases Sha1.saltedDigest_eq_error (Sha1.saltOctets_octets _) hdigest with
        ⟨rfl, rfl⟩ | ⟨hkept, input, rfl⟩
      · simp [eq_comm]
      · simp [mismatch, hkept]

theorem exists_check {plaintext : Datum} (hkept : plaintext ≠ .released) (crypt : Datum) :
    ∃ answer, (check crypt plaintext).value = .ok answer := by
  cases hvalue : (check crypt plaintext).value with
  | ok answer => exact ⟨answer, rfl⟩
  | error cause => exact absurd (check_error_iff.mp hvalue).2.1 hkept

/-- A value is accepted for a plaintext exactly if it is the string that is written for it with some
salt. Checking fails for a window that is given back alone, where the string is looked into. -/
theorem check_accepts_iff :
    (∀ crypt plaintext : Datum,
      ((check crypt plaintext).value = .ok true ↔
        ∃ salt p : Octets, 1 ≤ salt.length ∧ salt.length ≤ 16 ∧ Sha1.IsPlaintext plaintext p ∧
          ¬ plaintext.IsVoid ∧ salt.length + p.length ≤ maxMessageOctets ∧
          crypt = .text (written salt p)) ∧
      ∀ cause, (check crypt plaintext).value = .error cause ↔
        cause = .released ∧ plaintext = .released ∧ IsRead crypt) ∧
    Set.InjOn payload? {t | ∃ plaintext, (check (.text t) plaintext).value = .ok true} := by
  have haccepts (crypt plaintext : Datum) : (check crypt plaintext).value = .ok true ↔
      ∃ salt p : Octets, 1 ≤ salt.length ∧ salt.length ≤ 16 ∧ Sha1.IsPlaintext plaintext p ∧
        ¬ plaintext.IsVoid ∧ salt.length + p.length ≤ maxMessageOctets ∧
        crypt = .text (written salt p) := by
    constructor
    · intro h
      obtain ⟨salt, p, hpos, hmost, hp, hfits, hwritten⟩ := written_of_check h
      obtain ⟨hplain, hwhole⟩ := Sha1.hashableAs_iff.mp hp
      exact ⟨salt, p, hpos, hmost, hplain, hwhole, hfits, hwritten⟩
    · rintro ⟨salt, p, hpos, hmost, hplain, hwhole, hfits, rfl⟩
      rw [check_written hpos hmost (Sha1.hashableAs_iff.mpr ⟨hplain, hwhole⟩) hfits]
  refine ⟨fun crypt plaintext => ⟨haccepts crypt plaintext, fun _ => check_error_iff⟩, ?_⟩
  rintro t ⟨a, ha⟩ u ⟨b, hb⟩ hsame
  obtain ⟨salt, p, -, -, -, -, -, ht⟩ := (haccepts _ _).mp ha
  obtain ⟨salt', p', -, -, -, -, -, hu⟩ := (haccepts _ _).mp hb
  cases ht
  cases hu
  rw [payload?_written, payload?_written] at hsame
  rw [written, written, Option.some.inj hsame]

end

/-- Checking fails for a window that is given back, and says no for two windows without octets. -/
theorem check_misjudged :
    (check (.text (written [115] [])) .released).value = .error .released ∧
      Fault.released.family = .value ∧
      ∀ plaintext ∈ [Datum.view [] true, .noRows], Sha1.IsPlaintext plaintext [] ∧
        (check (.text (written [115] [])) plaintext).value = .ok false := by
  have hpayload := payload_written (p := []) (by decide : 1 ≤ [(115 : UInt8)].length) (by decide)
  refine ⟨?_, rfl, ?_⟩
  · exact check_error_iff.mpr ⟨rfl, rfl, isRead_iff.mpr ⟨_, hpayload⟩⟩
  · intro plaintext hvoid
    rw [check_of_payload hpayload]
    rcases List.mem_pair.mp hvoid with rfl | rfl
    · exact ⟨.inr rfl, rfl⟩
    · exact ⟨.inr rfl, rfl⟩

end SaltedHash.Crypt
