import Mathlib
import SaltedHash.Proofs.Record.Serialization

/-!
# Texts that are read as records

A text is read as a record exactly if it is made of two words, sixteen and forty hexadecimal digits. Any
other text is refused by a value fault: for the number of its words first, then for the digits of the salt,
those of the digest, and last for the sizes of the two.
-/

namespace SaltedHash.Record

/-! ## Words as fields -/

theorem isSeparator_of_isGap {c : CodePoint} (h : Hex.isGap c = true) :
    CodePoint.isSeparator c = true := by
  simp only [Hex.isGap, Bool.or_eq_true, Bool.and_eq_true, beq_iff_eq, decide_eq_true_eq] at h
  simp [CodePoint.isSeparator, CodePoint.isWhite]
  omega

theorem not_isGap_of_isWord {t : Text} (h : Text.IsWord t) : ∀ c ∈ t, Hex.isGap c = false := by
  intro c hc
  cases hgap : Hex.isGap c with
  | false => rfl
  | true =>
    rw [← h.2 c hc, isSeparator_of_isGap hgap]

theorem hexField_of_spells {t : Text} {o : Octets} (h : Hex.Spells t o) : hexField t = .ok o :=
  hexField_eq_ok_iff.mpr h.decode_eq

theorem hexField_of_not_paired {t : Text} (hword : Text.IsWord t) (h : ¬ Hex.IsPaired t) :
    hexField t = .error (.hexDigit (Hex.faultPlace t)) := by
  rw [hexField, Hex.decode_of_not_paired (not_isGap_of_isWord hword) h]

theorem make_octets (salt digest : Octets) :
    make (.octets salt) (.octets digest) =
      if salt.length ≠ saltSize then .error (.saltSize salt.length)
      else if digest.length ≠ Sha1.digestSize then .error (.digestSize digest.length)
      else .ok ⟨salt, digest⟩ := by
  have hsalt : Datum.count (.octets salt) = .ok salt.length := rfl
  have hdigest : Datum.count (.octets digest) = .ok digest.length := rfl
  rw [make, hsalt, hdigest]
  simp only [bind, Except.bind]
  split_ifs <;> rfl

/-! ## Two words -/

section

variable {t salt digest : Text} (h : Text.Splits t [salt, digest])
include h

theorem ofHex_of_splits :
    ofHex (.text t) = (do
      let salt ← hexField salt
      let digest ← hexField digest
      make (.octets salt) (.octets digest)) := by
  simp only [ofHex, h.fields_eq]

theorem ofHex_of_bad_salt (hsalt : ¬ Hex.IsPaired salt) :
    ofHex (.text t) = .error (.hexDigit (Hex.faultPlace salt)) := by
  rw [ofHex_of_splits h, hexField_of_not_paired (h.isWord salt (by simp)) hsalt]
  rfl

theorem ofHex_of_bad_digest {s : Octets} (hsalt : Hex.Spells salt s)
    (hdigest : ¬ Hex.IsPaired digest) :
    ofHex (.text t) = .error (.hexDigit (Hex.faultPlace digest)) := by
  rw [ofHex_of_splits h, hexField_of_spells hsalt,
    hexField_of_not_paired (h.isWord digest (by simp)) hdigest]
  rfl

theorem ofHex_of_spells {s d : Octets} (hsalt : Hex.Spells salt s) (hdigest : Hex.Spells digest d) :
    ofHex (.text t) =
      if salt.length ≠ 16 then .error (.saltSize (salt.length / 2))
      else if digest.length ≠ 40 then .error (.digestSize (digest.length / 2))
      else .ok ⟨s, d⟩ := by
  have hs := hsalt.length_eq
  have hd := hdigest.length_eq
  have hhalf : salt.length / 2 = s.length ∧ digest.length / 2 = d.length := by omega
  have hsizes : (salt.length ≠ 16 ↔ s.length ≠ 8) ∧ (digest.length ≠ 40 ↔ d.length ≠ 20) := by omega
  rw [ofHex_of_splits h, hexField_of_spells hsalt, hexField_of_spells hdigest, hhalf.1, hhalf.2]
  simp only [hsizes.1, hsizes.2]
  exact make_octets s d

end

/-! ## Every text -/

theorem ofHex_of_not_two {t : Text} (h : ∀ salt digest, ¬ Text.Splits t [salt, digest]) :
    ofHex (.text t) = .error .fieldCount := by
  simp only [ofHex]
  split
  · rename_i salt digest hfields
    exact absurd (Text.splits_iff.mpr hfields) (h salt digest)
  · rfl

theorem ofHex_eq_ok_iff {t : Text} {r : Record} :
    ofHex (.text t) = .ok r ↔
      ∃ salt digest, Text.Splits t [salt, digest] ∧ Hex.Spells salt r.salt ∧
        Hex.Spells digest r.digest ∧ r.WellFormed := by
  have hread {salt digest : Text} (h : Text.Splits t [salt, digest]) :
      (Hex.decode salt = .ok r.salt ↔ Hex.Spells salt r.salt) ∧
        (Hex.decode digest = .ok r.digest ↔ Hex.Spells digest r.digest) :=
    ⟨Hex.decode_eq_ok_iff (not_isGap_of_isWord (h.isWord salt (by simp))),
      Hex.decode_eq_ok_iff (not_isGap_of_isWord (h.isWord digest (by simp)))⟩
  rw [ofHex_text_eq_ok_iff]
  simp only [← Text.splits_iff]
  constructor
  · rintro ⟨salt, digest, h, hsalt, hdigest, hr⟩
    exact ⟨salt, digest, h, (hread h).1.mp hsalt, (hread h).2.mp hdigest, hr⟩
  · rintro ⟨salt, digest, h, hsalt, hdigest, hr⟩
    exact ⟨salt, digest, h, (hread h).1.mpr hsalt, (hread h).2.mpr hdigest, hr⟩

theorem value_of_ofHex_error {t : Text} {cause : Fault} (h : ofHex (.text t) = .error cause) :
    cause.family = .value := by
  by_cases htwo : ∃ salt digest, Text.Splits t [salt, digest]
  · obtain ⟨salt, digest, hsplits⟩ := htwo
    by_cases hsalt : Hex.IsPaired salt
    · obtain ⟨s, hs⟩ := Hex.exists_spells_iff.mpr hsalt
      by_cases hdigest : Hex.IsPaired digest
      · obtain ⟨d, hd⟩ := Hex.exists_spells_iff.mpr hdigest
        -- Both fields are read, so a size is at fault.
        rw [ofHex_of_spells hsplits hs hd] at h
        split_ifs at h <;> cases h <;> rfl
      · rw [ofHex_of_bad_digest hsplits hs hdigest] at h
        cases h
        rfl
    · rw [ofHex_of_bad_salt hsplits hsalt] at h
      cases h
      rfl
  · rw [ofHex_of_not_two (by simpa using htwo)] at h
    cases h
    rfl

/-- Sixteen digits and forty. -/
structure Readable (salt digest : Text) : Prop where
  length_salt : salt.length = 16
  digits_salt : ∀ c ∈ salt, Hex.IsDigit c
  length_digest : digest.length = 40
  digits_digest : ∀ c ∈ digest, Hex.IsDigit c

theorem readable_iff {salt digest : Text} :
    Readable salt digest ↔
      ∃ r : Record, Hex.Spells salt r.salt ∧ Hex.Spells digest r.digest ∧ r.WellFormed := by
  constructor
  · rintro ⟨hlength, hdigits, hlength', hdigits'⟩
    obtain ⟨s, hs⟩ := Hex.exists_spells_iff.mpr ⟨hdigits, hlength ▸ by decide⟩
    obtain ⟨d, hd⟩ := Hex.exists_spells_iff.mpr ⟨hdigits', hlength' ▸ by decide⟩
    have hsize := hs.length_eq
    have hsize' := hd.length_eq
    refine ⟨⟨s, d⟩, hs, hd, ?_, ?_⟩
    · show s.length = 8
      omega
    · show d.length = 20
      omega
  · rintro ⟨r, hs, hd, hsize, hsize'⟩
    have hlength := hs.length_eq
    have hlength' := hd.length_eq
    exact ⟨by omega, (Hex.exists_spells_iff.mp ⟨_, hs⟩).digits, by omega,
      (Hex.exists_spells_iff.mp ⟨_, hd⟩).digits⟩

/-- A text is read as a record exactly if it is two words, of sixteen digits and of forty. Every
other text is refused for the first thing that is wrong with it. -/
theorem ofHex_isOk_iff (t : Text) :
    ((∃ r, ofHex (.text t) = .ok r) ↔
        ∃ salt digest, Text.Splits t [salt, digest] ∧ Readable salt digest) ∧
      (∀ r salt digest, ofHex (.text t) = .ok r → Text.Splits t [salt, digest] →
        Hex.Spells salt r.salt ∧ Hex.Spells digest r.digest ∧
          r.toHex = salt.map Hex.capital ++ CodePoint.ofChar ' ' :: digest.map Hex.capital) ∧
      (∀ cause, ofHex (.text t) = .error cause → cause.family = .value) ∧
      ((∀ salt digest, ¬ Text.Splits t [salt, digest]) → ofHex (.text t) = .error .fieldCount) ∧
      ∀ salt digest, Text.Splits t [salt, digest] →
        (¬ Hex.IsPaired salt → ofHex (.text t) = .error (.hexDigit (Hex.faultPlace salt))) ∧
          (Hex.IsPaired salt → ¬ Hex.IsPaired digest →
            ofHex (.text t) = .error (.hexDigit (Hex.faultPlace digest))) ∧
          (Hex.IsPaired salt → Hex.IsPaired digest → salt.length ≠ 16 →
            ofHex (.text t) = .error (.saltSize (salt.length / 2))) ∧
          (Hex.IsPaired salt → Hex.IsPaired digest → salt.length = 16 → digest.length ≠ 40 →
            ofHex (.text t) = .error (.digestSize (digest.length / 2))) := by
  refine ⟨?_, ?_, fun _ => value_of_ofHex_error, ofHex_of_not_two, ?_⟩
  · simp only [ofHex_eq_ok_iff, readable_iff]
    constructor
    · rintro ⟨r, salt, digest, h, hr⟩
      exact ⟨salt, digest, h, r, hr⟩
    · rintro ⟨salt, digest, h, r, hr⟩
      exact ⟨r, salt, digest, h, hr⟩
  · intro r salt digest hr h
    obtain ⟨_, _, hsame, hsalt, hdigest, -⟩ := ofHex_eq_ok_iff.mp hr
    cases hsame.fields_eq.symm.trans h.fields_eq
    rw [hsalt.map_capital, hdigest.map_capital]
    exact ⟨hsalt, hdigest, rfl⟩
  · intro salt digest h
    refine ⟨ofHex_of_bad_salt h, ?_, ?_, ?_⟩
    · intro hsalt hdigest
      obtain ⟨s, hs⟩ := Hex.exists_spells_iff.mpr hsalt
      exact ofHex_of_bad_digest h hs hdigest
    · intro hsalt hdigest hsize
      obtain ⟨s, hs⟩ := Hex.exists_spells_iff.mpr hsalt
      obtain ⟨d, hd⟩ := Hex.exists_spells_iff.mpr hdigest
      rw [ofHex_of_spells h hs hd, if_pos hsize]
    · intro hsalt hdigest hsize hsize'
      obtain ⟨s, hs⟩ := Hex.exists_spells_iff.mpr hsalt
      obtain ⟨d, hd⟩ := Hex.exists_spells_iff.mpr hdigest
      rw [ofHex_of_spells h hs hd, if_neg (not_not.mpr hsize), if_pos hsize']

theorem ofHex_isOk_mixed :
    (∃ r, ofHex (.text "\t0a0B0c0D0e0F0102\u2003a9993E364706816ABA3e25717850c26c9cd0d89D\n") = .ok r ∧
        r.toHex = "0A0B0C0D0E0F0102 A9993E364706816ABA3E25717850C26C9CD0D89D") ∧
      ofHex (.text "0g 0") = .error (.hexDigit 1) ∧
      ofHex (.text "00 000") = .error (.hexDigit 3) := by
  have hmixed : Text.Splits "\t0a0B0c0D0e0F0102\u2003a9993E364706816ABA3e25717850c26c9cd0d89D\n"
      ["0a0B0c0D0e0F0102", "a9993E364706816ABA3e25717850c26c9cd0d89D"] :=
    Text.splits_iff.mpr (by decide +kernel)
  have hreadable : Readable "0a0B0c0D0e0F0102" "a9993E364706816ABA3e25717850c26c9cd0d89D" :=
    ⟨by decide +kernel, by decide +kernel, by decide +kernel, by decide +kernel⟩
  obtain ⟨hread, hspelled, -, -, -⟩ :=
    ofHex_isOk_iff "\t0a0B0c0D0e0F0102\u2003a9993E364706816ABA3e25717850c26c9cd0d89D\n"
  obtain ⟨-, -, -, -, hfirst⟩ := ofHex_isOk_iff "0g 0"
  obtain ⟨-, -, -, -, hodd⟩ := ofHex_isOk_iff "00 000"
  obtain ⟨hbad, -, -, -⟩ := hfirst "0g" "0" (Text.splits_iff.mpr (by decide +kernel))
  obtain ⟨-, hlater, -, -⟩ := hodd "00" "000" (Text.splits_iff.mpr (by decide +kernel))
  obtain ⟨r, hr⟩ := hread.mpr ⟨_, _, hmixed, hreadable⟩
  refine ⟨⟨r, hr, ?_⟩, hbad (by decide +kernel), hlater (by decide +kernel) (by decide +kernel)⟩
  rw [(hspelled r _ _ hr hmixed).2.2]
  decide +kernel

end SaltedHash.Record
