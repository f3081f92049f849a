import Mathlib
import SaltedHash.Record
import SaltedHash.Proofs.Datum.Items
import SaltedHash.Proofs.Hex
import SaltedHash.Proofs.Text.Fields

/-!
# Records that are written and read back

A record of eight octets and twenty is read back as it was, from octets and from text, and any number
of times. Of a record with other sizes neither form is read back.
-/

namespace SaltedHash.Record

structure WellFormed (r : Record) : Prop where
  length_salt : r.salt.length = 8
  length_digest : r.digest.length = 20

/-! ## Records made of values -/

theorem make_eq_ok_iff {salt digest : Datum} {r : Record} :
    make salt digest = .ok r ↔
      salt.length? = some 8 ∧ digest.length? = some 20 ∧ salt.toOctets = .ok r.salt ∧
        digest.toOctets = .ok r.digest := by
  unfold make
  simp only [bind_eq_ok_iff, Datum.count_eq_ok_iff, guard_eq_ok_iff, ne_eq, not_not]
  constructor
  · rintro ⟨_, hsalt, rfl, _, hdigest, rfl, s, hs, d, hd, ⟨⟩⟩
    exact ⟨hsalt, hdigest, hs, hd⟩
  · rintro ⟨hsalt, hdigest, hs, hd⟩
    exact ⟨_, hsalt, rfl, _, hdigest, rfl, _, hs, _, hd, rfl⟩

theorem make_octets_eq_ok_iff {salt digest : Octets} {r : Record} :
    make (.octets salt) (.octets digest) = .ok r ↔ r = ⟨salt, digest⟩ ∧ r.WellFormed := by
  rw [make_eq_ok_iff]
  constructor
  · rintro ⟨hsalt, hdigest, hs, hd⟩
    cases hs
    cases hd
    exact ⟨rfl, ⟨Option.some.inj hsalt, Option.some.inj hdigest⟩⟩
  · rintro ⟨rfl, hsalt, hdigest⟩
    exact ⟨congrArg some hsalt, congrArg some hdigest, rfl, rfl⟩

theorem ofPlaintext_eq_ok_iff {salt plaintext : Datum} {r : Record} :
    (ofPlaintext salt plaintext).value = .ok r ↔
      salt.length? = some 8 ∧ Sha1.saltedDigest salt plaintext = .ok r.digest ∧
        salt.toOctets = .ok r.salt ∧ r.WellFormed := by
  rw [← Datum.count_eq_ok_iff]
  unfold ofPlaintext
  constructor
  · intro h
    cases hcount : salt.count with
    | error cause =>
      rw [hcount] at h
      cases h
    | ok n =>
      simp only [hcount] at h
      split_ifs at h with hn
      cases hdigest : Sha1.saltedDigest salt plaintext with
      | error cause =>
        rw [hdigest] at h
        cases h
      | ok digest =>
        cases hcopy : salt.toOctets with
        | error cause =>
          simp only [hdigest, hcopy] at h
          cases h
        | ok octets =>
          simp only [hdigest, hcopy, make_octets_eq_ok_iff] at h
          obtain ⟨rfl, hr⟩ := h
          exact ⟨congrArg Except.ok (not_not.mp hn), rfl, rfl, hr⟩
  · rintro ⟨hcount, hdigest, hcopy, hr⟩
    have hmade : make (.octets r.salt) (.octets r.digest) = .ok r :=
      make_octets_eq_ok_iff.mpr ⟨rfl, hr⟩
    simp only [hcount, saltSize, hdigest, hcopy, hmade, ne_eq, not_true_eq_false, if_false]

/-! ## Binary form -/

theorem ofOctets_eq_ok_iff {data : Datum} {r : Record} :
    ofOctets data = .ok r ↔
      data.length? = some 28 ∧ (data.takeItems 8).toOctets = .ok r.salt ∧
        (data.dropItems 8).toOctets = .ok r.digest ∧ r.WellFormed := by
  unfold ofOctets
  simp only [bind_eq_ok_iff, Datum.count_eq_ok_iff, guard_eq_ok_iff, ne_eq, not_not,
    make_octets_eq_ok_iff]
  constructor
  · rintro ⟨_, hdata, rfl, s, hs, d, hd, rfl, hr⟩
    exact ⟨hdata, hs, hd, hr⟩
  · rintro ⟨hdata, hs, hd, hr⟩
    exact ⟨_, hdata, rfl, _, hs, _, hd, rfl, hr⟩

theorem length_toOctets (r : Record) :
    r.toOctets.length = r.salt.length + r.digest.length := List.length_append

theorem WellFormed.length_toOctets {r : Record} (h : r.WellFormed) : r.toOctets.length = 28 := by
  rw [Record.length_toOctets, h.length_salt, h.length_digest]

theorem ofOctets_toOctets_iff {r : Record} :
    ofOctets (.octets r.toOctets) = .ok r ↔ r.WellFormed := by
  rw [ofOctets_eq_ok_iff]
  constructor
  · rintro ⟨-, -, -, hr⟩
    exact hr
  · intro hr
    have hsalt : r.toOctets.take 8 = r.salt := List.take_left' hr.length_salt
    have hdigest : r.toOctets.drop 8 = r.digest := List.drop_left' hr.length_salt
    exact ⟨congrArg some hr.length_toOctets, congrArg Except.ok hsalt,
      congrArg Except.ok hdigest, hr⟩

/-! ## Text -/

theorem hexField_eq_ok_iff {t : Text} {o : Octets} :
    hexField t = .ok o ↔ Hex.decode t = .ok o := by
  unfold hexField
  cases Hex.decode t with
  | error position => simp
  | ok octets => simp

theorem ofHex_text_eq_ok_iff {t : Text} {r : Record} :
    ofHex (.text t) = .ok r ↔
      ∃ salt digest, Text.fields t = [salt, digest] ∧ Hex.decode salt = .ok r.salt ∧
        Hex.decode digest = .ok r.digest ∧ r.WellFormed := by
  simp only [ofHex]
  constructor
  · intro h
    split at h
    · rename_i salt digest hfields
      simp only [bind_eq_ok_iff, hexField_eq_ok_iff, make_octets_eq_ok_iff] at h
      obtain ⟨s, hs, d, hd, rfl, hr⟩ := h
      exact ⟨salt, digest, hfields, hs, hd, hr⟩
    · cases h
  · rintro ⟨salt, digest, hfields, hs, hd, hr⟩
    simp only [hfields, bind_eq_ok_iff, hexField_eq_ok_iff, make_octets_eq_ok_iff]
    exact ⟨_, hs, _, hd, rfl, hr⟩

theorem exists_text_of_ofHex {value : Datum} {r : Record} (h : ofHex value = .ok r) :
    ∃ t, value = .text t := by
  cases value with
  | text t => exact ⟨t, rfl⟩
  | octets o | buffer o =>
    simp only [ofHex] at h
    split_ifs at h
  | _ => cases h

theorem isWord_encodeUpper {octets : Octets} (h : octets ≠ []) :
    Text.IsWord (Hex.encodeUpper octets) := by
  have hpos := List.length_pos_iff.mpr h
  constructor
  · apply List.ne_nil_of_length_pos
    rw [Hex.length_encodeUpper]
    omega
  · intro c hc
    have := Hex.bounds_of_mem_encodeUpper hc
    simp [CodePoint.isSeparator, CodePoint.isWhite]
    omega

theorem fields_toHex {r : Record} (h : r.WellFormed) :
    Text.fields r.toHex = [Hex.encodeUpper r.salt, Hex.encodeUpper r.digest] := by
  have hsalt : r.salt ≠ [] := by
    apply List.ne_nil_of_length_pos
    rw [h.length_salt]
    decide
  have hdigest : r.digest ≠ [] := by
    apply List.ne_nil_of_length_pos
    rw [h.length_digest]
    decide
  unfold toHex
  rw [Text.fields_word_append (isWord_encodeUpper hsalt) (by decide),
    Text.fields_word (isWord_encodeUpper hdigest)]

theorem ofHex_toHex_iff {r : Record} : ofHex (.text r.toHex) = .ok r ↔ r.WellFormed := by
  rw [ofHex_text_eq_ok_iff]
  constructor
  · rintro ⟨salt, digest, -, -, -, hr⟩
    exact hr
  · intro hr
    exact ⟨_, _, fields_toHex hr, Hex.decode_encodeUpper _, Hex.decode_encodeUpper _, hr⟩

/-! ## Again and again -/

inductive Form where
  | binary
  | hex

def Form.reread (form : Form) (r : Record) : Except Fault Record :=
  match form with
  | binary => ofOctets (.octets r.toOctets)
  | hex => ofHex (.text r.toHex)

/-- The record after it was written and read in one form after another. -/
def rereadAll (forms : List Form) (r : Record) : Except Fault Record :=
  forms.foldlM (fun r form => form.reread r) r

theorem Form.reread_eq {r : Record} (h : r.WellFormed) (form : Form) : form.reread r = .ok r := by
  cases form with
  | binary => exact ofOctets_toOctets_iff.mpr h
  | hex => exact ofHex_toHex_iff.mpr h

theorem rereadAll_eq {r : Record} (h : r.WellFormed) (forms : List Form) :
    rereadAll forms r = .ok r := by
  unfold rereadAll
  induction forms with
  | nil => rfl
  | cons form rest ih =>
    rw [List.foldlM_cons, bind_eq_ok_iff]
    exact ⟨r, Form.reread_eq h form, ih⟩

end SaltedHash.Record
