import Mathlib
import SaltedHash.Proofs.Record.Serialization

/-!
# The sizes of records

A record is made in four ways. It has the sizes it should have, and so it can be written and read
back, unless it is made at once of a window of words or of rows: there the sizes are counted in words
and rows, and these make other numbers of octets.
-/

namespace SaltedHash.Record

/-! ## The ways to a record -/

inductive Origin where
  | parts (salt digest : Datum)
  | octets (data : Datum)
  | hex (text : Datum)
  | password (salt plaintext : Datum)

namespace Origin

def record : Origin → Except Fault Record
  | parts salt digest => make salt digest
  | octets data => ofOctets data
  | hex text => ofHex text
  | password salt plaintext => (ofPlaintext salt plaintext).value

/-- Whether words or rows stand in the place of a salt or a digest. -/
def TakesWords : Origin → Prop
  | parts salt digest => salt.IsWords ∨ digest.IsWords
  | octets _ | hex _ | password _ _ => False

end Origin

/-! ## Their sizes -/

theorem wellFormed_of_make {salt digest : Datum} {r : Record} (h : make salt digest = .ok r) :
    r.WellFormed ↔ ¬ (salt.IsWords ∨ digest.IsWords) := by
  obtain ⟨hsalt, hdigest, hs, hd⟩ := make_eq_ok_iff.mp h
  have hlength : r.salt.length = salt.itemSize * 8 := Datum.length_toOctets hs hsalt
  have hrest : r.digest.length = digest.itemSize * 20 := Datum.length_toOctets hd hdigest
  rw [not_or, ← Datum.itemSize_eq_one_iff, ← Datum.itemSize_eq_one_iff]
  constructor
  · intro hr
    rw [hr.length_salt] at hlength
    rw [hr.length_digest] at hrest
    omega
  · rintro ⟨hone, hother⟩
    rw [hone] at hlength
    rw [hother] at hrest
    exact ⟨hlength, hrest⟩

theorem wellFormed_of_ofHex {text : Datum} {r : Record} (h : ofHex text = .ok r) :
    r.WellFormed := by
  obtain ⟨t, rfl⟩ := exists_text_of_ofHex h
  obtain ⟨-, -, -, -, -, hr⟩ := ofHex_text_eq_ok_iff.mp h
  exact hr

theorem Origin.wellFormed_iff {origin : Origin} {r : Record} (h : origin.record = .ok r) :
    r.WellFormed ↔ ¬ origin.TakesWords := by
  cases origin with
  | parts salt digest => exact wellFormed_of_make h
  | octets data => exact iff_of_true (ofOctets_eq_ok_iff.mp h).2.2.2 not_false
  | hex text => exact iff_of_true (wellFormed_of_ofHex h) not_false
  | password salt plaintext =>
    exact iff_of_true (ofPlaintext_eq_ok_iff.mp h).2.2.2 not_false

/-- With items of other sizes no record has 28 octets by chance. -/
theorem Origin.wellFormed_of_length {origin : Origin} {r : Record} (h : origin.record = .ok r)
    (hsize : r.toOctets.length = 28) : r.WellFormed := by
  by_contra hr
  have hwords : origin.TakesWords := not_not.mp (mt (Origin.wellFormed_iff h).mpr hr)
  cases origin with
  | parts salt digest =>
    obtain ⟨hsalt, hdigest, hs, hd⟩ := make_eq_ok_iff.mp h
    rw [length_toOctets, Datum.length_toOctets hs hsalt, Datum.length_toOctets hd hdigest] at hsize
    -- Of twice the one size and five times the other, only one and one make seven.
    have hsaltSize : salt.itemSize = 1 := by omega
    have hdigestSize : digest.itemSize = 1 := by omega
    rcases hwords with hwords | hwords
    · exact Datum.itemSize_eq_one_iff.mp hsaltSize hwords
    · exact Datum.itemSize_eq_one_iff.mp hdigestSize hwords
  | octets data | hex text | password salt plaintext => cases hwords

/-- A record has its sizes exactly if no words or rows stand in the place of its salt or its digest.
Only then does it take 28 octets, and only then is it read back. -/
theorem wellFormed_iff_not_takesWords {origin : Origin} {r : Record} (h : origin.record = .ok r) :
    (r.WellFormed ↔ ¬ origin.TakesWords) ∧
      (r.WellFormed ↔ r.toOctets.length = 28) ∧
      (r.WellFormed ↔ ofOctets (.octets r.toOctets) = .ok r) ∧
      (r.WellFormed ↔ ofHex (.text r.toHex) = .ok r) := by
  exact ⟨Origin.wellFormed_iff h,
    ⟨WellFormed.length_toOctets, Origin.wellFormed_of_length h⟩, ofOctets_toOctets_iff.symm,
    ofHex_toHex_iff.symm⟩

theorem wellFormed_of_numbers :
    ∃ r, (Origin.parts (.list (List.replicate 8 (.integer 7))) (.buffer (List.replicate 20 0))).record
        = .ok r ∧ r.WellFormed := by
  have hmade : (Origin.parts (.list (List.replicate 8 (.integer 7)))
      (.buffer (List.replicate 20 0))).record =
        .ok ⟨List.replicate 8 7, List.replicate 20 0⟩ := rfl
  refine ⟨_, hmade, (wellFormed_iff_not_takesWords hmade).1.mpr ?_⟩
  rintro (⟨⟨⟩⟩ | ⟨⟨⟩⟩)

/-- Eight words pass for a salt of eight octets. -/
theorem make_words_oversized :
    ∃ r, (Origin.parts (.words [1, 2, 3, 4, 5, 6, 7, 8]) (.octets (List.replicate 20 0))).record =
        .ok r ∧
      r.salt.length = 16 ∧ r.toOctets.length = 36 ∧
        ofOctets (.octets r.toOctets) = .error (.recordSize 36) ∧
        ofHex (.text r.toHex) = .error (.saltSize 16) :=
  ⟨⟨[1, 0, 2, 0, 3, 0, 4, 0, 5, 0, 6, 0, 7, 0, 8, 0], List.replicate 20 0⟩, rfl, rfl, rfl, rfl, rfl⟩

end SaltedHash.Record
