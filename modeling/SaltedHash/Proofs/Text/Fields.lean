import Mathlib
import SaltedHash.Text.Blank

/-!
# Fields of a text

A word is a text that is not empty and has no separator in it. The fields of a text are the words that it
is made of, with separators before, between and after them; no text is made of other words too.
-/

namespace SaltedHash.Text

def IsWord (t : Text) : Prop := t ≠ [] ∧ ∀ c ∈ t, CodePoint.isSeparator c = false

theorem fieldsFrom_append {word : Text} (h : ∀ c ∈ word, CodePoint.isSeparator c = false)
    (field rest : Text) : fieldsFrom field (word ++ rest) = fieldsFrom (field ++ word) rest := by
  induction word generalizing field with
  | nil => simp
  | cons c word ih =>
    have hc : CodePoint.isSeparator c = false := h c List.mem_cons_self
    have hword : ∀ d ∈ word, CodePoint.isSeparator d = false := by
      intro d hd
      exact h d (List.mem_cons_of_mem c hd)
    rw [List.cons_append, fieldsFrom, hc, if_neg Bool.false_ne_true, ih hword,
      List.append_assoc, List.singleton_append]

theorem fields_word_append {word : Text} (hword : IsWord word) {c : CodePoint}
    (hc : CodePoint.isSeparator c = true) (rest : Text) :
    fields (word ++ c :: rest) = word :: fields rest := by
  obtain ⟨hne, hclear⟩ := hword
  unfold fields
  rw [fieldsFrom_append hclear, List.nil_append, fieldsFrom, if_pos hc,
    if_neg (by simpa using hne)]

theorem fields_word {word : Text} (hword : IsWord word) : fields word = [word] := by
  obtain ⟨hne, hclear⟩ := hword
  have hread := fieldsFrom_append hclear [] []
  rw [List.append_nil, List.nil_append] at hread
  unfold fields
  rw [hread, fieldsFrom, if_neg (by simpa using hne)]

theorem fields_separator {c : CodePoint} (hc : CodePoint.isSeparator c = true) (rest : Text) :
    fields (c :: rest) = fields rest := by
  simp [fields, fieldsFrom, hc]

/-! ## The words that a text is made of -/

/-- A text is made of words, with separators around them. A word goes on up to a separator. -/
inductive Splits : Text → List Text → Prop
  | empty : Splits [] []
  | separator {c : CodePoint} {rest : Text} {words : List Text}
      (hc : CodePoint.isSeparator c = true) (h : Splits rest words) : Splits (c :: rest) words
  | word {word rest : Text} {words : List Text} (hword : IsWord word)
      (hends : ∀ c ∈ rest.head?, CodePoint.isSeparator c = true) (h : Splits rest words) :
      Splits (word ++ rest) (word :: words)

theorem Splits.fields_eq {t : Text} {words : List Text} (h : Splits t words) : fields t = words := by
  induction h with
  | empty => rfl
  | separator hc _ ih => rw [fields_separator hc, ih]
  | @word word rest words hword hends _ ih =>
    cases rest with
    | nil =>
      have hnone : words = [] := ih.symm
      rw [List.append_nil, fields_word hword, hnone]
    | cons c rest =>
      have hc : CodePoint.isSeparator c = true := hends c rfl
      rw [fields_separator hc] at ih
      rw [fields_word_append hword hc, ih]

theorem splits_fieldsFrom (t field : Text)
    (h : ∀ c ∈ field, CodePoint.isSeparator c = false) : Splits (field ++ t) (fieldsFrom field t) := by
  induction t generalizing field with
  | nil =>
    rw [fieldsFrom]
    split_ifs with hempty
    · rw [List.isEmpty_iff.mp hempty]
      exact .empty
    · exact .word ⟨by simpa using hempty, h⟩ (by simp) .empty
  | cons c rest ih =>
    have hrest : Splits rest (fieldsFrom [] rest) := ih [] (by simp)
    rw [fieldsFrom]
    split_ifs with hc hempty
    · rw [List.isEmpty_iff.mp hempty]
      exact .separator hc hrest
    · -- The separator ends the word that was read so far.
      exact .word ⟨by simpa using hempty, h⟩ (by simpa using hc) (.separator hc hrest)
    · -- The word goes on.
      have hlonger : ∀ d ∈ field ++ [c], CodePoint.isSeparator d = false := by
        intro d hd
        rcases List.mem_append.mp hd with hd | hd
        · exact h d hd
        · rw [List.mem_singleton.mp hd]
          exact Bool.eq_false_iff.mpr hc
      have hsplits := ih _ hlonger
      rwa [List.append_assoc, List.singleton_append] at hsplits

theorem splits_iff {t : Text} {words : List Text} : Splits t words ↔ fields t = words := by
  constructor
  · exact Splits.fields_eq
  · rintro rfl
    exact splits_fieldsFrom t [] (by simp)

theorem Splits.isWord {t : Text} {words : List Text} (h : Splits t words) : ∀ w ∈ words, IsWord w := by
  induction h with
  | empty => simp
  | separator _ _ ih => exact ih
  | word hword _ _ ih => simpa using ⟨hword, ih⟩

end SaltedHash.Text
