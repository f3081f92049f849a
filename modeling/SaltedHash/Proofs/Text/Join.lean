import Mathlib
import SaltedHash.Text.CodePoint

/-!
# Joined texts of one length

Texts of one length with a separator between each two stand at equal distances, whatever the separator
is made of. So each of them is found by its number.
-/

namespace SaltedHash.Text

theorem join_cons_cons (separator t u : Text) (rest : List Text) :
    join separator (t :: u :: rest) = t ++ separator ++ join separator (u :: rest) := rfl

theorem length_join {width : Nat} (separator : Text) {texts : List Text}
    (h : ∀ t ∈ texts, t.length = width) :
    (join separator texts).length =
      width * texts.length + separator.length * (texts.length - 1) := by
  induction texts with
  | nil => simp [join]
  | cons t rest ih =>
    obtain ⟨ht, hrest⟩ := List.forall_mem_cons.mp h
    cases rest with
    | nil => simp [join, ht]
    | cons u rest =>
      rw [join_cons_cons, List.length_append, List.length_append, ih hrest, ht]
      simp only [List.length_cons, Nat.add_sub_cancel]
      ring

theorem take_drop_join {width : Nat} (separator : Text) {texts : List Text}
    (h : ∀ t ∈ texts, t.length = width) {i : Nat} (hi : i < texts.length) :
    ((join separator texts).drop (i * (width + separator.length))).take width = texts[i] := by
  induction texts generalizing i with
  | nil => simp at hi
  | cons t rest ih =>
    obtain ⟨ht, hrest⟩ := List.forall_mem_cons.mp h
    cases rest with
    | nil =>
      obtain rfl : i = 0 := by simpa using hi
      simp [join, ← ht]
    | cons u rest =>
      rw [join_cons_cons]
      cases i with
      | zero => simp [← ht, List.append_assoc]
      | succ i =>
        have hplace : (i + 1) * (width + separator.length) =
            (t ++ separator).length + i * (width + separator.length) := by
          rw [List.length_append, ht]
          ring
        have hi : i < (u :: rest).length := by simpa using hi
        rw [hplace, List.drop_length_add_append, ih hrest hi, List.getElem_cons_succ]

end SaltedHash.Text
