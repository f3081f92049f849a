import Mathlib
import SaltedHash.FileTree

/-!
# Names that a file can have

A name without parts that lead nowhere has the characters of the name as it was given, but for slashes
and dots. So it can be told from the name as it was given whether a file can have it.
-/

namespace SaltedHash.FileName

/-! ## The characters of a name -/

section

variable {c : CodePoint} (hslash : c ≠ slash)
include hslash

theorem exists_mem_split_iff (t : Text) : (∃ part ∈ split t, c ∈ part) ↔ c ∈ t := by
  induction t with
  | nil => simp [split]
  | cons d rest ih =>
    unfold split at ih ⊢
    rw [List.foldr_cons, List.mem_cons, ← ih]
    by_cases hd : d = slash
    · -- A new part begins, and the slash is in none.
      have hc : c ≠ d := by
        rintro rfl
        exact hslash hd
      simp [hd, hslash]
    · rw [if_neg hd]
      split
      · rename_i hnone
        simp [hnone]
      · rename_i part others hsome
        simp [hsome, or_assoc]

theorem mem_join_iff (parts : List Text) :
    c ∈ Text.join [slash] parts ↔ ∃ part ∈ parts, c ∈ part := by
  induction parts with
  | nil => simp [Text.join]
  | cons part rest ih =>
    cases rest with
    | nil => simp [Text.join]
    | cons next rest =>
      rw [Text.join, List.mem_append, List.mem_append, ih]
      · simp [hslash]
      · simp

theorem not_mem_root (t : Text) : c ∉ root t := by
  unfold root
  simp only
  split_ifs
  · simp
  · simp [hslash]
  · simp [hslash]

theorem mem_normal_iff (hdot : c ≠ CodePoint.ofChar '.') (t : Text) : c ∈ normal t ↔ c ∈ t := by
  -- Only empty parts and single dots are dropped, and `c` is in neither.
  have hparts : (∃ part ∈ parts t, c ∈ part) ↔ ∃ part ∈ split t, c ∈ part := by
    constructor
    · rintro ⟨part, hpart, hc⟩
      exact ⟨part, (List.mem_filter.mp hpart).1, hc⟩
    · rintro ⟨part, hpart, hc⟩
      refine ⟨part, List.mem_filter.mpr ⟨hpart, ?_⟩, hc⟩
      have hne : part ≠ [] := List.ne_nil_of_mem hc
      have hhere : part ≠ here := by
        rintro rfl
        exact hdot (List.mem_singleton.mp hc)
      simp [hne, hhere]
  have hname : c ∈ root t ++ Text.join [slash] (parts t) ↔ c ∈ t := by
    rw [List.mem_append, mem_join_iff hslash, hparts, exists_mem_split_iff hslash]
    simp [not_mem_root hslash]
  unfold normal
  simp only
  split_ifs with hempty
  · rw [List.isEmpty_iff] at hempty
    rw [hempty] at hname
    rw [← hname]
    simp [here, hdot]
  · exact hname

end

/-! ## Usable names -/

/-- A file can have such a name: there is no null in it, and every surrogate stands for an octet. -/
def Usable (name : Text) : Prop :=
  ∀ c ∈ name, c.val ≠ 0 ∧ (CodePoint.isSurrogate c = true → isEscapedOctet c = true)

theorem fault?_eq_none_iff {name : Text} : fault? name = none ↔ Usable name := by
  have hencodable : (name.findIdx? fun c => CodePoint.isSurrogate c && !isEscapedOctet c) = none ↔
      ∀ c ∈ name, CodePoint.isSurrogate c = true → isEscapedOctet c = true := by
    rw [List.findIdx?_eq_none_iff]
    simp
  unfold fault? Usable
  split
  · -- A surrogate stands for no octet.
    rename_i place hplace
    rw [hplace] at hencodable
    simp only [reduceCtorEq, false_iff] at hencodable ⊢
    exact fun h => hencodable fun c hc => (h c hc).2
  · rename_i hplace
    have hall := hencodable.mp hplace
    by_cases hnull : (name.any (·.val == 0)) = true
    · rw [if_pos hnull]
      obtain ⟨c, hc, hzero⟩ := List.any_eq_true.mp hnull
      simp only [reduceCtorEq, false_iff]
      exact fun h => (h c hc).1 (beq_iff_eq.mp hzero)
    · rw [if_neg hnull]
      simp only [true_iff]
      refine fun c hc => ⟨fun hzero => hnull ?_, hall c hc⟩
      exact List.any_eq_true.mpr ⟨c, hc, beq_iff_eq.mpr hzero⟩

theorem usable_normal_iff {name : Text} : Usable (normal name) ↔ Usable name := by
  have hslash : slash.val ≠ 0 ∧ (CodePoint.isSurrogate slash = true → isEscapedOctet slash = true) :=
    ⟨by decide, by decide⟩
  have hdot : (CodePoint.ofChar '.').val ≠ 0 ∧
      (CodePoint.isSurrogate (CodePoint.ofChar '.') = true →
        isEscapedOctet (CodePoint.ofChar '.') = true) :=
    ⟨by decide, by decide⟩
  unfold Usable
  refine forall_congr' fun c => ?_
  by_cases hc : c = slash
  · subst hc
    exact iff_of_true (fun _ => hslash) fun _ => hslash
  by_cases hd : c = CodePoint.ofChar '.'
  · subst hd
    exact iff_of_true (fun _ => hdot) fun _ => hdot
  · rw [mem_normal_iff hc hd]

theorem fault?_normal_eq_none_iff {name : Text} : fault? (normal name) = none ↔ Usable name := by
  rw [fault?_eq_none_iff, usable_normal_iff]

theorem not_usable_surrogate : ¬ Usable [0xD800] := by
  intro h
  exact absurd ((h 0xD800 (List.mem_singleton_self _)).2 (by decide)) (by decide)

end SaltedHash.FileName
