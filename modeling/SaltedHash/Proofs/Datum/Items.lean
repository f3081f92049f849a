import Mathlib
import SaltedHash.Datum.Items

/-!
# Items and octets

A copy of a value has an octet to an item, but for a window of words, where it has two, and a grid, where
it has the octets of a row. So a size that is counted in items is not always a size in octets.
-/

namespace SaltedHash

/-! ## Steps that may fail -/

theorem bind_eq_ok_iff {ε α β : Type} {x : Except ε α} {f : α → Except ε β} {b : β} :
    x >>= f = .ok b ↔ ∃ a, x = .ok a ∧ f a = .ok b := by
  cases x with
  | error e => simp [bind, Except.bind]
  | ok a => simp [bind, Except.bind]

theorem map_eq_ok_iff {ε α β : Type} {x : Except ε α} {f : α → β} {b : β} :
    x.map f = .ok b ↔ ∃ a, x = .ok a ∧ f a = b := by
  cases x with
  | error e => simp [Except.map]
  | ok a => simp [Except.map]

theorem guard_eq_ok_iff {ε α β : Type} {c : Prop} [Decidable c] {e : ε} {f : β → Except ε α}
    {x : Except ε α} {a : α} :
    (if c then (throw e : Except ε β) >>= f else x) = .ok a ↔ ¬ c ∧ x = .ok a := by
  by_cases hc : c
  · simp [hc, throw, throwThe, MonadExceptOf.throw, bind, Except.bind]
  · simp [hc]

theorem length_of_mapM_eq_ok {ε α β : Type} {f : α → Except ε β} {items : List α} {made : List β}
    (h : items.mapM f = .ok made) : made.length = items.length := by
  induction items generalizing made with
  | nil =>
    cases h
    rfl
  | cons item rest ih =>
    rw [List.mapM_cons, bind_eq_ok_iff] at h
    obtain ⟨first, -, h⟩ := h
    rw [bind_eq_ok_iff] at h
    obtain ⟨others, hothers, h⟩ := h
    cases h
    simp [ih hothers]

namespace Datum

theorem integer?_eq_some_iff {d : Datum} {n : Int} :
    d.integer? = some n ↔ d.number? = some (.whole n) := by
  unfold integer?
  split
  · rename_i m hnumber
    simp [hnumber]
  · rename_i hnumber
    simpa using hnumber n

/-! ## Sizes -/

theorem count_eq_ok_iff {d : Datum} {n : Nat} : d.count = .ok n ↔ d.length? = some n := by
  cases d <;> simp [count, length?]

/-- How many octets an item of a value makes. -/
def itemSize : Datum → Nat
  | words _ => 2
  | grid g => g.rowSize
  | _ => 1

theorem length_octetsOfWords (items : List UInt16) :
    (octetsOfWords items).length = 2 * items.length := by
  induction items with
  | nil => rfl
  | cons w rest ih =>
    simp only [octetsOfWords, List.flatMap_cons, List.length_append, List.length_cons,
      List.length_nil] at ih ⊢
    omega

theorem length_toOctets {d : Datum} {o : Octets} {n : Nat} (ho : d.toOctets = .ok o)
    (hn : d.length? = some n) : o.length = d.itemSize * n := by
  cases d with
  | octets value | buffer value | view value gapped =>
    cases ho
    cases hn
    simp [itemSize]
  | words items =>
    cases ho
    cases hn
    exact length_octetsOfWords items
  | grid g =>
    cases ho
    cases hn
    rw [itemSize, Nat.mul_comm]
    exact g.length_seen_eq
  | list items =>
    cases hn
    simp only [itemSize, Nat.one_mul]
    exact length_of_mapM_eq_ok ho
  | text t => cases ho
  | mapping entries => cases ho
  | nothing | flag b | integer m | real x | released => cases hn

/-- A value with items that do not make an octet each: words, or rows of another size. -/
def IsWords : Datum → Prop
  | words _ => True
  | grid g => g.rowSize ≠ 1
  | _ => False

theorem itemSize_eq_one_iff {d : Datum} : d.itemSize = 1 ↔ ¬ d.IsWords := by
  cases d <;> simp [itemSize, IsWords]

theorem toOctets_of_octets? {d : Datum} {o : Octets} (h : d.octets? = some o) :
    d.toOctets = .ok o := by
  cases d with
  | octets value | buffer value | words items =>
    cases h
    rfl
  | view value gapped =>
    simp only [octets?] at h
    split_ifs at h with hcontiguous
    cases h
    rfl
  | grid g =>
    simp only [octets?] at h
    split_ifs at h with hgap
    cases h
    rfl
  | _ => cases h

theorem octets_pos {d : Datum} {o : Octets} {n : Nat} (ho : d.octets? = some o)
    (hn : d.length? = some n) (hpos : 1 ≤ n) : 1 ≤ o.length := by
  have hcopy := length_toOctets (toOctets_of_octets? ho) hn
  cases d with
  | grid g =>
    simp only [octets?] at ho
    split_ifs at ho with hgap
    cases ho
    have hsome : g.seen ≠ [] := by
      rintro hnone
      simp [hnone] at hgap
    exact List.length_pos_iff.mpr hsome
  | words items => simp only [itemSize] at hcopy; omega
  | octets _ | buffer _ | view _ _ | list _ | text _ | mapping _ =>
    simp only [itemSize] at hcopy; omega
  | nothing | flag _ | integer _ | real _ | released => cases hn

theorem own_octets {d : Datum} {o : Octets} (h : d = octets o ∨ d = buffer o) :
    d.count = .ok o.length ∧ d.octets? = some o ∧ d.toOctets = .ok o := by
  rcases h with rfl | rfl
  · exact ⟨rfl, rfl, rfl⟩
  · exact ⟨rfl, rfl, rfl⟩

end Datum

end SaltedHash
