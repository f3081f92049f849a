import SaltedHash.Text.Utf8

/-!
# Octet strings

Big-endian numbers, and an octet string cut into pieces of one size.
-/

namespace SaltedHash.Octets

def toNat (octets : Octets) : Nat :=
  octets.foldl (fun n octet => n * 256 + octet.toNat) 0

def ofNat : (width : Nat) → (n : Nat) → Octets
  | 0, _ => []
  | width + 1, n => ofNat width (n / 256) ++ [UInt8.ofNat n]

@[simp] theorem length_ofNat (width n : Nat) : (ofNat width n).length = width := by
  induction width generalizing n with
  | zero => rfl
  | succ width ih => simp [ofNat, ih]

/-- Pieces of `size` items, the last one perhaps shorter. There are none of size zero. -/
def chunks {α : Type} (size : Nat) (items : List α) : List (List α) :=
  if items = [] ∨ size = 0 then [] else items.take size :: chunks size (items.drop size)
termination_by items.length
decreasing_by
  rename_i h
  simp only [not_or] at h
  have := List.length_pos_iff.2 h.1
  simp only [List.length_drop]
  omega

theorem chunks_nil {α : Type} (size : Nat) : chunks size ([] : List α) = [] := by
  unfold chunks
  simp

theorem chunks_of_ne_nil {α : Type} {size : Nat} {items : List α} (hs : size ≠ 0)
    (h : items ≠ []) : chunks size items = items.take size :: chunks size (items.drop size) := by
  rw [chunks]
  simp [h, hs]

theorem flatten_chunks {α : Type} {size : Nat} (hs : size ≠ 0) (items : List α) :
    (chunks size items).flatten = items := by
  induction h : items.length using Nat.strongRecOn generalizing items with
  | _ n ih =>
    by_cases he : items = []
    · simp [he, chunks_nil]
    · have := List.length_pos_iff.2 he
      rw [chunks_of_ne_nil hs he, List.flatten_cons,
        ih (items.drop size).length (by simp; omega) _ rfl, List.take_append_drop]

end SaltedHash.Octets
