import SaltedHash.Text.Utf8

/-!
# Windows of several dimensions

A grid has a size for each dimension, and its octets row after row. Its items are its rows, which are
grids in turn; without a dimension it is a single octet. A window of one dimension is no grid.
-/

namespace SaltedHash

def extent (shape : List Nat) : Nat := shape.foldr (· * ·) 1

@[simp] theorem extent_cons (rows : Nat) (shape : List Nat) :
    extent (rows :: shape) = rows * extent shape := rfl

/-- The octets seen through a window of several dimensions, or of none. -/
structure Grid where
  shape : List Nat
  seen : Octets
  /-- Whether the octets do not stand one after another in memory. -/
  gapped : Bool
  length_seen : seen.length = extent shape
  length_shape : shape.length ≠ 1
  deriving DecidableEq, Repr

namespace Grid

/-- How many rows there are. What has no dimension counts as one row. -/
def rows (g : Grid) : Nat := g.shape.headD 1

def rowSize (g : Grid) : Nat := extent g.shape.tail

theorem length_seen_eq (g : Grid) : g.seen.length = g.rows * g.rowSize := by
  obtain ⟨shape, seen, gapped, hseen, -⟩ := g
  cases shape with
  | nil => exact hseen
  | cons rows shape => exact hseen

def take (g : Grid) (n : Nat) : Grid :=
  match g with
  | ⟨[], _, _, _, _⟩ => g
  | ⟨rows :: shape, seen, gapped, hseen, hshape⟩ =>
    { shape := min n rows :: shape
      seen := seen.take (n * extent shape)
      gapped
      length_seen := by rw [List.length_take, hseen, extent_cons, extent_cons, Nat.mul_min_mul_right]
      length_shape := hshape }

def drop (g : Grid) (n : Nat) : Grid :=
  match g with
  | ⟨[], _, _, _, _⟩ => g
  | ⟨rows :: shape, seen, gapped, hseen, hshape⟩ =>
    { shape := (rows - n) :: shape
      seen := seen.drop (n * extent shape)
      gapped
      length_seen := by rw [List.length_drop, hseen, extent_cons, extent_cons, Nat.sub_mul]
      length_shape := hshape }

/-- Whether the octets stand one after another in memory. No octets always do. -/
def contiguous (g : Grid) : Bool := !g.gapped || g.seen.isEmpty

end Grid

end SaltedHash
