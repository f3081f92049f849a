import Mathlib
import SaltedHash.Salt.Source

/-!
# Draws in order

A supply hands out one sequence of draws. Some draws and then some more are all of them together, so the
salts that are made one after another are slices of one sequence of octets.
-/

namespace SaltedHash.Salt

/-! ## The octet of a draw -/

theorem toNat_octetOf (draw : Int) : ((octetOf draw).toNat : Int) = draw % 96 + 32 := by
  have hsmall : (draw % 96).toNat + 32 < 256 := by omega
  have hoctet : (octetOf draw).toNat = (draw % 96).toNat + 32 := UInt8.toNat_ofNat_of_lt' hsmall
  omega

theorem octetOf_bounds (draw : Int) : 0x20 ≤ octetOf draw ∧ octetOf draw ≤ 0x7F := by
  have hvalue := toNat_octetOf draw
  rw [UInt8.le_iff_toNat_le, UInt8.le_iff_toNat_le]
  simp only [UInt8.reduceToNat]
  omega

/-! ## What is left of a source -/

def Stream.skip (s : Stream) (n : Nat) : Stream := { s with taken := s.taken + n }

/-- A source after a number of draws. The system's source has nothing of its own to lose. -/
def Source.skip (source : Source) (n : Nat) : Source :=
  match source with
  | .linear state => .linear (advance^[n] state)
  | .system => .system
  | .scripted script => .scripted (script.skip n)

def Source.isSystem : Source → Bool
  | .system => true
  | _ => false

theorem Source.isSystem_iff {source : Source} : source.isSystem = true ↔ source = .system := by
  cases source <;> simp [isSystem]

@[simp] theorem Stream.skip_skip (s : Stream) (m n : Nat) :
    (s.skip m).skip n = s.skip (m + n) := by
  simp [Stream.skip, Nat.add_assoc]

@[simp] theorem Source.skip_zero (source : Source) : source.skip 0 = source := by
  cases source <;> rfl

@[simp] theorem Source.skip_skip (source : Source) (m n : Nat) :
    (source.skip m).skip n = source.skip (m + n) := by
  cases source with
  | linear state => simp [Source.skip, Nat.add_comm m n, Function.iterate_add_apply]
  | system => rfl
  | scripted script => simp [Source.skip]

@[simp] theorem Source.skip_eq_system_iff {source : Source} {n : Nat} :
    source.skip n = .system ↔ source = .system := by
  cases source <;> simp [Source.skip]

namespace Supply

def drop (s : Supply) (n : Nat) : Supply := (s.take n).2

def draw (s : Supply) (i : Nat) : Int := (s.drop i).next.1

def slice (s : Supply) (start n : Nat) : Octets :=
  (List.range' start n).map fun i => octetOf (s.draw i)

variable (s : Supply)

theorem drop_succ (n : Nat) : s.drop (n + 1) = s.next.2.drop n := rfl

theorem drop_drop (m n : Nat) : (s.drop m).drop n = s.drop (m + n) := by
  induction m generalizing s with
  | zero => rw [Nat.zero_add]; rfl
  | succ m ih => rw [drop_succ, ih, Nat.succ_add, drop_succ]

theorem draw_drop (m i : Nat) : (s.drop m).draw i = s.draw (m + i) := by
  rw [draw, drop_drop, draw]

theorem take_fst (n : Nat) : (s.take n).1 = (List.range' 0 n).map s.draw := by
  induction n generalizing s with
  | zero => rfl
  | succ n ih =>
    have hlater : s.draw ∘ (1 + ·) = s.next.2.draw := by
      funext i
      exact (draw_drop s 1 i).symm
    have hrange : List.range' 1 n = (List.range' 0 n).map (1 + ·) :=
      (List.map_add_range' 0 n 1).symm
    rw [take, List.range'_succ, List.map_cons, hrange, List.map_map, hlater, ← ih]
    rfl

/-! ## Slices -/

theorem salt_eq (n : Nat) : s.salt n = (s.slice 0 n, s.drop n) := by
  simp only [salt, take_fst, List.map_map]
  rfl

theorem slice_append (start m n : Nat) :
    s.slice start m ++ s.slice (start + m) n = s.slice start (m + n) := by
  simp [slice, ← List.map_append]

theorem slice_drop (m start n : Nat) : (s.drop m).slice start n = s.slice (m + start) n := by
  rw [slice, slice, ← List.map_add_range' start n 1, List.map_map]
  simp only [draw_drop]
  rfl

/-! ## Each kind of source -/

variable (system : Stream)

theorem drop_linear (state : UInt32) (n : Nat) :
    drop ⟨.linear state, system⟩ n = ⟨.linear (advance^[n] state), system⟩ := by
  induction n generalizing state with
  | zero => rfl
  | succ n ih =>
    rw [drop_succ, Function.iterate_succ_apply]
    exact ih (advance state)

theorem drop_system (n : Nat) : drop ⟨.system, system⟩ n = ⟨.system, system.skip n⟩ := by
  induction n generalizing system with
  | zero => rfl
  | succ n ih =>
    rw [drop_succ, Nat.add_comm, ← Stream.skip_skip]
    exact ih (system.skip 1)

theorem drop_scripted (script : Stream) (n : Nat) :
    drop ⟨.scripted script, system⟩ n = ⟨.scripted (script.skip n), system⟩ := by
  induction n generalizing script with
  | zero => rfl
  | succ n ih =>
    rw [drop_succ, Nat.add_comm, ← Stream.skip_skip]
    exact ih (script.skip 1)

@[simp] theorem draw_scripted (script : Stream) (i : Nat) :
    draw ⟨.scripted script, system⟩ i = script.item (script.taken + i) := by
  rw [draw, drop_scripted]
  rfl

theorem drop_of_ne {source : Source} (h : source ≠ .system) (n : Nat) :
    drop ⟨source, system⟩ n = ⟨source.skip n, system⟩ := by
  cases source with
  | linear state => exact drop_linear system state n
  | system => exact absurd rfl h
  | scripted script => exact drop_scripted system script n

theorem draw_congr {source : Source} (h : source ≠ .system) (system system' : Stream) (i : Nat) :
    draw ⟨source, system⟩ i = draw ⟨source, system'⟩ i := by
  rw [draw, draw, drop_of_ne system h, drop_of_ne system' h]
  cases source with
  | linear state => rfl
  | system => exact absurd rfl h
  | scripted script => rfl

theorem source_drop (source : Source) (n : Nat) :
    (drop ⟨source, system⟩ n).source = source.skip n := by
  by_cases h : source = .system
  · rw [h, drop_system]
    rfl
  · rw [drop_of_ne system h]

end Supply

end SaltedHash.Salt
