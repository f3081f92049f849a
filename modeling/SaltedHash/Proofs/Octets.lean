import Mathlib
import SaltedHash.Octets

/-!
# Big-endian numbers

What the number of an octet string is bounded by, and how it is put together.
-/

namespace SaltedHash.Octets

theorem toNat_append (x y : Octets) : toNat (x ++ y) = toNat x * 256 ^ y.length + toNat y := by
  induction y using List.reverseRecOn with
  | nil => simp [toNat]
  | append_singleton y octet ih =>
    simp only [toNat, ← List.append_assoc, List.foldl_append, List.foldl_cons, List.foldl_nil,
      List.length_append, List.length_singleton, pow_succ] at ih ⊢
    rw [ih]
    ring

theorem toNat_lt (x : Octets) : toNat x < 256 ^ x.length := by
  induction x using List.reverseRecOn with
  | nil => simp [toNat]
  | append_singleton x octet ih =>
    have hlast : toNat [octet] < 256 := by
      simpa [toNat] using octet.toNat_lt
    rw [toNat_append, List.length_append, List.length_singleton, pow_one, pow_succ]
    omega

end SaltedHash.Octets
