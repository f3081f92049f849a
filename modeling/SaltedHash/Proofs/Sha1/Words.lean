import Mathlib
import SaltedHash.Sha1.Compression
import SaltedHash.Sha1.Standard

/-!
# Masked numbers are words

The engine computes with natural numbers and masks them; the standard computes with 32-bit words.
On the numbers of words the operations of the engine give the numbers of what the standard gives.
-/

namespace SaltedHash.Sha1

/-! ## Masking and rotating -/

theorem and_mask32 (n : Nat) : n &&& mask32 = n % 2 ^ 32 :=
  Nat.and_two_pow_sub_one_eq_mod n 32

theorem rol_toNat (x : UInt32) {k : Nat} (h0 : 0 < k) (hk : k < 32) :
    rol x.toNat k = (Standard.rotl x (UInt32.ofNat k)).toNat := by
  have hleft : (UInt32.ofNat k).toNat % 32 = k := by
    rw [UInt32.toNat_ofNat']
    omega
  have hright : (32 - UInt32.ofNat k).toNat % 32 = 32 - k := by
    rw [UInt32.toNat_sub, UInt32.toNat_ofNat', show (32 : UInt32).toNat = 32 from rfl]
    omega
  have hsmall : x.toNat >>> (32 - k) < 2 ^ 32 :=
    lt_of_le_of_lt (Nat.shiftRight_le _ _) x.toNat_lt
  rw [rol, and_mask32, Nat.or_mod_two_pow, Nat.mod_eq_of_lt hsmall, Standard.rotl, UInt32.toNat_or,
    UInt32.toNat_shiftLeft, UInt32.toNat_shiftRight, hleft, hright]

/-! ## Choice and majority -/

/-- The bits of `z` where `x` has none. The complement is negative, so no mask is in it. -/
theorem select_complement (x z : Nat) : select (~~~(Int.ofNat x)) z = z ^^^ (x &&& z) := rfl

theorem and_xor_self (x z : UInt32) : z ^^^ (x &&& z) = ~~~x &&& z := by
  apply UInt32.toBitVec_inj.mp
  ext i hi
  simp only [UInt32.toBitVec_xor, UInt32.toBitVec_and, UInt32.toBitVec_not, BitVec.getElem_xor,
    BitVec.getElem_and, BitVec.getElem_not]
  cases x.toBitVec[i] <;> cases z.toBitVec[i] <;> rfl

theorem choice_or_eq_xor (x y z : UInt32) : (x &&& y) ||| (~~~x &&& z) = (x &&& y) ^^^ (~~~x &&& z) := by
  apply UInt32.toBitVec_inj.mp
  ext i hi
  simp only [UInt32.toBitVec_or, UInt32.toBitVec_xor, UInt32.toBitVec_and, UInt32.toBitVec_not,
    BitVec.getElem_or, BitVec.getElem_xor, BitVec.getElem_and, BitVec.getElem_not]
  cases x.toBitVec[i] <;> cases y.toBitVec[i] <;> cases z.toBitVec[i] <;> rfl

/-- Of three pairs of bits one or three agree on a set bit, never two. -/
theorem majority_or_eq_xor (x y z : UInt32) :
    (x &&& y) ||| (x &&& z) ||| (y &&& z) = (x &&& y) ^^^ (x &&& z) ^^^ (y &&& z) := by
  apply UInt32.toBitVec_inj.mp
  ext i hi
  simp only [UInt32.toBitVec_or, UInt32.toBitVec_xor, UInt32.toBitVec_and, BitVec.getElem_or,
    BitVec.getElem_xor, BitVec.getElem_and]
  cases x.toBitVec[i] <;> cases y.toBitVec[i] <;> cases z.toBitVec[i] <;> rfl

theorem mix_toNat (i : Nat) (x y z : UInt32) :
    mix i x.toNat y.toNat z.toNat = (Standard.mix i x y z).toNat := by
  unfold mix Standard.mix
  split_ifs with h20 h40 h60
  · rw [select_complement, ← choice_or_eq_xor, ← and_xor_self]
    simp only [UInt32.toNat_or, UInt32.toNat_and, UInt32.toNat_xor]
  · simp only [UInt32.toNat_xor]
  · rw [← majority_or_eq_xor]
    simp only [UInt32.toNat_or, UInt32.toNat_and]
  · simp only [UInt32.toNat_xor]

theorem constant_toNat (i : Nat) : constant i = (Standard.constant i).toNat := by
  unfold constant Standard.constant
  split_ifs <;> rfl

/-! ## The accumulators -/

def Chain.ofState (s : Standard.State) : Chain :=
  ⟨s.a.toNat, s.b.toNat, s.c.toNat, s.d.toNat, s.e.toNat⟩

namespace Chain

def IsWords (x : Chain) : Prop :=
  x.a < 2 ^ 32 ∧ x.b < 2 ^ 32 ∧ x.c < 2 ^ 32 ∧ x.d < 2 ^ 32 ∧ x.e < 2 ^ 32

theorem initial_eq_ofState : initial = ofState Standard.initial := rfl

theorem isWords_ofState (s : Standard.State) : (ofState s).IsWords :=
  ⟨s.a.toNat_lt, s.b.toNat_lt, s.c.toNat_lt, s.d.toNat_lt, s.e.toNat_lt⟩

theorem octets_ofState (s : Standard.State) : (ofState s).octets = s.octets := by
  simp [octets, ofState, Standard.State.octets]

theorem ofState_add (s t : Standard.State) :
    (ofState s).add (ofState t) =
      ofState ⟨s.a + t.a, s.b + t.b, s.c + t.c, s.d + t.d, s.e + t.e⟩ := by
  simp only [add, ofState, and_mask32, UInt32.toNat_add]

end Chain

end SaltedHash.Sha1
