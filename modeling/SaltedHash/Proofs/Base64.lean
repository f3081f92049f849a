import Mathlib
import SaltedHash.Base64

/-!
# Base64 is read back

What is written is read back as it was. The other way round there is no such law: the reader is
more lenient than the writer.
-/

namespace SaltedHash.Base64

/-! ## Digits -/

theorem value?_digit {v : Nat} (h : v < 64) : value? (digit v) = some v := by
  have hall : ∀ v : Fin 64, value? (digit v.val) = some v.val := by decide
  exact hall ⟨v, h⟩

theorem value?_pad : value? pad = none := by decide

/-! ## Written texts -/

def sextets : Octets → List Nat
  | [] => []
  | [a] => [a.toNat / 4, a.toNat % 4 * 16]
  | [a, b] => [a.toNat / 4, a.toNat % 4 * 16 + b.toNat / 16, b.toNat % 16 * 4]
  | a :: b :: c :: rest =>
    a.toNat / 4 :: (a.toNat % 4 * 16 + b.toNat / 16) :: (b.toNat % 16 * 4 + c.toNat / 64) ::
      c.toNat % 64 :: sextets rest

def padSize (n : Nat) : Nat := (3 - n % 3) % 3

theorem encode_eq (x : Octets) :
    encode x = (sextets x).map digit ++ List.replicate (padSize x.length) pad := by
  induction x using sextets.induct with
  | case1 => rfl
  | case2 a => rfl
  | case3 a b => rfl
  | case4 a b c rest ih =>
    have hpad : padSize (a :: b :: c :: rest).length = padSize rest.length := by
      simp only [padSize, List.length_cons]
      omega
    rw [encode, ih, hpad]
    rfl

theorem sextets_lt (x : Octets) : ∀ v ∈ sextets x, v < 64 := by
  induction x using sextets.induct with
  | case1 => simp [sextets]
  | case2 a =>
    have ha := a.toNat_lt
    simp only [sextets, List.forall_mem_cons]
    exact ⟨by omega, by omega, by simp⟩
  | case3 a b =>
    have ha := a.toNat_lt
    have hb := b.toNat_lt
    simp only [sextets, List.forall_mem_cons]
    exact ⟨by omega, by omega, by omega, by simp⟩
  | case4 a b c rest ih =>
    have ha := a.toNat_lt
    have hb := b.toNat_lt
    have hc := c.toNat_lt
    simp only [sextets, List.forall_mem_cons]
    exact ⟨by omega, by omega, by omega, by omega, ih⟩

theorem length_sextets (x : Octets) : (sextets x).length = (4 * x.length + 2) / 3 := by
  induction x using sextets.induct with
  | case1 => rfl
  | case2 a => simp [sextets]
  | case3 a b => simp [sextets]
  | case4 a b c rest ih =>
    simp only [sextets, List.length_cons, ih]
    omega

theorem length_encode (x : Octets) : (encode x).length = 4 * ((x.length + 2) / 3) := by
  rw [encode_eq, List.length_append, List.length_map, List.length_replicate, length_sextets, padSize]
  omega

theorem octetsOf_sextets (x : Octets) : octetsOf (sextets x) = x := by
  induction x using sextets.induct with
  | case1 => rfl
  | case2 a =>
    have ha := a.toNat_lt
    have ea : a.toNat / 4 * 4 + a.toNat % 4 * 16 / 16 = a.toNat := by omega
    rw [sextets, octetsOf, ea, UInt8.ofNat_toNat]
  | case3 a b =>
    have ha := a.toNat_lt
    have hb := b.toNat_lt
    have ea : a.toNat / 4 * 4 + (a.toNat % 4 * 16 + b.toNat / 16) / 16 = a.toNat := by omega
    have eb : (a.toNat % 4 * 16 + b.toNat / 16) % 16 * 16 + b.toNat % 16 * 4 / 4 = b.toNat := by
      omega
    rw [sextets, octetsOf, ea, eb, UInt8.ofNat_toNat, UInt8.ofNat_toNat]
  | case4 a b c rest ih =>
    have ha := a.toNat_lt
    have hb := b.toNat_lt
    have hc := c.toNat_lt
    have ea : a.toNat / 4 * 4 + (a.toNat % 4 * 16 + b.toNat / 16) / 16 = a.toNat := by omega
    have eb : (a.toNat % 4 * 16 + b.toNat / 16) % 16 * 16 +
        (b.toNat % 16 * 4 + c.toNat / 64) / 4 = b.toNat := by omega
    have ec : (b.toNat % 16 * 4 + c.toNat / 64) % 4 * 64 + c.toNat % 64 = c.toNat := by omega
    rw [sextets, octetsOf, ih, ea, eb, ec, UInt8.ofNat_toNat, UInt8.ofNat_toNat, UInt8.ofNat_toNat]

theorem padded_sextets (x : Octets) : padded (sextets x).length (padSize x.length) = true := by
  rw [length_sextets, padSize, padded]
  rcases (by omega : x.length % 3 = 0 ∨ x.length % 3 = 1 ∨ x.length % 3 = 2) with h | h | h
  · have hmod : (4 * x.length + 2) / 3 % 4 = 0 := by omega
    simp [hmod, h]
  · have hmod : (4 * x.length + 2) / 3 % 4 = 2 := by omega
    simp [hmod, h]
  · have hmod : (4 * x.length + 2) / 3 % 4 = 3 := by omega
    simp [hmod, h]

theorem visible_of_mem_encode {x : Octets} {c : CodePoint} (h : c ∈ encode x) :
    33 ≤ c.val ∧ c.val ≤ 126 := by
  have hdigit : ∀ v : Fin 64, 33 ≤ (digit v.val).val ∧ (digit v.val).val ≤ 126 := by decide
  rw [encode_eq, List.mem_append, List.mem_map] at h
  rcases h with ⟨v, hv, rfl⟩ | h
  · exact hdigit ⟨v, sextets_lt x v hv⟩
  · rw [List.eq_of_mem_replicate h]
    decide

/-! ## Reading -/

theorem takeWhile_encode (x : Octets) :
    (encode x).takeWhile (fun c => (value? c).isSome) = (sextets x).map digit := by
  have hdigits : ∀ c ∈ (sextets x).map digit, (value? c).isSome = true := by
    intro c hc
    obtain ⟨v, hv, rfl⟩ := List.mem_map.mp hc
    rw [value?_digit (sextets_lt x v hv)]
    rfl
  have hpadding : (List.replicate (padSize x.length) pad).takeWhile
      (fun c => (value? c).isSome) = [] := by
    cases padSize x.length with
    | zero => rfl
    | succ n => simp [List.replicate_succ, value?_pad]
  rw [encode_eq, List.takeWhile_append_of_pos hdigits, hpadding, List.append_nil]

theorem filterMap_value?_digit (x : Octets) :
    ((sextets x).map digit).filterMap value? = sextets x := by
  rw [List.filterMap_map]
  conv_rhs => rw [← List.filterMap_some (l := sextets x)]
  apply List.filterMap_congr
  intro v hv
  exact value?_digit (sextets_lt x v hv)

theorem decode_encode (x : Octets) : decode (encode x) = some x := by
  have hdrop : (encode x).drop (sextets x).length = List.replicate (padSize x.length) pad := by
    rw [encode_eq, ← List.length_map (f := digit), List.drop_left]
  have hpads : (List.replicate (padSize x.length) pad).all (· == pad) = true := by
    simp
  unfold decode
  simp only [takeWhile_encode, List.length_map, hdrop, hpads, List.length_replicate,
    padded_sextets, filterMap_value?_digit, octetsOf_sextets, Bool.and_self, if_true]

end SaltedHash.Base64
