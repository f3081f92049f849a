import Mathlib
import SaltedHash.Proofs.Hex
import SaltedHash.Proofs.Text.Join
import SaltedHash.Sha1.Digest

/-!
# Octets with a separator are read back

Every octet is two capital digits, so its digits stand in a place that depends on its number and the length
of the separator alone. They are read back there even if the separator is empty or made of digits.
-/

namespace SaltedHash.Sha1

/-! ## One octet -/

theorem ofChar_toUpper_digitChar {v : Nat} (h : v < 16) :
    CodePoint.ofChar (Nat.digitChar v).toUpper = Hex.upperDigit v := by
  have hall : ∀ v : Fin 16,
      CodePoint.ofChar (Nat.digitChar v.val).toUpper = Hex.upperDigit v.val := by
    decide
  exact hall ⟨v, h⟩

theorem hexItem_octet (octet : UInt8) : hexItem octet.toNat = Hex.encodeUpper [octet] := by
  have hlt := octet.toNat_lt
  have hnonneg : ¬ ((octet.toNat : Int) < 0) := by omega
  have hzero : CodePoint.ofChar '0' = Hex.upperDigit 0 := rfl
  rw [hexItem, if_neg hnonneg, Int.natAbs_natCast, Nat.toDigits_eq_if (by decide)]
  split_ifs with hone
  · have hhigh : octet.toNat / 16 = 0 := Nat.div_eq_of_lt hone
    simp [Hex.encodeUpper, Text.ofString, ofChar_toUpper_digitChar hone, hzero, hhigh,
      Nat.mod_eq_of_lt hone]
  · have hhigh : octet.toNat / 16 < 16 := by omega
    have hlow : octet.toNat % 16 < 16 := Nat.mod_lt _ (by decide)
    simp [Hex.encodeUpper, Text.ofString, Nat.toDigits_of_lt_base hhigh,
      ofChar_toUpper_digitChar hhigh, ofChar_toUpper_digitChar hlow]

/-! ## All of them -/

def separated (separator : Text) (octets : Octets) : Text :=
  Text.join separator (octets.map fun octet => Hex.encodeUpper [octet])

theorem mapM_formatItem_octets (octets : Octets) :
    (octets.map fun octet => Datum.integer octet.toNat).mapM formatItem =
      .ok (octets.map fun octet => Hex.encodeUpper [octet]) := by
  induction octets with
  | nil => rfl
  | cons octet rest ih =>
    rw [List.map_cons, List.mapM_cons, ih, formatItem, hexItem_octet]
    rfl

theorem formatDigest_octets (separator : Text) (octets : Octets) :
    formatDigest (.octets octets) (.text separator) = .ok (.text (separated separator octets)) := by
  show ((octets.map fun octet => Datum.integer octet.toNat).mapM formatItem >>= fun texts =>
    Except.ok (Datum.text (Text.join separator texts))) = _
  rw [mapM_formatItem_octets]
  rfl

theorem length_of_mem_map_encodeUpper {octets : Octets} :
    ∀ t ∈ octets.map (fun octet => Hex.encodeUpper [octet]), t.length = 2 := by
  simp [Hex.length_encodeUpper]

theorem length_separated (separator : Text) (octets : Octets) :
    (separated separator octets).length =
      2 * octets.length + separator.length * (octets.length - 1) := by
  rw [separated, Text.length_join separator length_of_mem_map_encodeUpper, List.length_map]

theorem decode_separated (separator : Text) (octets : Octets) (i : Fin octets.length) :
    Hex.decode (((separated separator octets).drop (i.val * (2 + separator.length))).take 2) =
      .ok [octets[i]] := by
  rw [separated, Text.take_drop_join separator length_of_mem_map_encodeUpper (by simp),
    List.getElem_map]
  exact Hex.decode_encodeUpper _

theorem length_eq_of_separated_eq {separator : Text} {octets others : Octets}
    (h : separated separator octets = separated separator others) :
    octets.length = others.length := by
  have hlength := congrArg List.length h
  rw [length_separated, length_separated] at hlength
  -- More octets have as many separators at least, and digits besides.
  rcases Nat.lt_trichotomy octets.length others.length with hlt | heq | hgt
  · have := Nat.mul_le_mul_left separator.length (Nat.sub_le_sub_right hlt.le 1)
    omega
  · exact heq
  · have := Nat.mul_le_mul_left separator.length (Nat.sub_le_sub_right hgt.le 1)
    omega

theorem separated_injective (separator : Text) : Function.Injective (separated separator) := by
  intro octets others h
  apply List.ext_getElem (length_eq_of_separated_eq h)
  intro i hi hi'
  have hread := decode_separated separator octets ⟨i, hi⟩
  rw [h, decode_separated separator others ⟨i, hi'⟩] at hread
  simpa [eq_comm] using hread

/-- The two characters at the place of an octet are read as that octet, so no other octets have the
same text. -/
theorem formatDigest_read_back (separator : Text) :
    (∀ octets : Octets, ∃ t, formatDigest (.octets octets) (.text separator) = .ok (.text t) ∧
        t.length = 2 * octets.length + separator.length * (octets.length - 1) ∧
        ∀ i : Fin octets.length,
          Hex.decode ((t.drop (i.val * (2 + separator.length))).take 2) = .ok [octets[i]]) ∧
      Function.Injective fun octets : Octets =>
        formatDigest (.octets octets) (.text separator) := by
  constructor
  · intro octets
    exact ⟨separated separator octets, formatDigest_octets separator octets,
      length_separated separator octets, decode_separated separator octets⟩
  · intro octets others h
    simp only [formatDigest_octets, Except.ok.injEq, Datum.text.injEq] at h
    exact separated_injective separator h

example : formatDigest (.octets [0xa9, 0x99, 0x0e]) (.text [CodePoint.ofChar '0']) =
    .ok (.text (Text.ofString "A909900E")) := rfl

end SaltedHash.Sha1
