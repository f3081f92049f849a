import Mathlib
import SaltedHash.Hex

/-!
# Hexadecimal is read back

Octets written in capital or small digits are read back as they were. A text without gaps is read exactly
if it has digits only and an even number of them; otherwise the fault has a place. In capitals there is
nothing in the text but figures and the letters A to F.
-/

namespace SaltedHash.Hex

/-! ## Digits -/

theorem value?_upperDigit {v : Nat} (h : v < 16) : value? (upperDigit v) = some v := by
  have hall : ∀ v : Fin 16, value? (upperDigit v.val) = some v.val := by decide
  exact hall ⟨v, h⟩

theorem val_upperDigit {v : Nat} (h : v < 16) :
    (upperDigit v).val = if v < 10 then 48 + v else 55 + v := by
  have hall : ∀ v : Fin 16,
      (upperDigit v.val).val = if v.val < 10 then 48 + v.val else 55 + v.val := by
    decide
  exact hall ⟨v, h⟩

theorem upperDigit_bounds {v : Nat} (h : v < 16) :
    48 ≤ (upperDigit v).val ∧ (upperDigit v).val ≤ 70 := by
  rw [val_upperDigit h]
  split_ifs <;> omega

theorem value?_digit {v : Nat} (h : v < 16) : value? (digit v) = some v := by
  have hall : ∀ v : Fin 16, value? (digit v.val) = some v.val := by decide
  exact hall ⟨v, h⟩

theorem plain_of_value? {c : CodePoint} {v : Nat} (h : value? c = some v) :
    c.val < 128 ∧ isGap c = false := by
  unfold value? at h
  simp only [isGap, Bool.or_eq_false_iff, Bool.and_eq_false_iff, beq_eq_false_iff_ne,
    decide_eq_false_iff_not]
  split_ifs at h
  · omega
  · omega
  · omega

theorem value?_lt {c : CodePoint} {v : Nat} (h : value? c = some v) : v < 16 := by
  unfold value? at h
  split_ifs at h
  · have := Option.some.inj h
    omega
  · have := Option.some.inj h
    omega
  · have := Option.some.inj h
    omega

/-! ## Written octets -/

theorem encodeUpper_cons (octet : UInt8) (rest : Octets) :
    encodeUpper (octet :: rest) =
      upperDigit (octet.toNat / 16) :: upperDigit (octet.toNat % 16) :: encodeUpper rest := rfl

theorem length_encodeUpper (octets : Octets) :
    (encodeUpper octets).length = 2 * octets.length := by
  induction octets with
  | nil => rfl
  | cons octet rest ih =>
    simp [encodeUpper_cons, ih]
    omega

theorem bounds_of_mem_encodeUpper {octets : Octets} {c : CodePoint}
    (h : c ∈ encodeUpper octets) : 48 ≤ c.val ∧ c.val ≤ 70 := by
  induction octets with
  | nil => simp [encodeUpper] at h
  | cons octet rest ih =>
    have hlt := octet.toNat_lt
    rw [encodeUpper_cons, List.mem_cons, List.mem_cons] at h
    rcases h with rfl | rfl | h
    · exact upperDigit_bounds (by omega)
    · exact upperDigit_bounds (by omega)
    · exact ih h

/-! ## Texts that spell octets -/

/-- A text has the two digits of each octet, each in either case. -/
inductive Spells : Text → Octets → Prop
  | nil : Spells [] []
  | cons {high low : CodePoint} {rest : Text} {octet : UInt8} {octets : Octets}
      (hhigh : value? high = some (octet.toNat / 16)) (hlow : value? low = some (octet.toNat % 16))
      (h : Spells rest octets) : Spells (high :: low :: rest) (octet :: octets)

theorem spells_flatMap {spell : Nat → CodePoint} (hspell : ∀ v < 16, value? (spell v) = some v)
    (octets : Octets) :
    Spells (octets.flatMap fun octet => [spell (octet.toNat / 16), spell (octet.toNat % 16)])
      octets := by
  induction octets with
  | nil => exact .nil
  | cons octet rest ih =>
    have hlt := octet.toNat_lt
    exact .cons (hspell _ (by omega)) (hspell _ (by omega)) ih

theorem spells_encodeUpper (octets : Octets) : Spells (encodeUpper octets) octets :=
  spells_flatMap (fun _ h => value?_upperDigit h) octets

theorem spells_encode (octets : Octets) : Spells (encode octets) octets :=
  spells_flatMap (fun _ h => value?_digit h) octets

theorem Spells.length_eq {t : Text} {o : Octets} (h : Spells t o) : t.length = 2 * o.length := by
  induction h with
  | nil => rfl
  | cons _ _ _ ih =>
    simp only [List.length_cons, ih]
    omega

theorem Spells.decodeFrom_eq {t : Text} {o : Octets} (h : Spells t o) (position : Nat) :
    decodeFrom position t = .ok o := by
  induction h generalizing position with
  | nil => rfl
  | @cons high low rest octet octets hhigh hlow _ ih =>
    have hgap := (plain_of_value? hhigh).2
    have hoctet : 16 * (octet.toNat / 16) + octet.toNat % 16 = octet.toNat := by omega
    simp only [decodeFrom, hgap, hhigh, hlow, ih, hoctet, UInt8.ofNat_toNat, Bool.false_eq_true,
      if_false]

theorem Spells.ascii {t : Text} {o : Octets} (h : Spells t o) : ∀ c ∈ t, c.val < 128 := by
  induction h with
  | nil => simp
  | cons hhigh hlow _ ih =>
    simpa using ⟨(plain_of_value? hhigh).1, (plain_of_value? hlow).1, ih⟩

theorem Spells.decode_eq {t : Text} {o : Octets} (h : Spells t o) : decode t = .ok o := by
  have hascii : t.findIdx? (fun c => 128 ≤ c.val) = none := by
    rw [List.findIdx?_eq_none_iff]
    simpa using h.ascii
  unfold decode
  rw [hascii]
  exact h.decodeFrom_eq 0

theorem decode_encodeUpper (octets : Octets) : decode (encodeUpper octets) = .ok octets :=
  (spells_encodeUpper octets).decode_eq

theorem decode_encode (octets : Octets) : decode (encode octets) = .ok octets :=
  (spells_encode octets).decode_eq

/-! ## Texts that are read -/

def IsDigit (c : CodePoint) : Prop :=
  48 ≤ c.val ∧ c.val ≤ 57 ∨ 65 ≤ c.val ∧ c.val ≤ 70 ∨ 97 ≤ c.val ∧ c.val ≤ 102

instance : DecidablePred IsDigit := fun _ => inferInstanceAs (Decidable (_ ∨ _))

theorem isDigit_iff {c : CodePoint} : IsDigit c ↔ ∃ v < 16, value? c = some v := by
  unfold IsDigit value?
  split_ifs with hfigure hcapital hsmall
  · exact iff_of_true (.inl hfigure) ⟨_, by omega, rfl⟩
  · exact iff_of_true (.inr (.inl hcapital)) ⟨_, by omega, rfl⟩
  · exact iff_of_true (.inr (.inr hsmall)) ⟨_, by omega, rfl⟩
  · simp
    omega

structure IsPaired (t : Text) : Prop where
  digits : ∀ c ∈ t, IsDigit c
  even : Even t.length

-- Code points are finitely many, and without this instance the search is through them all.
instance (t : Text) : Decidable (∀ c ∈ t, IsDigit c) := List.decidableBAll IsDigit t

instance : DecidablePred IsPaired := fun t =>
  decidable_of_iff ((∀ c ∈ t, IsDigit c) ∧ Even t.length)
    ⟨fun h => ⟨h.1, h.2⟩, fun h => ⟨h.digits, h.even⟩⟩

theorem isPaired_cons_cons {c d : CodePoint} {rest : Text} :
    IsPaired (c :: d :: rest) ↔ IsDigit c ∧ IsDigit d ∧ IsPaired rest := by
  have hlength : Even (c :: d :: rest).length ↔ Even rest.length := by
    simp [Nat.even_add_one]
  constructor
  · rintro ⟨hdigits, heven⟩
    simp only [List.forall_mem_cons] at hdigits
    exact ⟨hdigits.1, hdigits.2.1, hdigits.2.2, hlength.mp heven⟩
  · rintro ⟨hc, hd, hdigits, heven⟩
    exact ⟨by simpa using ⟨hc, hd, hdigits⟩, hlength.mpr heven⟩

theorem exists_spells_iff : {t : Text} → ((∃ o, Spells t o) ↔ IsPaired t)
  | [] => iff_of_true ⟨[], .nil⟩ ⟨by simp, by simp⟩
  | [c] => by
    constructor
    · rintro ⟨o, ⟨⟩⟩
    · rintro ⟨-, heven⟩
      simp at heven
  | c :: d :: rest => by
    rw [isPaired_cons_cons, ← exists_spells_iff, isDigit_iff, isDigit_iff]
    constructor
    · rintro ⟨_, h⟩
      cases h with
      | @cons _ _ _ octet octets hhigh hlow h =>
        have := octet.toNat_lt
        exact ⟨⟨_, by omega, hhigh⟩, ⟨_, by omega, hlow⟩, octets, h⟩
    · rintro ⟨⟨v, hv, hhigh⟩, ⟨w, hw, hlow⟩, octets, h⟩
      have hsmall : 16 * v + w < 256 := by omega
      have hoctet : (UInt8.ofNat (16 * v + w)).toNat = 16 * v + w :=
        UInt8.toNat_ofNat_of_lt' hsmall
      refine ⟨UInt8.ofNat (16 * v + w) :: octets, .cons ?_ ?_ h⟩
      · rw [hoctet, hhigh]
        congr 1
        omega
      · rw [hoctet, hlow]
        congr 1
        omega

/-! ## Texts that are not -/

/-- Where a text without gaps is not read any further: at the first character outside ASCII, else at
the first that is no digit, or past the end. -/
def faultPlace (t : Text) : Nat :=
  (t.findIdx? fun c => 128 ≤ c.val).getD (t.findIdx fun c => (value? c).isNone)

theorem decodeFrom_of_not_paired : {t : Text} → (∀ c ∈ t, isGap c = false) → ¬ IsPaired t →
    (position : Nat) →
      decodeFrom position t = .error (position + t.findIdx fun c => (value? c).isNone)
  | [], _, h, _ => absurd ⟨by simp, by simp⟩ h
  | [c], hgap, _, position => by
    have hc : isGap c = false := hgap c List.mem_cons_self
    cases hvalue : value? c with
    | none => simp [decodeFrom, hc, hvalue, List.findIdx_cons]
    | some v => simp [decodeFrom, hc, hvalue, List.findIdx_cons]
  | c :: d :: rest, hgap, h, position => by
    have hc : isGap c = false := hgap c List.mem_cons_self
    have hrest : ∀ e ∈ rest, isGap e = false := by
      intro e he
      exact hgap e (by simp [he])
    cases hhigh : value? c with
    | none => simp [decodeFrom, hc, hhigh, List.findIdx_cons]
    | some v =>
      cases hlow : value? d with
      | none => simp [decodeFrom, hc, hhigh, hlow, List.findIdx_cons]
      | some w =>
        have hnot : ¬ IsPaired rest := by
          have hdigit {e : CodePoint} {u : Nat} (he : value? e = some u) : IsDigit e :=
            isDigit_iff.mpr ⟨u, value?_lt he, he⟩
          intro hpaired
          exact h (isPaired_cons_cons.mpr ⟨hdigit hhigh, hdigit hlow, hpaired⟩)
        have hlater := decodeFrom_of_not_paired hrest hnot (position + 2)
        simp [decodeFrom, hc, hhigh, hlow, hlater, List.findIdx_cons]
        omega

theorem decode_of_not_paired {t : Text} (hgap : ∀ c ∈ t, isGap c = false) (h : ¬ IsPaired t) :
    decode t = .error (faultPlace t) := by
  unfold decode faultPlace
  cases t.findIdx? fun c => 128 ≤ c.val with
  | some position => rfl
  | none =>
    rw [decodeFrom_of_not_paired hgap h, Nat.zero_add]
    rfl

theorem decode_eq_ok_iff {t : Text} (hgap : ∀ c ∈ t, isGap c = false) {o : Octets} :
    decode t = .ok o ↔ Spells t o := by
  constructor
  · intro h
    by_cases hpaired : IsPaired t
    · obtain ⟨found, hfound⟩ := exists_spells_iff.mpr hpaired
      rw [hfound.decode_eq] at h
      cases h
      exact hfound
    · rw [decode_of_not_paired hgap hpaired] at h
      cases h
  · exact Spells.decode_eq

/-! ## Capitals -/

def capital (c : CodePoint) : CodePoint :=
  if 97 ≤ c.val ∧ c.val ≤ 122 then ⟨c.val - 32, by omega⟩ else c

theorem capital_of_value? {c : CodePoint} {v : Nat} (h : value? c = some v) :
    capital c = upperDigit v := by
  apply Fin.ext
  rw [val_upperDigit (value?_lt h)]
  unfold value? at h
  unfold capital
  split_ifs at h with hfigure hcapital hsmall
  · obtain rfl := Option.some.inj h
    rw [if_neg (by omega), if_pos (by omega)]
    omega
  · -- A capital stays as it is.
    obtain rfl := Option.some.inj h
    rw [if_neg (by omega), if_neg (by omega)]
    omega
  · obtain rfl := Option.some.inj h
    rw [if_pos (by omega), if_neg (by omega)]
    show c.val - 32 = 55 + (c.val - 87)
    omega

theorem Spells.map_capital {t : Text} {o : Octets} (h : Spells t o) :
    t.map capital = encodeUpper o := by
  induction h with
  | nil => rfl
  | cons hhigh hlow _ ih =>
    rw [List.map_cons, List.map_cons, capital_of_value? hhigh, capital_of_value? hlow, ih,
      encodeUpper_cons]

end SaltedHash.Hex
