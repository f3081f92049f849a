import Mathlib
import SaltedHash.Text.Integer

/-!
# Decimal numerals are read back

A numeral that is written for an integer is read back as that integer, as long as it has no more
digits than a text may spell.
-/

namespace SaltedHash

/-! ## Digits -/

namespace CodePoint

def IsFigure (c : CodePoint) : Prop := 48 ≤ c.val ∧ c.val ≤ 57

theorem IsFigure.digit? {c : CodePoint} (h : IsFigure c) :
    CodePoint.digit? c = some (c.val - 48) := by
  have hfirst : (decide (48 ≤ c.val) && decide (c.val < 48 + 10)) = true := by
    simp only [Bool.and_eq_true, decide_eq_true_eq]
    exact ⟨h.1, Nat.lt_succ_of_le h.2⟩
  obtain ⟨rest, hzeros⟩ : ∃ rest, zeros = 48 :: rest := ⟨_, rfl⟩
  simp only [CodePoint.digit?, hzeros, List.find?_cons, hfirst, Option.map_some]

theorem IsFigure.isWhite {c : CodePoint} (h : IsFigure c) : CodePoint.isWhite c = false := by
  obtain ⟨hlow, hhigh⟩ := h
  simp only [CodePoint.isWhite, Bool.or_eq_false_iff, Bool.and_eq_false_iff,
    decide_eq_false_iff_not, beq_eq_false_iff_ne]
  omega

theorem IsFigure.ne {c d : CodePoint} (h : IsFigure c) (hd : ¬ IsFigure d) : c ≠ d := by
  rintro rfl
  exact hd h

instance (c : CodePoint) : Decidable (IsFigure c) := inferInstanceAs (Decidable (_ ∧ _))

theorem lt_ten_of_digit? {c : CodePoint} {d : Nat} (h : CodePoint.digit? c = some d) : d < 10 := by
  obtain ⟨first, hfirst, rfl⟩ := Option.map_eq_some_iff.mp h
  have hrun := List.find?_some hfirst
  simp only [Bool.and_eq_true, decide_eq_true_eq] at hrun
  omega

theorem isFigure_ofChar {c : Char} (h : c.isDigit = true) : IsFigure (ofChar c) := by
  simp only [Char.isDigit, Bool.and_eq_true, decide_eq_true_eq, UInt32.le_iff_toNat_le] at h
  exact h

end CodePoint

namespace Text

open CodePoint (IsFigure)

theorem ofNat_eq (n : Nat) : ofNat n = (Nat.toDigits 10 n).map CodePoint.ofChar := by
  rw [ofNat, ofString, Nat.toString_eq_repr, Nat.toList_repr]

theorem isFigure_of_mem_ofNat {n : Nat} {c : CodePoint} (h : c ∈ ofNat n) : IsFigure c := by
  rw [ofNat_eq] at h
  obtain ⟨d, hd, rfl⟩ := List.mem_map.mp h
  exact CodePoint.isFigure_ofChar (Nat.isDigit_of_mem_toDigits (by decide) (by decide) hd)

theorem exists_ofNat (n : Nat) : ∃ c rest, ofNat n = c :: rest ∧ IsFigure c := by
  cases h : ofNat n with
  | nil =>
    rw [ofNat_eq, List.map_eq_nil_iff] at h
    exact absurd h Nat.toDigits_ne_nil
  | cons c rest => exact ⟨c, rest, rfl, isFigure_of_mem_ofNat (h ▸ List.mem_cons_self)⟩

theorem length_ofNat_le_iff {n k : Nat} (hk : 0 < k) : (ofNat n).length ≤ k ↔ n < 10 ^ k := by
  rw [ofNat_eq, List.length_map, Nat.length_toDigits_le_iff (by decide) hk]

/-! ## Reading digits -/

theorem digitsFrom_ofChar {l : List Char} (h : ∀ c ∈ l, c.isDigit = true) (value : Nat) :
    digitsFrom value (l.map CodePoint.ofChar) = some (Nat.ofDigitChars 10 l value) := by
  induction l generalizing value with
  | nil => rfl
  | cons c rest ih =>
    rw [List.forall_mem_cons] at h
    rw [List.map_cons, digitsFrom.eq_def, Nat.ofDigitChars_cons]
    simp only [(CodePoint.isFigure_ofChar h.1).digit?]
    exact ih h.2 _

theorem digitsFrom_ofNat (n : Nat) : digitsFrom 0 (ofNat n) = some n := by
  have hdigits : ∀ c ∈ Nat.toDigits 10 n, c.isDigit = true :=
    fun c hc => Nat.isDigit_of_mem_toDigits (by decide) (by decide) hc
  rw [ofNat_eq, digitsFrom_ofChar hdigits, Nat.ofDigitChars_ten_toDigits]

theorem digits?_ofNat (n : Nat) : digits? (ofNat n) = some n := by
  obtain ⟨c, rest, hn, hc⟩ := exists_ofNat n
  have hfirst : (CodePoint.digit? c).isSome = true := by
    rw [hc.digit?]
    rfl
  rw [hn, digits?, if_pos hfirst, ← hn, digitsFrom_ofNat]

/-! ## Reading a numeral -/

theorem trim_eq_self {t : Text} (h : ∀ c ∈ t, CodePoint.isWhite c = false) : trim t = t := by
  have hdrop : ∀ l : Text, (∀ c ∈ l, CodePoint.isWhite c = false) →
      l.dropWhile CodePoint.isWhite = l := by
    intro l hl
    rw [List.dropWhile_eq_self_iff]
    intro hne
    rw [hl _ (List.getElem_mem hne)]
    decide
  rw [trim, trimBy, dropEnd, hdrop t h, hdrop t.reverse (by simpa using h), List.reverse_reverse]

theorem trim_ofInt (n : Int) : trim (ofInt n) = ofInt n := by
  apply trim_eq_self
  cases n with
  | ofNat n => exact fun c hc => (isFigure_of_mem_ofNat hc).isWhite
  | negSucc n =>
    rw [ofInt, List.forall_mem_cons]
    exact ⟨by decide, fun c hc => (isFigure_of_mem_ofNat hc).isWhite⟩

theorem sign_ofInt (n : Int) :
    sign (ofInt n) = (if n < 0 then -1 else 1, ofNat n.natAbs) := by
  cases n with
  | ofNat n =>
    have hpos : ¬ Int.ofNat n < 0 := by simp
    obtain ⟨c, rest, hn, hc⟩ := exists_ofNat n
    have hminus : c ≠ CodePoint.ofChar '-' := hc.ne (by decide)
    have hplus : c ≠ CodePoint.ofChar '+' := hc.ne (by decide)
    rw [if_neg hpos]
    change sign (ofNat n) = (1, ofNat n)
    rw [hn, sign, if_neg hminus, if_neg hplus]
  | negSucc n =>
    rw [if_pos (Int.negSucc_lt_zero n)]
    rfl

theorem integer?_ofInt (n : Int) :
    integer? (ofInt n) = if n.natAbs < 10 ^ maxDigits then some n else none := by
  have hcount : ((ofNat n.natAbs).filter fun c => (CodePoint.digit? c).isSome) =
      ofNat n.natAbs := by
    rw [List.filter_eq_self]
    intro c hc
    rw [(isFigure_of_mem_ofNat hc).digit?]
    rfl
  have hlong : maxDigits < (ofNat n.natAbs).length ↔ ¬ n.natAbs < 10 ^ maxDigits := by
    rw [← length_ofNat_le_iff (by decide), not_le]
  have hfactor : (if n < 0 then -1 else 1 : Int) * n.natAbs = n := by
    split_ifs with hneg
    · omega
    · omega
  unfold integer?
  rw [trim_ofInt, sign_ofInt]
  simp only [hcount, hlong, ite_not, digits?_ofNat, Option.bind_eq_bind, Option.bind_some,
    Option.pure_def, Option.map_some, hfactor]

/-! ## The size of what is read -/

theorem digitsFrom_lt {value n : Nat} {t : Text} (h : digitsFrom value t = some n) :
    n < (value + 1) * 10 ^ (t.filter fun c => (CodePoint.digit? c).isSome).length := by
  have hstep {value d k : Nat} (hd : d < 10) :
      (10 * value + d + 1) * 10 ^ k ≤ (value + 1) * 10 ^ (k + 1) := by
    rw [Nat.pow_succ', ← Nat.mul_assoc]
    exact Nat.mul_le_mul_right _ (by omega)
  fun_induction digitsFrom value t with
  | case1 value =>
    obtain rfl := Option.some.inj h
    simp
  | case2 value c rest d hd ih =>
    simp only [List.filter_cons, hd, Option.isSome_some, if_true, List.length_cons]
    exact (ih h).trans_le (hstep (CodePoint.lt_ten_of_digit? hd))
  | case3 => cases h
  | case4 value c rest d hd hnone ih =>
    -- The underscore counts for nothing.
    simp only [List.filter_cons, hnone, hd, Option.isSome_none, Option.isSome_some,
      Bool.false_eq_true, if_false, if_true, List.length_cons]
    exact (ih h).trans_le (hstep (CodePoint.lt_ten_of_digit? hd))
  | case5 => cases h
  | case6 => cases h

theorem digits?_lt {t : Text} {n : Nat} (h : digits? t = some n) :
    n < 10 ^ (t.filter fun c => (CodePoint.digit? c).isSome).length := by
  cases t with
  | nil => cases h
  | cons c rest =>
    simp only [digits?] at h
    split_ifs at h
    simpa using digitsFrom_lt h

theorem natAbs_sign (t : Text) : (sign t).1.natAbs = 1 := by
  unfold sign
  split
  · split_ifs <;> rfl
  · rfl

theorem natAbs_lt_of_integer? {t : Text} {n : Int} (h : integer? t = some n) :
    n.natAbs < 10 ^ maxDigits := by
  have hunit := natAbs_sign (trim t)
  simp only [integer?] at h
  split_ifs at h with hlong
  obtain ⟨m, hm, rfl⟩ := Option.map_eq_some_iff.mp h
  obtain ⟨k, hk, hkm⟩ := Option.bind_eq_some_iff.mp hm
  obtain rfl := Option.some.inj hkm
  rw [Int.natAbs_mul, hunit, Nat.one_mul, Int.natAbs_natCast]
  exact (digits?_lt hk).trans_le (Nat.pow_le_pow_right (by decide) (not_lt.mp hlong))

end Text

end SaltedHash
