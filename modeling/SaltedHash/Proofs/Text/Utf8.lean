import Mathlib
import SaltedHash.Text.Utf8

/-!
# Reading UTF-8

The first octet of a code point says how many follow, so octets are read back in one way only. The octets
of a character, and those of a string, are the ones that the standard library gives them; the texts without
surrogates are the strings.
-/

namespace SaltedHash

namespace CodePoint

def readTail (n : Nat) : Nat → Octets → Nat × Octets
  | k + 1, octet :: rest => readTail (n * 0x40 + octet.toNat % 0x40) k rest
  | _, rest => (n, rest)

def read : Octets → Nat × Octets
  | [] => (0, [])
  | octet :: rest =>
    let n := octet.toNat
    if n < 0x80 then (n, rest)
    else if n < 0xE0 then readTail (n % 0x20) 1 rest
    else if n < 0xF0 then readTail (n % 0x10) 2 rest
    else readTail (n % 0x08) 3 rest

theorem toNat_octet {n : Nat} (h : n < 0x100) : (UInt8.ofNat n).toNat = n :=
  UInt8.toNat_ofNat_of_lt' h

theorem toNat_tail (n : Nat) : (UInt8.ofNat (0x80 + n % 0x40)).toNat % 0x40 = n % 0x40 := by
  rw [toNat_octet (by omega)]
  omega

theorem read_utf8 (c : CodePoint) (rest : Octets) : read (c.utf8 ++ rest) = (c.val, rest) := by
  have hmost := c.isLt
  simp only [utf8]
  split_ifs with hone htwo hthree
  · have hlead : (UInt8.ofNat c.val).toNat = c.val := toNat_octet (by omega)
    simp only [List.cons_append, List.nil_append, read, hlead, if_pos hone]
  · have hlead : (UInt8.ofNat (0xC0 + c.val / 0x40)).toNat = 0xC0 + c.val / 0x40 :=
      toNat_octet (by omega)
    simp only [List.cons_append, List.nil_append, read, hlead, readTail, toNat_tail]
    rw [if_neg (by omega), if_pos (by omega)]
    congr 1
    omega
  · have hlead : (UInt8.ofNat (0xE0 + c.val / 0x1000)).toNat = 0xE0 + c.val / 0x1000 :=
      toNat_octet (by omega)
    simp only [List.cons_append, List.nil_append, read, hlead, readTail, toNat_tail]
    rw [if_neg (by omega), if_neg (by omega), if_pos (by omega)]
    congr 1
    omega
  · have hlead : (UInt8.ofNat (0xF0 + c.val / 0x40000)).toNat = 0xF0 + c.val / 0x40000 :=
      toNat_octet (by omega)
    simp only [List.cons_append, List.nil_append, read, hlead, readTail, toNat_tail]
    rw [if_neg (by omega), if_neg (by omega), if_neg (by omega)]
    congr 1
    omega

/-- No code point's octets begin those of another. -/
theorem utf8_append_inj {c d : CodePoint} {x y : Octets} (h : c.utf8 ++ x = d.utf8 ++ y) :
    c = d ∧ x = y := by
  have hread := congrArg read h
  rw [read_utf8, read_utf8, Prod.mk.injEq, Fin.val_inj] at hread
  exact hread

theorem utf8_ne_nil (c : CodePoint) : c.utf8 ≠ [] := by
  simp only [utf8]
  split_ifs <;> simp

/-! ## Characters and strings -/

theorem utf8_ofChar (c : Char) : (ofChar c).utf8 = String.utf8EncodeChar c := by
  have hmost : c.val.toNat < 0x110000 := (ofChar c).isLt
  have hvalue : (ofChar c).val = c.val.toNat := rfl
  simp only [utf8, String.utf8EncodeChar, hvalue]
  generalize c.val.toNat = n at hmost
  simp only [show n ≤ 127 ↔ n < 0x80 from Nat.lt_succ_iff.symm,
    show n ≤ 2047 ↔ n < 0x800 from Nat.lt_succ_iff.symm,
    show n ≤ 65535 ↔ n < 0x10000 from Nat.lt_succ_iff.symm, Nat.add_comm 0x80]
  split_ifs with hone htwo hthree
  · rfl
  · rw [show 0xC0 + n / 0x40 = n / 64 % 32 + 192 by omega]
  · rw [show 0xE0 + n / 0x1000 = n / 4096 % 16 + 224 by omega]
  · rw [show 0xF0 + n / 0x40000 = n / 262144 % 8 + 240 by omega]

theorem exists_ofChar {c : CodePoint} (h : isSurrogate c = false) : ∃ character, c = ofChar character := by
  have hvalid : c.val.isValidChar := by
    have hmost := c.isLt
    simp only [isSurrogate, Bool.and_eq_false_iff, decide_eq_false_iff_not] at h
    simp only [Nat.isValidChar]
    omega
  refine ⟨Char.ofNatAux c.val hvalid, Fin.ext ?_⟩
  rw [val_ofChar, Char.toNat_ofNatAux]

end CodePoint

namespace Text

theorem flatMap_utf8_injective : Function.Injective fun t : Text => t.flatMap CodePoint.utf8 := by
  intro s t h
  dsimp only at h
  induction s generalizing t with
  | nil =>
    cases t with
    | nil => rfl
    | cons d t => simp [CodePoint.utf8_ne_nil] at h
  | cons c s ih =>
    cases t with
    | nil => simp [CodePoint.utf8_ne_nil] at h
    | cons d t =>
      rw [List.flatMap_cons, List.flatMap_cons] at h
      obtain ⟨rfl, hrest⟩ := CodePoint.utf8_append_inj h
      rw [ih hrest]

theorem utf8?_inj {s t : Text} {o : Octets} (hs : utf8? s = some o) (ht : utf8? t = some o) :
    s = t := by
  have hflat {t : Text} (ht : utf8? t = some o) : t.flatMap CodePoint.utf8 = o := by
    unfold utf8? at ht
    split_ifs at ht
    exact Option.some.inj ht
  exact flatMap_utf8_injective ((hflat hs).trans (hflat ht).symm)

theorem flatMap_utf8_ofString (s : String) :
    (ofString s).flatMap CodePoint.utf8 = s.toUTF8.data.toList := by
  obtain ⟨characters, rfl⟩ := s.exists_eq_ofList
  simp [String.toUTF8, String.toByteArray_ofList, List.utf8Encode, ofString, List.flatMap_map,
    CodePoint.utf8_ofChar]

theorem exists_ofString_iff {t : Text} :
    (∃ s, t = ofString s) ↔ ∀ c ∈ t, CodePoint.isSurrogate c = false := by
  constructor
  · rintro ⟨s, rfl⟩ c hc
    obtain ⟨character, -, rfl⟩ := List.mem_map.mp hc
    exact CodePoint.isSurrogate_ofChar character
  · intro h
    induction t with
    | nil => exact ⟨"", rfl⟩
    | cons c rest ih =>
      obtain ⟨character, rfl⟩ := CodePoint.exists_ofChar (h c List.mem_cons_self)
      obtain ⟨s, rfl⟩ := ih fun d hd => h d (List.mem_cons_of_mem _ hd)
      exact ⟨String.ofList (character :: s.toList), by simp [ofString]⟩

end Text

end SaltedHash
