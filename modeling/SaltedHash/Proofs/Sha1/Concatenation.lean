import Mathlib
import SaltedHash.Proofs.Sha1.Salted
import SaltedHash.Proofs.Text.Utf8

/-!
# Salt and plaintext as one message

Of a salt and a plaintext only the octets count, one after the other. What cannot be hashed is refused, the
plaintext before the salt, and each for a cause of its own.
-/

namespace SaltedHash.Sha1

/-! ## What is refused -/

/-- The octets of a salt: those that stand one after another in memory, or none without a salt. -/
def IsSalt (salt : Datum) (s : Octets) : Prop :=
  salt = .nothing ∧ s = [] ∨ salt.memory? = some s

def AbsorbedAs (salt : Datum) (s : Octets) : Prop :=
  salt = .nothing ∧ s = [] ∨ salt.octets? = some s

theorem absorbedAs_iff {salt : Datum} {s : Octets} :
    AbsorbedAs salt s ↔ IsSalt salt s ∧ ¬ salt.IsVoid := by
  unfold AbsorbedAs IsSalt
  rw [Datum.octets?_eq_some_iff]
  constructor
  · rintro (⟨rfl, h⟩ | ⟨hmemory, hvoid⟩)
    · exact ⟨.inl ⟨rfl, h⟩, id⟩
    · exact ⟨.inr hmemory, hvoid⟩
  · rintro ⟨h | hmemory, hvoid⟩
    · exact .inl h
    · exact .inr ⟨hmemory, hvoid⟩

def plaintextFault : Datum → Fault
  | .text _ => .input .plaintextSurrogate
  | .released => .released
  | plaintext => .input (.plaintextKind plaintext.kind)

def saltFault : Datum → Fault
  | .text _ => .input .unencoded
  | .view _ _ => .input .gapped
  | .grid g => .input (if g.seen.isEmpty then .emptyGrid else .gapped)
  | .released => .released
  | salt => .input (.notOctets salt.kind)

theorem family_plaintextFault_iff (d : Datum) :
    (plaintextFault d).family = .input ↔ d ≠ .released := by
  cases d <;> simp [plaintextFault, Fault.family]

theorem family_saltFault_iff (d : Datum) : (saltFault d).family = .input ↔ d ≠ .released := by
  cases d <;> simp [saltFault, Fault.family]

theorem plaintextOctets_of_not_hashable {plaintext : Datum} (h : ∀ p, ¬ HashableAs plaintext p) :
    plaintextOctets plaintext = .error (plaintextFault plaintext) := by
  have hnot (p : Octets) : plaintextOctets plaintext ≠ .ok p :=
    fun hp => h p (plaintextOctets_eq_ok_iff.mp hp)
  unfold plaintextOctets at hnot ⊢
  split at hnot
  · rename_i t
    cases hutf8 : Text.utf8? t with
    | some octets => exact absurd (by rw [hutf8]) (hnot octets)
    | none => rfl
  · rfl
  · rename_i hnotext hnotgone
    cases hoctets : plaintext.octets? with
    | some octets => exact absurd (by rw [hoctets]) (hnot octets)
    | none =>
      cases plaintext with
      | text t => exact absurd rfl (hnotext t)
      | released => exact absurd rfl hnotgone
      | _ => rfl

theorem saltOctets_of_not_absorbed {salt : Datum} (h : ∀ s, ¬ AbsorbedAs salt s) :
    saltOctets salt = .error (saltFault salt) := by
  have hoctets : salt.octets? = none := by
    cases hsome : salt.octets? with
    | none => rfl
    | some s => exact absurd (.inr hsome) (h s)
  cases salt with
  | nothing => exact absurd (.inl ⟨rfl, rfl⟩) (h [])
  | _ => simp only [saltOctets, dataOctets, hoctets, saltFault]

/-! ## What is hashed -/

section

variable {salt plaintext : Datum} {s p : Octets} (hs : AbsorbedAs salt s)
  (hp : HashableAs plaintext p)
include hs hp

theorem saltedDigest_eq :
    saltedDigest salt plaintext =
      if s.length + p.length ≤ maxMessageOctets then .ok (Standard.digest (s ++ p))
      else .error (.input .overCeiling) :=
  saltedDigest_of_octets (saltOctets_eq_ok_iff.mpr hs) (plaintextOctets_eq_ok_iff.mpr hp)

theorem saltedDigest_eq_of_append_eq {salt' plaintext' : Datum} {s' p' : Octets}
    (hs' : AbsorbedAs salt' s') (hp' : HashableAs plaintext' p') (h : s ++ p = s' ++ p') :
    saltedDigest salt plaintext = saltedDigest salt' plaintext' := by
  have hsize : s.length + p.length = s'.length + p'.length := by
    rw [← List.length_append, h, List.length_append]
  rw [saltedDigest_eq hs hp, saltedDigest_eq hs' hp', hsize, h]

end

theorem hashableAs_text_iff_string {t : Text} {p : Octets} :
    HashableAs (.text t) p ↔ ∃ string : String, t = Text.ofString string ∧ p = string.toUTF8.data.toList := by
  constructor
  · rintro (⟨_, ⟨⟩, hclear, rfl⟩ | h)
    · obtain ⟨string, rfl⟩ := Text.exists_ofString_iff.mpr hclear
      exact ⟨string, rfl, Text.flatMap_utf8_ofString string⟩
    · cases h
  · rintro ⟨string, rfl, rfl⟩
    exact .inl ⟨_, rfl, Text.exists_ofString_iff.mp ⟨string, rfl⟩,
      (Text.flatMap_utf8_ofString string).symm⟩

/-- A salt and a plaintext have the digest of their octets one after the other, up to the ceiling.
All else is refused, the plaintext first, and is an input fault but for a window that is given back.
-/
theorem salted_digest_judged (salt plaintext : Datum) :
    (∀ d, saltedDigest salt plaintext = .ok d ↔
        ∃ s p, IsSalt salt s ∧ IsPlaintext plaintext p ∧ ¬ salt.IsVoid ∧ ¬ plaintext.IsVoid ∧
          s.length + p.length ≤ maxMessageOctets ∧ d = Standard.digest (s ++ p)) ∧
      ((∀ p, ¬ HashableAs plaintext p) →
        saltedDigest salt plaintext = .error (plaintextFault plaintext)) ∧
      (∀ p, HashableAs plaintext p → (∀ s, ¬ AbsorbedAs salt s) →
        saltedDigest salt plaintext = .error (saltFault salt)) ∧
      (∀ s p, AbsorbedAs salt s → HashableAs plaintext p → maxMessageOctets < s.length + p.length →
        saltedDigest salt plaintext = .error (.input .overCeiling)) ∧
      (∀ d, ((plaintextFault d).family = .input ↔ d ≠ .released) ∧
        ((saltFault d).family = .input ↔ d ≠ .released)) ∧
      (∀ salt' plaintext' s p s' p', AbsorbedAs salt s → HashableAs plaintext p →
        AbsorbedAs salt' s' → HashableAs plaintext' p' → s ++ p = s' ++ p' →
          saltedDigest salt plaintext = saltedDigest salt' plaintext') ∧
      (∀ t p, HashableAs (.text t) p ↔
        ∃ string : String, t = Text.ofString string ∧ p = string.toUTF8.data.toList) ∧
      ∀ t p, HashableAs (.text t) p →
        saltedDigest salt (.text t) = saltedDigest salt (.octets p) := by
  refine ⟨?_, ?_, ?_, ?_, fun d => ⟨family_plaintextFault_iff d, family_saltFault_iff d⟩, ?_,
    fun _ _ => hashableAs_text_iff_string, ?_⟩
  · intro d
    rw [exists_saltedDigest_iff]
    constructor
    · rintro ⟨s, p, hs, hp, hfits, hd⟩
      obtain ⟨hsalt, hsound⟩ := absorbedAs_iff.mp (saltOctets_eq_ok_iff.mp hs)
      obtain ⟨hplain, hwhole⟩ := hashableAs_iff.mp hp
      exact ⟨s, p, hsalt, hplain, hsound, hwhole, hfits, hd⟩
    · rintro ⟨s, p, hsalt, hplain, hsound, hwhole, hfits, hd⟩
      have hs := saltOctets_eq_ok_iff.mpr (absorbedAs_iff.mpr ⟨hsalt, hsound⟩)
      exact ⟨s, p, hs, hashableAs_iff.mpr ⟨hplain, hwhole⟩, hfits, hd⟩
  · intro h
    exact saltedDigest_of_no_plaintext (plaintextOctets_of_not_hashable h) salt
  · intro p hp h
    exact saltedDigest_of_no_salt (plaintextOctets_eq_ok_iff.mpr hp) (saltOctets_of_not_absorbed h)
  · intro s p hs hp hover
    rw [saltedDigest_eq hs hp, if_neg (by omega)]
  · intro salt' plaintext' s p s' p' hs hp hs' hp' h
    exact saltedDigest_eq_of_append_eq hs hp hs' hp' h
  · intro t p ht
    apply saltedDigest_congr
    rw [plaintextOctets_eq_ok_iff.mpr ht, plaintextOctets_eq_ok_iff.mpr (.inr rfl)]

theorem salted_digest_judged_divided :
    saltedDigest (.words [0x9FF0]) (.buffer [0x98, 0x80]) = saltedDigest .nothing (.text "😀") ∧
      saltedDigest (.text "salt") (.text [0xD800]) = .error (.input .plaintextSurrogate) ∧
      saltedDigest (.text "salt") (.text "😀") = .error (.input .unencoded) ∧
      saltedDigest (.octets [1]) (.octets (List.replicate 4294967295 0)) =
        .error (.input .overCeiling) := by
  have hface : HashableAs (.text "😀") [0xF0, 0x9F, 0x98, 0x80] := hashableAs_text_iff.mpr (by decide)
  obtain ⟨-, -, -, -, -, hsame, -, -⟩ :=
    salted_digest_judged (.words [0x9FF0]) (.buffer [0x98, 0x80])
  obtain ⟨-, hplaintext, -, -, -, -, -, -⟩ := salted_digest_judged (.text "salt") (.text [0xD800])
  obtain ⟨-, -, hsalt, -, -, -, -, -⟩ := salted_digest_judged (.text "salt") (.text "😀")
  obtain ⟨-, -, -, hover, -, -, -, -⟩ :=
    salted_digest_judged (.octets [1]) (.octets (List.replicate 4294967295 0))
  refine ⟨?_, ?_, ?_, ?_⟩
  · exact hsame _ _ _ _ _ _ (.inr rfl) (.inr rfl) (.inl ⟨rfl, rfl⟩) hface rfl
  · apply hplaintext
    intro p hp
    have hnone : Text.utf8? [0xD800] = none := by decide
    rw [hashableAs_text_iff, hnone] at hp
    cases hp
  · apply hsalt _ hface
    rintro s (⟨⟨⟩, -⟩ | ⟨⟨⟩⟩)
  · apply hover _ _ (.inr rfl) (.inr rfl)
    rw [List.length_replicate]
    decide

/-- A window that is given back is no input fault. Two windows without octets are refused. -/
theorem salted_digest_misjudged :
    (saltedDigest (.octets [1]) .released = .error .released ∧
        saltedDigest .released (.octets [1]) = .error .released ∧
        Fault.released.family = .value) ∧
      (IsPlaintext (.view [] true) [] ∧
        saltedDigest (.octets [1]) (.view [] true) = .error (.input (.plaintextKind .window))) ∧
      IsPlaintext .noRows [] ∧
        saltedDigest (.octets [1]) .noRows = .error (.input (.plaintextKind .window)) ∧
        saltedDigest .noRows (.octets [1]) = .error (.input .emptyGrid) :=
  ⟨⟨rfl, rfl, rfl⟩, ⟨.inr rfl, rfl⟩, .inr rfl, rfl, rfl⟩

end SaltedHash.Sha1
