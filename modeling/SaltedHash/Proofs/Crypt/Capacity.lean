import Mathlib
import SaltedHash.Proofs.Crypt.Creation

/-!
# The room that strings take

How long a string is depends on the length of the salt alone. With octets for a salt, a string is
written if the length of the salt is allowed, the plaintext can be hashed, and there is more room than
that. The usual room is enough for every salt.
-/

namespace SaltedHash.Crypt

theorem length_written_ceilDiv (s p : Octets) :
    (written s p).length = 6 + 4 * ((20 + s.length) ⌈/⌉ 3) := by
  rw [length_written, Nat.ceilDiv_eq_add_pred_div]
  rfl

theorem payload?_written_parts (s p : Octets) :
    ∃ payload, payload? (written s p) = some payload ∧
      payload.take 20 = Sha1.Standard.digest (s ++ p) ∧ payload.drop 20 = s := by
  have hdigest := Sha1.length_digest (s ++ p)
  exact ⟨_, payload?_written s p, List.take_left' hdigest, List.drop_left' hdigest⟩

/-! ## The usual room -/

theorem create_maxLength {salt plaintext : Datum} {s p : Octets} (hsalt : SaltAs salt s)
    (hp : Encodable s.length plaintext p) :
    (create plaintext salt (.integer maxLength)).value = .ok (some (written s p)) := by
  have hmost : s.length ≤ maxSalt := by exact_mod_cast hp.2.1
  have hroom : ((written s p).length : Int) < maxLength := by
    exact_mod_cast length_written_lt_maxLength hmost
  exact (create_octets_eq_some_iff hsalt).mpr ⟨p, hp, hroom, rfl⟩

def usualLengths : Set Nat :=
  {n | ∃ salt s plaintext t, SaltAs salt s ∧
    (create plaintext salt (.integer maxLength)).value = .ok (some t) ∧ t.length = n}

theorem isGreatest_usualLengths : IsGreatest usualLengths 54 := by
  constructor
  · have hlong : Encodable (List.replicate 16 (0 : UInt8)).length (.text []) [] :=
      ⟨by decide, by decide, Sha1.hashableAs_text_iff.mpr rfl, by decide⟩
    refine ⟨_, _, _, _, .inl rfl, create_maxLength (.inl rfl) hlong, ?_⟩
    rw [length_written]
    rfl
  · rintro n ⟨salt, s, plaintext, t, hsalt, hvalue, rfl⟩
    obtain ⟨p, ⟨-, hmost, -⟩, -, rfl⟩ := (create_octets_eq_some_iff hsalt).mp hvalue
    rw [length_written]
    omega

/-! ## Any room -/

/-- A salt of an allowed length, and a plaintext that is hashed after it as certain octets. -/
structure Admits (s : Octets) (plaintext : Datum) (p : Octets) : Prop where
  pos : 1 ≤ s.length
  most : s.length ≤ 16
  isPlaintext : Sha1.IsPlaintext plaintext p
  whole : ¬ plaintext.IsVoid
  fits : s.length + p.length ≤ maxMessageOctets

theorem admits_iff {s p : Octets} {plaintext : Datum} :
    Admits s plaintext p ↔ Encodable s.length plaintext p := by
  rw [Encodable, Sha1.hashableAs_iff]
  constructor
  · rintro ⟨hpos, hmost, hplain, hwhole, hfits⟩
    exact ⟨by omega, by omega, ⟨hplain, hwhole⟩, by omega⟩
  · rintro ⟨hpos, hmost, ⟨hplain, hwhole⟩, hfits⟩
    exact ⟨by omega, by omega, hplain, hwhole, by omega⟩

/-- With octets for a salt there is a string exactly if salt and plaintext are admitted and the
string fits the room. Only a plaintext that is given back and a room of too many digits make writing
fail. -/
theorem create_isSome_iff {salt : Datum} {s : Octets} (hsalt : SaltAs salt s) (plaintext : Datum)
    (room : Int) :
    (let made := (create plaintext salt (.integer room)).value;
      ((∃ t, made = .ok (some t)) ↔ (∃ p, Admits s plaintext p) ∧
        ((6 + 4 * ((20 + s.length) ⌈/⌉ 3) : Nat) : Int) < room) ∧
      (∀ t, made = .ok (some t) → ∃ p, Admits s plaintext p ∧
        t = tag ++ Base64.encode (Sha1.Standard.digest (s ++ p) ++ s) ∧ (t.length : Int) < room ∧
        ∃ payload, payload? t = some payload ∧
          payload.take 20 = Sha1.Standard.digest (s ++ p) ∧ payload.drop 20 = s) ∧
      ∀ cause, made = .error cause ↔ 1 ≤ s.length ∧ s.length ≤ 16 ∧
        (plaintext = .released ∧ cause = .released ∨
          (∃ p, Admits s plaintext p) ∧ room ≤ -10 ^ Text.maxDigits ∧ cause = .tooManyDigits)) ∧
      (∀ p, Admits s plaintext p →
        (create plaintext salt (.integer maxLength)).value = .ok (some (written s p))) ∧
      IsGreatest usualLengths 54 := by
  simp only [admits_iff]
  refine ⟨⟨?_, ?_, fun cause => create_octets_error_iff hsalt⟩, fun p hp => create_maxLength hsalt hp,
    isGreatest_usualLengths⟩
  · constructor
    · rintro ⟨t, hvalue⟩
      obtain ⟨p, hp, hsize, -⟩ := (create_octets_eq_some_iff hsalt).mp hvalue
      rw [← length_written_ceilDiv s p]
      exact ⟨⟨p, hp⟩, hsize⟩
    · rintro ⟨⟨p, hp⟩, hsize⟩
      rw [← length_written_ceilDiv s p] at hsize
      exact ⟨_, (create_octets_eq_some_iff hsalt).mpr ⟨p, hp, hsize, rfl⟩⟩
  · intro t hvalue
    obtain ⟨p, hp, hsize, rfl⟩ := (create_octets_eq_some_iff hsalt).mp hvalue
    exact ⟨p, hp, rfl, hsize, payload?_written_parts s p⟩

theorem create_isSome_salt :
    ∃ t, (create (.text "secret") (.buffer [115, 97, 108, 116]) (.integer 39)).value =
        .ok (some t) ∧
      t.length < 39 ∧
        ∃ payload, payload? t = some payload ∧ payload.drop 20 = [115, 97, 108, 116] := by
  have hsecret : Sha1.HashableAs (.text "secret") [115, 101, 99, 114, 101, 116] :=
    Sha1.hashableAs_text_iff.mpr (by decide)
  obtain ⟨⟨hsome, hform, -⟩, -, -⟩ := create_isSome_iff
    (.inr rfl : SaltAs (.buffer [115, 97, 108, 116]) _) (.text "secret") 39
  have hroom : ((6 + 4 * ((20 + 4) ⌈/⌉ 3) : Nat) : Int) < 39 := by
    rw [Nat.ceilDiv_eq_add_pred_div]
    decide
  have hadmits : Admits [115, 97, 108, 116] (.text "secret") _ :=
    admits_iff.mpr ⟨by decide, by decide, hsecret, by decide⟩
  obtain ⟨t, hvalue⟩ := hsome.mpr ⟨⟨_, hadmits⟩, hroom⟩
  obtain ⟨-, -, -, hsize, payload, hpayload, -, hsalt⟩ := hform t hvalue
  exact ⟨t, hvalue, by omega, payload, hpayload, hsalt⟩

/-- Writing fails for a room of too many digits and for a plaintext that is given back. Two windows
without octets are plaintexts, and have no string. -/
theorem create_misjudged :
    (create (.text []) (.octets [115]) (.integer (-10 ^ Text.maxDigits))).value =
        .error .tooManyDigits ∧
      (create .released (.octets [115]) (.integer maxLength)).value = .error .released ∧
      Fault.tooManyDigits.family = .value ∧ Fault.released.family = .value ∧
      ∀ plaintext ∈ [Datum.view [] true, .noRows], Sha1.IsPlaintext plaintext [] ∧
        (create plaintext (.octets [115]) (.integer maxLength)).value = .ok none := by
  have hempty : Encodable [(115 : UInt8)].length (.text []) [] :=
    ⟨by decide, by decide, Sha1.hashableAs_text_iff.mpr rfl, by decide⟩
  refine ⟨?_, ?_, rfl, rfl, ?_⟩
  · exact (create_octets_error_iff (.inl rfl)).mpr
      ⟨by decide, by decide, .inr ⟨⟨_, hempty⟩, le_refl _, rfl⟩⟩
  · exact (create_octets_error_iff (.inl rfl)).mpr ⟨by decide, by decide, .inl ⟨rfl, rfl⟩⟩
  · intro plaintext hvoid
    rcases List.mem_pair.mp hvoid with rfl | rfl
    · exact ⟨.inr rfl, rfl⟩
    · exact ⟨.inr rfl, rfl⟩

end SaltedHash.Crypt
