import Mathlib
import SaltedHash.Proofs.Crypt.Verification
import SaltedHash.Proofs.Datum.Display

/-!
# The strings that are written

A string is written if the length of the salt is allowed, the plaintext can be hashed with the salt,
and the string fits the room. With the room of the longest salt every string fits.
-/

namespace SaltedHash.Crypt

@[simp] theorem length_tag : tag.length = 6 := rfl

theorem length_written (salt p : Octets) :
    (written salt p).length = 6 + 4 * ((20 + salt.length + 2) / 3) := by
  rw [written, List.length_append, Base64.length_encode, List.length_append, Sha1.length_digest,
    length_tag]

/-! ## With any salt -/

theorem create_eq_some_iff {plaintext salt room : Datum} {t : Text} :
    (create plaintext salt room).value = .ok (some t) ↔
      ∃ n s p, salt.length? = some n ∧ 1 ≤ n ∧ n ≤ maxSalt ∧ Sha1.saltOctets salt = .ok s ∧
        Sha1.HashableAs plaintext p ∧ s.length + p.length ≤ maxMessageOctets ∧
        fits (written s p).length room = .ok true ∧ t = written s p := by
  unfold create
  constructor
  · intro h
    cases hcount : salt.count with
    | error cause =>
      rw [hcount] at h
      cases h
    | ok n =>
      have hlength := Datum.count_eq_ok_iff.mp hcount
      simp only [hcount] at h
      by_cases hrange : n = 0 ∨ maxSalt < n
      · -- The length of the salt is refused.
        rw [if_pos hrange] at h
        cases h
      rw [if_neg hrange] at h
      cases hdigest : Sha1.saltedDigest salt plaintext with
      | error cause =>
        rw [hdigest] at h
        cases cause <;> cases h
      | ok digest =>
        obtain ⟨s, p, hs, hp, hfits, rfl⟩ := Sha1.exists_saltedDigest_iff.mp hdigest
        obtain ⟨hcopy, -⟩ := Sha1.octets_of_saltOctets hlength hs
        simp only [hdigest, hcopy] at h
        split at h
        · cases h
        · -- The string does not fit, and the room is named.
          cases hname : room.display with
          | error cause =>
            rw [hname] at h
            cases h
          | ok name =>
            rw [hname] at h
            cases h
        · rename_i hroom
          cases h
          exact ⟨n, s, p, hlength, by omega, by omega, hs, hp, hfits, hroom, rfl⟩
  · rintro ⟨n, s, p, hlength, hpos, hmost, hs, hp, hfits, hroom, rfl⟩
    obtain ⟨hcopy, -⟩ := Sha1.octets_of_saltOctets hlength hs
    have hrange : ¬ (n = 0 ∨ maxSalt < n) := by omega
    have hdigest := Sha1.exists_saltedDigest_iff.mpr ⟨s, p, hs, hp, hfits, rfl⟩
    have htext : encode (Sha1.Standard.digest (s ++ p)) s = written s p := rfl
    simp only [Datum.count_eq_ok_iff.mpr hlength, hrange, if_false, hdigest, hcopy, htext, hroom]

/-! ## With octets for a salt -/

def SaltAs (salt : Datum) (s : Octets) : Prop := salt = .octets s ∨ salt = .buffer s

/-- A plaintext with certain octets gives a string with any salt of a length. -/
def Encodable (length : Int) (plaintext : Datum) (p : Octets) : Prop :=
  1 ≤ length ∧ length ≤ 16 ∧ Sha1.HashableAs plaintext p ∧
    length + p.length ≤ maxMessageOctets

theorem fits_integer (size : Nat) (room : Int) :
    fits size (.integer room) = .ok (decide ((size : Int) < room)) := by
  have hfits : fits size (.integer room) = .ok (!decide (room ≤ (size : Int))) := rfl
  rw [hfits, ← decide_not]
  simp only [not_le]

theorem fits_integer_iff {size : Nat} {room : Int} :
    fits size (.integer room) = .ok true ↔ (size : Int) < room := by
  simp [fits_integer]

theorem create_octets_eq_some_iff {salt plaintext : Datum} {s : Octets} (hsalt : SaltAs salt s)
    {room : Int} {t : Text} :
    (create plaintext salt (.integer room)).value = .ok (some t) ↔
      ∃ p, Encodable s.length plaintext p ∧ ((written s p).length : Int) < room ∧
        t = written s p := by
  obtain ⟨hcount, hsome, -⟩ := Datum.own_octets hsalt
  have hlength := Datum.count_eq_ok_iff.mp hcount
  have hoctets : Sha1.saltOctets salt = .ok s := Sha1.saltOctets_eq_ok_iff.mpr (.inr hsome)
  have hmax : maxSalt = 16 := rfl
  rw [create_eq_some_iff]
  constructor
  · rintro ⟨n, s', p, hn, hpos, hmost, hs, hp, hfits, hroom, rfl⟩
    rw [hlength] at hn
    rw [hoctets] at hs
    cases hn
    cases hs
    exact ⟨p, ⟨by omega, by omega, hp, by omega⟩, fits_integer_iff.mp hroom, rfl⟩
  · rintro ⟨p, ⟨hpos, hmost, hp, hfits⟩, hroom, rfl⟩
    exact ⟨_, s, p, hlength, by omega, by omega, hoctets, hp, by omega,
      fits_integer_iff.mpr hroom, rfl⟩

theorem refused_display_iff {room : Int} {text : Text → Text} {cause : Fault} :
    (refused ((Datum.integer room).display.map text)).value = .error cause ↔
      10 ^ Text.maxDigits ≤ room.natAbs ∧ cause = .tooManyDigits := by
  rw [Datum.display_integer]
  split_ifs with hlong
  · simp [refused, Except.map, hlong, eq_comm]
  · simp [refused, Except.map, hlong]

theorem create_of_encodable {salt plaintext : Datum} {s p : Octets} (hsalt : SaltAs salt s)
    (hp : Encodable s.length plaintext p) (room : Int) :
    (create plaintext salt (.integer room)).value =
      if ((written s p).length : Int) < room then .ok (some (written s p))
      else (refused ((Datum.integer room).display.map (overflowing (written s p).length))).value := by
  obtain ⟨hcount, hsome, hcopy⟩ := Datum.own_octets hsalt
  obtain ⟨hpos, hmost, hhashable, hfits⟩ := hp
  have hoctets : Sha1.saltOctets salt = .ok s := Sha1.saltOctets_eq_ok_iff.mpr (.inr hsome)
  have hrange : ¬ (s.length = 0 ∨ maxSalt < s.length) := by
    simp only [maxSalt]
    omega
  have hdigest := (Sha1.saltedDigest_eq_ok_iff hoctets).mpr ⟨p, hhashable, by omega, rfl⟩
  have htext : encode (Sha1.Standard.digest (s ++ p)) s = written s p := rfl
  unfold create
  simp only [hcount, hrange, if_false, hdigest, hcopy, htext, fits_integer]
  by_cases hroom : ((written s p).length : Int) < room
  · simp only [decide_eq_true hroom, if_pos hroom]
  · simp only [decide_eq_false hroom, if_neg hroom]

theorem create_of_not_encodable {salt plaintext : Datum} {s : Octets} (hsalt : SaltAs salt s)
    (hnone : ¬ ∃ p, Encodable s.length plaintext p) {room : Datum} {cause : Fault} :
    (create plaintext salt room).value = .error cause ↔
      1 ≤ s.length ∧ s.length ≤ 16 ∧ plaintext = .released ∧ cause = .released := by
  obtain ⟨hcount, hsome, -⟩ := Datum.own_octets hsalt
  have hoctets : Sha1.saltOctets salt = .ok s := Sha1.saltOctets_eq_ok_iff.mpr (.inr hsome)
  have hmax : maxSalt = 16 := rfl
  unfold create
  simp only [hcount]
  by_cases hrange : s.length = 0 ∨ maxSalt < s.length
  · -- The length of the salt is refused, whatever the plaintext.
    rw [if_pos hrange]
    constructor
    · rintro ⟨⟩
    · omega
  rw [if_neg hrange]
  cases hdigest : Sha1.saltedDigest salt plaintext with
  | error found =>
    have hpos : 1 ≤ s.length := by omega
    have hmost : s.length ≤ 16 := by omega
    rcases Sha1.saltedDigest_eq_error hoctets hdigest with ⟨rfl, rfl⟩ | ⟨hkept, input, rfl⟩
    · simp [hpos, hmost, eq_comm]
    · simp [refused, hkept]
  | ok digest =>
    obtain ⟨p, hp, hfits, -⟩ := (Sha1.saltedDigest_eq_ok_iff hoctets).mp hdigest
    exact absurd ⟨p, by omega, by omega, hp, by omega⟩ hnone

theorem Encodable.not_released {length : Int} {plaintext : Datum} {p : Octets}
    (h : Encodable length plaintext p) : plaintext ≠ .released := by
  rintro rfl
  obtain ⟨-, -, ⟨t, ⟨⟩, -⟩ | ⟨⟨⟩⟩, -⟩ := h

theorem create_octets_error_iff {salt plaintext : Datum} {s : Octets} (hsalt : SaltAs salt s)
    {room : Int} {cause : Fault} :
    (create plaintext salt (.integer room)).value = .error cause ↔
      1 ≤ s.length ∧ s.length ≤ 16 ∧
        (plaintext = .released ∧ cause = .released ∨
          (∃ p, Encodable s.length plaintext p) ∧ room ≤ -10 ^ Text.maxDigits ∧
            cause = .tooManyDigits) := by
  by_cases hencodable : ∃ p, Encodable s.length plaintext p
  · obtain ⟨p, hp⟩ := hencodable
    have ⟨hpos, hmost, _, _⟩ := hp
    have hsize := length_written s p
    have hten : 10 ^ 2 ≤ 10 ^ Text.maxDigits := Nat.pow_le_pow_right (by decide) (by decide)
    have hcast : ((10 ^ Text.maxDigits : Nat) : Int) = 10 ^ Text.maxDigits := Nat.cast_pow 10 _
    have hsome : ∃ p, Encodable s.length plaintext p := ⟨p, hp⟩
    have hrange : 1 ≤ s.length ∧ s.length ≤ 16 := by omega
    rw [create_of_encodable hsalt hp, ← hcast]
    simp only [hp.not_released, hsome, hrange, false_and, false_or, true_and]
    split_ifs with hroom
    · -- There is a string, and so the room is above zero.
      constructor
      · rintro ⟨⟩
      · rintro ⟨hlow, -⟩
        omega
    · -- There is none, and the room is named: it is too short for a string, or too long to name.
      rw [refused_display_iff]
      exact and_congr_left fun _ => by omega
  · rw [create_of_not_encodable hsalt hencodable]
    simp only [hencodable, false_and, or_false]

theorem create_value {salt : Datum} {s : Octets} (hsalt : SaltAs salt s) {plaintext : Datum}
    (hkept : plaintext ≠ .released) {room : Int} (hroom : -10 ^ Text.maxDigits < room) :
    (∃ p, Encodable s.length plaintext p ∧ ((written s p).length : Int) < room ∧
        (create plaintext salt (.integer room)).value = .ok (some (written s p))) ∨
      (¬ ∃ p, Encodable s.length plaintext p ∧ ((written s p).length : Int) < room) ∧
        (create plaintext salt (.integer room)).value = .ok none := by
  cases hvalue : (create plaintext salt (.integer room)).value with
  | error cause =>
    obtain ⟨-, -, ⟨hgone, -⟩ | ⟨-, hlow, -⟩⟩ := (create_octets_error_iff hsalt).mp hvalue
    · exact absurd hgone hkept
    · exact absurd hroom (not_lt.mpr hlow)
  | ok answer =>
    cases answer with
    | some t =>
      obtain ⟨p, hp, hfits, rfl⟩ := (create_octets_eq_some_iff hsalt).mp hvalue
      exact .inl ⟨p, hp, hfits, rfl⟩
    | none =>
      refine .inr ⟨?_, rfl⟩
      rintro ⟨p, hp, hfits⟩
      rw [(create_octets_eq_some_iff hsalt).mpr ⟨p, hp, hfits, rfl⟩] at hvalue
      cases hvalue

theorem length_written_lt_maxLength {s p : Octets} (h : s.length ≤ maxSalt) :
    (written s p).length < maxLength := by
  have hroom : maxLength = 55 := rfl
  rw [length_written, hroom]
  simp only [maxSalt] at h
  omega

/-! ## With a new salt -/

theorem length_take (supply : Salt.Supply) (n : Nat) : (supply.take n).1.length = n := by
  induction n generalizing supply with
  | zero => rfl
  | succ n ih =>
    rw [Salt.Supply.take]
    simp only [List.length_cons, ih]

theorem length_salt (supply : Salt.Supply) (n : Nat) : (supply.salt n).1.length = n := by
  simp [Salt.Supply.salt, length_take]

theorem allowsLength_integer (n : Int) :
    allowsLength (.integer n) = .ok (decide (1 ≤ n ∧ n ≤ 16)) :=
  congrArg Except.ok (Bool.decide_and _ _).symm

theorem generate_integer {n : Int} (h : 0 ≤ n) (supply : Salt.Supply) :
    Salt.generate (.integer n) supply =
      (.ok (supply.salt n.toNat).1, (supply.salt n.toNat).2) := by
  have hnot : decide (n < 0) = false := by simpa using h
  simp [Salt.generate, Datum.number?, Datum.Number.below, hnot]

theorem createFresh_value {plaintext : Datum} (hkept : plaintext ≠ .released) {n : Int}
    (hshort : n.natAbs < 10 ^ Text.maxDigits) (supply : Salt.Supply) :
    (∃ s p, (s.length : Int) = n ∧ Encodable n plaintext p ∧
        (createFresh plaintext (.integer maxLength) (.integer n) supply).result.value =
          .ok (some (written s p))) ∨
      (¬ ∃ p, Encodable n plaintext p) ∧
        (createFresh plaintext (.integer maxLength) (.integer n) supply).result.value =
          .ok none := by
  unfold createFresh
  rw [allowsLength_integer]
  by_cases hn : 1 ≤ n ∧ n ≤ 16
  · have hlength : ((supply.salt n.toNat).1.length : Int) = n := by
      rw [length_salt]
      omega
    -- The salt is drawn, and every string with it fits the room.
    simp only [decide_eq_true hn, generate_integer (by omega : 0 ≤ n)]
    have hroom : -10 ^ Text.maxDigits < (maxLength : Int) := by
      have : (0 : Int) < 10 ^ Text.maxDigits := by positivity
      omega
    rcases create_value (.inl rfl : SaltAs (.octets (supply.salt n.toNat).1) _) hkept
        hroom with ⟨p, hp, -, hvalue⟩ | ⟨hnone, hvalue⟩
    · rw [hlength] at hp
      exact .inl ⟨_, p, hlength, hp, hvalue⟩
    · refine .inr ⟨?_, hvalue⟩
      rintro ⟨p, hp⟩
      refine hnone ⟨p, hlength.symm ▸ hp, ?_⟩
      have hmost : (supply.salt n.toNat).1.length ≤ maxSalt := by
        rw [length_salt]
        simp only [maxSalt]
        omega
      exact_mod_cast length_written_lt_maxLength hmost
  · -- The length is refused, and is short enough to be named.
    simp only [decide_eq_false hn, Datum.display_integer, if_neg (not_le.mpr hshort)]
    refine .inr ⟨?_, rfl⟩
    rintro ⟨p, hpos, hmost, -⟩
    exact hn ⟨hpos, hmost⟩

end SaltedHash.Crypt
