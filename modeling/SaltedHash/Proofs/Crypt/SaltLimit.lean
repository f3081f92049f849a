import Mathlib
import SaltedHash.Proofs.Crypt.Creation

/-!
# The limit of a salt

The length of a salt is allowed or not by its items, but a string holds its octets. The two differ
for a window of words and for one of rows: its string may hold more than sixteen octets of salt, and is
not accepted again then.
-/

namespace SaltedHash.Crypt

theorem salt_eq_of_written_eq {s s' p p' : Octets} (h : written s p = written s' p') : s = s' := by
  have hpayload := congrArg payload? h
  rw [payload?_written, payload?_written] at hpayload
  have hlength : (Sha1.Standard.digest (s ++ p)).length =
      (Sha1.Standard.digest (s' ++ p')).length := by
    rw [Sha1.length_digest, Sha1.length_digest]
  exact (List.append_inj (Option.some.inj hpayload) hlength).2

theorem check_written_iff [Cryptography] {plaintext : Datum} {s p : Octets} (hpos : 1 ≤ s.length)
    (hp : Sha1.HashableAs plaintext p) (hfits : s.length + p.length ≤ maxMessageOctets) :
    (check (.text (written s p)) plaintext).value = .ok true ↔ s.length ≤ maxSalt := by
  constructor
  · intro h
    obtain ⟨s', p', -, hmost, -, -, hsame⟩ := written_of_check h
    rw [salt_eq_of_written_eq (Datum.text.inj hsame)]
    exact hmost
  · intro hmost
    rw [check_written hpos hmost hp hfits]

/-- A salt that passes for one of sixteen items at most, and makes more octets than that. -/
def IsOversized (salt : Datum) : Prop :=
  (∃ items, salt = .words items ∧ 8 < items.length) ∨ ∃ g, salt = .grid g ∧ 16 < g.seen.length

/-- A string that is written is accepted exactly if it holds at most sixteen octets of salt, and it
does unless the salt was oversized. -/
theorem check_of_create_iff [Cryptography] {plaintext salt room : Datum} {t : Text}
    (h : (create plaintext salt room).value = .ok (some t)) :
    ∃ payload, payload? t = some payload ∧ salt.toOctets = .ok (payload.drop 20) ∧
      1 ≤ (payload.drop 20).length ∧
      ((payload.drop 20).length ≤ 16 ↔ ¬ IsOversized salt) ∧
      ((check (.text t) plaintext).value = .ok true ↔ (payload.drop 20).length ≤ 16) := by
  obtain ⟨n, s, p, hlength, hpos, hmost, hs, hp, hfits, -, rfl⟩ := create_eq_some_iff.mp h
  obtain ⟨hcopy, hsize⟩ := Sha1.octets_of_saltOctets hlength hs
  have hsome : 1 ≤ s.length := by
    rcases Sha1.saltOctets_eq_ok_iff.mp hs with ⟨rfl, -⟩ | hoctets
    · cases hlength
    · exact Datum.octets_pos hoctets hlength hpos
  have hdrop : (Sha1.Standard.digest (s ++ p) ++ s).drop 20 = s :=
    List.drop_left' (Sha1.length_digest _)
  refine ⟨_, payload?_written s p, ?_⟩
  rw [hdrop]
  refine ⟨hcopy, hsome, ?_, check_written_iff hsome hp hfits⟩
  cases salt with
  | words items =>
    -- Two octets to an item.
    cases hlength
    rw [hsize]
    simp [IsOversized, Datum.itemSize]
    omega
  | grid g =>
    cases hcopy
    simp [IsOversized]
  | _ =>
    -- An octet to an item, and at most sixteen items.
    have hitems : s.length = 1 * n := hsize
    have hbound : s.length ≤ 16 := by
      rw [hitems, Nat.one_mul]
      exact hmost
    simpa [IsOversized] using hbound

theorem check_of_create_salt :
    ∃ t, (create (.text "secret") (.view [115, 97, 108, 116] false) (.integer 55)).value =
        .ok (some t) ∧
      (check (.text t) (.text "secret")).value = .ok true := by
  have hsecret : Sha1.HashableAs (.text "secret") [115, 101, 99, 114, 101, 116] :=
    Sha1.hashableAs_text_iff.mpr (by decide)
  have hwritten := create_eq_some_iff.mpr ⟨4, [115, 97, 108, 116], _, rfl, by decide, by decide,
    (rfl : Sha1.saltOctets (.view [115, 97, 108, 116] false) = _), hsecret, by decide,
    (by rw [length_written]; rfl : fits _ (.integer 55) = _), rfl⟩
  obtain ⟨payload, -, -, -, hlimit, haccepted⟩ := check_of_create_iff hwritten
  refine ⟨_, hwritten, haccepted.mpr (hlimit.mpr ?_)⟩
  rintro (⟨items, ⟨⟩, -⟩ | ⟨g, ⟨⟩, -⟩)

/-- Nine words pass for a salt of an allowed length. -/
theorem create_words_not_accepted :
    ∃ t, (create (.text "secret") (.words [1, 2, 3, 4, 5, 6, 7, 8, 9]) (.integer 100)).value =
        .ok (some t) ∧
      (∃ payload, payload? t = some payload ∧ (payload.drop 20).length = 18) ∧
      (check (.text t) (.text "secret")).value ≠ .ok true := by
  have hsecret : Sha1.HashableAs (.text "secret") [115, 101, 99, 114, 101, 116] :=
    Sha1.hashableAs_text_iff.mpr (by decide)
  have hwritten := create_eq_some_iff.mpr ⟨9, _, _, rfl, by decide, by decide,
    (rfl : Sha1.saltOctets (.words [1, 2, 3, 4, 5, 6, 7, 8, 9]) = _), hsecret, by decide,
    (by rw [length_written]; rfl : fits _ (.integer 100) = _), rfl⟩
  refine ⟨_, hwritten, ⟨_, payload?_written _ _, ?_⟩, ?_⟩
  · rw [List.drop_left' (Sha1.length_digest _)]
    rfl
  · rw [ne_eq, check_written_iff (by decide) hsecret (by decide)]
    decide

end SaltedHash.Crypt
