import Mathlib
import SaltedHash.Host
import SaltedHash.Proofs.Crypt.Creation
import SaltedHash.Proofs.Record.Serialization

/-!
# What the log tells of a secret

Calls that differ in the password alone write the same log. So do calls that check strings which differ
in their digests and salts alone. The octets of a salt are in no entry but those of the lowest level.
-/

namespace SaltedHash

/-! ## Digests that look alike -/

namespace Sha1

/-- What is seen of two digests when neither is looked into: how long they are, or why there is
none. -/
inductive Alike : Except Fault Octets → Except Fault Octets → Prop where
  | digests {d e : Octets} (length_eq : d.length = e.length) : Alike (.ok d) (.ok e)
  | refused (cause : Fault) : Alike (.error cause) (.error cause)

def Hashable (salt plaintext : Datum) : Prop := ∃ digest, saltedDigest salt plaintext = .ok digest

theorem hashable_octets {salt p : Octets} {plaintext : Datum} (hp : HashableAs plaintext p)
    (hfits : salt.length + p.length ≤ maxMessageOctets) : Hashable (.octets salt) plaintext :=
  ⟨_, (saltedDigest_eq_ok_iff (saltOctets_octets salt)).mpr ⟨p, hp, hfits, rfl⟩⟩

theorem alike_of_hashable {salt p q : Datum} (hp : Hashable salt p) (hq : Hashable salt q) :
    Alike (saltedDigest salt p) (saltedDigest salt q) := by
  obtain ⟨d, hd⟩ := hp
  obtain ⟨e, he⟩ := hq
  rw [hd, he]
  obtain ⟨_, _, _, _, _, rfl⟩ := exists_saltedDigest_iff.mp hd
  obtain ⟨_, _, _, _, _, rfl⟩ := exists_saltedDigest_iff.mp he
  apply Alike.digests
  rw [length_digest, length_digest]

/-- Of a salt that is octets only the length counts, also where the plaintext cannot be hashed. -/
theorem alike_of_length_eq {salt salt' : Datum} {s s' : Octets} (hs : saltOctets salt = .ok s)
    (hs' : saltOctets salt' = .ok s') (h : s.length = s'.length) (plaintext : Datum) :
    Alike (saltedDigest salt plaintext) (saltedDigest salt' plaintext) := by
  cases hp : plaintextOctets plaintext with
  | error cause =>
    unfold saltedDigest
    rw [hp]
    exact .refused cause
  | ok p =>
    rw [saltedDigest_of_octets hs hp, saltedDigest_of_octets hs' hp, h]
    by_cases hfits : s'.length + p.length ≤ maxMessageOctets
    · rw [if_pos hfits, if_pos hfits]
      apply Alike.digests
      rw [length_digest, length_digest]
    · rw [if_neg hfits, if_neg hfits]
      exact .refused _

end Sha1

def Log.aboveDebug (entries : List Log.Entry) : List Log.Entry :=
  Log.atLeast (Log.Level.debug.rank + 1) entries

open Sha1 (Alike Hashable saltedDigest)

namespace Crypt

/-! ## Writing strings -/

theorem length_encode_congr {d e s s' : Octets} (hd : d.length = e.length)
    (hs : s.length = s'.length) : (encode d s).length = (encode e s').length := by
  unfold encode
  rw [List.length_append, List.length_append, Base64.length_encode, Base64.length_encode,
    List.length_append, List.length_append, hd, hs]

theorem log_create_congr {salt p q : Datum} (h : Alike (saltedDigest salt p) (saltedDigest salt q))
    (room : Datum) : (create p salt room).log = (create q salt room).log := by
  unfold create
  generalize saltedDigest salt p = x at h
  generalize saltedDigest salt q = y at h
  cases salt.count with
  | error cause => rfl
  | ok n =>
    by_cases hrange : n = 0 ∨ maxSalt < n
    · simp only [if_pos hrange]
    · simp only [if_neg hrange]
      cases h with
      | refused cause => cases cause <;> rfl
      | @digests d e hlength =>
        -- Of the digests, only the length has a say in what is logged.
        cases salt.toOctets with
        | error cause => rfl
        | ok octets =>
          simp only [length_encode_congr hlength (Eq.refl octets.length)]
          cases fits (encode e octets).length room with
          | error cause => rfl
          | ok room => cases room <;> rfl

theorem aboveDebug_create_congr {salt salt' : Datum} {s s' : Octets} (hsalt : SaltAs salt s)
    (hsalt' : SaltAs salt' s') (h : s.length = s'.length) (plaintext room : Datum) :
    Log.aboveDebug (create plaintext salt room).log =
      Log.aboveDebug (create plaintext salt' room).log := by
  obtain ⟨hcount, hsome, hcopy⟩ := Datum.own_octets hsalt
  obtain ⟨hcount', hsome', hcopy'⟩ := Datum.own_octets hsalt'
  have halike := Sha1.alike_of_length_eq (Sha1.saltOctets_eq_ok_iff.mpr (.inr hsome))
    (Sha1.saltOctets_eq_ok_iff.mpr (.inr hsome')) h plaintext
  unfold create
  simp only [hcount, hcount', hcopy, hcopy', h]
  generalize saltedDigest salt plaintext = x at halike
  generalize saltedDigest salt' plaintext = y at halike
  by_cases hrange : s'.length = 0 ∨ maxSalt < s'.length
  · simp only [if_pos hrange]
  · simp only [if_neg hrange]
    cases halike with
    | refused cause => cases cause <;> rfl
    | @digests d e hdigest =>
      simp only [length_encode_congr hdigest h]
      cases fits (encode e s').length room with
      | error cause => rfl
      | ok room => cases room <;> rfl

theorem log_createFresh_congr {p q length : Datum} {supply : Salt.Supply}
    (h : allowsLength length = .ok true → ∀ s, (Salt.generate length supply).1 = .ok s →
      Alike (saltedDigest (.octets s) p) (saltedDigest (.octets s) q)) (room : Datum) :
    (createFresh p room length supply).result.log =
      (createFresh q room length supply).result.log := by
  unfold createFresh
  cases hallowed : allowsLength length with
  | error cause => rfl
  | ok allowed =>
    cases allowed with
    | false => rfl
    | true =>
      rcases hdrawn : Salt.generate length supply with ⟨cause | s, after⟩
      · rfl
      · exact log_create_congr (h hallowed s (by rw [hdrawn])) room

/-! ## Checking strings -/

theorem payload_of_not_sizeAllowed {o : Octets} (h : ¬ SizeAllowed o) :
    payload (.text (tag ++ Base64.encode o)) =
      .error (if o.length = 0 then .untagged else .payloadSize o.length) := by
  by_cases hempty : o.length = 0
  · rw [if_pos hempty, List.eq_nil_of_length_eq_zero hempty]
    rfl
  · have hne : Base64.encode o ≠ [] := by
      apply List.ne_nil_of_length_pos
      rw [Base64.length_encode]
      omega
    have hsize : o.length ≤ Sha1.digestSize ∨ Sha1.digestSize + maxSalt < o.length := by
      simp only [SizeAllowed] at h
      simp only [Sha1.digestSize, maxSalt]
      omega
    have hdecoded := Base64.decode_encode o
    unfold payload
    rw [body?_eq_some_iff.mpr ⟨rfl, hne⟩, if_neg hempty]
    simp only [hdecoded, if_pos hsize]
    rfl

section

variable [Cryptography]

theorem log_check_encoded {a b : Octets} (ha : SizeAllowed a) (hb : SizeAllowed b) {p q : Datum}
    (h : Alike (saltedDigest (.octets (a.drop 20)) p) (saltedDigest (.octets (b.drop 20)) q)) :
    (check (.text (tag ++ Base64.encode a)) p).log =
      (check (.text (tag ++ Base64.encode b)) q).log := by
  rw [check_of_payload (payload_eq_ok_iff.mpr ⟨ha, rfl⟩),
    check_of_payload (payload_eq_ok_iff.mpr ⟨hb, rfl⟩)]
  generalize saltedDigest (.octets (a.drop 20)) p = x at h
  generalize saltedDigest (.octets (b.drop 20)) q = y at h
  cases h with
  | refused cause => cases cause <;> rfl
  | digests hlength => rfl

theorem log_check_congr {crypt p q : Datum}
    (h : ∀ payload, SizeAllowed payload → crypt = .text (tag ++ Base64.encode payload) →
      Alike (saltedDigest (.octets (payload.drop 20)) p)
        (saltedDigest (.octets (payload.drop 20)) q)) :
    (check crypt p).log = (check crypt q).log := by
  cases hpayload : payload crypt with
  | error cause => rw [check_of_refusal hpayload, check_of_refusal hpayload]
  | ok o =>
    obtain ⟨hsize, rfl⟩ := payload_eq_ok_iff.mp hpayload
    exact log_check_encoded hsize hsize (h o hsize rfl)

theorem log_check_length {a b : Octets} (h : a.length = b.length) (plaintext : Datum) :
    (check (.text (tag ++ Base64.encode a)) plaintext).log =
      (check (.text (tag ++ Base64.encode b)) plaintext).log := by
  by_cases ha : SizeAllowed a
  · have hb : SizeAllowed b := by
      unfold SizeAllowed at *
      rwa [← h]
    apply log_check_encoded ha hb
    apply Sha1.alike_of_length_eq (Sha1.saltOctets_octets _) (Sha1.saltOctets_octets _)
    rw [List.length_drop, List.length_drop, h]
  · have hb : ¬ SizeAllowed b := by
      unfold SizeAllowed at *
      rwa [← h]
    rw [check_of_refusal (payload_of_not_sizeAllowed ha),
      check_of_refusal (payload_of_not_sizeAllowed hb), h]

end

end Crypt

/-! ## Making records -/

namespace Record

theorem log_ofPlaintext_congr {salt p q : Datum}
    (h : Alike (saltedDigest salt p) (saltedDigest salt q)) :
    (ofPlaintext salt p).log = (ofPlaintext salt q).log := by
  unfold ofPlaintext
  generalize saltedDigest salt p = x at h
  generalize saltedDigest salt q = y at h
  cases salt.count with
  | error cause => rfl
  | ok n =>
    by_cases hsize : n ≠ saltSize
    · simp only [if_pos hsize]
    · simp only [if_neg hsize]
      cases h with
      | refused cause => rfl
      | digests hlength =>
        cases salt.toOctets with
        | error cause => rfl
        | ok octets => rfl

theorem aboveDebug_ofPlaintext_congr {salt salt' : Datum} {s s' : Octets}
    (hsalt : Crypt.SaltAs salt s) (hsalt' : Crypt.SaltAs salt' s') (h : s.length = s'.length)
    (plaintext : Datum) :
    Log.aboveDebug (ofPlaintext salt plaintext).log =
      Log.aboveDebug (ofPlaintext salt' plaintext).log := by
  obtain ⟨hcount, hsome, hcopy⟩ := Datum.own_octets hsalt
  obtain ⟨hcount', hsome', hcopy'⟩ := Datum.own_octets hsalt'
  have halike := Sha1.alike_of_length_eq (Sha1.saltOctets_eq_ok_iff.mpr (.inr hsome))
    (Sha1.saltOctets_eq_ok_iff.mpr (.inr hsome')) h plaintext
  unfold ofPlaintext
  rw [hcount, hcount', h]
  generalize saltedDigest salt plaintext = x at halike
  generalize saltedDigest salt' plaintext = y at halike
  by_cases hsize : s'.length ≠ saltSize
  · simp only [if_pos hsize]
  · simp only [if_neg hsize, hcopy, hcopy']
    cases halike with
    | refused cause => rfl
    | digests hdigest => rfl

end Record

/-! ## Any call -/

def Host.lengthOf (h : Host) : Datum → Datum
  | .nothing => .integer h.settings.saltLength
  | length => length

def Host.Chooses (h : Host) (source : Option Salt.Source) (chosen : Salt.Source) : Prop :=
  source = some chosen ∨ source = none ∧ h.sharedSource.value = .ok chosen

theorem Host.log_makeCrypt_congr {h : Host} {source : Option Salt.Source} {length p q : Datum}
    (halike : Crypt.allowsLength (h.lengthOf length) = .ok true → ∀ chosen s,
      h.Chooses source chosen →
      (Salt.generate (h.lengthOf length) ⟨chosen, h.system⟩).1 = .ok s →
        Alike (saltedDigest (.octets s) p) (saltedDigest (.octets s) q))
    (room : Datum) :
    (h.makeCrypt p room length source).result.log =
      (h.makeCrypt q room length source).result.log := by
  have hfresh (chosen : Salt.Source) (hchosen : h.Chooses source chosen) :
      (Crypt.createFresh p room (h.lengthOf length) ⟨chosen, h.system⟩).result.log =
        (Crypt.createFresh q room (h.lengthOf length) ⟨chosen, h.system⟩).result.log := by
    apply Crypt.log_createFresh_congr
    exact fun hallowed s => halike hallowed chosen s hchosen
  unfold Host.makeCrypt
  cases source with
  | some source => exact hfresh source (.inl rfl)
  | none =>
    simp only
    split
    · cases hshared : h.sharedSource.value with
      | error cause => rfl
      | ok source =>
        exact congrArg (h.sharedSource.log ++ ·) (hfresh source (.inr ⟨rfl, hshared⟩))
    · -- Nothing is drawn, and so no source is needed.
      rename_i hrefused
      apply Crypt.log_createFresh_congr
      exact fun hallowed => absurd hallowed hrefused

inductive Call where
  | create (salt room : Datum)
  | makeCrypt (h : Host) (room length : Datum) (source : Option Salt.Source)
  | record (salt : Datum)
  | check (crypt : Datum)

namespace Call

def log [Cryptography] (plaintext : Datum) : Call → List Log.Entry
  | create salt room => (Crypt.create plaintext salt room).log
  | makeCrypt h room length source => (h.makeCrypt plaintext room length source).result.log
  | record salt => (Record.ofPlaintext salt plaintext).log
  | check crypt => (Crypt.check crypt plaintext).log

/-- The salt that a call hashes its plaintext with, if it hashes it. -/
def Salts (salt : Datum) : Call → Prop
  | create given _ | record given => salt = given
  | makeCrypt h _ length source =>
    Crypt.allowsLength (h.lengthOf length) = .ok true ∧ ∃ chosen s, h.Chooses source chosen ∧
      (Salt.generate (h.lengthOf length) ⟨chosen, h.system⟩).1 = .ok s ∧ salt = .octets s
  | check crypt =>
    ∃ payload, Crypt.SizeAllowed payload ∧ crypt = .text (Crypt.tag ++ Base64.encode payload) ∧
      salt = .octets (payload.drop 20)

theorem log_congr [Cryptography] {call : Call} {p q : Datum}
    (h : ∀ salt, call.Salts salt → Hashable salt p ∧ Hashable salt q) :
    call.log p = call.log q := by
  have halike (salt : Datum) (hsalt : call.Salts salt) :
      Alike (saltedDigest salt p) (saltedDigest salt q) :=
    Sha1.alike_of_hashable (h salt hsalt).1 (h salt hsalt).2
  cases call with
  | create salt room => exact Crypt.log_create_congr (halike salt rfl) room
  | makeCrypt h room length source =>
    apply Host.log_makeCrypt_congr
    intro hallowed chosen s hchosen hdrawn
    exact halike _ ⟨hallowed, chosen, s, hchosen, hdrawn, rfl⟩
  | record salt => exact Record.log_ofPlaintext_congr (halike salt rfl)
  | check crypt =>
    apply Crypt.log_check_congr
    intro payload hsize hcrypt
    exact halike _ ⟨payload, hsize, hcrypt, rfl⟩

end Call

/-- The log of a call is the same for every two plaintexts that can be hashed, and where a string is
checked, for all strings of one length. Above the lowest level it tells no more of a salt than its
length. -/
theorem logs_hide_secrets [Cryptography] :
    (∀ (call : Call) (p q : Datum),
        (∀ salt, call.Salts salt → Hashable salt p ∧ Hashable salt q) → call.log p = call.log q) ∧
      (∀ a b : Octets, a.length = b.length → ∀ plaintext : Datum,
        (Crypt.check (.text (Crypt.tag ++ Base64.encode a)) plaintext).log =
          (Crypt.check (.text (Crypt.tag ++ Base64.encode b)) plaintext).log) ∧
      ∀ (salt salt' : Datum) (s s' : Octets), Crypt.SaltAs salt s → Crypt.SaltAs salt' s' →
        s.length = s'.length → ∀ plaintext room : Datum,
          Log.aboveDebug (Crypt.create plaintext salt room).log =
              Log.aboveDebug (Crypt.create plaintext salt' room).log ∧
            Log.aboveDebug (Record.ofPlaintext salt plaintext).log =
              Log.aboveDebug (Record.ofPlaintext salt' plaintext).log := by
  refine ⟨fun call p q h => Call.log_congr h, fun a b h plaintext => ?_, ?_⟩
  · exact Crypt.log_check_length h plaintext
  · intro salt salt' s s' hsalt hsalt' h plaintext room
    exact ⟨Crypt.aboveDebug_create_congr hsalt hsalt' h plaintext room,
      Record.aboveDebug_ofPlaintext_congr hsalt hsalt' h plaintext⟩

theorem logs_hide_password :
    (Call.record (.octets [1, 2, 3, 4, 5, 6, 7, 8])).log (.text "secret") =
        (Call.record (.octets [1, 2, 3, 4, 5, 6, 7, 8])).log (.octets [112, 119]) ∧
      (Crypt.check (.text (Crypt.tag ++ Base64.encode (List.replicate 24 0))) (.text "secret")).log =
        (Crypt.check (.text (Crypt.tag ++ Base64.encode (List.replicate 24 255)))
          (.text "secret")).log ∧
      Log.aboveDebug (Crypt.create (.text "secret") (.octets [1, 2]) (.integer 55)).log =
        Log.aboveDebug (Crypt.create (.text "secret") (.buffer [3, 4]) (.integer 55)).log := by
  have hsecret : Sha1.HashableAs (.text "secret") [115, 101, 99, 114, 101, 116] :=
    Sha1.hashableAs_text_iff.mpr (by decide)
  have hoctets : Sha1.HashableAs (.octets [112, 119]) [112, 119] := .inr rfl
  obtain ⟨hcalls, hchecks, hsalts⟩ := logs_hide_secrets
  have hcreated := hsalts _ _ [1, 2] [3, 4] (.inl rfl) (.inr rfl) rfl (.text "secret") (.integer 55)
  have hchecked := hchecks (List.replicate 24 0) (List.replicate 24 255) rfl (.text "secret")
  refine ⟨hcalls _ _ _ ?_, hchecked, hcreated.1⟩
  rintro salt rfl
  exact ⟨Sha1.hashable_octets hsecret (by decide), Sha1.hashable_octets hoctets (by decide)⟩

end SaltedHash
