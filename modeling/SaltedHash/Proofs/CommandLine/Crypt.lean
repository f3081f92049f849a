import Mathlib
import SaltedHash.Proofs.CommandLine.Arguments
import SaltedHash.Proofs.CommandLine.Run
import SaltedHash.Proofs.Crypt.Creation
import SaltedHash.Proofs.Prompt

/-!
# A string is written and then accepted

The command that writes a string does so exactly for a password that is typed twice, that can be
hashed, and for a salt of an allowed length. The command that checks the string then accepts the
password, whatever the settings.
-/

namespace SaltedHash.CommandLine

open Prompt (Outcome Agreed)

/-! ## Writing a string -/

theorem makeCrypt_value (h : Host) (asked : Option Int) (plaintext : Datum) (room : Datum)
    (source : Salt.Source) :
    (h.makeCrypt plaintext room (SaltLength.ofAsked asked).datum (some source)).result =
      (Crypt.createFresh plaintext room (.integer (asked.getD h.settings.saltLength))
        ⟨source, h.system⟩).result := by
  cases asked with
  | none => rfl
  | some n => rfl

theorem crypt_of_agreed {h : Host} {asked : Option Int}
    (hshort : (asked.getD h.settings.saltLength).natAbs < 10 ^ Text.maxDigits)
    (source : Salt.Source) {outcomes : List Outcome} {password : Text}
    (hagreed : Agreed outcomes password) :
    (∃ s p, (s.length : Int) = asked.getD h.settings.saltLength ∧
        Crypt.Encodable (asked.getD h.settings.saltLength) (.text password) p ∧
        (crypt h source (.ofAsked asked) (outcomes.map Outcome.answer)).1.Yields (.status 0)
          (Text.line (Crypt.written s p))) ∨
      (¬ ∃ p, Crypt.Encodable (asked.getD h.settings.saltLength) (.text password) p) ∧
        (crypt h source (.ofAsked asked) (outcomes.map Outcome.answer)).1.Yields (.status 1) [] := by
  rcases Prompt.password_result ⟨source, h.system⟩ outcomes with
    ⟨q, hq, hresult⟩ | ⟨hnone, -⟩
  · obtain rfl := hq.unique hagreed
    rcases Crypt.createFresh_value (nofun : Datum.text q ≠ .released) hshort
        ⟨source, (h.drawn (Prompt.password ⟨source, h.system⟩
          (outcomes.map Outcome.answer)).supply).system⟩ with
      ⟨s, p, hs, hp, hvalue⟩ | ⟨hnone, hvalue⟩
    · refine .inl ⟨s, p, hs, hp, yields_afterDialogue hresult ?_⟩
      simp only [makeCrypt_value, Host.settings_drawn, hvalue]
      exact ⟨rfl, rfl⟩
    · refine .inr ⟨hnone, yields_afterDialogue hresult ?_⟩
      simp only [makeCrypt_value, Host.settings_drawn, hvalue]
      exact ⟨rfl, rfl⟩
  · exact absurd hagreed (hnone password)

theorem crypt_of_not_agreed (h : Host) (source : Salt.Source) (saltLength : SaltLength)
    {outcomes : List Outcome} (hnone : ∀ password, ¬ Agreed outcomes password) :
    (crypt h source saltLength (outcomes.map Outcome.answer)).1.Yields (.status 1) [] := by
  rcases Prompt.password_result ⟨source, h.system⟩ outcomes with
    ⟨p, hp, -⟩ | ⟨-, hresult | hresult⟩
  · exact absurd hp (hnone p)
  · exact yields_afterDialogue_stop hresult
  · exact yields_afterDialogue_stop hresult

/-! ## Checking a string -/

theorem line_feed_not_mem_written (s p : Octets) :
    CodePoint.ofChar '\n' ∉ Crypt.written s p := by
  rw [Crypt.written, List.mem_append, not_or]
  refine ⟨by decide, fun h => ?_⟩
  have hvisible := (Base64.visible_of_mem_encode h).1
  exact absurd hvisible (by decide)

section

variable [Cryptography]

theorem check_of_given (h : Host) (source : Salt.Source) {text password : Text} {verdict : Bool}
    (hverdict : (Crypt.check (.text text) (.text password)).value = .ok verdict)
    (rest : List Prompt.Answer) :
    (check h source text (.given (.text password) :: rest)).1.Yields
      (.status (if verdict then 0 else 1)) (Text.line (if verdict then "OK" else "FAILED")) := by
  apply yields_afterDialogue rfl
  simp only [hverdict]
  cases verdict with
  | false => exact ⟨rfl, rfl⟩
  | true => exact ⟨rfl, rfl⟩

theorem check_of_written (h : Host) (source : Salt.Source) {s p : Octets} {password : Text}
    (hp : Crypt.Encodable s.length (.text password) p) (rest : List Prompt.Answer) :
    (check h source (Crypt.written s p) (.given (.text password) :: rest)).1.Yields (.status 0)
      (Text.line "OK") := by
  obtain ⟨hpos, hmost, hhashable, hfits⟩ := hp
  have hverdict : (Crypt.check (.text (Crypt.written s p)) (.text password)).value = .ok true := by
    have hmax : Crypt.maxSalt = 16 := rfl
    rw [Crypt.check_written (by omega) (by omega) hhashable (by omega)]
  exact check_of_given h source hverdict rest

theorem run_check_of_written {h : Host} (hready : h.Ready) {s p : Octets} {password : Text}
    (hp : Crypt.Encodable s.length (.text password) p) {rest : List Prompt.Answer}
    {sources : Sources} (hanswers : sources.answers = .given (.text password) :: rest) :
    (run h ["check", Crypt.written s p] sources).1.Yields (.status 0) (Text.line "OK") := by
  have hrequest : Request.ofArguments ["check", Crypt.written s p] =
      .ok ⟨.check, [Crypt.written s p], .unsaid⟩ :=
    ofArguments_check (by decide)
  obtain ⟨source, hrun⟩ := run_of_request hready hrequest sources
  apply hrun
  simp only [perform, hanswers]
  exact check_of_written h source hp rest

end

/-! ## A run that writes a string -/

/-- A password is typed twice, and it can be hashed with a salt of an allowed length. -/
def Writes (length : Int) (outcomes : List Outcome) (password : Text) : Prop :=
  Agreed outcomes password ∧ 1 ≤ length ∧ length ≤ 16 ∧
    ∃ p, Text.utf8? password = some p ∧ length + p.length ≤ maxMessageOctets

theorem encodable_text_iff {length : Int} {password : Text} :
    (∃ p, Crypt.Encodable length (.text password) p) ↔
      1 ≤ length ∧ length ≤ 16 ∧
        ∃ p, Text.utf8? password = some p ∧ length + p.length ≤ maxMessageOctets := by
  simp only [Crypt.Encodable, Sha1.hashableAs_text_iff]
  tauto

theorem Writes.spellable {asked : Option Int} {default : Int} {outcomes : List Outcome}
    {password : Text} (h : Writes (asked.getD default) outcomes password) : Spellable asked := by
  obtain ⟨-, hpos, hmost, -⟩ := h
  rintro n ⟨⟩
  have hdigits : 10 ^ 2 ≤ 10 ^ Text.maxDigits := Nat.pow_le_pow_right (by decide) (by decide)
  simp only [Option.getD_some] at hpos hmost
  omega

theorem run_crypt_cases [Cryptography] {h : Host} (hready : h.Ready)
    (hdefault : h.settings.saltLength.natAbs < 10 ^ Text.maxDigits) (asked : Option Int)
    {outcomes : List Outcome} {sources : Sources}
    (hanswers : sources.answers = outcomes.map Outcome.answer) :
    (∃ password s p, Writes (asked.getD h.settings.saltLength) outcomes password ∧
        (s.length : Int) = asked.getD h.settings.saltLength ∧
        Crypt.Encodable s.length (.text password) p ∧
        (run h (cryptArguments asked) sources).1.Yields (.status 0)
          (Text.line (Crypt.written s p))) ∨
      (¬ ∃ password, Writes (asked.getD h.settings.saltLength) outcomes password) ∧
        (Spellable asked ∧ (run h (cryptArguments asked) sources).1.Yields (.status 1) [] ∨
          ¬ Spellable asked ∧ (run h (cryptArguments asked) sources).1.Yields (.exit 2) []) := by
  by_cases hspellable : Spellable asked
  · have hshort : (asked.getD h.settings.saltLength).natAbs < 10 ^ Text.maxDigits := by
      cases asked with
      | none => exact hdefault
      | some n => exact hspellable n rfl
    obtain ⟨source, hrun⟩ := run_of_request hready (ofArguments_crypt hspellable) sources
    simp only [perform, hanswers] at hrun
    by_cases hagreed : ∃ password, Agreed outcomes password
    · obtain ⟨password, hagreed⟩ := hagreed
      rcases crypt_of_agreed hshort source hagreed with ⟨s, p, hs, hp, hyields⟩ | ⟨hnone, hyields⟩
      · -- The password is hashed.
        have hwrites := encodable_text_iff.mp ⟨p, hp⟩
        exact .inl ⟨password, s, p, ⟨hagreed, hwrites⟩, hs, hs.symm ▸ hp, hrun _ _ hyields⟩
      · -- The password or the salt length is refused.
        refine .inr ⟨?_, .inl ⟨hspellable, hrun _ _ hyields⟩⟩
        rintro ⟨other, hother, hwrites⟩
        obtain rfl := hother.unique hagreed
        exact hnone (encodable_text_iff.mpr hwrites)
    · -- No two answers agree.
      have hyields := crypt_of_not_agreed h source (.ofAsked asked) (not_exists.mp hagreed)
      refine .inr ⟨?_, .inl ⟨hspellable, hrun _ _ hyields⟩⟩
      rintro ⟨password, hwrites⟩
      exact hagreed ⟨password, hwrites.1⟩
  · -- The numeral is refused before anything is asked.
    obtain ⟨what, hrequest⟩ := ofArguments_crypt_of_not_spellable hspellable
    refine .inr ⟨?_, .inr ⟨hspellable, run_of_complaint hready hrequest sources⟩⟩
    rintro ⟨password, hwrites⟩
    exact hspellable hwrites.spellable

/-- A run that asks for a string has the status zero exactly if a password is typed twice that can
be hashed and the salt length is allowed. It writes one line then, which is accepted for the
password under all settings, and else nothing. -/
theorem run_crypt [Cryptography] {h : Host} (hready : h.Ready)
    (hdefault : h.settings.saltLength.natAbs < 10 ^ Text.maxDigits) (asked : Option Int)
    {outcomes : List Outcome} {sources : Sources}
    (hanswers : sources.answers = outcomes.map Outcome.answer) :
    let length := asked.getD h.settings.saltLength
    let t := (run h (cryptArguments asked) sources).1
    (t.ending = .status 0 ↔ ∃ password, Writes length outcomes password) ∧
      (∀ password, Writes length outcomes password →
        ∃ s, t.out = Text.line s ∧ CodePoint.ofChar '\n' ∉ s ∧
          (s.length : Int) = 6 + 4 * ((20 + length + 2) / 3) ∧
          ∀ (h' : Host) (sources' : Sources) (rest : List Prompt.Answer), h'.Ready →
            sources'.answers = .given (.text password) :: rest →
            (run h' ["check", s] sources').1.Yields (.status 0) (Text.line "OK")) ∧
      (t.ending ≠ .status 0 → t.out = [] ∧
        (Spellable asked → t.ending = .status 1) ∧ (¬ Spellable asked → t.ending = .exit 2)) := by
  intro length t
  rcases run_crypt_cases hready hdefault asked hanswers with
    ⟨password, s, p, hwrites, hs, hp, hyields⟩ | ⟨hnone, hyields⟩
  · refine ⟨⟨fun _ => ⟨password, hwrites⟩, fun _ => hyields.ending⟩, fun other hother => ?_,
      fun hfailed => absurd hyields.ending hfailed⟩
    obtain rfl := hother.1.unique hwrites.1
    refine ⟨Crypt.written s p, hyields.out, line_feed_not_mem_written s p, ?_,
      fun h' sources' rest hready' hanswers' => run_check_of_written hready' hp hanswers'⟩
    rw [Crypt.length_written]
    push_cast
    rw [hs]
  · have hfailed : t.ending ≠ .status 0 ∧ t.out = [] ∧
        (Spellable asked → t.ending = .status 1) ∧ (¬ Spellable asked → t.ending = .exit 2) := by
      rcases hyields with ⟨hspellable, hyields⟩ | ⟨hspellable, hyields⟩
      · refine ⟨?_, hyields.out, fun _ => hyields.ending, fun h => absurd hspellable h⟩
        rw [hyields.ending]
        decide
      · refine ⟨?_, hyields.out, fun h => absurd h hspellable, fun _ => hyields.ending⟩
        rw [hyields.ending]
        decide
    refine ⟨⟨fun h => absurd h hfailed.1, fun h => absurd h hnone⟩, fun password hwrites => ?_,
      fun _ => hfailed.2⟩
    exact absurd ⟨password, hwrites⟩ hnone

def plainHost : Host := ⟨Settings.default, .whole 0, .cycle [], none⟩

theorem plainHost_ready : plainHost.Ready := ⟨⟨30, by decide⟩, ⟨0, rfl⟩⟩

theorem plainHost_saltLength : plainHost.settings.saltLength.natAbs < 10 ^ Text.maxDigits := by
  have hsix : plainHost.settings.saltLength.natAbs = 6 := rfl
  have hdigits : 10 ^ 2 ≤ 10 ^ Text.maxDigits := Nat.pow_le_pow_right (by decide) (by decide)
  omega

def typedTwice (password : Text) : Sources :=
  { answers := [Outcome.typed password, .typed password].map Outcome.answer
    read := fun _ => .error .missing
    stdin := default
    room := 4096 }

theorem run_crypt_typed_twice :
    plainHost.Ready ∧ plainHost.settings.saltLength.natAbs < 10 ^ Text.maxDigits ∧
      (run plainHost (cryptArguments none) (typedTwice "secret")).1.ending = .status 0 ∧
      ∃ s, (run plainHost (cryptArguments none) (typedTwice "secret")).1.out = Text.line s ∧
        s.length = 42 := by
  have hrun := run_crypt plainHost_ready plainHost_saltLength none
    (rfl : (typedTwice "secret").answers = [Outcome.typed "secret", .typed "secret"].map _)
  have hwrites : Writes 6 [.typed "secret", .typed "secret"] "secret" :=
    ⟨Prompt.agreed_twice _ _, by decide, by decide, _, rfl, by decide⟩
  obtain ⟨s, hout, -, hlength, -⟩ := hrun.2.1 _ hwrites
  have hdefault : (none : Option Int).getD plainHost.settings.saltLength = 6 := rfl
  rw [hdefault] at hlength
  exact ⟨plainHost_ready, plainHost_saltLength, hrun.1.mpr ⟨_, hwrites⟩, s, hout, by omega⟩

theorem exists_utf8?_length (n : Nat) : ∃ t p, Text.utf8? t = some p ∧ p.length = n := by
  have hletter : CodePoint.utf8 (CodePoint.ofChar 'a') = [97] := rfl
  refine ⟨List.replicate n (CodePoint.ofChar 'a'), _, if_neg ?_, ?_⟩
  · simp [CodePoint.isSurrogate_ofChar]
  · simp [hletter]

/-- A salt length may have too many digits to be read, and a password too many octets to be hashed.
-/
theorem run_crypt_not_written :
    (run plainHost (cryptArguments (some (10 ^ Text.maxDigits))) (typedTwice "a")).1.ending =
        .exit 2 ∧
      ∃ password, (Text.utf8? password).isSome = true ∧
        (run plainHost (cryptArguments none) (typedTwice password)).1.ending = .status 1 := by
  constructor
  · have hlong : ¬ Spellable (some (10 ^ Text.maxDigits)) := by
      intro h
      have hbase : (10 : Int).natAbs = 10 := rfl
      have hlt := h _ rfl
      rw [Int.natAbs_pow, hbase] at hlt
      exact Nat.lt_irrefl _ hlt
    obtain ⟨what, hrequest⟩ := ofArguments_crypt_of_not_spellable hlong
    exact (run_of_complaint plainHost_ready hrequest _).ending
  · obtain ⟨password, p, hp, hlength⟩ := exists_utf8?_length maxMessageOctets
    refine ⟨password, by rw [hp]; rfl, ?_⟩
    rcases run_crypt_cases plainHost_ready plainHost_saltLength none
        (rfl : (typedTwice password).answers = [Outcome.typed password, .typed password].map _) with
      ⟨other, -, -, ⟨hagreed, -, -, q, hq, hfits⟩, -⟩ | ⟨-, ⟨-, hyields⟩ | ⟨hlong, -⟩⟩
    · have hdefault : (none : Option Int).getD plainHost.settings.saltLength = 6 := rfl
      rw [hagreed.unique (Prompt.agreed_twice password []), hp] at hq
      obtain rfl := Option.some.inj hq
      rw [hdefault, hlength] at hfits
      -- With the salt, the password is beyond the ceiling.
      omega
    · exact hyields.ending
    · refine absurd ?_ hlong
      rintro n ⟨⟩

end SaltedHash.CommandLine
