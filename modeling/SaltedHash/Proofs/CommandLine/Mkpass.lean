import Mathlib
import SaltedHash.Proofs.CommandLine.Crypt
import SaltedHash.Proofs.Prompt.Attempts

/-!
# A record is written and then read

The command that writes a record writes the one of the attempt that is accepted, all of it or nothing.
The line is read back as the record, and both answers of the attempt match it.
-/

namespace SaltedHash.CommandLine

open Prompt (Outcome AcceptedAt StoppedAt MismatchedAt saltAt)

/-! ## The command -/

theorem onStop_of_expected {stop : Prompt.Stop} (h : stop.Expected) :
    (onStop stop).1 = .status 1 := by
  cases stop with
  | endOfInput => rfl
  | interrupted => rfl
  | fault cause =>
    obtain ⟨what, rfl⟩ := h
    rfl

def recordAt (supply : Salt.Supply) (k : Nat) (p : Octets) : Record :=
  ⟨saltAt supply k, Sha1.Standard.digest (saltAt supply k ++ p)⟩

theorem mkpass_cases [Cryptography] (h : Host) (source : Salt.Source) (outcomes : List Outcome) :
    (∃ k a b p q, AcceptedAt ⟨source, h.system⟩ outcomes k a b p q ∧
        (mkpass h source (outcomes.map Outcome.answer)).1.Yields (.status 0)
          (Text.line (recordAt ⟨source, h.system⟩ k p).toHex)) ∨
      (∃ k, StoppedAt ⟨source, h.system⟩ outcomes k) ∧
        (mkpass h source (outcomes.map Outcome.answer)).1.Yields (.status 1) [] := by
  rcases Prompt.record_result ⟨source, h.system⟩ outcomes with
    ⟨k, a, b, p, q, haccepted, hresult⟩ | ⟨k, hstopped, stop, hexpected, hresult⟩
  · exact .inl ⟨k, a, b, p, q, haccepted, yields_afterDialogue hresult ⟨rfl, rfl⟩⟩
  · refine .inr ⟨⟨k, hstopped⟩, ?_⟩
    rw [← onStop_of_expected hexpected]
    exact yields_afterDialogue_stop hresult

/-! ## The line -/

theorem line_feed_not_mem_toHex (r : Record) : CodePoint.ofChar '\n' ∉ r.toHex := by
  have hdigits (octets : Octets) : CodePoint.ofChar '\n' ∉ Hex.encodeUpper octets := by
    intro h
    exact absurd (Hex.bounds_of_mem_encodeUpper h).1 (by decide)
  unfold Record.toHex
  rw [List.mem_append, List.mem_cons, not_or, not_or]
  exact ⟨hdigits _, by decide, hdigits _⟩

theorem ofHex_recordAt (supply : Salt.Supply) (k : Nat) (p : Octets) :
    Record.ofHex (.text (recordAt supply k p).toHex) = .ok (recordAt supply k p) :=
  Record.ofHex_toHex_iff.mpr ⟨Prompt.length_saltAt supply k, Sha1.length_digest _⟩

theorem matches_recordAt [Cryptography] {supply : Salt.Supply} {outcomes : List Outcome} {k : Nat}
    {a b : Text} {p q : Octets} (h : AcceptedAt supply outcomes k a b p q) {password : Text}
    (hpassword : password = a ∨ password = b) :
    ∃ tried, (Record.ofPlaintext (.octets (saltAt supply k)) (.text password)).value = .ok tried ∧
      (recordAt supply k p).sameDigest tried = true := by
  have hlength := Prompt.length_saltAt supply k
  rcases hpassword with rfl | rfl
  · have hp := h.answers.storable_first
    exact ⟨_, Record.ofPlaintext_of_hashable (.inl rfl) hlength hp.1 hp.2,
      Record.sameDigest_iff.mpr rfl⟩
  · have hq := h.answers.storable_second
    exact ⟨_, Record.ofPlaintext_of_hashable (.inl rfl) hlength hq.1 hq.2,
      Record.sameDigest_iff.mpr h.same⟩

/-- An attempt that is reached stops where an answer is missing, an interrupt, or without octets. -/
theorem stoppedAt_of_not_encodable {supply : Salt.Supply} {outcomes : List Outcome} {k i : Nat}
    (hbefore : ∀ j < k, MismatchedAt supply outcomes j) (hi : i = 2 * k ∨ i = 2 * k + 1)
    (hnone : ∀ text, outcomes[i]? = some (.typed text) → Text.utf8? text = none) :
    StoppedAt supply outcomes k := by
  refine ⟨hbefore, fun a b p q h => ?_⟩
  rcases hi with rfl | rfl
  · have hp := Sha1.hashableAs_text_iff.mp h.storable_first.1
    rw [hnone a h.first] at hp
    cases hp
  · have hq := Sha1.hashableAs_text_iff.mp h.storable_second.1
    rw [hnone b h.second] at hq
    cases hq

/-! ## A run that writes a record -/

/-- A run that asks for a record writes one line or nothing. The line is read back as the record of
the attempt that is accepted, and both answers to that attempt match it. -/
theorem run_mkpass [Cryptography] {h : Host} (hready : h.Ready) {outcomes : List Outcome}
    {sources : Sources} (hanswers : sources.answers = outcomes.map Outcome.answer) :
    ∃ source, h.sourceOfSettings.value = .ok source ∧
      let supply : Salt.Supply := ⟨source, h.system⟩
      let t := (run h ["mkpass"] sources).1
      (t.Yields (.status 1) [] ∨
          ∃ line, t.Yields (.status 0) (Text.line line) ∧ CodePoint.ofChar '\n' ∉ line ∧
            ∃ k a b p q r, AcceptedAt supply outcomes k a b p q ∧
              Record.ofHex (.text line) = .ok r ∧ r.salt = saltAt supply k ∧
              ∀ password, password = a ∨ password = b →
                ∃ tried, (Record.ofPlaintext (.octets r.salt) (.text password)).value = .ok tried ∧
                  r.sameDigest tried = true) ∧
        (t.ending = .status 0 ↔ ∃ k a b p q, AcceptedAt supply outcomes k a b p q) ∧
        ∀ k i, (∀ j < k, MismatchedAt supply outcomes j) → (i = 2 * k ∨ i = 2 * k + 1) →
          (∀ text, outcomes[i]? = some (.typed text) → Text.utf8? text = none) →
          t.Yields (.status 1) [] := by
  obtain ⟨source, hsource⟩ := hready.source
  refine ⟨source, hsource, ?_⟩
  have hrequest : Request.ofArguments ["mkpass"] = .ok ⟨.mkpass, [], .unsaid⟩ :=
    ofArguments_operands .mkpass (by simp)
  have hrun {ending : Ending} {out : Text}
      (hyields : (mkpass h source (outcomes.map Outcome.answer)).1.Yields ending out) :
      (run h ["mkpass"] sources).1.Yields ending out := by
    apply run_of_source hready hsource hrequest
    simp only [perform, hanswers]
    exact hyields
  intro supply t
  rcases mkpass_cases h source outcomes with
    ⟨k, a, b, p, q, haccepted, hyields⟩ | ⟨⟨k, hstopped⟩, hyields⟩
  · -- An attempt is accepted, so no other answer can have stopped the run.
    have hshown := hrun hyields
    refine ⟨.inr ⟨_, hshown, line_feed_not_mem_toHex _, k, a, b, p, q, _, haccepted,
      ofHex_recordAt supply k p, rfl, fun password => matches_recordAt haccepted⟩, ?_, ?_⟩
    · exact ⟨fun _ => ⟨k, a, b, p, q, haccepted⟩, fun _ => hshown.ending⟩
    · intro m i hbefore hi hnone
      exact absurd (stoppedAt_of_not_encodable hbefore hi hnone) haccepted.not_stoppedAt
  · -- An attempt stops, so none is accepted.
    have hshown := hrun hyields
    refine ⟨.inl hshown, ?_, fun _ _ _ _ _ => hshown⟩
    constructor
    · intro hzero
      rw [show t.ending = .status 1 from hshown.ending] at hzero
      cases hzero
    · rintro ⟨m, a, b, p, q, haccepted⟩
      exact absurd hstopped haccepted.not_stoppedAt

theorem run_mkpass_typed_twice :
    plainHost.Ready ∧
      ∃ line r, (run plainHost ["mkpass"] (typedTwice "secret")).1.Yields (.status 0)
          (Text.line line) ∧
        Record.ofHex (.text line) = .ok r ∧ r.salt = List.replicate 8 32 := by
  have hsecret : Record.Storable (.text "secret") [115, 101, 99, 114, 101, 116] :=
    ⟨Sha1.hashableAs_text_iff.mpr (by decide), by decide⟩
  obtain ⟨source, hsource, hcases, hzero, -⟩ := run_mkpass plainHost_ready
    (rfl : (typedTwice "secret").answers = [Outcome.typed "secret", .typed "secret"].map _)
  obtain rfl : Salt.Source.system = source := Except.ok.inj hsource
  have hending := hzero.mpr ⟨0, "secret", "secret", _, _, ⟨rfl, rfl, hsecret, hsecret⟩, rfl,
    fun j hj => absurd hj (Nat.not_lt_zero j)⟩
  refine ⟨plainHost_ready, ?_⟩
  rcases hcases with hone | ⟨line, hyields, -, k, a, b, p, q, r, haccepted, hread, hsalt, -⟩
  · rw [hone.ending] at hending
    cases hending
  · obtain ⟨hk, -⟩ := List.getElem?_eq_some_iff.mp haccepted.answers.first
    obtain rfl : k = 0 := by
      simp only [List.length_cons, List.length_nil] at hk
      omega
    exact ⟨line, r, hyields, hread, hsalt.trans rfl⟩

end SaltedHash.CommandLine
