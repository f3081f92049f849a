import Mathlib
import SaltedHash.Proofs.Crypt.Creation
import SaltedHash.Proofs.Prompt
import SaltedHash.Proofs.Record.Password

/-!
# Attempts at a record

Every attempt draws a salt and takes two answers. The first attempt with two answers of the same digest
gives the record; asking ends without one at the first attempt that has no two answers to store.
-/

namespace SaltedHash

def Record.refusal (t : Text) : InputFault :=
  match Text.utf8? t with
  | none => .plaintextSurrogate
  | some _ => .overCeiling

theorem Record.ofPlaintext_of_refused {s : Octets} (hs : s.length = 8) {t : Text}
    (h : ∀ p, ¬ Storable (.text t) p) :
    (ofPlaintext (.octets s) (.text t)).value = .error (.input (refusal t)) := by
  have hcount : Datum.count (.octets s) = .ok saltSize := congrArg Except.ok hs
  have hdigest : Sha1.saltedDigest (.octets s) (.text t) = .error (.input (refusal t)) := by
    unfold refusal
    cases hoctets : Text.utf8? t with
    | none =>
      simp only [Sha1.saltedDigest, Sha1.plaintextOctets, hoctets]
      rfl
    | some p =>
      have hp : Sha1.plaintextOctets (.text t) = .ok p := by simp [Sha1.plaintextOctets, hoctets]
      have hlong : ¬ 8 + p.length ≤ maxMessageOctets := fun hfits =>
        h p ⟨Sha1.hashableAs_text_iff.mpr hoctets, hfits⟩
      rw [Sha1.saltedDigest_of_octets (Sha1.saltOctets_octets s) hp, hs, if_neg hlong]
  simp [ofPlaintext, hcount, hdigest]

theorem Record.ofPlaintext_text_cases {s : Octets} (hs : s.length = 8) (t : Text) :
    (∃ p, Storable (.text t) p ∧
        (ofPlaintext (.octets s) (.text t)).value = .ok ⟨s, Sha1.Standard.digest (s ++ p)⟩) ∨
      (∀ p, ¬ Storable (.text t) p) ∧
        ∃ cause, (ofPlaintext (.octets s) (.text t)).value = .error (.input cause) := by
  by_cases hstorable : ∃ p, Storable (.text t) p
  · obtain ⟨p, hp⟩ := hstorable
    exact .inl ⟨p, hp, ofPlaintext_of_hashable (.inl rfl) hs hp.1 hp.2⟩
  · have hrefused := not_exists.mp hstorable
    exact .inr ⟨hrefused, refusal t, ofPlaintext_of_refused hs hrefused⟩

namespace Prompt

/-! ## What an attempt is -/

def supplyAt (supply : Salt.Supply) : Nat → Salt.Supply
  | 0 => supply
  | k + 1 => supplyAt (supply.salt Record.saltSize).2 k

def saltAt (supply : Salt.Supply) (k : Nat) : Octets :=
  ((supplyAt supply k).salt Record.saltSize).1

structure AnswersAt (outcomes : List Outcome) (k : Nat) (a b : Text) (p q : Octets) : Prop where
  first : outcomes[2 * k]? = some (.typed a)
  second : outcomes[2 * k + 1]? = some (.typed b)
  storable_first : Record.Storable (.text a) p
  storable_second : Record.Storable (.text b) q

def MismatchedAt (supply : Salt.Supply) (outcomes : List Outcome) (k : Nat) : Prop :=
  ∃ a b p q, AnswersAt outcomes k a b p q ∧
    Sha1.Standard.digest (saltAt supply k ++ p) ≠ Sha1.Standard.digest (saltAt supply k ++ q)

/-- The answers to an attempt have the same digest, and those to the attempts before do not. -/
structure AcceptedAt (supply : Salt.Supply) (outcomes : List Outcome) (k : Nat) (a b : Text)
    (p q : Octets) : Prop where
  answers : AnswersAt outcomes k a b p q
  same : Sha1.Standard.digest (saltAt supply k ++ p) = Sha1.Standard.digest (saltAt supply k ++ q)
  before : ∀ j < k, MismatchedAt supply outcomes j

/-- An attempt is reached, and it has no two answers that can be stored. -/
def StoppedAt (supply : Salt.Supply) (outcomes : List Outcome) (k : Nat) : Prop :=
  (∀ j < k, MismatchedAt supply outcomes j) ∧ ∀ a b p q, ¬ AnswersAt outcomes k a b p q

theorem AnswersAt.exists_cons_cons {outcomes : List Outcome} {k : Nat} {a b : Text} {p q : Octets}
    (h : AnswersAt outcomes k a b p q) : ∃ x y rest, outcomes = x :: y :: rest := by
  obtain ⟨hlength, -⟩ := List.getElem?_eq_some_iff.mp h.second
  rcases outcomes with _ | ⟨x, _ | ⟨y, rest⟩⟩
  · exact absurd hlength (Nat.not_lt_zero _)
  · -- One answer is none for a second prompt.
    rw [List.length_singleton] at hlength
    omega
  · exact ⟨x, y, rest, rfl⟩

theorem saltAt_zero (supply : Salt.Supply) :
    saltAt supply 0 = (supply.salt Record.saltSize).1 := rfl

theorem length_saltAt (supply : Salt.Supply) (k : Nat) : (saltAt supply k).length = 8 :=
  Crypt.length_salt _ _

section Shift

variable {supply : Salt.Supply} {x y : Outcome} {rest : List Outcome} {k : Nat}

theorem answersAt_succ_iff {a b : Text} {p q : Octets} :
    AnswersAt (x :: y :: rest) (k + 1) a b p q ↔ AnswersAt rest k a b p q := by
  constructor
  · rintro ⟨hfirst, hsecond, hp, hq⟩
    rw [Nat.mul_add] at hfirst hsecond
    exact ⟨hfirst, hsecond, hp, hq⟩
  · rintro ⟨hfirst, hsecond, hp, hq⟩
    refine ⟨?_, ?_, hp, hq⟩
    · rw [Nat.mul_add]
      exact hfirst
    · rw [Nat.mul_add]
      exact hsecond

theorem mismatchedAt_succ_iff :
    MismatchedAt supply (x :: y :: rest) (k + 1) ↔
      MismatchedAt (supply.salt Record.saltSize).2 rest k := by
  unfold MismatchedAt
  simp only [answersAt_succ_iff]
  rfl

theorem acceptedAt_succ {a b : Text} {p q : Octets}
    (hnow : MismatchedAt supply (x :: y :: rest) 0)
    (h : AcceptedAt (supply.salt Record.saltSize).2 rest k a b p q) :
    AcceptedAt supply (x :: y :: rest) (k + 1) a b p q where
  answers := answersAt_succ_iff.mpr h.answers
  same := h.same
  before := by
    rw [Nat.forall_lt_succ_left']
    exact ⟨hnow, fun j hj => mismatchedAt_succ_iff.mpr (h.before j hj)⟩

theorem stoppedAt_succ (hnow : MismatchedAt supply (x :: y :: rest) 0)
    (h : StoppedAt (supply.salt Record.saltSize).2 rest k) :
    StoppedAt supply (x :: y :: rest) (k + 1) := by
  unfold StoppedAt
  rw [Nat.forall_lt_succ_left']
  simp only [mismatchedAt_succ_iff, answersAt_succ_iff]
  exact ⟨⟨hnow, h.1⟩, h.2⟩

end Shift

theorem AcceptedAt.not_stoppedAt {supply : Salt.Supply} {outcomes : List Outcome} {k m : Nat}
    {a b : Text} {p q : Octets} (h : AcceptedAt supply outcomes k a b p q) :
    ¬ StoppedAt supply outcomes m := by
  rintro ⟨hbefore, hnone⟩
  rcases Nat.lt_trichotomy k m with hlt | rfl | hlt
  · -- Then the answers of attempt `k` both differ and agree.
    obtain ⟨a', b', p', q', hanswers, hdiffer⟩ := hbefore k hlt
    have ha : a = a' := by simpa [h.answers.first] using hanswers.first
    have hb : b = b' := by simpa [h.answers.second] using hanswers.second
    subst ha hb
    have hp := Sha1.hashableAs_text_iff.mp hanswers.storable_first.1
    have hq := Sha1.hashableAs_text_iff.mp hanswers.storable_second.1
    rw [Sha1.hashableAs_text_iff.mp h.answers.storable_first.1] at hp
    rw [Sha1.hashableAs_text_iff.mp h.answers.storable_second.1] at hq
    cases hp
    cases hq
    exact hdiffer h.same
  · exact hnone a b p q h.answers
  · obtain ⟨a', b', p', q', hanswers, -⟩ := h.before m hlt
    exact hnone a' b' p' q' hanswers

/-! ## Asking until two answers have the same digest -/

section

variable [Cryptography]

def Stop.Expected : Stop → Prop
  | endOfInput | interrupted => True
  | fault cause => ∃ what, cause = .input what

theorem record_of_stored {x y : Outcome} {rest : List Outcome} {a b : Text} {p q : Octets}
    (h : AnswersAt (x :: y :: rest) 0 a b p q) (supply : Salt.Supply) :
    ∃ log, record supply ((x :: y :: rest).map Outcome.answer) =
      if Sha1.Standard.digest (saltAt supply 0 ++ p) = Sha1.Standard.digest (saltAt supply 0 ++ q)
      then .ended (.ok ⟨saltAt supply 0, Sha1.Standard.digest (saltAt supply 0 ++ p)⟩) [first, again]
        log (supplyAt supply 1) (rest.map Outcome.answer)
      else (record (supplyAt supply 1) (rest.map Outcome.answer)).after [first, again] mismatch
        log := by
  obtain ⟨⟨⟩, ⟨⟩, hp, hq⟩ := h
  have hlength := length_saltAt supply 0
  have hone := Record.ofPlaintext_of_hashable (.inl rfl) hlength hp.1 hp.2
  have htwo := Record.ofPlaintext_of_hashable (.inl rfl) hlength hq.1 hq.2
  rw [saltAt_zero] at *
  rw [List.map_cons, List.map_cons, Outcome.answer, Outcome.answer, record]
  simp only [hone, htwo, Record.sameDigest_iff]
  exact ⟨_, rfl⟩

theorem record_of_answers {supply : Salt.Supply} {x y : Outcome} {rest : List Outcome} {a b : Text}
    {p q : Octets} (h : AnswersAt (x :: y :: rest) 0 a b p q) :
    (record supply ((x :: y :: rest).map Outcome.answer)).result =
      if Sha1.Standard.digest (saltAt supply 0 ++ p) = Sha1.Standard.digest (saltAt supply 0 ++ q)
      then .ok ⟨saltAt supply 0, Sha1.Standard.digest (saltAt supply 0 ++ p)⟩
      else (record (supply.salt Record.saltSize).2 (rest.map Outcome.answer)).result := by
  obtain ⟨log, hrecord⟩ := record_of_stored h supply
  rw [hrecord]
  split_ifs
  · rfl
  · rfl

theorem record_of_no_answers {outcomes : List Outcome}
    (h : ∀ a b p q, ¬ AnswersAt outcomes 0 a b p q) (supply : Salt.Supply) :
    ∃ stop : Stop, stop.Expected ∧
      (record supply (outcomes.map Outcome.answer)).result = .error stop := by
  have hcases := Record.ofPlaintext_text_cases (Crypt.length_salt supply Record.saltSize)
  rcases outcomes with _ | ⟨⟨a⟩ | _, rest⟩
  · exact ⟨.endOfInput, trivial, rfl⟩
  · rcases hcases a with ⟨p, hp, hone⟩ | ⟨-, cause, hone⟩
    · rcases rest with _ | ⟨⟨b⟩ | _, rest⟩
      · -- The first answer is stored, and there is no second one.
        refine ⟨.endOfInput, trivial, ?_⟩
        simp only [record, List.map_cons, List.map_nil, Outcome.answer, hone]
        rfl
      · rcases hcases b with ⟨q, hq, -⟩ | ⟨-, cause, htwo⟩
        · exact absurd ⟨rfl, rfl, hp, hq⟩ (h a b p q)
        · -- The second one is refused.
          refine ⟨.fault (.input cause), ⟨cause, rfl⟩, ?_⟩
          simp only [record, List.map_cons, Outcome.answer, hone, htwo]
          rfl
      · refine ⟨.interrupted, trivial, ?_⟩
        simp only [record, List.map_cons, Outcome.answer, hone]
        rfl
    · -- The first answer is refused.
      refine ⟨.fault (.input cause), ⟨cause, rfl⟩, ?_⟩
      simp only [record, List.map_cons, Outcome.answer, hone]
      rfl
  · exact ⟨.interrupted, trivial, rfl⟩

theorem record_result (supply : Salt.Supply) (outcomes : List Outcome) :
    (∃ k a b p q, AcceptedAt supply outcomes k a b p q ∧
        (record supply (outcomes.map Outcome.answer)).result =
          .ok ⟨saltAt supply k, Sha1.Standard.digest (saltAt supply k ++ p)⟩) ∨
      ∃ k, StoppedAt supply outcomes k ∧ ∃ stop : Stop, stop.Expected ∧
        (record supply (outcomes.map Outcome.answer)).result = .error stop := by
  induction hn : outcomes.length using Nat.strongRecOn generalizing supply outcomes with
  | _ n ih =>
    have hbefore : ∀ j < 0, MismatchedAt supply outcomes j := fun j hj => absurd hj (Nat.not_lt_zero j)
    by_cases hanswers : ∃ a b p q, AnswersAt outcomes 0 a b p q
    · obtain ⟨a, b, p, q, hanswers⟩ := hanswers
      obtain ⟨x, y, rest, rfl⟩ := hanswers.exists_cons_cons
      rw [record_of_answers hanswers]
      by_cases hsame : Sha1.Standard.digest (saltAt supply 0 ++ p) =
          Sha1.Standard.digest (saltAt supply 0 ++ q)
      · rw [if_pos hsame]
        exact .inl ⟨0, a, b, p, q, ⟨hanswers, hsame, hbefore⟩, rfl⟩
      · -- What comes of the answers that are left comes one attempt later.
        have hnow : MismatchedAt supply (x :: y :: rest) 0 := ⟨a, b, p, q, hanswers, hsame⟩
        have hless : rest.length < n := by
          rw [← hn, List.length_cons, List.length_cons]
          omega
        rw [if_neg hsame]
        rcases ih _ hless (supply.salt Record.saltSize).2 rest rfl with
          ⟨k, a, b, p, q, haccepted, hlater⟩ | ⟨k, hstopped, hlater⟩
        · exact .inl ⟨k + 1, a, b, p, q, acceptedAt_succ hnow haccepted, hlater⟩
        · exact .inr ⟨k + 1, stoppedAt_succ hnow hstopped, hlater⟩
    · have hnone : ∀ a b p q, ¬ AnswersAt outcomes 0 a b p q :=
        fun a b p q h => hanswers ⟨a, b, p, q, h⟩
      exact .inr ⟨0, ⟨hbefore, hnone⟩, record_of_no_answers hnone supply⟩

end

end Prompt

end SaltedHash
