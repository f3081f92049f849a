import Mathlib
import SaltedHash.Proofs.Prompt.Attempts
import SaltedHash.Proofs.Prompt.Repeated
import SaltedHash.Proofs.Salt.Draws
import SaltedHash.Proofs.Text.Utf8

/-!
# What asking shows

The place where asking ends says everything else: which prompts were shown, how often the answers were
said not to match, and how much was drawn. Where asking for the same text twice gives a password, asking
for a record is over as well. It gives a record earlier only for two texts whose digests collide.
-/

namespace SaltedHash.Prompt

/-! ## The course of a dialogue -/

def prompts : Nat → List Text
  | 0 => []
  | 1 => [first]
  | n + 2 => first :: again :: prompts n

def mismatches (k : Nat) : Text := (List.replicate k mismatch).flatten

/-- A dialogue ends after `k` attempts that did not match and after `n` prompts, with a supply and with
answers that are left. -/
structure Dialogue.Ends {α : Type} (d : Dialogue α) (result : Except Stop α) (k n : Nat)
    (supply : Salt.Supply) (answers : List Answer) : Prop where
  result : d.result = result
  asked : d.asked = prompts n
  err : d.err = mismatches k
  supply : d.supply = supply
  answers : d.answers = answers

theorem length_prompts (n : Nat) : (prompts n).length = n := by
  induction n using Nat.twoStepInduction with
  | zero => rfl
  | one => rfl
  | more n ih _ => rw [prompts, List.length_cons, List.length_cons, ih]

theorem Dialogue.Ends.after_mismatch {α : Type} {d : Dialogue α} {result : Except Stop α} {k n : Nat}
    {supply : Salt.Supply} {answers : List Answer} (h : d.Ends result k n supply answers)
    (log : List Log.Entry) :
    (d.after [first, again] mismatch log).Ends result (k + 1) (n + 2) supply answers where
  result := h.result
  asked := congrArg ([first, again] ++ ·) h.asked
  err := congrArg (mismatch ++ ·) h.err
  supply := h.supply
  answers := h.answers

/-! ## Asking for the same text twice -/

theorem password_of_agreedAt {outcomes : List Outcome} {k : Nat} {p : Text}
    (h : AgreedAt outcomes k p) (supply : Salt.Supply) :
    (password supply (outcomes.map Outcome.answer)).Ends (.ok (.text p)) k (2 * (k + 1)) supply
      ((outcomes.drop (2 * (k + 1))).map Outcome.answer) := by
  induction k generalizing outcomes with
  | zero =>
    obtain ⟨a, b, rest, rfl⟩ := exists_typed_of_agreedAt h
    obtain ⟨rfl, rfl⟩ := agreedAt_zero_iff.mp h
    have hnow : password supply ((Outcome.typed b :: .typed b :: rest).map Outcome.answer) =
        .ended (.ok (.text b)) [first, again] [] supply (rest.map Outcome.answer) := by
      simp [password, Outcome.answer, Datum.equal_text]
    rw [hnow]
    exact ⟨rfl, rfl, rfl, rfl, rfl⟩
  | succ k ih =>
    obtain ⟨a, b, rest, rfl⟩ := exists_typed_of_agreedAt h
    obtain ⟨hne, hlater⟩ := agreedAt_succ_iff.mp h
    have hstep : password supply ((Outcome.typed a :: .typed b :: rest).map Outcome.answer) =
        (password supply (rest.map Outcome.answer)).after [first, again] mismatch [] := by
      simp [password, Outcome.answer, Datum.equal_text, hne]
    rw [hstep]
    exact (ih hlater).after_mismatch []

theorem agreedAt_of_password {supply : Salt.Supply} {outcomes : List Outcome} {j : Nat} {v : Datum}
    (hresult : (password supply (outcomes.map Outcome.answer)).result = .ok v)
    (hasked : (password supply (outcomes.map Outcome.answer)).asked.length = 2 * (j + 1)) :
    ∃ p, v = .text p ∧ AgreedAt outcomes j p := by
  rcases password_result supply outcomes with ⟨p, ⟨k, hk⟩, -⟩ | ⟨-, hnone | hnone⟩
  · -- The number of prompts tells the attempt.
    have hends := password_of_agreedAt hk supply
    rw [hends.asked, length_prompts] at hasked
    rw [hends.result] at hresult
    obtain rfl : k = j := by omega
    exact ⟨p, (Except.ok.inj hresult).symm, hk⟩
  · rw [hnone] at hresult
    cases hresult
  · rw [hnone] at hresult
    cases hresult

/-! ## Supplies and salts of the attempts -/

theorem supplyAt_eq (supply : Salt.Supply) (k : Nat) : supplyAt supply k = supply.drop (8 * k) := by
  induction k generalizing supply with
  | zero => rfl
  | succ k ih =>
    have hdraws : 8 * (k + 1) = Record.saltSize + 8 * k := by
      rw [Nat.mul_add, Nat.add_comm]
      rfl
    rw [supplyAt, ih, Salt.Supply.salt_eq, Salt.Supply.drop_drop, hdraws]

theorem supplyAt_add (supply : Salt.Supply) (k m : Nat) :
    supplyAt (supplyAt supply k) m = supplyAt supply (k + m) := by
  rw [supplyAt_eq, supplyAt_eq, supplyAt_eq, Salt.Supply.drop_drop, Nat.mul_add]

theorem saltAt_eq (supply : Salt.Supply) (k : Nat) : saltAt supply k = supply.slice (8 * k) 8 := by
  rw [saltAt, supplyAt_eq, Salt.Supply.salt_eq, Salt.Supply.slice_drop, Nat.add_zero]
  rfl

/-! ## Answers that are asked for -/

/-- The answer with a number is asked for: the attempts before do not match, and a second answer comes
after a first one that can be stored. -/
structure Reached (supply : Salt.Supply) (outcomes : List Outcome) (i : Nat) : Prop where
  before : ∀ j < i / 2, MismatchedAt supply outcomes j
  first : i % 2 = 1 → ∃ a p, outcomes[i - 1]? = some (.typed a) ∧ Record.Storable (.text a) p

structure RefusedAt (supply : Salt.Supply) (outcomes : List Outcome) (i : Nat) (t : Text) : Prop where
  reached : Reached supply outcomes i
  answer : outcomes[i]? = some (.typed t)
  refused : ∀ p, Text.utf8? t = some p → maxMessageOctets < 8 + p.length

theorem refused_iff {t : Text} :
    (∀ p, ¬ Record.Storable (.text t) p) ↔
      ∀ p, Text.utf8? t = some p → maxMessageOctets < 8 + p.length := by
  simp only [Record.Storable, Sha1.hashableAs_text_iff, not_and, Nat.not_le]

theorem length_of_mismatchedAt {supply : Salt.Supply} {outcomes : List Outcome} {k : Nat}
    (h : ∀ j < k, MismatchedAt supply outcomes j) : 2 * k ≤ outcomes.length := by
  cases k with
  | zero => exact Nat.zero_le _
  | succ k =>
    obtain ⟨a, b, p, q, hanswers, -⟩ := h k (Nat.lt_succ_self k)
    obtain ⟨hlt, -⟩ := List.getElem?_eq_some_iff.mp hanswers.second
    omega

theorem Reached.drop {supply : Salt.Supply} {outcomes : List Outcome} {i : Nat}
    (h : Reached supply outcomes i) :
    Reached (supplyAt supply (i / 2)) (outcomes.drop (2 * (i / 2))) (i % 2) where
  before j hj := by omega
  first hodd := by
    obtain ⟨a, p, ha, hp⟩ := h.first (by omega)
    refine ⟨a, p, ?_, hp⟩
    rw [List.getElem?_drop, ← ha]
    congr 1
    omega

theorem AnswersAt.drop {outcomes : List Outcome} {k : Nat} {a b : Text} {p q : Octets}
    (h : AnswersAt outcomes k a b p q) : AnswersAt (outcomes.drop (2 * k)) 0 a b p q where
  first := by simpa using h.first
  second := by simpa using h.second
  storable_first := h.storable_first
  storable_second := h.storable_second

theorem RefusedAt.drop {supply : Salt.Supply} {outcomes : List Outcome} {i : Nat} {t : Text}
    (h : RefusedAt supply outcomes i t) :
    RefusedAt (supplyAt supply (i / 2)) (outcomes.drop (2 * (i / 2))) (i % 2) t where
  reached := h.reached.drop
  answer := by
    rw [List.getElem?_drop, ← h.answer]
    congr 1
    omega
  refused := h.refused

theorem reached_first {supply : Salt.Supply} {outcomes : List Outcome} {k : Nat}
    (hbefore : ∀ j < k, MismatchedAt supply outcomes j) : Reached supply outcomes (2 * k) where
  before j hj := hbefore j (by omega)
  first hodd := by omega

theorem reached_second {supply : Salt.Supply} {outcomes : List Outcome} {k : Nat} {a : Text}
    {p : Octets} (hbefore : ∀ j < k, MismatchedAt supply outcomes j)
    (ha : outcomes[2 * k]? = some (.typed a)) (hp : Record.Storable (.text a) p) :
    Reached supply outcomes (2 * k + 1) where
  before j hj := hbefore j (by omega)
  first _ := ⟨a, p, ha, hp⟩

/-! ## Asking for a record -/

section Record

variable [Cryptography]

theorem record_of_mismatchedAt {supply : Salt.Supply} {x y : Outcome} {rest : List Outcome}
    (h : MismatchedAt supply (x :: y :: rest) 0) :
    ∃ log, record supply ((x :: y :: rest).map Outcome.answer) =
      (record (supplyAt supply 1) (rest.map Outcome.answer)).after [first, again] mismatch log := by
  obtain ⟨a, b, p, q, hanswers, hdiffer⟩ := h
  obtain ⟨log, hrecord⟩ := record_of_stored hanswers supply
  rw [if_neg hdiffer] at hrecord
  exact ⟨log, hrecord⟩

theorem record_ends_after {supply left : Salt.Supply} {outcomes : List Outcome}
    {result : Except Stop Record} {answers : List Answer} {k n : Nat}
    (hbefore : ∀ j < k, MismatchedAt supply outcomes j)
    (h : (record (supplyAt supply k) ((outcomes.drop (2 * k)).map Outcome.answer)).Ends result 0 n
      left answers) :
    (record supply (outcomes.map Outcome.answer)).Ends result k (2 * k + n) left answers := by
  -- The first attempt is taken off, and the others are made with what it leaves.
  induction k generalizing supply outcomes with
  | zero => simpa [supplyAt] using h
  | succ k ih =>
    have hnow := hbefore 0 (Nat.succ_pos k)
    obtain ⟨x, y, rest, rfl⟩ : ∃ x y rest, outcomes = x :: y :: rest := by
      obtain ⟨a, b, p, q, hanswers, -⟩ := hnow
      exact hanswers.exists_cons_cons
    obtain ⟨log, hstep⟩ := record_of_mismatchedAt hnow
    have hlater : ∀ j < k, MismatchedAt (supply.salt Record.saltSize).2 rest j := fun j hj =>
      mismatchedAt_succ_iff.mp (hbefore (j + 1) (Nat.succ_lt_succ hj))
    have hends := (ih hlater h).after_mismatch log
    rw [hstep]
    rwa [show 2 * (k + 1) + n = 2 * k + n + 2 by omega]

end Record

section Attempt

variable [Cryptography] {supply : Salt.Supply} {outcomes : List Outcome}

theorem record_first_same {a b : Text} {p q : Octets} (h : AnswersAt outcomes 0 a b p q)
    (hsame : Sha1.Standard.digest (saltAt supply 0 ++ p) =
      Sha1.Standard.digest (saltAt supply 0 ++ q)) :
    (record supply (outcomes.map Outcome.answer)).Ends
      (.ok ⟨saltAt supply 0, Sha1.Standard.digest (saltAt supply 0 ++ p)⟩) 0 2 (supplyAt supply 1)
      ((outcomes.drop 2).map Outcome.answer) := by
  obtain ⟨x, y, rest, rfl⟩ := h.exists_cons_cons
  obtain ⟨log, hrecord⟩ := record_of_stored h supply
  rw [hrecord, if_pos hsame]
  exact ⟨rfl, rfl, rfl, rfl, rfl⟩

theorem record_first_refused {i : Nat} {t : Text} (hi : i < 2) (h : RefusedAt supply outcomes i t) :
    (record supply (outcomes.map Outcome.answer)).Ends
      (.error (.fault (.input (Record.refusal t)))) 0 (i + 1) (supplyAt supply 1)
      ((outcomes.drop (i + 1)).map Outcome.answer) := by
  have hlength := length_saltAt supply 0
  have hrefused := Record.ofPlaintext_of_refused hlength (refused_iff.mpr h.refused)
  have hanswer := h.answer
  rw [saltAt_zero] at *
  obtain rfl | rfl : i = 0 ∨ i = 1 := by omega
  · -- It is the first answer.
    obtain ⟨rest, rfl⟩ : ∃ rest, outcomes = .typed t :: rest := by
      cases outcomes with
      | nil => cases hanswer
      | cons x rest =>
        cases hanswer
        exact ⟨rest, rfl⟩
    rw [List.map_cons, Outcome.answer, record]
    simp only [hrefused]
    exact ⟨rfl, rfl, rfl, rfl, rfl⟩
  · -- It is the second, after one that is stored.
    obtain ⟨a, p, ha, hp⟩ := h.reached.first rfl
    obtain ⟨rest, rfl⟩ : ∃ rest, outcomes = .typed a :: .typed t :: rest := by
      rcases outcomes with _ | ⟨x, _ | ⟨y, rest⟩⟩
      · cases hanswer
      · cases hanswer
      · cases ha
        cases hanswer
        exact ⟨rest, rfl⟩
    have hone := Record.ofPlaintext_of_hashable (.inl rfl) hlength hp.1 hp.2
    rw [List.map_cons, List.map_cons, Outcome.answer, Outcome.answer, record]
    simp only [hone, hrefused]
    exact ⟨rfl, rfl, rfl, rfl, rfl⟩

theorem record_first_ended (hshort : outcomes.length < 2)
    (h : Reached supply outcomes outcomes.length) :
    (record supply (outcomes.map Outcome.answer)).Ends (.error .endOfInput) 0 (outcomes.length + 1)
      (supplyAt supply 1) [] := by
  rcases outcomes with _ | ⟨x, _ | ⟨y, rest⟩⟩
  · exact ⟨rfl, rfl, rfl, rfl, rfl⟩
  · obtain ⟨a, p, ⟨⟩, hp⟩ := h.first rfl
    have hone := Record.ofPlaintext_of_hashable (.inl rfl) (length_saltAt supply 0) hp.1 hp.2
    rw [saltAt_zero] at hone
    rw [List.map_cons, Outcome.answer, record]
    simp only [hone]
    exact ⟨rfl, rfl, rfl, rfl, rfl⟩
  · simp at hshort

/-! ## Where asking ends -/

theorem record_of_acceptedAt {k : Nat} {a b : Text} {p q : Octets}
    (h : AcceptedAt supply outcomes k a b p q) :
    (record supply (outcomes.map Outcome.answer)).Ends
      (.ok ⟨saltAt supply k, Sha1.Standard.digest (saltAt supply k ++ p)⟩) k (2 * (k + 1))
      (supplyAt supply (k + 1)) ((outcomes.drop (2 * (k + 1))).map Outcome.answer) := by
  have hsame : Sha1.Standard.digest (saltAt (supplyAt supply k) 0 ++ p) =
      Sha1.Standard.digest (saltAt (supplyAt supply k) 0 ++ q) := h.same
  have hends := record_first_same h.answers.drop hsame
  rw [supplyAt_add, List.drop_drop] at hends
  exact record_ends_after h.before hends

theorem record_of_refusedAt {i : Nat} {t : Text} (h : RefusedAt supply outcomes i t) :
    (record supply (outcomes.map Outcome.answer)).Ends
      (.error (.fault (.input (Record.refusal t)))) (i / 2) (i + 1) (supplyAt supply (i / 2 + 1))
      ((outcomes.drop (i + 1)).map Outcome.answer) := by
  have hnumber : 2 * (i / 2) + i % 2 = i := by omega
  have hends := record_first_refused (by omega) h.drop
  rw [supplyAt_add, List.drop_drop, ← Nat.add_assoc, hnumber] at hends
  have hrun := record_ends_after h.reached.before hends
  rwa [← Nat.add_assoc, hnumber] at hrun

theorem record_of_exhausted (h : Reached supply outcomes outcomes.length) :
    (record supply (outcomes.map Outcome.answer)).Ends (.error .endOfInput) (outcomes.length / 2)
      (outcomes.length + 1) (supplyAt supply (outcomes.length / 2 + 1)) [] := by
  have hlength : (outcomes.drop (2 * (outcomes.length / 2))).length = outcomes.length % 2 := by
    rw [List.length_drop]
    omega
  have hreached := h.drop
  rw [← hlength] at hreached
  have hends := record_first_ended (by omega) hreached
  rw [supplyAt_add, hlength] at hends
  have hrun := record_ends_after h.before hends
  rwa [show 2 * (outcomes.length / 2) + (outcomes.length % 2 + 1) = outcomes.length + 1 by omega]
    at hrun

end Attempt

def typed (texts : List Text) : List Outcome := texts.map Outcome.typed

theorem typed_getElem?_eq_some_iff {texts : List Text} {i : Nat} {t : Text} :
    (typed texts)[i]? = some (.typed t) ↔ texts[i]? = some t := by
  simp [typed]

theorem typed_getElem? {texts : List Text} {i : Nat} (h : i < texts.length) :
    (typed texts)[i]? = some (.typed texts[i]) :=
  typed_getElem?_eq_some_iff.mpr (List.getElem?_eq_getElem h)

theorem length_typed (texts : List Text) : (typed texts).length = texts.length := List.length_map _

theorem record_cases [Cryptography] (supply : Salt.Supply) (texts : List Text) :
    (∃ k a b p q, AcceptedAt supply (typed texts) k a b p q) ∨
      (∃ i t, RefusedAt supply (typed texts) i t) ∨
      Reached supply (typed texts) (typed texts).length := by
  rcases record_result supply (typed texts) with ⟨k, a, b, p, q, h, -⟩ | ⟨k, ⟨hbefore, hnone⟩, -⟩
  · exact .inl ⟨k, a, b, p, q, h⟩
  · -- It stops at an attempt without two answers to store: one of them is missing or is refused.
    refine .inr ?_
    have hlong := length_of_mismatchedAt hbefore
    rcases Nat.lt_or_ge (2 * k) texts.length with hfirst | hshort
    · by_cases ha : ∃ p, Record.Storable (.text texts[2 * k]) p
      · obtain ⟨p, hp⟩ := ha
        have hanswer := typed_getElem? hfirst
        have hreached := reached_second hbefore hanswer hp
        rcases Nat.lt_or_ge (2 * k + 1) texts.length with hsecond | hshort
        · have hb := typed_getElem? hsecond
          have hrefused := refused_iff.mp fun q hq => hnone _ _ p q ⟨hanswer, hb, hp, hq⟩
          exact .inl ⟨_, _, hreached, hb, hrefused⟩
        · rw [length_typed, show texts.length = 2 * k + 1 by omega]
          exact .inr hreached
      · have hrefused := refused_iff.mp (not_exists.mp ha)
        exact .inl ⟨_, _, reached_first hbefore, typed_getElem? hfirst, hrefused⟩
    · rw [length_typed] at hlong ⊢
      rw [show texts.length = 2 * k by omega]
      exact .inr (reached_first hbefore)

/-! ## The two ways to ask -/

theorem AgreedAt.not_mismatchedAt {supply : Salt.Supply} {outcomes : List Outcome} {j : Nat}
    {password : Text} (h : AgreedAt outcomes j password) : ¬ MismatchedAt supply outcomes j := by
  rintro ⟨a, b, p, q, ⟨ha, hb, hp, hq⟩, hdiffer⟩
  cases h.1.symm.trans ha
  cases h.2.1.symm.trans hb
  have hp := Sha1.hashableAs_text_iff.mp hp.1
  rw [Sha1.hashableAs_text_iff.mp hq.1] at hp
  cases hp
  exact hdiffer rfl

theorem AcceptedAt.octets_ne {supply : Salt.Supply} {outcomes : List Outcome} {j k : Nat}
    {password a b : Text} {p q : Octets} (hagreed : AgreedAt outcomes j password)
    (h : AcceptedAt supply outcomes k a b p q) (hk : k < j) : a ≠ b ∧ p ≠ q := by
  obtain ⟨a', b', hne, ha, hb⟩ := hagreed.2.2 k hk
  cases h.answers.first.symm.trans ha
  cases h.answers.second.symm.trans hb
  refine ⟨hne, ?_⟩
  rintro rfl
  exact hne (Text.utf8?_inj (Sha1.hashableAs_text_iff.mp h.answers.storable_first.1)
    (Sha1.hashableAs_text_iff.mp h.answers.storable_second.1))

theorem exists_acceptedAt_of_agreedAt [Cryptography] (supply : Salt.Supply) {texts : List Text}
    {j : Nat} {password : Text} (hagreed : AgreedAt (typed texts) j password)
    (hstorable : ∀ t ∈ texts.take (2 * (j + 1)),
      ∃ p, Text.utf8? t = some p ∧ 8 + p.length ≤ maxMessageOctets) :
    ∃ k ≤ j, ∃ a b p q, AcceptedAt supply (typed texts) k a b p q ∧ (k < j → a ≠ b ∧ p ≠ q) := by
  -- An attempt that does not match cannot be the one with the same text twice.
  have hreaches {k : Nat} (hbefore : ∀ j < k, MismatchedAt supply (typed texts) j) : k ≤ j :=
    Nat.le_of_not_lt fun hlt => hagreed.not_mismatchedAt (hbefore j hlt)
  rcases record_cases supply texts with ⟨k, a, b, p, q, h⟩ | ⟨i, t, h⟩ | h
  · exact ⟨k, hreaches h.before, a, b, p, q, h, h.octets_ne hagreed⟩
  · have hi : i < 2 * (j + 1) := by
      have hle := hreaches h.reached.before
      omega
    have hanswer := typed_getElem?_eq_some_iff.mp h.answer
    obtain ⟨p, hp, hfits⟩ :=
      hstorable t (List.mem_of_getElem? ((List.getElem?_take_of_lt hi).trans hanswer))
    have := h.refused p hp
    omega
  · have hle := hreaches h.before
    obtain ⟨hlt, -⟩ := List.getElem?_eq_some_iff.mp hagreed.2.1
    omega

def given (texts : List Text) : List Answer := texts.map fun t => .given (.text t)

@[simp] theorem map_answer_typed (texts : List Text) :
    (typed texts).map Outcome.answer = given texts := by
  simp [typed, given, Outcome.answer]

theorem drop_typed (texts : List Text) (n : Nat) : (typed texts).drop n = typed (texts.drop n) :=
  List.map_drop.symm

/-- The record is that of the first attempt whose two texts have the same digest after its salt. A
text that cannot be stored is refused as soon as it is typed; else the input ends. A text that is
typed twice gives a record then or before, and before only for two texts that collide. -/
theorem record_dialogue [Cryptography] (supply : Salt.Supply) (texts : List Text) :
    ((∃ k a b p q, AcceptedAt supply (typed texts) k a b p q) ∨
        (∃ i t, RefusedAt supply (typed texts) i t) ∨
        Reached supply (typed texts) texts.length) ∧
      (∀ k, saltAt supply k = supply.slice (8 * k) 8) ∧
      (∀ k a b p q, AcceptedAt supply (typed texts) k a b p q →
        ∃ kept, (Record.ofPlaintext (.octets (saltAt supply k)) (.text a)).value = .ok kept ∧
          (record supply (given texts)).Ends (.ok kept) k (2 * (k + 1)) (supply.drop (8 * (k + 1)))
            (given (texts.drop (2 * (k + 1))))) ∧
      (∀ i t, RefusedAt supply (typed texts) i t →
        (record supply (given texts)).Ends (.error (.fault (.input (Record.refusal t)))) (i / 2)
          (i + 1) (supply.drop (8 * (i / 2 + 1))) (given (texts.drop (i + 1)))) ∧
      (Reached supply (typed texts) texts.length →
        (record supply (given texts)).Ends (.error .endOfInput) (texts.length / 2)
          (texts.length + 1) (supply.drop (8 * (texts.length / 2 + 1))) []) ∧
      ∀ other j v, (password other (given texts)).result = .ok v →
        (password other (given texts)).asked.length = 2 * (j + 1) →
        (∀ t ∈ texts.take (2 * (j + 1)),
          ∃ p, Text.utf8? t = some p ∧ 8 + p.length ≤ maxMessageOctets) →
          ∃ k ≤ j, ∃ a b p q, AcceptedAt supply (typed texts) k a b p q ∧
            (k < j → a ≠ b ∧ p ≠ q) := by
  simp only [← map_answer_typed, ← drop_typed, ← supplyAt_eq]
  refine ⟨?_, saltAt_eq supply, ?_, ?_, ?_, ?_⟩
  · rw [← length_typed]
    exact record_cases supply texts
  · intro k a b p q h
    have hp := h.answers.storable_first
    exact ⟨_, Record.ofPlaintext_of_hashable (.inl rfl) (length_saltAt supply k) hp.1 hp.2,
      record_of_acceptedAt h⟩
  · intro i t h
    exact record_of_refusedAt h
  · rw [← length_typed]
    exact record_of_exhausted
  · intro other j v hresult hasked hstorable
    obtain ⟨p, -, hagreed⟩ := agreedAt_of_password hresult hasked
    exact exists_acceptedAt_of_agreedAt supply hagreed hstorable

theorem record_dialogue_second_attempt :
    (∃ kept, (record ⟨.linear 1, default⟩ (given ["hunter2", "hunter3", "hunter2", "hunter2"])).Ends
        (.ok kept) 1 4 (Salt.Supply.drop ⟨.linear 1, default⟩ 16) []) ∧
      (∃ k ≤ 1, ∃ a b p q, AcceptedAt ⟨.linear 1, default⟩
        (typed ["hunter2", "hunter3", "hunter2", "hunter2"]) k a b p q) ∧
      (record default (given ["hunter2", [0xD800], "hunter2"])).Ends
        (.error (.fault (.input .plaintextSurrogate))) 0 2 (Salt.Supply.drop default 8)
        (given ["hunter2"]) := by
  let supply : Salt.Supply := ⟨.linear 1, default⟩
  let texts : List Text := ["hunter2", "hunter3", "hunter2", "hunter2"]
  have hstorable : Record.Storable (.text "hunter2") [104, 117, 110, 116, 101, 114, 50] :=
    ⟨Sha1.hashableAs_text_iff.mpr rfl, by decide⟩
  have hother : Record.Storable (.text "hunter3") [104, 117, 110, 116, 101, 114, 51] :=
    ⟨Sha1.hashableAs_text_iff.mpr rfl, by decide⟩
  have haccepted : AcceptedAt supply (typed texts) 1 "hunter2" "hunter2" _ _ := {
    answers := ⟨rfl, rfl, hstorable, hstorable⟩
    same := rfl
    before := by
      intro j hj
      obtain rfl : j = 0 := by omega
      exact ⟨_, _, _, _, ⟨rfl, rfl, hstorable, hother⟩, by decide +kernel⟩ }
  have hrefused : RefusedAt default (typed ["hunter2", [0xD800], "hunter2"]) 1 [0xD800] := {
    reached := reached_second (fun j hj => absurd hj (Nat.not_lt_zero j)) rfl hstorable
    answer := rfl
    refused := fun p hp => nomatch hp }
  obtain ⟨-, -, haccepts, -, -, htwice⟩ := record_dialogue supply texts
  obtain ⟨-, -, -, hrefuses, -⟩ := record_dialogue default ["hunter2", [0xD800], "hunter2"]
  obtain ⟨kept, -, hends⟩ := haccepts 1 _ _ _ _ haccepted
  refine ⟨⟨kept, hends⟩, ?_, hrefuses 1 _ hrefused⟩
  have hshort : ∀ t ∈ texts, ∃ p, Text.utf8? t = some p ∧ 8 + p.length ≤ maxMessageOctets := by
    intro t ht
    simp only [texts, List.mem_cons, List.not_mem_nil, or_false] at ht
    rcases ht with rfl | rfl | rfl | rfl
    all_goals exact ⟨_, rfl, by decide⟩
  obtain ⟨k, hk, a, b, p, q, h, -⟩ := htwice default 1 _ rfl rfl hshort
  exact ⟨k, hk, a, b, p, q, h⟩

/-- A text may have octets, and too many. -/
theorem record_dialogue_oversized :
    (Text.utf8? (List.replicate 2147483644 (CodePoint.ofChar 'é'))).isSome = true ∧
      (record default (given [List.replicate 2147483644 (CodePoint.ofChar 'é')])).Ends
        (.error (.fault (.input .overCeiling))) 0 1 (Salt.Supply.drop default 8) [] := by
  have hclear : CodePoint.isSurrogate (CodePoint.ofChar 'é') = false := by decide
  have hlong : (!CodePoint.isSurrogate (CodePoint.ofChar 'é') &&
      maxMessageOctets < 8 + 2147483644 * (CodePoint.ofChar 'é').utf8.length) = true := by decide
  have hrecord := recordRepeated_eq default 2147483644 (CodePoint.ofChar 'é') []
  rw [recordRepeated, if_pos hlong] at hrecord
  rw [Text.utf8?_replicate hclear, given, List.map_singleton, ← hrecord]
  exact ⟨rfl, rfl, rfl, rfl, rfl, rfl⟩

end SaltedHash.Prompt
