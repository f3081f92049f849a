import Mathlib
import SaltedHash.Prompt

/-!
# Two answers that agree

Answers are taken in pairs. The first pair that is twice the same text gives the password, and
nothing does if the answers end before.
-/

namespace SaltedHash.Prompt

inductive Outcome where
  | typed (text : Text)
  | interrupt
  deriving DecidableEq, Repr

def Outcome.answer : Outcome → Answer
  | typed text => .given (.text text)
  | interrupt => .interrupt

/-- The outcomes with the numbers `2 * k` and `2 * k + 1` are twice the same text, and those before
them are pairs of texts that differ. -/
def AgreedAt (outcomes : List Outcome) (k : Nat) (password : Text) : Prop :=
  outcomes[2 * k]? = some (.typed password) ∧ outcomes[2 * k + 1]? = some (.typed password) ∧
    ∀ j < k, ∃ a b, a ≠ b ∧ outcomes[2 * j]? = some (.typed a) ∧
      outcomes[2 * j + 1]? = some (.typed b)

def Agreed (outcomes : List Outcome) (password : Text) : Prop :=
  ∃ k, AgreedAt outcomes k password

theorem exists_typed_of_agreedAt {outcomes : List Outcome} {k : Nat} {password : Text}
    (h : AgreedAt outcomes k password) :
    ∃ a b rest, outcomes = .typed a :: .typed b :: rest := by
  obtain ⟨a, b, ha, hb⟩ : ∃ a b : Text,
      outcomes[0]? = some (.typed a) ∧ outcomes[1]? = some (.typed b) := by
    obtain ⟨hfirst, hsecond, hbefore⟩ := h
    cases k with
    | zero => exact ⟨password, password, hfirst, hsecond⟩
    | succ k =>
      obtain ⟨a, b, -, ha, hb⟩ := hbefore 0 (Nat.succ_pos k)
      exact ⟨a, b, ha, hb⟩
  match outcomes, ha, hb with
  | _ :: _ :: rest, rfl, rfl => exact ⟨a, b, rest, rfl⟩

theorem agreedAt_zero_iff {a b password : Text} {rest : List Outcome} :
    AgreedAt (.typed a :: .typed b :: rest) 0 password ↔ a = password ∧ b = password := by
  simp [AgreedAt]

theorem agreedAt_succ_iff {a b password : Text} {rest : List Outcome} {k : Nat} :
    AgreedAt (.typed a :: .typed b :: rest) (k + 1) password ↔
      a ≠ b ∧ AgreedAt rest k password := by
  have hshift (j : Nat) : (Outcome.typed a :: .typed b :: rest)[2 * (j + 1)]? = rest[2 * j]? := by
    rw [Nat.mul_add]
    rfl
  have hshift' (j : Nat) :
      (Outcome.typed a :: .typed b :: rest)[2 * (j + 1) + 1]? = rest[2 * j + 1]? := by
    rw [Nat.mul_add]
    rfl
  unfold AgreedAt
  rw [hshift, hshift']
  constructor
  · rintro ⟨hfirst, hsecond, hbefore⟩
    obtain ⟨x, y, hne, hx, hy⟩ := hbefore 0 (Nat.succ_pos k)
    cases hx
    cases hy
    refine ⟨hne, hfirst, hsecond, fun j hj => ?_⟩
    have hlater := hbefore (j + 1) (Nat.succ_lt_succ hj)
    rwa [hshift, hshift'] at hlater
  · rintro ⟨hne, hfirst, hsecond, hbefore⟩
    refine ⟨hfirst, hsecond, fun j hj => ?_⟩
    cases j with
    | zero => exact ⟨a, b, hne, rfl, rfl⟩
    | succ j =>
      rw [hshift, hshift']
      exact hbefore j (Nat.lt_of_succ_lt_succ hj)

/-! ## Asking until two answers agree -/

theorem Agreed.two_le_length {outcomes : List Outcome} {password : Text}
    (h : Agreed outcomes password) : 2 ≤ outcomes.length := by
  obtain ⟨k, hk⟩ := h
  obtain ⟨a, b, rest, rfl⟩ := exists_typed_of_agreedAt hk
  exact Nat.le_add_left 2 rest.length

theorem agreed_cons_cons_iff {a b : Outcome} {rest : List Outcome} {password : Text} :
    Agreed (a :: b :: rest) password ↔
      ∃ s t, a = .typed s ∧ b = .typed t ∧
        (s = password ∧ t = password ∨ s ≠ t ∧ Agreed rest password) := by
  constructor
  · rintro ⟨k, h⟩
    obtain ⟨s, t, rest', hshape⟩ := exists_typed_of_agreedAt h
    simp only [List.cons.injEq] at hshape
    obtain ⟨rfl, rfl, rfl⟩ := hshape
    refine ⟨s, t, rfl, rfl, ?_⟩
    cases k with
    | zero => exact .inl (agreedAt_zero_iff.mp h)
    | succ k =>
      obtain ⟨hne, hlater⟩ := agreedAt_succ_iff.mp h
      exact .inr ⟨hne, k, hlater⟩
  · rintro ⟨s, t, rfl, rfl, hnow | ⟨hne, k, hlater⟩⟩
    · exact ⟨0, agreedAt_zero_iff.mpr hnow⟩
    · exact ⟨k + 1, agreedAt_succ_iff.mpr ⟨hne, hlater⟩⟩

theorem agreed_of_ne_iff {a b : Text} (hne : a ≠ b) {rest : List Outcome} {password : Text} :
    Agreed (.typed a :: .typed b :: rest) password ↔ Agreed rest password := by
  rw [agreed_cons_cons_iff]
  constructor
  · rintro ⟨s, t, ⟨⟩, ⟨⟩, ⟨rfl, rfl⟩ | ⟨-, hlater⟩⟩
    · exact absurd rfl hne
    · exact hlater
  · intro hlater
    exact ⟨a, b, rfl, rfl, .inr ⟨hne, hlater⟩⟩

theorem agreed_twice (password : Text) (rest : List Outcome) :
    Agreed (.typed password :: .typed password :: rest) password :=
  ⟨0, agreedAt_zero_iff.mpr ⟨rfl, rfl⟩⟩

theorem Agreed.unique {outcomes : List Outcome} {p q : Text} (hp : Agreed outcomes p)
    (hq : Agreed outcomes q) : p = q := by
  induction outcomes using List.twoStepInduction with
  | nil => exact absurd hp.two_le_length (Nat.not_succ_le_zero 1)
  | singleton a => exact absurd hp.two_le_length (Nat.not_succ_le_self 1)
  | cons_cons a b rest ih _ =>
    -- The first two answers settle it, or both passwords come later.
    obtain ⟨s, t, rfl, rfl, hnow⟩ := agreed_cons_cons_iff.mp hp
    obtain ⟨s', t', ⟨⟩, ⟨⟩, hnow'⟩ := agreed_cons_cons_iff.mp hq
    rcases hnow with ⟨hs, ht⟩ | ⟨hne, hp⟩
    · rcases hnow' with ⟨hs', -⟩ | ⟨hne, -⟩
      · exact hs.symm.trans hs'
      · exact absurd (hs.trans ht.symm) hne
    · rcases hnow' with ⟨hs', ht'⟩ | ⟨-, hq⟩
      · exact absurd (hs'.trans ht'.symm) hne
      · exact ih hp hq

theorem password_result (supply : Salt.Supply) (outcomes : List Outcome) :
    (∃ p, Agreed outcomes p ∧
        (password supply (outcomes.map Outcome.answer)).result = .ok (.text p)) ∨
      (∀ p, ¬ Agreed outcomes p) ∧
        ((password supply (outcomes.map Outcome.answer)).result = .error .endOfInput ∨
          (password supply (outcomes.map Outcome.answer)).result = .error .interrupted) := by
  -- The loop takes two answers at a time, and so does the induction.
  induction outcomes using List.twoStepInduction with
  | nil => exact .inr ⟨fun _ h => absurd h.two_le_length (Nat.not_succ_le_zero 1), .inl rfl⟩
  | singleton a =>
    refine .inr ⟨fun _ h => absurd h.two_le_length (Nat.not_succ_le_self 1), ?_⟩
    cases a with
    | typed s => exact .inl rfl
    | interrupt => exact .inr rfl
  | cons_cons a b rest ih _ =>
    cases a with
    | interrupt =>
      refine .inr ⟨fun p h => ?_, .inr rfl⟩
      obtain ⟨s, t, hs, -⟩ := agreed_cons_cons_iff.mp h
      cases hs
    | typed s =>
      cases b with
      | interrupt =>
        refine .inr ⟨fun p h => ?_, .inr rfl⟩
        obtain ⟨s, t, -, ht, -⟩ := agreed_cons_cons_iff.mp h
        cases ht
      | typed t =>
        by_cases hsame : s = t
        · subst hsame
          refine .inl ⟨s, agreed_twice s rest, ?_⟩
          simp [password, Outcome.answer, Datum.equal_text, Dialogue.ended]
        · -- The answers differ, and the loop goes on with the rest.
          have hresult : (password supply ((Outcome.typed s :: .typed t :: rest).map
              Outcome.answer)).result = (password supply (rest.map Outcome.answer)).result := by
            simp [password, Outcome.answer, Datum.equal_text, hsame, Dialogue.after]
          simpa only [hresult, agreed_of_ne_iff hsame] using ih

end SaltedHash.Prompt
