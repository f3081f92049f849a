import Mathlib
import SaltedHash.Proofs.Crypt.Verification
import SaltedHash.Proofs.SelfTest

/-!
# What a self-test finds

A self-test passes exactly if the digests and the verdicts that it is given are the right ones. Else it
reports the first vector that is wrong, and if none is, the first example. That the pieces of a message do not
hash to its known digest is never found, since they have the digest of the whole.
-/

namespace SaltedHash.SelfTest

/-! ## Examples -/

theorem equal_flag_iff {a b : Bool} : (Datum.flag a).equal (.flag b) = true ↔ a = b := by
  cases a <;> cases b <;> simp [Datum.equal, Datum.number?, Datum.Number.equal]

section

variable [Cryptography]

def KnownCrypt.IsRight (e : KnownCrypt) : Prop :=
  ∃ b, e.expected = .flag b ∧ (Crypt.check e.crypt e.plaintext).value = .ok b

def KnownCrypt.Usable (e : KnownCrypt) : Prop :=
  (∃ b, e.expected = .flag b) ∧ e.plaintext ≠ .released

theorem firstExampleFailure_cases {examples : List KnownCrypt}
    (h : ∀ e ∈ examples, e.Usable) (i : Nat) :
    (∀ e ∈ examples, e.IsRight) ∧ (firstExampleFailure i examples).value = .ok none ∨
      ∃ before e, FirstWithout KnownCrypt.IsRight examples before e ∧
        (firstExampleFailure i examples).value =
          .ok (some (cryptFailureReport (i + before.length) e)) := by
  induction examples generalizing i with
  | nil => exact .inl ⟨by simp, rfl⟩
  | cons e rest ih =>
    rw [List.forall_mem_cons] at h
    obtain ⟨⟨⟨b, hb⟩, hkept⟩, hrest⟩ := h
    obtain ⟨answer, hanswer⟩ := Crypt.exists_check hkept e.crypt
    have hright : e.expected.equal (.flag answer) = true ↔ e.IsRight := by
      rw [KnownCrypt.IsRight, hanswer, hb, equal_flag_iff]
      simp [eq_comm]
    unfold firstExampleFailure
    simp only [hanswer]
    by_cases hexpected : e.expected.equal (.flag answer) = true
    · simp only [hexpected, Bool.not_true, Bool.false_eq_true, if_false]
      obtain ⟨hall, hnone⟩ | ⟨before, d, hfirst, hsome⟩ := ih hrest (i + 1)
      · exact .inl ⟨List.forall_mem_cons.mpr ⟨hright.mp hexpected, hall⟩, hnone⟩
      · refine .inr ⟨e :: before, d, hfirst.cons (hright.mp hexpected), ?_⟩
        rw [hsome, List.length_cons, Nat.add_assoc, Nat.add_comm 1]
    · -- This one is wrong, and nothing after it is checked.
      refine .inr ⟨[], e, .head (mt hright.mpr hexpected), ?_⟩
      simp only [hexpected, Bool.not_false, if_true]
      rfl

/-! ## The report -/

/-- The report of a self-test, and its verdict. -/
inductive Reports (vectors : List KnownDigest) (examples : List KnownCrypt) : Report → Bool → Prop where
  | vector {before : List KnownDigest} {v : KnownDigest} {m : Octets}
      (hfirst : FirstWithout KnownDigest.IsRight vectors before v) (hm : v.Of m) :
      Reports vectors examples (failureReport before.length ⟨v, hexOf m, hexOf m⟩) false
  | crypt {before : List KnownCrypt} {e : KnownCrypt} (hvectors : ∀ v ∈ vectors, v.IsRight)
      (hfirst : FirstWithout KnownCrypt.IsRight examples before e) :
      Reports vectors examples (cryptFailureReport (before.length + 1) e) false
  | passed (hvectors : ∀ v ∈ vectors, v.IsRight) (hexamples : ∀ e ∈ examples, e.IsRight) :
      Reports vectors examples (passed vectors.length examples.length) true

section Reports

variable {vectors : List KnownDigest} {examples : List KnownCrypt} {report : Report} {verdict : Bool}

theorem Reports.verdict_iff (h : Reports vectors examples report verdict) :
    verdict = true ↔ (∀ v ∈ vectors, v.IsRight) ∧ ∀ e ∈ examples, e.IsRight := by
  cases h with
  | vector hfirst hm => simpa using fun hall => absurd hall hfirst.not_all
  | crypt hvectors hfirst => simpa using fun _ => hfirst.not_all
  | passed hvectors hexamples => simpa using ⟨hvectors, hexamples⟩

theorem Reports.fault_eq_none (h : Reports vectors examples report verdict)
    (hnamed : ∀ v ∈ vectors, v.Named) (htexts : ∀ e ∈ examples, ∃ t, e.crypt = .text t) :
    report.fault = none := by
  cases h with
  | @vector before v m hfirst hm =>
    obtain ⟨⟨name, hname⟩, digest, hdigest⟩ := hnamed v hfirst.mem
    apply Report.fault_ofLines
    simp only [hname, hdigest, List.forall_mem_cons]
    exact ⟨⟨_, rfl⟩, ⟨_, rfl⟩, ⟨_, rfl⟩, ⟨_, rfl⟩, nofun⟩
  | @crypt before e hvectors hfirst =>
    obtain ⟨t, ht⟩ := htexts e hfirst.mem
    apply Report.fault_ofLines
    simp only [ht, List.forall_mem_singleton]
    exact ⟨_, rfl⟩
  | passed hvectors hexamples => rfl

end Reports

theorem exists_reports {second : Hash} (hsecond : second.MeetsStandard)
    {vectors : List KnownDigest} (hvectors : ∀ v ∈ vectors, ∃ m, v.Of m)
    {examples : List KnownCrypt} (hexamples : ∀ e ∈ examples, e.Usable) :
    ∃ report verdict log, Reports vectors examples report verdict ∧
      validateWith second vectors examples = report.outcome verdict log := by
  obtain ⟨computed, hcomputed, rfl, hright⟩ := generateWith_eq_ok hsecond hvectors
  unfold validateWith
  rw [hcomputed]
  simp only [Except.bind]
  obtain ⟨hall, hnone⟩ | ⟨before, c, hfirst, hsome⟩ := firstVectorFailure_cases hright 0
  · -- All vectors are right, and the examples have the say.
    have hknown : ∀ v ∈ computed.map Computed.vector, v.IsRight := by simpa using hall
    simp only [hnone]
    obtain ⟨hpassed, hvalue⟩ | ⟨before, e, hfirst, hvalue⟩ := firstExampleFailure_cases hexamples 1
    · simp only [hvalue]
      exact ⟨_, _, _, .passed hknown hpassed, rfl⟩
    · simp only [hvalue, Nat.add_comm 1]
      exact ⟨_, _, _, .crypt hknown hfirst, rfl⟩
  · -- A vector is wrong, and the examples are not looked at.
    obtain ⟨after, hsplit⟩ := hfirst.split
    obtain ⟨v, m, hm, rfl⟩ := (hright c (by simp [hsplit])).exists_eq
    have hreport : Reports (computed.map Computed.vector) examples _ false := .vector hfirst.map hm
    rw [List.length_map] at hreport
    simp only [hsome, Nat.zero_add]
    exact ⟨_, _, _, hreport, rfl⟩

/-- A self-test passes exactly if every digest and every verdict is right. Else it reports the first
vector that is wrong, or with none of these the first example; the pieces of a message are never at
fault. -/
theorem validate_reports_first {second : Hash} (hsecond : second.MeetsStandard)
    {vectors : List KnownDigest} (hvectors : ∀ v ∈ vectors, ∃ m, v.Of m) {examples : List KnownCrypt}
    (hexamples : ∀ e ∈ examples, e.Usable) :
    (∃ report verdict, Reports vectors examples report verdict ∧
      (validateWith second vectors examples).stdout = report.text ∧
      (validateWith second vectors examples).value = report.fault.elim (.ok verdict) .error ∧
      (verdict = true ↔ (∀ v ∈ vectors, v.IsRight) ∧ ∀ e ∈ examples, e.IsRight) ∧
      ((∀ v ∈ vectors, v.Named) → (∀ e ∈ examples, ∃ t, e.crypt = .text t) →
        report.fault = none)) ∧
    ∀ v ∈ vectors, ∃ c, compute second v = .ok c ∧
      (isKnown v c.computed = true → badPieces c pieceSizes = .ok none) := by
  constructor
  · obtain ⟨report, verdict, log, hreports, houtcome⟩ := exists_reports hsecond hvectors hexamples
    rw [houtcome]
    exact ⟨report, verdict, hreports, rfl, rfl, hreports.verdict_iff, hreports.fault_eq_none⟩
  · intro v hv
    obtain ⟨m, hm⟩ := hvectors v hv
    refine ⟨_, compute_of hsecond hm, ?_⟩
    intro hknown
    exact badPieces_of hm hknown (by decide)

end

theorem isRight_known {description message digest : String}
    (h : Sha1.digestHex (.octets (octetsOf message)) = .ok digest) :
    (known description message digest).IsRight := by
  rw [HashStream.digestHex_octets] at h
  split_ifs at h
  exact ⟨octetsOf message, rfl, congrArg Datum.text (Except.ok.inj h).symm⟩

theorem examples_usable : ∀ e ∈ examples, e.Usable ∧ ∃ t, e.crypt = .text t := by
  simp [examples, knownMatch, KnownCrypt.Usable]

theorem known_answers_pass :
    Cryptography.reference.MeetsStandard ∧ (∀ v ∈ vectors, ∃ m, v.Of m) ∧
      (∀ e ∈ examples, e.Usable) ∧ (validate vectors examples).value = .ok true := by
  have hstandard : Cryptography.reference.MeetsStandard := Cryptography.plain.meetsStandard
  have husable (v : KnownDigest) (hv : v ∈ vectors) : ∃ m, v.Of m := (vectors_usable v hv).1
  have hexamples (e : KnownCrypt) (he : e ∈ examples) : e.Usable := (examples_usable e he).1
  have hright : ∀ v ∈ vectors, v.IsRight := by
    unfold vectors
    simp only [List.forall_mem_cons, List.not_mem_nil, false_imp_iff, implies_true, and_true]
    refine ⟨isRight_known ?_, isRight_known ?_, isRight_known ?_, isRight_known ?_⟩
    all_goals decide +kernel
  have hmatch : ∀ e ∈ examples, e.IsRight := by
    unfold examples
    simp only [List.forall_mem_cons, List.not_mem_nil, false_imp_iff, implies_true, and_true]
    refine ⟨?_, ?_, ?_, ?_, ?_⟩
    all_goals exact ⟨_, rfl, by decide +kernel⟩
  obtain ⟨⟨report, verdict, hreports, -, hvalue, hverdict, -⟩, -⟩ :=
    validate_reports_first hstandard husable hexamples
  obtain rfl := hverdict.mpr ⟨hright, hmatch⟩
  refine ⟨hstandard, husable, hexamples, hvalue.trans ?_⟩
  cases hreports
  rfl

end SaltedHash.SelfTest
