import Mathlib
import SaltedHash.Proofs.Datum.Items
import SaltedHash.Scrub

/-!
# A buffer is wiped however the work on it ends

A step of the work makes a buffer of a buffer, or it fails and the buffer is what it was. So there is a
buffer to wipe when the work is over, the wipe cannot fail, and the failure of the work comes out.
-/

namespace SaltedHash.Scrub

/-! ## Indices and items -/

theorem indexOf_eq_ok_iff {holder : Kind} {index : Datum} {i : Int} :
    indexOf holder index = .ok i ↔ index.integer? = some i ∧ indexFits i = true := by
  unfold indexOf
  cases index.integer? with
  | none => simp
  | some j =>
    simp only [Option.some.injEq]
    split_ifs with hfits
    · rw [Except.ok.injEq]
      constructor
      · rintro rfl
        exact ⟨rfl, hfits⟩
      · exact And.left
    · simp only [false_iff]
      rintro ⟨rfl, h⟩
      exact hfits h

theorem octetOf_eq_ok_iff {item : Datum} {octet : UInt8} :
    octetOf item = .ok octet ↔ item.integer? = some (octet.toNat : Int) := by
  unfold octetOf
  cases item.integer? with
  | none => simp
  | some n =>
    have hlt := octet.toNat_lt
    simp only [Option.some.injEq]
    split_ifs with hrange
    · simp only [false_iff]
      omega
    · have hsmall : n.toNat < 2 ^ 8 := by omega
      rw [Except.ok.injEq, ← UInt8.toNat_inj, UInt8.toNat_ofNat_of_lt' hsmall]
      omega

theorem itemPlace_eq_ok_iff {holder : Kind} {i : Int} {size k : Nat} :
    itemPlace holder i size = .ok k ↔ k < size ∧ (i = k ∨ i + size = k) := by
  unfold itemPlace place?
  by_cases hinside : 0 ≤ place i size ∧ place i size < size
  · simp only [if_pos hinside, Except.ok.injEq]
    unfold place at *
    omega
  · simp only [if_neg hinside, reduceCtorEq, false_iff]
    unfold place at *
    omega

theorem cutOf_eq_ok_iff {index : Datum} {size n : Nat} :
    cutOf index size = .ok n ↔ index = .nothing ∧ n = 0 ∨
      ∃ i, index.integer? = some i ∧ n = (place i size).toNat := by
  unfold cutOf
  split
  · simp [Datum.integer?, Datum.number?, eq_comm]
  · rename_i hsome
    cases index.integer? with
    | none => simpa using fun h => absurd h hsome
    | some i => simpa [eq_comm] using fun h => absurd h hsome

/-! ## One step -/

inductive Step.Makes : Step → Octets → Octets → Prop where
  | look (o : Octets) : Makes .look o o
  | set {index item : Datum} {i : Int} {octet : UInt8} {o : Octets} {k : Nat}
      (hindex : index.integer? = some i) (hfits : indexFits i = true)
      (hitem : item.integer? = some (octet.toNat : Int)) (hk : k < o.length)
      (hplace : i = k ∨ i + o.length = k) : Makes (.set index item) o (o.set k octet)
  | extend {hex : Text} {added : Octets} (o : Octets) (h : Hex.decode hex = .ok added) :
      Makes (.extend hex) o (o ++ added)
  | truncate {index : Datum} {i : Int} (o : Octets) (hindex : index.integer? = some i) :
      Makes (.truncate index) o (o.take (place i o.length).toNat)
  | clear (o : Octets) : Makes (.truncate .nothing) o []

theorem setItem_buffer_eq_ok_iff {o : Octets} {index item value : Datum} :
    setItem (.buffer o) index item = .ok value ↔
      ∃ next, (Step.set index item).Makes o next ∧ value = .buffer next := by
  simp only [setItem, bind_eq_ok_iff, indexOf_eq_ok_iff, octetOf_eq_ok_iff, itemPlace_eq_ok_iff]
  constructor
  · rintro ⟨i, ⟨hindex, hfits⟩, octet, hitem, k, ⟨hk, hplace⟩, ⟨⟩⟩
    exact ⟨_, .set hindex hfits hitem hk hplace, rfl⟩
  · rintro ⟨next, hnext, rfl⟩
    cases hnext with
    | set hindex hfits hitem hk hplace =>
      exact ⟨_, ⟨hindex, hfits⟩, _, hitem, _, ⟨hk, hplace⟩, rfl⟩

theorem truncateAt_buffer_eq_ok_iff {o : Octets} {index value : Datum} :
    truncateAt (.buffer o) index = .ok value ↔
      ∃ next, (Step.truncate index).Makes o next ∧ value = .buffer next := by
  simp only [truncateAt, map_eq_ok_iff, cutOf_eq_ok_iff]
  constructor
  · rintro ⟨n, ⟨rfl, rfl⟩ | ⟨i, hindex, rfl⟩, rfl⟩
    · exact ⟨_, .clear o, rfl⟩
    · exact ⟨_, .truncate o hindex, rfl⟩
  · rintro ⟨next, hnext, rfl⟩
    cases hnext with
    | truncate o hindex => exact ⟨_, .inr ⟨_, hindex, rfl⟩, rfl⟩
    | clear o => exact ⟨0, .inl ⟨rfl, rfl⟩, rfl⟩

theorem Step.run_buffer_eq_ok_iff {step : Step} {o : Octets} {value : Datum} :
    step.run (.buffer o) = .ok value ↔ ∃ next, step.Makes o next ∧ value = .buffer next := by
  cases step with
  | look =>
    simp only [run, Except.ok.injEq]
    constructor
    · rintro rfl
      exact ⟨o, .look o, rfl⟩
    · rintro ⟨next, ⟨⟩, rfl⟩
      rfl
  | set index item => exact setItem_buffer_eq_ok_iff
  | extend hex =>
    simp only [run]
    constructor
    · intro h
      split at h
      · rename_i added hadded
        cases h
        exact ⟨_, .extend o hadded, rfl⟩
      · cases h
    · rintro ⟨next, hnext, rfl⟩
      cases hnext with
      | extend o hadded => rw [hadded]; rfl
  | truncate index => exact truncateAt_buffer_eq_ok_iff
  | raise text =>
    simp only [run, reduceCtorEq, false_iff]
    rintro ⟨next, ⟨⟩, -⟩

/-! ## All of the work -/

/-- How some work on the octets in a buffer goes. It is over at the first step that fails. -/
inductive Goes : Octets → List Step → List Octets → Octets → Option Fault → Prop where
  | done (o : Octets) : Goes o [] [] o none
  | step {step : Step} {rest : List Step} {o next left : Octets} {inside : List Octets}
      {failure : Option Fault} (hmakes : step.Makes o next)
      (hrest : Goes next rest inside left failure) :
      Goes o (step :: rest) (next :: inside) left failure
  | stop {step : Step} {o : Octets} {cause : Fault} (rest : List Step)
      (hfails : step.run (.buffer o) = .error cause) : Goes o (step :: rest) [] o (some cause)

theorem exists_goes (o : Octets) (steps : List Step) :
    ∃ inside left failure, Goes o steps inside left failure ∧
      work (.buffer o) steps = ⟨inside, .buffer left, failure⟩ := by
  induction steps generalizing o with
  | nil => exact ⟨[], o, none, .done o, rfl⟩
  | cons step rest ih =>
    unfold work
    cases hrun : step.run (.buffer o) with
    | error cause =>
      -- The buffer is as it was, and no later step is run.
      exact ⟨[], o, some cause, .stop rest hrun, rfl⟩
    | ok value =>
      obtain ⟨next, hmakes, rfl⟩ := Step.run_buffer_eq_ok_iff.mp hrun
      obtain ⟨inside, left, failure, hgoes, hwork⟩ := ih next
      refine ⟨next :: inside, left, failure, .step hmakes hgoes, ?_⟩
      simp only [Datum.toOctets, hwork]

/-- Work on a buffer shows the same and fails alike when the buffer is scrubbed after it, and what
is left are zeros, as many as the octets that the work left. -/
theorem scrubbed_buffer (o : Octets) (steps : List Step) :
    ∃ inside left failure, Goes o steps inside left failure ∧
      work (.buffer o) steps = ⟨inside, .buffer left, failure⟩ ∧
      scrubbed (.buffer o) steps = ⟨inside, .buffer (List.replicate left.length 0), failure⟩ := by
  obtain ⟨inside, left, failure, hgoes, hwork⟩ := exists_goes o steps
  refine ⟨inside, left, failure, hgoes, hwork, ?_⟩
  unfold scrubbed
  rw [hwork]
  rfl

end SaltedHash.Scrub
