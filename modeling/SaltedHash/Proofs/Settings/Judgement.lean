import Mathlib
import SaltedHash.Proofs.Settings
import SaltedHash.Proofs.Settings.Priority

/-!
# Fields are judged alone

What becomes of a field is settled by the one value that is chosen for it. The settings are made if all
fields have a value, and else the fields without one are reported.
-/

namespace SaltedHash.Settings

/-! ## What becomes of a field -/

def Field.Value : Field → Type
  | logLevel => Text
  | saltLength => Int
  | saltSource => SaltSource
  | saltSeed => Option Int
  | readChunkSize => Int

def Field.get (s : Settings) : (field : Field) → field.Value
  | logLevel => s.logLevel
  | saltLength => s.saltLength
  | saltSource => s.saltSource
  | saltSeed => s.saltSeed
  | readChunkSize => s.readChunkSize

def fields : List Field := [.logLevel, .saltLength, .saltSource, .saltSeed, .readChunkSize]

namespace Library

variable (lib : Library)

def rule : (field : Field) → Datum → Except Problem field.Value
  | .logLevel => lib.text
  | .saltLength => lib.saltLengthOf
  | .saltSource => sourceOf
  | .saltSeed => lib.seedOf
  | .readChunkSize => lib.chunkSizeOf

/-- The default if nothing is given, else what the rule of the field makes of it. -/
def outcome (field : Field) (given : Option Datum) : Except Problem field.Value :=
  resolve (lib.rule field) (field.get default) given

variable {lib}

theorem ofGiven_eq_ok_iff_outcome {given : Given} {s : Settings} :
    lib.ofGiven given = .ok s ↔ ∀ field : Field, lib.outcome field (given field) = .ok (field.get s) := by
  rw [ofGiven_eq_ok_iff]
  constructor
  · rintro ⟨hlevel, hlength, hsource, hseed, hsize⟩ field
    cases field with
    | logLevel => exact hlevel
    | saltLength => exact hlength
    | saltSource => exact hsource
    | saltSeed => exact hseed
    | readChunkSize => exact hsize
  · intro h
    exact ⟨h .logLevel, h .saltLength, h .saltSource, h .saltSeed, h .readChunkSize⟩

theorem exists_ofGiven_iff {given : Given} :
    (∃ s, lib.ofGiven given = .ok s) ↔ ∀ field : Field, (lib.outcome field (given field)).isOk = true := by
  constructor
  · rintro ⟨s, hs⟩ field
    rw [ofGiven_eq_ok_iff_outcome.mp hs field]
    rfl
  · intro h
    have hvalue (field : Field) : ∃ value, lib.outcome field (given field) = .ok value := by
      have hfield := h field
      cases houtcome : lib.outcome field (given field) with
      | ok value => exact ⟨value, rfl⟩
      | error problem =>
        rw [houtcome] at hfield
        cases hfield
    -- The five values make the settings.
    choose value hvalue using hvalue
    let s : Settings :=
      ⟨value .logLevel, value .saltLength, value .saltSource, value .saltSeed, value .readChunkSize⟩
    refine ⟨s, ofGiven_eq_ok_iff_outcome.mpr ?_⟩
    intro field
    rw [hvalue]
    cases field <;> rfl

/-! ## The report -/

def refusals (lib : Library) (given : Given) (these : List Field) : List Refusal :=
  these.flatMap fun field => refusal field (lib.outcome field (given field))

theorem ofGiven_eq_error {given : Given} {found : List Refusal} (h : lib.ofGiven given = .error found) :
    found = lib.refusals given fields := by
  unfold ofGiven at h
  simp only at h
  split at h
  · cases h
  · cases h
    simp only [refusals, fields, List.flatMap_cons, List.flatMap_nil, List.append_nil,
      List.append_assoc]
    rfl

theorem map_field_refusals (given : Given) (these : List Field) :
    (lib.refusals given these).map Refusal.field =
      these.filter fun field => !(lib.outcome field (given field)).isOk := by
  unfold refusals
  induction these with
  | nil => rfl
  | cons field rest ih =>
    rw [List.flatMap_cons, List.map_append, ih, List.filter_cons]
    cases lib.outcome field (given field) with
    | ok value => rfl
    | error problem => rfl

theorem outcome_of_mem_refusals {given : Given} {these : List Field} {r : Refusal}
    (h : r ∈ lib.refusals given these) : lib.outcome r.field (given r.field) = .error r.problem := by
  obtain ⟨field, -, hr⟩ := List.mem_flatMap.mp h
  cases houtcome : lib.outcome field (given field) with
  | ok value =>
    rw [houtcome] at hr
    cases hr
  | error problem =>
    rw [houtcome, refusal, List.mem_singleton] at hr
    rw [hr]
    exact houtcome

end Library

/-! ## All sources -/

end SaltedHash.Settings
