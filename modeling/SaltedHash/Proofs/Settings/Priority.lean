import Mathlib
import SaltedHash.Settings.Sources

/-!
# Which source gives a field its value

An argument counts before a variable of the environment, and that before one of the file. A source that
comes later is not looked at, and neither are the entries with other names.
-/

namespace SaltedHash.Settings

/-! ## Entries for a field -/

def Means (tag : Text) (field : Field) (name : Text) : Prop :=
  name.map lower = tag ++ Text.ofString field.name

instance (tag : Text) (field : Field) : DecidablePred (Means tag field) :=
  fun _ => inferInstanceAs (Decidable (_ = _))

section

variable {α : Type} (tag : Text) (field : Field) (entries : List (Text × α))

def Unnamed : Prop := ∀ entry ∈ entries, ¬ Means tag field entry.1

def NamedFirst (x : α) : Prop :=
  ∃ before name after, entries = before ++ (name, x) :: after ∧ Means tag field name ∧
    Unnamed tag field before

def NamedLast (x : α) : Prop :=
  ∃ before name after, entries = before ++ (name, x) :: after ∧ Means tag field name ∧
    Unnamed tag field after

end

variable {α : Type} {tag : Text} {field : Field} {entries : List (Text × α)} {x : α}

theorem lookupFirst_eq_none_iff :
    lookupFirst (tag ++ Text.ofString field.name) entries = none ↔ Unnamed tag field entries := by
  unfold lookupFirst Unnamed Means
  simp

theorem lookupFirst_eq_some_iff :
    lookupFirst (tag ++ Text.ofString field.name) entries = some x ↔
      NamedFirst tag field entries x := by
  unfold lookupFirst NamedFirst Unnamed Means
  simp only [Option.map_eq_some_iff, List.find?_eq_some_iff_append]
  constructor
  · rintro ⟨⟨name, y⟩, ⟨hname, before, after, rfl, hbefore⟩, rfl⟩
    exact ⟨before, name, after, rfl, by simpa using hname, by simpa using hbefore⟩
  · rintro ⟨before, name, after, rfl, hname, hbefore⟩
    exact ⟨(name, x), ⟨by simpa using hname, before, after, rfl, by simpa using hbefore⟩, rfl⟩

theorem unnamed_reverse_iff : Unnamed tag field entries.reverse ↔ Unnamed tag field entries := by
  simp [Unnamed]

theorem namedFirst_reverse_iff :
    NamedFirst tag field entries.reverse x ↔ NamedLast tag field entries x := by
  constructor
  · rintro ⟨after, name, before, hsplit, hname, hafter⟩
    refine ⟨before.reverse, name, after.reverse, ?_, hname, unnamed_reverse_iff.mpr hafter⟩
    rw [← entries.reverse_reverse, hsplit]
    simp
  · rintro ⟨before, name, after, rfl, hname, hafter⟩
    exact ⟨after.reverse, name, before.reverse, by simp, hname, unnamed_reverse_iff.mpr hafter⟩

theorem lookupLast_eq_none_iff :
    lookupLast (tag ++ Text.ofString field.name) entries = none ↔ Unnamed tag field entries := by
  rw [lookupLast, lookupFirst_eq_none_iff, unnamed_reverse_iff]

theorem lookupLast_eq_some_iff :
    lookupLast (tag ++ Text.ofString field.name) entries = some x ↔
      NamedLast tag field entries x := by
  rw [lookupLast, lookupFirst_eq_some_iff, namedFirst_reverse_iff]

/-! ## The value of a field -/

/-- The value that a field has from the first source that names it. A variable without an equals sign has
none. -/
inductive Chosen (arguments : List (Text × Datum)) (environment : List (Text × Text))
    (bindings : List Binding) (field : Field) : Option Datum → Prop where
  | fromArgument {d : Datum} (h : NamedFirst [] field arguments d) :
      Chosen arguments environment bindings field (some d)
  | fromEnvironment {t : Text} (harguments : Unnamed [] field arguments)
      (h : NamedLast variableTag field environment t) :
      Chosen arguments environment bindings field (some (.text t))
  | fromFile {value : Option Text} (harguments : Unnamed [] field arguments)
      (henvironment : Unnamed variableTag field environment)
      (h : NamedLast variableTag field bindings value) :
      Chosen arguments environment bindings field (value.map .text)
  | nowhere (harguments : Unnamed [] field arguments)
      (henvironment : Unnamed variableTag field environment)
      (hfile : Unnamed variableTag field bindings) :
      Chosen arguments environment bindings field none

theorem ofVariables_eq (bindings : List Binding) (field : Field) :
    ofVariables bindings field =
      (lookupLast (variableTag ++ Text.ofString field.name) bindings).bind (Option.map .text) := by
  unfold ofVariables
  cases lookupLast (variableTag ++ Text.ofString field.name) bindings with
  | none => rfl
  | some value => cases value <;> rfl

theorem lookupLast_map (environment : List (Text × Text)) (name : Text) :
    lookupLast name (environment.map fun entry => (entry.1, some entry.2)) =
      (lookupLast name environment).map some := by
  unfold lookupLast lookupFirst
  rw [← List.map_reverse, List.find?_map, Option.map_map, Option.map_map]
  rfl

theorem lookedUp_eq (arguments : List (Text × Datum)) (environment : List (Text × Text))
    (bindings : List Binding) (field : Field) :
    lookedUp arguments environment bindings field =
      (lookupFirst ([] ++ Text.ofString field.name) arguments).or
        (((lookupLast (variableTag ++ Text.ofString field.name) environment).map .text).or
          ((lookupLast (variableTag ++ Text.ofString field.name) bindings).bind (Option.map .text))) := by
  unfold lookedUp
  rw [ofVariables_eq, ofVariables_eq, lookupLast_map]
  cases lookupLast (variableTag ++ Text.ofString field.name) environment <;> rfl

theorem chosen_iff {arguments : List (Text × Datum)} {environment : List (Text × Text)}
    {bindings : List Binding} {field : Field} {d : Option Datum} :
    Chosen arguments environment bindings field d ↔
      d = lookedUp arguments environment bindings field := by
  rw [lookedUp_eq]
  constructor
  · intro h
    cases h with
    | fromArgument h => simp only [lookupFirst_eq_some_iff.mpr h, Option.some_or]
    | fromEnvironment harguments h =>
      simp only [lookupFirst_eq_none_iff.mpr harguments, lookupLast_eq_some_iff.mpr h, Option.none_or,
        Option.map_some, Option.some_or]
    | fromFile harguments henvironment h =>
      simp only [lookupFirst_eq_none_iff.mpr harguments, lookupLast_eq_none_iff.mpr henvironment,
        lookupLast_eq_some_iff.mpr h, Option.none_or, Option.map_none, Option.bind_some]
    | nowhere harguments henvironment hfile =>
      simp only [lookupFirst_eq_none_iff.mpr harguments, lookupLast_eq_none_iff.mpr henvironment,
        lookupLast_eq_none_iff.mpr hfile, Option.none_or, Option.map_none, Option.bind_none]
  · rintro rfl
    cases harguments : lookupFirst ([] ++ Text.ofString field.name) arguments with
    | some d => exact .fromArgument (lookupFirst_eq_some_iff.mp harguments)
    | none =>
      have hunnamed := lookupFirst_eq_none_iff.mp harguments
      cases henvironment : lookupLast (variableTag ++ Text.ofString field.name) environment with
      | some t => exact .fromEnvironment hunnamed (lookupLast_eq_some_iff.mp henvironment)
      | none =>
        have hunset := lookupLast_eq_none_iff.mp henvironment
        cases hfile : lookupLast (variableTag ++ Text.ofString field.name) bindings with
        | some value => exact .fromFile hunnamed hunset (lookupLast_eq_some_iff.mp hfile)
        | none => exact .nowhere hunnamed hunset (lookupLast_eq_none_iff.mp hfile)

/-! ## Libraries that choose so -/

/-- What a library promises of its sources: the first that names a field has the say. -/
structure Library.Documented (lib : Library) : Prop where
  choose_eq : ∀ {arguments environment file field d},
    Chosen arguments environment file field d → lib.choose arguments environment file field = d

theorem documented_usual : usual.Documented where
  choose_eq h := (chosen_iff.mp h).symm

theorem Library.Documented.chosen_iff {lib : Library} (hlib : lib.Documented)
    {arguments : List (Text × Datum)} {environment : List (Text × Text)} {file : List Binding}
    {field : Field} {d : Option Datum} :
    Chosen arguments environment file field d ↔ d = lib.choose arguments environment file field := by
  have hchosen := Settings.chosen_iff.mpr (rfl : lookedUp arguments environment file field = _)
  constructor
  · intro h
    exact (hlib.choose_eq h).symm
  · rintro rfl
    rw [hlib.choose_eq hchosen]
    exact hchosen

end SaltedHash.Settings
