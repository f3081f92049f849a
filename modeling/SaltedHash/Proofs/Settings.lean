import Mathlib
import SaltedHash.Proofs.Datum.Items
import SaltedHash.Settings.Basic

/-!
# Settings that are accepted

Given values make settings exactly if every field has a value by its own rule. The rules ask less than a
run needs: they know neither the thresholds of the log nor the sizes that a read takes.
-/

namespace SaltedHash.Settings

namespace Library

variable {lib : Library}

theorem ofGiven_eq_ok_iff {given : Given} {s : Settings} :
    lib.ofGiven given = .ok s ↔
      resolve lib.text default.logLevel (given .logLevel) = .ok s.logLevel ∧
        resolve lib.saltLengthOf default.saltLength (given .saltLength) = .ok s.saltLength ∧
        resolve sourceOf default.saltSource (given .saltSource) = .ok s.saltSource ∧
        resolve lib.seedOf default.saltSeed (given .saltSeed) = .ok s.saltSeed ∧
        resolve lib.chunkSizeOf default.readChunkSize (given .readChunkSize) =
          .ok s.readChunkSize := by
  unfold ofGiven
  constructor
  · intro h
    simp only at h
    split at h
    · rename_i hlevel hlength hsource hseed hsize
      cases h
      exact ⟨hlevel, hlength, hsource, hseed, hsize⟩
    · cases h
  · rintro ⟨hlevel, hlength, hsource, hseed, hsize⟩
    simp only [hlevel, hlength, hsource, hseed, hsize]

theorem chunkSizeOf_eq_ok_iff {d : Datum} {n : Int} :
    lib.chunkSizeOf d = .ok n ↔ lib.integer d = .ok n ∧ 0 < n := by
  unfold chunkSizeOf
  simp only [bind_eq_ok_iff, guard_eq_ok_iff, not_le]
  constructor
  · rintro ⟨m, hm, hpos, ⟨⟩⟩
    exact ⟨hm, hpos⟩
  · rintro ⟨hn, hpos⟩
    exact ⟨n, hn, hpos, rfl⟩

theorem exists_ofGiven (htext : ∀ t, lib.text (.text t) = .ok t)
    (hinteger : ∀ n, lib.integer (.integer n) = .ok n) (level : Text) {size : Int} (hpos : 0 < size) :
    ∃ given, lib.ofGiven given =
      .ok { default with logLevel := level, readChunkSize := size } := by
  let given : Given
    | .logLevel => some (.text level)
    | .readChunkSize => some (.integer size)
    | _ => none
  refine ⟨given, ofGiven_eq_ok_iff.mpr ⟨htext level, rfl, rfl, rfl, ?_⟩⟩
  exact chunkSizeOf_eq_ok_iff.mpr ⟨hinteger size, hpos⟩

/-! ## Bounds -/

theorem saltLengthOf_eq_ok_iff {d : Datum} {n : Int} :
    lib.saltLengthOf d = .ok n ↔ lib.integer d = .ok n ∧ 1 ≤ n ∧ n ≤ 16 := by
  unfold saltLengthOf
  simp only [bind_eq_ok_iff, guard_eq_ok_iff, not_lt]
  constructor
  · rintro ⟨m, hm, hleast, hmost, ⟨⟩⟩
    exact ⟨hm, hleast, hmost⟩
  · rintro ⟨hn, hleast, hmost⟩
    exact ⟨n, hn, hleast, hmost, rfl⟩

/-- What holds of the default of a field and of all that its rule accepts holds of its value. -/
theorem of_resolve_eq_ok {α : Type} {P : α → Prop} {rule : Datum → Except Problem α} {fallback a : α}
    {given : Option Datum} (h : resolve rule fallback given = .ok a) (hfallback : P fallback)
    (hrule : ∀ d a, rule d = .ok a → P a) : P a := by
  cases given with
  | none =>
    rw [← Except.ok.inj h]
    exact hfallback
  | some d => exact hrule d a h

theorem readChunkSize_pos {given : Given} {s : Settings} (h : lib.ofGiven given = .ok s) :
    0 < s.readChunkSize := by
  obtain ⟨-, -, -, -, hsize⟩ := ofGiven_eq_ok_iff.mp h
  apply of_resolve_eq_ok hsize (by decide)
  intro d n hn
  exact (chunkSizeOf_eq_ok_iff.mp hn).2

theorem saltLength_bounds {given : Given} {s : Settings} (h : lib.ofGiven given = .ok s) :
    1 ≤ s.saltLength ∧ s.saltLength ≤ 16 := by
  obtain ⟨-, hlength, -⟩ := ofGiven_eq_ok_iff.mp h
  apply of_resolve_eq_ok (P := fun n => 1 ≤ n ∧ n ≤ 16) hlength (by decide)
  intro d n hn
  exact (saltLengthOf_eq_ok_iff.mp hn).2

end Library

end SaltedHash.Settings
