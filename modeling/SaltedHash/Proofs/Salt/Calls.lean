import Mathlib
import SaltedHash.Host
import SaltedHash.Proofs.Crypt.Capacity
import SaltedHash.Proofs.Salt.Draws

/-!
# Calls that share their sources

Calls ask for salts, and for strings with new salts. Some are handed a source, and those without one
share a source that the settings choose. Whatever the calls and whatever becomes of them, their salts are
slices of one sequence of octets for each source, one after another with no gap between them.
-/

namespace SaltedHash.Salt

/-! ## Calls -/

inductive Tap where
  | handed | shared
  deriving DecidableEq

inductive Task where
  | salt (length : Datum)
  | crypt (plaintext room length : Datum)

structure Call where
  tap : Tap
  task : Task

inductive Answer where
  | salt (result : Except Fault Octets)
  | crypt (result : Except Fault (Option Text))

structure Callers where
  handed : Source
  host : Host

namespace Callers

def source? (s : Callers) : Tap → Except Fault Source
  | .handed => .ok s.handed
  | .shared => s.host.sharedSource.value

def perform (s : Callers) (call : Call) : Answer × Callers :=
  match call.tap, call.task with
  | .handed, .salt length =>
    let (result, supply) := generate length ⟨s.handed, s.host.system⟩
    (.salt result, ⟨supply.source, s.host.drawn supply⟩)
  | .handed, .crypt plaintext room length =>
    let made := s.host.makeCrypt plaintext room length (some s.handed)
    (.crypt made.result.value, ⟨made.source.getD s.handed, made.host⟩)
  | .shared, .salt length =>
    match s.host.sharedSource.value with
    | .error cause => (.salt (.error cause), s)
    | .ok source =>
      let (result, supply) := generate length ⟨source, s.host.system⟩
      (.salt result, { s with host := { s.host.drawn supply with shared := some supply.source } })
  | .shared, .crypt plaintext room length =>
    let made := s.host.makeCrypt plaintext room length none
    (.crypt made.result.value, { s with host := made.host })

def run (s : Callers) (calls : List Call) : Callers :=
  calls.foldl (fun s call => (s.perform call).2) s

end Callers

/-! ## What calls draw and answer -/

def saltDraws (length : Datum) : Nat := (length.integer?.getD 0).toNat

def cryptDraws (length : Datum) : Nat := if saltDraws length ≤ 16 then saltDraws length else 0

def lengthOr (usual : Int) (length : Datum) : Datum :=
  match length with
  | .nothing => .integer usual
  | length => length

namespace Task

def draws (usual : Int) : Task → Nat
  | salt length => saltDraws length
  | crypt _ _ length => cryptDraws (lengthOr usual length)

/-- The answer to a task once it has its salt. A length is refused by its name, unless that has too
many digits. -/
def Gives (usual : Int) (octets : Octets) : Task → Answer → Prop
  | salt length, answer =>
    ∀ n, length.integer? = some n →
      answer = .salt (if 0 ≤ n then .ok octets else .error (length.naming .negativeSalt))
  | crypt plaintext room length, answer =>
    ∀ n, (lengthOr usual length).integer? = some n →
      answer = .crypt (if 1 ≤ n ∧ n ≤ 16 then (Crypt.create plaintext (.octets octets) room).value
        else if (lengthOr usual length).IsLong then .error .tooManyDigits else .ok none) ∧
      ∀ t, answer = .crypt (.ok (some t)) →
        ∃ payload, Crypt.payload? t = some payload ∧ payload.drop 20 = octets

end Task

theorem generate_of_integer {length : Datum} {n : Int} (h : length.integer? = some n)
    (supply : Supply) :
    generate length supply =
      (if 0 ≤ n then .ok (supply.slice 0 n.toNat) else .error (length.naming .negativeSalt),
        supply.drop n.toNat) := by
  unfold generate
  rw [Datum.integer?_eq_some_iff.mp h]
  by_cases hn : 0 ≤ n
  · simp [Datum.Number.below, hn, not_lt.mpr hn, Supply.salt_eq]
  · have hzero : n.toNat = 0 := by omega
    simp [Datum.Number.below, hn, not_le.mp hn, hzero]
    rfl

theorem generate_snd (length : Datum) (supply : Supply) :
    (generate length supply).2 = supply.drop (saltDraws length) := by
  unfold saltDraws
  cases hinteger : length.integer? with
  | some n =>
    rw [generate_of_integer hinteger]
    rfl
  | none =>
    unfold generate
    cases hnumber : length.number? with
    | none => rfl
    | some number =>
      cases number with
      | whole n => simp [Datum.integer?, hnumber] at hinteger
      | real x =>
        -- A number with a point is refused one way or another, and nothing is drawn.
        simp only
        split <;> rfl

/-! ## Strings with a new salt -/

theorem allowsLength_of_integer {length : Datum} {n : Int} (h : length.integer? = some n) :
    Crypt.allowsLength length = .ok (decide (1 ≤ n ∧ n ≤ 16)) := by
  rw [← Crypt.allowsLength_integer]
  unfold Crypt.allowsLength
  rw [Datum.integer?_eq_some_iff.mp h]
  rfl

theorem cryptDraws_eq (length : Datum) :
    cryptDraws length = if Crypt.allowsLength length = .ok true then saltDraws length else 0 := by
  unfold cryptDraws saltDraws
  cases hinteger : length.integer? with
  | none => simp
  | some n =>
    rw [allowsLength_of_integer hinteger]
    simp only [Option.getD_some, Except.ok.injEq, decide_eq_true_eq]
    split_ifs <;> omega

theorem createFresh_of_allowed {length : Datum} (h : Crypt.allowsLength length = .ok true)
    (plaintext room : Datum) (supply : Supply) :
    (Crypt.createFresh plaintext room length supply).supply = supply.drop (cryptDraws length) := by
  rw [cryptDraws_eq, if_pos h, ← generate_snd]
  unfold Crypt.createFresh
  simp only [h]
  split
  · rename_i hgenerate
    rw [hgenerate]
  · rename_i hgenerate
    rw [hgenerate]

theorem createFresh_of_not_allowed {length : Datum} (h : Crypt.allowsLength length ≠ .ok true)
    (plaintext room : Datum) (supply : Supply) :
    (Crypt.createFresh plaintext room length supply).supply = supply := by
  unfold Crypt.createFresh
  split
  · rfl
  · rfl
  · exact absurd ‹_› h

theorem createFresh_supply (plaintext room length : Datum) (supply : Supply) :
    (Crypt.createFresh plaintext room length supply).supply = supply.drop (cryptDraws length) := by
  by_cases hallowed : Crypt.allowsLength length = .ok true
  · exact createFresh_of_allowed hallowed plaintext room supply
  · rw [createFresh_of_not_allowed hallowed, cryptDraws_eq, if_neg hallowed]
    rfl

theorem createFresh_of_integer {length : Datum} {n : Int} (h : length.integer? = some n)
    (plaintext room : Datum) (supply : Supply) :
    (Crypt.createFresh plaintext room length supply).result.value =
      if 1 ≤ n ∧ n ≤ 16 then
        (Crypt.create plaintext (.octets (supply.slice 0 (cryptDraws length))) room).value
      else if length.IsLong then .error .tooManyDigits else .ok none := by
  have hallowed := allowsLength_of_integer h
  by_cases hrange : 1 ≤ n ∧ n ≤ 16
  · rw [decide_eq_true hrange] at hallowed
    have hdraws : cryptDraws length = n.toNat := by
      rw [cryptDraws_eq, if_pos hallowed, saltDraws, h]
      rfl
    simp only [Crypt.createFresh, hallowed, generate_of_integer h, if_pos hrange, hdraws,
      if_pos (by omega : 0 ≤ n)]
  · rw [decide_eq_false hrange] at hallowed
    simp only [Crypt.createFresh, hallowed, if_neg hrange]
    split_ifs with hlong
    · rw [Datum.display_of_isLong hlong]
      rfl
    · obtain ⟨text, htext⟩ := Datum.exists_display (Datum.integer?_eq_some_iff.mp h) hlong
      rw [htext]
      rfl

theorem payload?_of_create {plaintext room : Datum} {octets : Octets} {t : Text}
    (h : (Crypt.create plaintext (.octets octets) room).value = .ok (some t)) :
    ∃ payload, Crypt.payload? t = some payload ∧ payload.drop 20 = octets := by
  obtain ⟨-, s, p, -, -, -, hs, -, -, -, rfl⟩ := Crypt.create_eq_some_iff.mp h
  obtain rfl : octets = s := Except.ok.inj hs
  obtain ⟨payload, hpayload, -, hsalt⟩ := Crypt.payload?_written_parts octets p
  exact ⟨payload, hpayload, hsalt⟩

theorem gives_crypt (usual : Int) (plaintext room length : Datum) (supply : Supply) :
    (Task.crypt plaintext room length).Gives usual
      (supply.slice 0 (cryptDraws (lengthOr usual length)))
      (.crypt (Crypt.createFresh plaintext room (lengthOr usual length) supply).result.value) := by
  intro n hn
  rw [createFresh_of_integer hn]
  refine ⟨rfl, ?_⟩
  intro t ht
  split_ifs at ht with hrange
  · exact payload?_of_create (by simpa using ht)
  · simp at ht
  · simp at ht

theorem gives_salt (usual : Int) (length : Datum) (supply : Supply) :
    (Task.salt length).Gives usual (supply.slice 0 (saltDraws length))
      (.salt (generate length supply).1) := by
  intro n hn
  rw [generate_of_integer hn, saltDraws, hn]
  rfl

/-! ## What one call takes -/

namespace Callers

/-- A state is what another one becomes by some draws at a tap. -/
structure Moves (s s' : Callers) (tap : Tap) (n : Nat) : Prop where
  source : ∀ source, s.source? tap = .ok source → s'.source? tap = .ok (source.skip n)
  system : ∀ source, s.source? tap = .ok source →
    s'.host.system = (Supply.drop ⟨source, s.host.system⟩ n).system
  others : ∀ other ≠ tap, s'.source? other = s.source? other
  settings : s'.host.settings = s.host.settings

theorem moves_refl (s : Callers) (tap : Tap) : s.Moves s tap 0 where
  source source h := by rw [h, Source.skip_zero]
  system _ _ := rfl
  others _ _ := rfl
  settings := rfl

theorem moves_handed (s : Callers) {supply : Supply} {n : Nat}
    (h : supply = Supply.drop ⟨s.handed, s.host.system⟩ n) :
    s.Moves ⟨supply.source, s.host.drawn supply⟩ .handed n where
  source := by
    rintro source ⟨⟩
    rw [h]
    exact congrArg Except.ok (Supply.source_drop _ _ n)
  system := by
    rintro source ⟨⟩
    rw [h]
    rfl
  others
    | .handed, hne => absurd rfl hne
    | .shared, _ => rfl
  settings := rfl

theorem moves_shared {s : Callers} {source : Source} (hsource : s.source? .shared = .ok source)
    {supply : Supply} {n : Nat} (h : supply = Supply.drop ⟨source, s.host.system⟩ n) :
    s.Moves { s with host := { s.host.drawn supply with shared := some supply.source } } .shared
      n where
  source := by
    intro source' hsource'
    obtain rfl : source = source' := Except.ok.inj (hsource.symm.trans hsource')
    rw [h]
    exact congrArg Except.ok (Supply.source_drop _ _ n)
  system := by
    intro source' hsource'
    obtain rfl : source = source' := Except.ok.inj (hsource.symm.trans hsource')
    rw [h]
    rfl
  others
    | .handed, _ => rfl
    | .shared, hne => absurd rfl hne
  settings := rfl

end Callers

theorem makeCrypt_none {h : Host} {source : Source} (hsource : h.sharedSource.value = .ok source)
    (plaintext room length : Datum) :
    let effective := lengthOr h.settings.saltLength length
    let made := h.makeCrypt plaintext room length none
    (Crypt.allowsLength effective = .ok true →
      let fresh := Crypt.createFresh plaintext room effective ⟨source, h.system⟩
      made.result.value = fresh.result.value ∧
        made.host = { h.drawn fresh.supply with shared := some fresh.supply.source }) ∧
    (Crypt.allowsLength effective ≠ .ok true →
      made.result = (Crypt.createFresh plaintext room effective ⟨.system, h.system⟩).result ∧
        made.host = h) := by
  intro effective made
  have heffective : effective = lengthOr h.settings.saltLength length := rfl
  have hmade : made = h.makeCrypt plaintext room length none := rfl
  unfold Host.makeCrypt at hmade
  clear_value effective made
  -- Either way to the length, it is the same that is judged and drawn by.
  cases length
  all_goals
    dsimp only [lengthOr] at heffective
    dsimp only at hmade
    rw [← heffective] at hmade
    constructor
    · intro hallowed
      simp only [hallowed, hsource] at hmade
      rw [hmade]
      exact ⟨rfl, rfl⟩
    · intro hallowed
      split at hmade
      · exact absurd ‹_› hallowed
      · rw [hmade]
        exact ⟨rfl, rfl⟩

theorem Callers.perform_moves {s : Callers} {call : Call} {source : Source}
    (h : s.source? call.tap = .ok source) :
    let usual := s.host.settings.saltLength
    let n := call.task.draws usual
    call.task.Gives usual (Supply.slice ⟨source, s.host.system⟩ 0 n) (s.perform call).1 ∧
      s.Moves (s.perform call).2 call.tap n := by
  intro usual n
  obtain ⟨tap, task⟩ := call
  cases tap with
  | handed =>
    obtain rfl : s.handed = source := Except.ok.inj h
    cases task with
    | salt length =>
      exact ⟨gives_salt usual length _, s.moves_handed (generate_snd length _)⟩
    | crypt plaintext room length =>
      exact ⟨gives_crypt usual plaintext room length _,
        s.moves_handed (createFresh_supply plaintext room _ _)⟩
  | shared =>
    have hshared : s.host.sharedSource.value = .ok source := h
    cases task with
    | salt length =>
      simp only [perform, hshared]
      exact ⟨gives_salt usual length _, moves_shared h (generate_snd length _)⟩
    | crypt plaintext room length =>
      obtain ⟨hyes, hno⟩ := makeCrypt_none hshared plaintext room length
      by_cases hallowed : Crypt.allowsLength (lengthOr usual length) = .ok true
      · obtain ⟨hvalue, hhost⟩ := hyes hallowed
        simp only [perform, hvalue, hhost]
        exact ⟨gives_crypt usual plaintext room length _,
          moves_shared h (createFresh_supply plaintext room _ _)⟩
      · -- Nothing is drawn, and no source comes to be shared.
        obtain ⟨hresult, hhost⟩ := hno hallowed
        have hzero : cryptDraws (lengthOr usual length) = 0 := by
          rw [cryptDraws_eq, if_neg hallowed]
        have hgives := gives_crypt usual plaintext room length ⟨.system, s.host.system⟩
        have hn : n = 0 := hzero
        rw [hzero] at hgives
        simp only [perform, hresult, hhost, hn]
        exact ⟨hgives, s.moves_refl .shared⟩

/-! ## What many calls take -/

structure Taps where
  handed : Source
  shared : Source
  system : Stream

namespace Taps

def source (t : Taps) : Tap → Source
  | .handed => t.handed
  | .shared => t.shared

def supply (t : Taps) (tap : Tap) : Supply := ⟨t.source tap, t.system⟩

def joined (t : Taps) (a b : Tap) : Bool :=
  a == b || (t.source a).isSystem && (t.source b).isSystem

theorem joined_iff {t : Taps} {a b : Tap} :
    t.joined a b = true ↔ a = b ∨ t.source a = .system ∧ t.source b = .system := by
  simp only [joined, Bool.or_eq_true, beq_iff_eq, Bool.and_eq_true, Source.isSystem_iff]

/-- The draws that calls have taken from the sequence of a tap. -/
def gone (t : Taps) (usual : Int) (calls : List Call) (tap : Tap) : Nat :=
  ((calls.filter fun call => t.joined call.tap tap).map fun call => call.task.draws usual).sum

/-- What is left of the sources when each sequence has lost some draws from its beginning. -/
structure Left (t : Taps) (usual : Int) (gone : Tap → Nat) (s : Callers) : Prop where
  source : ∀ tap, s.source? tap = .ok ((t.source tap).skip (gone tap))
  system : ∀ tap, t.source tap = .system → s.host.system = t.system.skip (gone tap)
  usual : s.host.settings.saltLength = usual

variable {t : Taps} {usual : Int} {gone : Tap → Nat} {s : Callers}

theorem slice_of_left (h : t.Left usual gone s) (tap : Tap) (n : Nat) :
    Supply.slice ⟨(t.source tap).skip (gone tap), s.host.system⟩ 0 n =
      (t.supply tap).slice (gone tap) n := by
  by_cases hsystem : t.source tap = .system
  · have hskip : Source.system.skip (gone tap) = .system := rfl
    rw [supply, h.system tap hsystem, hsystem, hskip, ← Supply.drop_system, Supply.slice_drop,
      Nat.add_zero]
  · rw [← Supply.drop_of_ne _ hsystem, Supply.slice_drop, Nat.add_zero, Supply.slice,
      Supply.slice, supply]
    simp only [Supply.draw_congr hsystem s.host.system t.system]

theorem left_perform (h : t.Left usual gone s) (call : Call) :
    t.Left usual
      (fun tap => gone tap + if t.joined call.tap tap then call.task.draws usual else 0)
      (s.perform call).2 := by
  have hmoves := (Callers.perform_moves (h.source call.tap)).2
  rw [h.usual] at hmoves
  constructor
  · intro tap
    by_cases htap : tap = call.tap
    · subst htap
      simp [hmoves.source _ (h.source call.tap), joined]
    · rw [hmoves.others tap htap, h.source tap]
      split_ifs with hjoined
      · -- Then both taps are the system's, whose source stays as it is.
        obtain ⟨-, hsystem⟩ := (joined_iff.mp hjoined).resolve_left (Ne.symm htap)
        rw [hsystem]
        rfl
      · rfl
  · intro tap hsystem
    rw [hmoves.system _ (h.source call.tap)]
    by_cases hcall : t.source call.tap = .system
    · -- Both draw from the system.
      have hjoined : t.joined call.tap tap = true := joined_iff.mpr (.inr ⟨hcall, hsystem⟩)
      have hskip : (t.source call.tap).skip (gone call.tap) = .system := by
        rw [hcall]
        rfl
      rw [hskip, Supply.drop_system, h.system tap hsystem, if_pos hjoined, Stream.skip_skip]
    · -- The call leaves the system alone.
      have hjoined : ¬ t.joined call.tap tap = true := by
        rw [joined_iff]
        rintro (rfl | ⟨hboth, -⟩)
        · exact hcall hsystem
        · exact hcall hboth
      have hskip : (t.source call.tap).skip (gone call.tap) ≠ .system := by simpa using hcall
      rw [Supply.drop_of_ne _ hskip, h.system tap hsystem, if_neg hjoined, Nat.add_zero]
  · rw [hmoves.settings, h.usual]

theorem gone_concat (calls : List Call) (call : Call) (tap : Tap) :
    t.gone usual (calls ++ [call]) tap =
      t.gone usual calls tap + if t.joined call.tap tap then call.task.draws usual else 0 := by
  unfold Taps.gone
  split_ifs with hjoined <;> simp [List.filter_append, hjoined]

theorem left_run (h : t.Left usual (fun _ => 0) s) (calls : List Call) :
    t.Left usual (t.gone usual calls) (s.run calls) := by
  induction calls using List.reverseRecOn with
  | nil => exact h
  | append_singleton calls call ih =>
    have hrun : s.run (calls ++ [call]) = ((s.run calls).perform call).2 := by
      simp [Callers.run]
    rw [hrun, funext (gone_concat calls call)]
    exact left_perform ih call

end Taps

/-! ## Salts one after another -/

theorem generate_append (supply : Supply) {a b : Int} (ha : 0 ≤ a) (hb : 0 ≤ b) :
    ∃ x y, generate (.integer a) supply = (.ok x, supply.drop a.toNat) ∧
      generate (.integer b) (supply.drop a.toNat) = (.ok y, supply.drop (a + b).toNat) ∧
      generate (.integer (a + b)) supply = (.ok (x ++ y), supply.drop (a + b).toNat) := by
  have hsum : (a + b).toNat = a.toNat + b.toNat := Int.toNat_add ha hb
  refine ⟨supply.slice 0 a.toNat, supply.slice a.toNat b.toNat, ?_, ?_, ?_⟩
  · rw [generate_of_integer rfl, if_pos ha]
  · rw [generate_of_integer rfl, if_pos hb, Supply.slice_drop, Supply.drop_drop, hsum, Nat.add_zero]
  · have happend := supply.slice_append 0 a.toNat b.toNat
    rw [Nat.zero_add] at happend
    rw [generate_of_integer rfl, if_pos (by omega), hsum, happend]

/-- After any calls each sequence of draws has lost, from its beginning, the draws of the calls on
it, and the next call answers with the octets of those that follow. -/
theorem salts_are_slices (handed : Source) {shared : Source} {h : Host}
    (hshared : h.sharedSource.value = .ok shared) (calls : List Call) (call : Call) :
    let t : Taps := ⟨handed, shared, h.system⟩
    let usual := h.settings.saltLength
    let s := Callers.run ⟨handed, h⟩ calls
    t.Left usual (t.gone usual calls) s ∧
      call.task.Gives usual
        ((t.supply call.tap).slice (t.gone usual calls call.tap) (call.task.draws usual))
        (s.perform call).1 ∧
      (∀ tap script, t.source tap = .scripted script →
        ∀ i, (t.supply tap).draw i = script.item (script.taken + i)) ∧
      (∀ draw, ((octetOf draw).toNat : Int) = draw % 96 + 0x20 ∧
        0x20 ≤ octetOf draw ∧ octetOf draw ≤ 0x7F) ∧
      ∀ (supply : Supply) (a b : Int), 0 ≤ a → 0 ≤ b →
        ∃ x y, generate (.integer a) supply = (.ok x, supply.drop a.toNat) ∧
          generate (.integer b) (supply.drop a.toNat) = (.ok y, supply.drop (a + b).toNat) ∧
          generate (.integer (a + b)) supply = (.ok (x ++ y), supply.drop (a + b).toNat) := by
  intro t usual s
  have hstart : t.Left usual (fun _ => 0) ⟨handed, h⟩ := by
    refine ⟨?_, fun _ _ => rfl, rfl⟩
    rintro (_ | _)
    · exact congrArg Except.ok handed.skip_zero.symm
    · exact hshared.trans (congrArg Except.ok shared.skip_zero.symm)
  have hleft := Taps.left_run hstart calls
  obtain ⟨hgives, -⟩ := Callers.perform_moves (hleft.source call.tap)
  rw [hleft.usual, Taps.slice_of_left hleft] at hgives
  refine ⟨hleft, hgives, ?_, fun draw => ⟨toNat_octetOf draw, octetOf_bounds draw⟩,
    fun supply a b ha hb => generate_append supply ha hb⟩
  intro tap script hscript i
  rw [Taps.supply, hscript, Supply.draw_scripted]

theorem salts_of_a_countdown :
    let h : Host := ⟨Settings.default, .whole 0, .cycle [], none⟩
    let countdown : Source := .scripted ⟨fun i => -i, 0⟩
    h.sharedSource.value = .ok .system ∧
      (Callers.perform (Callers.run ⟨countdown, h⟩
          [⟨.handed, .salt (.integer 2)⟩, ⟨.handed, .crypt (.text "a") .nothing (.integer 17)⟩,
            ⟨.handed, .salt (.integer (-1))⟩,
            ⟨.handed, .crypt .nothing (.integer 55) (.integer 1)⟩])
        ⟨.handed, .salt (.integer 2)⟩).1 = .salt (.ok [125, 124]) := by
  intro h countdown
  obtain ⟨-, hgives, -⟩ := salts_are_slices countdown (rfl : h.sharedSource.value = .ok .system)
    [⟨.handed, .salt (.integer 2)⟩, ⟨.handed, .crypt (.text "a") .nothing (.integer 17)⟩,
      ⟨.handed, .salt (.integer (-1))⟩, ⟨.handed, .crypt .nothing (.integer 55) (.integer 1)⟩]
    ⟨.handed, .salt (.integer 2)⟩
  exact ⟨rfl, (hgives 2 rfl).trans rfl⟩

end SaltedHash.Salt
