import Mathlib
import SaltedHash.Proofs.CommandLine.Mkpass
import SaltedHash.Proofs.CommandLine.ReadSize
import SaltedHash.Proofs.SelfTest.Verdict
import SaltedHash.Proofs.Settings
import SaltedHash.Settings.Sources

/-!
# Runs that end with a status

A run that is set up ends with a status, whatever is typed, read from files and read from the standard
input. The threshold of the log and the source of salts are set up before failures are handled.
-/

namespace SaltedHash.CommandLine

open Prompt (Outcome Agreed)
open FileName (Usable)

def Transcript.Ends (t : Transcript) : Prop := ∃ code ≤ 2, t.ending = .status code

theorem Transcript.Yields.ends {t : Transcript} {code : Nat} {out : Text} (hcode : code ≤ 2)
    (h : t.Yields (.status code) out) : t.Ends := ⟨code, hcode, h.ending⟩

theorem not_ends_of_fault {t : Transcript} {cause : Fault} (h : t.ending = .fault cause) :
    ¬ t.Ends := by
  rintro ⟨code, -, hcode⟩
  rw [h] at hcode
  cases hcode

/-! ## Commands that ask -/

theorem crypt_ends {h : Host} {asked : Option Int}
    (hshort : (asked.getD h.settings.saltLength).natAbs < 10 ^ Text.maxDigits)
    (source : Salt.Source) (outcomes : List Outcome) :
    (crypt h source (.ofAsked asked) (outcomes.map Outcome.answer)).1.Ends := by
  by_cases hagreed : ∃ password, Agreed outcomes password
  · obtain ⟨password, hagreed⟩ := hagreed
    rcases crypt_of_agreed hshort source hagreed with ⟨s, p, -, -, hyields⟩ | ⟨-, hyields⟩
    · exact hyields.ends (by decide)
    · exact hyields.ends (by decide)
  · have hyields := crypt_of_not_agreed h source (.ofAsked asked) (not_exists.mp hagreed)
    exact hyields.ends (by decide)

theorem SaltLength.exists_ofAsked {saltLength : SaltLength} (h : saltLength ≠ .empty) :
    ∃ asked, saltLength = .ofAsked asked := by
  cases saltLength with
  | unsaid => exact ⟨none, rfl⟩
  | octets n => exact ⟨some n, rfl⟩
  | empty => exact absurd rfl h

section

variable [Cryptography]

theorem mkpass_ends (h : Host) (source : Salt.Source) (outcomes : List Outcome) :
    (mkpass h source (outcomes.map Outcome.answer)).1.Ends := by
  rcases mkpass_cases h source outcomes with ⟨k, a, b, p, q, -, hyields⟩ | ⟨-, hyields⟩
  · exact hyields.ends (by decide)
  · exact hyields.ends (by decide)

theorem check_ends (h : Host) (source : Salt.Source) (text : Text) (outcomes : List Outcome) :
    (check h source text (outcomes.map Outcome.answer)).1.Ends := by
  rcases outcomes with _ | ⟨⟨a⟩ | _, rest⟩
  · exact ⟨1, by decide, rfl⟩
  · -- A text is not given back, so checking comes to a verdict.
    obtain ⟨verdict, hverdict⟩ := Crypt.exists_check (nofun : Datum.text a ≠ .released) (.text text)
    cases verdict with
    | false => exact (check_of_given h source hverdict _).ends (by decide)
    | true => exact (check_of_given h source hverdict _).ends (by decide)
  · exact ⟨1, by decide, rfl⟩

end

/-! ## The command that hashes -/

theorem digestFiles_ends {sources : Sources} {size : Int} (hpos : 0 < size)
    (hbuffer : HashStream.Bufferable sources.room size) {names : List Text}
    (husable : ∀ name ∈ names, Usable name) {status : Nat} (hstatus : status ≤ 2) :
    (digestFiles sources size status names).Ends := by
  induction names generalizing status with
  | nil => exact ⟨status, hstatus, rfl⟩
  | cons name rest ih =>
    rw [List.forall_mem_cons] at husable
    cases hread : sources.read (FileName.normal name) with
    | error cause =>
      -- The file is not read, and the run goes on.
      obtain ⟨code, hcode, hending⟩ := ih husable.2 (by decide : 1 ≤ 2)
      refine ⟨code, hcode, ?_⟩
      rw [digestFiles, FileName.fault?_normal_eq_none_iff.mpr husable.1]
      simp only [hread, hending]
    | ok content =>
      by_cases hfits : content.length ≤ maxMessageOctets
      · obtain ⟨code, hcode, hending⟩ := ih husable.2 hstatus
        refine ⟨code, hcode, ?_⟩
        rw [digestFiles, FileName.fault?_normal_eq_none_iff.mpr husable.1]
        simp only [hread, HashStream.digestFile_eq hpos hbuffer, HashStream.digestHex_octets,
          if_pos hfits, hending]
      · -- The content is beyond the ceiling, and the run is over.
        rw [digestFiles_of_over hpos hbuffer husable.1 hread (by omega)]
        exact ⟨1, by decide, rfl⟩

theorem digest_ends {h : Host} {names : List Text} {sources : Sources}
    (htaken : Taken sources names h.settings.readChunkSize) (husable : ∀ name ∈ names, Usable name) :
    (digest h names sources).Ends := by
  unfold digest
  by_cases hnames : names = []
  · simp only [hnames, List.isEmpty_nil, if_true,
      HashStream.digestInput_eq htaken.pos (htaken.stdin hnames), HashStream.digestHex_octets]
    by_cases hfits : sources.stdin.content.length ≤ maxMessageOctets
    · rw [if_pos hfits]
      exact ⟨0, by decide, rfl⟩
    · rw [if_neg hfits]
      exact ⟨1, by decide, rfl⟩
  · rw [if_neg (by simpa using hnames)]
    exact digestFiles_ends htaken.pos (htaken.files hnames) husable (by decide)

/-! ## The self-test -/

theorem selftest_ends [Cryptography] {vectors : List SelfTest.KnownDigest}
    (hvectors : ∀ v ∈ vectors, (∃ m, v.Of m) ∧ v.Printable) {examples : List SelfTest.KnownCrypt}
    (hexamples : ∀ e ∈ examples, e.Usable ∧ ∃ t, e.crypt = .text t) :
    (selftest vectors examples).Ends := by
  have hmessages := fun v hv => (hvectors v hv).1
  have hprinted := SelfTest.print_eq_ok hmessages fun v hv => (hvectors v hv).2
  obtain ⟨report, verdict, log, hreports, hchecked⟩ := SelfTest.exists_reports
    Cryptography.meetsStandard hmessages fun e he => (hexamples e he).1
  have hwritten : report.fault = none :=
    hreports.fault_eq_none (fun v hv => (hvectors v hv).2.named) fun e he => (hexamples e he).2
  unfold selftest SelfTest.validate
  simp only [hprinted, hchecked, SelfTest.Report.outcome, hwritten, Option.elim_none]
  cases verdict with
  | false => exact ⟨1, by decide, rfl⟩
  | true => exact ⟨0, by decide, rfl⟩

/-! ## Any run -/

/-- What is typed at the prompts is texts and interrupts. -/
def Sources.Typed (sources : Sources) : Prop :=
  ∃ outcomes : List Outcome, sources.answers = outcomes.map Outcome.answer

/-- A string is asked for with a number for the salt length, if with any, and what is hashed can be
read. -/
structure Served (h : Host) (r : Request) (sources : Sources) : Prop where
  saltLength : r.command = .crypt → r.saltLength ≠ .empty
  reads : r.command = .digest → Taken sources r.operands h.settings.readChunkSize
  names : r.command = .digest → ∀ name ∈ r.operands, Usable name

section

variable [Cryptography]

theorem perform_ends {h : Host} (hdefault : h.settings.saltLength.natAbs < 10 ^ Text.maxDigits)
    {r : Request} (hlength : r.saltLength.Short) {sources : Sources} (htyped : sources.Typed)
    (hserved : Served h r sources) (source : Salt.Source) : (perform h source sources r).1.Ends := by
  obtain ⟨outcomes, houtcomes⟩ := htyped
  obtain ⟨command, operands, saltLength⟩ := r
  cases command with
  | mkpass =>
    simp only [perform, houtcomes]
    exact mkpass_ends h source outcomes
  | crypt =>
    obtain ⟨asked, rfl⟩ := SaltLength.exists_ofAsked (hserved.saltLength rfl)
    have hshort : (asked.getD h.settings.saltLength).natAbs < 10 ^ Text.maxDigits := by
      cases asked with
      | none => exact hdefault
      | some n => exact hlength n rfl
    simp only [perform, houtcomes]
    exact crypt_ends hshort source outcomes
  | check =>
    rcases operands with _ | ⟨text, _ | ⟨next, rest⟩⟩
    · exact ⟨2, by decide, rfl⟩
    · simp only [perform, houtcomes]
      exact check_ends h source text outcomes
    · exact ⟨2, by decide, rfl⟩
  | digest => exact digest_ends (hserved.reads rfl) (hserved.names rfl)
  | selftest => exact selftest_ends SelfTest.vectors_usable SelfTest.examples_usable

theorem ending_of_unknownLevel {h : Host} (hlevel : Log.threshold? h.settings.logLevel = none)
    (arguments : List Text) (sources : Sources) :
    (run h arguments sources).1.ending = .fault (.unknownLevel h.settings.logLevel) := by
  unfold run
  simp only [hlevel]
  rfl

theorem ending_run {h : Host} {threshold : Nat} {source : Salt.Source}
    (hlevel : Log.threshold? h.settings.logLevel = some threshold)
    (hsource : h.sourceOfSettings.value = .ok source) {arguments : List Text} {request : Request}
    (hrequest : Request.ofArguments arguments = .ok request) (sources : Sources) :
    (run h arguments sources).1.ending = (perform h source sources request).1.ending := by
  obtain ⟨log, hrun⟩ := run_eq_perform hlevel hsource hrequest sources
  rw [hrun]

theorem exists_threshold_of_ends {h : Host} {arguments : List Text} {sources : Sources}
    (hends : (run h arguments sources).1.Ends) :
    ∃ threshold, Log.threshold? h.settings.logLevel = some threshold := by
  cases hthreshold : Log.threshold? h.settings.logLevel with
  | some threshold => exact ⟨threshold, rfl⟩
  | none =>
    exact absurd hends (not_ends_of_fault (ending_of_unknownLevel hthreshold arguments sources))

theorem exists_source_of_ends {h : Host} {threshold : Nat}
    (hlevel : Log.threshold? h.settings.logLevel = some threshold) {arguments : List Text}
    {request : Request} (hrequest : Request.ofArguments arguments = .ok request) {sources : Sources}
    (hends : (run h arguments sources).1.Ends) :
    ∃ source, h.sourceOfSettings.value = .ok source := by
  cases hsource : h.sourceOfSettings.value with
  | ok source => exact ⟨source, rfl⟩
  | error cause =>
    have hfault : (run h arguments sources).1.ending = .fault cause := by
      unfold run
      simp only [hlevel, hrequest, hsource]
      rfl
    exact absurd hends (not_ends_of_fault hfault)

end

def hostOf (level : Text) (size : Int) : Host :=
  { plainHost with
    settings := { Settings.default with logLevel := level, readChunkSize := size } }

theorem hostOf_ready (size : Int) : (hostOf "WARNING" size).Ready :=
  ⟨plainHost_ready.level, plainHost_ready.clock⟩

theorem exists_ofGiven_hostOf (level : Text) {size : Int} (hpos : 0 < size) :
    ∃ given, Settings.usual.ofGiven given = .ok (hostOf level size).settings :=
  Settings.Library.exists_ofGiven (fun _ => rfl) (fun _ => rfl) level hpos

/-- A list stands for the salt length after a divider, and it is compared with numbers. -/
theorem crypt_of_empty (h : Host) (source : Salt.Source) (password : Text) :
    (crypt h source .empty (typedTwice password).answers).1.ending =
      .fault (.notOrdered "<=" .integer .list) := by
  have hresult : (Prompt.password ⟨source, h.system⟩ (typedTwice password).answers).result =
      .ok (.text password) := by
    rcases Prompt.password_result ⟨source, h.system⟩ [.typed password, .typed password] with
      ⟨q, hq, hresult⟩ | ⟨hnone, -⟩
    · rw [hq.unique (Prompt.agreed_twice password [])] at hresult
      exact hresult
    · exact absurd (Prompt.agreed_twice password []) (hnone password)
  have hyields : (crypt h source .empty (typedTwice password).answers).1.Yields
      (.fault (.notOrdered "<=" .integer .list)) [] := by
    apply yields_afterDialogue hresult
    exact ⟨rfl, rfl⟩
  exact hyields.ending

theorem digest_of_large_buffer {h : Host} {sources : Sources}
    (hinput : sources.stdin.inMemory = false)
    (hsize : h.settings.readChunkSize = HashStream.maxRead) :
    (digest h [] sources).ending = .fault .bufferTooBig := by
  have hrefused : HashStream.digestInput sources.room sources.stdin h.settings.readChunkSize =
      .error .bufferTooBig := by
    have hlarge : HashStream.maxBuffer < HashStream.maxRead ∧
        HashStream.maxRead ≤ HashStream.maxRead := by decide
    rw [HashStream.digestInput, hinput, hsize, if_neg Bool.false_ne_true, HashStream.digestFile,
      if_pos hlarge]
  simp only [digest, List.isEmpty_nil, if_true, hrefused]
  rfl

end SaltedHash.CommandLine
