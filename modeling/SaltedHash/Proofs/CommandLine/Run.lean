import Mathlib
import SaltedHash.CommandLine.Run

/-!
# From a request to the end of a run

Where the settings name a threshold of the log and the clock shows a time, a run is the command that
is asked for, but for the log.
-/

namespace SaltedHash

/-- The settings name a threshold that the log knows, and the clock shows a time. -/
structure Host.Ready (h : Host) : Prop where
  level : ∃ threshold, Log.threshold? h.settings.logLevel = some threshold
  clock : ∃ seconds, h.seconds = .ok seconds

theorem Host.Ready.source {h : Host} (hready : h.Ready) :
    ∃ source, h.sourceOfSettings.value = .ok source := by
  obtain ⟨seconds, hseconds⟩ := hready.clock
  unfold Host.sourceOfSettings
  split
  · exact ⟨_, rfl⟩
  · exact ⟨_, rfl⟩
  · exact ⟨.linear (Salt.seeded seconds), by rw [Host.clockSource, hseconds]; rfl⟩

@[simp] theorem Host.settings_drawn (h : Host) (supply : Salt.Supply) :
    (h.drawn supply).settings = h.settings := rfl

namespace CommandLine

structure Transcript.Yields (t : Transcript) (ending : Ending) (out : Text) : Prop where
  ending : t.ending = ending
  out : t.out = out

/-! ## Requests -/

section

variable [Cryptography]

theorem run_eq_perform {h : Host} {threshold : Nat} {source : Salt.Source}
    (hlevel : Log.threshold? h.settings.logLevel = some threshold)
    (hsource : h.sourceOfSettings.value = .ok source) {arguments : List Text} {request : Request}
    (hrequest : Request.ofArguments arguments = .ok request) (sources : Sources) :
    ∃ log, (run h arguments sources).1 = { (perform h source sources request).1 with log } := by
  unfold run
  simp only [hlevel, hrequest, hsource]
  exact ⟨_, rfl⟩

theorem run_of_source {h : Host} (hready : h.Ready) {source : Salt.Source}
    (hsource : h.sourceOfSettings.value = .ok source) {arguments : List Text} {request : Request}
    (hrequest : Request.ofArguments arguments = .ok request) {sources : Sources} {ending : Ending}
    {out : Text} (hyields : (perform h source sources request).1.Yields ending out) :
    (run h arguments sources).1.Yields ending out := by
  obtain ⟨threshold, hlevel⟩ := hready.level
  obtain ⟨log, hrun⟩ := run_eq_perform hlevel hsource hrequest sources
  rw [hrun]
  exact ⟨hyields.ending, hyields.out⟩

theorem run_of_request {h : Host} (hready : h.Ready) {arguments : List Text} {request : Request}
    (hrequest : Request.ofArguments arguments = .ok request) (sources : Sources) :
    ∃ source, ∀ ending out, (perform h source sources request).1.Yields ending out →
      (run h arguments sources).1.Yields ending out := by
  obtain ⟨source, hsource⟩ := hready.source
  exact ⟨source, fun ending out hyields => run_of_source hready hsource hrequest hyields⟩

theorem run_of_complaint {h : Host} (hready : h.Ready) {arguments : List Text} {what : Complaint}
    (hrequest : Request.ofArguments arguments = .error (.complaint what)) (sources : Sources) :
    (run h arguments sources).1.Yields (.exit 2) [] := by
  obtain ⟨threshold, hlevel⟩ := hready.level
  unfold run
  simp only [hlevel, hrequest]
  exact ⟨rfl, rfl⟩

end

/-! ## Dialogues -/

section Dialogue

variable {α : Type} {h : Host} {d : Prompt.Dialogue α} {next : Host → α → Transcript × Host}

theorem yields_afterDialogue {value : α} {ending : Ending} {out : Text}
    (hresult : d.result = .ok value)
    (hnext : (next (h.drawn d.supply) value).1.Yields ending out) :
    (afterDialogue h d next).1.Yields ending out := by
  unfold afterDialogue
  simp only [hresult]
  exact ⟨hnext.ending, hnext.out⟩

theorem yields_afterDialogue_stop {stop : Prompt.Stop} (hresult : d.result = .error stop) :
    (afterDialogue h d next).1.Yields (onStop stop).1 [] := by
  unfold afterDialogue
  simp only [hresult]
  exact ⟨rfl, rfl⟩

end Dialogue

end CommandLine

end SaltedHash
