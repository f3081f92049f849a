import SaltedHash.Settings.Basic
import SaltedHash.Crypt

/-!
# The surroundings of a run

Settings, clock and system generator, and the source of draws that all callers without one of
their own share. It is built when it is first asked for.
-/

namespace SaltedHash

structure Host where
  settings : Settings
  clock : Datum.Number
  system : Salt.Stream
  shared : Option Salt.Source
  deriving Inhabited

namespace Host

/-- The whole seconds of the clock. The fraction is dropped, so that a time before zero is rounded
up. -/
def seconds (h : Host) : Except Fault Int :=
  match h.clock with
  | .whole n => .ok n
  | .real x => x.truncate?.elim (.error (if x = .notANumber then .notANumber else .infinity)) .ok

def clockSource (h : Host) : Except Fault Salt.Source :=
  h.seconds.map fun seconds => .linear (Salt.seeded seconds)

/-- The source that the settings choose. A linear source without a seed takes the clock, and says
in the log how little that is worth. -/
def sourceOfSettings (h : Host) : Logged (Except Fault Salt.Source) :=
  match h.settings.saltSource, h.settings.saltSeed with
  | .system, _ => ⟨.ok .system, []⟩
  | .linear, some seed => ⟨.ok (.linear (Salt.seeded seed)), []⟩
  | .linear, none =>
    ⟨h.clockSource,
      [⟨.warning, .salt, "Linear salt source seeded from the clock; salts are predictable"⟩]⟩

def sharedSource (h : Host) : Logged (Except Fault Salt.Source) :=
  match h.shared with
  | some source => ⟨.ok source, []⟩
  | none => h.sourceOfSettings

def drawn (h : Host) (supply : Salt.Supply) : Host := { h with system := supply.system }

structure Made where
  result : Logged (Except Fault (Option Text))
  source : Option Salt.Source
  host : Host

/-- The string for a plaintext and a new salt. Without a length the settings give one, and without
a source the shared one is used, unless the length is refused before any draw. -/
def makeCrypt (h : Host) (plaintext room length : Datum) (source : Option Salt.Source) : Made :=
  let length :=
    match length with
    | .nothing => .integer h.settings.saltLength
    | length => length
  match source with
  | some source =>
    let fresh := Crypt.createFresh plaintext room length ⟨source, h.system⟩
    ⟨fresh.result, some fresh.supply.source, h.drawn fresh.supply⟩
  | none =>
    match Crypt.allowsLength length with
    | .ok true =>
      let shared := h.sharedSource
      match shared.value with
      | .error cause => ⟨⟨.error cause, shared.log⟩, none, h⟩
      | .ok source =>
        let fresh := Crypt.createFresh plaintext room length ⟨source, h.system⟩
        ⟨⟨fresh.result.value, shared.log ++ fresh.result.log⟩, none,
          { h.drawn fresh.supply with shared := some fresh.supply.source }⟩
    | _ =>
      let fresh := Crypt.createFresh plaintext room length ⟨.system, h.system⟩
      ⟨fresh.result, none, h⟩

end Host

end SaltedHash
