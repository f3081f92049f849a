import SaltedHash.Datum.Display
import SaltedHash.Fault

/-!
# Sources of draws

A source hands out integers, one at a time. The linear source computes them from 32 bits of
state; the system source passes on what the system's generator gives; a scripted source follows
a script. The system's generator is shared, so it is kept beside the source in a supply.
-/

namespace SaltedHash.Salt

structure Stream where
  item : Nat → Int
  taken : Nat

namespace Stream

instance : Inhabited Stream := ⟨⟨fun _ => 0, 0⟩⟩

def next (s : Stream) : Int × Stream := (s.item s.taken, { s with taken := s.taken + 1 })

def cycle (items : List Int) : Stream := ⟨fun i => items.getD (i % items.length) 0, 0⟩

end Stream

/-! ## The linear generator -/

/-- The state that a seed stands for: its low 32 bits, in two's complement. -/
def seeded (seed : Int) : UInt32 := UInt32.ofNat (seed % 4294967296).toNat

def advance (state : UInt32) : UInt32 := state * 1103515245 + 12345

def maxOutput : Nat := 32767

def output (state : UInt32) : Nat := state.toNat / 65536 % (maxOutput + 1)

/-! ## Sources -/

inductive Source where
  | linear (state : UInt32)
  | system
  | scripted (script : Stream)
  deriving Inhabited

/-- A source, and the system's generator that it may draw on. -/
structure Supply where
  source : Source
  system : Stream
  deriving Inhabited

namespace Supply

def next (s : Supply) : Int × Supply :=
  match s.source with
  | .linear state =>
    let state := advance state
    (output state, { s with source := .linear state })
  | .system =>
    let (bits, system) := s.system.next
    (bits % 2147483648, { s with system })
  | .scripted script =>
    let (n, script) := script.next
    (n, { s with source := .scripted script })

def take (s : Supply) : (n : Nat) → List Int × Supply
  | 0 => ([], s)
  | n + 1 =>
    let (x, s) := s.next
    let (xs, s) := take s n
    (x :: xs, s)

end Supply

/-! ## Salts -/

def band : Nat := 96

def base : Nat := 32

def octetOf (draw : Int) : UInt8 := UInt8.ofNat ((draw % band).toNat + base)

def Supply.salt (s : Supply) (n : Nat) : Octets × Supply :=
  let (draws, s) := s.take n
  (draws.map octetOf, s)

def generate (length : Datum) (s : Supply) : Except Fault Octets × Supply :=
  match length.number? with
  | none => (.error (.notOrdered "<" length.kind .integer), s)
  | some n =>
    if n.below 0 then (.error (length.naming .negativeSalt), s)
    else
      match n with
      | .whole n =>
        let (salt, s) := s.salt n.toNat
        (.ok salt, s)
      | .real _ => (.error (.notAnInteger .real), s)

def Source.ofSeed (seed : Datum) : Except Fault Source :=
  match seed.integer? with
  | some n => .ok (.linear (seeded n))
  | none => .error (.seedKind seed.kind)

def Source.reseed (source : Source) (seed : Datum) : Except Fault Source :=
  match source with
  | .linear _ => ofSeed seed
  | .system => .error (.unseeded "SystemRandomSource")
  | .scripted _ => .error (.unseeded "Scripted")

end SaltedHash.Salt
