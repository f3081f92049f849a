import SaltedHash.Datum.Items
import SaltedHash.Hex

/-!
# Secrets for the length of some work

A buffer that holds a secret is overwritten with zeros when the work on it is over, however the
work ends. Buffers and lists can be overwritten; for other values the attempt is what fails.
-/

namespace SaltedHash

def wipe (value : Datum) : Except Fault Datum :=
  match value with
  | .buffer o => .ok (.buffer (List.replicate o.length 0))
  | .list items => .ok (.list (List.replicate items.length (.integer 0)))
  | .octets _ | .text _ | .mapping _ => .error (.fixedItems value.kind)
  | .view _ _ | .grid _ => .error .readOnly
  | .words _ => .error .itemLayout
  | .released => .error .released
  | .nothing | .flag _ | .integer _ | .real _ => .error (.noLength value.kind)

namespace Scrub

inductive Step where
  | look
  /-- Overwrites one item; a negative index counts from the end. -/
  | set (index item : Datum)
  | extend (hex : Text)
  /-- Keeps the items before an index; a negative index counts from the end. -/
  | truncate (index : Datum)
  | raise (text : Text)
  deriving Inhabited

def place (index : Int) (size : Nat) : Int := if index < 0 then index + size else index

def place? (index : Int) (size : Nat) : Option Nat :=
  let i := place index size
  if 0 ≤ i ∧ i < size then some i.toNat else none

def indexFits (index : Int) : Bool :=
  -9223372036854775808 ≤ index && index ≤ 9223372036854775807

def indexOf (holder : Kind) (index : Datum) : Except Fault Int :=
  match index.integer? with
  | none => .error (.indexKind holder index.kind)
  | some i => if indexFits i then .ok i else .error (.indexRange holder)

/-- The place of an item in a holder of some kind and size. -/
def itemPlace (holder : Kind) (index : Int) (size : Nat) : Except Fault Nat :=
  match place? index size with
  | some i => .ok i
  | none => .error (.indexRange holder)

def octetOf (item : Datum) : Except Fault UInt8 :=
  match item.integer? with
  | none => .error (.notAnInteger item.kind)
  | some n => if n < 0 ∨ 255 < n then .error .octetItem else .ok (UInt8.ofNat n.toNat)

def wordOf (item : Datum) : Except Fault UInt16 :=
  match item.integer? with
  | none => .error .wordKind
  | some n => if n < 0 ∨ 65535 < n then .error .wordItem else .ok (UInt16.ofNat n.toNat)

/-- Overwrites one item. An item of a buffer is judged before its place, an item of a window after
it, and a list takes any item. -/
def setItem (value index item : Datum) : Except Fault Datum :=
  match value with
  | .buffer o => do
    let index ← indexOf .buffer index
    let octet ← octetOf item
    let i ← itemPlace .buffer index o.length
    return .buffer (o.set i octet)
  | .list items => do
    let index ← indexOf .list index
    let i ← itemPlace .list index items.length
    return .list (items.set i item)
  | .words items => do
    let index ← indexOf .window index
    let i ← itemPlace .window index items.length
    let word ← wordOf item
    return .words (items.set i word)
  | .view _ _ | .grid _ => .error .readOnly
  | .released => .error .released
  | value => .error (.fixedItems value.kind)

def extendBy (value : Datum) (octets : Octets) : Except Fault Datum :=
  match value with
  | .buffer o => .ok (.buffer (o ++ octets))
  | .list items => .ok (.list (items ++ octets.map fun octet => .integer octet.toNat))
  | value => .error (.noMember value.kind "extend")

def cutOf (index : Datum) (size : Nat) : Except Fault Nat :=
  match index with
  | .nothing => .ok 0
  | index =>
    match index.integer? with
    | some i => .ok (place i size).toNat
    | none => .error .notACut

def truncateAt (value index : Datum) : Except Fault Datum :=
  match value with
  | .buffer o => (cutOf index o.length).map fun n => .buffer (o.take n)
  | .list items => (cutOf index items.length).map fun n => .list (items.take n)
  | .view _ _ | .grid _ => .error .readOnly
  | .released => .error .released
  | value => .error (.fixedSize value.kind)

def Step.run (value : Datum) : Step → Except Fault Datum
  | look => .ok value
  | set index item => setItem value index item
  | extend hex =>
    match Hex.decode hex with
    | .ok octets => extendBy value octets
    | .error position => .error (.hexDigit position)
  | truncate index => truncateAt value index
  | raise text => .error (.raised text)

structure Work where
  inside : List Octets
  left : Datum
  failure : Option Fault

/-- Runs steps until one fails. A step shows the octets of the value, and it fails too, with its
effect done, if there are none. -/
def work (value : Datum) : List Step → Work
  | [] => ⟨[], value, none⟩
  | step :: rest =>
    match step.run value with
    | .error cause => ⟨[], value, some cause⟩
    | .ok next =>
      match next.toOctets with
      | .error cause => ⟨[], next, some cause⟩
      | .ok octets =>
        let w := work next rest
        { w with inside := octets :: w.inside }

/-- Works on a value and wipes what the work leaves. A value that cannot be wiped stays as it is,
and that is the failure that comes out. -/
def scrubbed (value : Datum) (steps : List Step) : Work :=
  let w := work value steps
  match wipe w.left with
  | .ok wiped => { w with left := wiped }
  | .error cause => { w with failure := some cause }

end Scrub

end SaltedHash
