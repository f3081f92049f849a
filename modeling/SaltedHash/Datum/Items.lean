import SaltedHash.Datum.Basic
import SaltedHash.Fault

/-!
# Items of values

The octets that a value makes when it is copied item by item, and the items before and after a
cut. A window is copied whether or not it skips, and an integer makes as many zeros.
-/

namespace SaltedHash.Datum

def count (d : Datum) : Except Fault Nat :=
  match d with
  | .released => .error .released
  | d =>
    match d.length? with
    | some n => .ok n
    | none => .error (.noLength d.kind)

/-- Whether a value counts as something: not nothing, not false, not zero, and not empty. -/
def isSome (d : Datum) : Except Fault Bool :=
  match d with
  | .nothing => .ok false
  | .flag b => .ok b
  | .integer n => .ok (n != 0)
  | .real x => .ok (!x.isZero)
  | d => d.count.map fun n => n != 0

def zeros (n : Int) : Except Fault Octets :=
  if n < 0 then .error .negativeCount else .ok (List.replicate n.toNat 0)

/-- The octets that a value makes: its own, those of a list of numbers below 256, or zeros. -/
def toOctets (d : Datum) : Except Fault Octets :=
  match d with
  | .octets o | .buffer o | .view o _ => .ok o
  | .words items => .ok (Datum.octetsOfWords items)
  | .grid g => .ok g.seen
  | .released => .error .released
  | .text _ => .error .textAsOctets
  | .list items =>
    items.mapM fun item =>
      match item.integer? with
      | none => .error (.notAnInteger item.kind)
      | some n => if n < 0 ∨ 255 < n then .error .octetRange else .ok (UInt8.ofNat n.toNat)
  | .flag b => zeros (if b then 1 else 0)
  | .integer n => zeros n
  | .nothing | .real _ | .mapping _ => .error (.notIterable d.kind)

def takeItems (d : Datum) (n : Nat) : Datum :=
  match d with
  | .text t => .text (t.take n)
  | .list items => .list (items.take n)
  | .octets o => .octets (o.take n)
  | .buffer o => .buffer (o.take n)
  | .view o gapped => .view (o.take n) gapped
  | .words items => .words (items.take n)
  | .grid g => .grid (g.take n)
  | d => d

def dropItems (d : Datum) (n : Nat) : Datum :=
  match d with
  | .text t => .text (t.drop n)
  | .list items => .list (items.drop n)
  | .octets o => .octets (o.drop n)
  | .buffer o => .buffer (o.drop n)
  | .view o gapped => .view (o.drop n) gapped
  | .words items => .words (items.drop n)
  | .grid g => .grid (g.drop n)
  | d => d

end SaltedHash.Datum
