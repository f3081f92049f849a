import SaltedHash.Octets
import SaltedHash.Binary64.Basic
import SaltedHash.Datum.Grid
import SaltedHash.Datum.Kind

/-!
# Values

What a caller may hand to an operation. Most operations want octets or a text and refuse the
rest, so the values they refuse have to be values too.

Three sorts are octets in memory: a fixed string, a buffer that can be overwritten, and a window
onto memory that another value owns. A window has items of its own: single octets, perhaps with
gaps between them, 16-bit words, or the rows of a grid. A window that is given back stays a value,
but nothing is seen through it any more.
-/

namespace SaltedHash

/-- A value handed to an operation. -/
inductive Datum where
  | nothing
  | flag (value : Bool)
  | integer (value : Int)
  | real (value : Binary64)
  | text (value : Text)
  | list (items : List Datum)
  | octets (value : Octets)
  | buffer (value : Octets)
  /-- The octets seen through a window that is read only; `gapped` if it skips or reverses. -/
  | view (seen : Octets) (gapped : Bool)
  /-- A window of 16-bit words that can be overwritten. -/
  | words (items : List UInt16)
  /-- A window of several dimensions that is read only. -/
  | grid (value : Grid)
  /-- A window that is given back. -/
  | released
  | mapping (entries : List (Text × Datum))
  deriving Inhabited

namespace Datum

def kind : Datum → Kind
  | nothing => .nothing
  | flag _ => .flag
  | integer _ => .integer
  | real _ => .real
  | text _ => .text
  | list _ => .list
  | octets _ => .octets
  | buffer _ => .buffer
  | view _ _ | words _ | grid _ | released => .window
  | mapping _ => .mapping

def length? : Datum → Option Nat
  | text t => some t.length
  | list items => some items.length
  | octets o | buffer o | view o _ => some o.length
  | words items => some items.length
  | grid g => some g.rows
  | mapping entries => some entries.length
  | nothing | flag _ | integer _ | real _ | released => none

/-! ## Numbers -/

inductive Number where
  | whole (n : Int)
  | real (x : Binary64)
  deriving DecidableEq, Inhabited, Repr

namespace Number

def below : Number → Int → Bool
  | whole m, n => m < n
  | real x, n => x.below n

def above : Number → Int → Bool
  | whole m, n => n < m
  | real x, n => x.above n

/-- Whether a number is no greater than an integer. What is no number is neither. -/
def atMost : Number → Int → Bool
  | whole m, n => m ≤ n
  | real x, n => !x.above n && x != .notANumber

def atLeast : Number → Int → Bool
  | whole m, n => n ≤ m
  | real x, n => !x.below n && x != .notANumber

end Number

def number? : Datum → Option Number
  | flag b => some (.whole (if b then 1 else 0))
  | integer n => some (.whole n)
  | real x => some (.real x)
  | _ => none

def integer? (d : Datum) : Option Int :=
  match d.number? with
  | some (.whole n) => some n
  | _ => none

/-! ## Octets -/

def octetsOfWords (items : List UInt16) : Octets :=
  items.flatMap fun (w : UInt16) => [w.toUInt8, (w >>> 8).toUInt8]

/-- Whether the octets of a window are taken for one piece of memory. One that skips is, where it sees
a single octet. -/
def contiguous (seen : Octets) (gapped : Bool) : Bool := !gapped || seen.length == 1

/-- The octets of a value that are taken for one piece of memory. A grid without octets is not, though
nothing stands between them. -/
def octets? : Datum → Option Octets
  | octets o | buffer o => some o
  | view seen gapped => if contiguous seen gapped then some seen else none
  | words items => some (octetsOfWords items)
  | grid g => if g.gapped || g.seen.isEmpty then none else some g.seen
  | _ => none

end Datum

end SaltedHash
