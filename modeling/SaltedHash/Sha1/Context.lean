import SaltedHash.Sha1.Compression
import SaltedHash.Datum.Display
import SaltedHash.Datum.Items

/-!
# Hashing in steps

A context holds the state of one hash: the accumulators, a block that fills up, and the count of
bits absorbed. The count is kept apart from the fill of the block. Every operation checks all it
has to check before it changes anything, so a refused step leaves the context as it was.
-/

namespace SaltedHash.Sha1

/-- The state of one hash. -/
structure Context where
  chain : Chain
  /-- Message bits absorbed. A caller may overwrite the count, so it can be any integer. -/
  bitCount : Int
  buffered : Fin 64
  block : Block
  deriving DecidableEq, Repr

namespace Context

def fresh : Context := ⟨Chain.initial, 0, 0, Block.zero⟩

instance : Inhabited Context := ⟨fresh⟩

def room (c : Context) : Nat := 64 - c.buffered.val

/-- Takes in as many of the octets as the block has room for. A block that is full is folded into
the accumulators and zeroed. -/
def fill (c : Context) (octets : Octets) : Context :=
  let taken := octets.take c.room
  let block := c.block.write c.buffered.val taken
  let bitCount := c.bitCount + 8 * taken.length
  if h : c.buffered.val + taken.length < 64 then
    { chain := c.chain, bitCount, buffered := ⟨c.buffered.val + taken.length, h⟩, block }
  else
    { chain := compress c.chain block, bitCount, buffered := 0, block := Block.zero }

def absorb (c : Context) : Octets → Context
  | [] => c
  | octet :: rest => (c.fill (octet :: rest)).absorb ((octet :: rest).drop c.room)
termination_by octets => octets.length
decreasing_by
  -- The block always has room, so every pass takes in an octet at least.
  have := c.buffered.isLt
  simp only [room, List.length_drop, List.length_cons]
  omega

def fits (c : Context) (n : Int) : Bool := c.bitCount / 8 + n ≤ maxMessageOctets

def extend (c : Context) (octets : Octets) : Except Fault Context :=
  if c.fits octets.length then .ok (c.absorb octets) else .error (.input .overCeiling)

end Context

/-! ## Data and lengths -/

def dataOctets (data : Datum) : Except Fault Octets :=
  match data.octets? with
  | some octets => .ok octets
  | none =>
    match data with
    | .text _ => .error (.input .unencoded)
    | .view _ _ => .error (.input .gapped)
    | .grid g => .error (.input (if g.seen.isEmpty then .emptyGrid else .gapped))
    | .released => .error .released
    | data => .error (.input (.notOctets data.kind))

/-- How much of the data a length takes: all of it without one, else a number of octets that the
data has. A number with a fraction passes these checks and fails at the cut. -/
def cutLength (length : Datum) (available : Nat) : Except Fault Datum.Number :=
  match length with
  | .nothing => .ok (.whole available)
  | length =>
    match length.number? with
    | none => .error (.notOrdered "<" length.kind .integer)
    | some n =>
      if n.below 0 then .error (length.naming fun text => .input (.negativeLength text))
      else if n.above available then
        .error (length.naming fun text => .input (.excessLength text available))
      else .ok n

namespace Context

def realCutFault (c : Context) (length : Binary64) : Fault :=
  match Binary64.ofInt? (c.bitCount / 8) with
  | none => .integerTooLarge
  | some count =>
    if (count.add length).above maxMessageOctets then .input .overCeiling else .notACut

/-- Absorbs the octets of `data`, or as many of the first of them as `length` says. The answer is
false when there is no data and no length, and true when data was absorbed. -/
def update (c : Context) (data length : Datum) : Except Fault Bool × Context :=
  match data with
  | .nothing =>
    match length.isSome with
    | .error cause => (.error cause, c)
    | .ok true => (.error (length.naming fun text => .input (.noData text)), c)
    | .ok false => (.ok false, c)
  | data =>
    match dataOctets data with
    | .error cause => (.error cause, c)
    | .ok octets =>
      match cutLength length octets.length with
      | .error cause => (.error cause, c)
      | .ok (.real x) => (.error (c.realCutFault x), c)
      | .ok (.whole n) =>
        if c.fits n then (.ok true, c.absorb (octets.take n.toNat))
        else (.error (.input .overCeiling), c)

def countFault? (c : Context) : Option Fault :=
  if c.bitCount < 0 then some .countNegative
  else if 18446744073709551616 ≤ c.bitCount then some .countTooBig
  else none

/-- The closing octets of a message: a one bit, the fewest zeros that leave room for the count at
the end of a block, and the count. -/
def padding (c : Context) : Octets :=
  0x80 :: (List.replicate ((119 - c.buffered.val) % 64) 0 ++ Octets.ofNat 8 c.bitCount.toNat)

def final (c : Context) : Except Fault Octets × Context :=
  match c.countFault? with
  | some cause => (.error cause, c)
  | none => (.ok (c.absorb c.padding).chain.octets, fresh)

def new (data : Datum) : Except Fault Context :=
  match fresh.update data .nothing with
  | (.ok _, c) => .ok c
  | (.error cause, _) => .error cause

end Context

end SaltedHash.Sha1
