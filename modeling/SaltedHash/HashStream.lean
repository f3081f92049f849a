import SaltedHash.Sha1.Digest

/-!
# Hashing a stream

A stream is read in chunks until one is empty, and each chunk is absorbed as it comes.
-/

namespace SaltedHash.HashStream

/-- Absorbs the chunks up to the first one that is nothing. -/
def absorbChunks (c : Sha1.Context) : List Datum → Except Fault Sha1.Context
  | [] => .ok c
  | chunk :: rest =>
    match chunk.isSome with
    | .error cause => .error cause
    | .ok false => .ok c
    | .ok true =>
      match c.update chunk .nothing with
      | (.ok _, c) => absorbChunks c rest
      | (.error cause, _) => .error cause

def digestChunks (chunks : List Datum) : Except Fault Text := do
  let c ← absorbChunks Sha1.Context.fresh chunks
  c.finalHex.1

/-! ## Reading -/

def maxRead : Int := 9223372036854775807

/-- The largest size of a buffer: what a machine word holds, less the head of the buffer. -/
def maxBuffer : Int := 9223372036854775774

def reads (content : Octets) (size : Int) : List Datum :=
  if size < 0 then [.octets content]
  else (Octets.chunks size.toNat content).map .octets

def digestContent (content : Octets) (size : Int) : Except Fault Text :=
  if maxRead < size ∨ size < -maxRead - 1 then .error .sizeTooBig
  else digestChunks (reads content size)

def readSize (size : Datum) : Except Fault Int :=
  match size with
  | .nothing => .ok (-1)
  | size =>
    match size.integer? with
    | some n => .ok n
    | none => .error (.sizeKind size.kind)

/-- The digest of a file read in chunks of one size. A read has a buffer of that size, however short
the file is, and there is room for buffers up to a size. -/
def digestFile (room : Nat) (content : Octets) (size : Int) : Except Fault Text :=
  if maxBuffer < size ∧ size ≤ maxRead then .error .bufferTooBig
  else if room < size ∧ size ≤ maxRead then .error .outOfMemory
  else digestContent content size

structure Input where
  content : Octets
  inMemory : Bool
  deriving DecidableEq, Repr, Inhabited

def digestInput (room : Nat) (input : Input) (size : Int) : Except Fault Text :=
  if input.inMemory then digestContent input.content size else digestFile room input.content size

end SaltedHash.HashStream
