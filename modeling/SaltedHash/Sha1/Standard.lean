import SaltedHash.Octets

/-!
# SHA-1 as the standard states it

The definition of FIPS 180-4 on 32-bit words: padding, the schedule of eighty words, the rounds,
and the digest. It keeps no state between blocks but the five words of the chain. The engine in
`Compression` and `Context` is written another way, and this is what it has to agree with.
-/

namespace SaltedHash.Sha1.Standard

/-! ## Words and blocks -/

def rotl (x n : UInt32) : UInt32 := (x <<< n) ||| (x >>> (32 - n))

def words (block : Octets) : Vector UInt32 16 :=
  Vector.ofFn fun i => UInt32.ofNat (Octets.toNat ((block.drop (4 * i)).take 4))

/-- The word of the schedule after the first `n`: a word of the block, and from then on the rotated
sum without carry of the words three, eight, fourteen and sixteen places back. -/
def nextWord (block : Vector UInt32 16) {n : Nat} (before : Vector UInt32 n) : UInt32 :=
  if h : n < 16 then block[n]
  else rotl (before[n - 3] ^^^ before[n - 8] ^^^ before[n - 14] ^^^ before[n - 16]) 1

def schedule (block : Vector UInt32 16) : (n : Nat) → Vector UInt32 n
  | 0 => #v[]
  | n + 1 => (schedule block n).push (nextWord block (schedule block n))

/-! ## Rounds -/

def mix (t : Nat) (x y z : UInt32) : UInt32 :=
  if t < 20 then (x &&& y) ^^^ (~~~x &&& z)
  else if t < 40 then x ^^^ y ^^^ z
  else if t < 60 then (x &&& y) ^^^ (x &&& z) ^^^ (y &&& z)
  else x ^^^ y ^^^ z

def constant (t : Nat) : UInt32 :=
  if t < 20 then 0x5A827999
  else if t < 40 then 0x6ED9EBA1
  else if t < 60 then 0x8F1BBCDC
  else 0xCA62C1D6

structure State where
  a : UInt32
  b : UInt32
  c : UInt32
  d : UInt32
  e : UInt32
  deriving DecidableEq, Repr, Inhabited

def initial : State := ⟨0x67452301, 0xEFCDAB89, 0x98BADCFE, 0x10325476, 0xC3D2E1F0⟩

def round (t : Nat) (w : UInt32) (s : State) : State :=
  ⟨rotl s.a 5 + mix t s.b s.c s.d + s.e + constant t + w, s.a, rotl s.b 30, s.c, s.d⟩

def rounds (schedule : Vector UInt32 80) (s : State) : (n : Nat) → State
  | 0 => s
  | n + 1 => round n (schedule.getD n 0) (rounds schedule s n)

def compress (s : State) (block : Octets) : State :=
  let r := rounds (schedule (words block) 80) s 80
  ⟨s.a + r.a, s.b + r.b, s.c + r.c, s.d + r.d, s.e + r.e⟩

/-! ## Messages -/

/-- How many zero octets stand between the closing bit and the length: the fewest that fill the
last block. -/
def zeros (size : Nat) : Nat := (119 - size % 64) % 64

/-- A message, the closing bit, zeros, and the length in bits. -/
def pad (message : Octets) : Octets :=
  message ++ 0x80 :: (List.replicate (zeros message.length) 0 ++
    Octets.ofNat 8 (8 * message.length))

def State.octets (s : State) : Octets :=
  [s.a, s.b, s.c, s.d, s.e].flatMap fun (w : UInt32) => Octets.ofNat 4 w.toNat

def digest (message : Octets) : Octets :=
  ((Octets.chunks 64 (pad message)).foldl compress initial).octets

theorem length_pad_mod (message : Octets) : (pad message).length % 64 = 0 := by
  simp [pad, zeros]
  omega

end SaltedHash.Sha1.Standard
