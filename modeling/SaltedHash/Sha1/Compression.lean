import SaltedHash.Octets

/-!
# The compression engine

The engine works on natural numbers and masks what can outgrow 32 bits. It keeps a window of
sixteen schedule words: from the sixteenth round on, each round overwrites the oldest word with
the one it is about to use.
-/

namespace SaltedHash.Sha1

/-! ## Bits of unbounded numbers -/

def mask32 : Nat := 0xFFFFFFFF

def rol (value bits : Nat) : Nat := ((value <<< bits) ||| (value >>> (32 - bits))) &&& mask32

/-- The bits of an integer in two's complement that stand where `m` has ones. A negative integer
has ones all the way up, so `m` bounds the outcome. -/
def select (x : Int) (m : Nat) : Nat :=
  match x with
  | .ofNat n => n &&& m
  | .negSucc n => m ^^^ (n &&& m)

/-! ## The accumulators and the window -/

structure Chain where
  a : Nat
  b : Nat
  c : Nat
  d : Nat
  e : Nat
  deriving DecidableEq, Repr, Inhabited

namespace Chain

def initial : Chain := ⟨0x67452301, 0xEFCDAB89, 0x98BADCFE, 0x10325476, 0xC3D2E1F0⟩

def add (x y : Chain) : Chain :=
  ⟨(x.a + y.a) &&& mask32, (x.b + y.b) &&& mask32, (x.c + y.c) &&& mask32,
    (x.d + y.d) &&& mask32, (x.e + y.e) &&& mask32⟩

def octets (x : Chain) : Octets :=
  [x.a, x.b, x.c, x.d, x.e].flatMap (Octets.ofNat 4)

@[simp] theorem length_octets (x : Chain) : x.octets.length = 20 := by
  simp [octets]

end Chain

abbrev Block := Vector UInt8 64

def Block.zero : Block := Vector.replicate 64 0

def Block.write (block : Block) (place : Nat) : Octets → Block
  | [] => block
  | octet :: rest => Block.write (block.setIfInBounds place octet) (place + 1) rest

abbrev Window := Vector Nat 16

def Window.ofBlock (block : Block) : Window :=
  Vector.ofFn fun i =>
    Octets.toNat
      [block[4 * i.val], block[4 * i.val + 1], block[4 * i.val + 2], block[4 * i.val + 3]]

def Window.at (w : Window) (slot : Nat) : Nat := w[slot % 16]

/-- Overwrites the oldest word with the next one of the schedule, once the block is used up. -/
def Window.advance (w : Window) (i : Nat) : Window :=
  if i < 16 then w
  else
    w.set (i % 16)
      (rol (w.at (i + 13) ^^^ w.at (i + 8) ^^^ w.at (i + 2) ^^^ w.at i) 1)

/-! ## Rounds -/

/-- The function of round `i`. The first one complements a word, which makes it negative. -/
def mix (i b c d : Nat) : Nat :=
  if i < 20 then (b &&& c) ||| select (~~~(Int.ofNat b)) d
  else if i < 40 then b ^^^ c ^^^ d
  else if i < 60 then (b &&& c) ||| (b &&& d) ||| (c &&& d)
  else b ^^^ c ^^^ d

def constant (i : Nat) : Nat :=
  if i < 20 then 0x5A827999
  else if i < 40 then 0x6ED9EBA1
  else if i < 60 then 0x8F1BBCDC
  else 0xCA62C1D6

structure Rounds where
  window : Window
  chain : Chain
  deriving DecidableEq, Repr

def Rounds.step (r : Rounds) (i : Nat) : Rounds :=
  let window := r.window.advance i
  let x := r.chain
  { window
    chain :=
      ⟨(rol x.a 5 + mix i x.b x.c x.d + x.e + constant i + window.at i) &&& mask32,
        x.a, rol x.b 30, x.c, x.d⟩ }

def Rounds.run (block : Block) (chain : Chain) (n : Nat) : Rounds :=
  (List.range n).foldl Rounds.step ⟨Window.ofBlock block, chain⟩

def compress (chain : Chain) (block : Block) : Chain :=
  chain.add (Rounds.run block chain 80).chain

theorem Rounds.run_succ (block : Block) (chain : Chain) (n : Nat) :
    Rounds.run block chain (n + 1) = (Rounds.run block chain n).step n := by
  simp [Rounds.run, List.range_succ]

end SaltedHash.Sha1
