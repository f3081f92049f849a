import SaltedHash.Datum.Basic

/-!
# Equal values

Two values are equal when they hold the same, whatever sort of holder each is: numbers by their
amount, octets by their items. A window of words shows its words and a grid its rows, except to a
buffer, which looks at the memory behind the window. A window that is given back is equal to no other
value.
-/

namespace SaltedHash.Datum

namespace Number

def equal : Number → Number → Bool
  | whole m, whole n => m == n
  | whole m, real x => x.equalsInt m
  | real x, whole n => x.equalsInt n
  | real x, real y => x.equal y

end Number

def items? : Datum → Option (List Nat)
  | octets o | buffer o | view o _ => some (o.map UInt8.toNat)
  | words items => some (items.map UInt16.toNat)
  | _ => none

def sameItems (a b : Datum) : Bool :=
  match a, b with
  | buffer o, words items => o == octetsOfWords items
  | words items, buffer o => items.map UInt16.toNat == o.map UInt8.toNat
  | buffer o, grid g => g.contiguous && o == g.seen
  | grid g, grid h => g.shape == h.shape && g.seen == h.seen
  | a, b =>
    match a.items?, b.items? with
    | some x, some y => x == y
    | _, _ => false

mutual

def equal : Datum → Datum → Bool
  | nothing, nothing => true
  | text s, text t => s == t
  | list xs, list ys => equalItems xs ys
  | mapping xs, mapping ys => equalEntries xs ys
  | a, b =>
    match a.number?, b.number? with
    | some m, some n => m.equal n
    | _, _ => sameItems a b

def equalItems : List Datum → List Datum → Bool
  | [], [] => true
  | x :: xs, y :: ys => equal x y && equalItems xs ys
  | _, _ => false

def equalEntries : List (Text × Datum) → List (Text × Datum) → Bool
  | [], [] => true
  | (k, x) :: xs, (l, y) :: ys => k == l && equal x y && equalEntries xs ys
  | _, _ => false

end

theorem equal_text (s t : Text) : equal (.text s) (.text t) = (s == t) := by
  simp [equal]

end SaltedHash.Datum
