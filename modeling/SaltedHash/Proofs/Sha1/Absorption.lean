import Mathlib
import SaltedHash.Proofs.Sha1.Compression
import SaltedHash.Sha1.Context

/-!
# What a context has absorbed

A context that is never tampered with is a function of the octets that it has absorbed since it was
fresh. Absorbing more octets, in pieces of whatever size, only makes that message longer.
-/

namespace SaltedHash.Sha1

/-! ## The blocks of a message -/

/-- Block `k` of a message, with zeros from where the message ends. -/
def Block.ofMessage (m : Octets) (k : Nat) : Block := Vector.ofFn fun i => m.getD (64 * k + i) 0

def fullBlocks (m : Octets) : List Block := (List.range (m.length / 64)).map (Block.ofMessage m)

namespace Block

theorem getElem_ofMessage (m : Octets) (k i : Nat) (h : i < 64) :
    (ofMessage m k)[i] = m.getD (64 * k + i) 0 := by
  simp [ofMessage]

theorem getElem_write (block : Block) (place : Nat) (octets : Octets) (i : Nat) (h : i < 64) :
    (block.write place octets)[i] =
      if place ≤ i then octets.getD (i - place) block[i] else block[i] := by
  induction octets generalizing block place with
  | nil => simp [write]
  | cons octet rest ih =>
    rw [write, ih, Vector.getElem_setIfInBounds h]
    rcases Nat.lt_trichotomy i place with hlt | rfl | hgt
    · simp [show ¬ place + 1 ≤ i by omega, show ¬ place ≤ i by omega, show place ≠ i by omega]
    · simp [show ¬ i + 1 ≤ i by omega]
    · have hsub : i - place = i - (place + 1) + 1 := by omega
      simp [show place + 1 ≤ i by omega, show place ≤ i by omega, show place ≠ i by omega, hsub]

theorem write_ofMessage (m x : Octets) {k : Nat} (h : 64 * k ≤ m.length) :
    (ofMessage m k).write (m.length - 64 * k) x = ofMessage (m ++ x) k := by
  apply Vector.ext
  intro i hi
  rw [getElem_write, getElem_ofMessage, getElem_ofMessage]
  split_ifs with hplace
  · have hend : m.length ≤ 64 * k + i := by omega
    have hsub : i - (m.length - 64 * k) = 64 * k + i - m.length := by omega
    rw [List.getD_append_right _ _ _ _ hend, List.getD_eq_default m _ hend, hsub]
  · rw [List.getD_append _ _ _ _ (by omega)]

theorem ofMessage_append (m x : Octets) {k : Nat} (h : 64 * k + 64 ≤ m.length) :
    ofMessage (m ++ x) k = ofMessage m k := by
  apply Vector.ext
  intro i hi
  rw [getElem_ofMessage, getElem_ofMessage, List.getD_append _ _ _ _ (by omega)]

theorem ofMessage_of_length_le {m : Octets} {k : Nat} (h : m.length ≤ 64 * k) :
    ofMessage m k = zero := by
  apply Vector.ext
  intro i hi
  rw [getElem_ofMessage, List.getD_eq_default m _ (by omega)]
  simp [zero]

theorem toList_ofMessage_last (m : Octets) :
    (ofMessage m (m.length / 64)).toList =
      m.drop (m.length / 64 * 64) ++ List.replicate (64 - m.length % 64) 0 := by
  apply List.ext_getElem
  · simp
    omega
  · intro i hi _
    simp only [Vector.length_toList] at hi
    rw [Vector.getElem_toList, getElem_ofMessage, List.getElem_append]
    split_ifs with h
    · simp only [List.length_drop] at h
      rw [List.getElem_drop, List.getD_eq_getElem _ _ (by omega)]
      congr 1
      omega
    · simp only [List.length_drop] at h
      rw [List.getD_eq_default _ _ (by omega), List.getElem_replicate]

end Block

theorem map_ofMessage_append (m x : Octets) {n : Nat} (h : 64 * n ≤ m.length) :
    (List.range n).map (Block.ofMessage (m ++ x)) = (List.range n).map (Block.ofMessage m) := by
  apply List.map_inj_left.mpr
  intro k hk
  rw [List.mem_range] at hk
  exact Block.ofMessage_append m x (by omega)

theorem fullBlocks_append_of_lt (m x : Octets) (h : m.length % 64 + x.length < 64) :
    fullBlocks (m ++ x) = fullBlocks m := by
  have hcount : (m ++ x).length / 64 = m.length / 64 := by
    rw [List.length_append]
    omega
  rw [fullBlocks, hcount, map_ofMessage_append m x (by omega), fullBlocks]

theorem fullBlocks_append_of_eq (m x : Octets) (h : m.length % 64 + x.length = 64) :
    fullBlocks (m ++ x) = fullBlocks m ++ [Block.ofMessage (m ++ x) (m.length / 64)] := by
  have hcount : (m ++ x).length / 64 = m.length / 64 + 1 := by
    rw [List.length_append]
    omega
  rw [fullBlocks, hcount, List.range_succ, List.map_append, List.map_singleton,
    map_ofMessage_append m x (by omega), fullBlocks]

/-! ## The context of a message -/

namespace Context

def ofMessage (m : Octets) : Context where
  chain := (fullBlocks m).foldl compress Chain.initial
  bitCount := 8 * m.length
  buffered := ⟨m.length % 64, Nat.mod_lt _ (by decide)⟩
  block := Block.ofMessage m (m.length / 64)

theorem eq_ofMessage {c : Context} {m : Octets}
    (hchain : c.chain = (fullBlocks m).foldl compress Chain.initial)
    (hbits : c.bitCount = 8 * m.length) (hbuffered : c.buffered.val = m.length % 64)
    (hblock : c.block = Block.ofMessage m (m.length / 64)) : c = ofMessage m := by
  obtain ⟨chain, bits, buffered, block⟩ := c
  subst hchain hbits hblock
  have : buffered = ⟨m.length % 64, Nat.mod_lt _ (by decide)⟩ := Fin.ext hbuffered
  rw [this]
  rfl

theorem ofMessage_nil : ofMessage [] = fresh :=
  (eq_ofMessage rfl rfl rfl (Block.ofMessage_of_length_le (Nat.zero_le _)).symm).symm

/-- One pass of the loop: the message grows by what the block has room for. -/
theorem fill_ofMessage (m x : Octets) :
    (ofMessage m).fill x = ofMessage (m ++ x.take (ofMessage m).room) := by
  have hroom : (ofMessage m).room = 64 - m.length % 64 := rfl
  rw [fill, hroom]
  generalize htaken : x.take (64 - m.length % 64) = taken
  have hlength : taken.length ≤ 64 - m.length % 64 := by
    rw [← htaken, List.length_take]
    exact min_le_left _ _
  have hwrite : (ofMessage m).block.write (ofMessage m).buffered.val taken =
      Block.ofMessage (m ++ taken) (m.length / 64) := by
    have hplace : (ofMessage m).buffered.val = m.length - 64 * (m.length / 64) := by
      rw [show (ofMessage m).buffered.val = m.length % 64 from rfl]
      omega
    rw [hplace]
    exact Block.write_ofMessage m taken (by omega)
  have hbits : (ofMessage m).bitCount + 8 * taken.length = 8 * ((m ++ taken).length : Int) := by
    rw [show (ofMessage m).bitCount = 8 * m.length from rfl, List.length_append]
    push_cast
    ring
  simp only [hwrite]
  split_ifs with hfull
  · -- The block is not full yet, and the full blocks stay the same.
    have hfull' : m.length % 64 + taken.length < 64 := hfull
    apply eq_ofMessage
    · rw [fullBlocks_append_of_lt m taken hfull']
      rfl
    · exact hbits
    · rw [List.length_append]
      show m.length % 64 + taken.length = (m.length + taken.length) % 64
      omega
    · rw [List.length_append, show (m.length + taken.length) / 64 = m.length / 64 by omega]
  · have hfull' : m.length % 64 + taken.length = 64 := by
      have : ¬ m.length % 64 + taken.length < 64 := hfull
      omega
    apply eq_ofMessage
    · rw [fullBlocks_append_of_eq m taken hfull', List.foldl_append]
      simp only [List.foldl_cons, List.foldl_nil, ofMessage]
    · exact hbits
    · rw [List.length_append]
      show 0 = (m.length + taken.length) % 64
      omega
    · have hend : (m ++ taken).length ≤ 64 * ((m ++ taken).length / 64) := by
        rw [List.length_append]
        omega
      exact (Block.ofMessage_of_length_le hend).symm

theorem absorb_ofMessage (m x : Octets) : (ofMessage m).absorb x = ofMessage (m ++ x) := by
  induction h : x.length using Nat.strongRecOn generalizing m x with
  | _ n ih =>
    cases x with
    | nil => rw [absorb, List.append_nil]
    | cons octet rest =>
      have hroom : 0 < (ofMessage m).room := Nat.sub_pos_of_lt (ofMessage m).buffered.isLt
      have hshorter : ((octet :: rest).drop (ofMessage m).room).length < n := by
        rw [List.length_drop, h]
        rw [List.length_cons] at h
        omega
      rw [absorb, fill_ofMessage, ih _ hshorter _ _ rfl, List.append_assoc,
        List.take_append_drop]

end Context

end SaltedHash.Sha1
