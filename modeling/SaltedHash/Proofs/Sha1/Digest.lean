import Mathlib
import SaltedHash.Proofs.Sha1.Absorption
import SaltedHash.Sha1.Digest

/-!
# Digests are those of the standard

Closing a context pads its message as the standard does, so its digest is the standard's, and so is
the digest of octets hashed in one call, as long as they stay within the ceiling.
-/

namespace SaltedHash.Sha1

/-! ## The blocks of the standard -/

theorem Block.toList_ofMessage_zero {m : Octets} (h : 64 ≤ m.length) :
    (Block.ofMessage m 0).toList = m.take 64 := by
  apply List.ext_getElem
  · simp
    omega
  · intro i hi _
    simp only [Vector.length_toList] at hi
    rw [Vector.getElem_toList, Block.getElem_ofMessage, List.getElem_take, Nat.mul_zero,
      Nat.zero_add, List.getD_eq_getElem _ _ (by omega)]

theorem Block.ofMessage_succ (m : Octets) (k : Nat) :
    Block.ofMessage m (k + 1) = Block.ofMessage (m.drop 64) k := by
  apply Vector.ext
  intro i hi
  rw [Block.getElem_ofMessage, Block.getElem_ofMessage, List.getD_eq_getElem?_getD,
    List.getD_eq_getElem?_getD, List.getElem?_drop]
  congr 2
  omega

theorem fullBlocks_of_le {m : Octets} (h : 64 ≤ m.length) :
    fullBlocks m = Block.ofMessage m 0 :: fullBlocks (m.drop 64) := by
  have hcount : m.length / 64 = (m.drop 64).length / 64 + 1 := by
    rw [List.length_drop]
    omega
  have hlater : Block.ofMessage m ∘ Nat.succ = Block.ofMessage (m.drop 64) := by
    funext k
    exact Block.ofMessage_succ m k
  rw [fullBlocks, hcount, List.range_succ_eq_map, List.map_cons, List.map_map, hlater, fullBlocks]

theorem chunks_eq_fullBlocks {m : Octets} (h : m.length % 64 = 0) :
    Octets.chunks 64 m = (fullBlocks m).map Vector.toList := by
  induction hn : m.length using Nat.strongRecOn generalizing m with
  | _ n ih =>
    by_cases hm : m = []
    · subst hm
      simp [Octets.chunks_nil, fullBlocks]
    · have hpos := List.length_pos_iff.mpr hm
      have h64 : 64 ≤ m.length := by omega
      have hrest : (m.drop 64).length % 64 = 0 := by
        rw [List.length_drop]
        omega
      have hless : (m.drop 64).length < n := by
        rw [List.length_drop]
        omega
      rw [fullBlocks_of_le h64, List.map_cons, Block.toList_ofMessage_zero h64,
        Octets.chunks_of_ne_nil (by decide) hm, ih _ hless hrest rfl]

theorem foldl_compress_ofState (s : Standard.State) (blocks : List Block) :
    blocks.foldl compress (Chain.ofState s) =
      Chain.ofState ((blocks.map Vector.toList).foldl Standard.compress s) := by
  induction blocks generalizing s with
  | nil => rfl
  | cons block rest ih =>
    rw [List.foldl_cons, compress_ofState, ih, List.map_cons, List.foldl_cons]

/-! ## Padding -/

namespace Standard

theorem isLeast_zeros (size : Nat) : IsLeast {z | 64 ∣ size + 1 + z + 8} (zeros size) := by
  constructor
  · show 64 ∣ size + 1 + zeros size + 8
    unfold zeros
    omega
  · intro z hz
    have hz : 64 ∣ size + 1 + z + 8 := hz
    unfold zeros
    omega

end Standard

theorem dataOctets_eq_ok_iff {data : Datum} {o : Octets} :
    dataOctets data = .ok o ↔ data.octets? = some o := by
  unfold dataOctets
  cases data.octets? with
  | none => cases data <;> simp
  | some octets => simp

namespace Context

theorem append_padding (m : Octets) : m ++ (ofMessage m).padding = Standard.pad m := by
  have hzeros : (119 - (ofMessage m).buffered.val) % 64 = Standard.zeros m.length := rfl
  have hbits : (ofMessage m).bitCount.toNat = 8 * m.length := by
    rw [show (ofMessage m).bitCount = 8 * m.length from rfl]
    omega
  rw [padding, hzeros, hbits, Standard.pad]

theorem chain_ofMessage (m : Octets) :
    (ofMessage m).chain =
      Chain.ofState (((fullBlocks m).map Vector.toList).foldl Standard.compress
        Standard.initial) := by
  rw [← foldl_compress_ofState, ← Chain.initial_eq_ofState]
  rfl

theorem isWords_ofMessage (m : Octets) : (ofMessage m).chain.IsWords := by
  rw [chain_ofMessage]
  exact Chain.isWords_ofState _

theorem octets_absorb_padding (m : Octets) :
    ((ofMessage m).absorb (ofMessage m).padding).chain.octets = Standard.digest m := by
  rw [absorb_ofMessage, append_padding, chain_ofMessage, Chain.octets_ofState,
    ← chunks_eq_fullBlocks (Standard.length_pad_mod m), Standard.digest]

theorem final_ofMessage {m : Octets} (h : m.length ≤ maxMessageOctets) :
    (ofMessage m).final = (.ok (Standard.digest m), fresh) := by
  have hcount : (ofMessage m).countFault? = none := by
    have hbits : (ofMessage m).bitCount = 8 * m.length := rfl
    unfold maxMessageOctets at h
    rw [countFault?, hbits, if_neg (by omega), if_neg (by omega)]
  rw [final, hcount]
  simp only [octets_absorb_padding]

/-! ## Data that is absorbed -/

theorem fits_ofMessage (m : Octets) (n : Int) :
    (ofMessage m).fits n = decide (m.length + n ≤ maxMessageOctets) := by
  rw [fits, show (ofMessage m).bitCount / 8 = m.length by simp [ofMessage]]

theorem new_octets (m : Octets) :
    new (.octets m) =
      if m.length ≤ maxMessageOctets then .ok (ofMessage m) else .error (.input .overCeiling) := by
  have hfits : fresh.fits m.length = decide (m.length ≤ maxMessageOctets) := by
    rw [← ofMessage_nil, fits_ofMessage]
    simp
  simp only [new, update, dataOctets, Datum.octets?, cutLength, hfits]
  by_cases h : m.length ≤ maxMessageOctets
  · simp [h, ← ofMessage_nil, absorb_ofMessage]
  · simp [h]

end Context

/-! ## Hashing in one call -/

theorem digest_of_le {m : Octets} (h : m.length ≤ maxMessageOctets) :
    digest (.octets m) = .ok (Standard.digest m) := by
  rw [digest, Context.new_octets, if_pos h]
  simp only [Context.final_ofMessage h]

theorem digest_of_gt {m : Octets} (h : maxMessageOctets < m.length) :
    digest (.octets m) = .error (.input .overCeiling) := by
  rw [digest, Context.new_octets, if_neg (by omega)]

/-- Octets within the ceiling are hashed as the standard says, and beyond it they are refused. -/
theorem digest_octets (m : Octets) :
    digest (.octets m) =
        (if m.length ≤ maxMessageOctets then .ok (Standard.digest m)
          else .error (.input .overCeiling)) ∧
      IsLeast {z | 64 ∣ m.length + 1 + z + 8} (Standard.zeros m.length) := by
  refine ⟨?_, Standard.isLeast_zeros m.length⟩
  split_ifs with h
  · exact digest_of_le h
  · exact digest_of_gt (by omega)

end SaltedHash.Sha1
