import Mathlib
import SaltedHash.HashStream
import SaltedHash.Proofs.Sha1.Digest

/-!
# Streams are hashed like octets

However a stream is cut into reads, its digest is the one that its octets have in one call, and it is
refused where they are.
-/

namespace SaltedHash

/-! ## Pieces -/

theorem Octets.ne_nil_of_mem_chunks {α : Type} {size : Nat} (hs : size ≠ 0) {items : List α} :
    ∀ piece ∈ Octets.chunks size items, piece ≠ [] := by
  induction h : items.length using Nat.strongRecOn generalizing items with
  | _ n ih =>
    by_cases hne : items = []
    · simp [hne, Octets.chunks_nil]
    · have hpos := List.length_pos_iff.mpr hne
      have hless : (items.drop size).length < n := by
        rw [List.length_drop]
        omega
      rw [Octets.chunks_of_ne_nil hs hne, List.forall_mem_cons]
      refine ⟨?_, ih _ hless rfl⟩
      apply List.ne_nil_of_length_pos
      rw [List.length_take]
      omega

theorem Sha1.Context.update_ofMessage (m x : Octets) :
    (ofMessage m).update (.octets x) .nothing =
      if m.length + x.length ≤ maxMessageOctets then (.ok true, ofMessage (m ++ x))
      else (.error (.input .overCeiling), ofMessage m) := by
  unfold update
  simp only [dataOctets, Datum.octets?, cutLength, fits_ofMessage, absorb_ofMessage,
    Int.toNat_natCast, List.take_length, decide_eq_true_eq]
  norm_cast

namespace HashStream

open Sha1 (Context)

theorem absorbChunks_ofMessage {pieces : List Octets} (h : ∀ piece ∈ pieces, piece ≠ [])
    {m : Octets} (hm : m.length ≤ maxMessageOctets) :
    absorbChunks (Context.ofMessage m) (pieces.map .octets) =
      if m.length + pieces.flatten.length ≤ maxMessageOctets then
        .ok (Context.ofMessage (m ++ pieces.flatten))
      else .error (.input .overCeiling) := by
  induction pieces generalizing m with
  | nil => simp [absorbChunks, hm]
  | cons piece rest ih =>
    rw [List.forall_mem_cons] at h
    have hsome : (Datum.octets piece).isSome = .ok true := by
      simpa [Datum.isSome, Datum.count, Datum.length?, Except.map] using h.1
    rw [List.map_cons, absorbChunks, hsome, Context.update_ofMessage, List.flatten_cons,
      List.length_append, ← Nat.add_assoc, ← List.append_assoc, ← List.length_append]
    by_cases hfits : (m ++ piece).length ≤ maxMessageOctets
    · simp only [if_pos hfits]
      exact ih h.2 hfits
    · have hover : ¬ (m ++ piece).length + rest.flatten.length ≤ maxMessageOctets := by omega
      simp only [if_neg hfits, if_neg hover]

theorem digestChunks_octets {pieces : List Octets} (h : ∀ piece ∈ pieces, piece ≠ []) :
    digestChunks (pieces.map .octets) = Sha1.digestHex (.octets pieces.flatten) := by
  have hempty : ([] : Octets).length ≤ maxMessageOctets := Nat.zero_le _
  have hpieces := absorbChunks_ofMessage h hempty
  rw [Context.ofMessage_nil, List.nil_append, List.length_nil, Nat.zero_add] at hpieces
  unfold digestChunks Sha1.digestHex
  rw [hpieces]
  by_cases hfits : pieces.flatten.length ≤ maxMessageOctets
  · rw [if_pos hfits, Sha1.digest_of_le hfits]
    show (Context.ofMessage pieces.flatten).finalHex.1 = _
    rw [Context.finalHex, Context.final_ofMessage hfits]
  · rw [if_neg hfits, Sha1.digest_of_gt (by omega)]
    rfl

theorem digestChunks_chunks {size : Nat} (hs : size ≠ 0) (content : Octets) :
    digestChunks ((Octets.chunks size content).map .octets) =
      Sha1.digestHex (.octets content) := by
  rw [digestChunks_octets (Octets.ne_nil_of_mem_chunks hs), Octets.flatten_chunks hs]

/-! ## Reads -/

theorem digestContent_eq {size : Int} (hpos : 0 < size) (hmost : size ≤ maxRead)
    (content : Octets) : digestContent content size = Sha1.digestHex (.octets content) := by
  have hread : ¬ (maxRead < size ∨ size < -maxRead - 1) := by
    unfold maxRead at *
    omega
  have hall : ¬ size < 0 := by omega
  unfold digestContent reads
  rw [if_neg hread, if_neg hall]
  exact digestChunks_chunks (by omega) content

structure Bufferable (room : Nat) (size : Int) : Prop where
  le_maxBuffer : size ≤ maxBuffer
  le_room : size ≤ room

theorem digestFile_eq {room : Nat} {size : Int} (hpos : 0 < size) (h : Bufferable room size)
    (content : Octets) : digestFile room content size = Sha1.digestHex (.octets content) := by
  obtain ⟨hbuffer, hroom⟩ := h
  have hread : size ≤ maxRead := hbuffer.trans (by decide)
  unfold digestFile
  rw [if_neg (by omega), if_neg (by omega)]
  exact digestContent_eq hpos hread content

/-- A read from an input takes a size: in memory what a machine word holds, else what there is a buffer
for. -/
def Input.Takes (input : Input) (room : Nat) (size : Int) : Prop :=
  if input.inMemory then size ≤ maxRead else Bufferable room size

theorem digestInput_eq {room : Nat} {size : Int} {input : Input} (hpos : 0 < size)
    (h : input.Takes room size) :
    digestInput room input size = Sha1.digestHex (.octets input.content) := by
  unfold Input.Takes at h
  unfold digestInput
  split_ifs at h ⊢ with hmemory
  · exact digestContent_eq hpos h input.content
  · exact digestFile_eq hpos h input.content

theorem digestHex_octets (content : Octets) :
    Sha1.digestHex (.octets content) =
      if content.length ≤ maxMessageOctets then .ok (Hex.encode (Sha1.Standard.digest content))
      else .error (.input .overCeiling) := by
  unfold Sha1.digestHex
  by_cases hfits : content.length ≤ maxMessageOctets
  · rw [if_pos hfits, Sha1.digest_of_le hfits]
    rfl
  · rw [if_neg hfits, Sha1.digest_of_gt (by omega)]
    rfl

/-! ## The chunk that ends a stream -/

theorem absorbChunks_ended (c : Context) (chunks later : List Datum) :
    absorbChunks c (chunks ++ .octets [] :: later) = absorbChunks c chunks := by
  induction chunks generalizing c with
  | nil => rfl
  | cons chunk rest ih =>
    simp only [List.cons_append, absorbChunks]
    split
    · rfl
    · rfl
    · split
      · exact ih _
      · rfl

theorem digestChunks_ended (chunks later : List Datum) :
    digestChunks (chunks ++ .octets [] :: later) = digestChunks chunks := by
  simp only [digestChunks, absorbChunks_ended]

/-! ## Sizes that a read takes -/

def Readable (size : Int) : Prop := -maxRead - 1 ≤ size ∧ size ≤ maxRead

theorem digestContent_of_readable {size : Int} (h : Readable size) (hne : size ≠ 0)
    (content : Octets) : digestContent content size = Sha1.digestHex (.octets content) := by
  rcases lt_or_gt_of_ne hne with hneg | hpos
  · have hread : ¬ (maxRead < size ∨ size < -maxRead - 1) := by
      have := h.1
      have := h.2
      omega
    simp only [digestContent, reads, if_neg hread, if_pos hneg]
    by_cases hcontent : content = []
    · have hnone := digestChunks_octets (List.forall_mem_nil fun piece : Octets => piece ≠ [])
      rw [hcontent]
      exact (digestChunks_ended [] []).trans hnone
    · have hone := digestChunks_octets (List.forall_mem_singleton.mpr hcontent)
      simpa using hone
  · exact digestContent_eq hpos h.2 content

end HashStream

end SaltedHash
