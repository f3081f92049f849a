import Mathlib
import SaltedHash.Proofs.Datum.Items
import SaltedHash.Proofs.HashStream
import SaltedHash.Proofs.Hex
import SaltedHash.Proofs.Record.Serialization
import SaltedHash.SelfTest

/-!
# Known answers are checked to the end

Vectors whose messages are octets within the ceiling are computed and checked without a fault, whatever
their digests. If the digests are hexadecimal they are printed without a fault too.
-/

namespace SaltedHash.SelfTest

/-! ## One vector -/

def KnownDigest.Of (v : KnownDigest) (m : Octets) : Prop :=
  v.message = .octets m ∧ m.length ≤ maxMessageOctets

def hexOf (m : Octets) : Text := Hex.encode (Sha1.Standard.digest m)

theorem compute_of {second : Hash} (hsecond : second.MeetsStandard) {v : KnownDigest} {m : Octets}
    (h : v.Of m) : compute second v = .ok ⟨v, hexOf m, hexOf m⟩ := by
  have hcomputed : Sha1.digestHex v.message = .ok (hexOf m) := by
    rw [h.1, HashStream.digestHex_octets, if_pos h.2]
    rfl
  have hreference : second v.message = .ok (Sha1.Standard.digest m) := by
    rw [h.1]
    exact hsecond m h.2
  unfold compute
  rw [hcomputed, hreference]
  rfl

theorem inPieces_of {v : KnownDigest} {m : Octets} (h : v.Of m) {size : Nat} (hs : size ≠ 0) :
    inPieces v.message size = .ok (hexOf m) := by
  rw [h.1]
  unfold inPieces pieces
  rw [Except.bind, HashStream.digestChunks_chunks hs, HashStream.digestHex_octets, if_pos h.2]
  rfl

/-- The pieces have the digest of the whole, so none of their sizes is a bad one if that is known. -/
theorem badPieces_of {c : Computed} {m : Octets} (h : c.vector.Of m)
    (hknown : isKnown c.vector (hexOf m) = true) {sizes : List Nat} (hs : ∀ size ∈ sizes, size ≠ 0) :
    badPieces c sizes = .ok none := by
  induction sizes with
  | nil => rfl
  | cons size rest ih =>
    rw [List.forall_mem_cons] at hs
    rw [badPieces, inPieces_of h hs.1]
    show (if isKnown c.vector (hexOf m) then badPieces c rest else _) = _
    rw [if_pos hknown, ih hs.2]

theorem vectorFailure_of {v : KnownDigest} {m : Octets} (h : v.Of m) (i : Nat) :
    vectorFailure i ⟨v, hexOf m, hexOf m⟩ =
      .ok (if isKnown v (hexOf m) then none else some (failureReport i ⟨v, hexOf m, hexOf m⟩)) := by
  unfold vectorFailure
  simp only [Bool.and_self]
  cases hknown : isKnown v (hexOf m) with
  | false => rfl
  | true =>
    have hpieces : badPieces ⟨v, hexOf m, hexOf m⟩ pieceSizes = .ok none :=
      badPieces_of h hknown (by decide)
    simp only [hpieces]
    rfl

/-! ## Right answers -/

def KnownDigest.IsRight (v : KnownDigest) : Prop :=
  ∃ m, v.message = .octets m ∧ v.digest = .text (hexOf m)

theorem equal_text_iff {d : Datum} {t : Text} : d.equal (.text t) = true ↔ d = .text t := by
  cases d with
  | text s => simp [Datum.equal_text]
  | _ => simp [Datum.equal, Datum.number?, Datum.sameItems, Datum.items?]

theorem isRight_iff {v : KnownDigest} {m : Octets} (h : v.Of m) :
    v.IsRight ↔ isKnown v (hexOf m) = true := by
  rw [isKnown, equal_text_iff, KnownDigest.IsRight, h.1]
  simp

/-! ## The first that fails -/

/-- An item is the first in a list without a property, and others stand before it. -/
structure FirstWithout {α : Type} (P : α → Prop) (items before : List α) (x : α) : Prop where
  split : ∃ after, items = before ++ x :: after
  earlier : ∀ y ∈ before, P y
  fails : ¬ P x

theorem FirstWithout.head {α : Type} {P : α → Prop} {x : α} {rest : List α} (h : ¬ P x) :
    FirstWithout P (x :: rest) [] x :=
  ⟨⟨rest, rfl⟩, by simp, h⟩

theorem FirstWithout.cons {α : Type} {P : α → Prop} {items before : List α} {x y : α}
    (h : FirstWithout P items before x) (hy : P y) : FirstWithout P (y :: items) (y :: before) x := by
  obtain ⟨⟨after, rfl⟩, hearlier, hfails⟩ := h
  exact ⟨⟨after, rfl⟩, List.forall_mem_cons.mpr ⟨hy, hearlier⟩, hfails⟩

theorem FirstWithout.map {α β : Type} {P : β → Prop} {f : α → β} {items before : List α} {x : α}
    (h : FirstWithout (fun y => P (f y)) items before x) :
    FirstWithout P (items.map f) (before.map f) (f x) := by
  obtain ⟨⟨after, rfl⟩, hearlier, hfails⟩ := h
  exact ⟨⟨after.map f, by simp⟩, by simpa using hearlier, hfails⟩

theorem FirstWithout.mem {α : Type} {P : α → Prop} {items before : List α} {x : α}
    (h : FirstWithout P items before x) : x ∈ items := by
  obtain ⟨⟨after, rfl⟩, -, -⟩ := h
  simp

theorem FirstWithout.not_all {α : Type} {P : α → Prop} {items before : List α} {x : α}
    (h : FirstWithout P items before x) : ¬ ∀ y ∈ items, P y := by
  intro hall
  exact h.fails (hall x h.mem)

/-! ## All vectors -/

def Computed.Right (c : Computed) : Prop :=
  ∃ m, c.vector.Of m ∧ c.computed = hexOf m ∧ c.reference = hexOf m

theorem generateWith_eq_ok {second : Hash} (hsecond : second.MeetsStandard)
    {vectors : List KnownDigest} (h : ∀ v ∈ vectors, ∃ m, v.Of m) :
    ∃ computed, generateWith second vectors = .ok computed ∧
      computed.map Computed.vector = vectors ∧ ∀ c ∈ computed, c.Right := by
  unfold generateWith
  induction vectors with
  | nil => exact ⟨[], rfl, rfl, by simp⟩
  | cons v rest ih =>
    rw [List.forall_mem_cons] at h
    obtain ⟨⟨m, hm⟩, hrest⟩ := h
    obtain ⟨computed, hcomputed, hvectors, hright⟩ := ih hrest
    refine ⟨⟨v, hexOf m, hexOf m⟩ :: computed, ?_, ?_, ?_⟩
    · rw [List.mapM_cons, compute_of hsecond hm, hcomputed]
      rfl
    · rw [List.map_cons, hvectors]
    · rw [List.forall_mem_cons]
      exact ⟨⟨m, hm, rfl, rfl⟩, hright⟩

theorem Computed.Right.exists_eq {c : Computed} (h : c.Right) :
    ∃ v m, v.Of m ∧ c = ⟨v, hexOf m, hexOf m⟩ := by
  obtain ⟨v, computed, reference⟩ := c
  obtain ⟨m, hm, rfl, rfl⟩ := h
  exact ⟨v, m, hm, rfl⟩

theorem Computed.Right.isRight_iff {c : Computed} (h : c.Right) :
    c.vector.IsRight ↔ isKnown c.vector c.computed = true := by
  obtain ⟨v, m, hm, rfl⟩ := h.exists_eq
  exact SelfTest.isRight_iff hm

theorem vectorFailure_of_right {c : Computed} (h : c.Right) (i : Nat) :
    vectorFailure i c =
      .ok (if isKnown c.vector c.computed then none else some (failureReport i c)) := by
  obtain ⟨v, m, hm, rfl⟩ := h.exists_eq
  exact vectorFailure_of hm i

theorem firstVectorFailure_cases {computed : List Computed} (h : ∀ c ∈ computed, c.Right) (i : Nat) :
    (∀ c ∈ computed, c.vector.IsRight) ∧ firstVectorFailure i computed = .ok none ∨
      ∃ before c, FirstWithout (fun c => c.vector.IsRight) computed before c ∧
        firstVectorFailure i computed = .ok (some (failureReport (i + before.length) c)) := by
  induction computed generalizing i with
  | nil => exact .inl ⟨by simp, rfl⟩
  | cons c rest ih =>
    rw [List.forall_mem_cons] at h
    rw [firstVectorFailure, vectorFailure_of_right h.1]
    by_cases hknown : isKnown c.vector c.computed = true
    · -- This one is right, so the first that is wrong is the first in the rest.
      have hright := h.1.isRight_iff.mpr hknown
      rw [if_pos hknown]
      show _ ∧ firstVectorFailure (i + 1) rest = _ ∨
        ∃ before d, _ ∧ firstVectorFailure (i + 1) rest = _
      obtain ⟨hall, hnone⟩ | ⟨before, d, hfirst, hsome⟩ := ih h.2 (i + 1)
      · exact .inl ⟨List.forall_mem_cons.mpr ⟨hright, hall⟩, hnone⟩
      · refine .inr ⟨c :: before, d, hfirst.cons hright, ?_⟩
        rw [hsome, List.length_cons, Nat.add_assoc, Nat.add_comm 1]
    · rw [if_neg hknown]
      exact .inr ⟨[], c, .head (mt h.1.isRight_iff.mp hknown), rfl⟩

/-! ## What is written -/

theorem Report.fault_ofLines {lines : List (Except Fault Text)} (h : ∀ line ∈ lines, ∃ t, line = .ok t) :
    (Report.ofLines lines).fault = none := by
  induction lines with
  | nil => rfl
  | cons line rest ih =>
    rw [List.forall_mem_cons] at h
    obtain ⟨⟨t, rfl⟩, hrest⟩ := h
    exact ih hrest

/-! ## Printing -/

def KnownDigest.Printable (v : KnownDigest) : Prop :=
  ∃ t o, v.digest = .text t ∧ Hex.decode t = .ok o ∧ ∃ name, v.description = .text name

def KnownDigest.Named (v : KnownDigest) : Prop :=
  (∃ t, v.description = .text t) ∧ ∃ t, v.digest = .text t

theorem KnownDigest.Printable.named {v : KnownDigest} (h : v.Printable) : v.Named := by
  obtain ⟨t, -, hdigest, -, name, hname⟩ := h
  exact ⟨⟨name, hname⟩, t, hdigest⟩

theorem knownOctets_eq_ok {t : Text} {o : Octets} (h : Hex.decode t = .ok o) :
    ∃ text, knownOctets (.text t) = .ok text := by
  unfold knownOctets
  simp only [Record.hexField_eq_ok_iff.mpr h]
  exact ⟨_, rfl⟩

theorem vectorReport_fault {c : Computed} (h : c.Right) (hprintable : c.vector.Printable) (i : Nat) :
    (vectorReport i c).fault = none := by
  obtain ⟨m, ⟨hmessage, -⟩, hcomputed, -⟩ := h
  obtain ⟨t, o, hdigest, ho, name, hname⟩ := hprintable
  obtain ⟨first, hfirst⟩ := knownOctets_eq_ok (Hex.decode_encode (Sha1.Standard.digest m))
  obtain ⟨second, hsecond⟩ := knownOctets_eq_ok ho
  apply Report.fault_ofLines
  rw [← hexOf, ← hcomputed] at hfirst
  simp only [hname, hmessage, hdigest, hfirst, hsecond, List.forall_mem_cons]
  exact ⟨⟨_, rfl⟩, ⟨_, rfl⟩, ⟨_, rfl⟩, ⟨_, rfl⟩, nofun⟩

theorem vectorLines_fault {computed : List Computed}
    (h : ∀ c ∈ computed, c.Right ∧ c.vector.Printable) (i : Nat) :
    (vectorLines i computed).fault = none := by
  induction computed generalizing i with
  | nil => rfl
  | cons c rest ih =>
    rw [List.forall_mem_cons] at h
    obtain ⟨⟨hright, hprintable⟩, hrest⟩ := h
    simp only [vectorLines, vectorReport_fault hright hprintable]
    exact ih hrest (i + 1)

theorem print_eq_ok [Cryptography] {vectors : List KnownDigest} (h : ∀ v ∈ vectors, ∃ m, v.Of m)
    (hprintable : ∀ v ∈ vectors, v.Printable) : (print vectors).value = .ok () := by
  obtain ⟨computed, hcomputed, hvectors, hright⟩ :=
    generateWith_eq_ok Cryptography.meetsStandard h
  have hlines : (vectorLines 0 computed).fault = none := by
    apply vectorLines_fault
    intro c hc
    refine ⟨hright c hc, hprintable c.vector ?_⟩
    rw [← hvectors]
    exact List.mem_map_of_mem hc
  unfold print generate
  rw [hcomputed]
  simp only [hlines]

/-! ## The vectors that come with the program -/

theorem vectors_usable : ∀ v ∈ vectors, (∃ m, v.Of m) ∧ v.Printable := by
  have hknown (description message digest : String)
      (hsize : (octetsOf message).length ≤ maxMessageOctets)
      (hdigest : (Hex.decode digest).isOk = true) :
      (∃ m, (known description message digest).Of m) ∧
        (known description message digest).Printable := by
    refine ⟨⟨_, rfl, hsize⟩, ?_⟩
    cases hdecoded : Hex.decode digest with
    | error place =>
      rw [hdecoded] at hdigest
      cases hdigest
    | ok o => exact ⟨_, o, rfl, hdecoded, _, rfl⟩
  unfold vectors
  rw [List.forall_mem_cons, List.forall_mem_cons, List.forall_mem_cons, List.forall_mem_singleton]
  refine ⟨hknown _ _ _ ?_ ?_, hknown _ _ _ ?_ ?_, hknown _ _ _ ?_ ?_, hknown _ _ _ ?_ ?_⟩
  all_goals decide +kernel

end SaltedHash.SelfTest
