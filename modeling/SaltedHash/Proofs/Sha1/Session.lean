import Mathlib
import SaltedHash.Proofs.Sha1.Digest

/-!
# Sessions on one context

Whatever is done to a context, in whatever order and with whatever data, and however much of it is
refused, the context stays the one of the message that was absorbed since it was last fresh.
-/

namespace SaltedHash.Sha1

/-! ## Operations -/

inductive Operation where
  /-- A new context, which takes the place of the old one unless its data is refused. -/
  | new (data : Datum)
  | init
  | update (data length : Datum)
  | final
  | finalHex

inductive Answer where
  | done
  | verdict (absorbed : Bool)
  | digest (octets : Octets)
  | text (t : Text)

namespace Operation

def perform (c : Context) : Operation → Except Fault Answer × Context
  | new data =>
    match Context.new data with
    | .ok c => (.ok .done, c)
    | .error cause => (.error cause, c)
  | init => (.ok .done, Context.fresh)
  | update data length => ((c.update data length).1.map .verdict, (c.update data length).2)
  | final => (c.final.1.map .digest, c.final.2)
  | finalHex => (c.finalHex.1.map .text, c.finalHex.2)

def absorbed (data length : Datum) : Octets :=
  match length.integer? with
  | some n => (data.octets?.getD []).take n.toNat
  | none => data.octets?.getD []

def extend (m : Octets) : Operation → Octets
  | new data => absorbed data .nothing
  | update data length => m ++ absorbed data length
  | init | final | finalHex => []

end Operation

/-! ## Sessions -/

/-- A context, and the message that the answers say it has absorbed. -/
structure Session where
  context : Context
  message : Octets

namespace Session

def start : Session := ⟨Context.fresh, []⟩

def step (s : Session) (operation : Operation) : Session :=
  let (answer, context) := operation.perform s.context
  { context, message := if answer.isOk then operation.extend s.message else s.message }

def run (operations : List Operation) : Session := operations.foldl step start

end Session

/-! ## What an update can do -/

theorem cutLength_eq_whole {length : Datum} {available : Nat} {n : Int}
    (h : cutLength length available = .ok (.whole n)) :
    0 ≤ n ∧ n ≤ available ∧ length.integer?.getD available = n := by
  unfold cutLength at h
  split at h
  · have hn : (available : Int) = n := by simpa using h
    subst hn
    simp [Datum.integer?, Datum.number?]
  · split at h
    · cases h
    · rename_i number hnumber
      split_ifs at h with hbelow habove
      have hn : number = .whole n := by simpa using h
      subst hn
      simp only [Datum.Number.below, Datum.Number.above, decide_eq_true_eq] at hbelow habove
      refine ⟨by omega, by omega, ?_⟩
      simp [Datum.integer?, hnumber]

namespace Operation

theorem absorbed_nothing (length : Datum) : absorbed .nothing length = [] := by
  unfold absorbed
  cases length.integer? <;> simp [Datum.octets?]

theorem absorbed_of_cut {data length : Datum} {octets : Octets} {n : Int}
    (hdata : data.octets? = some octets) (hcut : cutLength length octets.length = .ok (.whole n)) :
    absorbed data length = octets.take n.toNat ∧ ((octets.take n.toNat).length : Int) = n := by
  obtain ⟨hpos, hmost, hlength⟩ := cutLength_eq_whole hcut
  constructor
  · unfold absorbed
    rw [hdata]
    cases hinteger : length.integer? with
    | none =>
      -- Without a length all octets are asked for.
      have hall : (octets.length : Int) = n := by simpa [hinteger] using hlength
      simp [← hall]
    | some k =>
      have hk : k = n := by simpa [hinteger] using hlength
      simp [hk]
  · rw [List.length_take]
    omega

end Operation

namespace Context

theorem update_cases (c : Context) (data length : Datum) :
    (∃ cause, c.update data length = (.error cause, c)) ∨
      (∃ answer, c.update data length = (.ok answer, c.absorb (Operation.absorbed data length)) ∧
        (Operation.absorbed data length = [] ∨
          c.fits (Operation.absorbed data length).length = true)) := by
  unfold update
  split
  · -- Nothing is handed in: either the length is refused or nothing is absorbed.
    have hnone := Operation.absorbed_nothing length
    split
    · exact .inl ⟨_, rfl⟩
    · exact .inl ⟨_, rfl⟩
    · refine .inr ⟨false, ?_, .inl hnone⟩
      rw [hnone, absorb]
  · split
    · -- The data is refused.
      exact .inl ⟨_, rfl⟩
    · rename_i octets hoctets
      split
      · exact .inl ⟨_, rfl⟩
      · exact .inl ⟨_, rfl⟩
      · -- So many octets are taken, unless they pass the ceiling.
        rename_i n hcut
        obtain ⟨habsorbed, hsize⟩ :=
          Operation.absorbed_of_cut (dataOctets_eq_ok_iff.mp hoctets) hcut
        split_ifs with hfits
        · refine .inr ⟨true, by rw [habsorbed], .inr ?_⟩
          rw [habsorbed, hsize]
          exact hfits
        · exact .inl ⟨_, rfl⟩

end Context

/-! ## What a session keeps -/

namespace Session

/-- The context is the one of the message, and the message is within the ceiling. -/
def Consistent (s : Session) : Prop :=
  s.message.length ≤ maxMessageOctets ∧ s.context = Context.ofMessage s.message

theorem consistent_start : start.Consistent :=
  ⟨Nat.zero_le _, Context.ofMessage_nil.symm⟩

theorem step_of_ok {s : Session} {operation : Operation} {answer : Answer} {c : Context}
    (h : operation.perform s.context = (.ok answer, c)) :
    s.step operation = ⟨c, operation.extend s.message⟩ := by
  simp [step, h, Except.isOk, Except.toBool]

theorem step_of_error {s : Session} {operation : Operation} {cause : Fault}
    (h : operation.perform s.context = (.error cause, s.context)) : s.step operation = s := by
  simp [step, h, Except.isOk, Except.toBool]

theorem consistent_update {s : Session} (h : s.Consistent) (data length : Datum) :
    (s.step (.update data length)).Consistent := by
  rcases s.context.update_cases data length with ⟨cause, hcause⟩ | ⟨answer, hanswer, hfits⟩
  · -- The update is refused: context and message stay as they are.
    have hperform : (Operation.update data length).perform s.context =
        (.error cause, s.context) := by
      simp only [Operation.perform, hcause, Except.map]
    rw [step_of_error hperform]
    exact h
  · have hperform : (Operation.update data length).perform s.context =
        (.ok (.verdict answer), s.context.absorb (Operation.absorbed data length)) := by
      simp only [Operation.perform, hanswer, Except.map]
    obtain ⟨hlength, hcontext⟩ := h
    rw [step_of_ok hperform]
    constructor
    · show (s.message ++ Operation.absorbed data length).length ≤ maxMessageOctets
      rw [List.length_append]
      rcases hfits with hnone | hfits
      · simpa [hnone] using hlength
      · rw [hcontext, Context.fits_ofMessage, decide_eq_true_eq] at hfits
        exact_mod_cast hfits
    · show s.context.absorb _ = Context.ofMessage (s.message ++ Operation.absorbed data length)
      rw [hcontext, Context.absorb_ofMessage]

theorem consistent_new {s : Session} (h : s.Consistent) (data : Datum) :
    (s.step (.new data)).Consistent := by
  rcases Context.fresh.update_cases data .nothing with ⟨cause, hcause⟩ | ⟨answer, hanswer, hfits⟩
  · have hperform : (Operation.new data).perform s.context = (.error cause, s.context) := by
      simp only [Operation.perform, Context.new, hcause]
    rw [step_of_error hperform]
    exact h
  · have hperform : (Operation.new data).perform s.context =
        (.ok .done, Context.ofMessage (Operation.absorbed data .nothing)) := by
      simp only [Operation.perform, Context.new, hanswer]
      rw [← Context.ofMessage_nil, Context.absorb_ofMessage, List.nil_append]
    rw [step_of_ok hperform]
    refine ⟨?_, rfl⟩
    show (Operation.absorbed data .nothing).length ≤ maxMessageOctets
    rcases hfits with hnone | hfits
    · simp [hnone]
    · rw [← Context.ofMessage_nil, Context.fits_ofMessage, decide_eq_true_eq] at hfits
      simpa using hfits

theorem consistent_step {s : Session} (h : s.Consistent) (operation : Operation) :
    (s.step operation).Consistent := by
  cases operation with
  | new data => exact consistent_new h data
  | init => exact consistent_start
  | update data length => exact consistent_update h data length
  | final | finalHex =>
    obtain ⟨hlength, hcontext⟩ := h
    simp only [step, Operation.perform, Context.finalHex, hcontext, Context.final_ofMessage hlength]
    exact consistent_start

theorem consistent_run (operations : List Operation) : (run operations).Consistent := by
  unfold run
  induction operations using List.reverseRecOn with
  | nil => exact consistent_start
  | append_singleton before operation ih =>
    rw [List.foldl_append, List.foldl_cons, List.foldl_nil]
    exact consistent_step ih operation

end Session

/-- A context shows a message in its count, its accumulators and its block. -/
structure Context.Shows (c : Context) (m : Octets) : Prop where
  length_le : m.length ≤ maxMessageOctets
  bitCount_eq : c.bitCount = 8 * m.length
  buffered_eq : c.buffered.val = m.length % 64
  /-- The loop that absorbs takes in an octet at least with every pass. -/
  room_pos : 0 < c.room
  block_eq : c.block.toList =
    m.drop (m.length - m.length % 64) ++ List.replicate (64 - m.length % 64) 0
  chain_eq : c.chain = (fullBlocks m).foldl compress Chain.initial
  isWords : c.chain.IsWords

theorem Context.shows_ofMessage {m : Octets} (h : m.length ≤ maxMessageOctets) :
    (ofMessage m).Shows m where
  length_le := h
  bitCount_eq := rfl
  buffered_eq := rfl
  room_pos := Nat.sub_pos_of_lt (ofMessage m).buffered.isLt
  block_eq := by
    have hend : m.length / 64 * 64 = m.length - m.length % 64 := by omega
    rw [← hend, ← Block.toList_ofMessage_last]
    rfl
  chain_eq := rfl
  isWords := isWords_ofMessage m

/-- After every session the context shows the message absorbed since it was last fresh, and closing
it gives the digest of that message. -/
theorem session_shows_message (operations : List Operation) :
    let s := Session.run operations
    s.context.Shows s.message ∧
      ∃ octets, digest (.octets s.message) = .ok octets ∧
        s.context.final = (.ok octets, Context.fresh) ∧
        s.context.finalHex = (.ok (Hex.encode octets), Context.fresh) := by
  obtain ⟨hlength, hcontext⟩ := Session.consistent_run operations
  intro s
  have hfinal : s.context.final = (.ok (Standard.digest s.message), Context.fresh) := by
    rw [hcontext]
    exact Context.final_ofMessage hlength
  refine ⟨?_, Standard.digest s.message, digest_of_le hlength, hfinal, ?_⟩
  · rw [hcontext]
    exact Context.shows_ofMessage hlength
  · rw [Context.finalHex, hfinal]
    rfl

end SaltedHash.Sha1
