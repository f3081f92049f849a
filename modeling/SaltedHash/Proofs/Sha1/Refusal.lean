import Mathlib
import SaltedHash.Proofs.Datum.Display
import SaltedHash.Proofs.Sha1.Salted
import SaltedHash.Proofs.Sha1.Session

/-!
# Steps that are refused

What a step does to a context with any count of bits, also one that was overwritten and has nothing to do
with the fill of the block. A step that is refused leaves the context as it was.
-/

namespace SaltedHash.Sha1

namespace Context

/-! ## Counting what is absorbed -/

theorem fill_bitCount (c : Context) (octets : Octets) :
    (c.fill octets).bitCount = c.bitCount + 8 * (octets.take c.room).length := by
  dsimp only [fill]
  split_ifs <;> rfl

theorem fill_buffered (c : Context) (octets : Octets) :
    (c.fill octets).buffered.val = (c.buffered.val + (octets.take c.room).length) % 64 := by
  have hroom : (octets.take c.room).length ≤ 64 - c.buffered.val := by
    rw [List.length_take]
    exact min_le_left _ _
  have := c.buffered.isLt
  dsimp only [fill]
  split_ifs with hfull
  · exact (Nat.mod_eq_of_lt hfull).symm
  · show 0 = _
    omega

theorem absorb_counts (c : Context) (octets : Octets) :
    (c.absorb octets).bitCount = c.bitCount + 8 * octets.length ∧
      (c.absorb octets).buffered.val = (c.buffered.val + octets.length) % 64 := by
  induction hn : octets.length using Nat.strongRecOn generalizing c octets with
  | _ n ih =>
    cases octets with
    | nil =>
      -- A block that is not full stays as it is.
      subst hn
      simp [absorb, Nat.mod_eq_of_lt c.buffered.isLt]
    | cons octet rest =>
      have hroom : 0 < c.room := Nat.sub_pos_of_lt c.buffered.isLt
      have hsplit : ((octet :: rest).take c.room).length +
          ((octet :: rest).drop c.room).length = n := by
        rw [← hn, ← List.length_append, List.take_append_drop]
      have hless : ((octet :: rest).drop c.room).length < n := by
        rw [List.length_drop]
        rw [List.length_cons] at *
        omega
      obtain ⟨hbits, hbuffered⟩ := ih _ hless (c.fill (octet :: rest)) _ rfl
      rw [absorb, hbits, hbuffered, fill_bitCount, fill_buffered]
      constructor <;> omega

/-! ## Updates -/

/-- A length asks for so many octets of data, for all there are if it is nothing. -/
def Asks (length : Datum) (available : Nat) (n : Int) : Prop :=
  length = .nothing ∧ n = available ∨ length.integer? = some n

structure Takes (c : Context) (available : Nat) (n : Int) : Prop where
  nonneg : 0 ≤ n
  le_available : n ≤ available
  le_ceiling : c.bitCount / 8 + n ≤ maxMessageOctets

/-- The fault of a length that is out of range. One of too many digits cannot be named. -/
def IsLengthFault (length : Datum) (cause : Fault) : Prop :=
  length.IsLong ∧ cause = .tooManyDigits ∨ ¬ length.IsLong ∧ ∃ input, cause = .input input

theorem isLengthFault_naming {length : Datum} {n : Datum.Number} (h : length.number? = some n)
    (cause : Text → InputFault) :
    IsLengthFault length (length.naming fun text => .input (cause text)) := by
  by_cases hlong : length.IsLong
  · exact .inl ⟨hlong, Datum.naming_of_isLong hlong _⟩
  · obtain ⟨text, htext⟩ := Datum.exists_naming h hlong fun text => .input (cause text)
    exact .inr ⟨hlong, cause text, htext⟩

theorem cutLength_of_asks {length : Datum} {available : Nat} {n : Int}
    (h : Asks length available n) :
    (0 ≤ n ∧ n ≤ available ∧ cutLength length available = .ok (.whole n)) ∨
      ¬ (0 ≤ n ∧ n ≤ available) ∧
        ∃ cause, IsLengthFault length cause ∧ cutLength length available = .error cause := by
  rcases h with ⟨rfl, rfl⟩ | hinteger
  · exact .inl ⟨by omega, le_refl _, rfl⟩
  · have hnumber := Datum.integer?_eq_some_iff.mp hinteger
    have hcut : cutLength length available =
        if n < 0 then .error (length.naming fun text => .input (.negativeLength text))
        else if (available : Int) < n then
          .error (length.naming fun text => .input (.excessLength text available))
        else .ok (.whole n) := by
      unfold cutLength
      split
      · cases hinteger
      · simp [hnumber, Datum.Number.below, Datum.Number.above]
    rw [hcut]
    split_ifs with hnegative hexcess
    -- Either way the fault names the length.
    · exact .inr ⟨by omega, _, isLengthFault_naming hnumber _, rfl⟩
    · exact .inr ⟨by omega, _, isLengthFault_naming hnumber _, rfl⟩
    · exact .inl ⟨by omega, by omega, rfl⟩

theorem update_of_octets {data : Datum} {octets : Octets} (h : data.octets? = some octets)
    (c : Context) (length : Datum) :
    c.update data length =
      match cutLength length octets.length with
      | .error cause => (.error cause, c)
      | .ok (.real x) => (.error (c.realCutFault x), c)
      | .ok (.whole n) =>
        if c.fits n then (.ok true, c.absorb (octets.take n.toNat))
        else (.error (.input .overCeiling), c) := by
  unfold update
  split
  · cases h
  · have hfound := dataOctets_eq_ok_iff.mpr h
    generalize dataOctets data = found at hfound ⊢
    subst hfound
    rfl

theorem update_of_asks {data length : Datum} {octets : Octets} {n : Int}
    (hdata : data.octets? = some octets) (hasks : Asks length octets.length n) (c : Context) :
    (c.Takes octets.length n ∧
        c.update data length = (.ok true, c.absorb (octets.take n.toNat))) ∨
      (¬ (0 ≤ n ∧ n ≤ octets.length) ∧
        ∃ cause, IsLengthFault length cause ∧ c.update data length = (.error cause, c)) ∨
      (0 ≤ n ∧ n ≤ octets.length) ∧ ¬ c.Takes octets.length n ∧
        c.update data length = (.error (.input .overCeiling), c) := by
  rw [update_of_octets hdata]
  rcases cutLength_of_asks hasks with ⟨hpos, hmost, hcut⟩ | ⟨hrange, cause, hcause, hcut⟩
  · simp only [hcut, fits, decide_eq_true_eq]
    split_ifs with hfits
    · exact .inl ⟨⟨hpos, hmost, hfits⟩, rfl⟩
    · exact .inr (.inr ⟨⟨hpos, hmost⟩, fun htakes => hfits htakes.le_ceiling, rfl⟩)
  · rw [hcut]
    exact .inr (.inl ⟨hrange, cause, hcause, rfl⟩)

theorem update_of_isVoid {data : Datum} (h : data.IsVoid) (c : Context) (length : Datum) :
    ∃ cause, c.update data length = (.error (.input cause), c) := by
  cases data with
  | view seen gapped =>
    obtain ⟨rfl, rfl⟩ := h
    exact ⟨.gapped, rfl⟩
  | grid g =>
    have hoctets := Datum.octets?_of_isVoid h
    exact ⟨if g.seen.isEmpty then .emptyGrid else .gapped,
      by simp only [update, dataOctets, hoctets]⟩
  | _ => cases h

/-! ## The end of a message -/

theorem length_padding_mod (c : Context) : (c.buffered.val + c.padding.length) % 64 = 0 := by
  simp only [padding, List.length_cons, List.length_append, List.length_replicate,
    Octets.length_ofNat]
  omega

theorem final_cases (c : Context) :
    ((c.bitCount < 0 ∨ 2 ^ 64 ≤ c.bitCount) ∧
        ∃ cause, cause.family = .overflow ∧ c.final = (.error cause, c)) ∨
      (0 ≤ c.bitCount ∧ c.bitCount < 2 ^ 64) ∧
        c.final = (.ok (c.absorb c.padding).chain.octets, fresh) := by
  unfold final countFault?
  split_ifs with hnegative hbig
  · exact .inl ⟨.inl hnegative, _, rfl, rfl⟩
  · exact .inl ⟨.inr hbig, _, rfl, rfl⟩
  · exact .inr ⟨⟨by omega, by omega⟩, rfl⟩

/-! ## Any step -/

theorem update_refused {c : Context} {data length : Datum} {cause : Fault}
    (h : (c.update data length).1 = .error cause) : (c.update data length).2 = c := by
  rcases c.update_cases data length with ⟨_, hrefused⟩ | ⟨answer, hdone, -⟩
  · rw [hrefused]
  · rw [hdone] at h
    cases h

theorem absorb_counts_of_takes {c : Context} {octets : Octets} {n : Int}
    (h : c.Takes octets.length n) :
    (c.absorb (octets.take n.toNat)).bitCount = c.bitCount + 8 * n ∧
      ((c.absorb (octets.take n.toNat)).buffered.val : Int) = (c.buffered.val + n) % 64 := by
  have hsize : ((octets.take n.toNat).length : Int) = n := by
    have := h.nonneg
    have := h.le_available
    rw [List.length_take]
    omega
  obtain ⟨hbits, hbuffered⟩ := c.absorb_counts (octets.take n.toNat)
  rw [hbits, hbuffered, hsize]
  push_cast [hsize]
  exact ⟨rfl, rfl⟩

theorem final_refused_iff {c : Context} :
    (∃ cause, c.final.1 = .error cause) ↔ c.bitCount < 0 ∨ 2 ^ 64 ≤ c.bitCount := by
  rcases c.final_cases with ⟨hcount, cause, -, hfinal⟩ | ⟨hcount, hfinal⟩
  · rw [hfinal]
    exact ⟨fun _ => hcount, fun _ => ⟨cause, rfl⟩⟩
  · rw [hfinal]
    constructor
    · rintro ⟨cause, ⟨⟩⟩
    · omega

theorem final_refused {c : Context} {cause : Fault} (h : c.final.1 = .error cause) :
    cause.family = .overflow ∧ c.final.2 = c := by
  rcases c.final_cases with ⟨-, found, hfamily, hfinal⟩ | ⟨-, hfinal⟩
  · rw [hfinal] at h ⊢
    cases h
    exact ⟨hfamily, rfl⟩
  · rw [hfinal] at h
    cases h

theorem final_closed {c : Context} {digest : Octets} (h : c.final.1 = .ok digest) :
    (c.buffered.val + c.padding.length) % 64 = 0 ∧ (c.absorb c.padding).buffered = 0 ∧
      digest.length = 20 ∧ c.final.2 = fresh := by
  rcases c.final_cases with ⟨-, found, -, hfinal⟩ | ⟨-, hfinal⟩
  · rw [hfinal] at h
    cases h
  · have hlast : (c.absorb c.padding).buffered.val = 0 := by
      rw [(c.absorb_counts c.padding).2, length_padding_mod]
    rw [hfinal] at h ⊢
    cases h
    exact ⟨c.length_padding_mod, Fin.ext hlast, Chain.length_octets _, rfl⟩

/-- A step that fails changes nothing. An update fails out of range, beyond the ceiling and for a
void window, and a message is not closed if its count does not fit eight octets. -/
theorem refused_unchanged (c : Context) :
    (∀ data length cause,
        (c.update data length).1 = .error cause → (c.update data length).2 = c) ∧
      (∀ data length octets n, data.memory? = some octets → Asks length octets.length n →
        let after := c.update data length
        ((∃ answer, after.1 = .ok answer) ↔ c.Takes octets.length n ∧ ¬ data.IsVoid) ∧
          (c.Takes octets.length n → ¬ data.IsVoid → after.1 = .ok true ∧
            after.2 = c.absorb (octets.take n.toNat) ∧
            after.2.bitCount = c.bitCount + 8 * n ∧
            (after.2.buffered.val : Int) = (c.buffered.val + n) % 64) ∧
          ∀ cause, after.1 = .error cause →
            (cause = .tooManyDigits ↔
              length.IsLong ∧ ¬ data.IsVoid ∧ ¬ (0 ≤ n ∧ n ≤ octets.length)) ∧
            (cause ≠ .tooManyDigits → ∃ input, cause = .input input)) ∧
      ((∃ cause, c.final.1 = .error cause) ↔ c.bitCount < 0 ∨ 2 ^ 64 ≤ c.bitCount) ∧
      (∀ cause, c.final.1 = .error cause → cause.family = .overflow ∧ c.final.2 = c) ∧
      ∀ digest, c.final.1 = .ok digest →
        (c.buffered.val + c.padding.length) % 64 = 0 ∧ (c.absorb c.padding).buffered = 0 ∧
          digest.length = 20 ∧ c.final.2 = fresh := by
  refine ⟨fun _ _ _ => update_refused, ?_, final_refused_iff, fun _ => final_refused,
    fun _ => final_closed⟩
  intro data length octets n hdata hasks after
  by_cases hvoid : data.IsVoid
  · -- A void window is refused, whatever the length.
    obtain ⟨input, hrefused⟩ := update_of_isVoid hvoid c length
    have hafter : after = (.error (.input input), c) := hrefused
    rw [hafter]
    refine ⟨⟨?_, fun htakes => absurd hvoid htakes.2⟩, fun _ hsound => absurd hvoid hsound, ?_⟩
    · rintro ⟨answer, ⟨⟩⟩
    · rintro cause ⟨⟩
      exact ⟨⟨nofun, fun hnamed => absurd hvoid hnamed.2.1⟩, fun _ => ⟨input, rfl⟩⟩
  have hoctets := Datum.octets?_eq_some_iff.mpr ⟨hdata, hvoid⟩
  rcases update_of_asks hoctets hasks c with
    ⟨htakes, hdone⟩ | ⟨hrange, cause, hcause, hrefused⟩ | ⟨hrange, hnot, hrefused⟩
  · -- The octets are taken.
    have hafter : after = (.ok true, c.absorb (octets.take n.toNat)) := hdone
    rw [hafter]
    refine ⟨⟨fun _ => ⟨htakes, hvoid⟩, fun _ => ⟨true, rfl⟩⟩,
      fun _ _ => ⟨rfl, rfl, absorb_counts_of_takes htakes⟩, ?_⟩
    rintro cause ⟨⟩
  · -- The length is out of range.
    have hafter : after = (.error cause, c) := hrefused
    have hnot : ¬ c.Takes octets.length n :=
      fun htakes => hrange ⟨htakes.nonneg, htakes.le_available⟩
    rw [hafter]
    refine ⟨⟨?_, fun htakes => absurd htakes.1 hnot⟩, fun htakes => absurd htakes hnot, ?_⟩
    · rintro ⟨answer, ⟨⟩⟩
    · rintro _ ⟨⟩
      rcases hcause with ⟨hlong, rfl⟩ | ⟨hshort, input, rfl⟩
      · exact ⟨⟨fun _ => ⟨hlong, hvoid, hrange⟩, fun _ => rfl⟩, absurd rfl⟩
      · exact ⟨⟨nofun, fun hnamed => absurd hnamed.1 hshort⟩, fun _ => ⟨input, rfl⟩⟩
  · -- The ceiling is reached.
    have hafter : after = (.error (.input .overCeiling), c) := hrefused
    rw [hafter]
    refine ⟨⟨?_, fun htakes => absurd htakes.1 hnot⟩, fun htakes => absurd htakes hnot, ?_⟩
    · rintro ⟨answer, ⟨⟩⟩
    · rintro _ ⟨⟩
      exact ⟨⟨nofun, fun hnamed => absurd hrange hnamed.2.2⟩, fun _ => ⟨_, rfl⟩⟩

theorem refused_unchanged_at_ceiling :
    let c : Context := { fresh.absorb [1, 2, 3, 4, 5] with bitCount := 34359738344 }
    (c.update (.words [1]) .nothing).2.bitCount = 34359738360 ∧
      (∃ cause, (c.update (.octets [1, 2, 3]) .nothing).1 = .error cause) ∧
      (c.update (.octets [1, 2, 3]) .nothing).2 = c ∧ c.final.2 = fresh := by
  intro c
  obtain ⟨hrefused, hupdate, hfails, -, hcloses⟩ := refused_unchanged c
  have htwo : c.Takes (Datum.octetsOfWords [1]).length 2 := ⟨by decide, by decide, by decide⟩
  obtain ⟨-, hdone, -⟩ := hupdate (.words [1]) .nothing _ _ rfl (.inl ⟨rfl, rfl⟩)
  obtain ⟨htaken, -, -⟩ := hupdate (.octets [1, 2, 3]) .nothing _ _ rfl (.inl ⟨rfl, rfl⟩)
  obtain ⟨cause, hcause⟩ : ∃ cause, (c.update (.octets [1, 2, 3]) .nothing).1 = .error cause := by
    cases hanswer : (c.update (.octets [1, 2, 3]) .nothing).1 with
    | error cause => exact ⟨cause, rfl⟩
    | ok answer => exact absurd (htaken.mp ⟨answer, hanswer⟩).1.le_ceiling (by decide)
  refine ⟨(hdone htwo id).2.2.1, ⟨cause, hcause⟩, hrefused _ _ _ hcause, ?_⟩
  cases hfinal : c.final.1 with
  | error cause => exact absurd (hfails.mp ⟨cause, hfinal⟩) (by decide)
  | ok digest => exact (hcloses digest hfinal).2.2.2

/-- A length of too many digits is no input fault, and windows without octets are refused. -/
theorem refused_misjudged :
    (∀ n : Int, 10 ^ Text.maxDigits ≤ n.natAbs →
        (fresh.update (.octets [97, 98, 99]) (.integer n)).1 = .error .tooManyDigits ∧
          (fresh.update .nothing (.integer n)).1 = .error .tooManyDigits) ∧
      Fault.tooManyDigits.family = .value ∧
      ((Datum.view [] true).memory? = some [] ∧
        (fresh.update (.view [] true) .nothing).1 = .error (.input .gapped)) ∧
      (Datum.noRows.memory? = some [] ∧
        (fresh.update Datum.noRows .nothing).1 = .error (.input .emptyGrid)) := by
  have hthree : 10 ^ 1 ≤ 10 ^ Text.maxDigits := Nat.pow_le_pow_right (by decide) (by decide)
  refine ⟨fun n hlong => ⟨?_, ?_⟩, rfl, ⟨rfl, rfl⟩, rfl, rfl⟩
  · rcases update_of_asks (rfl : (Datum.octets [97, 98, 99]).octets? = _)
        (.inr rfl : Asks (.integer n) _ n) fresh with
      ⟨htakes, -⟩ | ⟨-, cause, ⟨-, rfl⟩ | ⟨hshort, -⟩, hrefused⟩ | ⟨⟨hpos, hmost⟩, -, -⟩
    · have := htakes.nonneg
      have hmost : n ≤ 3 := htakes.le_available
      omega
    · rw [hrefused]
    · exact absurd hlong hshort
    · have : n ≤ 3 := hmost
      omega
  · have hnoname : (Datum.integer n).IsLong := hlong
    have hsome : (Datum.integer n).isSome = .ok true :=
      congrArg Except.ok (bne_iff_ne.mpr (by rintro rfl; omega))
    simp only [update, hsome, Datum.naming_of_isLong hnoname]

end Context

end SaltedHash.Sha1
