import Mathlib
import SaltedHash.CommandLine.Parser
import SaltedHash.Proofs.Datum.Items
import SaltedHash.Proofs.Text.Numeral

/-!
# Arguments that are understood

A command with its operands and a command with a salt length make the requests they spell.
-/

namespace SaltedHash.CommandLine

/-! ## Operands -/

namespace Word

theorem roleOf_of_head {c : CodePoint} {rest : Text} (h : c ≠ hyphen) :
    roleOf (c :: rest) = .ok .operand := by
  cases rest with
  | nil => rfl
  | cons d tail => rw [roleOf, if_pos h]

theorem ne_divider_of_head {c : CodePoint} {rest : Text} (h : c ≠ hyphen) :
    c :: rest ≠ divider := by
  intro hdivider
  exact h (List.cons.inj hdivider).1

theorem spelled?_eq_none {c d : CodePoint} {tail : Text} (hletter : d ≠ CodePoint.ofChar 'h')
    (hhyphen : d ≠ hyphen) : spelled? (c :: d :: tail) = none := by
  have hshort : ∀ t : Text, t = [hyphen, CodePoint.ofChar 'h'] → t ≠ c :: d :: tail := by
    rintro t rfl h
    simp only [List.cons.injEq] at h
    exact hletter h.2.1.symm
  have hlong : ∀ t rest : Text, t = hyphen :: hyphen :: rest → t ≠ c :: d :: tail := by
    rintro t rest rfl h
    simp only [List.cons.injEq] at h
    exact hhyphen h.2.1.symm
  rw [spelled?, Option.map_eq_none_iff, List.find?_eq_none]
  intro entry hentry
  simp only [spellings, List.mem_cons, List.not_mem_nil, or_false] at hentry
  rw [beq_iff_eq]
  rcases hentry with rfl | rfl | rfl
  · exact hshort _ rfl
  · exact hlong _ _ rfl
  · exact hlong _ _ rfl

theorem splitValue_eq_nothing {t : Text} (h : CodePoint.ofChar '=' ∉ t) :
    splitValue t = (t, .nothing) := by
  have hall : ∀ c ∈ t, decide (c ≠ CodePoint.ofChar '=') = true := by
    intro c hc
    rw [decide_eq_true_eq]
    rintro rfl
    exact h hc
  have htake := List.takeWhile_eq_self_iff.mpr hall
  have hdrop := List.dropWhile_eq_nil_iff.mpr hall
  rw [splitValue, List.span_eq_takeWhile_dropWhile, htake, hdrop]

theorem isNegativeNumber_of_figures {body : Text} (hbody : body ≠ [])
    (h : ∀ c ∈ body, CodePoint.IsFigure c) : isNegativeNumber (hyphen :: body) = true := by
  have hall : allDigits body = true := by
    rw [allDigits, Bool.and_eq_true, List.all_eq_true]
    refine ⟨by simpa using hbody, fun c hc => ?_⟩
    rw [(h c hc).digit?]
    rfl
  have hlast : (hyphen :: body).getLast? ≠ some (CodePoint.ofChar '\n') := by
    intro hfeed
    rcases List.mem_cons.mp (List.mem_of_getLast? hfeed) with hfeed | hfeed
    · exact absurd hfeed (by decide)
    · exact absurd (h _ hfeed) (by decide)
  rw [isNegativeNumber]
  simp only [hlast, if_false, hall, beq_self_eq_true, Bool.true_or, Bool.and_self]

/-- A numeral is an operand, even with a minus sign, which is a hyphen. -/
theorem roleOf_ofInt (n : Int) : roleOf (Text.ofInt n) = .ok .operand := by
  cases n with
  | ofNat n =>
    obtain ⟨c, rest, hn, hc⟩ := Text.exists_ofNat n
    rw [Text.ofInt, hn]
    exact roleOf_of_head (hc.ne (by decide))
  | negSucc n =>
    have hfigures : ∀ c ∈ Text.ofNat (n + 1), CodePoint.IsFigure c :=
      fun c hc => Text.isFigure_of_mem_ofNat hc
    obtain ⟨d, rest, hn, hd⟩ := Text.exists_ofNat (n + 1)
    have hletter : d ≠ CodePoint.ofChar 'h' := hd.ne (by decide)
    have hhyphen : d ≠ hyphen := hd.ne (by decide)
    have hequals : CodePoint.ofChar '=' ∉ hyphen :: d :: rest := by
      rw [List.mem_cons, not_or, ← hn]
      exact ⟨by decide, fun h => absurd (hfigures _ h) (by decide)⟩
    have hnegative : isNegativeNumber (hyphen :: d :: rest) = true := by
      rw [← hn]
      exact isNegativeNumber_of_figures (by simp [hn]) hfigures
    -- It spells no option in full or in short, so what counts is that it is a negative number.
    rw [Text.ofInt, hn]
    change roleOf (hyphen :: d :: rest) = _
    simp only [roleOf, ne_eq, not_true_eq_false, if_false, spelled?_eq_none hletter hhyphen,
      splitValue_eq_nothing hequals]
    rw [shortRole, splitValue_eq_nothing hequals]
    simp only [hhyphen, if_false, spelled?_eq_none hletter hhyphen, Option.map_none,
      Option.toList_none, hnegative, Bool.true_or, if_true]

theorem ofInt_ne_divider (n : Int) : Text.ofInt n ≠ divider := by
  cases n with
  | ofNat n =>
    obtain ⟨c, rest, hn, hc⟩ := Text.exists_ofNat n
    rw [Text.ofInt, hn]
    exact ne_divider_of_head (hc.ne (by decide))
  | negSucc n =>
    obtain ⟨d, rest, hn, hd⟩ := Text.exists_ofNat (n + 1)
    rw [Text.ofInt, hn]
    intro h
    simp only [divider, List.cons.injEq] at h
    exact hd.ne (d := hyphen) (by decide) h.2.1

end Word

/-! ## Requests -/

theorem Command.ofText?_name (c : Command) : Command.ofText? c.name = some c := by
  cases c <;> decide

theorem Word.ofArguments_operands {arguments : List Text}
    (h : ∀ t ∈ arguments, t ≠ Word.divider ∧ Word.roleOf t = .ok .operand) :
    Word.ofArguments arguments = .ok (arguments.map fun t => ⟨t, .operand⟩) := by
  induction arguments with
  | nil => rfl
  | cons t rest ih =>
    rw [List.forall_mem_cons] at h
    rw [Word.ofArguments, if_neg h.1.1, h.1.2, ih h.2]
    rfl

theorem Word.takeWhile_operands (operands : List Text) :
    (operands.map fun t => (⟨t, .operand⟩ : Word)).takeWhile (!·.isOption) =
      operands.map fun t => ⟨t, .operand⟩ := by
  rw [List.takeWhile_eq_self_iff]
  intro w hw
  obtain ⟨t, -, rfl⟩ := List.mem_map.mp hw
  rfl

theorem Word.dropWhile_operands (operands : List Text) :
    (operands.map fun t => (⟨t, .operand⟩ : Word)).dropWhile (!·.isOption) = [] := by
  rw [List.dropWhile_eq_nil_iff]
  intro w hw
  obtain ⟨t, -, rfl⟩ := List.mem_map.mp hw
  rfl

theorem Word.map_text_operands (operands : List Text) :
    (operands.map fun t => (⟨t, .operand⟩ : Word)).map Word.text = operands := by
  rw [List.map_map]
  exact List.map_id operands

theorem Reading.operands_empty (command : Command) (operands : List Text) :
    Reading.empty.operands
        (⟨command.name, .operand⟩ :: operands.map fun t => (⟨t, .operand⟩ : Word)) =
      .ok ⟨some (command, operands.erase Word.divider), .unsaid, []⟩ := by
  have hnone : (operands.map fun t => (⟨t, .operand⟩ : Word)).dropWhile (·.role == .divider) =
      operands.map fun t => ⟨t, .operand⟩ := by
    cases operands with
    | nil => rfl
    | cons t rest => rfl
  unfold Reading.operands
  rw [List.dropWhile_cons_of_neg Bool.false_ne_true]
  simp only [Reading.empty, Command.ofText?_name, hnone, Word.map_text_operands]

theorem ofArguments_operands (command : Command) {operands : List Text}
    (h : ∀ t ∈ operands, t ≠ Word.divider ∧ Word.roleOf t = .ok .operand) :
    Request.ofArguments (command.name :: operands) = .ok ⟨command, operands, .unsaid⟩ := by
  have hname : Text.ofString command.name ≠ Word.divider ∧
      Word.roleOf command.name = .ok .operand := by
    cases command <;> exact ⟨by decide, rfl⟩
  have herase : operands.erase Word.divider = operands :=
    List.erase_of_not_mem fun hmem => (h _ hmem).1 rfl
  rw [Request.ofArguments, Word.ofArguments_operands (List.forall_mem_cons.mpr ⟨hname, h⟩),
    List.map_cons]
  simp only [Reading.words, Word.takeWhile_operands, Word.dropWhile_operands,
    Reading.operands_empty, herase]
  rfl

/-- After two dividers everything is an operand. The second one is for operands that are dividers.
-/
theorem ofArguments_divided (command : Command) (operands : List Text) :
    Request.ofArguments (command.name :: Word.divider :: Word.divider :: operands) =
      .ok ⟨command, operands, .unsaid⟩ := by
  have hname : Text.ofString command.name ≠ Word.divider ∧
      Word.roleOf command.name = .ok .operand := by
    cases command <;> exact ⟨by decide, rfl⟩
  have hwords : Word.ofArguments (command.name :: Word.divider :: Word.divider :: operands) =
      .ok (⟨command.name, .operand⟩ :: ⟨Word.divider, .divider⟩ ::
        (Word.divider :: operands).map fun t => ⟨t, .operand⟩) := by
    rw [Word.ofArguments, if_neg hname.1, hname.2, Word.ofArguments, if_pos rfl]
    rfl
  have hoperands : Reading.empty.operands (⟨command.name, .operand⟩ :: ⟨Word.divider, .divider⟩ ::
      (Word.divider :: operands).map fun t => (⟨t, .operand⟩ : Word)) =
        .ok ⟨some (command, operands), .unsaid, []⟩ := by
    unfold Reading.operands
    rw [List.dropWhile_cons_of_neg Bool.false_ne_true]
    simp only [Reading.empty, Command.ofText?_name]
    rw [List.dropWhile_cons_of_pos rfl, List.map_cons, List.dropWhile_cons_of_neg Bool.false_ne_true,
      List.map_cons, Word.map_text_operands, List.erase_cons_head]
  have hcommand : (⟨command.name, .operand⟩ : Word).isOption = false := rfl
  have hdivider : (⟨Word.divider, .divider⟩ : Word).isOption = false := rfl
  rw [Request.ofArguments, hwords]
  simp only [Reading.words, hcommand, hdivider, Bool.false_eq_true, if_false, List.takeWhile_cons,
    List.dropWhile_cons, Bool.not_false, if_true, Word.takeWhile_operands,
    Word.dropWhile_operands, hoperands]
  rfl

theorem ofArguments_saltLength (command : Command) (n : Int) :
    Request.ofArguments [command.name, "--salt-length", Text.ofInt n] =
      if n.natAbs < 10 ^ Text.maxDigits then .ok ⟨command, [], .octets n⟩
      else .error (.complaint (.notAnInteger (Text.ofInt n))) := by
  have hname : Text.ofString command.name ≠ Word.divider ∧
      Word.roleOf command.name = .ok .operand := by
    cases command <;> exact ⟨by decide, rfl⟩
  have hwords : Word.ofArguments [command.name, "--salt-length", Text.ofInt n] =
      .ok [⟨command.name, .operand⟩, ⟨"--salt-length", .option .saltLength .nothing⟩,
        ⟨Text.ofInt n, .operand⟩] := by
    have hoption : Text.ofString "--salt-length" ≠ Word.divider := by decide
    have hrole : Word.roleOf "--salt-length" = .ok (.option .saltLength .nothing) := rfl
    simp only [Word.ofArguments, hname.1, hname.2, hoption, hrole, Word.ofInt_ne_divider,
      Word.roleOf_ofInt, if_false]
    rfl
  rw [Request.ofArguments, hwords]
  have hcommand := Reading.operands_empty command []
  simp only [List.map_nil, List.erase_nil] at hcommand
  simp only [Reading.words, Word.isOption, Bool.false_eq_true, if_false, List.takeWhile_cons,
    Bool.not_true, List.dropWhile_cons, hcommand, Reading.saltLengthOf, Text.integer?_ofInt]
  split_ifs with hdigits
  · rfl
  · rfl

def cryptArguments : Option Int → List Text
  | none => ["crypt"]
  | some n => ["crypt", "--salt-length", Text.ofInt n]

/-- A salt length that is asked for has no more digits than a numeral may have. -/
def Spellable (asked : Option Int) : Prop := ∀ n ∈ asked, n.natAbs < 10 ^ Text.maxDigits

def SaltLength.ofAsked : Option Int → SaltLength
  | none => .unsaid
  | some n => .octets n

theorem ofArguments_crypt {asked : Option Int} (h : Spellable asked) :
    Request.ofArguments (cryptArguments asked) = .ok ⟨.crypt, [], .ofAsked asked⟩ := by
  cases asked with
  | none => exact ofArguments_operands .crypt (by simp)
  | some n =>
    have hn : n.natAbs < 10 ^ Text.maxDigits := h n rfl
    exact (ofArguments_saltLength .crypt n).trans (if_pos hn)

theorem ofArguments_crypt_of_not_spellable {asked : Option Int} (h : ¬ Spellable asked) :
    ∃ what, Request.ofArguments (cryptArguments asked) = .error (.complaint what) := by
  cases asked with
  | none =>
    refine absurd ?_ h
    rintro n ⟨⟩
  | some n =>
    have hn : ¬ n.natAbs < 10 ^ Text.maxDigits := by
      intro hlt
      refine h ?_
      rintro m ⟨⟩
      exact hlt
    exact ⟨_, (ofArguments_saltLength .crypt n).trans (if_neg hn)⟩

/-! ## Salt lengths that are read -/

def SaltLength.Short (s : SaltLength) : Prop := ∀ n, s = .octets n → n.natAbs < 10 ^ Text.maxDigits

theorem Reading.short_of_saltLengthOf {value : Text} {s : SaltLength}
    (h : saltLengthOf value = .ok s) : s.Short := by
  unfold saltLengthOf at h
  split at h
  · rename_i n hn
    cases h
    rintro _ ⟨⟩
    exact Text.natAbs_lt_of_integer? hn
  · cases h

theorem Reading.short_of_attachedLength {value : Text} {s : SaltLength}
    (h : attachedLength value = .ok s) : s.Short := by
  unfold attachedLength at h
  split_ifs at h with hdivider
  · cases h
    exact nofun
  · exact short_of_saltLengthOf h

theorem Reading.short_option {r r' : Reading} {w : Word} (h : r.option w = .ok r')
    (hr : r.saltLength.Short) : r'.saltLength.Short := by
  unfold option at h
  split at h
  case h_5 | h_6 =>
    obtain ⟨s, hs, rfl⟩ := map_eq_ok_iff.mp h
    exact short_of_attachedLength hs
  case h_7 | h_8 | h_9 =>
    cases h
    exact hr
  all_goals cases h

theorem Reading.short_operands {r r' : Reading} {run : List Word} (h : r.operands run = .ok r')
    (hr : r.saltLength.Short) : r'.saltLength.Short := by
  unfold operands at h
  split at h
  · split at h
    · cases h
      exact hr
    · cases h
  · cases h
    exact hr

theorem Reading.short_words {words : List Word} {r r' : Reading} (h : r.words words = .ok r')
    (hr : r.saltLength.Short) : r'.saltLength.Short := by
  fun_induction Reading.words r words with
  | case1 r =>
    cases h
    exact hr
  | case2 => cases h
  | case3 r _ value rest s hs ih => exact ih h (short_of_saltLengthOf hs)
  | case4 => cases h
  | case5 r w rest _ _ s hs ih => exact ih h (short_option hs hr)
  | case6 => cases h
  | case7 r w rest _ _ s hs ih => exact ih h (short_operands hs hr)

theorem short_of_ofArguments {arguments : List Text} {request : Request}
    (h : Request.ofArguments arguments = .ok request) : request.saltLength.Short := by
  unfold Request.ofArguments at h
  split at h
  · cases h
  · obtain ⟨r, hr, h⟩ := bind_eq_ok_iff.mp h
    unfold Reading.request at h
    split at h
    · cases h
    · split_ifs at h
      cases h
      exact Reading.short_words hr nofun

theorem ofArguments_check {c : CodePoint} {rest : Text} (h : c ≠ Word.hyphen) :
    Request.ofArguments ["check", c :: rest] = .ok ⟨.check, [c :: rest], .unsaid⟩ := by
  apply ofArguments_operands .check
  rw [List.forall_mem_singleton]
  exact ⟨Word.ne_divider_of_head h, Word.roleOf_of_head h⟩

end SaltedHash.CommandLine
