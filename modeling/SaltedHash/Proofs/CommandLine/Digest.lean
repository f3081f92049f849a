import Mathlib
import SaltedHash.Proofs.CommandLine.Arguments
import SaltedHash.Proofs.CommandLine.Crypt
import SaltedHash.Proofs.CommandLine.Run
import SaltedHash.Proofs.FileName
import SaltedHash.Proofs.HashStream

/-!
# Every file has its line

The command that hashes files says of each of them in turn what its digest is or why it is not read, and
what it says of one does not depend on the others. So the run on a list is the runs on its parts, one
after another.
-/

namespace SaltedHash.CommandLine

open FileName (Usable)

/-! ## What is said of a file -/

section Files

variable (read : Text → Except FileFault Octets)

def outLine (operand : Text) : Text :=
  match read (FileName.normal operand) with
  | .ok content => digestLine (Hex.encode (Sha1.Standard.digest content)) (FileName.normal operand)
  | .error _ => []

def errLine (operand : Text) : Text :=
  match read (FileName.normal operand) with
  | .ok _ => []
  | .error cause => Text.line (FileName.normal operand ++ ": " ++ Text.ofString cause.message)

def isUnread (operand : Text) : Bool := !(read (FileName.normal operand)).isOk

/-- A file is not read, or its content is within the ceiling of one hash. -/
def WithinCeiling (operand : Text) : Prop :=
  ∀ content, read (FileName.normal operand) = .ok content → content.length ≤ maxMessageOctets

end Files

/-! ## File after file -/

section FileAfterFile

variable {sources : Sources} {size : Int} (hpos : 0 < size)
  (hbuffer : HashStream.Bufferable sources.room size)

include hpos hbuffer

theorem digestFiles_eq {names : List Text} (husable : ∀ name ∈ names, Usable name)
    (hceiling : ∀ name ∈ names, WithinCeiling sources.read name) (status : Nat) :
    digestFiles sources size status names =
      { Transcript.silent
          (.status (if names.any (isUnread sources.read) then 1 else status)) with
        out := names.flatMap (outLine sources.read)
        err := names.flatMap (errLine sources.read) } := by
  induction names generalizing status with
  | nil => rfl
  | cons name rest ih =>
    rw [List.forall_mem_cons] at husable hceiling
    have hname := FileName.fault?_normal_eq_none_iff.mpr husable.1
    rw [digestFiles, hname, List.any_cons, List.flatMap_cons, List.flatMap_cons, outLine, errLine,
      isUnread]
    cases hread : sources.read (FileName.normal name) with
    | error cause =>
      -- The file is not read, and the status is one from here on.
      simp only [ih husable.2 hceiling.2, Except.isOk, Except.toBool, Bool.not_false, Bool.true_or,
        if_true, ite_self, List.nil_append]
    | ok content =>
      have hfits := hceiling.1 content hread
      simp only [HashStream.digestFile_eq hpos hbuffer, HashStream.digestHex_octets, if_pos hfits,
        ih husable.2 hceiling.2, Except.isOk, Except.toBool, Bool.not_true, Bool.false_or,
        List.nil_append]

theorem digestFiles_of_over {name : Text} (husable : Usable name) {content : Octets}
    (hread : sources.read (FileName.normal name) = .ok content)
    (hover : maxMessageOctets < content.length) (rest : List Text) (status : Nat) :
    digestFiles sources size status (name :: rest) =
      { Transcript.silent (.status 1) with
        err := Text.line ("Error: " ++ InputFault.overCeiling.message) } := by
  have hname := FileName.fault?_normal_eq_none_iff.mpr husable
  have hfits : ¬ content.length ≤ maxMessageOctets := by omega
  rw [digestFiles, hname]
  simp only [hread, HashStream.digestFile_eq hpos hbuffer, HashStream.digestHex_octets, if_neg hfits]
  rfl

end FileAfterFile

theorem digestFiles_of_not_usable {name : Text} (h : ¬ Usable name) (sources : Sources) (size : Int)
    (rest : List Text) (status : Nat) :
    ∃ cause, digestFiles sources size status (name :: rest) = Transcript.silent (.fault cause) := by
  cases hname : FileName.fault? (FileName.normal name) with
  | none => exact absurd (FileName.fault?_normal_eq_none_iff.mp hname) h
  | some cause =>
    refine ⟨cause, ?_⟩
    rw [digestFiles, hname]

/-! ## Runs -/

section Runs

variable [Cryptography]

theorem run_eq_digestFiles {h : Host} (hready : h.Ready) {arguments names : List Text}
    {saltLength : SaltLength} (hnames : names ≠ [])
    (hrequest : Request.ofArguments arguments = .ok ⟨.digest, names, saltLength⟩)
    (sources : Sources) :
    ∃ log, (run h arguments sources).1 =
      { digestFiles sources h.settings.readChunkSize 0 names with log } := by
  obtain ⟨threshold, hlevel⟩ := hready.level
  obtain ⟨source, hsource⟩ := hready.source
  obtain ⟨log, hrun⟩ := run_eq_perform hlevel hsource hrequest sources
  refine ⟨log, ?_⟩
  rw [hrun, perform, digest, if_neg (by simpa using hnames)]

theorem ending_of_not_usable {h : Host} (hready : h.Ready) {arguments rest : List Text} {name : Text}
    {saltLength : SaltLength} (husable : ¬ Usable name)
    (hrequest : Request.ofArguments arguments = .ok ⟨.digest, name :: rest, saltLength⟩)
    (sources : Sources) : ∃ cause, (run h arguments sources).1.ending = .fault cause := by
  obtain ⟨log, hrun⟩ := run_eq_digestFiles hready (List.cons_ne_nil _ _) hrequest sources
  obtain ⟨cause, hcause⟩ := digestFiles_of_not_usable husable sources h.settings.readChunkSize
    rest 0
  refine ⟨cause, ?_⟩
  rw [hrun, hcause]
  rfl

structure Transcript.Reports (t : Transcript) (read : Text → Except FileFault Octets)
    (names : List Text) : Prop where
  ending : t.ending = .status (if names.any (isUnread read) then 1 else 0)
  out : t.out = names.flatMap (outLine read)
  err : t.err = names.flatMap (errLine read)

theorem reports_of_request {h : Host} (hready : h.Ready) (hpos : 0 < h.settings.readChunkSize)
    {sources : Sources} (hbuffer : HashStream.Bufferable sources.room h.settings.readChunkSize)
    {arguments names : List Text} {saltLength : SaltLength} (hnames : names ≠ [])
    (hrequest : Request.ofArguments arguments = .ok ⟨.digest, names, saltLength⟩)
    (husable : ∀ name ∈ names, Usable name)
    (hceiling : ∀ name ∈ names, WithinCeiling sources.read name) :
    (run h arguments sources).1.Reports sources.read names := by
  obtain ⟨log, hrun⟩ := run_eq_digestFiles hready hnames hrequest sources
  rw [hrun, digestFiles_eq hpos hbuffer husable hceiling]
  exact ⟨rfl, rfl, rfl⟩

/-- A run on files says of each in turn what its digest is or why it is not read, and what it writes
is what the runs on two parts of the list write, one after the other. -/
theorem run_digest {h : Host} (hready : h.Ready) (hpos : 0 < h.settings.readChunkSize)
    {sources : Sources} (hbuffer : HashStream.Bufferable sources.room h.settings.readChunkSize)
    {arguments names : List Text} {saltLength : SaltLength} (hnames : names ≠ [])
    (hrequest : Request.ofArguments arguments = .ok ⟨.digest, names, saltLength⟩)
    (husable : ∀ name ∈ names, Usable name)
    (hceiling : ∀ name ∈ names, WithinCeiling sources.read name) :
    let t := (run h arguments sources).1
    t.Reports sources.read names ∧
      ∀ front back : List Text, names = front ++ back → front ≠ [] → back ≠ [] →
        ∀ (a b : List Text) (m n : SaltLength),
          Request.ofArguments a = .ok ⟨.digest, front, m⟩ →
          Request.ofArguments b = .ok ⟨.digest, back, n⟩ →
          t.out = (run h a sources).1.out ++ (run h b sources).1.out ∧
            t.err = (run h a sources).1.err ++ (run h b sources).1.err := by
  have hall := reports_of_request hready hpos hbuffer hnames hrequest husable hceiling
  refine ⟨hall, ?_⟩
  rintro front back rfl hfront hback a b m n ha hb
  rw [List.forall_mem_append] at husable hceiling
  have hfirst := reports_of_request hready hpos hbuffer hfront ha husable.1 hceiling.1
  have hsecond := reports_of_request hready hpos hbuffer hback hb husable.2 hceiling.2
  constructor
  · rw [hall.out, hfirst.out, hsecond.out, List.flatMap_append]
  · rw [hall.err, hfirst.err, hsecond.err, List.flatMap_append]

end Runs

/-! ## Runs on files alone -/

def digestArguments (names : List Text) : List Text :=
  "digest" :: Word.divider :: Word.divider :: names

theorem ofArguments_digest (names : List Text) :
    Request.ofArguments (digestArguments names) = .ok ⟨.digest, names, .unsaid⟩ :=
  ofArguments_divided .digest names

def filesOf (tree : FileTree) : Sources :=
  { answers := [], read := tree.read, stdin := default, room := 1048576 }

theorem filesOf_bufferable (tree : FileTree) :
    HashStream.Bufferable (filesOf tree).room plainHost.settings.readChunkSize :=
  ⟨by decide, (by decide : (65536 : Int) ≤ (1048576 : Nat))⟩

theorem run_digest_two_files :
    let t := (run plainHost (digestArguments ["a", "./b"]) (filesOf [("a", [97])])).1
    t.ending = .status 1 ∧ t.out = digestLine (Hex.encode (Sha1.Standard.digest [97])) "a" ∧
      t.err = Text.line "b: No such file or directory" := by
  have hfirst : (filesOf [("a", [97])]).read (FileName.normal "a") = .ok [97] := rfl
  have hsecond : (filesOf [("a", [97])]).read (FileName.normal "./b") = .error .missing := rfl
  have husable : ∀ name ∈ [Text.ofString "a", "./b"], Usable name := by
    rw [List.forall_mem_cons, List.forall_mem_singleton]
    exact ⟨FileName.fault?_eq_none_iff.mp rfl, FileName.fault?_eq_none_iff.mp rfl⟩
  have hceiling : ∀ name ∈ [Text.ofString "a", "./b"],
      WithinCeiling (filesOf [("a", [97])]).read name := by
    rw [List.forall_mem_cons, List.forall_mem_singleton]
    unfold WithinCeiling
    rw [hfirst, hsecond]
    constructor
    · rintro content ⟨⟩
      decide
    · rintro content ⟨⟩
  obtain ⟨⟨hending, hout, herr⟩, -⟩ := run_digest plainHost_ready (by decide)
    (filesOf_bufferable _) (List.cons_ne_nil _ _) (ofArguments_digest ["a", "./b"]) husable hceiling
  refine ⟨hending.trans rfl, hout.trans ?_, herr.trans rfl⟩
  rw [List.flatMap_cons, List.flatMap_cons, outLine, outLine, hfirst, hsecond]
  rfl

theorem out_of_one_file {tree : FileTree} {name : Text} {content : Octets}
    (husable : Usable name)
    (hread : (filesOf tree).read (FileName.normal name) = .ok content)
    (hfits : content.length ≤ maxMessageOctets) :
    (run plainHost (digestArguments [name]) (filesOf tree)).1.out =
      digestLine (Hex.encode (Sha1.Standard.digest content)) (FileName.normal name) := by
  have hceiling : WithinCeiling (filesOf tree).read name := by
    unfold WithinCeiling
    rw [hread]
    rintro _ ⟨⟩
    exact hfits
  have hreports := reports_of_request plainHost_ready (by decide) (filesOf_bufferable tree)
    (List.cons_ne_nil _ _) (ofArguments_digest [name]) (List.forall_mem_singleton.mpr husable)
    (List.forall_mem_singleton.mpr hceiling)
  rw [hreports.out, List.flatMap_singleton, outLine, hread]

/-- A name is written without parts that lead nowhere. Content beyond the ceiling ends the run, and
so does a name with a surrogate that stands for no octet. -/
theorem run_digest_cut_short :
    (∃ digest, (run plainHost (digestArguments ["./a"]) (filesOf [("a", [97])])).1.out =
        digestLine digest "a" ∧ digestLine digest "a" ≠ digestLine digest "./a") ∧
      (∃ tree : FileTree,
        let t := (run plainHost (digestArguments ["a", "b"]) (filesOf tree)).1
        t.ending = .status 1 ∧ t.out = [] ∧
          t.err = Text.line ("Error: " ++ InputFault.overCeiling.message) ∧
          (run plainHost (digestArguments ["b"]) (filesOf tree)).1.out ≠ []) ∧
      ∃ (name : Text) (cause : Fault), (∀ c ∈ name, c.val ≠ 0) ∧
        (run plainHost (digestArguments [name, "a"]) (filesOf [("a", [97])])).1.ending =
          .fault cause := by
  refine ⟨⟨Hex.encode (Sha1.Standard.digest [97]), ?_, ?_⟩, ?_, ?_⟩
  · exact out_of_one_file (FileName.fault?_eq_none_iff.mp rfl) rfl (by decide)
  · -- The dot and the slash are gone, so the lines differ in length.
    intro h
    have hlength := congrArg List.length h
    simp only [digestLine, Text.line, List.length_append] at hlength
    exact absurd hlength (by simp [Text.ofString])
  · -- The first file is beyond the ceiling, and the second is not reached.
    obtain ⟨content, hover⟩ : ∃ content : Octets, maxMessageOctets < content.length := by
      refine ⟨List.replicate (maxMessageOctets + 1) 0, ?_⟩
      rw [List.length_replicate]
      exact Nat.lt_succ_self _
    have hfirst : (filesOf [("a", content), ("b", [])]).read (FileName.normal "a") = .ok content :=
      rfl
    have hsecond : (filesOf [("a", content), ("b", [])]).read (FileName.normal "b") = .ok [] := rfl
    obtain ⟨log, hrun⟩ := run_eq_digestFiles plainHost_ready (List.cons_ne_nil _ _)
      (ofArguments_digest ["a", "b"]) (filesOf [("a", content), ("b", [])])
    rw [digestFiles_of_over (by decide) (filesOf_bufferable _)
      (FileName.fault?_eq_none_iff.mp rfl) hfirst hover] at hrun
    refine ⟨[("a", content), ("b", [])], ?_⟩
    rw [hrun, out_of_one_file (FileName.fault?_eq_none_iff.mp rfl) hsecond (Nat.zero_le _)]
    exact ⟨rfl, rfl, rfl, List.append_ne_nil_of_right_ne_nil _ (List.cons_ne_nil _ _)⟩
  · obtain ⟨cause, hending⟩ := ending_of_not_usable plainHost_ready FileName.not_usable_surrogate
      (ofArguments_digest [[0xD800], "a"]) (filesOf [("a", [97])])
    refine ⟨[0xD800], cause, ?_, hending⟩
    rw [List.forall_mem_singleton]
    decide

end SaltedHash.CommandLine
