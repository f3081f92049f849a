import Mathlib
import SaltedHash.Proofs.CommandLine.Digest

/-!
# The size of a read

A stream is hashed like its octets, however the reads cut it, so it does not show in a digest, nor in
anything else that is written, in what sizes the content was read.
-/

namespace SaltedHash.CommandLine

/-! ## Runs -/

def withReads (h : Host) (size : Int) : Host :=
  { h with settings := { h.settings with readChunkSize := size } }

structure Taken (sources : Sources) (names : List Text) (size : Int) : Prop where
  pos : 0 < size
  stdin : names = [] → sources.stdin.Takes sources.room size
  files : names ≠ [] → HashStream.Bufferable sources.room size

theorem digestFiles_congr {sources : Sources} {size size' : Int} (hpos : 0 < size)
    (hbuffer : HashStream.Bufferable sources.room size) (hpos' : 0 < size')
    (hbuffer' : HashStream.Bufferable sources.room size') (status : Nat) (names : List Text) :
    digestFiles sources size status names = digestFiles sources size' status names := by
  induction names generalizing status with
  | nil => rfl
  | cons name rest ih =>
    simp only [digestFiles, HashStream.digestFile_eq hpos hbuffer,
      HashStream.digestFile_eq hpos' hbuffer', ih]

theorem digest_withReads {sources : Sources} {names : List Text} {size size' : Int}
    (h : Taken sources names size) (h' : Taken sources names size') (host : Host) :
    digest (withReads host size) names sources = digest (withReads host size') names sources := by
  unfold digest
  by_cases hnames : names = []
  · simp only [hnames, List.isEmpty_nil, if_true, withReads,
      HashStream.digestInput_eq h.pos (h.stdin hnames),
      HashStream.digestInput_eq h'.pos (h'.stdin hnames)]
  · have hsome : ¬ names.isEmpty = true := by simpa using hnames
    rw [if_neg hsome, if_neg hsome]
    exact digestFiles_congr h.pos (h.files hnames) h'.pos (h'.files hnames) 0 names

section

variable [Cryptography]

theorem run_withReads {arguments names : List Text} {saltLength : SaltLength}
    (hrequest : Request.ofArguments arguments = .ok ⟨.digest, names, saltLength⟩)
    {sources : Sources} {size size' : Int} (h : Taken sources names size)
    (h' : Taken sources names size') (host : Host) :
    (run (withReads host size) arguments sources).1 =
      (run (withReads host size') arguments sources).1 := by
  have hsource : (withReads host size).sourceOfSettings = (withReads host size').sourceOfSettings :=
    rfl
  have hlevel : (withReads host size).settings.logLevel =
      (withReads host size').settings.logLevel := rfl
  have hentry : announcement (withReads host size) = announcement (withReads host size') := rfl
  unfold run
  simp only [hrequest, hsource, hlevel, hentry, perform, digest_withReads h h']
  split
  · rfl
  · split <;> rfl

/-! ## Any reads -/

/-- A stream has the digest of its octets, and it does not show in what sizes it was read. -/
theorem read_size_unseen :
    (∀ (pieces : List Octets) (later : List Datum), (∀ piece ∈ pieces, piece ≠ []) →
        let digest := HashStream.digestChunks (pieces.map .octets ++ .octets [] :: later)
        digest = Sha1.digestHex (.octets pieces.flatten) ∧
          digest = if pieces.flatten.length ≤ maxMessageOctets then
              .ok (Hex.encode (Sha1.Standard.digest pieces.flatten))
            else .error (.input .overCeiling)) ∧
      (∀ content size, HashStream.Readable size → size ≠ 0 →
        HashStream.digestContent content size = Sha1.digestHex (.octets content)) ∧
      ∀ (host : Host) (sources : Sources) (arguments names : List Text) (saltLength : SaltLength),
        Request.ofArguments arguments = .ok ⟨.digest, names, saltLength⟩ →
        ∀ size size', Taken sources names size → Taken sources names size' →
          (run (withReads host size) arguments sources).1 =
            (run (withReads host size') arguments sources).1 := by
  refine ⟨?_, fun content size h hne => HashStream.digestContent_of_readable h hne content,
    fun host _ _ _ _ hrequest _ _ h h' => run_withReads hrequest h h' host⟩
  intro pieces later hpieces digest
  have hdigest : digest = Sha1.digestHex (.octets pieces.flatten) :=
    (HashStream.digestChunks_ended _ later).trans (HashStream.digestChunks_octets hpieces)
  exact ⟨hdigest, hdigest.trans (HashStream.digestHex_octets pieces.flatten)⟩

end

theorem read_size_unseen_abc :
    HashStream.digestChunks [.octets [97], .octets [98, 99], .octets [], .octets [100]] =
        .ok (Hex.encode (Sha1.Standard.digest [97, 98, 99])) ∧
      HashStream.digestContent [97, 98, 99] 2 = HashStream.digestContent [97, 98, 99] (-1) ∧
      (run (withReads plainHost 1) (digestArguments ["a"]) (filesOf [("a", [97, 98])])).1 =
        (run (withReads plainHost 65536) (digestArguments ["a"]) (filesOf [("a", [97, 98])])).1 := by
  obtain ⟨hchunks, hcontent, hrun⟩ := read_size_unseen
  have hpieces : ∀ piece ∈ [[(97 : UInt8)], [98, 99]], piece ≠ [] := by simp
  refine ⟨(hchunks _ [.octets [100]] hpieces).2.trans (if_pos (by decide)), ?_, ?_⟩
  · have htwo : HashStream.Readable 2 := ⟨by decide, by decide⟩
    have hall : HashStream.Readable (-1) := ⟨by decide, by decide⟩
    rw [hcontent _ 2 htwo (by decide), hcontent _ (-1) hall (by decide)]
  · have htaken (size : Int) (hpos : 0 < size) (hfits : size ≤ 65536) :
        Taken (filesOf [("a", [97, 98])]) ["a"] size := by
      refine ⟨hpos, nofun, fun _ => ⟨?_, ?_⟩⟩
      · exact hfits.trans (by decide)
      · exact hfits.trans (by decide : (65536 : Int) ≤ (1048576 : Nat))
    exact hrun _ _ _ _ _ (ofArguments_digest ["a"]) _ _ (htaken 1 (by decide) (by decide))
      (htaken 65536 (by decide) (by decide))

end SaltedHash.CommandLine
