import NovelScript.Proofs.Archive.Refinement

/-!
# Packing more than a word of 32 bits can count

Contents in memory may have any length, but an index entry counts them in 32 bits.  Packing checks
offsets that follow from the lengths as counted and writes contents as they are.  So the place where
the index is looked for may lie inside contents, and whoever wrote these says what the archive holds
afterwards (`Session.exists_flush_swollen`).
-/

namespace NovelScript

/-- Packing remembers what it reads from the file it has written. -/
theorem Change.ends_repack {store : Store} {named : List (Bytes × Member)}
    {packed : List PackedFile} {header : ArchiveHeader} {members : List Member}
    (hnamed : namedFiles store.archive = .ok named) (hoffsets : checkOffsets named = .ok ())
    (hpacked : named.mapM (packedFile store.file) = .ok packed)
    (hread : (Archive.readIndex store.archive.encoding
      (Packing.image store.archive.header.unknown packed)).result = .ok (header, members)) :
    Ends repack store
      (fun _ store' => store'.file = Packing.image store.archive.header.unknown packed
        ∧ store'.archive = { store.archive with
            header, members := store.archive.members.foldl handOver members, dirty := false })
      noFailure := by
  simp only [repack, ends_bind, ends_get, of, hnamed, hoffsets, ends_mk_ok, ends_modify, hpacked,
    hread, update, and_self]

/-- An entry for the name that comes first in a packed file, which has one letter. -/
def IndexEntry.forged : IndexEntry := { nameOffset := 24, nameLength := 2 }

/-- Contents of 4 GiB that open with two such entries. -/
def IndexEntry.forgery : Bytes := forged.write ++ forged.write ++ List.replicate 4294967256 0

theorem IndexEntry.isPrefix_forgery : forged.write ++ forged.write <+: forgery :=
  List.prefix_append _ _

theorem IndexEntry.length_forgery : forgery.length = 4294967296 := by
  rw [forgery, List.length_append, List.length_replicate]
  rfl

/-- A file whose contents are still in memory, and an empty one that is being read. -/
def Session.swollen (contents : Bytes) : Session :=
  (Session.new .explicit .utf8).perform Operation.work
    [.writeAll "a" contents, .writeAll "b" [], .openFile 1 "b"]

/-- The header that says where these two entries are, behind two names of one letter. -/
def ArchiveHeader.misled : ArchiveHeader := { indexOffset := 28, indexLength := 40 }

namespace Archive

variable (rest : Bytes)

theorem isOutside_forged {size : Nat} (hsize : 26 ≤ size) : isOutside size .forged = false := by
  have hnameEnd : IndexEntry.forged.nameEnd = 26 := rfl
  have hdataEnd : IndexEntry.forged.dataEnd = 0 := rfl
  have hnamed : (IndexEntry.forged.nameLength == 0) = false := rfl
  rw [isOutside, hnameEnd, hdataEnd, hnamed, Bool.or_false, Bool.or_eq_false_iff]
  exact ⟨decide_eq_false (by omega), decide_eq_false (by omega)⟩

theorem nameOf_forged :
    nameOf .utf8 (ArchiveHeader.misled.write ++ [0x61, 0, 0x62, 0] ++ rest) .forged = "a" := by
  have htake : ((ArchiveHeader.misled.write ++ [0x61, 0, 0x62, 0] ++ rest).drop 24).take 2
      = [0x61, 0] := rfl
  have hdecode : Encoding.utf8.decodeTerminated [0x61, 0] = "a" := by decide +kernel
  rw [← hdecode, ← htake]
  rfl

/-- Where the index is looked for, two entries for "a" are found. -/
theorem readIndex_forged :
    (readIndex .utf8 (ArchiveHeader.misled.write ++ [0x61, 0, 0x62, 0]
      ++ (IndexEntry.forged.write ++ IndexEntry.forged.write ++ rest))).result =
      .ok (.misled, [{ name := "a", residence := .stored .forged }]) := by
  have hname := nameOf_forged (IndexEntry.forged.write ++ IndexEntry.forged.write ++ rest)
  generalize hfile : ArchiveHeader.misled.write ++ [0x61, 0, 0x62, 0]
      ++ (IndexEntry.forged.write ++ IndexEntry.forged.write ++ rest) = file at hname ⊢
  let listed : Member := { name := "a", residence := .stored .forged }
  have hheader : ArchiveHeader.misled.write <+: file := by
    rw [← hfile, List.append_assoc]
    exact List.prefix_append _ _
  have hend : 68 ≤ file.length := by
    simp only [← hfile, List.length_append, ArchiveHeader.length_write, IndexEntry.length_write,
      ArchiveHeader.size, ArchiveHeader.entrySize, List.length_cons, List.length_nil]
    omega
  have hindex : region file 28 40 = .ok ([listed, listed].flatMap fun m => m.entry.write) := by
    rw [← hfile, ← List.append_assoc]
    exact region_append_append _ _ rfl rfl
  have hinside : isOutside file.length .forged = false := isOutside_forged (by omega)
  rw [readIndex_eq hheader rfl rfl hend hindex]
  -- the second entry takes the place of the first, since the names are the same
  simp only [listed, List.map_cons, List.map_nil, Member.entry, readMembers, hinside, hname,
    Bool.false_eq_true, if_false, List.any_nil, List.nil_append, List.any_cons, beq_self_eq_true,
    Bool.true_or, if_true, Member.change]
  rfl

end Archive

namespace Packing

/-- The two files of `Session.swollen`, ready to be packed. -/
def swollen (contents : Bytes) : List PackedFile :=
  [⟨[0x61, 0], contents, 0⟩, ⟨[0x62, 0], [], 0⟩]

variable {contents : Bytes} (hlength : contents.length = 4294967296)

include hlength

theorem header_swollen : header 0 (swollen contents) = .misled := by
  have hoffset : indexOffset (swollen contents) = 28 + 4294967296 := by
    rw [← hlength]
    simp [swollen, indexOffset, contentsOffset, names, Packing.contents, ArchiveHeader.size]
  rw [header, hoffset]
  rfl

/-- The index is looked for where the contents start. -/
theorem readIndex_swollen
    (hcontents : IndexEntry.forged.write ++ IndexEntry.forged.write <+: contents) :
    (Archive.readIndex .utf8 (image 0 (swollen contents))).result =
      .ok (.misled, [{ name := "a", residence := .stored .forged }]) := by
  obtain ⟨rest, hrest⟩ := hcontents
  have himage : image 0 (swollen contents) = ArchiveHeader.misled.write ++ [0x61, 0, 0x62, 0]
      ++ (IndexEntry.forged.write ++ IndexEntry.forged.write
        ++ (rest ++ (entries 24 28 (swollen contents)).flatMap IndexEntry.write)) := by
    rw [← header_swollen hlength, image]
    simp [← hrest, swollen, contentsOffset, names, Packing.contents, ArchiveHeader.size]
  rw [himage]
  exact Archive.readIndex_forged _

end Packing

/-- The archive of `Session.swollen`. -/
def Archive.swollen (contents : Bytes) : Archive where
  path := "data.ykc"
  mode := .explicit
  encoding := .utf8
  header := {}
  members := [{ name := "a", residence := .buffered 0 contents },
    { name := "b", residence := .buffered 0 [], readers := 1 }]
  dirty := true

/-- Its files with their names in stored form. -/
def Archive.namedSwollen (contents : Bytes) : List (Bytes × Member) :=
  [[0x61, 0], [0x62, 0]].zip (Archive.swollen contents).members

namespace Change

variable (contents : Bytes)

theorem namedFiles_swollen :
    namedFiles (.swollen contents) = .ok (Archive.namedSwollen contents) := by
  have ha : storedName .utf8 "a" = .ok [0x61, 0] := rfl
  have hb : storedName .utf8 "b" = .ok [0x62, 0] := rfl
  show nameFrom .utf8 24 (Archive.swollen contents).members = _
  simp only [Archive.swollen, nameFrom, ha, hb]
  rfl

/-- As the contents are counted, they are empty. -/
theorem checkOffsets_swollen (hlength : contents.length = 4294967296) :
    checkOffsets (Archive.namedSwollen contents) = .ok () := by
  have hsize : (UInt32.ofNat contents.length).toNat = 0 := by
    rw [hlength]
    rfl
  show (offsets 28 [(UInt32.ofNat contents.length).toNat, 0]).forM
    (fun offset => discard (fit offset)) = Except.ok ()
  rw [hsize]
  rfl

theorem mapM_packedFile_swollen :
    (Archive.namedSwollen contents).mapM (packedFile Archive.emptyFile)
      = .ok (Packing.swollen contents) := rfl

end Change

namespace Session

variable (contents : Bytes)

theorem archive_swollen : (swollen contents).archive = some (.swollen contents) := rfl

theorem file_swollen : (swollen contents).file = some Archive.emptyFile := rfl

variable {contents} (hlength : contents.length = 4294967296)
  (hcontents : IndexEntry.forged.write ++ IndexEntry.forged.write <+: contents)

include hlength hcontents

/-- A flush succeeds, and what it has written and remembers is an archive that lacks "b". -/
theorem exists_flush_swollen : ∃ after : Session,
    (Operation.flush.work.run.run (swollen contents) : Except SessionError Bool × Session)
        = (.ok true, after)
      ∧ after.encoding = .utf8 ∧ after.handles = [(1, ⟨.reader, "b", { contents := [] }⟩)]
      ∧ after.file = some (Packing.image 0 (Packing.swollen contents))
      ∧ ∃ archive, after.archive = some archive
        ∧ archive.members = [{ name := "a", residence := .stored .forged }] := by
  have hends : Ends Operation.flush.work (swollen contents)
      (fun answer after => answer = true ∧ after.encoding = .utf8
        ∧ after.handles = [(1, ⟨.reader, "b", { contents := [] }⟩)]
        ∧ after.file = some (Packing.image 0 (Packing.swollen contents))
        ∧ ∃ archive, after.archive = some archive
          ∧ archive.members = [{ name := "a", residence := .stored .forged }])
      noFailure := by
    have hdirty : (Archive.swollen contents).dirty = true := rfl
    have hmode : (Archive.swollen contents).mode = .explicit := rfl
    have hpacks : Ends Change.repack ⟨Archive.emptyFile, (swollen contents).scratch,
        .swollen contents, (swollen contents).warnings⟩ _ noFailure :=
      Change.ends_repack (Change.namedFiles_swollen contents)
        (Change.checkOffsets_swollen contents hlength) (Change.mapM_packedFile_swollen contents)
        (Packing.readIndex_swollen hlength hcontents)
    simp only [Operation.work, ends_bind, ends_pure]
    rw [Work.ends_on (archive_swollen contents) (file_swollen contents)]
    simp only [Change.flush, ends_bind, ends_get, hdirty, hmode, if_true]
    refine hpacks.imp ?_
    rintro _ store ⟨hfile, harchive⟩
    refine ⟨trivial, rfl, rfl, congrArg some hfile, store.archive, rfl, ?_⟩
    rw [harchive]
    rfl
  obtain ⟨answer, after, hrun, rfl, hafter⟩ := hends.run_eq
  exact ⟨after, hrun, hafter⟩

/-- Whoever reads the file then finds "a" without contents, and no "b". -/
theorem ends_peek_swollen {after : Session} (hencoding : after.encoding = .utf8)
    (hfile : after.file = some (Packing.image 0 (Packing.swollen contents))) :
    Ends Work.peek after (fun found _ => found = [("a", .ok [])]) noFailure := by
  have hread := Packing.readIndex_swollen hlength hcontents
  have hload : (Archive.load after.path .readOnly .utf8
      (Packing.image 0 (Packing.swollen contents))).result =
      .ok { path := after.path, mode := .readOnly, encoding := .utf8, header := .misled,
            members := [{ name := "a", residence := .stored .forged }] } := by
    rw [Archive.load, hread]
    rfl
  simp only [Work.peek, Work.load, ends_bind, ends_get, hfile, ends_modify, Work.ofArchive,
    hencoding, hload, ends_pure]
  exact ends_mk_ok.mpr rfl

end Session
end NovelScript
