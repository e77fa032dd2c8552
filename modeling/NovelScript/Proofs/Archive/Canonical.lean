import Mathlib.Algebra.GroupWithZero.Nat
import NovelScript.Proofs.Archive.Readiness

/-!
# The canonical form of an archive

What a packing writes depends on little: the names of the files in order, the contents that they
should have, and the words of header and index that have no known meaning (`Archive.packed`).  Where
the old file kept anything does not matter.  So an archive that is packed has the canonical form of
its files (`Change.repack_packs`), and that form is its own (`Archive.packed_repacked`).

## Why a packing succeeds

Offsets are computed from the lengths in the index before any contents are read.  A ready archive
has contents of just these lengths (`Member.dataLength_eq`), so that no offset that is checked lies
behind the end of the packed file.
-/

namespace NovelScript

/-! ## What a packing computes -/

theorem mapM_eq_ok {ε α β : Type} {f : α → Except ε β} {g : α → β} {l : List α}
    (h : ∀ a ∈ l, f a = .ok (g a)) : l.mapM f = .ok (l.map g) := by
  induction l with
  | nil => rfl
  | cons a rest ih =>
    obtain ⟨ha, hrest⟩ := List.forall_mem_cons.mp h
    rw [List.mapM_cons, ha, ih hrest]
    rfl

namespace Packing

variable {nameOffset dataOffset : Nat} {files : List PackedFile} {file : PackedFile} {i : Nat}

theorem length_names : (names files).length = (files.map (·.name.length)).sum :=
  List.length_flatMap

theorem length_contents : (contents files).length = (files.map (·.contents.length)).sum :=
  List.length_flatMap

/-- The entry of each file has its exact place, behind all names and contents in front of it. -/
theorem entries_exact (hnames : nameOffset + (names files).length < UInt32.size)
    (hcontents : dataOffset + (contents files).length < UInt32.size)
    (hfile : files[i]? = some file) :
    ∃ entry, (entries nameOffset dataOffset files)[i]? = some entry
      ∧ entry.nameOffset.toNat = nameOffset + (names (files.take i)).length
      ∧ entry.nameLength.toNat = file.name.length
      ∧ entry.dataOffset.toNat = dataOffset + (contents (files.take i)).length
      ∧ entry.dataLength.toNat = file.contents.length ∧ entry.unknown = file.unknown := by
  induction files generalizing nameOffset dataOffset i with
  | nil => cases hfile
  | cons first rest ih =>
    rw [names_cons, List.length_append] at hnames
    rw [contents_cons, List.length_append] at hcontents
    cases i with
    | zero =>
      obtain rfl := Option.some.inj hfile
      refine ⟨_, rfl, ?_, ?_, ?_, ?_, rfl⟩
      all_goals exact UInt32.toNat_ofNat_of_lt' (by omega)
    | succ i =>
      -- behind the first file both offsets have moved on
      obtain ⟨entry, hentry, hname, hnameLength, hdata, hdataLength, hunknown⟩ :=
        @ih (nameOffset + first.name.length) (dataOffset + first.contents.length) i (by omega)
          (by omega) hfile
      refine ⟨entry, hentry, ?_, hnameLength, ?_, hdataLength, hunknown⟩
      · rw [hname, List.take_succ_cons, names_cons, List.length_append, Nat.add_assoc]
      · rw [hdata, List.take_succ_cons, contents_cons, List.length_append, Nat.add_assoc]

end Packing

/-! ## Canonical files -/

/-- A file of an archive as it is packed, with the contents that the catalog has for it. -/
def Member.packing (encoding : Encoding) (catalog : Catalog) (m : Member) : PackedFile where
  name := (Change.storedName encoding m.name).toOption.getD []
  contents := (catalog m.name).getD []
  unknown := m.entry.unknown

/-- Lengths in the index are those of the contents. -/
theorem Member.dataLength_eq {m : Member} {file octets : Bytes} (hm : m.isCreated = false)
    (hcontents : m.contents file = .ok octets) (hsmall : octets.length < UInt32.size) :
    m.entry.dataLength.toNat = octets.length := by
  cases hresidence : m.residence with
  | created => simp [isCreated, hresidence] at hm
  | buffered unknown held =>
    simp only [contents, hresidence] at hcontents
    obtain rfl := Except.ok.inj hcontents
    simp only [entry, hresidence]
    exact UInt32.toNat_ofNat_of_lt' hsmall
  | stored found =>
    simp only [contents, hresidence] at hcontents
    simp only [entry, hresidence]
    exact (region_eq_ok_iff.mp hcontents).1.symm

namespace Archive

/-- The files of an archive as they are packed, in the order of the index. -/
def packing (archive : Archive) (catalog : Catalog) : List PackedFile :=
  archive.files.map (Member.packing archive.encoding catalog)

/-- The canonical form of an archive whose files have the contents of the catalog. -/
def packed (archive : Archive) (catalog : Catalog) : Bytes :=
  Packing.image archive.header.unknown (archive.packing catalog)

/-- The files as they are packed, under the names that they have. -/
def labelled (archive : Archive) (catalog : Catalog) : List (String × PackedFile) :=
  archive.files.map fun m => (m.name, m.packing archive.encoding catalog)

/-- The archive once it has been packed and the packed file has been read. -/
def repacked (archive : Archive) (catalog : Catalog) : Archive :=
  { archive with
    header := Packing.header archive.header.unknown (archive.packing catalog)
    members := archive.members.foldl Change.handOver (Packing.members ArchiveHeader.size
      (Packing.contentsOffset (archive.packing catalog)) (archive.labelled catalog))
    dirty := false }

variable {archive : Archive} {file octets : Bytes} {mode : SaveMode} {encoding : Encoding}
  {catalog : Catalog} {words : Words} {m : Member}

theorem map_snd_labelled : (archive.labelled catalog).map (·.2) = archive.packing catalog := by
  rw [labelled, packing, List.map_map]
  rfl

theorem map_fst_labelled : (archive.labelled catalog).map (·.1) = archive.files.map (·.name) := by
  rw [labelled, List.map_map]
  rfl

/-- The size of the canonical form. -/
theorem length_packed (archive : Archive) (catalog : Catalog) :
    (archive.packed catalog).length
      = ArchiveHeader.size + ((archive.packing catalog).map (·.name.length)).sum
        + ((archive.packing catalog).map (·.contents.length)).sum
        + ArchiveHeader.entrySize * archive.size := by
  rw [packed, Packing.length_image, Packing.indexOffset, Packing.contentsOffset,
    Packing.length_names, Packing.length_contents, packing, List.length_map, size]

/-- No file is longer than the canonical form. -/
theorem length_contents_le (hm : m ∈ archive.files) :
    (m.packing archive.encoding catalog).contents.length ≤ (archive.packed catalog).length := by
  have hmem : m.packing archive.encoding catalog ∈ archive.packing catalog :=
    List.mem_map_of_mem hm
  have hle : (m.packing archive.encoding catalog).contents.length
      ≤ (Packing.contents (archive.packing catalog)).length := by
    rw [Packing.contents, List.flatMap_def]
    exact (List.sublist_flatten_of_mem (List.mem_map_of_mem hmem)).length_le
  rw [packed, Packing.length_image, Packing.indexOffset]
  omega

/-- A name that survives has a stored form. -/
theorem storedName_packing (h : encoding.Survives m.name) :
    Change.storedName encoding m.name = .ok (m.packing encoding catalog).name := by
  obtain ⟨-, octets, hencode, -⟩ := h
  have hstored : Change.storedName encoding m.name = .ok (octets ++ [0]) :=
    IndexEntry.storedName_eq_ok_iff.mpr (by rw [Encoding.encodeTerminated, hencode]; rfl)
  rw [Member.packing, hstored]
  rfl

/-- What a ready archive packs of a file is its name and its contents. -/
theorem Ready.packing_eq (h : archive.Ready file mode encoding catalog words)
    (hm : m ∈ archive.files) (hsurvives : encoding.Survives m.name) :
    Change.storedName archive.encoding m.name
        = .ok (m.packing archive.encoding catalog).name
      ∧ catalog m.name = some (m.packing archive.encoding catalog).contents
      ∧ m.contents file = .ok (m.packing archive.encoding catalog).contents := by
  obtain ⟨octets, hcatalog, hcontents⟩ := h.held m hm
  refine ⟨?_, ?_, ?_⟩
  · rw [h.encoding_eq]
    exact storedName_packing hsurvives
  · simp only [Member.packing, hcatalog, Option.getD_some]
  · simp only [Member.packing, hcatalog, hcontents, Option.getD_some]

end Archive

/-! ## Checking offsets -/

namespace Change

theorem forM_fit {offsets : List Nat} (h : ∀ offset ∈ offsets, offset < UInt32.size) :
    (offsets.forM fun offset => discard (fit offset)) = .ok ⟨⟩ := by
  induction offsets with
  | nil => rfl
  | cons offset rest ih =>
    obtain ⟨hoffset, hrest⟩ := List.forall_mem_cons.mp h
    have hfit : fit offset = .ok (.ofNat offset) := fit_eq_ok_iff.mpr ⟨hoffset, rfl⟩
    show (do discard (fit offset); rest.forM fun offset => discard (fit offset)) = _
    rw [hfit, ih hrest]
    rfl

/-- No offset lies behind the last one. -/
theorem le_of_mem_offsets {start offset : Nat} {sizes : List Nat}
    (h : offset ∈ offsets start sizes) : offset ≤ start + sizes.sum := by
  induction sizes generalizing start with
  | nil =>
    obtain rfl := List.mem_singleton.mp h
    exact Nat.le_add_right _ _
  | cons size rest ih =>
    rw [List.sum_cons]
    rcases List.mem_cons.mp h with rfl | h
    · exact Nat.le_add_right _ _
    · exact Nat.add_assoc start size rest.sum ▸ ih h

/-- Names are stored in order, where the last of them still starts at an offset. -/
theorem nameFrom_eq_ok {encoding : Encoding} {stored : Member → Bytes} {members : List Member}
    {offset : Nat} (hstored : ∀ m ∈ members, storedName encoding m.name = .ok (stored m))
    (hsmall : offset + (members.flatMap stored).length < UInt32.size) :
    nameFrom encoding offset members = .ok (members.map fun m => (stored m, m)) := by
  induction members generalizing offset with
  | nil => rfl
  | cons m rest ih =>
    obtain ⟨hm, hrest⟩ := List.forall_mem_cons.mp hstored
    rw [List.flatMap_cons, List.length_append] at hsmall
    have hfit : fit offset = .ok (.ofNat offset) := fit_eq_ok_iff.mpr ⟨by omega, rfl⟩
    rw [nameFrom, hm]
    show (do
      discard (fit offset)
      let named ← nameFrom encoding (offset + (stored m).length) rest
      return (stored m, m) :: named) = _
    rw [hfit, ih hrest (by omega)]
    rfl

/-- Whatever their offsets, names are paired with their stored forms. -/
theorem eq_map_of_nameFrom {encoding : Encoding} {stored : Member → Bytes} {members : List Member}
    {offset : Nat} {named : List (Bytes × Member)}
    (hstored : ∀ m ∈ members, storedName encoding m.name = .ok (stored m))
    (h : nameFrom encoding offset members = .ok named) :
    named = members.map fun m => (stored m, m) := by
  induction members generalizing offset named with
  | nil => exact (Except.ok.inj h).symm
  | cons m rest ih =>
    obtain ⟨hm, hrest⟩ := List.forall_mem_cons.mp hstored
    rw [nameFrom, hm] at h
    obtain ⟨_, hname, h⟩ := bind_eq_ok_iff.mp h
    obtain ⟨_, -, h⟩ := bind_eq_ok_iff.mp h
    obtain ⟨others, hothers, h⟩ := bind_eq_ok_iff.mp h
    rw [← Except.ok.inj h, ← Except.ok.inj hname, ih hrest hothers, List.map_cons]

/-- The offsets that are checked lie in front of the index. -/
theorem checkOffsets_eq_ok {named : List (Bytes × Member)} {files : List PackedFile}
    (hnames : named.map (·.1) = files.map (·.name))
    (hsizes : named.map (·.2.entry.dataLength.toNat) = files.map (·.contents.length))
    (hsmall : Packing.indexOffset files < UInt32.size) : checkOffsets named = .ok ⟨⟩ := by
  have hlengths : named.map (·.1.length) = files.map (·.name.length) := by
    simpa [Function.comp_def] using congrArg (List.map List.length) hnames
  have hcontentsOffset : ArchiveHeader.size + (named.flatMap (·.1)).length
      = Packing.contentsOffset files := by
    rw [List.length_flatMap, hlengths, ← Packing.length_names, Packing.contentsOffset]
  rw [Packing.indexOffset, Packing.length_contents] at hsmall
  simp only [checkOffsets, hsizes, hcontentsOffset]
  refine forM_fit fun offset hoffset => ?_
  have hle := le_of_mem_offsets hoffset
  omega

/-! ## Packing -/

variable {mode : SaveMode} {encoding : Encoding} {catalog : Catalog} {words : Words}
  {store : Store}

section

variable (h : store.archive.Ready store.file mode encoding catalog words)
  (hsurvive : ∀ m ∈ store.archive.files, encoding.Survives m.name)

include h hsurvive

theorem namedFiles_eq_ok (hfits : Fits (store.archive.packed catalog)) :
    namedFiles store.archive = .ok (store.archive.files.map fun m =>
      ((m.packing store.archive.encoding catalog).name, m)) := by
  refine nameFrom_eq_ok (fun m hm => (h.packing_eq hm (hsurvive m hm)).1) ?_
  have hnames : store.archive.files.flatMap
        (fun m => (m.packing store.archive.encoding catalog).name)
      = Packing.names (store.archive.packing catalog) := by
    rw [Packing.names, Archive.packing, List.flatMap_map]
  rw [Fits, Archive.packed, Packing.length_image, Packing.indexOffset,
    Packing.contentsOffset] at hfits
  rw [hnames]
  omega

theorem mapM_packedFile_eq_ok :
    (store.archive.files.map fun m =>
        ((m.packing store.archive.encoding catalog).name, m)).mapM (packedFile store.file)
      = .ok (store.archive.packing catalog) := by
  rw [List.mapM_map]
  refine mapM_eq_ok fun m hm => ?_
  rw [Function.comp_apply, packedFile, (h.packing_eq hm (hsurvive m hm)).2.2]
  rfl

theorem checkOffsets_packing_eq_ok (hfits : Fits (store.archive.packed catalog)) :
    checkOffsets (store.archive.files.map fun m =>
      ((m.packing store.archive.encoding catalog).name, m)) = .ok ⟨⟩ := by
  refine @checkOffsets_eq_ok _ (store.archive.packing catalog) ?_ ?_ ?_
  · rw [Archive.packing, List.map_map, List.map_map]
    rfl
  · rw [Archive.packing, List.map_map, List.map_map]
    refine List.map_congr_left fun m hm => ?_
    obtain ⟨-, -, hcontents⟩ := h.packing_eq hm (hsurvive m hm)
    exact Member.dataLength_eq (Archive.mem_files.mp hm).2 hcontents
      (Nat.lt_of_le_of_lt (Archive.length_contents_le hm) hfits)
  · rw [Fits, Archive.packed, Packing.length_image] at hfits
    omega

theorem readIndex_packed (hfits : Fits (store.archive.packed catalog)) :
    Archive.readIndex store.archive.encoding (store.archive.packed catalog)
      = { result := .ok ((store.archive.repacked catalog).header,
            Packing.members ArchiveHeader.size
              (Packing.contentsOffset (store.archive.packing catalog))
              (store.archive.labelled catalog)) } := by
  simp only [Archive.repacked, Archive.packed, ← Archive.map_snd_labelled] at hfits ⊢
  rw [h.encoding_eq]
  refine Packing.readIndex_image hfits (fun p hp => ?_) (fun p hp => ?_) ?_
  · obtain ⟨m, hm, rfl⟩ := List.mem_map.mp hp
    exact h.encoding_eq ▸ (h.packing_eq hm (hsurvive m hm)).1
  · obtain ⟨m, hm, rfl⟩ := List.mem_map.mp hp
    exact hsurvive m hm
  · rw [Archive.map_fst_labelled]
    exact h.unique.sublist (List.filter_sublist.map _)

/-- Packing writes the canonical form and remembers what is read from it, or it fails for the size
alone. -/
theorem repack_packs :
    Ends repack store
      (fun _ store' => store'.file = store.archive.packed catalog
        ∧ (Fits (store.archive.packed catalog) →
          store'.archive = store.archive.repacked catalog))
      fun _ store' => ¬ Fits (store.archive.packed catalog)
        ∧ (Fits store'.file → Untouched store store') := by
  have hpacks : Ends repack store
      (fun _ store' => store'.file = store.archive.packed catalog
        ∧ (Fits (store.archive.packed catalog) →
          store'.archive = store.archive.repacked catalog))
      fun _ _ => ¬ Fits (store.archive.packed catalog) := by
    simp only [repack, ends_bind, ends_get, of, ends_mk, ends_modify, update]
    refine ⟨fun named hnamed => ?_, fun e he hfits => ?_⟩
    case refine_2 =>
      rw [namedFiles_eq_ok h hsurvive hfits] at he
      cases he
    obtain rfl := eq_map_of_nameFrom (fun m hm => (h.packing_eq hm (hsurvive m hm)).1) hnamed
    refine ⟨fun _ _ => ?_, fun e he hfits => ?_⟩
    · rw [mapM_packedFile_eq_ok h hsurvive]
      refine ⟨fun packed hpacked => ?_, fun e he => (by cases he)⟩
      obtain rfl := Except.ok.inj hpacked
      refine ⟨fun index hindex => ⟨rfl, fun hfits => ?_⟩, fun e he hfits => ?_⟩
      · have hread := readIndex_packed h hsurvive hfits
        rw [Archive.packed] at hread
        rw [hread] at hindex
        obtain rfl := Except.ok.inj hindex
        rfl
      · have hread := readIndex_packed h hsurvive hfits
        rw [Archive.packed] at hread
        rw [hread] at he
        cases he
    · rw [checkOffsets_packing_eq_ok h hsurvive hfits] at he
      cases he
  exact (hpacks.and (repack_undone store)).mono (fun _ _ => And.left) fun _ _ => id

end

end Change

/-! ## The archive in the canonical file -/

namespace Packing

/-- What is packed anew of a packed file is what was packed, if names and contents are known. -/
theorem map_packing_members {encoding : Encoding} {catalog : Catalog} {nameOffset dataOffset : Nat}
    {named : List (String × PackedFile)} :
    (members nameOffset dataOffset named).map (Member.packing encoding catalog)
      = named.map fun p => ⟨(Change.storedName encoding p.1).toOption.getD [],
          (catalog p.1).getD [], p.2.unknown⟩ := by
  induction named generalizing nameOffset dataOffset with
  | nil => rfl
  | cons first rest ih =>
    rw [members, List.map_cons, List.map_cons, ih]
    rfl

/-- Each member of a packed file has the word that was packed. -/
theorem word_of_mem_members {nameOffset dataOffset : Nat} {named : List (String × PackedFile)}
    {m : Member} (hm : m ∈ members nameOffset dataOffset named) :
    ∃ p ∈ named, m.name = p.1 ∧ m.entry.unknown = p.2.unknown := by
  induction named generalizing nameOffset dataOffset with
  | nil => simp [members] at hm
  | cons first rest ih =>
    rcases List.mem_cons.mp hm with rfl | hm
    · exact ⟨first, List.mem_cons_self, rfl, rfl⟩
    · obtain ⟨p, hp, hsame⟩ := ih hm
      exact ⟨p, List.mem_cons_of_mem _ hp, hsame⟩

end Packing

namespace Archive

variable {archive : Archive} {file : Bytes} {mode : SaveMode} {encoding : Encoding}
  {catalog : Catalog} {words : Words}

/-- Packed once, the files are those of the packed file. -/
theorem map_core_files_repacked :
    (archive.repacked catalog).files.map Member.core
      = (Packing.members ArchiveHeader.size (Packing.contentsOffset (archive.packing catalog))
          (archive.labelled catalog)).map Member.core :=
  Change.map_core_files_handOver

theorem map_name_repacked :
    (archive.repacked catalog).files.map (·.name) = archive.files.map (·.name) := by
  rw [Member.map_name_of_map_core_eq map_core_files_repacked, Packing.map_name_members,
    map_fst_labelled]

/-- The canonical form is its own. -/
theorem packed_repacked : (archive.repacked catalog).packed catalog = archive.packed catalog := by
  -- what is packed of a member depends on its core alone
  have hcore : ∀ members : List Member, members.map (Member.packing archive.encoding catalog)
      = (members.map Member.core).map fun core =>
        Member.packing archive.encoding catalog { name := core.1, residence := core.2 } := by
    intro members
    rw [List.map_map]
    rfl
  have hpacking : (archive.repacked catalog).packing catalog = archive.packing catalog := by
    show (archive.repacked catalog).files.map (Member.packing archive.encoding catalog) = _
    rw [hcore, map_core_files_repacked, ← hcore, Packing.map_packing_members, labelled,
      List.map_map]
    rfl
  show Packing.image archive.header.unknown ((archive.repacked catalog).packing catalog) = _
  rw [hpacking, packed]

/-- Handles are found again on the files, and files that are being made are still there. -/
theorem standing_repacked_eq (hunique : (archive.members.map (·.name)).Nodup) :
    (archive.repacked catalog).standing = archive.standing :=
  funext fun name => standing_repacked hunique map_fst_labelled name

/-- The members of a packed archive are its files, in order, and then those being made. -/
theorem map_name_members_repacked : (archive.repacked catalog).members.map (·.name)
    = archive.files.map (·.name) ++ (archive.members.filter (·.isCreated)).map (·.name) := by
  rw [← map_fst_labelled, ← Packing.map_name_members, ← List.map_append]
  refine Member.map_name_of_map_core_eq ?_
  rw [Archive.repacked, Change.map_core_handOver, List.map_append]

/-- Each file of a packed archive has the core of a member of the packed file. -/
theorem exists_of_mem_repacked {m : Member} (hm : m ∈ (archive.repacked catalog).files) :
    ∃ o ∈ Packing.members ArchiveHeader.size (Packing.contentsOffset (archive.packing catalog))
      (archive.labelled catalog), o.core = m.core :=
  Member.exists_of_map_core_eq map_core_files_repacked hm

/-- The index of a packed file comes last. -/
theorem indexSpan_repacked (hfits : Fits (archive.packed catalog)) :
    (archive.repacked catalog).header.indexSpan
      = ⟨Packing.indexOffset (archive.packing catalog), (archive.packed catalog).length⟩ := by
  rw [packed, ← map_snd_labelled] at hfits ⊢
  rw [← Packing.toNat_indexOffset hfits, ← Packing.indexEnd_header hfits, map_snd_labelled]
  rfl

section

variable (h : archive.Ready file mode encoding catalog words)
  (hsurvive : ∀ m ∈ archive.files, encoding.Survives m.name)
  (hfits : Fits (archive.packed catalog))

include h hsurvive hfits

/-- In the packed file, names and contents stand where its index says. -/
theorem Ready.stands : Packing.Stands encoding (archive.packed catalog) ArchiveHeader.size
    (Packing.contentsOffset (archive.packing catalog)) (archive.labelled catalog) := by
  rw [packed, ← map_snd_labelled] at hfits ⊢
  refine Packing.stands_image hfits fun p hp => ?_
  obtain ⟨m, hm, rfl⟩ := List.mem_map.mp hp
  exact h.encoding_eq ▸ (h.packing_eq hm (hsurvive m hm)).1

/-- Each file of the packed archive is one that was packed, in front of the index. -/
theorem Ready.placed {m : Member} (hm : m ∈ (archive.repacked catalog).files) :
    ∃ o ∈ archive.files, m.name = o.name ∧ ∃ entry, m.residence = .stored entry
      ∧ entry.Locates encoding (archive.packed catalog) o.name
        (o.packing archive.encoding catalog).contents
      ∧ entry.dataEnd ≤ Packing.indexOffset (archive.packing catalog) := by
  obtain ⟨o, ho, hcore⟩ := exists_of_mem_repacked hm
  obtain ⟨p, hp, hname, entry, hentry, hlocates, -, -, hbelow⟩ :=
    (h.stands hsurvive hfits).locates ho
  obtain ⟨packed, hpacked, rfl⟩ := List.mem_map.mp hp
  obtain ⟨hcoreName, hcoreResidence⟩ := Member.core_eq_iff.mp hcore
  rw [map_snd_labelled] at hbelow
  exact ⟨packed, hpacked, hcoreName ▸ hname, entry, hcoreResidence ▸ hentry, hlocates, hbelow⟩

/-- Packing separates header, index and contents. -/
theorem Ready.separate_repacked :
    (archive.repacked catalog).Separate (archive.packed catalog) := by
  have hspan := indexSpan_repacked hfits
  refine ⟨?_, fun m hm => ?_, fun m hm => ?_, fun a ha b hb hne => ?_⟩
  · rw [hspan]
    refine .inr ⟨?_, Nat.le_refl _⟩
    simp only [Packing.indexOffset, Packing.contentsOffset]
    omega
  · obtain ⟨o, -, -, entry, hentry, hlocates, -⟩ := h.placed hsurvive hfits hm
    have heq : m.entry = entry := by rw [Member.entry, hentry]
    refine ⟨heq ▸ hentry, ?_⟩
    simp only [Member.dataSpan, hentry]
    exact hlocates.dataInside
  · -- contents end where the index begins
    obtain ⟨o, -, -, entry, hentry, -, hbelow⟩ := h.placed hsurvive hfits hm
    rw [hspan]
    simp only [Member.dataSpan, hentry]
    exact .inr (.inr (.inr hbelow))
  · obtain ⟨a', ha', hacore⟩ := exists_of_mem_repacked ha
    obtain ⟨b', hb', hbcore⟩ := exists_of_mem_repacked hb
    rw [← (Member.core_eq_iff.mp hacore).1, ← (Member.core_eq_iff.mp hbcore).1] at hne
    rw [← Member.dataSpan_of_core_eq hacore, ← Member.dataSpan_of_core_eq hbcore]
    exact Member.apart_of_pairwise (h.stands hsurvive hfits).pairwise ha' hb' hne

/-- Packed, an archive is as ready as it was. -/
theorem Ready.repacked :
    (archive.repacked catalog).Ready (archive.packed catalog) mode encoding catalog words where
  mode_eq := h.mode_eq
  encoding_eq := h.encoding_eq
  front := Packing.header_isPrefix_image _
  unique := by
    rw [map_name_members_repacked]
    exact nodup_files_append h.unique
  held m hm := by
    obtain ⟨o, ho, hname, entry, hentry, hlocates, -⟩ := h.placed hsurvive hfits hm
    refine ⟨_, hname ▸ (h.packing_eq ho (hsurvive o ho)).2.1, ?_⟩
    simp only [Member.contents, hentry]
    exact hlocates.data
  headerWord := h.headerWord
  word m hm := by
    obtain ⟨o, ho, hcore⟩ := exists_of_mem_repacked hm
    obtain ⟨p, hp, hname, hword⟩ := Packing.word_of_mem_members ho
    obtain ⟨packed, hpacked, rfl⟩ := List.mem_map.mp hp
    rw [← Member.entry_of_core_eq hcore, ← (Member.core_eq_iff.mp hcore).1, hname, hword]
    exact h.word packed hpacked
  absent name hname := by
    rw [map_name_repacked] at hname
    exact h.absent name hname
  separate _ := h.separate_repacked hsurvive hfits

end

end Archive
end NovelScript
