import NovelScript.Proofs.Archive.Layout

/-!
# Archives that have what they should have

An open archive is `Intact` over a file and for a catalog if its members are laid in the file for
that catalog and header and index are apart from them.  The lemmas of this module say how files may
grow, be saved, listed and taken out without harm to that; the steps of an archive are made of
these.
-/

namespace NovelScript

/-- The index in the file lists just the files of the archive. -/
def Archive.ListedIn (archive : Archive) (file : Bytes) : Prop :=
  archive.header.indexEnd ≤ file.length
    ∧ region file archive.header.indexOffset.toNat archive.header.indexLength.toNat
      = .ok (Change.indexOctets archive)

/-- Header and index are in the file, apart from the members, and the index lists all files unless
there are changes.  In immediate mode it may have the old place of a name without that. -/
structure Indexed (file : Bytes) (archive : Archive) : Prop where
  header : archive.header.write <+: file
  version : archive.header.version = 0
  headerSize : archive.header.headerSize = 24
  inside : archive.header.indexSpan.Inside file.length
  apart : ∀ m ∈ archive.members, archive.header.indexSpan.Apart m.nameSpan
    ∧ archive.header.indexSpan.Apart m.dataSpan
  listed : archive.mode ≠ .immediate → archive.dirty = false → archive.ListedIn file

namespace Archive

/-- Over this file, the archive has the files of the catalog. -/
structure Intact (archive : Archive) (file : Bytes) (mode : SaveMode) (encoding : Encoding)
    (catalog : Catalog) : Prop where
  mode_eq : archive.mode = mode
  encoding_eq : archive.encoding = encoding
  laid : Laid encoding file archive.members catalog
  indexed : Indexed file archive
  /-- Only explicit saving leaves contents in memory. -/
  unbuffered : mode ≠ .explicit → ∀ m ∈ archive.members, ∀ unknown octets,
    m.residence ≠ .buffered unknown octets

theorem ListedIn.append {archive : Archive} {file : Bytes} (h : archive.ListedIn file)
    (hinside : archive.header.indexSpan.Inside file.length) (octets : Bytes) :
    archive.ListedIn (file ++ octets) := by
  obtain ⟨hend, hregion⟩ := h
  refine ⟨Nat.le_trans hend (by simp), (Keeps.append file octets).region_eq_ok hregion ?_ ?_⟩
  · simp only [Span.Inside, ArchiveHeader.indexSpan, ArchiveHeader.indexEnd] at hinside
    omega
  · exact .inl hend

/-- What an index lists are the files alone. -/
theorem ListedIn.of_files {archive archive' : Archive} {file : Bytes} (h : archive.ListedIn file)
    (hheader : archive'.header = archive.header)
    (hfiles : (archive'.files.flatMap fun m => m.entry.write)
      = archive.files.flatMap fun m => m.entry.write) : archive'.ListedIn file := by
  rw [ListedIn, hheader, Change.indexOctets, hfiles]
  exact h

/-- Whether a handle for writing is open on the file of a name. -/
def Writes (archive : Archive) (name : String) : Prop :=
  ∃ m ∈ archive.members, m.name = name ∧ m.writer = true

namespace Intact

variable {archive : Archive} {file file' octets : Bytes} {mode : SaveMode} {encoding : Encoding}
  {catalog : Catalog} {members : List Member} {m : Member} {name : String} {limit : Nat}

theorem size_le (h : archive.Intact file mode encoding catalog) :
    ArchiveHeader.size ≤ file.length := by
  have hle := h.indexed.header.length_le
  rwa [ArchiveHeader.length_write] at hle

/-! ## Handles -/

/-- Handles have nothing to do with what an archive has. -/
theorem of_map_core_eq (h : archive.Intact file mode encoding catalog)
    (hcore : members.map Member.core = archive.members.map Member.core) :
    Intact { archive with members } file mode encoding catalog where
  mode_eq := h.mode_eq
  encoding_eq := h.encoding_eq
  laid := h.laid.of_map_core_eq hcore
  indexed :=
    { h.indexed with
      apart := by
        intro m' hm'
        obtain ⟨m, hm, heq⟩ := Member.exists_of_map_core_eq hcore hm'
        rw [← Member.nameSpan_of_core_eq heq, ← Member.dataSpan_of_core_eq heq]
        exact h.indexed.apart m hm
      listed := fun hmode hdirty => (h.indexed.listed hmode hdirty).of_files rfl
        (Member.flatMap_entry_of_map_core_eq (Member.map_core_files hcore)) }
  unbuffered hmode m' hm' := by
    obtain ⟨m, hm, heq⟩ := Member.exists_of_map_core_eq hcore hm'
    exact (Member.core_eq_iff.mp heq).2 ▸ h.unbuffered hmode m hm

/-! ## Octets behind the end -/

/-- Octets behind the end do no harm. -/
theorem append (h : archive.Intact file mode encoding catalog) (octets : Bytes) :
    archive.Intact (file ++ octets) mode encoding catalog where
  mode_eq := h.mode_eq
  encoding_eq := h.encoding_eq
  laid := h.laid.refile (.append file octets) h.laid.below
  indexed :=
    { h.indexed with
      header := h.indexed.header.trans (List.prefix_append file octets)
      inside := h.indexed.inside.of_below h.indexed.inside.below (by simp)
      listed := fun hmode hdirty =>
        (h.indexed.listed hmode hdirty).append h.indexed.inside octets }
  unbuffered := h.unbuffered

/-! ## Members that come and go -/

/-- A file that is being made is none yet. -/
theorem concat (h : archive.Intact file mode encoding catalog) (hm : m.residence = .created)
    (hname : ∀ m' ∈ archive.members, m'.name ≠ m.name) (hsurvives : encoding.Survives m.name) :
    Intact { archive with members := archive.members ++ [m] } file mode encoding catalog where
  mode_eq := h.mode_eq
  encoding_eq := h.encoding_eq
  laid := h.laid.concat hm hname hsurvives
  indexed :=
    { h.indexed with
      apart := by
        intro m' hm'
        rcases List.mem_append.mp hm' with hm' | hm'
        · exact h.indexed.apart m' hm'
        · obtain rfl : m' = m := by simpa using hm'
          simp only [Member.nameSpan, Member.dataSpan, hm]
          exact ⟨.inr (.inl (Nat.le_refl 0)), .inr (.inl (Nat.le_refl 0))⟩
      listed := by
        intro hmode hdirty
        have hcreated : m.isCreated = true := by simp [Member.isCreated, hm]
        -- what is being made is not listed, so the index stays up to date
        refine (h.indexed.listed hmode hdirty).of_files rfl ?_
        simp only [files]
        rw [List.filter_append, List.filter_cons_of_neg (by simp [hcreated]), List.filter_nil,
          List.append_nil] }
  unbuffered hmode m' hm' := by
    rcases List.mem_append.mp hm' with hm' | hm'
    · exact h.unbuffered hmode m' hm'
    · obtain rfl : m' = m := by simpa using hm'
      simp [hm]

theorem apart_eraseP (h : archive.Intact file mode encoding catalog) (name : String) :
    ∀ m ∈ archive.members.eraseP (·.name == name), archive.header.indexSpan.Apart m.nameSpan
      ∧ archive.header.indexSpan.Apart m.dataSpan :=
  fun m hm => h.indexed.apart m (List.mem_of_mem_eraseP hm)

/-- A file that is being made leaves nothing behind. -/
theorem forget (h : archive.Intact file mode encoding catalog) (hm : m ∈ archive.members)
    (hcreated : m.isCreated = true) :
    Intact { archive with members := archive.members.eraseP (·.name == m.name) } file mode encoding
      catalog where
  mode_eq := h.mode_eq
  encoding_eq := h.encoding_eq
  laid := by
    have hnone := (h.laid.held m hm).of_isCreated hcreated
    have hlaid := h.laid.eraseP m.name
    rwa [Catalog.remove_eq_self hnone] at hlaid
  indexed :=
    { h.indexed with
      apart := h.apart_eraseP m.name
      listed := by
        intro hmode hdirty
        -- the member that goes was not listed
        have hfiles : (archive.members.filter (·.name ≠ m.name)).filter (!·.isCreated)
            = archive.members.filter (!·.isCreated) := by
          rw [List.filter_filter]
          refine List.filter_congr fun o ho => ?_
          by_cases hname : o.name = m.name
          · rw [Member.eq_of_name_eq h.laid.unique ho hm hname, hcreated]
            rfl
          · simp [hname]
        refine (h.indexed.listed hmode hdirty).of_files rfl ?_
        simp only [files]
        rw [Member.eraseP_eq_filter h.laid.unique, hfiles] }
  unbuffered hmode o ho := h.unbuffered hmode o (List.mem_of_mem_eraseP ho)

/-- A file that is taken out is gone from the catalog. -/
theorem delete (h : archive.Intact file mode encoding catalog) (name : String) :
    Intact { archive with members := archive.members.eraseP (·.name == name), dirty := true } file
      mode encoding (catalog.remove name) where
  mode_eq := h.mode_eq
  encoding_eq := h.encoding_eq
  laid := h.laid.eraseP name
  indexed :=
    { h.indexed with
      apart := h.apart_eraseP name
      listed := by simp }
  unbuffered hmode o ho := h.unbuffered hmode o (List.mem_of_mem_eraseP ho)

/-! ## Saving a file -/

/-- A file is saved behind the limit, where all else is below it.  This is a change, but in
immediate mode it need not be remembered as one. -/
theorem save (h : archive.Intact file mode encoding catalog) (hm : m ∈ archive.members)
    {residence : Residence} (hkeeps : Keeps file file' limit)
    (hheader : archive.header.write <+: file') (hindex : archive.header.indexSpan.Below limit)
    (hbelow : ∀ o ∈ archive.members, o.name ≠ m.name →
      o.nameSpan.Below limit ∧ o.dataSpan.Below limit)
    (hsaved : m.SavedAs residence encoding file' octets limit)
    (hunbuffered : mode ≠ .explicit → ∀ unknown octets, residence ≠ .buffered unknown octets)
    {dirty : Bool} (hdirty : mode ≠ .immediate → dirty = true) :
    Intact { archive with
        members := Member.change m.name (fun o => { o with residence }) archive.members
        dirty }
      file' mode encoding (catalog.put m.name octets) where
  mode_eq := h.mode_eq
  encoding_eq := h.encoding_eq
  laid := h.laid.save hm hkeeps hbelow hsaved
  indexed :=
    { h.indexed with
      header := hheader
      inside := h.indexed.inside.of_below hindex hkeeps.le'
      apart := by
        intro m' hm'
        rcases (Member.mem_change_iff h.laid.unique).mp hm' with ⟨hm', -⟩ | ⟨o, ho, hname, rfl⟩
        · exact h.indexed.apart m' hm'
        · obtain rfl := Member.eq_of_name_eq h.laid.unique ho hm hname
          obtain ⟨hname, hdata⟩ := h.indexed.apart o hm
          exact ⟨hsaved.apart_name hindex hname, hsaved.apart_data hindex hdata⟩
      listed := by
        intro hmode hclean
        rw [hdirty (h.mode_eq ▸ hmode)] at hclean
        cases hclean }
  unbuffered hmode m' hm' := by
    rcases (Member.mem_change_iff h.laid.unique).mp hm' with ⟨hm', -⟩ | ⟨o, -, -, rfl⟩
    · exact h.unbuffered hmode m' hm'
    · exact hunbuffered hmode

/-- Where a member comes last in the file, all else is below its contents. -/
theorem below_of_last (h : archive.Intact file mode encoding catalog) (hm : m ∈ archive.members)
    (hpos : m.dataSpan.start < m.dataSpan.stop) (hlast : m.dataSpan.stop = file.length) :
    archive.header.indexSpan.Below m.dataSpan.start
      ∧ m.nameSpan.Below m.dataSpan.start
      ∧ ∀ o ∈ archive.members, o.name ≠ m.name →
        o.nameSpan.Below m.dataSpan.start ∧ o.dataSpan.Below m.dataSpan.start := by
  refine ⟨?_, ?_, fun o ho hne => ⟨?_, ?_⟩⟩
  · exact (h.indexed.apart m hm).2.below_of_last h.indexed.inside hpos hlast
  · exact (h.laid.nameApart m hm m hm).symm.below_of_last (h.laid.held m hm).inside.1 hpos hlast
  · exact (h.laid.nameApart m hm o ho).symm.below_of_last (h.laid.held o ho).inside.1 hpos hlast
  · exact (h.laid.dataApart o ho m hm hne).below_of_last (h.laid.held o ho).inside.2 hpos hlast

/-! ## Writing the index -/

/-- The index is written behind the limit, where all members are below it, and the header after
it. -/
theorem reindex (h : archive.Intact file mode encoding catalog) {offset : UInt32}
    (hkeeps : Keeps file file' limit)
    (hbelow : ∀ m ∈ archive.members, m.nameSpan.Below limit ∧ m.dataSpan.Below limit)
    (hregion : region file' offset.toNat (Change.indexOctets archive).length
      = .ok (Change.indexOctets archive))
    (hlimit : limit ≤ offset.toNat) (hbehind : ArchiveHeader.size ≤ offset.toNat)
    (hend : offset.toNat + (Change.indexOctets archive).length = file'.length)
    (hsmall : file'.length < UInt32.size) {header : ArchiveHeader}
    (hheader : header = { archive.header with
      indexOffset := offset
      indexLength := .ofNat (Change.indexOctets archive).length }) :
    Intact { archive with header, dirty := false } (header.write ++ file'.drop ArchiveHeader.size)
        mode encoding catalog
      ∧ ListedIn { archive with header, dirty := false }
        (header.write ++ file'.drop ArchiveHeader.size) := by
  have hlength : header.indexLength.toNat = (Change.indexOctets archive).length := by
    rw [hheader]
    exact UInt32.toNat_ofNat_of_lt' (by omega)
  have hoffset : header.indexOffset = offset := by rw [hheader]
  have hspan : header.indexSpan = ⟨offset.toNat, file'.length⟩ := by
    rw [ArchiveHeader.indexSpan, ArchiveHeader.indexEnd, hlength, hoffset, hend]
  -- the header is rewritten in place, in front of everything else
  have hwritten : Keeps file' (header.write ++ file'.drop ArchiveHeader.size) file'.length :=
    .header header (by omega)
  have hlisted : ListedIn { archive with header, dirty := false }
      (header.write ++ file'.drop ArchiveHeader.size) := by
    simp only [ListedIn, ArchiveHeader.indexEnd, hlength, hoffset]
    refine ⟨hend ▸ hwritten.le', ?_⟩
    exact hwritten.region_eq_ok hregion (.inl hbehind) (.inl (Nat.le_of_eq hend))
  refine ⟨⟨h.mode_eq, h.encoding_eq, ?_, ⟨List.prefix_append _ _, ?_, ?_, ?_, ?_,
    fun _ _ => hlisted⟩, h.unbuffered⟩, hlisted⟩
  · exact h.laid.refile (hkeeps.trans hwritten hkeeps.le') hbelow
  · rw [hheader]
    exact h.indexed.version
  · rw [hheader]
    exact h.indexed.headerSize
  · rw [hspan]
    exact .inr ⟨hbehind, hwritten.le'⟩
  · intro m hm
    rw [hspan]
    obtain ⟨hname, hdata⟩ := hbelow m hm
    exact ⟨(hname.apart (.inr hlimit)).symm, (hdata.apart (.inr hlimit)).symm⟩

end Intact
end Archive
end NovelScript
