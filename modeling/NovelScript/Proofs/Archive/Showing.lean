import NovelScript.Proofs.Archive.Sparing
import Mathlib.Data.List.Perm.Subperm

/-!
# What the file under an archive shows

A file *shows* an archive if that is what everyone finds who opens the file: all its members are in
the file, in front of the index that lists them (`Archive.Shown`).  An open archive *follows* what
its file shows if each of its members is shown or has been saved behind the index
(`Archive.Follows`).  Steps that spare what the file shows keep both; a flush and a packing make the
file show the archive as it is (`Change.flush_shows`, `Change.compact_shows`).

## Why the index stays in front

An index is written over the old one only where nothing comes behind that.  Then all files are
shown, so none begins behind the old index, and the new index is no longer than the old one.
-/

namespace NovelScript

namespace Archive

variable {archive archive' shown : Archive} {file file' : Bytes} {mode mode' : SaveMode}
  {encoding : Encoding} {catalog : Catalog} {members : List Member}

/-- The names of the files in the order of the index, each with what is read as its contents. -/
def listing (archive : Archive) (file : Bytes) : List (String × Except ArchiveError Bytes) :=
  archive.files.map fun m => (m.name, m.contents file)

/-! ## Listings -/

/-- What is listed are the names with what the catalog has for them. -/
theorem Intact.listing_eq (h : archive.Intact file mode encoding catalog) :
    archive.listing file
      = (archive.files.map (·.name)).map fun name => (name, .ok ((catalog name).getD [])) := by
  rw [listing, List.map_map]
  refine List.map_congr_left fun m hm => ?_
  obtain ⟨hm, hfile⟩ := List.mem_filter.mp hm
  obtain ⟨octets, hcatalog, hcontents⟩ := (h.laid.held m hm).contents (by simpa using hfile)
  simp only [Function.comp_apply, hcontents, hcatalog, Option.getD_some]

/-- Archives of one catalog list the same if they have the same names in order. -/
theorem Intact.listing_congr (h : archive.Intact file mode encoding catalog)
    (h' : archive'.Intact file' mode' encoding catalog)
    (hnames : archive'.files.map (·.name) = archive.files.map (·.name)) :
    archive'.listing file' = archive.listing file := by
  rw [h'.listing_eq, h.listing_eq, hnames]

/-- What is listed depends neither on handles nor on the places of names. -/
theorem listing_of_map_gist_eq
    (h : archive'.files.map Member.gist = archive.files.map Member.gist) :
    archive'.listing file = archive.listing file := by
  have hgist : ∀ a : Archive, a.listing file = (a.files.map Member.gist).map fun c =>
      (c.1, ({ name := c.1, residence := c.2 } : Member).contents file) := by
    intro a
    rw [List.map_map]
    refine List.map_congr_left fun m _ => congrArg (Prod.mk m.name) ?_
    exact Member.contents_of_gist_eq (Member.gist_gist m).symm file
  rw [hgist, hgist, h]

/-! ## Files without what is being made -/

theorem files_files (archive : Archive) : archive.files.filter (!·.isCreated) = archive.files := by
  rw [files, List.filter_filter]
  simp

/-- The files alone have all that the catalog says. -/
theorem Intact.of_files (h : archive.Intact file mode encoding catalog) :
    Intact { archive with members := archive.files } file mode encoding catalog := by
  have hmem : ∀ m ∈ archive.files, m ∈ archive.members := fun m hm => (List.mem_filter.mp hm).1
  refine ⟨h.mode_eq, h.encoding_eq, ⟨?_, ?_, ?_, ?_, ?_, ?_⟩, { h.indexed with
    apart := fun m hm => h.indexed.apart m (hmem m hm)
    listed := ?_ }, fun hmode m hm => h.unbuffered hmode m (hmem m hm)⟩
  · exact h.laid.unique.sublist (List.filter_sublist.map _)
  · exact fun m hm => h.laid.survive m (hmem m hm)
  · exact fun m hm => h.laid.held m (hmem m hm)
  · -- a name that only a file in the making has is not in the catalog either
    intro name hname
    by_cases hmade : ∃ m ∈ archive.members, m.name = name
    · obtain ⟨m, hm, rfl⟩ := hmade
      by_cases hcreated : m.isCreated = true
      · exact (h.laid.held m hm).of_isCreated hcreated
      · exact absurd rfl (hname m (List.mem_filter.mpr ⟨hm, by simpa using hcreated⟩))
    · exact h.laid.absent name fun m hm he => hmade ⟨m, hm, he⟩
  · exact fun m hm m' hm' => h.laid.dataApart m (hmem m hm) m' (hmem m' hm')
  · exact fun m hm m' hm' => h.laid.nameApart m (hmem m hm) m' (hmem m' hm')
  · intro hmode hdirty
    refine (h.indexed.listed hmode hdirty).of_files rfl ?_
    rw [files, files_files]

/-! ## What a file shows -/

/-- The file shows the archive: its index lists just these members, without handles, and all of them
lie in front of it. -/
structure Shown (shown : Archive) (file : Bytes) (encoding : Encoding) (catalog : Catalog) :
    Prop where
  intact : shown.Intact file shown.mode encoding catalog
  listed : shown.ListedIn file
  fresh : ∀ m ∈ shown.members, m.fresh = m
  placed : ∀ m ∈ shown.members, m.residence = .stored m.entry
    ∧ m.entry.dataEnd ≤ shown.header.indexOffset.toNat

namespace Shown

variable (h : shown.Shown file encoding catalog)

include h

theorem files_eq : shown.files = shown.members := by
  refine List.filter_eq_self.mpr fun m hm => ?_
  obtain ⟨hstored, -⟩ := h.placed m hm
  simp [Member.isCreated, hstored]

theorem indexEnd_le : shown.header.indexEnd ≤ file.length := h.listed.1

/-- The index has an entry for each member. -/
theorem length_index :
    shown.header.indexLength.toNat = ArchiveHeader.entrySize * shown.members.length := by
  obtain ⟨-, hregion⟩ := h.listed
  rw [← (region_eq_ok_iff.mp hregion).1, Change.indexOctets, h.files_eq, length_flatMap_entry]

/-- Whoever reads the index finds the members that are shown. -/
theorem readIndex_eq :
    readIndex encoding file = { result := .ok (shown.header, shown.members) } := by
  obtain ⟨hend, hregion⟩ := h.listed
  rw [Change.indexOctets, h.files_eq] at hregion
  have hlocated : Located encoding file shown.members := by
    intro m hm
    obtain ⟨hstored, -⟩ := h.placed m hm
    have hheld := h.intact.laid.held m hm
    rw [Member.Held, hstored] at hheld
    obtain ⟨octets, -, hlocates⟩ := hheld
    exact ⟨h.intact.laid.survive m hm, hstored, octets, hlocates⟩
  have hinside : ∀ m ∈ shown.members, m.entry.dataEnd ≤ file.length := by
    intro m hm
    refine Nat.le_trans (h.placed m hm).2 (Nat.le_trans ?_ hend)
    exact Nat.le_add_right _ _
  have hfresh : shown.members.map Member.fresh = shown.members :=
    (List.map_congr_left h.fresh).trans (List.map_id _)
  rw [readIndex_of_listed h.intact.indexed.header h.intact.indexed.version
    h.intact.indexed.headerSize hend hregion hlocated h.intact.laid.unique hinside, hfresh]

theorem load_eq (path : String) (mode : SaveMode) :
    load path mode encoding file = { result := .ok {
      path, mode, encoding
      header := shown.header
      members := shown.members } } := by
  rw [load, h.readIndex_eq]
  rfl

/-- What is shown is read in every mode. -/
theorem intact_load (path : String) (mode : SaveMode) :
    Intact { path, mode, encoding, header := shown.header, members := shown.members } file mode
      encoding catalog := by
  have hunbuffered : ∀ m ∈ shown.members, ∀ unknown octets,
      m.residence ≠ .buffered unknown octets := by
    intro m hm unknown octets hbuffered
    rw [(h.placed m hm).1] at hbuffered
    cases hbuffered
  have hindexed := h.intact.indexed
  exact ⟨rfl, rfl, h.intact.laid, ⟨hindexed.header, hindexed.version, hindexed.headerSize,
    hindexed.inside, hindexed.apart, fun _ _ => h.listed⟩, fun _ => hunbuffered⟩

/-- What is written behind the end is not shown. -/
theorem append (octets : Bytes) :
    shown.Shown (file ++ octets) encoding catalog
      ∧ shown.listing (file ++ octets) = shown.listing file := by
  have hintact := h.intact.append octets
  exact ⟨{ h with
      intact := hintact
      listed := h.listed.append h.intact.indexed.inside octets },
    h.intact.listing_congr hintact rfl⟩

theorem of_isPrefix (hgrows : file <+: file') :
    shown.Shown file' encoding catalog ∧ shown.listing file' = shown.listing file := by
  obtain ⟨octets, rfl⟩ := hgrows
  exact h.append octets

end Shown

/-! ## Archives over what their file shows -/

/-- Each member of the archive is shown by the file or has been saved behind the index, and without
changes the archive has the files that are shown. -/
structure Follows (archive shown : Archive) (file : Bytes) : Prop where
  header_eq : archive.header = shown.header
  placed : ∀ m ∈ archive.members, (∃ o ∈ shown.members, o.gist = m.gist)
    ∨ ∀ entry, m.residence = .stored entry →
      shown.header.indexEnd < entry.dataOffset.toNat ∧ entry.dataEnd ≤ file.length
  clean : archive.dirty = false → archive.files.map Member.gist = shown.members.map Member.gist

theorem Follows.of_spares (h : archive.Follows shown file)
    (hend : shown.header.indexEnd ≤ file.length) (hspares : archive.Spares file archive' file') :
    archive'.Follows shown file' where
  header_eq := hspares.header_eq.trans h.header_eq
  placed m hm := by
    have hle := hspares.grows.length_le
    rcases hspares.placed m hm with ⟨o, ho, hgist⟩ | hbehind
    · rcases h.placed o ho with ⟨o', ho', hgist'⟩ | hbehind
      · exact .inl ⟨o', ho', hgist'.trans hgist⟩
      · refine .inr fun entry hentry => ?_
        obtain ⟨entry', hentry', hoffset, hlength⟩ := Member.stored_of_gist_eq hgist.symm hentry
        obtain ⟨hstart, hstop⟩ := hbehind entry' hentry'
        rw [IndexEntry.dataEnd, hoffset, hlength] at hstop
        exact ⟨hoffset ▸ hstart, Nat.le_trans hstop hle⟩
    · refine .inr fun entry hentry => ?_
      obtain ⟨hstart, hstop⟩ := hbehind entry hentry
      exact ⟨Nat.lt_of_le_of_lt hend hstart, hstop⟩
  clean hclean := by
    obtain ⟨hclean, hfiles⟩ := hspares.clean hclean
    exact hfiles.trans (h.clean hclean)

/-- Without changes, an archive has what its file shows. -/
theorem Follows.listing_eq (h : archive.Follows shown file)
    (hshown : shown.Shown file encoding catalog) (hclean : archive.dirty = false) :
    archive.listing file = shown.listing file := by
  refine listing_of_map_gist_eq ?_
  rw [h.clean hclean, hshown.files_eq]

/-- An archive as it is read follows what it was read from. -/
theorem Shown.follows_load (h : shown.Shown file encoding catalog) (path : String)
    (mode : SaveMode) :
    Follows { path, mode, encoding, header := shown.header, members := shown.members } shown
      file where
  header_eq := rfl
  placed m hm := .inl ⟨m, hm, rfl⟩
  clean _ := congrArg (List.map Member.gist) h.files_eq

/-- The file shows an archive whose files are all in the file, in front of the index that lists
them. -/
theorem Intact.exists_shown (h : archive.Intact file mode encoding catalog)
    (hlisted : archive.ListedIn file)
    (hplaced : ∀ m ∈ archive.files, m.residence = .stored m.entry
      ∧ m.entry.dataEnd ≤ archive.header.indexOffset.toNat) :
    ∃ shown : Archive, shown.Shown file encoding catalog ∧ archive.Follows shown file
      ∧ shown.listing file = archive.listing file := by
  have hcore : (archive.files.map Member.fresh).map Member.core
      = archive.files.map Member.core := by
    rw [List.map_map]
    rfl
  have hgist := Member.map_gist_of_map_core_eq hcore
  have hintact := h.of_files.of_map_core_eq hcore
  have hshown : Shown { archive with members := archive.files.map Member.fresh } file encoding
      catalog := by
    have hfiles := Member.map_core_files hcore
    rw [files_files] at hfiles
    refine ⟨?_, hlisted.of_files rfl (Member.flatMap_entry_of_map_core_eq hfiles), ?_, ?_⟩
    · exact ⟨rfl, hintact.encoding_eq, hintact.laid, hintact.indexed, h.mode_eq ▸
        hintact.unbuffered⟩
    · intro m hm
      obtain ⟨o, -, rfl⟩ := List.mem_map.mp hm
      rfl
    · intro m hm
      obtain ⟨o, ho, rfl⟩ := List.mem_map.mp hm
      exact hplaced o ho
  refine ⟨_, hshown, ⟨rfl, fun m hm => ?_, fun _ => hgist.symm⟩, ?_⟩
  · by_cases hcreated : m.isCreated = true
    · refine .inr fun entry hentry => ?_
      simp [Member.isCreated, hentry] at hcreated
    · refine .inl ⟨m.fresh, List.mem_map_of_mem ?_, rfl⟩
      exact List.mem_filter.mpr ⟨hm, by simpa using hcreated⟩
  · refine listing_of_map_gist_eq ?_
    rw [hshown.files_eq, hgist]

/-- Files that are all shown are no more than what is shown. -/
theorem length_files_le (hunique : (archive.members.map (·.name)).Nodup)
    (hshown : ∀ m ∈ archive.files, ∃ o ∈ shown.members, o.gist = m.gist) :
    archive.files.length ≤ shown.members.length := by
  have hnodup : (archive.files.map (·.name)).Nodup :=
    hunique.sublist (List.filter_sublist.map _)
  have hsubset : archive.files.map (·.name) ⊆ shown.members.map (·.name) := by
    intro name hname
    obtain ⟨m, hm, rfl⟩ := List.mem_map.mp hname
    obtain ⟨o, ho, hgist⟩ := hshown m hm
    exact List.mem_map.mpr ⟨o, ho, Member.name_of_gist_eq hgist⟩
  simpa using (hnodup.subperm hsubset).length_le

end Archive

/-! ## Making the file show the archive -/

namespace Change

variable {mode : SaveMode} {encoding : Encoding} {catalog catalog' : Catalog}
  {store store' : Store} {shown : Archive}

/-- The file shows what the archive had, and the archive goes on from there. -/
structure Saved (encoding : Encoding) (store store' : Store) : Prop where
  fits : Fits store'.file
  shown : ∃ (shown : Archive) (catalog : Catalog), shown.Shown store'.file encoding catalog
    ∧ store'.archive.Follows shown store'.file
    ∧ shown.listing store'.file = store.archive.listing store.file

/-- The step has left file and archive alone. -/
def Untouched (store store' : Store) : Prop :=
  store'.file = store.file ∧ store'.archive = store.archive

/-- Without changes, the file shows what the archive has. -/
theorem saved_self (hshown : shown.Shown store.file encoding catalog)
    (hfollows : store.archive.Follows shown store.file) (hfits : Fits store.file)
    (hclean : store.archive.dirty = false) : Saved encoding store store :=
  ⟨hfits, shown, catalog, hshown, hfollows, (hfollows.listing_eq hshown hclean).symm⟩

section

variable (h : store.archive.Intact store.file mode encoding catalog)
  (hshown : shown.Shown store.file encoding catalog')
  (hfollows : store.archive.Follows shown store.file)

include h hshown hfollows

/-- The index is written behind the contents of every file. -/
theorem placeIndex_front (hmode : mode ≠ .explicit) :
    Ends (placeIndex (indexOctets store.archive)) store
      (fun offset store' => (∀ m ∈ store.archive.files, m.entry.dataEnd ≤ offset.toNat)
        ∧ (Fits store.file → Fits store'.file))
      fun _ store' => store' = store := by
  have hend := hshown.indexEnd_le
  have hstored : ∀ m ∈ store.archive.files, m.residence = .stored m.entry :=
    fun m hm => (h.located hmode m hm).2.1
  have hentry : ∀ m ∈ store.archive.files, ∀ o ∈ shown.members, o.gist = m.gist →
      m.entry.dataEnd ≤ shown.header.indexOffset.toNat := by
    intro m hm o ho hgist
    obtain ⟨entry, hentry, hoffset, hlength⟩ :=
      Member.stored_of_gist_eq hgist.symm (hstored m hm)
    obtain ⟨hplaced, hfront⟩ := hshown.placed o ho
    obtain rfl := Residence.stored.inj (hplaced.symm.trans hentry)
    rwa [IndexEntry.dataEnd, hoffset, hlength] at hfront
  simp only [placeIndex, ends_bind, ends_get]
  rw [hfollows.header_eq]
  split
  · next hlast =>
    obtain ⟨hpos, hlast⟩ := hlast
    simp only [setFile, ends_bind, ends_modify, ends_pure]
    -- the old index comes last, so nothing has been saved behind it
    have hall : ∀ m ∈ store.archive.files, ∃ o ∈ shown.members, o.gist = m.gist := by
      intro m hm
      refine (hfollows.placed m (List.mem_filter.mp hm).1).resolve_right fun hbehind => ?_
      obtain ⟨hstart, hstop⟩ := hbehind m.entry (hstored m hm)
      rw [IndexEntry.dataEnd] at hstop
      omega
    refine ⟨fun m hm => ?_, fun hfits => ?_⟩
    · obtain ⟨o, ho, hgist⟩ := hall m hm
      exact hentry m hm o ho hgist
    · have hlength := hshown.length_index
      have hle := Archive.length_files_le h.laid.unique hall
      have hindex : (indexOctets store.archive).length
          = ArchiveHeader.entrySize * store.archive.files.length :=
        Archive.length_flatMap_entry _
      have hmul := Nat.mul_le_mul_left ArchiveHeader.entrySize hle
      simp only [Fits, List.length_append, List.length_take, hindex] at hfits ⊢
      rw [ArchiveHeader.indexEnd] at hlast
      omega
  · refine (append_spec _ store).imp ?_
    rintro offset _ ⟨hoffset, hsize, rfl⟩
    refine ⟨fun m hm => ?_, fun _ => ?_⟩
    · rw [hoffset]
      rcases hfollows.placed m (List.mem_filter.mp hm).1 with ⟨o, ho, hgist⟩ | hbehind
      · have hle := hentry m hm o ho hgist
        rw [ArchiveHeader.indexEnd] at hend
        omega
      · exact (hbehind m.entry (hstored m hm)).2
    · rwa [Fits, List.length_append]

theorem writeIndex_front (hmode : mode ≠ .explicit) :
    Ends writeIndex store
      (fun _ store' => (∀ m ∈ store.archive.files,
          m.entry.dataEnd ≤ store'.archive.header.indexOffset.toNat)
        ∧ (Fits store.file → Fits store'.file))
      fun _ store' => store' = store := by
  simp only [writeIndex, ends_bind, ends_get, update, ends_modify, setFile]
  refine (placeIndex_front h hshown hfollows hmode).imp ?_
  rintro offset store' ⟨hfront, hsmall⟩
  refine ⟨hfront, fun hfits => ?_⟩
  have hlt := hsmall hfits
  simp only [Fits, List.length_append, ArchiveHeader.length_write, List.length_drop] at hlt ⊢
  have hsize : ArchiveHeader.size < UInt32.size := by decide
  omega

/-- Once the index is written, the file shows the archive. -/
theorem writeIndex_saves (hmode : mode ≠ .explicit) (hfits : Fits store.file) :
    Ends (writeIndex >>= fun _ => update fun archive => { archive with dirty := false }) store
      (fun _ => Saved encoding store) fun _ => Untouched store := by
  simp only [ends_bind, update, ends_modify]
  refine ((writeIndex_spec h).and (writeIndex_front h hshown hfollows hmode)).mono ?_ ?_
  · rintro _ store' ⟨hwritten, hfront, hsmall⟩
    obtain ⟨hintact, hlisted, hmembers⟩ := hwritten (hsmall hfits)
    have hfiles : store'.archive.files = store.archive.files := by
      rw [Archive.files, hmembers]
      rfl
    have hplaced : ∀ m ∈ store'.archive.files, m.residence = .stored m.entry
        ∧ m.entry.dataEnd ≤ store'.archive.header.indexOffset.toNat := by
      rw [hfiles]
      exact fun m hm => ⟨(h.located hmode m hm).2.1, hfront m hm⟩
    obtain ⟨shown', hshown', hfollows', hlisting⟩ := hintact.exists_shown hlisted hplaced
    refine ⟨hsmall hfits, shown', catalog, hshown', hfollows', hlisting.trans ?_⟩
    exact h.listing_congr hintact (congrArg (List.map (·.name)) hfiles)
  · rintro _ _ ⟨rfl, -⟩
    exact ⟨rfl, rfl⟩

end

/-- Packed, the file shows the archive. -/
theorem repack_saves (h : store.archive.Intact store.file mode encoding catalog) :
    Ends repack store (fun _ store' => Fits store'.file → Saved encoding store store')
      fun _ store' => Fits store'.file → Untouched store store' := by
  refine ((repack_spec h).and (repack_image h.named)).mono ?_ fun _ _ hfailed => hfailed.2
  rintro _ store' ⟨⟨hleaves, -, hlisted⟩, -, hpacked⟩ hfits
  have hintact := (hleaves hfits).intact
  obtain ⟨labelled, hnames, hlabelled, hfile, harchive⟩ := hpacked hfits
  have hstored : ∀ p ∈ labelled, storedName encoding p.1 = .ok p.2.name :=
    fun p hp => (hlabelled p hp).1
  have hplaced : ∀ m ∈ store'.archive.files, m.residence = .stored m.entry
      ∧ m.entry.dataEnd ≤ store'.archive.header.indexOffset.toNat := by
    rw [harchive]
    exact Archive.placed_of_handOver hstored (hfile ▸ hfits)
  have hfiles : store'.archive.files.map (·.name) = store.archive.files.map (·.name) := by
    rw [harchive, Archive.files, Member.map_name_of_map_core_eq map_core_files_handOver,
      Packing.map_name_members, hnames]
  obtain ⟨shown, hshown, hfollows, hlisting⟩ := hintact.exists_shown (hlisted hfits).1 hplaced
  exact ⟨hfits, shown, catalog, hshown, hfollows, hlisting.trans (h.listing_congr hintact hfiles)⟩

variable (h : store.archive.Intact store.file mode encoding catalog)
  (hshown : shown.Shown store.file encoding catalog')
  (hfollows : store.archive.Follows shown store.file) (hfits : Fits store.file)

include h hshown hfollows hfits

/-- Once a flush succeeds, the file shows the archive; one that fails leaves all as it was. -/
theorem flush_saves (hmode : mode = .explicit ∨ mode = .immediate) :
    Ends flush store
      (fun _ store' => (mode = .explicit → Fits store'.file) → Saved encoding store store')
      fun _ store' => (mode = .explicit → Fits store'.file) → Untouched store store' := by
  simp only [flush, ends_bind, ends_get]
  rw [h.mode_eq]
  split
  · rcases hmode with rfl | rfl
    · refine (repack_saves h).mono ?_ ?_
      · exact fun _ _ hsaved hsmall => hsaved (hsmall rfl)
      · exact fun _ _ hfailed hsmall => hfailed (hsmall rfl)
    · refine (writeIndex_saves h hshown hfollows (by decide) hfits).mono ?_ ?_
      · exact fun _ _ hsaved _ => hsaved
      · exact fun _ _ hfailed _ => hfailed
  · next hclean =>
    exact fun _ => saved_self hshown hfollows hfits (by simpa using hclean)

theorem compact_saves (hmode : mode = .explicit ∨ mode = .immediate) :
    Ends compact store
      (fun _ store' => (mode = .explicit → Fits store'.file) → Saved encoding store store')
      fun _ store' => (mode = .explicit → Fits store'.file) → Untouched store store' := by
  simp only [compact, checkWritable, ends_bind, ends_get]
  rw [h.mode_eq]
  rcases hmode with rfl | rfl
  · rw [if_neg (by decide), ends_pure, h.mode_eq, if_neg (by decide)]
    refine (repack_saves h).mono ?_ ?_
    · exact fun _ _ hsaved hsmall => hsaved (hsmall rfl)
    · exact fun _ _ hfailed hsmall => hfailed (hsmall rfl)
  · -- packing would take away the room of files that are gone, so it is only a flush
    rw [if_neg (by decide), ends_pure, h.mode_eq, if_pos rfl]
    simp only [warn, ends_bind, ends_modify]
    have hflush : Ends flush
        { store with warnings := store.warnings ++ [.compactionUnavailable] } _ _ :=
      flush_saves h hshown hfollows hfits (.inr rfl)
    refine hflush.mono ?_ ?_
    · exact fun _ _ hsaved hsmall => ⟨(hsaved hsmall).fits, (hsaved hsmall).shown⟩
    · exact fun _ _ hfailed hsmall => hfailed hsmall

end Change
end NovelScript
