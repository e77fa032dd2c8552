import NovelScript.Proofs.Archive.Saving

/-!
# What the steps of an archive do to its files

Each step of an open archive has one lemma, named for the step, which says what becomes of the
catalog and which names are being written afterwards.  A step that fails leaves the catalog as it
was.
-/

namespace NovelScript

namespace Archive

variable {archive : Archive} {members : List Member} {name other : String} {f : Member → Member}

/-- A change that starts no writing leaves at most the old names being written. -/
theorem Writes.of_change
    (h : Writes { archive with members := Member.change name f archive.members } other)
    (hname : ∀ m, (f m).name = m.name) (hwriter : ∀ m, (f m).writer = true → m.writer = true) :
    archive.Writes other := by
  obtain ⟨m', hm', rfl, hwrites⟩ := h
  rcases Member.mem_of_mem_change hm' with hm | ⟨m, hm, -, rfl⟩
  · exact ⟨m', hm, rfl, hwrites⟩
  · exact ⟨m, hm, (hname m).symm, hwriter m hwrites⟩

/-- A member that is given back is not being written any more. -/
theorem Writes.of_release
    (h : Writes { archive with
      members := Member.change name (fun m => { m with writer := false }) archive.members } other)
    (hunique : (archive.members.map (·.name)).Nodup) : archive.Writes other ∧ other ≠ name := by
  obtain ⟨m', hm', rfl, hwrites⟩ := h
  rcases (Member.mem_change_iff hunique).mp hm' with ⟨hm, hne⟩ | ⟨m, -, -, rfl⟩
  · exact ⟨⟨m', hm, rfl, hwrites⟩, hne⟩
  · cases hwrites

/-- A member that is taken out is not being written any more. -/
theorem Writes.of_eraseP
    (h : Writes { archive with members := archive.members.eraseP (·.name == name) } other)
    (hunique : (archive.members.map (·.name)).Nodup) : archive.Writes other ∧ other ≠ name := by
  obtain ⟨m, hm, rfl, hwrites⟩ := h
  obtain ⟨hm, hne⟩ := (Member.mem_eraseP_iff hunique).mp hm
  exact ⟨⟨m, hm, rfl, hwrites⟩, hne⟩

/-- A member that is to be written is the only one that is being written anew. -/
theorem Writes.of_claim
    (h : Writes { archive with
      members := Member.change name (fun m => { m with writer := true }) archive.members } other) :
    archive.Writes other ∨ other = name := by
  obtain ⟨m', hm', rfl, hwrites⟩ := h
  rcases Member.mem_of_mem_change hm' with hm | ⟨m, -, hname, rfl⟩
  · exact .inl ⟨m', hm, rfl, hwrites⟩
  · exact .inr hname

/-- Where a name stands has nothing to do with whether it is being written. -/
theorem Writes.of_map_bearing {archive' : Archive} (h : archive'.Writes name)
    (hbearing : archive'.members.map Member.bearing = archive.members.map Member.bearing) :
    archive.Writes name := by
  obtain ⟨m', hm', hname, hwrites⟩ := h
  obtain ⟨m, hm, heq⟩ := Member.exists_of_map_eq hbearing hm'
  simp only [Member.bearing, Prod.mk.injEq] at heq
  exact ⟨m, hm, heq.1.trans hname, heq.2.2.2.trans hwrites⟩

/-- The names of an archive are read back as they are, and tell its members apart. -/
structure Named (archive : Archive) (encoding : Encoding) : Prop where
  encoding_eq : archive.encoding = encoding
  unique : (archive.members.map (·.name)).Nodup
  survive : ∀ m ∈ archive.members, encoding.Survives m.name

theorem Intact.named {file : Bytes} {mode : SaveMode} {encoding : Encoding} {catalog : Catalog}
    (h : archive.Intact file mode encoding catalog) : archive.Named encoding :=
  ⟨h.encoding_eq, h.laid.unique, h.laid.survive⟩

/-- The files of an archive are found under the names of the catalog. -/
theorem Intact.file?_eq_none_iff {file : Bytes} {mode : SaveMode} {encoding : Encoding}
    {catalog : Catalog} (h : archive.Intact file mode encoding catalog) :
    archive.file? name = none ↔ catalog name = none := by
  unfold file? find?
  cases hfind : archive.members.find? (·.name == name) with
  | none => simpa using h.laid.absent name (Member.find?_eq_none_iff.mp hfind)
  | some m =>
    obtain ⟨hmem, rfl⟩ := Member.find?_eq_some hfind
    have hheld := h.laid.held m hmem
    cases hcreated : m.isCreated with
    | true => simp [Option.filter, hcreated, hheld.of_isCreated hcreated]
    | false =>
      obtain ⟨octets, hcatalog, -⟩ := hheld.contents hcreated
      simp [Option.filter, hcreated, hcatalog]

theorem file?_eq_some {m : Member} (h : archive.file? name = some m) :
    m ∈ archive.members ∧ m.name = name ∧ m.isCreated = false := by
  unfold file? at h
  obtain ⟨hfind, hcreated⟩ := Option.filter_eq_some_iff.mp h
  obtain ⟨hm, hname⟩ := Member.find?_eq_some hfind
  exact ⟨hm, hname, by simpa using hcreated⟩

theorem file?_of_mem {m : Member} (hunique : (archive.members.map (·.name)).Nodup)
    (hm : m ∈ archive.members) (hcreated : m.isCreated = false) :
    archive.file? m.name = some m := by
  rw [file?, find?, Member.find?_of_mem hunique hm]
  exact Option.filter_eq_some_iff.mpr ⟨rfl, by rw [hcreated]; rfl⟩

/-- A file has the contents that the catalog has for its name. -/
theorem Intact.contents {file : Bytes} {mode : SaveMode} {encoding : Encoding}
    {catalog : Catalog} {m : Member} (h : archive.Intact file mode encoding catalog)
    (hm : archive.file? name = some m) :
    ∃ octets, catalog name = some octets ∧ m.contents file = .ok octets := by
  obtain ⟨hmem, rfl, hcreated⟩ := file?_eq_some hm
  exact (h.laid.held m hmem).contents hcreated

end Archive

namespace Change

variable {mode : SaveMode} {encoding : Encoding} {catalog : Catalog} {store : Store}
  {octets : Bytes} {name : String}

/-- The store has the files of the catalog, and only these names are being written. -/
structure Leaves (mode : SaveMode) (encoding : Encoding) (catalog : Catalog)
    (writing : String → Prop) (store : Store) : Prop where
  intact : store.archive.Intact store.file mode encoding catalog
  writes : ∀ name, store.archive.Writes name → writing name

/-- Like `Leaves`, where the file may have become too large. -/
def LeavesIfFits (mode : SaveMode) (encoding : Encoding) (catalog : Catalog)
    (writing : String → Prop) (store : Store) : Prop :=
  Fits store.file → Leaves mode encoding catalog writing store

theorem leaves_self (h : store.archive.Intact store.file mode encoding catalog) :
    Leaves mode encoding catalog store.archive.Writes store := ⟨h, fun _ => id⟩

theorem Leaves.imp {writing writing' : String → Prop}
    (h : Leaves mode encoding catalog writing store) (himp : ∀ name, writing name → writing' name) :
    Leaves mode encoding catalog writing' store :=
  ⟨h.intact, fun name hname => himp name (h.writes name hname)⟩

variable (h : store.archive.Intact store.file mode encoding catalog)

include h

/-! ## Handles -/

theorem openFile_spec (name : String) :
    Ends (openFile name) store
      (fun answer store' => store'.file = store.file
        ∧ Leaves mode encoding catalog store.archive.Writes store'
        ∧ match answer with
          | none => store.archive.Writes name
          | some contents => catalog name = some contents)
      fun e store' => store' = store ∧ e = .notFound name ∧ catalog name = none := by
  simp only [openFile, expectFile, ends_bind, ends_get]
  cases hfile : store.archive.file? name with
  | none => exact ⟨rfl, rfl, h.file?_eq_none_iff.mp hfile⟩
  | some m =>
    obtain ⟨octets, hcatalog, hcontents⟩ := h.contents hfile
    obtain ⟨hm, hname, -⟩ := Archive.file?_eq_some hfile
    simp only [ends_pure]
    split
    · next hwriter => exact ⟨rfl, leaves_self h, m, hm, hname, hwriter⟩
    · simp only [ends_bind, ends_get, of, ends_mk, updateMember, update, ends_modify, ends_pure]
      rw [hcontents]
      -- a handle for reading is no handle for writing
      refine ⟨fun contents hok => ⟨trivial, ⟨?_, ?_⟩, ?_⟩, fun e he => by cases he⟩
      · exact h.of_map_core_eq (Member.map_core_change fun _ => rfl)
      · exact fun other hwrites => hwrites.of_change (fun _ => rfl) fun _ => id
      · exact Except.ok.inj hok ▸ hcatalog

theorem openFileMut_spec (name : String) :
    Ends (openFileMut name) store
      (fun answer store' => match answer with
        | none => store' = store
        | some contents => store'.file = store.file ∧ catalog name = some contents
          ∧ Leaves mode encoding catalog (fun other => store.archive.Writes other ∨ other = name)
            store')
      fun _ store' => store' = store := by
  simp only [openFileMut, checkWritable, expectFile, ends_bind, ends_get]
  split
  · rfl
  simp only [ends_pure]
  cases hfile : store.archive.file? name with
  | none => rfl
  | some m =>
    obtain ⟨octets, hcatalog, hcontents⟩ := h.contents hfile
    simp only [ends_pure]
    split
    · rfl
    · simp only [ends_bind, ends_get, of, ends_mk, updateMember, update, ends_modify, ends_pure]
      rw [hcontents]
      refine ⟨fun contents hok => ⟨trivial, ?_, ⟨?_, ?_⟩⟩, fun e he => by cases he⟩
      · exact Except.ok.inj hok ▸ hcatalog
      · exact h.of_map_core_eq (Member.map_core_change fun _ => rfl)
      · exact fun other hwrites => hwrites.of_claim

theorem createFile_spec (hsurvives : encoding.Survives name) :
    Ends (createFile name) store
      (fun answer store' => match answer with
        | false => store' = store
        | true => store'.file = store.file
          ∧ Leaves mode encoding catalog (fun other => store.archive.Writes other ∨ other = name)
            store')
      fun _ store' => store' = store := by
  simp only [createFile, checkWritable, ends_bind, ends_get]
  split
  · rfl
  simp only [ends_pure]
  cases hfind : store.archive.find? name with
  | some m =>
    dsimp only
    split
    · rfl
    · simp only [updateMember, update, ends_bind, ends_modify, ends_pure]
      refine ⟨trivial, ?_, fun other hwrites => hwrites.of_claim⟩
      exact h.of_map_core_eq (Member.map_core_change fun _ => rfl)
  | none =>
    simp only [update, ends_bind, ends_modify, ends_pure]
    refine ⟨trivial, ?_, ?_⟩
    · exact h.concat rfl (Member.find?_eq_none_iff.mp hfind) hsurvives
    · rintro other ⟨m, hm, hname, hwrites⟩
      rcases List.mem_append.mp hm with hm | hm
      · exact .inl ⟨m, hm, hname, hwrites⟩
      · obtain rfl := List.mem_singleton.mp hm
        exact .inr hname.symm

theorem releaseReader_spec (name : String) :
    Ends (releaseReader name) store
      (fun _ store' => store'.file = store.file
        ∧ Leaves mode encoding catalog store.archive.Writes store') noFailure := by
  simp only [releaseReader, updateMember, update, ends_modify]
  refine ⟨trivial, ?_, fun other hwrites => hwrites.of_change (fun _ => rfl) fun _ => id⟩
  exact h.of_map_core_eq (Member.map_core_change fun _ => rfl)

theorem discardWriter_spec (name : String) :
    Ends (discardWriter name) store
      (fun _ store' => store'.file = store.file
        ∧ Leaves mode encoding catalog (fun other => store.archive.Writes other ∧ other ≠ name)
          store') noFailure := by
  simp only [discardWriter, warn, ends_bind, ends_modify, ends_get]
  cases hfind : store.archive.find? name with
  | none =>
    refine ⟨rfl, h, ?_⟩
    rintro other ⟨m, hm, rfl, hwrites⟩
    exact ⟨⟨m, hm, rfl, hwrites⟩, Member.find?_eq_none_iff.mp hfind m hm⟩
  | some m =>
    obtain ⟨hm, rfl⟩ := Member.find?_eq_some hfind
    -- a file that was only being made is forgotten, any other keeps its contents
    dsimp only
    split
    · next hcreated =>
      simp only [forget, update, ends_modify]
      exact ⟨trivial, h.forget hm hcreated, fun _ hwrites => hwrites.of_eraseP h.laid.unique⟩
    · simp only [updateMember, update, ends_modify]
      refine ⟨trivial, ?_, fun _ hwrites => hwrites.of_release h.laid.unique⟩
      exact h.of_map_core_eq (Member.map_core_change fun _ => rfl)

/-! ## Saving -/

/-- Closing a handle saves its contents, and gives it back even if that fails. -/
theorem commit_spec (name : String) (octets : Bytes) :
    Ends (commit name octets) store
      (fun _ => LeavesIfFits mode encoding (catalog.put name octets)
        fun other => store.archive.Writes other ∧ other ≠ name)
      fun _ => LeavesIfFits mode encoding catalog
        fun other => store.archive.Writes other ∧ other ≠ name := by
  simp only [commit, ends_bind, ends_get]
  cases hfind : store.archive.find? name with
  | none =>
    refine fun _ => ⟨h, ?_⟩
    rintro other ⟨m, hm, rfl, hwrites⟩
    exact ⟨⟨m, hm, rfl, hwrites⟩, Member.find?_eq_none_iff.mp hfind m hm⟩
  | some member =>
    obtain ⟨hmember, rfl⟩ := Member.find?_eq_some hfind
    simp only [updateMember, update, ends_bind, ends_modify, ends_tryCatch, forget]
    -- The handle is given back before anything is saved.
    generalize hreleased : Member.change member.name (fun m => { m with writer := false })
      store.archive.members = released
    have hcore : released.map Member.core = store.archive.members.map Member.core :=
      hreleased ▸ Member.map_core_change fun _ => rfl
    have hintact := h.of_map_core_eq hcore
    have hwrites : ∀ other, Archive.Writes { store.archive with members := released } other →
        store.archive.Writes other ∧ other ≠ member.name := by
      intro other hwrites
      rw [← hreleased] at hwrites
      exact hwrites.of_release h.laid.unique
    have hm : { member with writer := false } ∈ released := by
      rw [← hreleased]
      exact (Member.mem_change_iff h.laid.unique).mpr (.inr ⟨member, hmember, rfl, rfl⟩)
    have hsave : Ends (save member octets)
        { store with archive := { store.archive with members := released } } _ _ :=
      save_spec hintact hm rfl
    refine hsave.mono ?_ ?_
    · rintro residence store₁ ⟨hrelisted, hsaved⟩ hfits
      have hsame := hrelisted.saved_eq residence
      refine ⟨hsame ▸ hsaved hfits, fun other hother => ?_⟩
      have hother : Archive.Writes _ other := hother
      rw [hsame] at hother
      exact hwrites other (Archive.Writes.of_change hother (fun _ => rfl) fun _ => id)
    · rintro e store₁ ⟨hrelisted, hretained⟩
      have hbearing := hrelisted.map_bearing
      have hwrites₁ : ∀ other, store₁.archive.Writes other →
          store.archive.Writes other ∧ other ≠ member.name :=
        fun other hother => hwrites other (hother.of_map_bearing hbearing)
      split
      · next hcreated =>
        obtain ⟨o, ho, heq⟩ := Member.exists_of_map_eq hbearing.symm hm
        simp only [Member.bearing, Prod.mk.injEq] at heq
        have hforgotten := hretained.forget ho (heq.2.1.trans hcreated)
        rw [heq.1] at hforgotten
        exact fun _ => ⟨hforgotten,
          fun other hother => hwrites₁ other (hother.of_eraseP hretained.laid.unique).1⟩
      · exact fun _ => ⟨hretained, hwrites₁⟩

theorem writeAll_spec (hsurvives : encoding.Survives name) (octets : Bytes) :
    Ends (writeAll name octets) store
      (fun answer => LeavesIfFits mode encoding
        (if answer then catalog.put name octets else catalog) store.archive.Writes)
      fun _ => LeavesIfFits mode encoding catalog store.archive.Writes := by
  simp only [writeAll, ends_bind]
  refine (createFile_spec h hsurvives).mono ?_ ?_
  · rintro (_ | _) store₁ hstore₁
    · obtain rfl := hstore₁
      exact fun _ => leaves_self h
    · obtain ⟨-, hleaves⟩ := hstore₁
      -- making the file takes a handle on it, which the commit gives back
      have hwriting : ∀ other, store₁.archive.Writes other ∧ other ≠ name →
          store.archive.Writes other :=
        fun other hother => (hleaves.writes other hother.1).resolve_right hother.2
      rw [if_pos rfl, ends_bind]
      refine (commit_spec hleaves.intact name octets).mono ?_ ?_
      · exact fun _ _ hcommit hfits => (hcommit hfits).imp hwriting
      · exact fun _ _ hcommit hfits => (hcommit hfits).imp hwriting
  · rintro e _ rfl
    exact fun _ => leaves_self h

theorem deleteFile_spec (name : String) :
    Ends (deleteFile name) store
      (fun answer => Leaves mode encoding (if answer then catalog.remove name else catalog)
        store.archive.Writes)
      fun _ => Leaves mode encoding catalog store.archive.Writes := by
  simp only [deleteFile, checkWritable, ends_bind, ends_get]
  split
  · exact leaves_self h
  simp only [ends_pure]
  cases hfind : store.archive.find? name with
  | none => exact leaves_self h
  | some m =>
    dsimp only
    split
    · exact leaves_self h
    · simp only [forget, update, ends_bind, ends_modify, ends_pure]
      exact ⟨h.delete name, fun other hother => (hother.of_eraseP h.laid.unique).1⟩

/-! ## Making the file show the changes -/

/-- The index is written behind all members, over the old index if that comes last. -/
theorem placeIndex_spec (index : Bytes) :
    Ends (placeIndex index) store
      (fun offset store' => ∃ file limit, store' = { store with file } ∧ Keeps store.file file limit
        ∧ (∀ m ∈ store.archive.members, m.nameSpan.Below limit ∧ m.dataSpan.Below limit)
        ∧ region file offset.toNat index.length = .ok index
        ∧ limit ≤ offset.toNat ∧ ArchiveHeader.size ≤ offset.toNat
        ∧ offset.toNat + index.length = file.length)
      fun _ store' => store' = store := by
  simp only [placeIndex, ends_bind, ends_get]
  split
  · next hlast =>
    obtain ⟨hpos, hlast⟩ := hlast
    simp only [setFile, ends_bind, ends_modify, ends_pure]
    -- the old index comes last, so every member is below it and the cut takes the index alone
    have hnonempty : store.archive.header.indexSpan.start < store.archive.header.indexSpan.stop :=
      Nat.lt_add_of_pos_right (UInt32.lt_iff_toNat_lt.mp hpos)
    have hinside := h.indexed.inside
    have hend : store.archive.header.indexSpan.stop = store.file.length := hlast
    simp only [Span.Inside] at hinside
    have hsize : ArchiveHeader.size ≤ store.archive.header.indexOffset.toNat := by
      show ArchiveHeader.size ≤ store.archive.header.indexSpan.start
      omega
    have hlimit : store.archive.header.indexOffset.toNat ≤ store.file.length := by
      show store.archive.header.indexSpan.start ≤ _
      omega
    have hlength : (store.file.take store.archive.header.indexOffset.toNat).length
        = store.archive.header.indexOffset.toNat := by
      rw [List.length_take, Nat.min_eq_left hlimit]
    refine ⟨_, store.archive.header.indexOffset.toNat, rfl, .take_append index hlimit, ?_,
      region_append _ hlength.symm rfl, Nat.le_refl _, hsize, ?_⟩
    · intro m hm
      obtain ⟨hname, hdata⟩ := h.indexed.apart m hm
      obtain ⟨hnameInside, hdataInside⟩ := (h.laid.held m hm).inside
      exact ⟨hname.symm.below_of_last hnameInside hnonempty hend,
        hdata.symm.below_of_last hdataInside hnonempty hend⟩
    · rw [List.length_append, hlength]
  · refine (append_spec index store).imp ?_
    rintro offset _ ⟨hoffset, -, rfl⟩
    have hsize := h.size_le
    refine ⟨_, store.file.length, rfl, .append store.file index, h.laid.below,
      region_append _ hoffset rfl, ?_, ?_, ?_⟩
    · exact Nat.le_of_eq hoffset.symm
    · rwa [hoffset]
    · rw [hoffset, List.length_append]

theorem writeIndex_spec :
    Ends writeIndex store
      (fun _ store' => Fits store'.file →
        Archive.Intact { store'.archive with dirty := false } store'.file mode encoding catalog
          ∧ Archive.ListedIn { store'.archive with dirty := false } store'.file
          ∧ store'.archive.members = store.archive.members)
      fun _ store' => store' = store := by
  simp only [writeIndex, ends_bind, ends_get, update, ends_modify, setFile]
  refine (placeIndex_spec h _).imp ?_
  rintro offset _ ⟨file, limit, rfl, hkeeps, hbelow, hregion, hlimit, hsize, hend⟩ hfits
  have hsmall : file.length < UInt32.size := by
    simp only [Fits, List.length_append, ArchiveHeader.length_write, List.length_drop] at hfits
    omega
  obtain ⟨hintact, hlisted⟩ := h.reindex hkeeps hbelow hregion hlimit hsize hend hsmall rfl
  exact ⟨hintact, hlisted, rfl⟩

omit h in
/-- Packing writes the packed form of the files, in their order, and remembers just what is read
from it, or it fails before the file is touched. -/
theorem repack_image (h : store.archive.Named encoding) :
    Ends repack store
      (fun _ store' => store'.archive.dirty = false
        ∧ (Fits store'.file → ∃ labelled : List (String × PackedFile),
          labelled.map (·.1) = store.archive.files.map (·.name)
          ∧ (∀ p ∈ labelled, storedName encoding p.1 = .ok p.2.name
            ∧ ∃ m ∈ store.archive.files, m.name = p.1 ∧ m.contents store.file = .ok p.2.contents)
          ∧ store'.file = Packing.image store.archive.header.unknown (labelled.map (·.2))
          ∧ store'.archive = { store.archive with
              header := Packing.header store.archive.header.unknown (labelled.map (·.2))
              members := store.archive.members.foldl handOver (Packing.members ArchiveHeader.size
                (Packing.contentsOffset (labelled.map (·.2))) labelled)
              dirty := false }))
      fun _ store' => Fits store'.file →
        store'.file = store.file ∧ store'.archive = store.archive := by
  simp only [repack, ends_bind, ends_get, of, ends_mk, ends_modify, update]
  refine ⟨fun named hnamed => ⟨fun _ _ => ⟨fun packed hpacked => ?_,
    fun _ _ _ => ⟨trivial, trivial⟩⟩, fun _ _ _ => ⟨trivial, trivial⟩⟩,
    fun _ _ _ => ⟨trivial, trivial⟩⟩
  rw [namedFiles, h.encoding_eq] at hnamed
  obtain ⟨labelled, rfl, hnames, hlabelled⟩ := exists_packed hnamed hpacked
  -- Below 4 GiB the packed file is read as what was packed.
  have hread : Fits (Packing.image store.archive.header.unknown (labelled.map (·.2))) →
      Archive.readIndex store.archive.encoding
          (Packing.image store.archive.header.unknown (labelled.map (·.2)))
        = { result := .ok (Packing.header store.archive.header.unknown (labelled.map (·.2)),
              Packing.members ArchiveHeader.size
                (Packing.contentsOffset (labelled.map (·.2))) labelled) } := by
    intro hfits
    rw [h.encoding_eq]
    refine Packing.readIndex_image hfits (fun p hp => (hlabelled p hp).1) ?_ ?_
    · intro p hp
      obtain ⟨-, m, hm, hname, -⟩ := hlabelled p hp
      exact hname ▸ h.survive m (List.mem_filter.mp hm).1
    · rw [hnames]
      exact (List.nodup_append.mp (Archive.nodup_files_append h.unique)).1
  refine ⟨fun index hindex => ⟨trivial, fun hfits => ?_⟩, fun e he hfits => ?_⟩
  · rw [hread hfits] at hindex
    obtain rfl := Except.ok.inj hindex
    exact ⟨labelled, hnames, hlabelled, rfl, rfl⟩
  · rw [hread hfits] at he
    cases he

/-- Packing leaves the files as they were, an index that lists them, and no entry that names a place
outside the file. -/
theorem repack_spec :
    Ends repack store
      (fun _ store' => LeavesIfFits mode encoding catalog store.archive.Writes store'
        ∧ store'.archive.dirty = false
        ∧ (Fits store'.file → store'.archive.ListedIn store'.file
          ∧ ∀ m ∈ store'.archive.files, m.entry.dataEnd ≤ store'.file.length))
      fun _ => LeavesIfFits mode encoding catalog store.archive.Writes := by
  refine (repack_image h.named).mono ?_ ?_
  · rintro _ store' ⟨hdirty, hpacked⟩
    refine ⟨fun hfits => ?_, hdirty, fun hfits => ?_⟩
    · obtain ⟨labelled, hnames, hlabelled, hfile, harchive⟩ := hpacked hfits
      rw [hfile] at hfits
      refine ⟨?_, ?_⟩
      · rw [hfile, harchive]
        exact (h.repack hnames hlabelled hfits).1
      · -- a member that was read anew has no handle, so its handle was handed over
        rw [harchive]
        rintro name ⟨m, hm, hname, hwrites⟩
        rcases writer_of_mem_handOver hm hwrites with ⟨a, ha, -, hwriter⟩ | ⟨o, ho, honame, hwriter⟩
        · rw [← Packing.members_fresh] at ha
          obtain ⟨b, -, rfl⟩ := List.mem_map.mp ha
          cases hwriter
        · exact ⟨o, ho, honame.trans hname, hwriter⟩
    · obtain ⟨labelled, hnames, hlabelled, hfile, harchive⟩ := hpacked hfits
      rw [hfile] at hfits ⊢
      rw [harchive]
      refine ⟨(h.repack hnames hlabelled hfits).2, fun m hm => ?_⟩
      have hplaced := Archive.placed_of_handOver (fun p hp => (hlabelled p hp).1) hfits m hm
      rw [← Packing.indexEnd_header hfits]
      exact Nat.le_trans hplaced.2 (Nat.le_add_right _ _)
  · intro _ store' hfailed hfits
    obtain ⟨hfile, harchive⟩ := hfailed hfits
    exact ⟨by rw [hfile, harchive]; exact h, fun name hname => harchive ▸ hname⟩

theorem flush_spec :
    Ends flush store
      (fun _ store' => LeavesIfFits mode encoding catalog store.archive.Writes store'
        ∧ (mode ≠ .readOnly → store'.archive.dirty = false))
      fun _ => LeavesIfFits mode encoding catalog store.archive.Writes := by
  simp only [flush, ends_bind, ends_get]
  rw [h.mode_eq]
  -- flush mode and immediate mode end in the same way
  have hindex : Ends (writeIndex >>= fun _ => update fun archive => { archive with dirty := false })
      store
      (fun _ store' => LeavesIfFits mode encoding catalog store.archive.Writes store'
        ∧ (mode ≠ .readOnly → store'.archive.dirty = false))
      fun _ => LeavesIfFits mode encoding catalog store.archive.Writes := by
    simp only [ends_bind, update, ends_modify]
    refine (writeIndex_spec h).mono ?_ ?_
    · intro _ store' hwritten
      refine ⟨fun hfits => ?_, fun _ => trivial⟩
      obtain ⟨hintact, -, hmembers⟩ := hwritten hfits
      refine ⟨hintact, ?_⟩
      rintro name ⟨m, hm, hwrites⟩
      exact ⟨m, hmembers ▸ hm, hwrites⟩
    · rintro _ _ rfl _
      exact leaves_self h
  split
  · cases mode with
    | readOnly => exact ⟨fun _ => leaves_self h, fun hne => absurd rfl hne⟩
    | explicit => exact (repack_spec h).imp fun _ _ hpacked => ⟨hpacked.1, fun _ => hpacked.2.1⟩
    | flush => exact hindex
    | immediate => exact hindex
  · next hdirty => exact ⟨fun _ => leaves_self h, fun _ => by simpa using hdirty⟩

theorem compact_spec :
    Ends compact store
      (fun _ store' => LeavesIfFits mode encoding catalog store.archive.Writes store'
        ∧ store'.archive.dirty = false
        ∧ (mode ≠ .immediate → Fits store'.file →
          ∀ m ∈ store'.archive.files, m.entry.dataEnd ≤ store'.file.length))
      fun _ => LeavesIfFits mode encoding catalog store.archive.Writes := by
  simp only [compact, checkWritable, ends_bind, ends_get]
  split
  · exact fun _ => leaves_self h
  · next hwritable =>
    simp only [ends_pure]
    split
    · next himmediate =>
      simp only [warn, ends_bind, ends_modify]
      have hflush : Ends flush
          { store with warnings := store.warnings ++ [.compactionUnavailable] } _ _ := flush_spec h
      refine hflush.imp fun _ _ hflushed => ⟨hflushed.1, hflushed.2 (h.mode_eq ▸ hwritable), ?_⟩
      exact fun hmode => absurd (h.mode_eq.symm.trans himmediate) hmode
    · exact (repack_spec h).imp fun _ _ hpacked =>
        ⟨hpacked.1, hpacked.2.1, fun _ hfits => (hpacked.2.2 hfits).2⟩

end Change
end NovelScript
