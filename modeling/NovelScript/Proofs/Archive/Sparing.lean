import NovelScript.Proofs.Archive.Durability

/-!
# Steps that spare what the file shows

In explicit and in immediate mode only a flush or a packing changes what the file under an archive
shows.  Every other step writes behind the end of the file, if it writes at all, and leaves header
and index as they are (`Archive.Spares`).  So what a second reader finds in the file is still there,
and every file saved in the meantime lies behind it.

## Where the limit of 4 GiB is kept

Whatever is written behind the end is checked to have an offset of 32 bits, so a file below 4 GiB
stays below it (`Archive.Spares.fits`).
-/

namespace NovelScript

/-- From one archive over its file to another, what the file shows is spared: octets are written
behind the end alone, none in explicit mode, and a member that is not an old one is in memory or
behind the old end.  An archive that still has no changes has the same files. -/
structure Archive.Spares (archive : Archive) (file : Bytes) (archive' : Archive) (file' : Bytes) :
    Prop where
  mode_eq : archive'.mode = archive.mode
  header_eq : archive'.header = archive.header
  grows : file <+: file'
  explicit : archive.mode = .explicit → file' = file
  fits : Fits file → Fits file'
  placed : ∀ m ∈ archive'.members, (∃ o ∈ archive.members, o.gist = m.gist)
    ∨ ∀ entry, m.residence = .stored entry →
      file.length < entry.dataOffset.toNat ∧ entry.dataEnd ≤ file'.length
  clean : archive'.dirty = false → archive.dirty = false
    ∧ archive'.files.map Member.gist = archive.files.map Member.gist

namespace Archive

variable {archive archive' archive'' : Archive} {file file' file'' : Bytes} {members : List Member}
  {name : String}

theorem Spares.refl (archive : Archive) (file : Bytes) : archive.Spares file archive file where
  mode_eq := rfl
  header_eq := rfl
  grows := List.prefix_refl file
  explicit _ := rfl
  fits := id
  placed m hm := .inl ⟨m, hm, rfl⟩
  clean h := ⟨h, rfl⟩

theorem Spares.trans (h : archive.Spares file archive' file')
    (h' : archive'.Spares file' archive'' file'') : archive.Spares file archive'' file'' where
  mode_eq := h'.mode_eq.trans h.mode_eq
  header_eq := h'.header_eq.trans h.header_eq
  grows := h.grows.trans h'.grows
  explicit hmode := (h'.explicit (h.mode_eq.trans hmode)).trans (h.explicit hmode)
  fits hfits := h'.fits (h.fits hfits)
  placed m hm := by
    -- what lies behind the end of the grown file lies behind that of the first one
    have hle := h.grows.length_le
    have hle' := h'.grows.length_le
    rcases h'.placed m hm with ⟨o, ho, hgist⟩ | hbehind
    · rcases h.placed o ho with ⟨o', ho', hgist'⟩ | hbehind
      · exact .inl ⟨o', ho', hgist'.trans hgist⟩
      · refine .inr fun entry hentry => ?_
        obtain ⟨entry', hentry', hoffset, hlength⟩ := Member.stored_of_gist_eq hgist.symm hentry
        obtain ⟨hstart, hend⟩ := hbehind entry' hentry'
        rw [IndexEntry.dataEnd, hoffset, hlength] at hend
        rw [hoffset] at hstart
        rw [IndexEntry.dataEnd]
        omega
    · refine .inr fun entry hentry => ?_
      obtain ⟨hstart, hend⟩ := hbehind entry hentry
      omega
  clean hclean := by
    obtain ⟨hclean', hfiles'⟩ := h'.clean hclean
    obtain ⟨hclean'', hfiles⟩ := h.clean hclean'
    exact ⟨hclean'', hfiles'.trans hfiles⟩

/-! ## Steps that write nothing -/

/-- Neither handles nor the places of names have to do with what the file shows. -/
theorem Spares.of_map_gist_eq (hgist : members.map Member.gist = archive.members.map Member.gist) :
    archive.Spares file { archive with members } file :=
  { Spares.refl archive file with
    placed := fun _ hm => .inl (Member.exists_of_map_eq hgist hm)
    clean := fun hclean => ⟨hclean, Member.map_gist_files hgist⟩ }

theorem Spares.change {f : Member → Member} (hf : ∀ m, (f m).core = m.core) :
    archive.Spares file { archive with members := Member.change name f archive.members } file :=
  .of_map_gist_eq (Member.map_gist_of_map_core_eq (Member.map_core_change hf))

/-- A file that is being made is none yet. -/
theorem Spares.concat {m : Member} (hm : m.residence = .created) :
    archive.Spares file { archive with members := archive.members ++ [m] } file :=
  { Spares.refl archive file with
    placed := by
      intro m' hm'
      rcases List.mem_append.mp hm' with hm' | hm'
      · exact .inl ⟨m', hm', rfl⟩
      · obtain rfl := List.mem_singleton.mp hm'
        refine .inr fun entry hentry => ?_
        rw [hm] at hentry
        cases hentry
    clean := by
      intro hclean
      refine ⟨hclean, ?_⟩
      have hcreated : m.isCreated = true := by simp [Member.isCreated, hm]
      simp only [files]
      rw [List.filter_append, List.filter_cons_of_neg (by simp [hcreated]), List.filter_nil,
        List.append_nil] }

/-- A file that is being made leaves nothing behind. -/
theorem Spares.forget {m : Member} (hfind : archive.find? name = some m)
    (hcreated : m.isCreated = true) :
    archive.Spares file { archive with members := archive.members.eraseP (·.name == name) } file :=
  { Spares.refl archive file with
    placed := fun m hm => .inl ⟨m, List.mem_of_mem_eraseP hm, rfl⟩
    clean := by
      intro hclean
      refine ⟨hclean, congrArg (List.map Member.gist) ?_⟩
      -- what is taken out is the first member of the name, and that is none of the files
      obtain ⟨hname, before, after, hsplit, hbefore⟩ := List.find?_eq_some_iff_append.mp hfind
      have hnone : ∀ o ∈ before, ¬ (o.name == name) = true := by
        intro o ho
        simpa using hbefore o ho
      simp only [files]
      rw [hsplit, List.eraseP_append_right _ hnone, List.eraseP_cons_of_pos (by exact hname),
        List.filter_append, List.filter_append, List.filter_cons_of_neg (by simp [hcreated])] }

theorem Spares.delete (archive : Archive) (file : Bytes) (name : String) :
    archive.Spares file
      { archive with members := archive.members.eraseP (·.name == name), dirty := true } file :=
  { Spares.refl archive file with
    placed := fun m hm => .inl ⟨m, List.mem_of_mem_eraseP hm, rfl⟩
    clean := fun hclean => by cases hclean }

/-! ## Saving -/

/-- Octets behind the end that still have an offset. -/
theorem Spares.append {octets : Bytes} (hmode : archive.mode ≠ .explicit)
    (hfits : Fits file → Fits (file ++ octets)) : archive.Spares file archive (file ++ octets) :=
  { Spares.refl archive file with
    grows := List.prefix_append file octets
    explicit := fun hexplicit => absurd hexplicit hmode
    fits := hfits
    placed := fun m hm => .inl ⟨m, hm, rfl⟩ }

/-- A member is saved in memory or behind the end. -/
theorem Spares.save {residence : Residence}
    (hplaced : ∀ entry, residence = .stored entry →
      file.length < entry.dataOffset.toNat ∧ entry.dataEnd ≤ file'.length)
    (hspares : archive.Spares file archive' file') :
    archive.Spares file { archive' with
      members := Member.change name (fun o => { o with residence }) archive'.members
      dirty := true } file' :=
  { hspares with
    placed := by
      intro m hm
      rcases Member.mem_of_mem_change hm with hm | ⟨o, -, -, rfl⟩
      · exact hspares.placed m hm
      · exact .inr hplaced
    clean := fun hclean => by cases hclean }

end Archive

namespace Change

variable {store store' : Store} {octets : Bytes} {name : String} {m : Member}

/-- The step has spared what the file shows. -/
def Spared (store store' : Store) : Prop :=
  store.archive.Spares store.file store'.archive store'.file

theorem spared_self (store : Store) : Spared store store := .refl _ _

/-! ## Handles -/

theorem openFile_spares (name : String) :
    Ends (openFile name) store (fun _ => Spared store) fun _ => Spared store := by
  simp only [openFile, expectFile, ends_bind, ends_get]
  cases store.archive.file? name with
  | none => exact spared_self store
  | some m =>
    simp only [ends_pure]
    split
    · exact spared_self store
    · simp only [ends_bind, ends_get, of, ends_mk, updateMember, update, ends_modify, ends_pure]
      exact ⟨fun _ _ => .change fun _ => rfl, fun _ _ => spared_self store⟩

theorem openFileMut_spares (name : String) :
    Ends (openFileMut name) store (fun _ => Spared store) fun _ => Spared store := by
  simp only [openFileMut, checkWritable, expectFile, ends_bind, ends_get]
  split
  · exact spared_self store
  simp only [ends_pure]
  cases store.archive.file? name with
  | none => exact spared_self store
  | some m =>
    simp only [ends_pure]
    split
    · exact spared_self store
    · simp only [ends_bind, ends_get, of, ends_mk, updateMember, update, ends_modify, ends_pure]
      exact ⟨fun _ _ => .change fun _ => rfl, fun _ _ => spared_self store⟩

theorem createFile_spares (name : String) :
    Ends (createFile name) store (fun _ => Spared store) fun _ => Spared store := by
  simp only [createFile, checkWritable, ends_bind, ends_get]
  split
  · exact spared_self store
  simp only [ends_pure]
  cases store.archive.find? name with
  | some m =>
    dsimp only
    split
    · exact spared_self store
    · simp only [updateMember, update, ends_bind, ends_modify, ends_pure]
      exact .change fun _ => rfl
  | none =>
    simp only [update, ends_bind, ends_modify, ends_pure]
    exact .concat rfl

/-- Giving a handle for reading back writes nothing at all. -/
theorem releaseReader_spares (name : String) :
    Ends (releaseReader name) store
      (fun _ store' => store'.file = store.file ∧ Spared store store') noFailure := by
  simp only [releaseReader, updateMember, update, ends_modify]
  exact ⟨trivial, .change fun _ => rfl⟩

theorem discardWriter_spares (name : String) :
    Ends (discardWriter name) store
      (fun _ store' => store'.file = store.file ∧ Spared store store') noFailure := by
  simp only [discardWriter, warn, ends_bind, ends_modify, ends_get]
  cases hfind : store.archive.find? name with
  | none => exact ⟨rfl, spared_self store⟩
  | some m =>
    dsimp only
    split
    · next hcreated =>
      simp only [forget, update, ends_modify]
      exact ⟨trivial, .forget hfind hcreated⟩
    · simp only [updateMember, update, ends_modify]
      exact ⟨trivial, .change fun _ => rfl⟩

/-! ## Saving -/

/-- A stored name takes at least its terminator. -/
theorem length_storedName_pos {encoding : Encoding} {stored : Bytes}
    (h : storedName encoding name = .ok stored) : 0 < stored.length := by
  have hmem : 0 ∈ stored :=
    Encoding.zero_mem_of_encodeTerminated (IndexEntry.storedName_eq_ok_iff.mp h)
  exact List.length_pos_of_mem hmem

/-- Octets behind the end that are checked to have an offset. -/
theorem spares_append {file octets : Bytes} {archive : Archive} (hmode : archive.mode ≠ .explicit)
    (hsize : file.length + octets.length < UInt32.size) :
    archive.Spares file archive (file ++ octets) := by
  refine .append hmode fun _ => ?_
  rwa [Fits, List.length_append]

/-- Name and contents go behind the end, the contents behind the name. -/
theorem saveAnew_spares {o : Member} (hmode : store.archive.mode ≠ .explicit)
    (hfind : store.archive.find? m.name = some o) (hcore : m.core = o.core) :
    Ends (saveAnew m octets) store
      (fun residence store' => Spared store store' ∧ ∀ entry, residence = .stored entry →
        store.file.length < entry.dataOffset.toNat ∧ entry.dataEnd ≤ store'.file.length)
      fun _ store' => Spared store store' ∧ store.archive.Relisted m store'.archive := by
  refine (saveAnew_spec octets store).mono ?_ ?_
  · rintro _ _ ⟨stored, nameOffset, dataOffset, hstored, -, hdata, hfits, rfl, rfl⟩
    have hnamed : store.file.length + stored.length < UInt32.size := by
      rw [List.length_append] at hfits
      omega
    have hsaved := (spares_append hmode hnamed).trans (spares_append hmode hfits)
    refine ⟨hsaved.trans (.of_map_gist_eq
      (Archive.map_gist_relisted hfind hcore nameOffset stored)), ?_⟩
    rintro _ ⟨⟩
    have hpos := length_storedName_pos hstored
    have hlength : (UInt32.ofNat octets.length).toNat = octets.length :=
      UInt32.toNat_ofNat_of_lt' (by omega)
    simp only [IndexEntry.dataEnd, hlength, hdata, List.length_append]
    omega
  · rintro _ _ (rfl | ⟨stored, nameOffset, -, -, hsize, rfl⟩)
    · exact ⟨spared_self _, .refl _ _⟩
    · exact ⟨(spares_append hmode hsize).trans (.of_map_gist_eq
        (Archive.map_gist_relisted hfind hcore nameOffset stored)),
        store.archive.relisted_relisted m nameOffset stored⟩

/-- Outside flush mode, contents are saved in memory or behind the end. -/
theorem save_spares {o : Member} (hmode : store.archive.mode ≠ .flush)
    (hfind : store.archive.find? m.name = some o) (hcore : m.core = o.core) :
    Ends (save m octets) store
      (fun residence store' => Spared store store' ∧ ∀ entry, residence = .stored entry →
        store.file.length < entry.dataOffset.toNat ∧ entry.dataEnd ≤ store'.file.length)
      fun _ store' => Spared store store' ∧ store.archive.Relisted m store'.archive := by
  simp only [save, ends_bind, ends_get]
  cases hstore : store.archive.mode with
  | readOnly => exact ⟨spared_self store, .refl _ _⟩
  | explicit =>
    refine ⟨spared_self store, ?_⟩
    rintro entry ⟨⟩
  | flush => exact absurd hstore hmode
  | immediate => exact saveAnew_spares (by rw [hstore]; decide) hfind hcore

theorem commit_spares (hmode : store.archive.mode ≠ .flush) (name : String) (octets : Bytes) :
    Ends (commit name octets) store (fun _ => Spared store) fun _ => Spared store := by
  simp only [commit, ends_bind, ends_get]
  cases hfind : store.archive.find? name with
  | none => exact spared_self store
  | some member =>
    simp only [updateMember, update, ends_bind, ends_modify, ends_tryCatch, forget]
    obtain ⟨-, rfl⟩ := Member.find?_eq_some hfind
    have hreleased : store.archive.Spares store.file { store.archive with
        members := Member.change member.name (fun m => { m with writer := false })
          store.archive.members } store.file := .change fun _ => rfl
    have hfound : Archive.find? { store.archive with
        members := Member.change member.name (fun m => { m with writer := false })
          store.archive.members } member.name = some { member with writer := false } :=
      Member.find?_change (fun _ => rfl) hfind
    have hsave : Ends (save member octets) { store with archive := { store.archive with
        members := Member.change member.name (fun m => { m with writer := false })
          store.archive.members } } _ _ := save_spares hmode hfound rfl
    refine hsave.mono ?_ ?_
    · rintro residence store₁ ⟨hspares, hplaced⟩
      exact hreleased.trans (.save hplaced hspares)
    · rintro e store₁ ⟨hspares, hrelisted⟩
      -- a file that could not be saved is given up if it was only being made
      split
      · next hcreated =>
        obtain ⟨o, ho, hbearing⟩ := hrelisted.find? hfound
        simp only [Member.bearing, Prod.mk.injEq] at hbearing
        exact hreleased.trans (hspares.trans (.forget ho (hbearing.2.1.trans hcreated)))
      · exact hreleased.trans hspares

theorem writeAll_spares (hmode : store.archive.mode ≠ .flush) (name : String) (octets : Bytes) :
    Ends (writeAll name octets) store (fun _ => Spared store) fun _ => Spared store := by
  simp only [writeAll, ends_bind]
  refine (createFile_spares name).mono ?_ fun _ _ => id
  rintro (_ | _) store₁ hspared
  · exact hspared
  · rw [if_pos rfl, ends_bind]
    refine (commit_spares (by rw [hspared.mode_eq]; exact hmode) name octets).mono ?_ ?_
    · exact fun _ _ hcommitted => hspared.trans hcommitted
    · exact fun _ _ hcommitted => hspared.trans hcommitted

theorem deleteFile_spares (name : String) :
    Ends (deleteFile name) store (fun _ => Spared store) fun _ => Spared store := by
  simp only [deleteFile, checkWritable, ends_bind, ends_get]
  split
  · exact spared_self store
  simp only [ends_pure]
  cases store.archive.find? name with
  | none => exact spared_self store
  | some m =>
    dsimp only
    split
    · exact spared_self store
    · simp only [forget, update, ends_bind, ends_modify, ends_pure]
      exact .delete store.archive store.file name

end Change

/-! ## Sessions -/

/-- From one session to another, what the file shows is spared. -/
structure Session.Spares (session session' : Session) : Prop where
  path_eq : session'.path = session.path
  encoding_eq : session'.encoding = session.encoding
  archive : ∀ archive file, session.archive = some archive → session.file = some file →
    ∃ archive' file', session'.archive = some archive' ∧ session'.file = some file'
      ∧ archive.Spares file archive' file'

namespace Session

variable {session session' session'' : Session} {archive : Archive} {file : Bytes}

theorem Spares.trans (h : session.Spares session') (h' : session'.Spares session'') :
    session.Spares session'' where
  path_eq := h'.path_eq.trans h.path_eq
  encoding_eq := h'.encoding_eq.trans h.encoding_eq
  archive archive file harchive hfile := by
    obtain ⟨archive', file', harchive', hfile', hspares⟩ := h.archive archive file harchive hfile
    obtain ⟨archive'', file'', harchive'', hfile'', hspares'⟩ :=
      h'.archive archive' file' harchive' hfile'
    exact ⟨archive'', file'', harchive'', hfile'', hspares.trans hspares'⟩

/-- Handles have nothing to do with what the file shows. -/
theorem spares_of_handles (session : Session) (handles : List (Nat × Handle)) :
    session.Spares { session with handles } :=
  ⟨rfl, rfl, fun archive file harchive hfile =>
    ⟨archive, file, harchive, hfile, .refl archive file⟩⟩

theorem spares_self (session : Session) : session.Spares session :=
  session.spares_of_handles session.handles

theorem spares_withStore {store : Store} (harchive : session.archive = some archive)
    (hfile : session.file = some file) (h : archive.Spares file store.archive store.file) :
    session.Spares (session.withStore store) where
  path_eq := rfl
  encoding_eq := rfl
  archive := by
    intro archive' file' harchive' hfile'
    obtain rfl := Option.some.inj (harchive.symm.trans harchive')
    obtain rfl := Option.some.inj (hfile.symm.trans hfile')
    exact ⟨store.archive, store.file, rfl, rfl, h⟩

end Session

namespace Work

variable {α : Type} {session : Session} {archive : Archive} {file : Bytes} {change : Change α}
  {number : Nat} {handle : Handle} {name : String}
  (harchive : session.archive = some archive) (hfile : session.file = some file)

include harchive hfile

/-- A step on the archive that spares what the file shows does so in a session. -/
theorem on_spares
    (h : Ends change ⟨file, session.scratch, archive, session.warnings⟩
      (fun _ => Change.Spared ⟨file, session.scratch, archive, session.warnings⟩)
      fun _ => Change.Spared ⟨file, session.scratch, archive, session.warnings⟩) :
    Ends (on change) session (fun _ => session.Spares) fun _ => session.Spares := by
  rw [ends_on harchive hfile]
  refine h.mono ?_ ?_
  · exact fun _ _ hspared => Session.spares_withStore harchive hfile hspared
  · exact fun _ _ hspared => Session.spares_withStore harchive hfile hspared

/-- A handle that is given back leaves the file as it is. -/
theorem release_spares (handle : Handle) :
    Ends (release handle) session
      (fun _ session' => session.Spares session' ∧ session'.file = session.file
        ∧ session'.archive.isSome = true ∧ session'.handles = session.handles) noFailure := by
  have hon : ∀ change : Change Unit,
      Ends change ⟨file, session.scratch, archive, session.warnings⟩
        (fun _ store => store.file = file
          ∧ Change.Spared ⟨file, session.scratch, archive, session.warnings⟩ store) noFailure →
      Ends (on change) session
        (fun _ session' => session.Spares session' ∧ session'.file = session.file
          ∧ session'.archive.isSome = true ∧ session'.handles = session.handles) noFailure := by
    intro change hchange
    rw [ends_on harchive hfile]
    refine hchange.imp ?_
    rintro _ store ⟨hsame, hspared⟩
    refine ⟨Session.spares_withStore harchive hfile hspared, ?_, rfl, rfl⟩
    rw [hfile]
    exact congrArg some hsame
  unfold release
  cases handle.kind with
  | reader => exact hon _ (Change.releaseReader_spares handle.name)
  | writer => exact hon _ (Change.discardWriter_spares handle.name)

/-- A handle is given back in a session that a step has led to. -/
theorem release_behind_spares {session₁ : Session} (h : session.Spares session₁)
    (handle : Handle) :
    Ends (release handle) session₁ (fun _ => session.Spares) fun _ => session.Spares := by
  obtain ⟨archive₁, file₁, harchive₁, hfile₁, -⟩ := h.archive archive file harchive hfile
  have hreleased := release_spares harchive₁ hfile₁ handle
  exact (hreleased.imp fun _ _ hspares => h.trans hspares.1).of_noFailure

/-- A handle is kept on what a step on the archive has opened. -/
theorem keep_behind_spares {session₁ : Session} (h : session.Spares session₁) (number : Nat)
    (handle : Handle) :
    Ends (keep number handle) session₁ (fun _ => session.Spares) fun _ => session.Spares := by
  simp only [keep, ends_bind, ends_get, ends_modify]
  have hkept := h.trans
    (session₁.spares_of_handles (insertHandle number handle session₁.handles))
  cases session₁.handles.lookup number with
  | none => exact hkept
  | some old => exact release_behind_spares harchive hfile hkept old

end Work

/-- Every operation but a flush or a packing spares what the file shows. -/
theorem Operation.spares {session : Session} {archive : Archive} {file : Bytes}
    (harchive : session.archive = some archive) (hfile : session.file = some file)
    (hmode : archive.mode ≠ .flush) {op : Operation} (hop : op.settles = false) :
    Ends op.work session (fun _ => session.Spares) fun _ => session.Spares := by
  have hlocal (hop : op.isLocal = true) :
      Ends op.work session (fun _ => session.Spares) fun _ => session.Spares := by
    refine (touches harchive hop).mono ?_ ?_
    all_goals
      rintro _ _ ⟨f, -, rfl⟩
      exact Session.spares_of_handles _ _
  cases op with
  | flush => cases hop
  | compact => cases hop
  | writeAll name contents =>
    rw [work]
    exact Work.on_spares harchive hfile (Change.writeAll_spares hmode name contents)
  | deleteFile name =>
    rw [work]
    exact Work.on_spares harchive hfile (Change.deleteFile_spares name)
  | createFile number name =>
    simp only [work, Work.createFile, ends_bind]
    refine (Work.on_spares harchive hfile (Change.createFile_spares name)).imp ?_
    rintro (_ | _) session₁ hspares
    · exact hspares
    · rw [if_pos rfl, ends_bind]
      exact Work.keep_behind_spares harchive hfile hspares number _
  | openFile number name =>
    simp only [work, Work.openFile, ends_bind]
    refine (Work.on_spares harchive hfile (Change.openFile_spares name)).imp ?_
    rintro (_ | contents) session₁ hspares
    · exact hspares
    · rw [ends_bind]
      exact Work.keep_behind_spares harchive hfile hspares number _
  | openFileMut number name =>
    simp only [work, Work.openFileMut, ends_bind]
    refine (Work.on_spares harchive hfile (Change.openFileMut_spares name)).imp ?_
    rintro (_ | contents) session₁ hspares
    · exact hspares
    · rw [ends_bind]
      exact Work.keep_behind_spares harchive hfile hspares number _
  | readHandle | seekHandle | writeHandle | resizeHandle => exact hlocal rfl
  | dropHandle number =>
    simp only [work, Work.dropHandle, Work.forget, ends_bind, ends_modify, ends_pure]
    refine (Work.handle_spec harchive number).mono ?_ ?_
    · rintro found _ ⟨rfl, -⟩
      exact (Work.release_behind_spares harchive hfile (Session.spares_of_handles _ _) found)
    · rintro _ _ rfl
      exact Session.spares_self _
  | closeHandle number =>
    simp only [work, Work.closeHandle, Work.forget, ends_bind, ends_modify, ends_pure]
    refine (Work.handle_spec harchive number).mono ?_ ?_
    · rintro found session₁ ⟨rfl, -⟩
      -- the handle is forgotten before its contents are saved
      have hforgotten := session₁.spares_of_handles (session₁.handles.filter (·.1 ≠ number))
      cases found.kind with
      | reader => exact Work.release_behind_spares harchive hfile hforgotten found
      | writer =>
        obtain ⟨archive₁, file₁, harchive₁, hfile₁, hspares⟩ :=
          hforgotten.archive archive file harchive hfile
        have hcommitted := Work.on_spares harchive₁ hfile₁
          (Change.commit_spares (hspares.mode_eq ▸ hmode) found.name found.cursor.contents)
        refine hcommitted.mono ?_ ?_
        · exact fun _ _ hspares => hforgotten.trans hspares
        · exact fun _ _ hspares => hforgotten.trans hspares
    · rintro _ _ rfl
      exact Session.spares_self _

end NovelScript
