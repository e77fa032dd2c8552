import NovelScript.Proofs.Archive.Payloads

/-!
# What handles leave alone

Opening a handle, working through it and giving it back writes nothing.  Only the handles that the
archive knows of change, and a file that is only being made comes or goes, so the files stay the
same, each in its place (`Archive.Retains`).  Nothing is assumed of the archive or of its file.
-/

namespace NovelScript

/-- From one archive to another, the files are the same, in order and each where it was. -/
structure Archive.Retains (archive archive' : Archive) : Prop where
  mode_eq : archive'.mode = archive.mode
  encoding_eq : archive'.encoding = archive.encoding
  header_eq : archive'.header = archive.header
  files_eq : archive'.files.map Member.core = archive.files.map Member.core
  unique : (archive.members.map (·.name)).Nodup → (archive'.members.map (·.name)).Nodup

namespace Archive

variable {archive archive' archive'' : Archive} {name : String} {m : Member}

theorem Retains.refl (archive : Archive) : archive.Retains archive := ⟨rfl, rfl, rfl, rfl, id⟩

theorem Retains.trans (h : archive.Retains archive') (h' : archive'.Retains archive'') :
    archive.Retains archive'' where
  mode_eq := h'.mode_eq.trans h.mode_eq
  encoding_eq := h'.encoding_eq.trans h.encoding_eq
  header_eq := h'.header_eq.trans h.header_eq
  files_eq := h'.files_eq.trans h.files_eq
  unique hunique := h'.unique (h.unique hunique)

theorem Retains.change {f : Member → Member} (hf : ∀ m, (f m).core = m.core) :
    archive.Retains { archive with members := Member.change name f archive.members } where
  mode_eq := rfl
  encoding_eq := rfl
  header_eq := rfl
  files_eq := Member.map_core_files (Member.map_core_change hf)
  unique hunique := by
    rwa [Member.map_name_change fun m => (Member.core_eq_iff.mp (hf m)).1]

/-- A file that is being made is none yet. -/
theorem Retains.concat (hfind : archive.find? m.name = none) (hcreated : m.isCreated = true) :
    archive.Retains { archive with members := archive.members ++ [m] } where
  mode_eq := rfl
  encoding_eq := rfl
  header_eq := rfl
  files_eq := by
    simp only [files]
    rw [List.filter_append, List.filter_cons_of_neg (by simp [hcreated]), List.filter_nil,
      List.append_nil]
  unique hunique := by
    rw [List.map_append, List.nodup_append]
    refine ⟨hunique, by simp, fun a ha b hb => ?_⟩
    obtain ⟨o, ho, rfl⟩ := List.mem_map.mp ha
    obtain rfl := List.mem_singleton.mp hb
    exact Member.find?_eq_none_iff.mp hfind o ho

/-- Behind the first member of a name, the others are as they were. -/
theorem exists_eraseP_eq (hfind : archive.find? name = some m) :
    ∃ before after, archive.members = before ++ m :: after
      ∧ archive.members.eraseP (·.name == name) = before ++ after := by
  obtain ⟨hname, before, after, hsplit, hbefore⟩ := List.find?_eq_some_iff_append.mp hfind
  have hnone : ∀ o ∈ before, ¬ (o.name == name) = true := by
    intro o ho
    simpa using hbefore o ho
  refine ⟨before, after, hsplit, ?_⟩
  rw [hsplit, List.eraseP_append_right _ hnone, List.eraseP_cons_of_pos (by exact hname)]

/-- A file that is being made leaves nothing behind. -/
theorem Retains.forget (hfind : archive.find? name = some m) (hcreated : m.isCreated = true) :
    archive.Retains { archive with members := archive.members.eraseP (·.name == name) } where
  mode_eq := rfl
  encoding_eq := rfl
  header_eq := rfl
  files_eq := by
    obtain ⟨before, after, hmembers, herased⟩ := exists_eraseP_eq hfind
    simp only [files]
    rw [herased, hmembers, List.filter_append, List.filter_append,
      List.filter_cons_of_neg (by simp [hcreated])]
  unique hunique := hunique.sublist (List.eraseP_sublist.map _)

end Archive

/-! ## Steps on the archive -/

namespace Change

variable {store : Store}

/-- The step has written nothing and has retained all files. -/
def Retained (store store' : Store) : Prop :=
  store'.file = store.file ∧ store.archive.Retains store'.archive

theorem retained_self (store : Store) : Retained store store := ⟨rfl, .refl _⟩

theorem openFile_retains (name : String) (store : Store) :
    Ends (openFile name) store (fun _ => Retained store) fun _ => Retained store := by
  simp only [openFile, expectFile, ends_bind, ends_get]
  cases store.archive.file? name with
  | none => exact retained_self store
  | some m =>
    simp only [ends_pure]
    split
    · exact retained_self store
    · simp only [ends_bind, ends_get, of, ends_mk, updateMember, update, ends_modify, ends_pure]
      exact ⟨fun _ _ => ⟨rfl, .change fun _ => rfl⟩, fun _ _ => retained_self store⟩

theorem openFileMut_retains (name : String) (store : Store) :
    Ends (openFileMut name) store (fun _ => Retained store) fun _ => Retained store := by
  simp only [openFileMut, checkWritable, expectFile, ends_bind, ends_get]
  split
  · exact retained_self store
  simp only [ends_pure]
  cases store.archive.file? name with
  | none => exact retained_self store
  | some m =>
    simp only [ends_pure]
    split
    · exact retained_self store
    · simp only [ends_bind, ends_get, of, ends_mk, updateMember, update, ends_modify, ends_pure]
      exact ⟨fun _ _ => ⟨rfl, .change fun _ => rfl⟩, fun _ _ => retained_self store⟩

theorem createFile_retains (name : String) (store : Store) :
    Ends (createFile name) store (fun _ => Retained store) fun _ => Retained store := by
  simp only [createFile, checkWritable, ends_bind, ends_get]
  split
  · exact retained_self store
  simp only [ends_pure]
  cases hfind : store.archive.find? name with
  | some m =>
    dsimp only
    split
    · exact retained_self store
    · simp only [updateMember, update, ends_bind, ends_modify, ends_pure]
      exact ⟨rfl, .change fun _ => rfl⟩
  | none =>
    simp only [update, ends_bind, ends_modify, ends_pure]
    exact ⟨rfl, .concat hfind rfl⟩

theorem releaseReader_retains (name : String) (store : Store) :
    Ends (releaseReader name) store (fun _ => Retained store) noFailure := by
  simp only [releaseReader, updateMember, update, ends_modify]
  exact ⟨rfl, .change fun _ => rfl⟩

theorem discardWriter_retains (name : String) (store : Store) :
    Ends (discardWriter name) store (fun _ => Retained store) noFailure := by
  simp only [discardWriter, warn, ends_bind, ends_modify, ends_get]
  cases hfind : store.archive.find? name with
  | none => exact ⟨rfl, .refl _⟩
  | some m =>
    dsimp only
    split
    · next hcreated =>
      simp only [forget, update, ends_modify]
      exact ⟨rfl, .forget hfind hcreated⟩
    · simp only [updateMember, update, ends_modify]
      exact ⟨rfl, .change fun _ => rfl⟩

end Change

/-! ## Sessions -/

/-- From one session to another, nothing is written and all files are retained. -/
structure Session.Retains (session after : Session) : Prop where
  file_eq : after.file = session.file
  archive : ∀ archive, session.archive = some archive →
    ∃ archive', after.archive = some archive' ∧ archive.Retains archive'

namespace Session

variable {session after later : Session} {archive : Archive} {file : Bytes}

theorem Retains.trans (h : session.Retains after) (h' : after.Retains later) :
    session.Retains later where
  file_eq := h'.file_eq.trans h.file_eq
  archive archive harchive := by
    obtain ⟨archive', harchive', hretains⟩ := h.archive archive harchive
    obtain ⟨archive'', harchive'', hretains'⟩ := h'.archive archive' harchive'
    exact ⟨archive'', harchive'', hretains.trans hretains'⟩

/-- The numbers of handles have nothing to do with the files. -/
theorem retains_handles (session : Session) (handles : List (Nat × Handle)) :
    session.Retains { session with handles } :=
  ⟨rfl, fun archive harchive => ⟨archive, harchive, .refl archive⟩⟩

theorem retains_self (session : Session) : session.Retains session :=
  session.retains_handles session.handles

theorem retains_of_touches (h : session.Touches after) : session.Retains after := by
  obtain ⟨f, -, rfl⟩ := h
  exact session.retains_handles _

theorem retains_withStore (harchive : session.archive = some archive)
    (hfile : session.file = some file) {store : Store}
    (h : Change.Retained ⟨file, session.scratch, archive, session.warnings⟩ store) :
    session.Retains (session.withStore store) where
  file_eq := by
    rw [hfile]
    exact congrArg some h.1
  archive archive' harchive' := by
    obtain rfl := Option.some.inj (harchive.symm.trans harchive')
    exact ⟨store.archive, rfl, h.2⟩

end Session

namespace Work

variable {α : Type} {session : Session} {archive : Archive} {file : Bytes} {change : Change α}
  (harchive : session.archive = some archive) (hfile : session.file = some file)

include harchive hfile

/-- A step on the archive that retains its files does so in a session. -/
theorem on_retains {store : Store}
    (hstore : store = ⟨file, session.scratch, archive, session.warnings⟩)
    (h : Ends change store (fun _ => Change.Retained store) fun _ => Change.Retained store) :
    Ends (on change) session (fun _ => session.Retains) fun _ => session.Retains := by
  subst hstore
  rw [ends_on harchive hfile]
  exact h.mono (fun _ _ hretained => Session.retains_withStore harchive hfile hretained)
    fun _ _ hretained => Session.retains_withStore harchive hfile hretained

theorem release_retains (handle : Handle) :
    Ends (release handle) session (fun _ => session.Retains) noFailure := by
  unfold release
  cases handle.kind with
  | reader =>
    rw [ends_on harchive hfile]
    exact (Change.releaseReader_retains handle.name _).imp fun _ _ hretained =>
      Session.retains_withStore harchive hfile hretained
  | writer =>
    rw [ends_on harchive hfile]
    exact (Change.discardWriter_retains handle.name _).imp fun _ _ hretained =>
      Session.retains_withStore harchive hfile hretained

/-- A handle is given back in a session that a step has led to. -/
theorem release_behind_retains {session₁ : Session} (h : session.Retains session₁)
    (handle : Handle) :
    Ends (release handle) session₁ (fun _ => session.Retains) fun _ => session.Retains := by
  obtain ⟨archive₁, harchive₁, -⟩ := h.archive archive harchive
  have hreleased := release_retains harchive₁ (h.file_eq.trans hfile) handle
  exact (hreleased.imp fun _ _ => h.trans).of_noFailure

/-- A handle is kept on what a step on the archive has opened. -/
theorem keep_behind_retains {session₁ : Session} (h : session.Retains session₁) (number : Nat)
    (handle : Handle) :
    Ends (keep number handle) session₁ (fun _ => session.Retains) fun _ => session.Retains := by
  simp only [keep, ends_bind, ends_get, ends_modify]
  have hkept := h.trans
    (session₁.retains_handles (insertHandle number handle session₁.handles))
  cases session₁.handles.lookup number with
  | none => exact hkept
  | some old => exact release_behind_retains harchive hfile hkept old

end Work

/-- Whether the operation writes no files and takes none out. -/
def Operation.retains : Operation → Bool
  | writeAll .. | closeHandle _ | deleteFile _ | flush | compact => false
  | _ => true

/-- Handles that are opened, worked through or dropped leave the files alone. -/
theorem Operation.ends_retains {session : Session} {archive : Archive} {file : Bytes}
    (harchive : session.archive = some archive) (hfile : session.file = some file) {op : Operation}
    (hop : op.retains = true) :
    Ends op.work session (fun _ => session.Retains) fun _ => session.Retains := by
  have hlocal (hop : op.isLocal = true) :
      Ends op.work session (fun _ => session.Retains) fun _ => session.Retains :=
    (touches harchive hop).mono (fun _ _ => Session.retains_of_touches)
      fun _ _ => Session.retains_of_touches
  cases op with
  | writeAll | closeHandle | deleteFile | flush | compact => cases hop
  | createFile number name =>
    simp only [work, Work.createFile, ends_bind]
    refine (Work.on_retains harchive hfile rfl (Change.createFile_retains name _)).imp ?_
    rintro (_ | _) session₁ hretains
    · exact hretains
    · rw [if_pos rfl, ends_bind]
      exact Work.keep_behind_retains harchive hfile hretains number _
  | openFile number name =>
    simp only [work, Work.openFile, ends_bind]
    refine (Work.on_retains harchive hfile rfl (Change.openFile_retains name _)).imp ?_
    rintro (_ | contents) session₁ hretains
    · exact hretains
    · rw [ends_bind]
      exact Work.keep_behind_retains harchive hfile hretains number _
  | openFileMut number name =>
    simp only [work, Work.openFileMut, ends_bind]
    refine (Work.on_retains harchive hfile rfl (Change.openFileMut_retains name _)).imp ?_
    rintro (_ | contents) session₁ hretains
    · exact hretains
    · rw [ends_bind]
      exact Work.keep_behind_retains harchive hfile hretains number _
  | readHandle | seekHandle | writeHandle | resizeHandle => exact hlocal rfl
  | dropHandle number =>
    simp only [work, Work.dropHandle, Work.forget, ends_bind, ends_modify, ends_pure]
    refine (Work.handle_spec harchive number).mono ?_ ?_
    · rintro found _ ⟨rfl, -⟩
      exact Work.release_behind_retains harchive hfile (Session.retains_handles _ _) found
    · rintro _ _ rfl
      exact Session.retains_self _

end NovelScript
