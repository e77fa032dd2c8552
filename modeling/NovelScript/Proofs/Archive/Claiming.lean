import NovelScript.Proofs.Archive.Standing

/-!
# How files are claimed and given back

Opening a file for reading, opening it for writing and making it each claim it, in the way that its
standing allows; the three are refused otherwise and leave the archive as it is.  Closing a handle
and dropping it give the file back.  All other steps leave every claim in place.
-/

namespace NovelScript
namespace Change

variable {α β : Type} {mode : SaveMode} {encoding : Encoding} {store : Store} {name : String}
  {st : Standing} {member : Member}

/-- The archive is orderly, and its files stand so. -/
structure Stands (mode : SaveMode) (encoding : Encoding) (standing : String → Option Standing)
    (store : Store) : Prop where
  orderly : store.archive.Orderly mode encoding
  standing_eq : store.archive.standing = standing

/-- Unless the file is packed and too large, its files stand so. -/
def StandsIfFits (packs : Bool) (mode : SaveMode) (encoding : Encoding)
    (standing : String → Option Standing) (store : Store) : Prop :=
  (packs = true → Fits store.file) → Stands mode encoding standing store

theorem Stands.of_change {archive : Archive} {f : Member → Member}
    (h : archive.Orderly mode encoding) (hfind : archive.find? name = some member)
    (hf : ∀ m, (f m).name = m.name) (hsound : (f member).standing.Sound)
    (hmembers : store.archive.members = Member.change name f archive.members)
    (hmode : store.archive.mode = archive.mode)
    (hencoding : store.archive.encoding = archive.encoding) :
    Stands mode encoding (Function.update archive.standing name (some (f member).standing))
      store := by
  have horderly := (h.change hf hfind hsound).of_map_bearing
    (congrArg (List.map Member.bearing) hmembers) hmode hencoding
  exact ⟨horderly.1, horderly.2.trans (Archive.standing_change hf hfind)⟩

theorem Stands.of_forget {archive : Archive} (h : archive.Orderly mode encoding)
    (hmembers : store.archive.members = archive.members.eraseP (·.name == name))
    (hmode : store.archive.mode = archive.mode)
    (hencoding : store.archive.encoding = archive.encoding) :
    Stands mode encoding (Function.update archive.standing name none) store := by
  have horderly := (h.forget name).of_map_bearing
    (congrArg (List.map Member.bearing) hmembers) hmode hencoding
  exact ⟨horderly.1, horderly.2.trans (Archive.standing_forget h.unique)⟩

theorem Stands.of_members_eq {archive : Archive} (h : archive.Orderly mode encoding)
    (hmembers : store.archive.members = archive.members)
    (hmode : store.archive.mode = archive.mode)
    (hencoding : store.archive.encoding = archive.encoding) :
    Stands mode encoding archive.standing store :=
  have horderly := h.of_map_bearing (congrArg (List.map Member.bearing) hmembers) hmode hencoding
  ⟨horderly.1, horderly.2⟩

/-- Under another entry, a file stands as before. -/
theorem Stands.relisted {standing : String → Option Standing} {store' : Store}
    (h : Stands mode encoding standing store)
    (hrelisted : store.archive.Relisted member store'.archive) :
    Stands mode encoding standing store' := by
  have horderly := h.orderly.of_map_bearing hrelisted.map_bearing hrelisted.mode_eq
    hrelisted.encoding_eq
  exact ⟨horderly.1, horderly.2.trans h.standing_eq⟩

/-! ## Steps that only write -/

/-- The step leaves the memory of the archive alone, and misses no file. -/
def OnlyWrites (change : Change α) : Prop :=
  ∀ store, Ends change store (fun _ store' => store'.archive = store.archive)
    fun e store' => store'.archive = store.archive ∧ ∀ name, e ≠ .notFound name

theorem OnlyWrites.bind {change : Change α} {f : α → Change β} (h : OnlyWrites change)
    (hf : ∀ a, OnlyWrites (f a)) : OnlyWrites (change >>= f) := by
  intro store
  rw [ends_bind]
  refine (h store).imp fun a store' hsame => ?_
  rw [← hsame]
  exact hf a store'

theorem onlyWrites_pure (a : α) : OnlyWrites (pure a : Change α) := fun _ => rfl

theorem onlyWrites_get : OnlyWrites (get : Change Store) := fun _ => rfl

theorem onlyWrites_setFile (file : Bytes) : OnlyWrites (setFile file) := fun _ => rfl

theorem onlyWrites_of {r : Except ArchiveError α}
    (h : ∀ e, r = .error e → ∀ name, e ≠ .notFound name) : OnlyWrites (of r) :=
  fun _ => ends_mk.mpr ⟨fun _ _ => rfl, fun e he => ⟨rfl, h e he⟩⟩

theorem onlyWrites_fit (offset : Nat) : OnlyWrites (of (fit offset)) := by
  refine onlyWrites_of fun e he name hfound => ?_
  unfold fit at he
  split at he
  · cases he
  · rw [hfound] at he
    cases he

theorem onlyWrites_append (octets : Bytes) : OnlyWrites (append octets) := by
  refine .bind onlyWrites_get fun store => ?_
  refine .bind (fun _ => ends_discard.mpr (onlyWrites_fit _ _)) fun _ => ?_
  exact .bind (onlyWrites_setFile _) fun _ => onlyWrites_fit _

theorem onlyWrites_appendName (name : String) (entry : IndexEntry) :
    OnlyWrites (appendName name entry) := by
  refine .bind onlyWrites_get fun store => .bind (onlyWrites_of fun e he other hfound => ?_)
    fun octets => .bind (onlyWrites_append octets) fun _ => onlyWrites_pure _
  unfold storedName at he
  rw [hfound] at he
  cases hname : store.archive.encoding.encodeTerminated name with
  | ok octets =>
    rw [hname] at he
    cases he
  | error fault =>
    rw [hname] at he
    cases he

theorem onlyWrites_saveBehind (contents : Bytes) (entry : IndexEntry) :
    OnlyWrites (saveBehind contents entry) :=
  .bind (onlyWrites_append contents) fun _ => onlyWrites_pure _

theorem onlyWrites_saveInPlace (member : Member) (contents : Bytes) :
    OnlyWrites (saveInPlace member contents) := by
  refine .bind onlyWrites_get fun store => ?_
  dsimp only
  split
  · exact .bind (onlyWrites_appendName _ _) fun _ => onlyWrites_saveBehind _ _
  split
  · exact .bind (onlyWrites_setFile _) fun _ => onlyWrites_pure _
  · exact onlyWrites_saveBehind _ _

theorem onlyWrites_placeIndex (index : Bytes) : OnlyWrites (placeIndex index) := by
  refine .bind onlyWrites_get fun store => ?_
  dsimp only
  split
  · exact .bind (onlyWrites_setFile _) fun _ => onlyWrites_pure _
  · exact onlyWrites_append _

/-! ## Saving -/

/-- What is saved is no longer only being made. -/
theorem saveBehind_ne_created (contents : Bytes) (entry : IndexEntry) (store : Store) :
    Ends (saveBehind contents entry) store (fun residence _ => residence ≠ .created)
      anyFailure := by
  simp only [saveBehind, ends_bind, ends_pure]
  exact (onlyWrites_append contents store).mono (fun _ _ _ hmade => by cases hmade)
    fun _ _ _ => trivial

theorem saveInPlace_ne_created (member : Member) (contents : Bytes) (store : Store) :
    Ends (saveInPlace member contents) store (fun residence _ => residence ≠ .created)
      anyFailure := by
  simp only [saveInPlace, ends_bind, ends_get]
  split
  · rw [ends_bind]
    exact (onlyWrites_appendName member.name member.entry store).mono
      (fun _ _ _ => saveBehind_ne_created _ _ _) fun _ _ _ => trivial
  split
  · simp only [setFile, ends_bind, ends_modify, ends_pure]
    exact fun hmade => by cases hmade
  · exact saveBehind_ne_created _ _ _

/-- The save lists the member under another place at most, and misses no file. -/
def Relists (member : Member) (store : Store) (change : Change Residence) : Prop :=
  Ends change store
    (fun residence store' => residence ≠ .created ∧ store.archive.Relisted member store'.archive)
    fun e store' => store.archive.Relisted member store'.archive ∧ ∀ name, e ≠ .notFound name

theorem OnlyWrites.relists {change : Change Residence} (h : OnlyWrites change)
    (hmade : Ends change store (fun residence _ => residence ≠ .created) anyFailure) :
    Relists member store change := by
  refine ((h store).and hmade).mono ?_ ?_
  · rintro _ _ ⟨hsame, hresidence⟩
    exact ⟨hresidence, .inl hsame⟩
  · rintro _ _ ⟨⟨hsame, hfound⟩, -⟩
    exact ⟨.inl hsame, hfound⟩

theorem saveAnew_relists (member : Member) (contents : Bytes) (store : Store) :
    Relists member store (saveAnew member contents) := by
  simp only [Relists, saveAnew, updateMember, update, ends_bind, ends_modify]
  have hnamed := (appendName_spec member.name member.entry store).and
    (onlyWrites_appendName member.name member.entry store)
  refine hnamed.mono ?_ ?_
  · rintro _ _ ⟨⟨stored, nameOffset, -, -, -, rfl, rfl⟩, -⟩
    have hrelisted := store.archive.relisted_relisted member nameOffset stored
    refine ((onlyWrites_saveBehind contents _ _).and
      (saveBehind_ne_created contents _ _)).mono ?_ ?_
    · rintro _ _ ⟨hsame, hresidence⟩
      exact ⟨hresidence, hsame ▸ hrelisted⟩
    · rintro _ _ ⟨⟨hsame, hfound⟩, -⟩
      exact ⟨hsame ▸ hrelisted, hfound⟩
  · rintro _ _ ⟨-, hsame, hfound⟩
    exact ⟨.inl hsame, hfound⟩

theorem save_relists (member : Member) (contents : Bytes) (store : Store) :
    Relists member store (save member contents) := by
  simp only [Relists, save, ends_bind, ends_get]
  cases store.archive.mode with
  | readOnly => exact ⟨.refl _ _, fun _ hfound => by cases hfound⟩
  | explicit => exact ⟨Residence.noConfusion, .refl _ _⟩
  | flush =>
    exact (onlyWrites_saveInPlace member contents).relists (saveInPlace_ne_created _ _ _)
  | immediate => exact saveAnew_relists member contents store

/-! ## Claiming files -/

section

variable (h : store.archive.Orderly mode encoding)

include h

theorem openFile_stands (name : String) :
    Ends (openFile name) store
      (fun contents store' => match contents with
        | none => store' = store
        | some _ => ∃ st, store.archive.standing name = some st ∧ Stands mode encoding
            (Function.update store.archive.standing name
              (some { st with readers := st.readers + 1 })) store')
      fun _ store' => store' = store := by
  simp only [openFile, expectFile, ends_bind, ends_get]
  cases hfile : store.archive.file? name with
  | none => rfl
  | some m =>
    obtain ⟨hfind, hcreated⟩ := Option.filter_eq_some_iff.mp hfile
    have hst : store.archive.standing name = some m.standing := by
      rw [Archive.standing, hfind, Option.map_some]
    simp only [ends_pure]
    split
    · rfl
    · next hwriter =>
      simp only [ends_bind, ends_get, of, ends_mk, updateMember, update, ends_modify, ends_pure]
      refine ⟨fun contents _ => ⟨_, hst, .of_change h hfind
        (f := fun m => { m with readers := m.readers + 1 }) (fun _ => rfl) ⟨?_, ?_⟩ rfl rfl rfl⟩,
        fun _ _ => trivial⟩
      · exact fun hw => absurd hw hwriter
      · exact (h.sound _ _ hst).made

theorem openFileMut_stands (name : String) :
    Ends (openFileMut name) store
      (fun contents store' => match contents with
        | none => store' = store
        | some _ => ∃ st, store.archive.standing name = some st ∧ st.readers = 0
            ∧ st.writer = false ∧ Stands mode encoding (Function.update store.archive.standing name
              (some { st with writer := true })) store')
      fun _ store' => store' = store := by
  simp only [openFileMut, checkWritable, expectFile, ends_bind, ends_get]
  split
  · rfl
  simp only [ends_pure]
  cases hfile : store.archive.file? name with
  | none => rfl
  | some m =>
    obtain ⟨hfind, hcreated⟩ := Option.filter_eq_some_iff.mp hfile
    have hst : store.archive.standing name = some m.standing := by
      rw [Archive.standing, hfind, Option.map_some]
    simp only [ends_pure]
    split
    · rfl
    · next hbusy =>
      obtain ⟨hwriter, hreaders⟩ : m.writer = false ∧ m.readers = 0 := by
        simpa [Member.isBusy] using hbusy
      simp only [ends_bind, ends_get, of, ends_mk, updateMember, update, ends_modify, ends_pure]
      exact ⟨fun contents _ => ⟨_, hst, hreaders, hwriter, .of_change h hfind
        (f := fun m => { m with writer := true }) (fun _ => rfl) ⟨fun _ => hreaders, fun _ => rfl⟩
        rfl rfl rfl⟩, fun _ _ => trivial⟩

/-- A file that is made stands as if a handle that made it had been opened on it. -/
theorem createFile_stands (hsurvives : encoding.Survives name) :
    Ends (createFile name) store
      (fun made store' => match made with
        | false => store' = store
        | true => ∃ st, (store.archive.standing name).getD ⟨0, false, true⟩ = st ∧ st.readers = 0
            ∧ st.writer = false ∧ Stands mode encoding (Function.update store.archive.standing name
              (some { st with writer := true })) store')
      fun _ store' => store' = store := by
  simp only [createFile, checkWritable, ends_bind, ends_get]
  split
  · rfl
  simp only [ends_pure]
  cases hfind : store.archive.find? name with
  | some m =>
    have hst : store.archive.standing name = some m.standing := by
      rw [Archive.standing, hfind, Option.map_some]
    dsimp only
    split
    · rfl
    · next hbusy =>
      obtain ⟨hwriter, hreaders⟩ : m.writer = false ∧ m.readers = 0 := by
        simpa [Member.isBusy] using hbusy
      simp only [updateMember, update, ends_bind, ends_modify, ends_pure]
      rw [hst]
      exact ⟨_, rfl, hreaders, hwriter, .of_change h hfind
        (f := fun m => { m with writer := true }) (fun _ => rfl) ⟨fun _ => hreaders, fun _ => rfl⟩
        rfl rfl rfl⟩
  | none =>
    have hst : store.archive.standing name = none := by
      rw [Archive.standing, hfind, Option.map_none]
    simp only [update, ends_bind, ends_modify, ends_pure]
    exact ⟨_, by rw [hst, Option.getD_none], rfl, rfl, h.concat hfind hsurvives
      ⟨fun _ => rfl, fun _ => rfl⟩, Archive.standing_concat hfind⟩

/-! ## Giving files back -/

theorem releaseReader_stands (hst : store.archive.standing name = some st)
    (hreaders : 0 < st.readers) :
    Ends (releaseReader name) store
      (fun _ => Stands mode encoding (Function.update store.archive.standing name
        (some { st with readers := st.readers - 1 }))) noFailure := by
  obtain ⟨m, -, -, rfl, hfind⟩ := Archive.exists_of_standing hst
  have hsound := h.sound _ _ hst
  simp only [releaseReader, updateMember, update, ends_modify]
  refine .of_change h hfind (f := fun m => { m with readers := m.readers - 1 }) (fun _ => rfl)
    ⟨fun hwriter => ?_, hsound.made⟩ rfl rfl rfl
  exact absurd (hsound.alone hwriter) (Nat.ne_of_gt hreaders)

/-- A file that was only being made is gone when its handle is dropped. -/
theorem discardWriter_stands (hst : store.archive.standing name = some st) :
    Ends (discardWriter name) store
      (fun _ => Stands mode encoding (Function.update store.archive.standing name st.dropped))
      noFailure := by
  obtain ⟨m, -, -, rfl, hfind⟩ := Archive.exists_of_standing hst
  simp only [discardWriter, warn, ends_bind, ends_modify, ends_get, hfind]
  split
  · next hcreated =>
    simp only [forget, update, ends_modify]
    rw [Standing.dropped, if_pos (show m.standing.created = true from hcreated)]
    exact .of_forget h rfl rfl rfl
  · next hcreated =>
    simp only [updateMember, update, ends_modify]
    rw [Standing.dropped, if_neg (show ¬ m.standing.created = true from hcreated)]
    exact .of_change h hfind (f := fun m => { m with writer := false }) (fun _ => rfl)
      (.of_idle Bool.false_ne_true hcreated) rfl rfl rfl

/-- A file that is closed is given back, whether or not it can be saved.  It is there to be
saved. -/
theorem commit_stands (hst : store.archive.standing name = some st) (contents : Bytes) :
    Ends (commit name contents) store
      (fun _ => Stands mode encoding (Function.update store.archive.standing name
        (some { st with writer := false, created := false })))
      fun e store' => Stands mode encoding (Function.update store.archive.standing name st.dropped)
        store' ∧ ∀ other, e ≠ .notFound other := by
  obtain ⟨m, -, -, rfl, hfind⟩ := Archive.exists_of_standing hst
  simp only [commit, ends_bind, ends_get, hfind, updateMember, update, ends_modify, ends_tryCatch,
    forget]
  obtain ⟨-, rfl⟩ := Member.find?_eq_some hfind
  have hsave : Ends (save m contents) { store with archive := { store.archive with
    members := Member.change m.name (fun m => { m with writer := false })
      store.archive.members } } _ _ := save_relists m contents _
  refine hsave.mono ?_ ?_
  · -- giving the file back and saving it are one change of its member
    rintro residence store' ⟨hresidence, hrelisted⟩
    have hsame := hrelisted.saved_eq residence
    have hcreated : (residence == .created) = false := by simpa using hresidence
    have hsaved : ({ m with writer := false, residence } : Member).standing
        = { m.standing with writer := false, created := false } := by
      rw [Member.standing, Member.isCreated, hcreated, Member.standing]
    rw [← hsaved]
    refine .of_change h hfind (f := fun m => { m with writer := false, residence })
      (fun _ => rfl) (hsaved ▸ .of_idle Bool.false_ne_true Bool.false_ne_true) ?_
      hrelisted.mode_eq hrelisted.encoding_eq
    refine (congrArg Archive.members hsame).trans ?_
    exact Member.change_change fun _ => rfl
  · rintro e store' ⟨hrelisted, hfound⟩
    split
    · next hcreated =>
      rw [Standing.dropped, if_pos (show m.standing.created = true from hcreated)]
      refine ⟨.of_forget h (hrelisted.eraseP.trans ?_) hrelisted.mode_eq hrelisted.encoding_eq,
        hfound⟩
      exact Member.eraseP_change fun _ => rfl
    · next hcreated =>
      rw [Standing.dropped, if_neg (show ¬ m.standing.created = true from hcreated)]
      have hreleased : Stands mode encoding _ { store with archive := { store.archive with
          members := Member.change m.name (fun m => { m with writer := false })
            store.archive.members } } :=
        .of_change h hfind (f := fun m => { m with writer := false }) (fun _ => rfl)
          (.of_idle Bool.false_ne_true hcreated) rfl rfl rfl
      exact ⟨hreleased.relisted hrelisted, hfound⟩

/-! ## Whole files -/

theorem deleteFile_stands (name : String) :
    Ends (deleteFile name) store
      (fun deleted store' => match deleted with
        | false => store' = store
        | true => ∃ st, store.archive.standing name = some st ∧ st.readers = 0
            ∧ st.writer = false
            ∧ Stands mode encoding (Function.update store.archive.standing name none) store')
      fun _ store' => store' = store := by
  simp only [deleteFile, checkWritable, ends_bind, ends_get]
  split
  · rfl
  simp only [ends_pure]
  cases hfind : store.archive.find? name with
  | none => rfl
  | some m =>
    dsimp only
    split
    · rfl
    · next hbusy =>
      obtain ⟨⟨hwriter, hreaders⟩, -⟩ :
          (m.writer = false ∧ m.readers = 0) ∧ m.isCreated = false := by
        simpa [Member.isBusy] using hbusy
      simp only [forget, update, ends_bind, ends_modify, ends_pure]
      refine ⟨m.standing, ?_, hreaders, hwriter,
        .of_forget h rfl rfl rfl⟩
      rw [Archive.standing, hfind, Option.map_some]

/-- Writing a whole file claims it and gives it back. -/
theorem writeAll_keeps (hsurvives : encoding.Survives name) (contents : Bytes) :
    Ends (writeAll name contents) store
      (fun _ store' => store'.archive.Orderly mode encoding
        ∧ store'.archive.count = store.archive.count)
      fun _ store' => store'.archive.Orderly mode encoding
        ∧ store'.archive.count = store.archive.count := by
  simp only [writeAll, ends_bind]
  refine (createFile_stands h hsurvives).mono ?_ ?_
  · rintro (_ | _) made hmade
    · obtain rfl := hmade
      exact ⟨h, rfl⟩
    · obtain ⟨st, hst, hreaders, hwriter, hclaimed⟩ := hmade
      have hcounted (kind : HandleKind) : store.archive.count kind name = 0 := by
        rw [Archive.count_of_getD hst]
        cases kind <;> simp [Standing.count, hreaders, hwriter]
      have hname : made.archive.standing name = some { st with writer := true } := by
        rw [hclaimed.standing_eq, Function.update_self]
      -- what becomes of the file, no handle on it is counted
      have hback {new : Option Standing} {store' : Store}
          (hback : Stands mode encoding (Function.update made.archive.standing name new) store')
          (hnew : ∀ kind, new.elim 0 (·.count kind) = 0) :
          store'.archive.Orderly mode encoding ∧ store'.archive.count = store.archive.count := by
        refine ⟨hback.orderly, funext fun kind => funext fun other => ?_⟩
        rw [Archive.count_of_update hback.standing_eq, Archive.count_of_update hclaimed.standing_eq]
        split
        · next hother => rw [hnew, hother, hcounted]
        · rfl
      rw [if_pos rfl, ends_bind]
      refine (commit_stands hclaimed.orderly hname contents).mono ?_ ?_
      · intro _ store' hstands
        exact hback hstands fun kind => by cases kind <;> simp [Standing.count, hreaders]
      · rintro _ store' ⟨hstands, -⟩
        refine hback hstands fun kind => ?_
        rw [Standing.dropped]
        split
        · rfl
        · cases kind <;> simp [Standing.count, hreaders]
  · rintro _ _ rfl
    exact ⟨h, rfl⟩

/-! ## Flushing and packing -/

theorem writeIndex_stands :
    Ends writeIndex store (fun _ => Stands mode encoding store.archive.standing)
      fun _ => Stands mode encoding store.archive.standing := by
  simp only [writeIndex, ends_bind, ends_get, update, ends_modify, setFile]
  refine (onlyWrites_placeIndex _ store).mono ?_ ?_
  · intro offset store' hsame
    exact .of_members_eq h (by rw [hsame]) (by rw [hsame]) (by rw [hsame])
  · rintro _ store' ⟨hsame, -⟩
    exact ⟨hsame ▸ h, by rw [hsame]⟩

theorem repack_stands :
    Ends repack store (fun _ => StandsIfFits true mode encoding store.archive.standing)
      fun _ => StandsIfFits true mode encoding store.archive.standing := by
  refine (repack_image h.toNamed).mono ?_ ?_
  · rintro _ store' ⟨-, hpacked⟩ hfits
    obtain ⟨labelled, hnames, -, -, harchive⟩ := hpacked (hfits rfl)
    have horderly := h.repack hnames harchive
    exact ⟨horderly.1, horderly.2⟩
  · rintro _ store' hfailed hfits
    obtain ⟨-, harchive⟩ := hfailed (hfits rfl)
    exact ⟨harchive ▸ h, by rw [harchive]⟩

/-- In explicit mode a flush packs; otherwise it writes an index. -/
theorem flush_stands :
    Ends flush store
      (fun _ => StandsIfFits (mode == .explicit) mode encoding store.archive.standing)
      fun _ => StandsIfFits (mode == .explicit) mode encoding store.archive.standing := by
  have hindex (packs : Bool) :
      Ends (writeIndex >>= fun _ => update fun archive => { archive with dirty := false }) store
        (fun _ => StandsIfFits packs mode encoding store.archive.standing)
        fun _ => StandsIfFits packs mode encoding store.archive.standing := by
    simp only [ends_bind, update, ends_modify]
    refine (writeIndex_stands h).mono ?_ fun _ _ hstands _ => hstands
    intro _ store' hstands _
    exact hstands.standing_eq ▸ .of_members_eq hstands.orderly rfl rfl rfl
  simp only [flush, ends_bind, ends_get, h.mode_eq]
  split
  · cases mode with
    | readOnly => exact fun _ => ⟨h, rfl⟩
    | explicit => exact repack_stands h
    | flush | immediate => exact hindex false
  · exact fun _ => ⟨h, rfl⟩

theorem compact_stands :
    Ends compact store
      (fun _ => StandsIfFits (mode != .immediate) mode encoding store.archive.standing)
      fun _ => StandsIfFits (mode != .immediate) mode encoding store.archive.standing := by
  simp only [compact, checkWritable, ends_bind, ends_get]
  split
  · exact fun _ => ⟨h, rfl⟩
  simp only [ends_pure]
  split
  · next himmediate =>
    obtain rfl : mode = .immediate := h.mode_eq.symm.trans himmediate
    have hpacks : (SaveMode.immediate != .immediate) = (SaveMode.immediate == .explicit) := rfl
    simp only [warn, ends_bind, ends_modify, hpacks]
    exact flush_stands h
  · next hne =>
    have hpacks : (mode != .immediate) = true := bne_iff_ne.mpr (h.mode_eq ▸ hne)
    rw [hpacks]
    exact repack_stands h

/-! ## What is refused -/

section

variable (hst : store.archive.standing name = some st)

include hst

omit h in
theorem openFile_idles (hwriter : st.writer = true) :
    Idles (openFile name) store (if st.created then .error (.notFound name) else .ok none) := by
  obtain ⟨m, -, -, rfl, hfind⟩ := Archive.exists_of_standing hst
  have hwriter : m.writer = true := hwriter
  rw [idles_iff]
  simp only [openFile, expectFile, Archive.file?, ends_bind, ends_get, hfind, Member.standing]
  by_cases hcreated : m.isCreated = true
  · simp [hcreated, Option.filter]
  · simp [hcreated, hwriter, Option.filter]

omit h in
theorem readAll_idles (hwriter : st.writer = true) :
    Idles (readAll name) store (.error (if st.created then .notFound name else .busy name)) := by
  obtain ⟨m, -, -, rfl, hfind⟩ := Archive.exists_of_standing hst
  have hwriter : m.writer = true := hwriter
  rw [idles_iff]
  simp only [readAll, Archive.readAll, Archive.file?, ends_bind, ends_get, hfind, Member.standing,
    of, ends_mk]
  by_cases hcreated : m.isCreated = true
  · simp [hcreated, Option.filter]
  · simp [hcreated, hwriter, Option.filter]

variable (hmode : mode ≠ .readOnly) (hbusy : st.writer = true ∨ 0 < st.readers)

include hmode hbusy

theorem openFileMut_idles :
    Idles (openFileMut name) store (if st.created then .error (.notFound name) else .ok none) := by
  obtain ⟨m, -, -, rfl, hfind⟩ := Archive.exists_of_standing hst
  have hbusy := Member.isBusy_iff.mpr hbusy
  rw [idles_iff]
  simp only [openFileMut, checkWritable, expectFile, Archive.file?, ends_bind, ends_get, hfind,
    h.mode_eq, if_neg hmode, ends_pure, Member.standing]
  by_cases hcreated : m.isCreated = true
  · simp [hcreated, Option.filter]
  · simp [hcreated, hbusy, Option.filter]

theorem createFile_idles : Idles (createFile name) store (.ok false) := by
  obtain ⟨m, -, -, rfl, hfind⟩ := Archive.exists_of_standing hst
  have hbusy := Member.isBusy_iff.mpr hbusy
  rw [idles_iff]
  simp [createFile, checkWritable, hfind, h.mode_eq, hmode, hbusy]

theorem writeAll_idles (contents : Bytes) :
    Idles (writeAll name contents) store (.ok false) :=
  (createFile_idles h hst hmode hbusy).bind rfl

theorem deleteFile_idles : Idles (deleteFile name) store (.ok false) := by
  obtain ⟨m, -, -, rfl, hfind⟩ := Archive.exists_of_standing hst
  have hbusy := Member.isBusy_iff.mpr hbusy
  rw [idles_iff]
  simp [deleteFile, checkWritable, hfind, h.mode_eq, hmode, hbusy]

end

end

end Change
end NovelScript
