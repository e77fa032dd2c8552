import NovelScript.Proofs.Archive.Exclusion
import NovelScript.Proofs.Archive.Snapshots

/-!
# What a failed step leaves

A step that fails leaves the file under an archive and the files of the archive as they were, and
the archive knows of the same handles (`Session.restored`).  Only a handle that cannot be closed is
given up, and a file that it was making goes with it (`Archive.withdraw`).  Nothing is assumed of
the archive: its file may have been changed behind its back, and its names may be any.

## Where a step stops

A save writes the name of a new file before its contents, and packing reads every file before it
writes.  So only a save that stops between name and contents leaves more than there was, and it
stops there only where the file would reach 4 GiB (`Change.Overflows`).
-/

namespace NovelScript

/-! ## Giving up a file that is being written -/

namespace Member

variable {name other : String} {members : List Member} {m : Member}

/-- The members once a handle gives up writing the first one of a name.  A member that the handle
was making is gone. -/
def withdraw (name : String) : List Member → List Member
  | [] => []
  | m :: rest =>
    if m.name = name then if m.isCreated then rest else { m with writer := false } :: rest
    else m :: withdraw name rest

theorem withdraw_of_forall_ne (h : ∀ m ∈ members, m.name ≠ name) :
    withdraw name members = members := by
  induction members with
  | nil => rfl
  | cons first rest ih =>
    obtain ⟨hfirst, hrest⟩ := List.forall_mem_cons.mp h
    rw [withdraw, if_neg hfirst, ih hrest]

/-- A member that was only being made is taken out, any other is given up by its writer. -/
theorem withdraw_of_find? (h : members.find? (·.name == name) = some m) :
    withdraw name members
      = if m.isCreated then members.eraseP (·.name == name)
        else change name (fun m => { m with writer := false }) members := by
  induction members with
  | nil => cases h
  | cons first rest ih =>
    by_cases hfirst : first.name = name
    · rw [List.find?_cons_of_pos (by simpa using hfirst)] at h
      obtain rfl := Option.some.inj h
      rw [withdraw, if_pos hfirst, List.eraseP_cons_of_pos (by simpa using hfirst), change,
        if_pos hfirst]
    · rw [List.find?_cons_of_neg (by simpa using hfirst)] at h
      rw [withdraw, if_neg hfirst, ih h, List.eraseP_cons_of_neg (by simpa using hfirst), change,
        if_neg hfirst]
      split
      · rfl
      · rfl

/-- A handle that is taken and given up again leaves what giving it up leaves. -/
theorem withdraw_claim :
    withdraw name (change name (fun m => { m with writer := true }) members)
      = withdraw name members := by
  induction members with
  | nil => rfl
  | cons first rest ih =>
    by_cases hfirst : first.name = name
    · rw [change, if_pos hfirst, withdraw, if_pos hfirst, withdraw, if_pos hfirst]
      rfl
    · rw [change, if_neg hfirst, withdraw, if_neg hfirst, ih, withdraw, if_neg hfirst]

/-- A member that is made and given up again is gone. -/
theorem withdraw_concat (h : ∀ m ∈ members, m.name ≠ name) (hname : m.name = name)
    (hcreated : m.isCreated = true) : withdraw name (members ++ [m]) = members := by
  induction members with
  | nil => rw [List.nil_append, withdraw, if_pos hname, if_pos hcreated]
  | cons first rest ih =>
    obtain ⟨hfirst, hrest⟩ := List.forall_mem_cons.mp h
    rw [List.cons_append, withdraw, if_neg hfirst, ih hrest]

/-- What is withdrawn is no file, and a file keeps all but its writer. -/
theorem map_files_withdraw {α : Type} {f : Member → α}
    (hf : ∀ m : Member, f { m with writer := false } = f m) :
    ((withdraw name members).filter (!·.isCreated)).map f
      = (members.filter (!·.isCreated)).map f := by
  induction members with
  | nil => rfl
  | cons first rest ih =>
    rw [withdraw]
    split
    · split
      · next hcreated => rw [List.filter_cons_of_neg (by simpa using hcreated)]
      · next hcreated =>
        have hfile : (!first.isCreated) = true := by simpa using hcreated
        have hsame : ({ first with writer := false } : Member).isCreated = first.isCreated := rfl
        rw [List.filter_cons, List.filter_cons, hsame, if_pos hfile, if_pos hfile, List.map_cons,
          List.map_cons, hf]
    · rw [List.filter_cons, List.filter_cons]
      split
      · rw [List.map_cons, List.map_cons, ih]
      · exact ih

/-- The members of a name on which handles are open. -/
def held (name : String) (members : List Member) : List Member :=
  members.filter fun m => m.name == name && m.isBusy

/-- Members of other names are held as before. -/
theorem held_withdraw_of_ne (h : other ≠ name) :
    held other (withdraw name members) = held other members := by
  induction members with
  | nil => rfl
  | cons first rest ih =>
    rw [withdraw]
    split
    · next hname =>
      have hne : ¬ first.name = other := fun he => h (he.symm.trans hname)
      rw [held, held, List.filter_cons_of_neg (l := rest) (by simp [hne])]
      split
      · rfl
      · rw [List.filter_cons_of_neg (by simp [hne])]
    · rw [held, held, List.filter_cons, List.filter_cons]
      split
      · exact congrArg _ ih
      · exact ih

/-- Where no handle is open, none is given up. -/
theorem held_withdraw_of_idle (h : members.find? (·.name == name) = some m)
    (hidle : m.isBusy = false) : held other (withdraw name members) = held other members := by
  induction members with
  | nil => cases h
  | cons first rest ih =>
    rw [withdraw]
    by_cases hname : first.name = name
    · rw [List.find?_cons_of_pos (by simpa using hname)] at h
      obtain rfl := Option.some.inj h
      have hwriter : ({ first with writer := false } : Member) = first := by
        have hnone : first.writer = false := (Bool.or_eq_false_iff.mp hidle).1
        rw [← hnone]
      rw [if_pos hname, hwriter, held, held]
      split
      · rw [List.filter_cons_of_neg (by simp [hidle])]
      · rfl
    · rw [List.find?_cons_of_neg (by simpa using hname)] at h
      rw [if_neg hname, held, held, List.filter_cons, List.filter_cons]
      split
      · exact congrArg _ (ih h)
      · exact ih h

end Member

namespace Archive

/-- The archive once a handle gives up writing the file of a name. -/
def withdraw (archive : Archive) (name : String) : Archive :=
  { archive with members := Member.withdraw name archive.members }

/-- What an archive knows of the handles on the file of a name, as far as there are any. -/
def held (archive : Archive) (name : String) : List Standing :=
  (Member.held name archive.members).map (·.standing)

/-- The numbers of handles for reading, file by file. -/
def readers (archive : Archive) : List Nat := archive.files.map (·.readers)

variable {archive : Archive} {file : Bytes} {name other : String}

theorem listing_withdraw : (archive.withdraw name).listing file = archive.listing file :=
  Member.map_files_withdraw fun _ => rfl

theorem readers_withdraw : (archive.withdraw name).readers = archive.readers :=
  Member.map_files_withdraw fun _ => rfl

theorem held_withdraw_of_ne (h : other ≠ name) :
    (archive.withdraw name).held other = archive.held other :=
  congrArg _ (Member.held_withdraw_of_ne h)

end Archive

/-! ## Reading what is packed -/

/-- Entries of places inside the file are read, whatever the names are read as. -/
theorem Archive.exists_readMembers (encoding : Encoding) {file : Bytes} (members : List Member)
    (warnings : List ArchiveWarning) {entries : List IndexEntry}
    (h : ∀ entry ∈ entries, isOutside file.length entry = false) :
    ∃ read, (readMembers encoding file members warnings entries).result = .ok read := by
  induction entries generalizing members warnings with
  | nil => exact ⟨members, rfl⟩
  | cons entry rest ih =>
    obtain ⟨hentry, hrest⟩ := List.forall_mem_cons.mp h
    rw [readMembers, if_neg (by simp [hentry])]
    dsimp only
    split
    · exact ih _ _ hrest
    · exact ih _ _ hrest

/-- A packed file is read again, also where several names are read as one. -/
theorem Packing.exists_readIndex_image {encoding : Encoding} {unknown : UInt32}
    {named : List (String × PackedFile)}
    (hsmall : Fits (image unknown (named.map (·.2))))
    (hstored : ∀ p ∈ named, Change.storedName encoding p.1 = .ok p.2.name) :
    ∃ read, (Archive.readIndex encoding (image unknown (named.map (·.2)))).result = .ok read := by
  have hstands := stands_image hsmall hstored
  have hinside : ∀ entry ∈ (members ArchiveHeader.size (contentsOffset (named.map (·.2)))
      named).map Member.entry,
      Archive.isOutside (image unknown (named.map (·.2))).length entry = false := by
    intro entry hentry
    obtain ⟨m, hm, rfl⟩ := List.mem_map.mp hentry
    obtain ⟨p, -, -, entry, hresidence, hlocates, -, -, hend⟩ := hstands.locates hm
    have hle := Nat.le_trans hend hstands.contentsEnd
    have heq : m.entry = entry := by rw [Member.entry, hresidence]
    rw [heq, hlocates.isOutside_eq]
    exact decide_eq_false (Nat.not_lt.mpr hle)
  obtain ⟨read, hread⟩ := Archive.exists_readMembers encoding [] [] hinside
  refine ⟨(header unknown (named.map (·.2)), read), ?_⟩
  rw [Archive.readIndex_eq (header_isPrefix_image _) rfl rfl (Nat.le_of_eq (indexEnd_header hsmall))
    (region_index hsmall), hread]
  rfl

/-! ## Steps on the archive -/

/-- The archive refuses a place in its file that lies behind the limit of 4 GiB. -/
def ArchiveError.Overflows (e : ArchiveError) : Prop :=
  ∃ offset, e = .corrupt (.offsetTooLarge offset) ∧ UInt32.size ≤ offset

namespace Change

variable {store store' : Store} {name : String} {contents : Bytes} {e : ArchiveError}

/-- From one store to another, file and archive show the same, and the same handles are open. -/
structure Undone (store store' : Store) : Prop where
  file_eq : store'.file = store.file
  dirty_eq : store'.archive.dirty = store.archive.dirty
  listing_eq : store'.archive.listing store'.file = store.archive.listing store.file
  readers_eq : store'.archive.readers = store.archive.readers
  held_eq : ∀ name, store'.archive.held name = store.archive.held name

theorem Untouched.undone (h : Untouched store store') : Undone store store' := by
  obtain ⟨hfile, harchive⟩ := h
  constructor <;> simp only [hfile, harchive, implies_true]

theorem undone_self (store : Store) : Undone store store := Untouched.undone ⟨rfl, rfl⟩

theorem overflows_of_fit {offset : Nat} (h : fit offset = .error e) : e.Overflows := by
  unfold fit at h
  split at h
  · cases h
  · next hlarge =>
    refine ⟨offset, (Except.error.inj h).symm, ?_⟩
    show 4294967296 ≤ offset
    omega

/-! ### Saving -/

theorem append_overflows (octets : Bytes) (store : Store) :
    Ends (append octets) store (fun _ _ => True) fun e _ => e.Overflows := by
  simp only [append, ends_bind, ends_get, ends_discard, of, ends_mk, setFile, ends_modify]
  exact ⟨fun _ _ => ⟨fun _ _ => trivial, fun _ => overflows_of_fit⟩, fun _ => overflows_of_fit⟩

theorem saveBehind_overflows (contents : Bytes) (entry : IndexEntry) (store : Store) :
    Ends (saveBehind contents entry) store (fun _ _ => True) fun e _ => e.Overflows := by
  simp only [saveBehind, ends_bind, ends_pure]
  exact append_overflows contents store

/-- Where the name is already written, nothing but the limit may stop the contents. -/
theorem saveNamed_undone (contents : Bytes) (name : String) (entry : IndexEntry) (store : Store) :
    Ends (do saveBehind contents (← appendName name entry)) store (fun _ _ => True)
      fun e store' => e.Overflows ∨ store' = store := by
  rw [ends_bind]
  refine (appendName_spec name entry store).mono (fun _ _ _ => ?_) fun _ _ he => .inr he
  exact (saveBehind_overflows contents _ _).mono (fun _ _ => id) fun _ _ => .inl

theorem saveAnew_undone (member : Member) (contents : Bytes) (store : Store) :
    Ends (saveAnew member contents) store (fun _ _ => True)
      fun e store' => e.Overflows ∨ store' = store := by
  simp only [saveAnew, updateMember, update, ends_bind, ends_modify]
  refine (appendName_spec _ _ store).mono (fun _ _ _ => ?_) fun _ _ he => .inr he
  exact (saveBehind_overflows contents _ _).mono (fun _ _ => id) fun _ _ => .inl

theorem saveBehind_undone (contents : Bytes) (entry : IndexEntry) (store : Store) :
    Ends (saveBehind contents entry) store (fun _ _ => True)
      fun e store' => e.Overflows ∨ store' = store :=
  (saveBehind_spec contents entry store).mono (fun _ _ _ => trivial) fun _ _ => .inr

/-- A save that fails leaves all as it was, unless the file has become too large. -/
theorem save_undone (member : Member) (contents : Bytes) (store : Store) :
    Ends (save member contents) store (fun _ _ => True)
      fun e store' => e.Overflows ∨ store' = store := by
  simp only [save, ends_bind, ends_get]
  split
  · exact .inr rfl
  · trivial
  · simp only [saveInPlace, ends_bind, ends_get]
    split
    · exact saveNamed_undone contents member.name member.entry store
    split
    · simp only [setFile, ends_bind, ends_modify, ends_pure]
    · exact saveBehind_undone contents member.entry store
  · exact saveAnew_undone member contents store

/-- A handle that cannot be closed is given up. -/
theorem commit_undone (name : String) (contents : Bytes) (store : Store) :
    Ends (commit name contents) store (fun _ _ => True)
      fun e store' => e.Overflows
        ∨ store' = { store with archive := store.archive.withdraw name } := by
  simp only [commit, ends_bind, ends_get]
  cases hfind : store.archive.find? name with
  | none =>
    refine .inr ?_
    rw [Archive.withdraw, Member.withdraw_of_forall_ne (Member.find?_eq_none_iff.mp hfind)]
  | some member =>
    have hwithdraw := Member.withdraw_of_find? hfind
    simp only [updateMember, update, ends_bind, ends_modify, ends_tryCatch, forget]
    refine (save_undone member contents _).mono (fun _ _ _ => trivial) fun e store₁ hfailed => ?_
    split
    · next hcreated =>
      have herased : (Member.change name (fun m => { m with writer := false })
            store.archive.members).eraseP (·.name == name)
          = Member.withdraw name store.archive.members := by
        rw [hwithdraw, if_pos hcreated]
        exact Member.eraseP_change fun _ => rfl
      refine hfailed.imp id ?_
      rintro rfl
      simp only [Archive.withdraw, herased]
    · next hcreated =>
      rw [if_neg hcreated] at hwithdraw
      refine hfailed.imp id ?_
      rintro rfl
      simp only [Archive.withdraw, hwithdraw]

/-- Making a file as a whole takes its name for a while, and gives it back if that fails. -/
theorem writeAll_undone (name : String) (contents : Bytes) (store : Store) :
    Ends (writeAll name contents) store (fun _ _ => True)
      fun e store' => e.Overflows ∨ Undone store store' := by
  simp only [writeAll, createFile, checkWritable, ends_bind, ends_get]
  split
  · exact .inr (undone_self store)
  simp only [ends_pure]
  cases hfind : store.archive.find? name with
  | some m =>
    dsimp only
    split
    · trivial
    · next hbusy =>
      simp only [updateMember, update, ends_bind, ends_modify, ends_pure, if_true]
      refine (commit_undone name contents _).mono (fun _ _ _ => trivial) ?_
      rintro e _ (hlarge | rfl)
      · exact .inl hlarge
      simp only [Archive.withdraw, Member.withdraw_claim]
      exact .inr ⟨rfl, rfl, Archive.listing_withdraw, Archive.readers_withdraw, fun other =>
        congrArg _ (Member.held_withdraw_of_idle hfind (by simpa using hbusy))⟩
  | none =>
    have hgone : Member.withdraw name
          (store.archive.members ++ [{ name, residence := .created, writer := true }])
        = store.archive.members :=
      Member.withdraw_concat (Member.find?_eq_none_iff.mp hfind) rfl rfl
    simp only [update, ends_bind, ends_modify, ends_pure, if_true]
    refine (commit_undone name contents _).mono (fun _ _ _ => trivial) ?_
    rintro e _ (hlarge | rfl)
    · exact .inl hlarge
    simp only [Archive.withdraw, hgone]
    exact .inr (undone_self store)

/-! ### Files without saving -/

theorem openFile_undone (name : String) (store : Store) :
    Ends (openFile name) store (fun _ _ => True) fun _ store' => store' = store := by
  simp only [openFile, expectFile, ends_bind, ends_get]
  cases store.archive.file? name with
  | none => rfl
  | some m =>
    simp only [ends_pure]
    split
    · trivial
    · simp only [ends_bind, ends_get, of, ends_mk, updateMember, update, ends_modify, ends_pure,
        implies_true, and_self]

theorem openFileMut_undone (name : String) (store : Store) :
    Ends (openFileMut name) store (fun _ _ => True) fun _ store' => store' = store := by
  simp only [openFileMut, checkWritable, expectFile, ends_bind, ends_get]
  split
  · rfl
  simp only [ends_pure]
  cases store.archive.file? name with
  | none => rfl
  | some m =>
    simp only [ends_pure]
    split
    · trivial
    · simp only [ends_bind, ends_get, of, ends_mk, updateMember, update, ends_modify, ends_pure,
        implies_true, and_self]

theorem createFile_undone (name : String) (store : Store) :
    Ends (createFile name) store (fun _ _ => True) fun _ store' => store' = store := by
  simp only [createFile, checkWritable, ends_bind, ends_get]
  split
  · rfl
  simp only [ends_pure]
  cases store.archive.find? name with
  | none => simp only [update, ends_bind, ends_modify, ends_pure]
  | some m =>
    dsimp only
    split
    · trivial
    · simp only [updateMember, update, ends_bind, ends_modify, ends_pure]

theorem deleteFile_undone (name : String) (store : Store) :
    Ends (deleteFile name) store (fun _ _ => True) fun _ store' => store' = store := by
  simp only [deleteFile, checkWritable, ends_bind, ends_get]
  split
  · rfl
  simp only [ends_pure]
  cases store.archive.find? name with
  | none => trivial
  | some m =>
    dsimp only
    split
    · trivial
    · simp only [forget, update, ends_bind, ends_modify, ends_pure]

/-! ### Making the file show the changes -/

theorem writeIndex_undone (store : Store) :
    Ends writeIndex store (fun _ _ => True) fun _ store' => store' = store := by
  simp only [writeIndex, placeIndex, ends_bind, ends_get, update, ends_modify, setFile]
  split
  · simp only [ends_bind, ends_modify, ends_pure]
  · exact (append_spec _ store).imp fun _ _ _ => trivial

/-- Below 4 GiB, packing fails before the file is touched: what it writes is read again, whatever
the names of the files are read as. -/
theorem repack_undone (store : Store) :
    Ends repack store (fun _ _ => True)
      fun _ store' => Fits store'.file → Untouched store store' := by
  simp only [repack, ends_bind, ends_get, of, ends_mk, ends_modify, update]
  refine ⟨fun named hnamed => ⟨fun _ _ => ⟨fun packed hpacked => ⟨fun _ _ => trivial, ?_⟩,
    fun _ _ _ => ⟨rfl, rfl⟩⟩, fun _ _ _ => ⟨rfl, rfl⟩⟩, fun _ _ _ => ⟨rfl, rfl⟩⟩
  intro e he hfits
  obtain ⟨labelled, rfl, -, hlabelled⟩ := exists_packed hnamed hpacked
  obtain ⟨members, hmembers⟩ :=
    Packing.exists_readIndex_image hfits fun p hp => (hlabelled p hp).1
  rw [hmembers] at he
  cases he

theorem flush_undone (store : Store) :
    Ends flush store (fun _ _ => True)
      fun _ store' => Fits store'.file → Untouched store store' := by
  have hindex : Ends (writeIndex >>= fun _ => update fun archive => { archive with dirty := false })
      store (fun _ _ => True) fun _ store' => Fits store'.file → Untouched store store' := by
    simp only [ends_bind, update, ends_modify]
    refine (writeIndex_undone store).mono (fun _ _ => id) ?_
    rintro _ _ rfl -
    exact ⟨rfl, rfl⟩
  simp only [flush, ends_bind, ends_get]
  split
  · split
    · trivial
    · exact repack_undone store
    · exact hindex
    · exact hindex
  · trivial

theorem compact_undone (store : Store) :
    Ends compact store (fun _ _ => True)
      fun _ store' => Fits store'.file → Untouched store store' := by
  simp only [compact, checkWritable, ends_bind, ends_get]
  split
  · exact fun _ => ⟨rfl, rfl⟩
  simp only [ends_pure]
  split
  · simp only [warn, ends_bind, ends_modify]
    exact flush_undone _
  · exact repack_undone store

end Change

/-! ## Sessions -/

/-- The step, done in a session, fails and leads to another one.  Neither the file nor an offset
that is refused reaches 4 GiB. -/
structure Work.Fails {α : Type} (work : Work α) (session : Session) (e : SessionError)
    (after : Session) : Prop where
  run : (work.run.run session : Except SessionError α × Session) = (.error e, after)
  fits : ∀ file, after.file = some file → Fits file
  small : ∀ offset, e = .archive (.corrupt (.offsetTooLarge offset)) → offset < UInt32.size

/-- The number of the handle that an operation closes. -/
def Operation.closed? : Operation → Option Nat
  | closeHandle number => some number
  | _ => none

/-- The name of the file that an operation gives up writing if it fails. -/
def Operation.givenUp? (op : Operation) (session : Session) : Option String :=
  op.closed?.bind fun number => (session.handles.lookup number).bind fun handle =>
    if handle.kind = .writer then some handle.name else none

/-- After an operation that has failed, a session on an archive is as it was before: so is the file,
whether the archive has changes, which files it has in which order with what contents, and which
handles are open on them.  Only a handle that was to be closed is given up. -/
structure Session.Restored (session : Session) (op : Operation) (after : Session) : Prop where
  file_eq : after.file = session.file
  dirty_eq : after.archive.map (·.dirty) = session.archive.map (·.dirty)
  listing_eq : after.listing = session.listing
  handles_eq : after.handles = session.handles.filter fun entry => op.closed? ≠ some entry.1
  readers_eq : after.archive.map (·.readers) = session.archive.map (·.readers)
  held_eq : ∀ name, op.givenUp? session ≠ some name →
    after.archive.map (·.held name) = session.archive.map (·.held name)
  withdraw_eq : ∀ name, op.givenUp? session = some name →
    after.archive = session.archive.map (·.withdraw name)

namespace Session

variable {session after : Session} {archive : Archive} {file : Bytes} {store : Store}
  {op : Operation} {number : Nat} {found : Handle}

/-- A step on the archive that is undone leaves the session as it was. -/
theorem restored_of_undone (harchive : session.archive = some archive)
    (hfile : session.file = some file) (hop : op.closed? = none)
    (h : Change.Undone ⟨file, session.scratch, archive, session.warnings⟩ store) :
    session.Restored op (session.withStore store) where
  file_eq := by
    rw [hfile]
    exact congrArg some h.file_eq
  dirty_eq := by
    rw [harchive]
    exact congrArg some h.dirty_eq
  listing_eq := by
    simp only [listing, harchive, hfile, withStore, Option.getD_some]
    exact h.listing_eq
  handles_eq := by simp [withStore, hop]
  readers_eq := by
    rw [harchive]
    exact congrArg some h.readers_eq
  held_eq name _ := by
    rw [harchive]
    exact congrArg some (h.held_eq name)
  withdraw_eq _ hname := by simp [Operation.givenUp?, hop] at hname

/-- A session that is left alone is as it was, if no handle of it was to be closed. -/
theorem restored_self (h : ∀ number, op.closed? = some number →
    session.handles.lookup number = none) : session.Restored op session where
  file_eq := rfl
  dirty_eq := rfl
  listing_eq := rfl
  handles_eq := by
    refine (List.filter_eq_self.mpr fun entry hentry => ?_).symm
    simp only [decide_eq_true_eq]
    intro hclosed
    simpa using List.lookup_eq_none_iff.mp (h entry.1 hclosed) entry hentry
  readers_eq := rfl
  held_eq _ _ := rfl
  withdraw_eq name hname := by
    obtain ⟨number, hclosed, hgiven⟩ := Option.bind_eq_some_iff.mp hname
    rw [h number hclosed] at hgiven
    cases hgiven

/-- A handle for writing that cannot be closed is given up, and nothing else is. -/
theorem restored_of_withdraw (harchive : session.archive = some archive)
    (hfile : session.file = some file) (hlookup : session.handles.lookup number = some found)
    (hkind : found.kind = .writer)
    (hafter : after = { session with
      handles := session.handles.filter (·.1 ≠ number)
      archive := some (archive.withdraw found.name) }) :
    session.Restored (.closeHandle number) after := by
  have hgiven : (Operation.closeHandle number).givenUp? session = some found.name := by
    simp [Operation.givenUp?, Operation.closed?, hlookup, hkind]
  subst hafter
  constructor
  case file_eq => rfl
  case dirty_eq =>
    rw [harchive]
    rfl
  case listing_eq =>
    simp only [listing, harchive, hfile, Option.getD_some]
    exact Archive.listing_withdraw
  case handles_eq =>
    refine List.filter_congr fun entry _ => ?_
    simp [Operation.closed?, eq_comm]
  case readers_eq =>
    rw [harchive]
    exact congrArg some Archive.readers_withdraw
  case held_eq =>
    intro name hname
    rw [hgiven] at hname
    rw [harchive]
    exact congrArg some (Archive.held_withdraw_of_ne fun he => hname (by rw [he]))
  case withdraw_eq =>
    intro name hname
    obtain rfl := Option.some.inj (hgiven.symm.trans hname)
    rw [harchive]
    rfl

end Session

namespace Work

variable {α : Type} {session : Session} {archive : Archive} {file : Bytes} {change : Change α}
  {op : Operation}

/-- How a failed operation has to end. -/
def Restores (session : Session) (op : Operation) (e : SessionError) (after : Session) : Prop :=
  (∀ file, after.file = some file → Fits file) →
  (∀ offset, e = .archive (.corrupt (.offsetTooLarge offset)) → offset < UInt32.size) →
  session.Restored op after

variable (harchive : session.archive = some archive) (hfile : session.file = some file)

include harchive hfile

/-- A handle is given back without failing, whichever handles are left. -/
theorem release_answers (handles : List (Nat × Handle)) (handle : Handle) :
    Ends (release handle) { session with handles } (fun _ _ => True) noFailure := by
  have harchive' : ({ session with handles } : Session).archive = some archive := harchive
  exact (release_spares harchive' hfile handle).imp fun _ _ _ => trivial

/-- A handle is kept, and the handle that had its number is given back, without failing. -/
theorem keep_answers (number : Nat) (handle : Handle) :
    Ends (keep number handle) session (fun _ _ => True) noFailure := by
  simp only [keep, ends_bind, ends_get, ends_modify]
  cases session.handles.lookup number with
  | none => trivial
  | some old => exact release_answers harchive hfile _ old

/-- A step on the archive that is undone where it fails. -/
theorem on_restores (hop : op.closed? = none)
    (h : Ends change ⟨file, session.scratch, archive, session.warnings⟩ (fun _ _ => True)
      fun e store => e.Overflows ∨ (Fits store.file →
        Change.Undone ⟨file, session.scratch, archive, session.warnings⟩ store)) :
    Ends (on change) session (fun _ after => ∃ store, after = session.withStore store)
      (Restores session op) := by
  rw [ends_on harchive hfile]
  refine h.mono (fun _ store _ => ⟨store, rfl⟩) ?_
  rintro e store (⟨offset, rfl, hlarge⟩ | hundone) hfits hsmall
  · exact absurd (hsmall offset rfl) (Nat.not_lt.mpr hlarge)
  · exact Session.restored_of_undone harchive hfile hop (hundone (hfits _ rfl))

/-- A step on the archive that changes nothing where it fails. -/
theorem on_restores_of_self (hop : op.closed? = none)
    (h : ∀ store, Ends change store (fun _ _ => True) fun _ store' => store' = store) :
    Ends (on change) session (fun _ after => ∃ store, after = session.withStore store)
      (Restores session op) := by
  refine on_restores harchive hfile hop ((h _).mono (fun _ _ => id) ?_)
  rintro _ _ rfl
  exact .inr fun _ => Change.undone_self _

theorem on_restores_of_untouched (hop : op.closed? = none)
    (h : ∀ store, Ends change store (fun _ _ => True)
      fun _ store' => Fits store'.file → Change.Untouched store store') :
    Ends (on change) session (fun _ after => ∃ store, after = session.withStore store)
      (Restores session op) :=
  on_restores harchive hfile hop ((h _).mono (fun _ _ => id) fun _ _ huntouched =>
    .inr fun hfits => (huntouched hfits).undone)

theorem closeHandle_restores (number : Nat) :
    Ends (closeHandle number) session (fun _ _ => True)
      (Restores session (.closeHandle number)) := by
  simp only [closeHandle, ends_bind]
  refine (handle_found harchive number).mono ?_ ?_
  · rintro found _ ⟨rfl, hlookup⟩
    simp only [forget, ends_modify]
    cases hkind : found.kind with
    | reader => exact (release_answers harchive hfile _ found).of_noFailure
    | writer =>
      dsimp only
      refine Iff.mpr (ends_on harchive hfile) ?_
      refine (Change.commit_undone found.name found.cursor.contents _).mono (fun _ _ => id) ?_
      rintro e store (⟨offset, rfl, hlarge⟩ | rfl) - hsmall
      · exact absurd (hsmall offset rfl) (Nat.not_lt.mpr hlarge)
      · refine Session.restored_of_withdraw harchive hfile hlookup hkind ?_
        simp only [Session.withStore, hfile]
  · rintro _ _ ⟨rfl, hlookup⟩ - -
    refine Session.restored_self fun other hclosed => ?_
    obtain rfl := Option.some.inj hclosed
    exact hlookup

end Work

namespace Operation

variable {session : Session} {archive : Archive} {file : Bytes}

/-- An operation on the copy of a handle that fails does nothing. -/
theorem undone_of_isLocal (harchive : session.archive = some archive) {op : Operation}
    (hop : op.isLocal = true) :
    Ends op.work session (fun _ _ => True) fun _ after => after = session := by
  cases op with
  | readHandle number count =>
    simp only [work, Work.readHandle, ends_bind, ends_discard, ends_pure]
    refine (Work.handle_spec harchive number).imp fun found _ _ => ?_
    simp only [Work.setCursor, ends_modify]
  | seekHandle number whence offset =>
    simp only [work, Work.seekHandle, ends_bind, ends_discard, ends_pure]
    refine (Work.handle_spec harchive number).imp ?_
    rintro found _ ⟨rfl, -⟩
    split
    · rfl
    · simp only [Work.setCursor, ends_bind, ends_modify, ends_pure]
  | writeHandle number octets =>
    simp only [work, Work.writeHandle, ends_bind, ends_discard, ends_pure]
    refine (Work.writer_spec harchive number).imp fun found _ _ => ?_
    simp only [Work.setCursor, ends_modify]
  | resizeHandle number size =>
    simp only [work, Work.resizeHandle, ends_bind, ends_pure]
    refine (Work.writer_spec harchive number).imp fun found _ _ => ?_
    simp only [Work.setCursor, ends_modify]
  | _ => cases hop

/-- An operation that fails is undone. -/
theorem ends_restored (harchive : session.archive = some archive) (hfile : session.file = some file)
    (op : Operation) :
    Ends op.work session (fun _ _ => True) (Work.Restores session op) := by
  have hself {op : Operation} (hop : op.closed? = none) : session.Restored op session :=
    Session.restored_self fun number hclosed => by simp [hop] at hclosed
  have hlocal (hop : op.isLocal = true) (hclosed : op.closed? = none) :
      Ends op.work session (fun _ _ => True) (Work.Restores session op) := by
    refine (undone_of_isLocal harchive hop).mono (fun _ _ => id) ?_
    rintro _ _ rfl - -
    exact hself hclosed
  cases op with
  | writeAll name contents =>
    rw [work]
    refine (Work.on_restores harchive hfile rfl ?_).imp fun _ _ _ => trivial
    exact (Change.writeAll_undone name contents _).mono (fun _ _ => id)
      fun _ _ hfailed => hfailed.imp id fun hundone _ => hundone
  | createFile number name =>
    simp only [work, Work.createFile, ends_bind]
    refine (Work.on_restores_of_self harchive hfile rfl (Change.createFile_undone name)).imp ?_
    rintro (_ | _) _ ⟨store, rfl⟩
    · trivial
    · rw [if_pos rfl, ends_bind]
      exact (Work.keep_answers rfl rfl number _).of_noFailure
  | openFile number name =>
    simp only [work, Work.openFile, ends_bind]
    refine (Work.on_restores_of_self harchive hfile rfl (Change.openFile_undone name)).imp ?_
    rintro (_ | contents) _ ⟨store, rfl⟩
    · trivial
    · rw [ends_bind]
      exact (Work.keep_answers rfl rfl number _).of_noFailure
  | openFileMut number name =>
    simp only [work, Work.openFileMut, ends_bind]
    refine (Work.on_restores_of_self harchive hfile rfl (Change.openFileMut_undone name)).imp ?_
    rintro (_ | contents) _ ⟨store, rfl⟩
    · trivial
    · rw [ends_bind]
      exact (Work.keep_answers rfl rfl number _).of_noFailure
  | readHandle | seekHandle | writeHandle | resizeHandle => exact hlocal rfl rfl
  | closeHandle number =>
    simp only [work, ends_bind, ends_pure]
    exact Work.closeHandle_restores harchive hfile number
  | dropHandle number =>
    simp only [work, Work.dropHandle, Work.forget, ends_bind, ends_modify, ends_pure]
    refine (Work.handle_spec harchive number).mono ?_ ?_
    · rintro found _ ⟨rfl, -⟩
      exact (Work.release_answers harchive hfile _ found).of_noFailure
    · rintro _ _ rfl - -
      exact hself rfl
  | deleteFile name =>
    rw [work]
    exact (Work.on_restores_of_self harchive hfile rfl (Change.deleteFile_undone name)).imp
      fun _ _ _ => trivial
  | flush =>
    simp only [work, ends_bind, ends_pure]
    exact (Work.on_restores_of_untouched harchive hfile rfl Change.flush_undone).imp
      fun _ _ _ => trivial
  | compact =>
    simp only [work, ends_bind, ends_pure]
    exact (Work.on_restores_of_untouched harchive hfile rfl Change.compact_undone).imp
      fun _ _ _ => trivial

end Operation

/-- **A failed operation leaves an archive as it was.**  Whatever has led to the session, also a
change of the file behind the back of the archive: the file, its files and the handles are as
before, but for a handle that was to be closed.  Reading a file as a whole changes nothing. -/
theorem Session.restored {session : Session} {archive : Archive} {file : Bytes}
    (harchive : session.archive = some archive) (hfile : session.file = some file) :
    (∀ op e after, Work.Fails op.work session e after → session.Restored op after)
      ∧ ∀ name e after, Work.Fails (Work.on (Change.readAll name)) session e after →
        after = session := by
  refine ⟨fun op e after hfails => ?_, fun name e after hfails => ?_⟩
  · exact ((op.ends_restored harchive hfile).of_run hfails.run).2 e rfl hfails.fits hfails.small
  · exact (Work.readAll_spec harchive hfile name).after hfails.run

/-- An archive with a changed file and one that is read, whose file was cut off behind its back. -/
def Session.cutOff : Session :=
  let session := (Session.new .explicit .utf8).perform Operation.work
    [.writeAll "a.txt" [1, 2, 3], .flush, .openFile 1 "a.txt", .writeAll "b.txt" [4]]
  (Work.overwrite ((session.file.getD []).take 32)).after session

/-- An archive whose file was cut off cannot be packed, and still has what it had. -/
theorem Session.restored_cutOff : ∃ (archive : Archive) (file : Bytes) (after : Session),
    cutOff.archive = some archive ∧ cutOff.file = some file
      ∧ Work.Fails Operation.flush.work cutOff (.archive (.file .shortRead)) after
      ∧ cutOff.Restored .flush after := by
  obtain ⟨archive, harchive⟩ := Option.isSome_iff_exists.mp
    (by decide +kernel : cutOff.archive.isSome = true)
  obtain ⟨file, hfile⟩ := Option.isSome_iff_exists.mp
    (by decide +kernel : cutOff.file.isSome = true)
  have hanswer : Operation.flush.work.answer cutOff = .error (.archive (.file .shortRead)) := by
    decide +kernel
  have hfails : Work.Fails Operation.flush.work cutOff (.archive (.file .shortRead))
      (Operation.flush.work.after cutOff) :=
    ⟨Prod.ext hanswer rfl, fits_of_all (by decide +kernel), by rintro _ ⟨⟩⟩
  exact ⟨archive, file, _, harchive, hfile, hfails,
    (Session.restored harchive hfile).1 .flush _ _ hfails⟩

end NovelScript
