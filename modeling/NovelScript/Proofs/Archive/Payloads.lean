import Mathlib.Logic.Relation
import NovelScript.Proofs.Archive.Opening

/-!
# What is saved in immediate mode stays in the file

In immediate mode a file is saved behind the end, name first, and never over what was there.  Only
an index is written over anything: over the old one where that comes last.  Then whatever is apart
from header and index ends where the index starts, and is kept (`Change.writeIndex_secures`).  So
the octets of a file stay to the end of the session, also when it has been written anew or deleted
(`Session.payload_stays`).

The starting file may be any that opens, with an index that lies across its header or its names.
Nothing is assumed of its members, only of what has been saved since.
-/

namespace NovelScript

/-- Header and index are inside the file. -/
structure Archive.Framed (archive : Archive) (file : Bytes) : Prop where
  size_le : ArchiveHeader.size ≤ file.length
  indexEnd_le : archive.header.indexEnd ≤ file.length

/-- The octets stand in the file at this place, apart from header and index. -/
structure Archive.Shelters (archive : Archive) (file : Bytes) (offset : Nat) (octets : Bytes) :
    Prop where
  behind : ArchiveHeader.size ≤ offset
  held : region file offset octets.length = .ok octets
  apart : octets = [] ∨ offset + octets.length ≤ archive.header.indexOffset.toNat
    ∨ archive.header.indexEnd ≤ offset

/-- The archive lists a file that has been saved behind the end of an older file, its name in front
of its contents. -/
structure Archive.Appended (archive : Archive) (file before : Bytes) (name : String)
    (octets stored : Bytes) (entry : IndexEntry) : Prop where
  stored_eq : Change.storedName archive.encoding name = .ok stored
  file_eq : file = before ++ stored ++ octets
  listed : ∃ m, archive.find? name = some m ∧ m.residence = .stored entry
  nameOffset : entry.nameOffset.toNat = before.length
  nameLength : entry.nameLength.toNat = stored.length
  dataOffset : entry.dataOffset.toNat = before.length + stored.length
  dataLength : entry.dataLength.toNat = octets.length

/-- From one archive over its file to another, header and index stay inside the file, and whatever
is apart from them stays as it is. -/
structure Archive.Secures (archive : Archive) (file : Bytes) (archive' : Archive) (file' : Bytes) :
    Prop where
  mode_eq : archive'.mode = archive.mode
  framed : archive'.Framed file'
  shelters : ∀ offset octets, archive.Shelters file offset octets →
    archive'.Shelters file' offset octets

namespace Archive

variable {archive archive' archive'' : Archive} {file file' file'' octets : Bytes} {offset : Nat}

theorem Shelters.le (h : archive.Shelters file offset octets) (hne : octets ≠ []) :
    offset + octets.length ≤ file.length :=
  le_of_region_eq_ok h.held (List.length_pos_iff.mpr hne)

/-- Octets at the end of a file are behind header and index. -/
theorem Framed.shelters (h : archive.Framed file) {added : Bytes}
    (hoffset : file.length ≤ offset) (hheld : region file' offset added.length = .ok added) :
    archive.Shelters file' offset added :=
  ⟨Nat.le_trans h.size_le hoffset, hheld, .inr (.inr (Nat.le_trans h.indexEnd_le hoffset))⟩

theorem Secures.refl (h : archive.Framed file) : archive.Secures file archive file :=
  ⟨rfl, h, fun _ _ => id⟩

theorem Secures.trans (h : archive.Secures file archive' file')
    (h' : archive'.Secures file' archive'' file'') : archive.Secures file archive'' file'' where
  mode_eq := h'.mode_eq.trans h.mode_eq
  framed := h'.framed
  shelters offset octets hshelters := h'.shelters offset octets (h.shelters offset octets hshelters)

/-- Whether there are changes has nothing to do with what is where. -/
theorem Secures.settle (h : archive.Secures file archive' file') :
    archive.Secures file { archive' with dirty := false } file' where
  mode_eq := h.mode_eq
  framed := ⟨h.framed.size_le, h.framed.indexEnd_le⟩
  shelters offset octets hshelters :=
    let kept := h.shelters offset octets hshelters
    ⟨kept.behind, kept.held, kept.apart⟩

/-- Octets behind the end leave all others alone. -/
theorem Spares.secures (h : archive.Spares file archive' file') (hframed : archive.Framed file) :
    archive.Secures file archive' file' where
  mode_eq := h.mode_eq
  framed := by
    have hle := h.grows.length_le
    refine ⟨Nat.le_trans hframed.size_le hle, ?_⟩
    rw [h.header_eq]
    exact Nat.le_trans hframed.indexEnd_le hle
  shelters offset octets hshelters := by
    obtain ⟨added, rfl⟩ := h.grows
    refine ⟨hshelters.behind, ?_, by rw [h.header_eq]; exact hshelters.apart⟩
    refine (Keeps.append file added).region_eq_ok hshelters.held (.inl hshelters.behind) ?_
    by_cases hne : octets = []
    · exact .inr (by rw [hne]; rfl)
    · exact .inl (hshelters.le hne)

end Archive

namespace Change

variable {store : Store}

/-! ## Writing the index -/

/-- An index is placed behind all octets that are apart from the old one. -/
theorem placeIndex_behind (h : store.archive.Framed store.file) (index : Bytes) :
    Ends (placeIndex index) store
      (fun start store' => ∃ file, store' = { store with file }
        ∧ start.toNat + index.length = file.length
        ∧ ∀ offset octets, store.archive.Shelters store.file offset octets → octets ≠ [] →
          offset + octets.length ≤ start.toNat ∧ region file offset octets.length = .ok octets)
      fun _ store' => store' = store := by
  simp only [placeIndex, ends_bind, ends_get]
  have hframe := h.indexEnd_le
  split
  · next hlast =>
    obtain ⟨-, hend⟩ := hlast
    simp only [setFile, ends_bind, ends_modify, ends_pure]
    have hstart : store.archive.header.indexOffset.toNat ≤ store.file.length := by
      rw [← hend, ArchiveHeader.indexEnd]
      omega
    refine ⟨_, rfl, ?_, fun offset octets hshelters hne => ?_⟩
    · rw [List.length_append, List.length_take, Nat.min_eq_left hstart]
    · -- the old index comes last, so nothing but the index is behind its start
      have hbelow : offset + octets.length ≤ store.archive.header.indexOffset.toNat := by
        have hpos := List.length_pos_iff.mpr hne
        have hle := hshelters.le hne
        rcases hshelters.apart with hnil | hbelow | habove
        · exact absurd hnil hne
        · exact hbelow
        · omega
      exact ⟨hbelow, (Keeps.take_append index hstart).region_eq_ok hshelters.held
        (.inl hshelters.behind) (.inl hbelow)⟩
  · refine (append_spec index store).imp ?_
    rintro start _ ⟨hstart, -, rfl⟩
    refine ⟨_, rfl, by rw [hstart, List.length_append], fun offset octets hshelters hne => ?_⟩
    have hle := hshelters.le hne
    exact ⟨hstart ▸ hle, (Keeps.append store.file index).region_eq_ok hshelters.held
      (.inl hshelters.behind) (.inl hle)⟩

/-- The index and the header behind it are written over nothing that is apart from them. -/
theorem writeIndex_secures (h : store.archive.Framed store.file) :
    Ends writeIndex store
      (fun _ store' => store.archive.Secures store.file store'.archive store'.file)
      fun _ store' => store' = store := by
  simp only [writeIndex, ends_bind, ends_get, update, ends_modify, setFile]
  refine (placeIndex_behind h _).imp ?_
  rintro start _ ⟨file, rfl, hend, hkept⟩
  generalize indexOctets store.archive = index at *
  have hlength : (UInt32.ofNat index.length).toNat ≤ index.length := by
    rw [UInt32.toNat_ofNat']
    exact Nat.mod_le _ _
  refine ⟨rfl, ⟨?_, ?_⟩, fun offset octets hshelters => ?_⟩
  · simp only [List.length_append, ArchiveHeader.length_write]
    omega
  · simp only [ArchiveHeader.indexEnd, List.length_append, ArchiveHeader.length_write,
      List.length_drop]
    omega
  · by_cases hne : octets = []
    · subst hne
      exact ⟨hshelters.behind, region_zero, .inl rfl⟩
    · obtain ⟨hbelow, hheld⟩ := hkept offset octets hshelters hne
      have hbehind := hshelters.behind
      have hfile : ArchiveHeader.size ≤ file.length := by omega
      refine ⟨hbehind, ?_, .inr (.inl hbelow)⟩
      exact (Keeps.header _ hfile).region_eq_ok hheld (.inl hbehind) (.inl (by omega))

theorem flush_secures (h : store.archive.Framed store.file)
    (hmode : store.archive.mode = .immediate) :
    Ends flush store
      (fun _ store' => store.archive.Secures store.file store'.archive store'.file)
      fun _ store' => store' = store := by
  simp only [flush, ends_bind, ends_get, hmode]
  split
  · simp only [ends_bind, update, ends_modify]
    exact (writeIndex_secures h).imp fun _ _ hsecures => hsecures.settle
  · exact .refl h

theorem compact_secures (h : store.archive.Framed store.file)
    (hmode : store.archive.mode = .immediate) :
    Ends compact store
      (fun _ store' => store.archive.Secures store.file store'.archive store'.file)
      fun _ store' => store.archive.Secures store.file store'.archive store'.file := by
  simp only [compact, checkWritable, ends_bind, ends_get, hmode, reduceCtorEq, if_false, if_true,
    ends_pure, warn, ends_modify]
  have hflushed : Ends flush
      { store with warnings := store.warnings ++ [.compactionUnavailable] } _ _ :=
    flush_secures h hmode
  refine hflushed.mono (fun _ _ => id) ?_
  rintro _ _ rfl
  exact .refl h

/-! ## Saving -/

theorem createFile_members (name : String) (store : Store) :
    Ends (createFile name) store
      (fun _ store' => ∃ members, store' = { store with
        archive := { store.archive with members } })
      anyFailure := by
  simp only [createFile, checkWritable, ends_bind, ends_get]
  split
  · trivial
  simp only [ends_pure]
  cases store.archive.find? name with
  | some m =>
    dsimp only
    split
    · exact ⟨store.archive.members, rfl⟩
    · simp only [updateMember, update, ends_bind, ends_modify, ends_pure]
      exact ⟨_, rfl⟩
  | none =>
    simp only [update, ends_bind, ends_modify, ends_pure]
    exact ⟨_, rfl⟩

/-- A save that fails makes the handle fail. -/
theorem commit_fails {member : Member} {name : String} {Q : Unit → Store → Prop} (e : ArchiveError)
    (store : Store) :
    Ends (do
      if member.isCreated then forget name
      throw e) store Q anyFailure := by
  split
  · simp only [forget, update, ends_bind, ends_modify, ends_throw]
    trivial
  · trivial

theorem commit_appends (hmode : store.archive.mode = .immediate) (name : String) (octets : Bytes) :
    Ends (commit name octets) store
      (fun _ store' => ∃ stored entry,
        store'.archive.Appended store'.file store.file name octets stored entry)
      anyFailure := by
  simp only [commit, ends_bind, ends_get]
  cases hfind : store.archive.find? name with
  | none => trivial
  | some member =>
    obtain ⟨-, hname⟩ := Member.find?_eq_some hfind
    simp only [updateMember, update, ends_bind, ends_modify, ends_tryCatch, save, ends_get, hmode]
    refine (saveAnew_spec octets _).mono ?_ fun e _ _ => commit_fails e _
    rintro residence _ ⟨stored, nameOffset, dataOffset, hstored, hnameOffset, hdataOffset, hdataEnd,
      rfl, rfl⟩
    simp only [List.length_append] at hdataOffset hdataEnd
    have hreleased := Member.find?_change (f := fun m => { m with writer := false })
      (fun _ => rfl) hfind
    subst hname
    exact ⟨stored, _, hstored, rfl,
      ⟨_, Member.find?_change (fun _ => rfl)
        (Member.find?_change (Member.name_relist _) hreleased), rfl⟩,
      hnameOffset, UInt32.toNat_ofNat_of_lt' (by omega), hdataOffset,
      UInt32.toNat_ofNat_of_lt' (by omega)⟩

theorem writeAll_appends (hmode : store.archive.mode = .immediate) (name : String)
    (octets : Bytes) :
    Ends (writeAll name octets) store
      (fun answer store' => answer = true → ∃ stored entry,
        store'.archive.Appended store'.file store.file name octets stored entry)
      anyFailure := by
  simp only [writeAll, ends_bind]
  refine (createFile_members name store).imp ?_
  rintro (_ | _) _ ⟨members, rfl⟩
  · intro hanswer
    cases hanswer
  · rw [if_pos rfl, ends_bind]
    have hcommit : Ends (commit name octets)
        { store with archive := { store.archive with members } } _ _ :=
      commit_appends (by exact hmode) name octets
    exact hcommit.imp fun _ _ happended _ => happended

end Change

/-! ## Sessions -/

/-- An archive is open in immediate mode, and its header and index are inside the file. -/
structure Session.Appending (session : Session) (archive : Archive) (file : Bytes) : Prop where
  archive_eq : session.archive = some archive
  file_eq : session.file = some file
  mode_eq : archive.mode = .immediate
  framed : archive.Framed file

/-- What a program does next in a session: an operation, whatever comes of it, or reading a file as
a whole. -/
inductive Session.Step (session : Session) : Session → Prop where
  | operate (op : Operation) : Step session (op.work.after session)
  | readAll (name : String) : Step session ((Work.on (Change.readAll name)).after session)

/-- What holds however a step ends holds of the session after it. -/
theorem Work.after_of_ends {α : Type} {work : Work α} {session : Session} {P : Session → Prop}
    (h : Ends work session (fun _ => P) fun _ => P) : P (work.after session) :=
  h.after (Prod.ext rfl rfl)

/-- What a program leads a session to, step by step. -/
abbrev Session.Continues : Session → Session → Prop := Relation.ReflTransGen Session.Step

/-- The name and the contents that an operation saves, if it comes to that. -/
def Operation.saved? (session : Session) : Operation → Option (String × Bytes)
  | writeAll name contents => some (name, contents)
  | closeHandle number =>
    match session.handles.lookup number with
    | some ⟨.writer, name, cursor⟩ => some (name, cursor.contents)
    | _ => none
  | _ => none

namespace Session

variable {session after later : Session} {archive : Archive} {file : Bytes}

/-- The session goes on over a file in which all that was apart from header and index still is. -/
def Secures (archive : Archive) (file : Bytes) (after : Session) : Prop :=
  ∃ archive' file', after.Appending archive' file' ∧ archive.Secures file archive' file'

theorem Appending.withStore (h : session.Appending archive file) {store : Store}
    (hsecures : archive.Secures file store.archive store.file) :
    Secures archive file (session.withStore store) :=
  ⟨store.archive, store.file, ⟨rfl, rfl, hsecures.mode_eq.trans h.mode_eq, hsecures.framed⟩,
    hsecures⟩

/-- Every operation keeps what is apart from header and index. -/
theorem Appending.operate (h : session.Appending archive file) (op : Operation) :
    Ends op.work session (fun _ => Secures archive file) fun _ => Secures archive file := by
  by_cases hop : op.settles = true
  · cases op with
    | flush =>
      simp only [Operation.work, ends_bind, ends_pure]
      rw [Work.ends_on h.archive_eq h.file_eq]
      refine (Change.flush_secures h.framed h.mode_eq).mono ?_ ?_
      · exact fun _ store hsecures => h.withStore hsecures
      · rintro _ _ rfl
        exact h.withStore (.refl h.framed)
    | compact =>
      simp only [Operation.work, ends_bind, ends_pure]
      rw [Work.ends_on h.archive_eq h.file_eq]
      refine (Change.compact_secures h.framed h.mode_eq).mono ?_ ?_
      · exact fun _ store hsecures => h.withStore hsecures
      · exact fun _ store hsecures => h.withStore hsecures
    | _ => cases hop
  · have hspared : ∀ after, session.Spares after → Secures archive file after := by
      intro after hspares
      obtain ⟨archive', file', harchive', hfile', hspares⟩ :=
        hspares.archive archive file h.archive_eq h.file_eq
      have hsecures := hspares.secures h.framed
      exact ⟨archive', file', ⟨harchive', hfile', hsecures.mode_eq.trans h.mode_eq,
        hsecures.framed⟩, hsecures⟩
    refine (Operation.spares h.archive_eq h.file_eq ?_ (by simpa using hop)).mono ?_ ?_
    · rw [h.mode_eq]
      decide
    · exact fun _ after => hspared after
    · exact fun _ after => hspared after

/-- However a session goes on, what is apart from header and index is kept. -/
theorem Appending.continues (h : session.Appending archive file) (hrun : session.Continues later) :
    Secures archive file later := by
  induction hrun with
  | refl => exact ⟨archive, file, h, .refl h.framed⟩
  | tail _ hstep ih =>
    obtain ⟨archive₁, file₁, h₁, hsecures₁⟩ := ih
    cases hstep with
    | operate op =>
      obtain ⟨archive₂, file₂, h₂, hsecures₂⟩ := Work.after_of_ends (h₁.operate op)
      exact ⟨archive₂, file₂, h₂, hsecures₁.trans hsecures₂⟩
    | readAll name =>
      rw [Work.after_of_ends (Work.readAll_spec h₁.archive_eq h₁.file_eq name)]
      exact ⟨archive₁, file₁, h₁, hsecures₁⟩

/-- A session has a file saved behind the end of an older file. -/
def Appends (before : Bytes) (name : String) (octets : Bytes) (after : Session) : Prop :=
  ∃ archive file stored entry, after.archive = some archive ∧ after.file = some file
    ∧ archive.Appended file before name octets stored entry

/-- An operation that saves a file does so behind the end. -/
theorem Appending.saves (h : session.Appending archive file) {op : Operation} {name : String}
    {octets : Bytes} (hsaves : op.saved? session = some (name, octets)) :
    Ends op.work session (fun answer after => answer = true → Appends file name octets after)
      anyFailure := by
  cases op with
  | writeAll _ _ =>
    obtain ⟨rfl, rfl⟩ := Prod.mk.inj (Option.some.inj hsaves)
    rw [Operation.work, Work.ends_on h.archive_eq h.file_eq]
    refine (Change.writeAll_appends h.mode_eq _ _).imp ?_
    intro answer store happended hanswer
    obtain ⟨stored, entry, happended⟩ := happended hanswer
    exact ⟨_, _, stored, entry, rfl, rfl, happended⟩
  | closeHandle number =>
    simp only [Operation.work, Work.closeHandle, Work.forget, ends_bind, ends_modify, ends_pure]
    refine (Work.handle_spec h.archive_eq number).mono ?_ fun _ _ _ => trivial
    rintro ⟨kind, other, cursor⟩ _ ⟨rfl, hlookup⟩
    simp only [Operation.saved?, hlookup] at hsaves
    cases kind with
    | reader => cases hsaves
    | writer =>
      obtain ⟨rfl, rfl⟩ := Prod.mk.inj (Option.some.inj hsaves)
      refine Iff.mpr (Work.ends_on h.archive_eq h.file_eq) ?_
      refine (Change.commit_appends h.mode_eq _ _).imp ?_
      rintro _ store ⟨stored, entry, happended⟩ -
      exact ⟨_, _, stored, entry, rfl, rfl, happended⟩
  | _ => cases hsaves

/-- What has just been saved is apart from header and index. -/
theorem Appending.shelters_saved (h : session.Appending archive file) {op : Operation}
    {name : String} {octets : Bytes} (hsaves : op.saved? session = some (name, octets))
    (hrun : (op.work.run.run session : Except SessionError Bool × Session) = (.ok true, after)) :
    ∃ archive' file' stored entry, after.Appending archive' file'
      ∧ archive'.Appended file' file name octets stored entry
      ∧ archive'.Shelters file' entry.nameOffset.toNat stored
      ∧ archive'.Shelters file' entry.dataOffset.toNat octets := by
  obtain ⟨archive', file', stored, entry, harchive, hfile, happended⟩ :=
    ((h.saves hsaves).of_run hrun).1 true rfl rfl
  have hsettles : op.settles = false := by
    cases op with
    | flush | compact => cases hsaves
    | _ => rfl
  have hspares : session.Spares after :=
    (op.spares h.archive_eq h.file_eq (by rw [h.mode_eq]; decide) hsettles).after hrun
  obtain ⟨_, _, harchive', hfile', hspares⟩ :=
    hspares.archive archive file h.archive_eq h.file_eq
  obtain rfl := Option.some.inj (harchive.symm.trans harchive')
  obtain rfl := Option.some.inj (hfile.symm.trans hfile')
  have hsecures := hspares.secures h.framed
  refine ⟨archive', file', stored, entry, ⟨harchive, hfile, hsecures.mode_eq.trans h.mode_eq,
    hsecures.framed⟩, happended, ?_, ?_⟩
  · have hheld : region file' entry.nameOffset.toNat stored.length = .ok stored := by
      rw [happended.file_eq, happended.nameOffset]
      exact region_append_append _ _ rfl rfl
    have hshelters := h.framed.shelters (Nat.le_of_eq happended.nameOffset.symm) hheld
    exact ⟨hshelters.behind, hheld, hspares.header_eq ▸ hshelters.apart⟩
  · have hheld : region file' entry.dataOffset.toNat octets.length = .ok octets := by
      rw [happended.file_eq, happended.dataOffset, ← List.length_append]
      exact region_append _ rfl rfl
    have hbehind : file.length ≤ entry.dataOffset.toNat := by
      rw [happended.dataOffset]
      exact Nat.le_add_right _ _
    have hshelters := h.framed.shelters hbehind hheld
    exact ⟨hshelters.behind, hheld, hspares.header_eq ▸ hshelters.apart⟩

end Session

theorem Archive.Indexes.framed {archive : Archive} {file : Bytes} {entries : List IndexEntry}
    (h : Indexes file archive.header entries) : archive.Framed file where
  size_le := (ArchiveHeader.read_eq_ok_iff.mp h.header_eq).1.length_le
  indexEnd_le := h.inside

theorem Work.openArchive_appending {session after : Session} {file : Bytes}
    (hfile : session.file = some file)
    (hrun : ((Work.openArchive .immediate).run.run session : Except SessionError Unit × Session)
      = (.ok (), after)) :
    ∃ archive, after.Appending archive file := by
  obtain ⟨entries, archive, hindexes, -, hreads⟩ :=
    ((openArchive_reads .immediate hfile).of_run hrun).1 () rfl
  exact ⟨archive, hreads.archive_eq, hreads.file_eq, hreads.mode_eq, hindexes.framed⟩

/-- **What is saved in immediate mode stays to the end.**  Whatever file the archive was opened from
and whatever has been done since, closing a handle writes name and contents behind the end of the
file, and whatever is done then, these octets are not touched again, not even by leaving the
archive. -/
theorem Session.payload_stays {before opened session after later : Session} {file : Bytes}
    {op : Operation} {name : String} {octets : Bytes} (hfile : before.file = some file)
    (hopen : ((Work.openArchive .immediate).run.run before : Except SessionError Unit × Session)
      = (.ok (), opened))
    (hwork : opened.Continues session) (hsaves : op.saved? session = some (name, octets))
    (hrun : (op.work.run.run session : Except SessionError Bool × Session) = (.ok true, after))
    (hmore : after.Continues later) :
    ∃ archive old new last stored entry, session.file = some old ∧ after.archive = some archive
      ∧ after.file = some new ∧ archive.Appended new old name octets stored entry
      ∧ later.file = some last
      ∧ region last entry.nameOffset.toNat stored.length = .ok stored
      ∧ region last entry.dataOffset.toNat octets.length = .ok octets
      ∧ Ends Work.leave later (fun _ closed => closed.file = some last) noFailure := by
  obtain ⟨archive₀, hopened⟩ := Work.openArchive_appending hfile hopen
  obtain ⟨archive, old, hworking, -⟩ := hopened.continues hwork
  obtain ⟨archive', new, stored, entry, hafter, happended, hname, hdata⟩ :=
    hworking.shelters_saved hsaves hrun
  obtain ⟨archive'', last, hlater, hsecures⟩ := hafter.continues hmore
  refine ⟨archive', old, new, last, stored, entry, hworking.file_eq, hafter.archive_eq,
    hafter.file_eq, happended, hlater.file_eq, (hsecures.shelters _ _ hname).held,
    (hsecures.shelters _ _ hdata).held, ?_⟩
  have hopen : later.archive.isSome = true := by
    rw [hlater.archive_eq]
    rfl
  exact (Work.leave_spec hopen hlater.file_eq).imp fun _ _ hleft => hleft.2.1

/-- Operations in a row lead a session on. -/
theorem Session.continues_perform (session : Session) (ops : List Operation) :
    session.Continues (session.perform Operation.work ops) := by
  induction ops generalizing session with
  | nil => exact .refl
  | cons op rest ih => exact .head (.operate op) (ih _)

/-- The contents of a file are still there when it has been written anew, shown, deleted, and the
index has become shorter. -/
theorem Session.payload_stays_deleted : ∃ (later : Session) (last : Bytes) (offset : Nat),
    later.file = some last ∧ later.archive.any (·.isEmpty) = true
      ∧ region last offset 3 = .ok [1, 2, 3] := by
  let before : Session := { path := "data.ykc", encoding := .utf8, file := some Archive.emptyFile }
  have hopened : ((Work.openArchive .immediate).answer before).isOk = true := by decide +kernel
  obtain ⟨_, hopen⟩ := exists_of_isOk hopened
  let opened := (Work.openArchive .immediate).after before
  let session := opened.perform Operation.work [.createFile 1 "a.txt", .writeHandle 1 [1, 2, 3]]
  have hclosed : (Operation.closeHandle 1).work.answer session = .ok true := by decide +kernel
  have hfile : before.file = some Archive.emptyFile := rfl
  have hsaves : (Operation.closeHandle 1).saved? session = some ("a.txt", [1, 2, 3]) := by
    decide +kernel
  have hrun : ((Operation.closeHandle 1).work.run.run session :
      Except SessionError Bool × Session)
        = (.ok true, (Operation.closeHandle 1).work.after session) := Prod.ext hclosed rfl
  obtain ⟨_, _, _, last, stored, entry, -, -, -, -, hlast, -, hdata, -⟩ :=
    payload_stays hfile (Prod.ext hopen rfl) (opened.continues_perform _) hsaves hrun
      (Session.continues_perform _
        [.flush, .writeAll "a.txt" [4], .flush, .deleteFile "a.txt", .flush])
  exact ⟨_, last, _, hlast, by decide +kernel, hdata⟩

end NovelScript
