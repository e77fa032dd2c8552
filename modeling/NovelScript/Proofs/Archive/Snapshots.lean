import NovelScript.Proofs.Archive.Overflow
import NovelScript.Proofs.Archive.Showing

/-!
# What a second reader finds between flushes

A `History` is everything that can happen to one file from the making of its archive on: operations,
leaving the archive and opening it again, in explicit or in immediate mode.  It remembers what was
*saved*, the files that the archive had when a flush or a packing last succeeded.  At every point a
second reader finds just these (`History.peek_eq`).

## Shape of the argument

`Session.Holds` says that the file shows what was saved and that the open archive follows it.  A
flush or a packing makes the file show the archive, and every other operation spares what the file
shows.  Leaving an archive writes nothing, and opening one finds what is shown.
-/

namespace NovelScript

variable {encoding : Encoding} {session after : Session} {archive shown : Archive} {file : Bytes}
  {catalog current : Catalog} {saved : List (String × Except ArchiveError Bytes)} {mode : SaveMode}

/-! ## Events -/

/-- What can happen to an archive and its file. -/
inductive Event where
  | operate (op : Operation)
  /-- The work on the archive ends, without a flush. -/
  | leave
  | openArchive (mode : SaveMode)

/-- Saving waits for a flush, or is behind all that the file shows. -/
def SaveMode.Spares (mode : SaveMode) : Prop := mode = .explicit ∨ mode = .immediate

namespace Event

/-- The event as a step of a session. -/
def work : Event → Work Bool
  | operate op => op.work
  | leave => do
    Work.leave
    return true
  | openArchive mode => do
    Work.openArchive mode
    return true

/-- The name under which a file may be made. -/
def made? : Event → Option String
  | operate op => op.made?
  | _ => none

/-- Whether a flush or a packing has succeeded. -/
def settles : Event → Except SessionError Bool → Bool
  | operate op, .ok _ => op.settles
  | _, _ => false

/-- Whether the event may pack an archive, which is the one way to write a file of any size. -/
def packs (session : Session) : Event → Bool
  | operate op => session.archive.any fun archive => op.mayPack archive.mode
  | _ => false

/-- The event, begun in one session, ends in another with this answer.  Archives are opened in a
mode that spares what is shown, files are made only under names that survive, and what is packed
stays below 4 GiB. -/
structure Leads (event : Event) (encoding : Encoding) (session : Session)
    (answer : Except SessionError Bool) (after : Session) : Prop where
  run : (event.work.run.run session : Except SessionError Bool × Session) = (answer, after)
  mode : ∀ mode, event = .openArchive mode → mode.Spares
  survives : ∀ name, event.made? = some name → encoding.Survives name
  fits : event.packs session = true → ∀ file, after.file = some file → Fits file

end Event

/-- The names of the files of the open archive in the order of its index, with their contents. -/
def Session.listing (session : Session) : List (String × Except ArchiveError Bytes) :=
  match session.archive with
  | none => []
  | some archive => archive.listing (session.file.getD [])

/-- The sessions that events lead to from a new archive, with the files that were saved last. -/
inductive History (encoding : Encoding) :
    Session → List (String × Except ArchiveError Bytes) → Prop where
  | create {before session : Session} {mode : SaveMode} (hmode : mode.Spares)
      (harchive : before.archive = none) (hhandles : before.handles = [])
      (hencoding : before.encoding = encoding)
      (hrun : ((Work.createArchive mode).run.run before : Except SessionError Unit × Session)
        = (.ok (), session)) :
      History encoding session session.listing
  | step {session after : Session} {saved : List (String × Except ArchiveError Bytes)}
      {answer : Except SessionError Bool} (event : Event) (h : History encoding session saved)
      (hleads : event.Leads encoding session answer after) :
      History encoding after (if event.settles answer then session.listing else saved)

/-- Whether no archive is open, or one that waits for a flush. -/
def Session.Waits (session : Session) : Prop :=
  ∀ archive, session.archive = some archive → archive.mode = .explicit

/-- Events lead from one session to another while only archives in explicit mode are open, and no
flush and no packing succeeds. -/
inductive Session.Rests (encoding : Encoding) (session : Session) : Session → Prop where
  | refl : Session.Rests encoding session session
  | step {middle after : Session} {answer : Except SessionError Bool} (event : Event)
      (h : Session.Rests encoding session middle) (hwaits : middle.Waits)
      (hleads : event.Leads encoding middle answer after) (hrests : event.settles answer = false) :
      Session.Rests encoding session after

/-! ## Reading what is shown -/

/-- A file without handles is read. -/
theorem Archive.readAll_of_mem {m : Member} (hunique : (archive.members.map (·.name)).Nodup)
    (hm : m ∈ archive.members) (hcreated : m.isCreated = false) (hwriter : m.writer = false) :
    archive.readAll file m.name = m.contents file := by
  rw [readAll, file?_of_mem hunique hm hcreated]
  dsimp only
  rw [hwriter]
  rfl

/-- The file shows what was saved last, and the open archive goes on from there. -/
structure Session.Holds (session : Session) (encoding : Encoding)
    (saved : List (String × Except ArchiveError Bytes)) (file : Bytes) (shown : Archive)
    (catalog : Catalog) : Prop where
  encoding_eq : session.encoding = encoding
  file_eq : session.file = some file
  fits : Fits file
  shows : shown.Shown file encoding catalog
  saved_eq : shown.listing file = saved
  idle : session.archive = none → session.handles = []
  opened : ∀ archive, session.archive = some archive → archive.mode.Spares
    ∧ archive.Follows shown file
    ∧ ∃ current, session.Sound archive.mode encoding current archive file

/-- The file shows what was saved, whatever it is. -/
def Session.Recalls (session : Session) (encoding : Encoding)
    (saved : List (String × Except ArchiveError Bytes)) : Prop :=
  ∃ file shown catalog, session.Holds encoding saved file shown catalog

namespace Session.Holds

variable (h : session.Holds encoding saved file shown catalog)

include h

theorem load (mode : SaveMode) :
    Ends (Work.load mode) session
      (fun archive after => after = session ∧ archive = {
        path := session.path
        mode, encoding
        header := shown.header
        members := shown.members }) noFailure := by
  simp only [Work.load, ends_bind, ends_get, h.file_eq, ends_modify, Work.ofArchive, ends_mk,
    h.encoding_eq, h.shows.load_eq]
  refine ⟨fun archive hok => ?_, fun e he => by cases he⟩
  refine ⟨?_, (Except.ok.inj hok).symm⟩
  rw [List.append_nil, ← h.file_eq, ← h.encoding_eq]

/-- A second reader finds what was saved, and leaves the session as it is. -/
theorem peek : Ends Work.peek session (fun found after => found = saved ∧ after = session)
    noFailure := by
  simp only [Work.peek, ends_bind]
  refine (h.load .readOnly).imp ?_
  rintro _ _ ⟨rfl, rfl⟩
  simp only [ends_get, ends_pure, h.file_eq, Option.getD_some, and_true]
  rw [← h.saved_eq, Archive.listing]
  refine List.map_congr_left fun m hm => ?_
  have hmem : m ∈ shown.members := (List.mem_filter.mp hm).1
  have hcreated : m.isCreated = false := by simpa using (List.mem_filter.mp hm).2
  have hwriter : m.writer = false := by
    rw [← h.shows.fresh m hmem]
    rfl
  refine congrArg (Prod.mk m.name) ?_
  exact Archive.readAll_of_mem h.shows.intact.laid.unique hmem hcreated hwriter

theorem saved_ok : ∀ p ∈ saved, ∃ octets, p.2 = .ok octets := by
  rw [← h.saved_eq, h.shows.intact.listing_eq]
  intro p hp
  obtain ⟨name, -, rfl⟩ := List.mem_map.mp hp
  exact ⟨_, rfl⟩

/-- Without changes, the archive has what was saved. -/
theorem listing_eq (harchive : session.archive = some archive) (hclean : archive.dirty = false) :
    session.listing = saved := by
  obtain ⟨-, hfollows, -⟩ := h.opened archive harchive
  simp only [Session.listing, harchive, h.file_eq]
  exact (hfollows.listing_eq h.shows hclean).trans h.saved_eq

end Session.Holds

/-- An open archive goes on from what its file shows. -/
theorem Session.Sound.holds (h : session.Sound mode encoding current archive file)
    (hmode : mode.Spares) (hencoding : session.encoding = encoding) (hfits : Fits file)
    (hshows : shown.Shown file encoding catalog) (hfollows : archive.Follows shown file) :
    session.Holds encoding (shown.listing file) file shown catalog where
  encoding_eq := hencoding
  file_eq := h.file_eq
  fits := hfits
  shows := hshows
  saved_eq := rfl
  idle hnone := by
    rw [h.archive_eq] at hnone
    cases hnone
  opened archive' harchive' := by
    obtain rfl := Option.some.inj (h.archive_eq.symm.trans harchive')
    have hmode_eq := h.intact.mode_eq
    exact ⟨hmode_eq ▸ hmode, hfollows, current, hmode_eq ▸ h⟩

/-- An archive that is opened has what was saved. -/
theorem Session.Holds.reopened (h : session.Holds encoding saved file shown catalog)
    (hclosed : session.archive = none) (hmode : mode.Spares) :
    Session.Holds
      { session with
        archive := some {
          path := session.path
          mode, encoding
          header := shown.header
          members := shown.members } }
      encoding saved file shown catalog := by
  have hidle := h.idle hclosed
  rw [← h.saved_eq]
  refine Sound.holds ⟨rfl, h.file_eq, h.shows.intact_load session.path mode, ?_, ?_⟩ hmode
    h.encoding_eq h.fits h.shows (h.shows.follows_load session.path mode)
  · rw [hidle]
    exact .nil
  · -- no handle is open on what has just been read
    rintro name ⟨m, hm, -, hwrites⟩
    rw [← h.shows.fresh m hm] at hwrites
    cases hwrites

/-! ## Operations -/

/-- A step that fails is not gone on from. -/
theorem Ends.bind_fails {ε σ α β : Type} {m : ExceptT ε (StateM σ) α} {s : σ}
    {f : α → ExceptT ε (StateM σ) β} {Q : β → σ → Prop} {E : ε → σ → Prop}
    (h : Ends m s (fun _ _ => False) E) : Ends (m >>= f) s Q E :=
  ends_bind.mpr (h.imp fun _ _ => False.elim)

namespace Work

variable {α : Type} {change : Change α}

theorem on_closed (h : session.archive = none) (change : Change α) :
    Ends (on change) session (fun _ _ => False) fun _ after => after = session := by
  simp only [on, opened, ends_bind, ends_get, h, ends_throw]

theorem handle_closed (h : session.archive = none) (number : Nat) :
    Ends (handle number) session (fun _ _ => False) fun _ after => after = session := by
  simp only [handle, opened, ends_bind, ends_discard, ends_get, h, ends_throw]

/-- A flush or a packing, done in a session. -/
theorem on_saves {change : Change Unit} (h : session.Holds encoding saved file shown catalog)
    (hsound : session.Sound mode encoding current archive file) (hmode : mode.Spares)
    (hleaves : Ends change ⟨file, session.scratch, archive, session.warnings⟩
      (fun _ => Change.LeavesIfFits mode encoding current archive.Writes)
      fun _ => Change.LeavesIfFits mode encoding current archive.Writes)
    (hsaves : Ends change ⟨file, session.scratch, archive, session.warnings⟩
      (fun _ store => (mode = .explicit → Fits store.file) →
        Change.Saved encoding ⟨file, session.scratch, archive, session.warnings⟩ store)
      fun _ store => (mode = .explicit → Fits store.file) →
        Change.Untouched ⟨file, session.scratch, archive, session.warnings⟩ store) :
    Ends (on change) session
      (fun _ after => (mode = .explicit → ∀ file, after.file = some file → Fits file) →
        after.Recalls encoding session.listing)
      fun _ after => (mode = .explicit → ∀ file, after.file = some file → Fits file) →
        after.Recalls encoding saved ∧ after.file = session.file := by
  rw [ends_on hsound.archive_eq hsound.file_eq]
  refine (hleaves.and hsaves).mono ?_ ?_
  · rintro _ store ⟨hleft, hsaved⟩ hsmall
    obtain ⟨hfits, shown', catalog', hshows, hfollows, hlisting⟩ :=
      hsaved fun hexplicit => hsmall hexplicit _ rfl
    have hafter := Session.sound_withStore (hleft hfits) hsound.sorted hsound.writes
    have hbefore : session.listing = archive.listing file := by
      simp only [Session.listing, hsound.archive_eq, hsound.file_eq, Option.getD_some]
    rw [hbefore, ← hlisting]
    exact ⟨_, _, _, hafter.holds hmode h.encoding_eq hfits hshows hfollows⟩
  · rintro _ store ⟨hleft, hfailed⟩ hsmall
    obtain ⟨hfile, harchive⟩ := hfailed fun hexplicit => hsmall hexplicit _ rfl
    have hfits : Fits store.file := hfile ▸ h.fits
    have hafter := Session.sound_withStore (hleft hfits) hsound.sorted hsound.writes
    obtain ⟨-, hfollows, -⟩ := h.opened archive hsound.archive_eq
    rw [hfile, harchive] at hafter
    rw [← h.saved_eq]
    refine ⟨⟨_, _, _, hafter.holds hmode h.encoding_eq h.fits h.shows hfollows⟩, ?_⟩
    rw [hsound.file_eq]
    exact congrArg some hfile

end Work

namespace Operation

/-- Without an archive, no operation does anything. -/
theorem closed (op : Operation) (h : session.archive = none) :
    Ends op.work session (fun _ _ => False) fun _ after => after = session := by
  cases op with
  | writeAll name contents =>
    rw [work]
    exact Work.on_closed h _
  | deleteFile name =>
    rw [work]
    exact Work.on_closed h _
  | createFile number name =>
    rw [work]
    exact (Work.on_closed h _).bind_fails
  | openFile number name =>
    rw [work]
    exact (Work.on_closed h _).bind_fails
  | openFileMut number name =>
    rw [work]
    exact (Work.on_closed h _).bind_fails
  | flush =>
    rw [work]
    exact (Work.on_closed h _).bind_fails
  | compact =>
    rw [work]
    exact (Work.on_closed h _).bind_fails
  | readHandle number count =>
    simp only [work, Work.readHandle, ends_bind, ends_discard]
    exact (Work.handle_closed h number).imp fun _ _ => False.elim
  | seekHandle number whence offset =>
    simp only [work, Work.seekHandle, ends_bind, ends_discard]
    exact (Work.handle_closed h number).imp fun _ _ => False.elim
  | writeHandle number octets =>
    simp only [work, Work.writeHandle, Work.writer, ends_bind, ends_discard]
    exact (Work.handle_closed h number).imp fun _ _ => False.elim
  | resizeHandle number size =>
    simp only [work, Work.resizeHandle, Work.writer, ends_bind]
    exact (Work.handle_closed h number).imp fun _ _ => False.elim
  | closeHandle number =>
    simp only [work, Work.closeHandle, ends_bind]
    exact (Work.handle_closed h number).imp fun _ _ => False.elim
  | dropHandle number =>
    simp only [work, Work.dropHandle, ends_bind]
    exact (Work.handle_closed h number).imp fun _ _ => False.elim

/-- A flush or a packing saves what the archive has, or leaves the file as it is. -/
theorem saves (h : session.Holds encoding saved file shown catalog)
    (harchive : session.archive = some archive) {op : Operation} (hop : op.settles = true) :
    Ends op.work session
      (fun _ after => (archive.mode = .explicit → ∀ file, after.file = some file → Fits file) →
        after.Recalls encoding session.listing)
      fun _ after => (archive.mode = .explicit → ∀ file, after.file = some file → Fits file) →
        after.Recalls encoding saved ∧ after.file = session.file := by
  obtain ⟨hmode, hfollows, current, hsound⟩ := h.opened archive harchive
  cases op with
  | flush =>
    simp only [work, ends_bind, ends_pure]
    exact Work.on_saves h hsound hmode
      ((Change.flush_spec hsound.intact).imp fun _ _ hflushed => hflushed.1)
      (Change.flush_saves hsound.intact h.shows hfollows h.fits hmode)
  | compact =>
    simp only [work, ends_bind, ends_pure]
    exact Work.on_saves h hsound hmode
      ((Change.compact_spec hsound.intact).imp fun _ _ hpacked => hpacked.1)
      (Change.compact_saves hsound.intact h.shows hfollows h.fits hmode)
  | _ => cases hop

/-- Every other operation leaves what was saved, and in explicit mode the file. -/
theorem recalls (h : session.Holds encoding saved file shown catalog)
    (harchive : session.archive = some archive) {op : Operation} (hop : op.settles = false)
    (hsurvives : ∀ name, op.made? = some name → encoding.Survives name)
    {answer : Except SessionError Bool}
    (hrun : (op.work.run.run session : Except SessionError Bool × Session) = (answer, after)) :
    after.Recalls encoding saved ∧ (archive.mode = .explicit → after.file = session.file) := by
  obtain ⟨hmode, hfollows, current, hsound⟩ := h.opened archive harchive
  have hflush : archive.mode ≠ .flush := by
    rcases hmode with hmode | hmode
    · rw [hmode]
      decide
    · rw [hmode]
      decide
  have hends := ((op.sound hsound hsurvives).and (op.spares harchive h.file_eq hflush hop)).of_run
    hrun
  have hafter : after.SoundIfFits archive.mode encoding (op.effect session answer current)
      ∧ session.Spares after := by
    cases answer with
    | ok a => exact hends.1 a rfl
    | error e => exact hends.2 e rfl
  obtain ⟨hfine, hspared⟩ := hafter
  obtain ⟨archive', file', harchive', hfile', hspares⟩ :=
    hspared.archive archive file harchive h.file_eq
  have hfits := hspares.fits h.fits
  have hsmall : ∀ file, after.file = some file → Fits file := by
    intro file'' hfile''
    rwa [← Option.some.inj (hfile'.symm.trans hfile'')]
  obtain ⟨archive'', file'', hsound'⟩ := hfine hsmall
  obtain rfl := Option.some.inj (harchive'.symm.trans hsound'.archive_eq)
  obtain rfl := Option.some.inj (hfile'.symm.trans hsound'.file_eq)
  -- what is shown is still there, in front of all that was written
  obtain ⟨hshows, hlisting⟩ := h.shows.of_isPrefix hspares.grows
  refine ⟨?_, fun hexplicit => ?_⟩
  · rw [← h.saved_eq, ← hlisting]
    exact ⟨_, _, _, hsound'.holds hmode (hspared.encoding_eq.trans h.encoding_eq) hfits hshows
      (hfollows.of_spares h.shows.indexEnd_le hspares)⟩
  · rw [hfile', h.file_eq, hspares.explicit hexplicit]

end Operation

/-! ## Leaving and opening -/

namespace Work

/-- Giving all handles back writes nothing. -/
theorem releaseAll_spec (session : Session) (harchive : session.archive.isSome = true)
    (hfile : session.file = some file) (handles : List (Nat × Handle)) :
    Ends (handles.forM fun entry => release entry.2) session
      (fun _ after => after.encoding = session.encoding ∧ after.file = some file
        ∧ after.archive.isSome = true ∧ after.handles = session.handles) noFailure := by
  induction handles generalizing session with
  | nil => exact ⟨rfl, hfile, harchive, rfl⟩
  | cons entry rest ih =>
    obtain ⟨archive, hopen⟩ := Option.isSome_iff_exists.mp harchive
    show Ends (release entry.2 >>= fun _ => rest.forM fun entry => release entry.2) session _ _
    rw [ends_bind]
    refine (release_spares hopen hfile entry.2).imp ?_
    rintro _ session₁ ⟨hspares, hsame, hopen₁, hhandles⟩
    refine (ih session₁ hopen₁ (hsame.trans hfile)).imp ?_
    rintro _ after ⟨hencoding, hfile', hopen', hhandles'⟩
    exact ⟨hencoding.trans hspares.encoding_eq, hfile', hopen', hhandles'.trans hhandles⟩

/-- Leaving an archive writes nothing. -/
theorem leave_spec (harchive : session.archive.isSome = true) (hfile : session.file = some file) :
    Ends leave session
      (fun _ after => after.encoding = session.encoding ∧ after.file = some file
        ∧ after.archive = none ∧ after.handles = []) noFailure := by
  obtain ⟨archive, hopen⟩ := Option.isSome_iff_exists.mp harchive
  simp only [leave, opened, ends_bind, ends_discard, ends_get, hopen, ends_pure, ends_modify]
  have hreleased : Ends (session.handles.forM fun entry => release entry.2)
      { session with archive := some archive, handles := [] } _ _ :=
    releaseAll_spec { session with archive := some archive, handles := [] } rfl hfile _
  refine hreleased.imp ?_
  rintro _ session₁ ⟨hencoding, hfile₁, hopen₁, hhandles⟩
  obtain ⟨archive₁, hopen₁⟩ := Option.isSome_iff_exists.mp hopen₁
  rw [ends_on hopen₁ hfile₁]
  -- closing at most warns that changes are lost
  simp only [Change.close, Change.warn, ends_bind, ends_get]
  split
  · exact ⟨hencoding, rfl, trivial, hhandles⟩
  · exact ⟨hencoding, rfl, trivial, hhandles⟩

theorem leave_closed (h : session.archive = none) :
    Ends leave session (fun _ _ => False) fun _ after => after = session := by
  simp only [leave, opened, ends_bind, ends_discard, ends_get, h, ends_throw]

theorem leave_holds (h : session.Holds encoding saved file shown catalog)
    (harchive : session.archive.isSome = true) :
    Ends leave session
      (fun _ after => after.Holds encoding saved file shown catalog ∧ after.archive = none)
      noFailure := by
  refine (leave_spec harchive h.file_eq).imp ?_
  rintro _ after ⟨hencoding, hfile, hclosed, hhandles⟩
  refine ⟨⟨hencoding.trans h.encoding_eq, hfile, h.fits, h.shows, h.saved_eq, fun _ => hhandles,
    fun archive hopen => ?_⟩, hclosed⟩
  rw [hclosed] at hopen
  cases hopen

theorem leaveAny_holds (h : session.Holds encoding saved file shown catalog) :
    Ends leaveAny session
      (fun _ after => after.Holds encoding saved file shown catalog ∧ after.archive = none)
      noFailure := by
  simp only [leaveAny, ends_bind, ends_get]
  split
  · next hopen => exact leave_holds h hopen
  · next hclosed => exact ⟨h, by simpa using hclosed⟩

/-- Opening an archive finds what was saved. -/
theorem openArchive_recalls (h : session.Holds encoding saved file shown catalog)
    (hmode : mode.Spares) :
    Ends (openArchive mode) session
      (fun _ after => after.Recalls encoding saved ∧ after.file = session.file) noFailure := by
  simp only [openArchive, ends_bind, ends_modify]
  refine (leaveAny_holds h).imp ?_
  rintro _ session₁ ⟨h₁, hclosed⟩
  refine (h₁.load mode).imp ?_
  rintro archive _ ⟨rfl, rfl⟩
  exact ⟨⟨_, _, _, h₁.reopened hclosed hmode⟩, h₁.file_eq.trans h.file_eq.symm⟩

end Work

/-! ## Histories -/

namespace Event

/-- Leaving an archive and opening it change nothing in the file. -/
theorem recalls_of_file_eq {answer : Except SessionError Bool} {event : Event}
    (hevent : event.settles answer = false)
    (h : after.Recalls encoding saved ∧ after.file = session.file) :
    after.Recalls encoding (if event.settles answer then session.listing else saved)
      ∧ (session.Waits → event.settles answer = false → after.file = session.file) := by
  rw [hevent]
  exact ⟨h.1, fun _ _ => h.2⟩

/-- After an event, the file shows what was saved last.  Without a flush, no octet of it changes
under an archive in explicit mode. -/
theorem recalls (h : session.Recalls encoding saved) {event : Event}
    {answer : Except SessionError Bool} (hleads : event.Leads encoding session answer after) :
    after.Recalls encoding (if event.settles answer then session.listing else saved)
      ∧ (session.Waits → event.settles answer = false → after.file = session.file) := by
  obtain ⟨file, shown, catalog, hholds⟩ := h
  obtain ⟨hrun, hmode, hsurvives, hfits⟩ := hleads
  cases event with
  | leave =>
    refine recalls_of_file_eq rfl ?_
    have hends : Ends (work leave) session
        (fun _ after => after.Recalls encoding saved ∧ after.file = session.file)
        fun _ after => after = session := by
      simp only [work, ends_bind, ends_pure]
      cases harchive : session.archive with
      | none => exact (Work.leave_closed harchive).imp fun _ _ => False.elim
      | some archive =>
        refine (Work.leave_holds hholds (by rw [harchive]; rfl)).of_noFailure.imp ?_
        rintro _ after ⟨hafter, -⟩
        exact ⟨⟨_, _, _, hafter⟩, hafter.file_eq.trans hholds.file_eq.symm⟩
    have hafter := hends.of_run hrun
    cases answer with
    | ok a => exact hafter.1 a rfl
    | error e =>
      obtain rfl := hafter.2 e rfl
      exact ⟨⟨_, _, _, hholds⟩, rfl⟩
  | openArchive mode =>
    refine recalls_of_file_eq rfl ?_
    have hends : Ends (work (openArchive mode)) session
        (fun _ after => after.Recalls encoding saved ∧ after.file = session.file) noFailure := by
      simp only [work, ends_bind, ends_pure]
      exact Work.openArchive_recalls hholds (hmode mode rfl)
    have hafter := hends.of_run hrun
    cases answer with
    | ok a => exact hafter.1 a rfl
    | error e => exact (hafter.2 e rfl).elim
  | operate op =>
    cases harchive : session.archive with
    | none =>
      have hends := (op.closed harchive).of_run hrun
      cases answer with
      | ok a => exact (hends.1 a rfl).elim
      | error e =>
        obtain rfl := hends.2 e rfl
        exact recalls_of_file_eq rfl ⟨⟨_, _, _, hholds⟩, rfl⟩
    | some archive =>
      cases hop : op.settles with
      | true =>
        have hsmall : archive.mode = .explicit → ∀ file, after.file = some file → Fits file := by
          intro hexplicit
          refine hfits ?_
          rw [packs, harchive, Option.any_some, hexplicit, Operation.mayPack_explicit, hop]
        have hends := (op.saves hholds harchive hop).of_run hrun
        cases answer with
        | ok a =>
          have hsettles : (operate op).settles (.ok a) = true := hop
          rw [hsettles]
          exact ⟨hends.1 a rfl hsmall, fun _ hfalse => by cases hfalse⟩
        | error e => exact recalls_of_file_eq rfl (hends.2 e rfl hsmall)
      | false =>
        have hsettles : (operate op).settles answer = false := by
          cases answer with
          | ok a => exact hop
          | error e => rfl
        obtain ⟨hrecalls, hsame⟩ := op.recalls hholds harchive hop hsurvives hrun
        rw [hsettles]
        exact ⟨hrecalls, fun hwaits _ => hsame (hwaits archive harchive)⟩

end Event

/-- A new archive shows that it has no files. -/
theorem Session.Recalls.create {before : Session} (hmode : mode.Spares)
    (harchive : before.archive = none) (hhandles : before.handles = [])
    (hrun : ((Work.createArchive mode).run.run before : Except SessionError Unit × Session)
      = (.ok (), session)) :
    session.Recalls before.encoding session.listing := by
  have hends := (Work.createArchive_spec harchive hhandles).of_run hrun
  obtain ⟨archive, file, hsound, hfits, hencoding, hmembers, hlisted, -⟩ := hends.1 () rfl
  have hplaced : ∀ m ∈ archive.files, m.residence = .stored m.entry
      ∧ m.entry.dataEnd ≤ archive.header.indexOffset.toNat := by
    intro m hm
    rw [Archive.files, hmembers] at hm
    cases hm
  obtain ⟨shown, hshows, hfollows, hlisting⟩ := hsound.intact.exists_shown hlisted hplaced
  have hsaved : session.listing = shown.listing file := by
    rw [hlisting]
    simp only [Session.listing, hsound.archive_eq, hsound.file_eq, Option.getD_some]
  rw [hsaved]
  exact ⟨file, shown, _, hsound.holds hmode hencoding hfits hshows hfollows⟩

/-- At every point of a history, the file shows what was saved last. -/
theorem History.recalls (h : History encoding session saved) : session.Recalls encoding saved := by
  induction h with
  | create hmode harchive hhandles hencoding hrun =>
    exact hencoding ▸ Session.Recalls.create hmode harchive hhandles hrun
  | step event _ hleads ih => exact (Event.recalls ih hleads).1

theorem Session.Rests.history (h : session.Rests encoding after)
    (hhistory : History encoding session saved) :
    History encoding after saved ∧ after.file = session.file := by
  induction h with
  | refl => exact ⟨hhistory, rfl⟩
  | step event _ hwaits hleads hrests ih =>
    obtain ⟨hmiddle, hfile⟩ := ih
    have hafter := hmiddle.step event hleads
    rw [hrests] at hafter
    exact ⟨hafter, ((Event.recalls hmiddle.recalls hleads).2 hwaits hrests).trans hfile⟩

/-- **A second reader finds what was saved last.**  At every point of a history, whoever reads the
file finds the files with the contents that the archive had when a flush or a packing last
succeeded; without changes these are the files that it has.  While archives are open in explicit
mode alone, no octet of the file changes until a flush or a packing succeeds. -/
theorem History.peek_eq (h : History encoding session saved) :
    Ends Work.peek session (fun found after => found = saved ∧ after = session) noFailure
      ∧ (∀ p ∈ saved, ∃ octets, p.2 = .ok octets)
      ∧ (∀ archive, session.archive = some archive → archive.dirty = false →
          session.listing = saved)
      ∧ ∀ after, session.Rests encoding after → after.file = session.file := by
  obtain ⟨file, shown, catalog, hholds⟩ := h.recalls
  exact ⟨hholds.peek, hholds.saved_ok, fun _ => hholds.listing_eq, fun _ hrests =>
    (hrests.history h).2⟩

/-! ## Computing with histories -/

/-- A new archive without files. -/
theorem History.new (hmode : mode.Spares) :
    History encoding (Session.new mode encoding) (Session.new mode encoding).listing :=
  .create hmode rfl rfl rfl (Session.new_run (by rintro rfl; simp [SaveMode.Spares] at hmode))

/-- An event leads on if what it packs stays below 4 GiB. -/
theorem History.next (h : History encoding session saved) (event : Event)
    (hmode : ∀ mode, event = .openArchive mode → mode.Spares)
    (hsurvives : ∀ name, event.made? = some name → encoding.Survives name)
    (hfits : event.packs session = true →
      (event.work.after session).file.all (fun file => file.length < UInt32.size) = true) :
    History encoding (event.work.after session)
      (if event.settles (event.work.answer session) then session.listing else saved) :=
  .step event h ⟨rfl, hmode, hsurvives, fun hpacks => fits_of_all (hfits hpacks)⟩

/-- A file is saved, and written again by a second session that is not flushed. -/
def Session.superseding : Session :=
  (Session.new .explicit .utf8).perform Event.work
    [.operate (.writeAll "a" [1]), .operate .flush, .leave, .openArchive .immediate,
      .operate (.writeAll "a" [2])]

/-- A second reader finds the first contents. -/
theorem History.peek_eq_superseding :
    Ends Work.peek Session.superseding
      (fun found after => found = [("a", .ok [1])] ∧ after = Session.superseding) noFailure := by
  have ha : ∀ name, some "a" = some name → Encoding.Survives .utf8 name :=
    survives_of_eq_some (by decide +kernel)
  have hnew : History .utf8 _ _ := .new (.inl rfl)
  have h₁ := hnew.next (.operate (.writeAll "a" [1])) (by simp) ha (by decide +kernel)
  have h₂ := h₁.next (.operate .flush) (by simp) (by simp [Event.made?, Operation.made?])
    (by decide +kernel)
  have h₃ := h₂.next .leave (by simp) (by simp [Event.made?]) (by decide +kernel)
  have h₄ := h₃.next (.openArchive .immediate) (by simp [SaveMode.Spares]) (by simp [Event.made?])
    (by decide +kernel)
  have h₅ := h₄.next (.operate (.writeAll "a" [2])) (by simp) ha (by decide +kernel)
  refine h₅.peek_eq.1.imp ?_
  rintro found after ⟨hfound, hafter⟩
  exact ⟨hfound.trans (by decide +kernel), hafter⟩

theorem History.swollen (contents : Bytes) :
    ∃ saved, History .utf8 (Session.swollen contents) saved := by
  have hnew : History .utf8 (Session.new .explicit .utf8) _ := .new (.inl rfl)
  have ha := hnew.next (.operate (.writeAll "a" contents)) (by simp)
    (survives_of_eq_some (by decide +kernel)) (by rintro ⟨⟩)
  have hb := ha.next (.operate (.writeAll "b" [])) (by simp)
    (survives_of_eq_some (by decide +kernel)) (by rintro ⟨⟩)
  exact ⟨_, hb.next (.operate (.openFile 1 "b")) (by simp) (by rintro _ ⟨⟩) (by rintro ⟨⟩)⟩

theorem Session.listing_swollen (contents : Bytes) :
    (swollen contents).listing = [("a", .ok contents), ("b", .ok [])] := rfl

/-- A flush that packs contents of 4 GiB succeeds, and a second reader finds neither these nor the
other file. -/
theorem History.not_peek_eq : ∃ after : Session,
    (∃ saved, History .utf8 (Session.swollen IndexEntry.forgery) saved)
    ∧ ((Event.operate .flush).work.run.run (Session.swollen IndexEntry.forgery) :
        Except SessionError Bool × Session) = (.ok true, after)
    ∧ (Event.operate .flush).settles (.ok true) = true
    ∧ Ends Work.peek after (fun found _ => found = [("a", .ok [])]
        ∧ found ≠ (Session.swollen IndexEntry.forgery).listing) noFailure := by
  obtain ⟨after, hrun, hencoding, -, hfile, -⟩ :=
    Session.exists_flush_swollen IndexEntry.length_forgery IndexEntry.isPrefix_forgery
  refine ⟨after, History.swollen _, hrun, rfl, ?_⟩
  have hpeek := Session.ends_peek_swollen IndexEntry.length_forgery IndexEntry.isPrefix_forgery
    hencoding hfile
  refine hpeek.imp ?_
  rintro found _ rfl
  refine ⟨rfl, fun hsame => ?_⟩
  rw [Session.listing_swollen] at hsame
  cases hsame

end NovelScript
