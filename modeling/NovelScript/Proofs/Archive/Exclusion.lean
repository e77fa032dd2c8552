import NovelScript.Proofs.Archive.Overflow
import NovelScript.Proofs.Archive.Tracking

/-!
# A handle that writes a file has it to itself

`Opened` is every state of a session that operations can lead to from an archive that was made or
opened, in any order.  In every such state the archive knows just the handles that are live
(`Session.Counted`), refuses what two handles may not do at once (`Session.Refuses`), and keeps the
files that handles are on (`Session.Guards`).

## Shape of the argument

An archive is read without handles, and every operation keeps track of them, so a session counts on
each name the handles that are live on it.  Since the standing of every file is sound, all else is
read off the standings.  A packing reads the members anew from offsets of 32 bits, so what is packed
has to stay below 4 GiB (`Operation.PacksFit`).
-/

namespace NovelScript

variable {mode : SaveMode} {encoding : Encoding} {session before after : Session}
  {archive : Archive} {file : Bytes} {name : String}

/-! ## Opening an archive -/

/-- An index is read as members without handles, no two of one name. -/
theorem Archive.readMembers_unheld {members read : List Member} {warnings : List ArchiveWarning}
    {entries : List IndexEntry} (hunique : (members.map (·.name)).Nodup)
    (hunheld : ∀ m ∈ members, m.standing = ⟨0, false, false⟩)
    (h : (readMembers encoding file members warnings entries).result = .ok read) :
    (read.map (·.name)).Nodup ∧ ∀ m ∈ read, m.standing = ⟨0, false, false⟩ := by
  induction entries generalizing members warnings with
  | nil =>
    obtain rfl := Except.ok.inj h
    exact ⟨hunique, hunheld⟩
  | cons entry rest ih =>
    rw [readMembers] at h
    split at h
    · cases h
    dsimp only at h
    split at h
    · -- a name that is listed before keeps its place
      refine ih ?_ ?_ h
      · rwa [Member.map_name_change (f := fun m => { m with residence := .stored entry })
          fun _ => rfl]
      · intro m hm
        rcases Member.mem_of_mem_change hm with hm | ⟨old, hold, -, rfl⟩
        · exact hunheld m hm
        · obtain ⟨hreaders, hwriter, -⟩ := Standing.mk.inj (hunheld old hold)
          simp only [Member.standing, Member.isCreated, hreaders, hwriter]
          rfl
    · next hnew =>
      have hnew : ∀ m ∈ members, m.name ≠ nameOf encoding file entry := by simpa using hnew
      refine ih ?_ ?_ h
      · rw [List.map_append, List.nodup_append]
        refine ⟨hunique, by simp, fun a ha b hb => ?_⟩
        obtain ⟨m, hm, rfl⟩ := List.mem_map.mp ha
        obtain rfl := List.mem_singleton.mp hb
        exact hnew m hm
      · intro m hm
        rcases List.mem_append.mp hm with hm | hm
        · exact hunheld m hm
        · obtain rfl := List.mem_singleton.mp hm
          rfl

theorem Archive.readIndex_unheld {header : ArchiveHeader} {read : List Member}
    (h : (readIndex encoding file).result = .ok (header, read)) :
    (read.map (·.name)).Nodup ∧ ∀ m ∈ read, m.standing = ⟨0, false, false⟩ := by
  rw [readIndex] at h
  split at h
  · cases h
  split at h
  · cases h
  next found _ _ =>
  dsimp only at h
  cases hread : (readMembers encoding file [] []
      (IndexEntry.takeMany found.entryCount (file.drop found.indexOffset.toNat))).result with
  | error e =>
    rw [hread] at h
    cases h
  | ok members =>
    rw [hread] at h
    obtain rfl := (Prod.mk.inj (Except.ok.inj h)).2
    exact readMembers_unheld (by simp) (by simp) hread

/-- An archive that is read has no handles. -/
theorem Archive.load_orderly {path : String}
    (h : (load path mode encoding file).result = .ok archive)
    (hsurvive : ∀ m ∈ archive.members, encoding.Survives m.name) :
    archive.Orderly mode encoding ∧ ∀ kind name, archive.count kind name = 0 := by
  rw [load] at h
  dsimp only at h
  cases hindex : (readIndex encoding file).result with
  | error e =>
    rw [hindex] at h
    cases h
  | ok found =>
    obtain ⟨header, read⟩ := found
    rw [hindex] at h
    obtain rfl := Except.ok.inj h
    obtain ⟨hunique, hunheld⟩ := readIndex_unheld hindex
    refine ⟨⟨⟨rfl, hunique, hsurvive⟩, rfl, fun name st hst => ?_⟩, fun kind name => ?_⟩
    · obtain ⟨m, hm, -, rfl, -⟩ := exists_of_standing hst
      rw [hunheld m hm]
      exact .of_idle Bool.false_ne_true Bool.false_ne_true
    · refine Nat.eq_zero_of_not_pos fun hpos => ?_
      obtain ⟨st, hst, hcount⟩ := exists_of_count_pos hpos
      obtain ⟨m, hm, -, rfl, -⟩ := exists_of_standing hst
      rw [hunheld m hm] at hcount
      cases kind <;> exact absurd hcount (Nat.lt_irrefl 0)

/-- A session without handles tracks them. -/
theorem Session.Tracks.of_unheld (harchive : session.archive = some archive)
    (hfile : session.file = some file) (hhandles : session.handles = [])
    (horderly : archive.Orderly mode encoding) (hcount : ∀ kind name, archive.count kind name = 0) :
    session.Tracks mode encoding [] archive file where
  archive_eq := harchive
  file_eq := hfile
  orderly := horderly
  sorted := by
    rw [hhandles]
    exact .nil
  count_eq kind name := by
    rw [hcount, live, hhandles]
    rfl

theorem Work.openArchive_tracks (harchive : before.archive = none) (hhandles : before.handles = [])
    (hencoding : before.encoding = encoding) :
    Ends (Work.openArchive mode) before
      (fun _ after => ∃ archive file, after.archive = some archive
        ∧ ((∀ m ∈ archive.members, encoding.Survives m.name) →
          after.Tracks mode encoding [] archive file))
      anyFailure := by
  simp only [Work.openArchive, Work.leaveAny, Work.load, ends_bind, ends_get, harchive,
    Option.isSome_none, Bool.false_eq_true, if_false, ends_pure]
  cases hfile : before.file with
  | none => trivial
  | some file =>
    simp only [ends_bind, ends_modify, Work.ofArchive, ends_mk]
    refine ⟨fun archive hok => ⟨archive, file, rfl, fun hsurvive => ?_⟩, fun _ _ => trivial⟩
    cases hload : (Archive.load before.path mode before.encoding file).result with
    | error e =>
      rw [hload] at hok
      cases hok
    | ok loaded =>
      rw [hload] at hok
      obtain rfl := Except.ok.inj hok
      obtain ⟨horderly, hcount⟩ := Archive.load_orderly (hencoding ▸ hload) hsurvive
      exact .of_unheld rfl hfile hhandles horderly hcount

theorem Work.createArchive_tracks (harchive : before.archive = none)
    (hhandles : before.handles = []) (hencoding : before.encoding = encoding) :
    Ends (Work.createArchive mode) before (fun _ => Session.Tracked mode encoding [])
      anyFailure := by
  refine (Work.createArchive_spec harchive hhandles).imp ?_
  rintro _ after ⟨archive, file, hsound, -, -, hmembers, -, hafter⟩
  have hstanding : ∀ name, archive.standing name = none := by
    intro name
    rw [Archive.standing, Archive.find?, hmembers, List.find?_nil, Option.map_none]
  have hnamed : archive.Named encoding := hencoding ▸ hsound.intact.named
  refine ⟨archive, file, .of_unheld hsound.archive_eq hsound.file_eq hafter
    ⟨hnamed, hsound.intact.mode_eq, fun name st hst => ?_⟩ fun kind name => ?_⟩
  · rw [hstanding] at hst
    cases hst
  · rw [Archive.count, hstanding, Option.elim_none]

/-! ## What operations lead to -/

/-- The operation, done in one session, ends in another with this answer.  It makes only files
whose names survive, and what it packs stays below 4 GiB. -/
structure Operation.Goes (op : Operation) (mode : SaveMode) (encoding : Encoding)
    (session : Session) (answer : Except SessionError Bool) (after : Session) : Prop where
  run : (op.work.run.run session : Except SessionError Bool × Session) = (answer, after)
  survives : ∀ name, op.made? = some name → encoding.Survives name
  fits : op.PacksFit mode after

/-- The sessions that operations lead to from an archive that is made or opened. -/
inductive Opened (mode : SaveMode) (encoding : Encoding) : Session → Prop where
  | create {before session : Session} (harchive : before.archive = none)
      (hhandles : before.handles = []) (hencoding : before.encoding = encoding)
      (hrun : ((Work.createArchive mode).run.run before : Except SessionError Unit × Session)
        = (.ok (), session)) :
      Opened mode encoding session
  | load {before session : Session} (harchive : before.archive = none)
      (hhandles : before.handles = []) (hencoding : before.encoding = encoding)
      (hsurvive : ∀ archive, session.archive = some archive →
        ∀ m ∈ archive.members, encoding.Survives m.name)
      (hrun : ((Work.openArchive mode).run.run before : Except SessionError Unit × Session)
        = (.ok (), session)) :
      Opened mode encoding session
  | readAll {session after : Session} {contents : Except SessionError Bytes} (name : String)
      (h : Opened mode encoding session)
      (hrun : ((Work.on (Change.readAll name)).run.run session :
        Except SessionError Bytes × Session) = (contents, after)) :
      Opened mode encoding after
  | step {session after : Session} {answer : Except SessionError Bool} (op : Operation)
      (h : Opened mode encoding session) (hgoes : op.Goes mode encoding session answer after) :
      Opened mode encoding after

theorem Reachable.opened {catalog : Catalog} (h : Reachable mode encoding session catalog) :
    Opened mode encoding session := by
  induction h with
  | create harchive hhandles hencoding hrun => exact .create harchive hhandles hencoding hrun
  | step op _ hleads ih =>
    exact .step op ih ⟨hleads.run, hleads.survives, fun _ => hleads.fits⟩

/-- Reading a file as a whole changes nothing. -/
theorem Work.readAll_spec (harchive : session.archive = some archive)
    (hfile : session.file = some file) (name : String) :
    Ends (Work.on (Change.readAll name)) session (fun _ after => after = session)
      fun _ after => after = session := by
  have hsame := Session.withStore_self harchive hfile
  rw [Work.ends_on harchive hfile]
  simp only [Change.readAll, ends_bind, ends_get, Change.of, ends_mk, hsame, implies_true, and_self]

theorem Opened.tracked (h : Opened mode encoding session) : session.Tracked mode encoding [] := by
  -- every session on the way tracks its handles, which each operation preserves
  induction h with
  | create harchive hhandles hencoding hrun =>
    exact ((Work.createArchive_tracks harchive hhandles hencoding).of_run hrun).1 () rfl
  | load harchive hhandles hencoding hsurvive hrun =>
    obtain ⟨archive, file, harchive', htracks⟩ :=
      ((Work.openArchive_tracks harchive hhandles hencoding).of_run hrun).1 () rfl
    exact ⟨archive, file, htracks (hsurvive archive harchive')⟩
  | @readAll session after _ name _ hrun ih =>
    obtain ⟨archive, file, htracks⟩ := ih
    have hsame : after = session :=
      (Work.readAll_spec htracks.archive_eq htracks.file_eq name).after hrun
    exact hsame ▸ ⟨archive, file, htracks⟩
  | @step session after _ op _ hgoes ih =>
    obtain ⟨archive, file, htracks⟩ := ih
    have hafter : op.PacksFit mode after → after.Tracked mode encoding [] :=
      (op.tracks htracks hgoes.survives).after hgoes.run
    exact hafter hgoes.fits

/-! ## What an archive knows of its handles -/

/-- Whether any handle is on the file of a name. -/
def Session.IsBusy (session : Session) (name : String) : Prop :=
  ∃ kind, 0 < session.live kind name

/-- The archive counts on each file the handles that are live, and there is no other with one that
writes. -/
structure Session.Counted (session : Session) (archive : Archive) : Prop where
  unique : (archive.members.map (·.name)).Nodup
  readers_eq : ∀ m ∈ archive.members, m.readers = session.live .reader m.name
  writer_eq : ∀ m ∈ archive.members, m.writer.toNat = session.live .writer m.name
  present : ∀ name, session.IsBusy name → ∃ m ∈ archive.members, m.name = name
  alone : ∀ name, 0 < session.live .writer name →
    session.live .writer name = 1 ∧ session.live .reader name = 0

/-- What may not be done beside the handles that are live is refused, and nothing changes.  A file
that is only being made is not there to be opened. -/
structure Session.Refuses (session : Session) (archive : Archive) : Prop where
  openFile : ∀ number name, 0 < session.live .writer name →
    Idles (Work.openFile number name) session
      (if archive.contains name then .ok false else .error (.archive (.notFound name)))
  readAll : ∀ name, 0 < session.live .writer name →
    Idles (Work.on (Change.readAll name)) session
      (.error (.archive (if archive.contains name then .busy name else .notFound name)))
  openFileMut : ∀ number name, session.IsBusy name →
    Idles (Work.openFileMut number name) session
      (if archive.contains name then .ok false else .error (.archive (.notFound name)))
  createFile : ∀ number name, session.IsBusy name →
    Idles (Work.createFile number name) session (.ok false)
  writeAll : ∀ name contents, session.IsBusy name →
    Idles (Work.on (Change.writeAll name contents)) session (.ok false)
  deleteFile : ∀ name, session.IsBusy name →
    Idles (Work.on (Change.deleteFile name)) session (.ok false)

/-- Whether the operation may take files out of the archive or write it anew. -/
def Operation.sweeps : Operation → Bool
  | deleteFile _ | flush | compact => true
  | _ => false

/-- Files with handles are not lost: what may take files away leaves them and their handles, and
a handle that is closed finds its file. -/
structure Session.Guards (session : Session) (encoding : Encoding) (archive : Archive) : Prop where
  sweep : ∀ (op : Operation) answer after, op.sweeps = true →
    op.Goes archive.mode encoding session answer after →
      after.handles = session.handles ∧ ∃ archive', after.archive = some archive'
        ∧ ∀ name, session.IsBusy name → (∃ m ∈ archive'.members, m.name = name)
          ∧ archive'.contains name = archive.contains name
  close : ∀ number, Ends (Work.closeHandle number) session (fun _ _ => True)
    fun e _ => ∀ name, e ≠ .archive (.notFound name)

/-- The handles are all there afterwards, and the files they are on stand as they did. -/
def Session.SparedBy (session : Session) (archive : Archive) (after : Session) : Prop :=
  after.handles = session.handles ∧ ∃ archive', after.archive = some archive'
    ∧ ∀ name, session.IsBusy name → archive'.standing name = archive.standing name

namespace Session.Tracks

variable (h : session.Tracks mode encoding [] archive file)

include h

theorem count_eq_live (kind : HandleKind) (name : String) :
    archive.count kind name = session.live kind name := h.count_eq kind name

/-- A file that is written stands so. -/
theorem standing_of_writer (hlive : 0 < session.live .writer name) :
    ∃ st, archive.standing name = some st ∧ st.writer = true := by
  rw [← h.count_eq_live] at hlive
  obtain ⟨st, hst, hcount⟩ := Archive.exists_of_count_pos hlive
  exact ⟨st, hst, Standing.writer_of_count_pos hcount⟩

theorem standing_of_isBusy (hbusy : session.IsBusy name) :
    ∃ st, archive.standing name = some st ∧ (st.writer = true ∨ 0 < st.readers) := by
  obtain ⟨kind, hlive⟩ := hbusy
  rw [← h.count_eq_live] at hlive
  obtain ⟨st, hst, hcount⟩ := Archive.exists_of_count_pos hlive
  cases kind with
  | reader => exact ⟨st, hst, .inr hcount⟩
  | writer => exact ⟨st, hst, .inl (Standing.writer_of_count_pos hcount)⟩

theorem counted : session.Counted archive where
  unique := h.orderly.unique
  readers_eq m hm := by
    rw [← h.count_eq_live, Archive.count_of_standing (Archive.standing_of_mem h.orderly.unique hm)]
    rfl
  writer_eq m hm := by
    rw [← h.count_eq_live, Archive.count_of_standing (Archive.standing_of_mem h.orderly.unique hm)]
    rfl
  present name hbusy := by
    obtain ⟨st, hst, -⟩ := h.standing_of_isBusy hbusy
    obtain ⟨m, hm, hname, -⟩ := Archive.exists_of_standing hst
    exact ⟨m, hm, hname⟩
  alone name hlive := by
    obtain ⟨st, hst, hwriter⟩ := h.standing_of_writer hlive
    have hreaders := (h.orderly.sound name st hst).alone hwriter
    rw [← h.count_eq_live, ← h.count_eq_live, Archive.count_of_standing hst,
      Archive.count_of_standing hst]
    simp [Standing.count, hwriter, hreaders]

/-- A file that is not opened is there, unless it is only being made. -/
theorem refuses_opening {change : Change (Option Bytes)} {f : Option Bytes → Work Bool}
    {st : Standing} (hst : archive.standing name = some st)
    (hidles : Idles change ⟨file, session.scratch, archive, session.warnings⟩
      (if st.created then .error (.notFound name) else .ok none)) (hf : f none = pure false) :
    Idles (Work.on change >>= f) session
      (if archive.contains name then .ok false else .error (.archive (.notFound name))) := by
  have hidles := Work.on_idles h.archive_eq h.file_eq hidles
  rw [Archive.contains_of_standing hst]
  cases hcreated : st.created with
  | true =>
    rw [hcreated] at hidles
    exact hidles.bind_error
  | false =>
    rw [hcreated] at hidles
    exact Idles.bind hidles (hf ▸ rfl)

theorem refuses (hmode : mode ≠ .readOnly) : session.Refuses archive where
  openFile number name hlive := by
    obtain ⟨st, hst, hwriter⟩ := h.standing_of_writer hlive
    exact h.refuses_opening hst (Change.openFile_idles hst hwriter) rfl
  readAll name hlive := by
    obtain ⟨st, hst, hwriter⟩ := h.standing_of_writer hlive
    have hidles := Work.on_idles h.archive_eq h.file_eq (Change.readAll_idles hst hwriter)
    rw [Archive.contains_of_standing hst]
    cases hcreated : st.created with
    | true =>
      rw [hcreated] at hidles
      exact hidles
    | false =>
      rw [hcreated] at hidles
      exact hidles
  openFileMut number name hbusy := by
    obtain ⟨st, hst, hbusy⟩ := h.standing_of_isBusy hbusy
    exact h.refuses_opening hst (Change.openFileMut_idles h.orderly hst hmode hbusy) rfl
  createFile number name hbusy := by
    obtain ⟨st, hst, hbusy⟩ := h.standing_of_isBusy hbusy
    have hidles := Work.on_idles h.archive_eq h.file_eq
      (Change.createFile_idles h.orderly hst hmode hbusy)
    exact hidles.bind rfl
  writeAll name contents hbusy := by
    obtain ⟨st, hst, hbusy⟩ := h.standing_of_isBusy hbusy
    exact Work.on_idles h.archive_eq h.file_eq
      (Change.writeAll_idles h.orderly hst hmode hbusy contents)
  deleteFile name hbusy := by
    obtain ⟨st, hst, hbusy⟩ := h.standing_of_isBusy hbusy
    exact Work.on_idles h.archive_eq h.file_eq
      (Change.deleteFile_idles h.orderly hst hmode hbusy)

/-- Deleting a file, flushing and packing spare the files with handles. -/
theorem sweep (op : Operation) (hsweeps : op.sweeps = true) :
    Ends op.work session (fun _ after => op.PacksFit mode after → session.SparedBy archive after)
      fun _ after => op.PacksFit mode after → session.SparedBy archive after := by
  have hstore {store : Store}
      (hstands : Change.StandsIfFits (op.mayPack mode) mode encoding archive.standing store)
      (hfits : op.PacksFit mode (session.withStore store)) :
      session.SparedBy archive (session.withStore store) :=
    ⟨rfl, _, rfl, fun name _ => by rw [(hstands fun hpacks => hfits hpacks _ rfl).standing_eq]⟩
  cases op with
  | deleteFile name =>
    rw [Operation.work, Work.ends_on h.archive_eq h.file_eq]
    refine (Change.deleteFile_stands h.orderly name).mono ?_ ?_
    · rintro (_ | _) store hdeleted -
      · obtain rfl := hdeleted
        exact ⟨rfl, _, rfl, fun _ _ => rfl⟩
      · obtain ⟨st, hst, hreaders, hwriter, hstands⟩ := hdeleted
        refine ⟨rfl, _, rfl, fun other hbusy => ?_⟩
        -- only a file without handles is deleted
        have hne : other ≠ name := by
          rintro rfl
          obtain ⟨st', hst', hbusy⟩ := h.standing_of_isBusy hbusy
          obtain rfl := Option.some.inj (hst.symm.trans hst')
          simp [hreaders, hwriter] at hbusy
        rw [hstands.standing_eq, Function.update_of_ne hne]
    · rintro _ _ rfl -
      exact ⟨rfl, _, rfl, fun _ _ => rfl⟩
  | flush =>
    simp only [Operation.work, ends_bind, ends_pure]
    rw [Work.ends_on h.archive_eq h.file_eq]
    exact (Change.flush_stands h.orderly).mono (fun _ _ => hstore) fun _ _ => hstore
  | compact =>
    simp only [Operation.work, ends_bind, ends_pure]
    rw [Work.ends_on h.archive_eq h.file_eq]
    exact (Change.compact_stands h.orderly).mono (fun _ _ => hstore) fun _ _ => hstore
  | _ => cases hsweeps

theorem guards : session.Guards encoding archive where
  sweep op answer after hsweeps hgoes := by
    have hspared : op.PacksFit mode after → session.SparedBy archive after :=
      (h.sweep op hsweeps).after hgoes.run
    obtain ⟨hhandles, archive', harchive, hstanding⟩ :=
      hspared (h.orderly.mode_eq ▸ hgoes.fits)
    refine ⟨hhandles, archive', harchive, fun name hbusy => ?_⟩
    have hsame := hstanding name hbusy
    obtain ⟨st, hst, -⟩ := h.standing_of_isBusy hbusy
    obtain ⟨m, hm, hname, -⟩ := Archive.exists_of_standing (hsame.trans hst)
    exact ⟨⟨m, hm, hname⟩, by rw [Archive.contains_eq, Archive.contains_eq, hsame]⟩
  close number :=
    (Work.closeHandle_tracks h number).mono (fun _ _ _ => trivial) fun _ _ hclosed => hclosed.2

end Session.Tracks

/-- **A handle that writes a file has it to itself.**  However operations have led to a session, its
archive counts the live handles, refuses what they exclude and keeps their files. -/
theorem Opened.exclusive (h : Opened mode encoding session) (hmode : mode ≠ .readOnly) :
    ∃ archive, session.archive = some archive ∧ session.Counted archive
      ∧ session.Refuses archive ∧ session.Guards encoding archive := by
  obtain ⟨archive, file, htracks⟩ := h.tracked
  exact ⟨archive, htracks.archive_eq, htracks.counted, htracks.refuses hmode, htracks.guards⟩

/-- While one handle makes a file and another reads a second one, both are had. -/
theorem Opened.exclusive_making : ∃ (session : Session) (archive : Archive),
    session = (Session.new .flush .utf8).perform Operation.work
      [.writeAll "b.txt" [1], .createFile 1 "a.txt", .openFile 2 "b.txt"]
    ∧ session.live .writer "a.txt" = 1 ∧ session.live .reader "b.txt" = 1
    ∧ session.archive.map (·.contains "a.txt") = some false
    ∧ session.archive = some archive ∧ session.Counted archive ∧ session.Refuses archive
    ∧ session.Guards .utf8 archive := by
  have hnew : Reachable .flush .utf8 _ Catalog.empty := .new (by decide)
  have hwritten := hnew.next (.writeAll "b.txt" [1])
    (survives_of_eq_some (by decide +kernel)) (by decide +kernel)
  have hmade := hwritten.next (.createFile 1 "a.txt")
    (survives_of_eq_some (by decide +kernel)) (by decide +kernel)
  have hread := hmade.next (.openFile 2 "b.txt") (by rintro _ ⟨⟩) (by decide +kernel)
  obtain ⟨archive, hexclusive⟩ := hread.opened.exclusive (by decide)
  exact ⟨_, archive, rfl, by decide +kernel, by decide +kernel, by decide +kernel, hexclusive⟩

/-- An operation that packs nothing leads on. -/
theorem Opened.next (h : Opened mode encoding session) (op : Operation)
    (hsurvives : ∀ name, op.made? = some name → encoding.Survives name)
    (hop : op.mayPack mode = false) : Opened mode encoding (op.work.after session) :=
  h.step op ⟨rfl, hsurvives, fun hpacks => absurd hpacks (by rw [hop]; decide)⟩

theorem Opened.swollen (contents : Bytes) : Opened .explicit .utf8 (Session.swollen contents) := by
  have hnew : Opened .explicit .utf8 (Session.new .explicit .utf8) :=
    (Reachable.new (by decide)).opened
  have ha := hnew.next (.writeAll "a" contents) (survives_of_eq_some (by decide +kernel)) rfl
  have hb := ha.next (.writeAll "b" []) (survives_of_eq_some (by decide +kernel)) rfl
  exact hb.next (.openFile 1 "b") (by rintro _ ⟨⟩) rfl

/-- A flush that packs contents of 4 GiB succeeds and loses a file that is being read. -/
theorem Opened.not_exclusive : ∃ after : Session,
    Opened .explicit .utf8 (Session.swollen IndexEntry.forgery)
    ∧ (Operation.flush.work.run.run (Session.swollen IndexEntry.forgery) :
        Except SessionError Bool × Session) = (.ok true, after)
    ∧ after.live .reader "b" = 1
    ∧ ¬ ∃ archive, after.archive = some archive ∧ after.Counted archive := by
  obtain ⟨after, hrun, -, hhandles, -, archive, harchive, hmembers⟩ :=
    Session.exists_flush_swollen IndexEntry.length_forgery IndexEntry.isPrefix_forgery
  have hlive : after.live .reader "b" = 1 := by
    rw [Session.live, hhandles]
    rfl
  refine ⟨after, Opened.swollen _, hrun, hlive, ?_⟩
  rintro ⟨archive', harchive', hcounted⟩
  obtain rfl := Option.some.inj (harchive.symm.trans harchive')
  obtain ⟨m, hm, hname⟩ := hcounted.present "b" ⟨.reader, by rw [hlive]; exact Nat.one_pos⟩
  rw [hmembers, List.mem_singleton] at hm
  rw [hm] at hname
  exact absurd hname (by decide)

end NovelScript
