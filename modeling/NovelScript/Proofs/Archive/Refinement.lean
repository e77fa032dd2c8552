import NovelScript.Proofs.Archive.Handles

/-!
# An archive as a map from names to contents

`Reachable` is every state of a session that operations can lead to from a new archive, in any
order, together with the catalog that these operations should have given.  In every such state a
program finds just the files of the catalog (`Session.Shows`).

The offsets of the format are words of 32 bits, so the file must not reach 4 GiB (`Fits`), and only
names that are read back from their stored form can be names of files (`Encoding.Survives`).
-/

namespace NovelScript

variable {mode : SaveMode} {encoding : Encoding} {catalog : Catalog} {session before : Session}
  {archive : Archive} {file : Bytes} {name : String}

/-! ## A new archive -/

/-- The file of a new archive is read as an archive without files. -/
theorem Archive.readIndex_emptyFile :
    Archive.readIndex encoding Archive.emptyFile = { result := .ok ({}, []) } := by
  have hlocated : Located encoding Archive.emptyFile [] := by simp [Located]
  exact Archive.readIndex_of_listed (List.prefix_refl (ArchiveHeader.write {})) rfl rfl
    (Nat.le_refl 24) region_zero hlocated List.nodup_nil (by simp)

theorem Archive.listedIn_emptyFile (path : String) (mode : SaveMode) (encoding : Encoding) :
    Archive.ListedIn { path, mode, encoding, header := {}, members := [] } Archive.emptyFile :=
  ⟨Nat.le_refl 24, region_zero⟩

theorem Archive.intact_emptyFile (path : String) (mode : SaveMode) (encoding : Encoding) :
    Archive.Intact { path, mode, encoding, header := {}, members := [] } Archive.emptyFile mode
      encoding Catalog.empty where
  mode_eq := rfl
  encoding_eq := rfl
  laid := ⟨List.nodup_nil, by simp, by simp, fun _ _ => rfl, by simp, by simp⟩
  indexed := ⟨List.prefix_refl _, rfl, rfl, .inl (Nat.le_refl 24), by simp,
    fun _ _ => Archive.listedIn_emptyFile path mode encoding⟩
  unbuffered := by simp

/-- A new archive has no files. -/
theorem Work.createArchive_spec (harchive : before.archive = none)
    (hhandles : before.handles = []) :
    Ends (Work.createArchive mode) before
      (fun _ session => ∃ archive file,
        session.Sound mode before.encoding Catalog.empty archive file ∧ Fits file
          ∧ session.encoding = before.encoding ∧ archive.members = [] ∧ archive.ListedIn file
          ∧ session.handles = [])
      anyFailure := by
  simp only [Work.createArchive, Work.leaveAny, Work.openArchive, Work.load, ends_bind, ends_get,
    harchive, Option.isSome_none, Bool.false_eq_true, if_false, ends_pure]
  split
  · exact trivial
  · simp only [ends_bind, ends_pure, ends_modify, ends_get, harchive, Option.isSome_none,
      Bool.false_eq_true, if_false, Work.ofArchive, ends_mk, Archive.load,
      Archive.readIndex_emptyFile]
    refine ⟨fun archive hok => ?_, fun _ _ => trivial⟩
    obtain rfl := Except.ok.inj hok
    refine ⟨_, _, ⟨rfl, rfl, Archive.intact_emptyFile _ mode _, ?_, ?_⟩, ?_, trivial, rfl,
      Archive.listedIn_emptyFile _ mode _, hhandles⟩
    · rw [hhandles]
      exact .nil
    · rintro name ⟨m, hm, -⟩
      cases hm
    · show 24 < UInt32.size
      decide

/-! ## Operations -/

/-- After an operation, the session is sound for the catalog that it should have given. -/
theorem Operation.sound (h : session.Sound mode encoding catalog archive file) (op : Operation)
    (hsurvives : ∀ name, op.made? = some name → encoding.Survives name) :
    Ends op.work session
      (fun answer after =>
        after.SoundIfFits mode encoding (op.effect session (.ok answer) catalog))
      fun e after => after.SoundIfFits mode encoding (op.effect session (.error e) catalog) := by
  have hlocal (hop : op.isLocal = true) : Ends op.work session
      (fun answer after =>
        after.SoundIfFits mode encoding (op.effect session (.ok answer) catalog))
      fun e after => after.SoundIfFits mode encoding (op.effect session (.error e) catalog) := by
    simp only [effect_of_isLocal hop]
    exact (touches h.archive_eq hop).mono
      (fun _ _ htouches => Session.soundIfFits (h.touched htouches))
      fun _ _ htouches => Session.soundIfFits (h.touched htouches)
  -- the effect follows the answer, so every operation is taken with each answer that it may give
  cases op with
  | writeAll name contents =>
    rw [work, Work.ends_on h.archive_eq h.file_eq]
    refine (Change.writeAll_spec h.intact (hsurvives name rfl) contents).mono ?_ ?_
    · rintro (_ | _) store hleaves
      · exact Session.soundIfFits_withStore hleaves h.sorted h.writes
      · exact Session.soundIfFits_withStore hleaves h.sorted h.writes
    · exact fun _ store hleaves => Session.soundIfFits_withStore hleaves h.sorted h.writes
  | createFile number name => exact Work.createFile_spec h (hsurvives name rfl) number
  | openFile number name =>
    exact (Work.openFile_spec h number name).mono (fun _ _ hopened => hopened.1)
      fun _ _ hrefused => hrefused.1
  | openFileMut number name => exact Work.openFileMut_spec h number name
  | readHandle | seekHandle | writeHandle | resizeHandle => exact hlocal rfl
  | closeHandle number =>
    simp only [work, ends_bind, ends_pure]
    refine (Work.closeHandle_spec h number).mono ?_ ?_
    · rintro _ after ⟨found, hlookup, hsound⟩
      simp only [effect, hlookup]
      exact hsound
    · exact fun _ _ hsound => hsound
  | dropHandle number =>
    simp only [work, ends_bind, ends_pure]
    exact Work.dropHandle_spec h number
  | deleteFile name =>
    rw [work, Work.ends_on h.archive_eq h.file_eq]
    refine (Change.deleteFile_spec h.intact name).mono ?_ ?_
    · rintro (_ | _) store hleaves
      · exact Session.soundIfFits (Session.sound_withStore hleaves h.sorted h.writes)
      · exact Session.soundIfFits (Session.sound_withStore hleaves h.sorted h.writes)
    · exact fun _ store hleaves =>
        Session.soundIfFits (Session.sound_withStore hleaves h.sorted h.writes)
  | flush =>
    simp only [work, ends_bind, ends_pure]
    rw [Work.ends_on h.archive_eq h.file_eq]
    refine (Change.flush_spec h.intact).mono ?_ ?_
    · exact fun _ store hflushed => Session.soundIfFits_withStore hflushed.1 h.sorted h.writes
    · exact fun _ store hleaves => Session.soundIfFits_withStore hleaves h.sorted h.writes
  | compact =>
    simp only [work, ends_bind, ends_pure]
    rw [Work.ends_on h.archive_eq h.file_eq]
    refine (Change.compact_spec h.intact).mono ?_ ?_
    · exact fun _ store hpacked => Session.soundIfFits_withStore hpacked.1 h.sorted h.writes
    · exact fun _ store hleaves => Session.soundIfFits_withStore hleaves h.sorted h.writes

/-- The operation, done in one session, ends in another with this answer.  It makes only files
whose names survive, and its file stays below 4 GiB. -/
structure Operation.Leads (op : Operation) (encoding : Encoding) (session : Session)
    (answer : Except SessionError Bool) (after : Session) : Prop where
  run : (op.work.run.run session : Except SessionError Bool × Session) = (answer, after)
  survives : ∀ name, op.made? = some name → encoding.Survives name
  fits : ∀ file, after.file = some file → Fits file

/-- The sessions that operations lead to from a new archive, with the catalog they should have. -/
inductive Reachable (mode : SaveMode) (encoding : Encoding) : Session → Catalog → Prop where
  | create {before session : Session} (harchive : before.archive = none)
      (hhandles : before.handles = []) (hencoding : before.encoding = encoding)
      (hrun : ((Work.createArchive mode).run.run before : Except SessionError Unit × Session)
        = (.ok (), session)) :
      Reachable mode encoding session Catalog.empty
  | step {session after : Session} {catalog : Catalog} {answer : Except SessionError Bool}
      (op : Operation) (h : Reachable mode encoding session catalog)
      (hleads : op.Leads encoding session answer after) :
      Reachable mode encoding after (op.effect session answer catalog)

/-! ## Computing with sessions -/

theorem exists_of_isOk {ε α : Type} {r : Except ε α} (h : r.isOk = true) : ∃ a, r = .ok a := by
  cases r with
  | error e => cases h
  | ok a => exact ⟨a, rfl⟩

namespace Work

variable {α : Type}

/-- How a step ends. -/
def answer (work : Work α) (session : Session) : Except SessionError α := (work.run.run session).1

/-- The session after a step, however it ends. -/
def after (work : Work α) (session : Session) : Session := (work.run.run session).2

end Work

theorem survives_of_eq_some {text : String} (h : Encoding.isAscii text = true) :
    ∀ name, some text = some name → encoding.Survives name := by
  rintro _ ⟨⟩
  exact Encoding.survives_of_isAscii h

/-- The session of a new archive. -/
def Session.new (mode : SaveMode) (encoding : Encoding) : Session :=
  (Work.createArchive mode).after { path := "data.ykc", encoding, file := none }

/-- The session after steps in a row, however each of them ends. -/
def Session.perform {α β : Type} (work : α → Work β) (session : Session) (steps : List α) :
    Session :=
  steps.foldl (fun session step => (work step).after session) session

theorem fits_of_all (h : session.file.all (fun file => file.length < UInt32.size) = true) :
    ∀ file, session.file = some file → Fits file := by
  intro file hfile
  rw [hfile] at h
  simpa [Fits] using h

/-- A new archive is made, unless it is for reading alone. -/
theorem Session.new_run (hmode : mode ≠ .readOnly) :
    ((Work.createArchive mode).run.run { path := "data.ykc", encoding, file := none } :
      Except SessionError Unit × Session) = (.ok (), Session.new mode encoding) := by
  have hok : ((Work.createArchive mode).answer { path := "data.ykc", encoding, file := none }).isOk
      = true := by
    cases mode with
    | readOnly => exact absurd rfl hmode
    | explicit | flush | immediate => cases encoding <;> rfl
  obtain ⟨_, hrun⟩ := exists_of_isOk hok
  exact Prod.ext hrun rfl

/-- A new archive has no files. -/
theorem Reachable.new (hmode : mode ≠ .readOnly) :
    Reachable mode encoding (Session.new mode encoding) Catalog.empty :=
  .create rfl rfl rfl (Session.new_run hmode)

/-- An operation leads on if its file stays below 4 GiB. -/
theorem Reachable.next (h : Reachable mode encoding session catalog) (op : Operation)
    (hsurvives : ∀ name, op.made? = some name → encoding.Survives name)
    (hfits : (op.work.after session).file.all (fun file => file.length < UInt32.size) = true) :
    Reachable mode encoding (op.work.after session)
      (op.effect session (op.work.answer session) catalog) :=
  .step op h ⟨rfl, hsurvives, fits_of_all hfits⟩

/-- An operation that makes no file leads on with its answer. -/
theorem Operation.leads_of_isOk (op : Operation) (session : Session) (hmade : op.made? = none)
    (hok : (op.work.answer session).isOk = true)
    (hfits : (op.work.after session).file.all (fun file => file.length < UInt32.size) = true) :
    ∃ answer, op.Leads encoding session (.ok answer) (op.work.after session) := by
  obtain ⟨answer, hrun⟩ := exists_of_isOk hok
  refine ⟨answer, Prod.ext hrun rfl, fun name hname => ?_, fits_of_all hfits⟩
  rw [hmade] at hname
  cases hname

theorem Reachable.sound (h : Reachable mode encoding session catalog) :
    ∃ archive file, session.Sound mode encoding catalog archive file ∧ Fits file := by
  -- every session on the way is sound, which each operation preserves
  induction h with
  | create harchive hhandles hencoding hrun =>
    have hends := (Work.createArchive_spec harchive hhandles).of_run hrun
    obtain ⟨archive, file, hsound, hfits, -⟩ := hends.1 () rfl
    exact ⟨archive, file, hencoding ▸ hsound, hfits⟩
  | @step session after catalog answer op _ hleads ih =>
    obtain ⟨archive, file, hsound, -⟩ := ih
    have hends := (op.sound hsound hleads.survives).of_run hleads.run
    have hafter : after.SoundIfFits mode encoding (op.effect session answer catalog) := by
      cases answer with
      | ok a => exact hends.1 a rfl
      | error e => exact hends.2 e rfl
    obtain ⟨archive', file', hsound'⟩ := hafter hleads.fits
    exact ⟨archive', file', hsound', hleads.fits file' hsound'.file_eq⟩

/-! ## What a program finds -/

/-- A lone star matches every name. -/
theorem Pattern.Glob.matchTokens_anySequence (chars : List Char) :
    matchTokens [.anySequence] chars = true := by
  have hrun : behindRun false (matchTokens []) chars = true := by
    induction chars with
    | nil => rfl
    | cons c chars ih => rw [behindRun, ih, Bool.or_true]
  rw [matchTokens, hrun, Bool.or_true]

theorem Archive.filesMatching_star (archive : Archive) :
    archive.filesMatching "*" = .ok (archive.files.map (·.name)) := by
  have hparse : Pattern.Glob.parse "*" = .ok ⟨[.anySequence]⟩ := by rfl
  have haccepts : ∀ name : String, Pattern.Glob.accepts ⟨[.anySequence]⟩ name = true :=
    fun name => Pattern.Glob.matchTokens_anySequence name.toList
  rw [filesMatching, hparse]
  dsimp only
  rw [List.filter_eq_self.mpr fun name _ => haccepts name]

/-- The files of an intact archive are those of the catalog. -/
theorem Archive.Intact.mem_files_iff (h : archive.Intact file mode encoding catalog) :
    name ∈ archive.files.map (·.name) ↔ (catalog name).isSome := by
  constructor
  · intro hname
    obtain ⟨m, hm, rfl⟩ := List.mem_map.mp hname
    obtain ⟨hm, hfile⟩ := List.mem_filter.mp hm
    obtain ⟨octets, hcatalog, -⟩ := (h.laid.held m hm).contents (by simpa using hfile)
    rw [hcatalog, Option.isSome_some]
  · intro hsome
    cases hfile : archive.file? name with
    | none =>
      rw [h.file?_eq_none_iff.mp hfile] at hsome
      cases hsome
    | some m =>
      obtain ⟨hm, hname, hcreated⟩ := Archive.file?_eq_some hfile
      exact List.mem_map.mpr ⟨m, List.mem_filter.mpr ⟨hm, by simpa using hcreated⟩, hname⟩

/-- What a program finds in a session is what the catalog says.  Only files that are open for
writing are not read. -/
structure Session.Shows (session : Session) (catalog : Catalog) : Prop where
  listing : ∃ archive names, session.archive = some archive
    ∧ archive.filesMatching "*" = .ok names ∧ names.Nodup ∧ archive.size = names.length
    ∧ ∀ name, (name ∈ names ↔ (catalog name).isSome)
      ∧ archive.contains name = (catalog name).isSome
  readAll : ∀ name, ¬ session.Writes name → Ends (Work.on (Change.readAll name)) session
    (fun contents _ => catalog name = some contents)
    fun e _ => e = .archive (.notFound name) ∧ catalog name = none
  openFile : ∀ number name, ¬ session.Writes name → Ends (Work.openFile number name) session
    (fun opened after => opened = true ∧ ∃ contents, catalog name = some contents
      ∧ after.handles.lookup number = some ⟨.reader, name, { contents }⟩)
    fun e _ => e = .archive (.notFound name) ∧ catalog name = none

theorem Session.Sound.shows (h : session.Sound mode encoding catalog archive file) :
    session.Shows catalog where
  listing := by
    refine ⟨archive, archive.files.map (·.name), h.archive_eq, archive.filesMatching_star, ?_,
      by rw [List.length_map, Archive.size], fun name => ⟨h.intact.mem_files_iff, ?_⟩⟩
    · exact h.intact.laid.unique.sublist (List.filter_sublist.map _)
    · rw [Archive.contains]
      cases hfile : archive.file? name with
      | none => rw [h.intact.file?_eq_none_iff.mp hfile, Option.isSome_none, Option.isSome_none]
      | some m =>
        obtain ⟨octets, hcatalog, -⟩ := h.intact.contents hfile
        rw [hcatalog, Option.isSome_some, Option.isSome_some]
  readAll name hname := by
    refine (Work.ends_on h.archive_eq h.file_eq).mpr ?_
    simp only [Change.readAll, Archive.readAll, ends_bind, ends_get, Change.of, ends_mk]
    cases hfile : archive.file? name with
    | none =>
      refine ⟨fun contents hok => (by cases hok), fun e he => ?_⟩
      obtain rfl := Except.error.inj he
      exact ⟨rfl, h.intact.file?_eq_none_iff.mp hfile⟩
    | some m =>
      obtain ⟨hm, hmname, -⟩ := Archive.file?_eq_some hfile
      obtain ⟨octets, hcatalog, hcontents⟩ := h.intact.contents hfile
      -- only a file that is open for writing is not read
      have hidle : ¬ m.writer = true :=
        fun hwriter => hname (h.writes name ⟨m, hm, hmname, hwriter⟩)
      simp only [if_neg hidle, hcontents]
      refine ⟨fun contents hok => ?_, fun e he => by cases he⟩
      exact Except.ok.inj hok ▸ hcatalog
  openFile number name hname := by
    refine (Work.openFile_spec h number name).mono ?_ fun _ _ hrefused => hrefused.2
    rintro (_ | _) after ⟨-, hopened⟩
    · exact absurd hopened hname
    · exact ⟨rfl, hopened⟩

/-- However operations have led to a session, a program finds in it the files that they should have
given. -/
theorem Reachable.shows (h : Reachable mode encoding session catalog) : session.Shows catalog := by
  obtain ⟨archive, file, hsound, -⟩ := h.sound
  exact hsound.shows

end NovelScript
