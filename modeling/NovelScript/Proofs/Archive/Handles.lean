import NovelScript.Proofs.Archive.Sessions

/-!
# What a program does with an open archive

`Operation` names the steps of a session on an open archive, and `Operation.effect` says what each
of them should do to the catalog: only a file that is written as a whole, a handle for writing that
is closed and a file that is deleted change it.  Whatever the operation and however it ends, the
session is sound for that catalog afterwards (`Operation.sound`).
-/

namespace NovelScript

/-- What a program does with an open archive.  Handles are given by their numbers. -/
inductive Operation where
  | writeAll (name : String) (contents : Bytes)
  | createFile (number : Nat) (name : String)
  | openFile (number : Nat) (name : String)
  | openFileMut (number : Nat) (name : String)
  | readHandle (number count : Nat)
  | seekHandle (number : Nat) (whence : Whence) (offset : Int)
  | writeHandle (number : Nat) (octets : Bytes)
  | resizeHandle (number size : Nat)
  | closeHandle (number : Nat)
  | dropHandle (number : Nat)
  | deleteFile (name : String)
  | flush
  | compact

/-- The catalog after a handle is closed: what was written through it is saved. -/
def Handle.closed (handle : Handle) (catalog : Catalog) : Catalog :=
  match handle.kind with
  | .reader => catalog
  | .writer => catalog.put handle.name handle.cursor.contents

namespace Operation

/-- The operation as a step of a session.  It answers whether it was possible. -/
def work : Operation → Work Bool
  | writeAll name contents => Work.on (Change.writeAll name contents)
  | createFile number name => Work.createFile number name
  | openFile number name => Work.openFile number name
  | openFileMut number name => Work.openFileMut number name
  | readHandle number count => do
    discard (Work.readHandle number count)
    return true
  | seekHandle number whence offset => do
    discard (Work.seekHandle number whence offset)
    return true
  | writeHandle number octets => do
    discard (Work.writeHandle number octets)
    return true
  | resizeHandle number size => do
    Work.resizeHandle number size
    return true
  | closeHandle number => do
    Work.closeHandle number
    return true
  | dropHandle number => do
    Work.dropHandle number
    return true
  | deleteFile name => Work.on (Change.deleteFile name)
  | flush => do
    Work.on Change.flush
    return true
  | compact => do
    Work.on Change.compact
    return true

/-- The name under which the operation may make a file. -/
def made? : Operation → Option String
  | writeAll name _ | createFile _ name => some name
  | _ => none

/-- The catalog after an operation that has ended with this answer. -/
def effect (session : Session) (answer : Except SessionError Bool) (catalog : Catalog) :
    Operation → Catalog
  | writeAll name contents =>
    match answer with
    | .ok true => catalog.put name contents
    | _ => catalog
  | closeHandle number =>
    match answer, session.handles.lookup number with
    | .ok _, some handle => handle.closed catalog
    | _, _ => catalog
  | deleteFile name =>
    match answer with
    | .ok true => catalog.remove name
    | _ => catalog
  | _ => catalog

/-- Whether the operation works on the copy of a handle alone. -/
def isLocal : Operation → Bool
  | readHandle .. | seekHandle .. | writeHandle .. | resizeHandle .. => true
  | _ => false

variable {session : Session} {answer : Except SessionError Bool} {catalog : Catalog}

theorem effect_of_isLocal {op : Operation} (h : op.isLocal = true) :
    op.effect session answer catalog = catalog := by
  cases op with
  | readHandle | seekHandle | writeHandle | resizeHandle => rfl
  | _ => cases h

theorem touches {archive : Archive} (harchive : session.archive = some archive) {op : Operation}
    (hop : op.isLocal = true) :
    Ends op.work session (fun _ => session.Touches) fun _ => session.Touches := by
  cases op with
  | readHandle number count =>
    simp only [work, Work.readHandle, ends_bind, ends_discard, ends_pure]
    refine (Work.handle_spec harchive number).mono ?_ ?_
    · rintro found _ ⟨rfl, -⟩
      exact Work.setCursor_touches number _
    · rintro _ _ rfl
      exact Session.touches_self _
  | seekHandle number whence offset =>
    simp only [work, Work.seekHandle, ends_bind, ends_discard, ends_pure]
    refine (Work.handle_spec harchive number).mono ?_ ?_
    · rintro found _ ⟨rfl, -⟩
      split
      · exact Session.touches_self _
      · exact ends_bind.mpr (Work.setCursor_touches number _)
    · rintro _ _ rfl
      exact Session.touches_self _
  | writeHandle number octets =>
    simp only [work, Work.writeHandle, ends_bind, ends_discard, ends_pure]
    refine (Work.writer_spec harchive number).mono ?_ ?_
    · rintro found _ ⟨rfl, -⟩
      exact Work.setCursor_touches number _
    · rintro _ _ rfl
      exact Session.touches_self _
  | resizeHandle number size =>
    simp only [work, Work.resizeHandle, ends_bind, ends_pure]
    refine (Work.writer_spec harchive number).mono ?_ ?_
    · rintro found _ ⟨rfl, -⟩
      exact Work.setCursor_touches number _
    · rintro _ _ rfl
      exact Session.touches_self _
  | _ => cases hop

end Operation

namespace Work

variable {session : Session} {mode : SaveMode} {encoding : Encoding} {catalog : Catalog}
  {archive : Archive} {file : Bytes} {number : Nat} {name : String}
  (h : session.Sound mode encoding catalog archive file)

include h

/-! ## Handles -/

theorem openFile_spec (number : Nat) (name : String) :
    Ends (openFile number name) session
      (fun answer session' => session'.SoundIfFits mode encoding catalog
        ∧ if answer then ∃ contents, catalog name = some contents
            ∧ session'.handles.lookup number = some ⟨.reader, name, { contents }⟩
          else session.Writes name)
      fun e session' => session'.SoundIfFits mode encoding catalog
        ∧ e = .archive (.notFound name) ∧ catalog name = none := by
  simp only [openFile, ends_bind]
  rw [ends_on h.archive_eq h.file_eq]
  refine (Change.openFile_spec h.intact name).mono ?_ ?_
  · rintro answer store ⟨hfile, hleaves, hanswer⟩
    have hsound := Session.sound_withStore hleaves h.sorted h.writes
    cases answer with
    | none => exact ⟨Session.soundIfFits hsound, h.writes name hanswer⟩
    | some contents =>
      simp only [ends_bind, ends_pure]
      have hkeep : Ends (keep number ⟨.reader, name, { contents }⟩) (session.withStore store) _ _ :=
        keep_spec hsound.archive_eq hsound.file_eq hsound.intact hsound.sorted
          fun other hother => .inl (hsound.writes other hother)
      refine hkeep.of_noFailure.imp ?_
      rintro _ session' ⟨⟨archive', hsound'⟩, hlookup⟩
      exact ⟨Session.soundIfFits hsound', contents, hanswer, hlookup⟩
  · rintro e store ⟨rfl, rfl, hnone⟩
    exact ⟨Session.soundIfFits h.unchanged, rfl, hnone⟩

/-- A handle for writing is kept for the file that is being written. -/
theorem keep_writer_spec {store : Store} {contents : Bytes}
    (hleaves : Change.Leaves mode encoding catalog
      (fun other => archive.Writes other ∨ other = name) store) :
    Ends (keep number ⟨.writer, name, { contents }⟩) (session.withStore store)
      (fun _ => Session.SoundIfFits mode encoding catalog) noFailure := by
  have hkeep : Ends (keep number ⟨.writer, name, { contents }⟩) (session.withStore store) _ _ :=
    keep_spec rfl rfl hleaves.intact h.sorted ?_
  · exact hkeep.imp fun _ session' hkept => hkept.1.elim fun _ => Session.soundIfFits
  · intro other hother
    rcases hleaves.writes other hother with hother | rfl
    · exact .inl (h.writes other hother)
    · exact .inr ⟨rfl, rfl⟩

theorem openFileMut_spec (number : Nat) (name : String) :
    Ends (openFileMut number name) session
      (fun _ => Session.SoundIfFits mode encoding catalog)
      fun _ => Session.SoundIfFits mode encoding catalog := by
  simp only [openFileMut, ends_bind]
  rw [ends_on h.archive_eq h.file_eq]
  refine (Change.openFileMut_spec h.intact name).mono ?_ ?_
  · rintro (_ | contents) store hstore
    · obtain rfl := hstore
      exact Session.soundIfFits h.unchanged
    · obtain ⟨-, -, hleaves⟩ := hstore
      dsimp only
      rw [ends_bind]
      exact (keep_writer_spec h hleaves).of_noFailure
  · rintro _ _ rfl
    exact Session.soundIfFits h.unchanged

theorem createFile_spec (hsurvives : encoding.Survives name) (number : Nat) :
    Ends (createFile number name) session
      (fun _ => Session.SoundIfFits mode encoding catalog)
      fun _ => Session.SoundIfFits mode encoding catalog := by
  simp only [createFile, ends_bind]
  rw [ends_on h.archive_eq h.file_eq]
  refine (Change.createFile_spec h.intact hsurvives).mono ?_ ?_
  · rintro (_ | _) store hstore
    · obtain rfl := hstore
      exact Session.soundIfFits h.unchanged
    · obtain ⟨-, hleaves⟩ := hstore
      rw [if_pos rfl, ends_bind]
      exact (keep_writer_spec h hleaves).of_noFailure
  · rintro _ _ rfl
    exact Session.soundIfFits h.unchanged

/-! ## Giving handles back -/

/-- Without a handle, all others are still there. -/
theorem writes_of_forget {found : Handle} (hlookup : session.handles.lookup number = some found)
    (hname : session.Writes name) :
    Session.Writes { session with handles := session.handles.filter (·.1 ≠ number) } name
      ∨ found.kind = .writer ∧ found.name = name := by
  obtain ⟨entry, hentry, hwriter⟩ := hname
  by_cases hnumber : entry.1 = number
  · have hfound : session.handles.lookup number = some entry.2 :=
      h.sorted.lookup (by rw [← hnumber]; exact hentry)
    obtain rfl := Option.some.inj (hlookup.symm.trans hfound)
    exact .inr hwriter
  · exact .inl ⟨entry, List.mem_filter.mpr ⟨hentry, by simpa using hnumber⟩, hwriter⟩

theorem dropHandle_spec (number : Nat) :
    Ends (dropHandle number) session
      (fun _ => Session.SoundIfFits mode encoding catalog)
      fun _ => Session.SoundIfFits mode encoding catalog := by
  simp only [dropHandle, forget, ends_bind, ends_modify]
  refine (handle_spec h.archive_eq number).mono ?_ ?_
  · rintro found _ ⟨hsame, hlookup⟩
    rw [hsame]
    have hreleased : Ends (release found)
        { session with handles := session.handles.filter (·.1 ≠ number) } _ _ :=
      release_spec h.archive_eq h.file_eq h.intact (h.sorted.filter _)
        fun name hname => writes_of_forget h hlookup (h.writes name hname)
    refine hreleased.of_noFailure.imp ?_
    rintro _ session' ⟨⟨archive', hsound⟩, -⟩
    exact Session.soundIfFits hsound
  · rintro _ _ rfl
    exact Session.soundIfFits h

theorem closeHandle_spec (number : Nat) :
    Ends (closeHandle number) session
      (fun _ session' => ∃ found, session.handles.lookup number = some found
        ∧ session'.SoundIfFits mode encoding (found.closed catalog))
      fun _ => Session.SoundIfFits mode encoding catalog := by
  simp only [closeHandle, forget, ends_bind, ends_modify]
  refine (handle_spec h.archive_eq number).mono ?_ ?_
  · rintro found _ ⟨hsame, hlookup⟩
    rw [hsame]
    -- the handle is forgotten first, so it no longer stands for what it was writing
    have hwriting : ∀ name, archive.Writes name → Session.Writes
        { session with handles := session.handles.filter (·.1 ≠ number) } name
          ∨ found.kind = .writer ∧ found.name = name :=
      fun name hname => writes_of_forget h hlookup (h.writes name hname)
    cases hkind : found.kind with
    | reader =>
      have hreleased : Ends (release found)
          { session with handles := session.handles.filter (·.1 ≠ number) } _ _ :=
        release_spec h.archive_eq h.file_eq h.intact (h.sorted.filter _) hwriting
      refine hreleased.of_noFailure.imp ?_
      rintro _ session' ⟨⟨archive', hsound⟩, -⟩
      refine ⟨found, hlookup, ?_⟩
      simp only [Handle.closed, hkind]
      exact Session.soundIfFits hsound
    | writer =>
      -- the commit gives the name back, so the forgotten handle is not missed
      have hstill : ∀ name, archive.Writes name ∧ name ≠ found.name → Session.Writes
          { session with handles := session.handles.filter (·.1 ≠ number) } name := by
        rintro name ⟨hname, hne⟩
        exact (hwriting name hname).resolve_right fun hfound => hne hfound.2.symm
      refine Iff.mpr (ends_on h.archive_eq h.file_eq) ?_
      refine (Change.commit_spec h.intact found.name found.cursor.contents).mono ?_ ?_
      · intro _ store hleaves
        refine ⟨found, hlookup, ?_⟩
        simp only [Handle.closed, hkind]
        exact Session.soundIfFits_withStore hleaves (h.sorted.filter _) hstill
      · intro _ store hleaves
        exact Session.soundIfFits_withStore hleaves (h.sorted.filter _) hstill
  · rintro _ _ rfl
    exact Session.soundIfFits h

end Work
end NovelScript
