import NovelScript.Proofs.Archive.Claiming
import NovelScript.Proofs.Archive.Durability

/-!
# An archive counts the handles of its session

Handles refer to their files by name.  A session `Tracks` its handles if for each name the archive
counts the readers and the writer that the session has on it.  On the way from a claim to the handle
that is kept for it, and from a handle that is forgotten to the file that is given back, handles are
loose: the archive counts them, and the session does not have them.  Every operation ends without
loose handles (`Operation.tracks`).
-/

namespace NovelScript

/-- Whether a handle is of this kind and on the file of this name. -/
def Handle.isOn (kind : HandleKind) (name : String) (handle : Handle) : Bool :=
  handle.kind = kind ∧ handle.name = name

/-- How many live handles of a kind there are on the file of a name. -/
def Session.live (session : Session) (kind : HandleKind) (name : String) : Nat :=
  session.handles.countP (·.2.isOn kind name)

namespace Work

variable {number : Nat} {handle found : Handle} {handles : List (Nat × Handle)}

/-! ## Counting handles -/

/-- Behind a handle there is none of its number, nor of a lower one. -/
theorem Sorted.filter_rest {first : Nat × Handle} {rest : List (Nat × Handle)}
    (h : Sorted (first :: rest)) (hle : number ≤ first.1) :
    rest.filter (·.1 ≠ number) = rest := by
  refine List.filter_eq_self.mpr fun entry hentry => ?_
  have hlt := (List.pairwise_cons.mp h).1 entry hentry
  have hne : entry.1 ≠ number := by omega
  simpa using hne

theorem Sorted.perm_insertHandle (h : Sorted handles) :
    (Work.insertHandle number handle handles).Perm
      ((number, handle) :: handles.filter (·.1 ≠ number)) := by
  induction handles with
  | nil => rfl
  | cons first rest ih =>
    rw [Work.insertHandle]
    split
    · next hlt =>
      have hne : first.1 ≠ number := by omega
      rw [List.filter_cons_of_pos (by simpa using hne), h.filter_rest (Nat.le_of_lt hlt)]
    split
    · next heq =>
      rw [List.filter_cons_of_neg (by simpa using heq.symm), h.filter_rest (Nat.le_of_eq heq)]
    · next hne =>
      rw [List.filter_cons_of_pos (by simpa using fun he => hne he.symm)]
      exact ((ih (List.pairwise_cons.mp h).2).cons first).trans (.swap ..)

theorem Sorted.perm_of_lookup (h : Sorted handles) (hlookup : handles.lookup number = some found) :
    handles.Perm ((number, found) :: handles.filter (·.1 ≠ number)) := by
  induction handles with
  | nil => cases hlookup
  | cons first rest ih =>
    rw [List.lookup_cons] at hlookup
    by_cases heq : number = first.1
    · rw [beq_iff_eq.mpr heq] at hlookup
      obtain rfl := Option.some.inj hlookup
      rw [List.filter_cons_of_neg (by simpa using heq.symm), h.filter_rest (Nat.le_of_eq heq), heq]
    · rw [beq_eq_false_iff_ne.mpr heq] at hlookup
      rw [List.filter_cons_of_pos (by simpa using fun he => heq he.symm)]
      exact ((ih (List.pairwise_cons.mp h).2 hlookup).cons _).trans (.swap ..)

end Work

namespace Session

variable {session : Session} {mode : SaveMode} {encoding : Encoding} {loose : List Handle}
  {archive : Archive} {file : Bytes} {handle : Handle} {kind : HandleKind} {name : String}
  {number : Nat} {store : Store}

/-- The archive counts on every file the handles of the session and those in `loose`, which are
about to be kept or to be given back. -/
structure Tracks (session : Session) (mode : SaveMode) (encoding : Encoding)
    (loose : List Handle) (archive : Archive) (file : Bytes) : Prop where
  archive_eq : session.archive = some archive
  file_eq : session.file = some file
  orderly : archive.Orderly mode encoding
  sorted : Work.Sorted session.handles
  count_eq : ∀ kind name,
    archive.count kind name = session.live kind name + loose.countP (·.isOn kind name)

/-- The session tracks its handles and those in `loose`. -/
def Tracked (mode : SaveMode) (encoding : Encoding) (loose : List Handle) (session : Session) :
    Prop :=
  ∃ archive file, session.Tracks mode encoding loose archive file

theorem Tracks.tracked (h : session.Tracks mode encoding loose archive file) :
    session.Tracked mode encoding loose :=
  ⟨archive, file, h⟩

/-- What an archive counts, it knows the standing of. -/
theorem Tracks.standing (h : session.Tracks mode encoding (handle :: loose) archive file) :
    ∃ st, archive.standing handle.name = some st ∧ 0 < st.count handle.kind := by
  refine Archive.exists_of_count_pos ?_
  rw [h.count_eq, List.countP_cons_of_pos (by simp [Handle.isOn])]
  omega

/-- How many handles of other numbers than this one there are on the file of a name. -/
def liveBeside (session : Session) (number : Nat) (kind : HandleKind) (name : String) : Nat :=
  (session.handles.filter (·.1 ≠ number)).countP (·.2.isOn kind name)

theorem live_insertHandle (hsorted : Work.Sorted session.handles) :
    live { session with handles := Work.insertHandle number handle session.handles } kind name
      = session.liveBeside number kind name
        + if handle.kind = kind ∧ handle.name = name then 1 else 0 := by
  rw [live, hsorted.perm_insertHandle.countP_eq, List.countP_cons, liveBeside]
  simp [Handle.isOn]

theorem live_of_lookup (hsorted : Work.Sorted session.handles) {found : Handle}
    (hlookup : session.handles.lookup number = some found) :
    session.live kind name = session.liveBeside number kind name
      + if found.kind = kind ∧ found.name = name then 1 else 0 := by
  rw [live, (hsorted.perm_of_lookup hlookup).countP_eq, List.countP_cons, liveBeside]
  simp [Handle.isOn]

theorem live_of_lookup_none (hlookup : session.handles.lookup number = none) :
    session.live kind name = session.liveBeside number kind name := by
  rw [live, liveBeside, List.filter_eq_self.mpr]
  intro entry hentry
  have hne := List.lookup_eq_none_iff.mp hlookup entry hentry
  simpa using fun he => (bne_iff_ne.mp hne) he.symm

theorem countP_isOn_cons :
    (handle :: loose).countP (·.isOn kind name) = loose.countP (·.isOn kind name)
      + if handle.kind = kind ∧ handle.name = name then 1 else 0 := by
  rw [List.countP_cons]
  simp [Handle.isOn]

/-- A handle that the archive counts is loose until it is kept. -/
theorem Tracks.gains (h : session.Tracks mode encoding loose archive file)
    (horderly : store.archive.Orderly mode encoding)
    (hgains : Archive.Gains handle.kind handle.name archive store.archive) :
    (session.withStore store).Tracks mode encoding (handle :: loose) store.archive store.file where
  archive_eq := rfl
  file_eq := rfl
  orderly := horderly
  sorted := h.sorted
  count_eq kind name := by
    rw [hgains kind name, h.count_eq, countP_isOn_cons, Nat.add_assoc]
    rfl

/-- A loose handle that is given back is not counted any more. -/
theorem Tracks.loses (h : session.Tracks mode encoding (handle :: loose) archive file)
    (horderly : store.archive.Orderly mode encoding)
    (hloses : Archive.Gains handle.kind handle.name store.archive archive) :
    (session.withStore store).Tracks mode encoding loose store.archive store.file where
  archive_eq := rfl
  file_eq := rfl
  orderly := horderly
  sorted := h.sorted
  count_eq kind name := by
    have hcount := h.count_eq kind name
    rw [hloses kind name, countP_isOn_cons, ← Nat.add_assoc] at hcount
    exact Nat.add_right_cancel hcount

/-- A step that counts what was counted leaves the handles tracked. -/
theorem Tracks.keeps (h : session.Tracks mode encoding loose archive file)
    (horderly : store.archive.Orderly mode encoding)
    (hcount : store.archive.count = archive.count) :
    (session.withStore store).Tracks mode encoding loose store.archive store.file :=
  ⟨rfl, rfl, horderly, h.sorted, fun kind name => hcount ▸ h.count_eq kind name⟩

/-- A step that does nothing to the archive leaves the handles tracked. -/
theorem Tracks.same (h : session.Tracks mode encoding loose archive file) :
    (session.withStore ⟨file, session.scratch, archive, session.warnings⟩).Tracks mode encoding
      loose archive file :=
  h.keeps h.orderly rfl

theorem Tracks.touched (h : session.Tracks mode encoding loose archive file) {after : Session}
    (htouches : session.Touches after) : after.Tracks mode encoding loose archive file := by
  obtain ⟨f, hf, rfl⟩ := htouches
  refine ⟨h.archive_eq, h.file_eq, h.orderly, List.pairwise_map.mpr (h.sorted.imp ?_), ?_⟩
  · intro a b hlt
    rwa [(hf a).1, (hf b).1]
  · intro kind name
    rw [h.count_eq, live, live, List.countP_map]
    simp only [Function.comp_def, Handle.isOn, hf]

/-- A handle that is forgotten is loose. -/
theorem Tracks.forget (h : session.Tracks mode encoding loose archive file) {found : Handle}
    (hlookup : session.handles.lookup number = some found) :
    Tracks { session with handles := session.handles.filter (·.1 ≠ number) } mode encoding
      (found :: loose) archive file where
  archive_eq := h.archive_eq
  file_eq := h.file_eq
  orderly := h.orderly
  sorted := h.sorted.filter _
  count_eq kind name := by
    rw [h.count_eq, live_of_lookup h.sorted hlookup, countP_isOn_cons, Nat.add_right_comm,
      Nat.add_assoc]
    rfl

end Session

/-! ## Keeping handles and giving them back -/

namespace Work

variable {session : Session} {mode : SaveMode} {encoding : Encoding} {loose : List Handle}
  {archive : Archive} {file : Bytes} {handle : Handle} {number : Nat} {name : String}
  {store : Store} {st : Standing}

theorem release_tracks (h : session.Tracks mode encoding (handle :: loose) archive file) :
    Ends (release handle) session
      (fun _ => Session.Tracked mode encoding loose) noFailure := by
  obtain ⟨st, hst, hcount⟩ := h.standing
  have hsound := h.orderly.sound _ _ hst
  unfold release
  cases hkind : handle.kind with
  | reader =>
    rw [hkind] at hcount
    rw [ends_on h.archive_eq h.file_eq]
    refine (Change.releaseReader_stands h.orderly hst hcount).imp fun _ store hstands => ?_
    refine ⟨_, _, h.loses hstands.orderly (Archive.loses_of_update hstands.standing_eq ?_)⟩
    intro kind'
    rw [Archive.count_of_standing hst, hkind]
    simp only [Standing.count] at hcount
    cases kind' <;> simp [Standing.count]
    omega
  | writer =>
    have hwriter : st.writer = true := Standing.writer_of_count_pos (hkind ▸ hcount)
    rw [ends_on h.archive_eq h.file_eq]
    refine (Change.discardWriter_stands h.orderly hst).imp fun _ store hstands => ?_
    refine ⟨_, _, h.loses hstands.orderly (Archive.loses_of_update hstands.standing_eq ?_)⟩
    intro kind'
    rw [Archive.count_of_standing hst, hkind, Standing.dropped]
    split
    · cases kind' <;> simp [Standing.count, hwriter, hsound.alone hwriter]
    · cases kind' <;> simp [Standing.count, hwriter]

theorem keep_tracks (h : session.Tracks mode encoding (handle :: loose) archive file) :
    Ends (keep number handle) session
      (fun _ => Session.Tracked mode encoding loose) noFailure := by
  simp only [keep, ends_bind, ends_get, ends_modify]
  have hcount (kind : HandleKind) (name : String) := h.count_eq kind name
  simp only [Session.countP_isOn_cons] at hcount
  cases hold : session.handles.lookup number with
  | none =>
    refine ⟨archive, file, h.archive_eq, h.file_eq, h.orderly, h.sorted.insertHandle, ?_⟩
    intro kind name
    rw [hcount, Session.live_insertHandle h.sorted, Session.live_of_lookup_none hold]
    omega
  | some old =>
    have hloose : Session.Tracks
        { session with handles := insertHandle number handle session.handles } mode encoding
        (old :: loose) archive file :=
      ⟨h.archive_eq, h.file_eq, h.orderly, h.sorted.insertHandle, ?_⟩
    · exact release_tracks hloose
    intro kind name
    rw [hcount, Session.live_insertHandle h.sorted, Session.live_of_lookup h.sorted hold,
      Session.countP_isOn_cons]
    omega

/-- A handle is kept for a file that was claimed for it. -/
theorem keep_claimed {E : SessionError → Session → Prop}
    (h : session.Tracks mode encoding [] archive file)
    (horderly : store.archive.Orderly mode encoding)
    (hgains : Archive.Gains handle.kind handle.name archive store.archive) :
    Ends (keep number handle) (session.withStore store)
      (fun _ => Session.Tracked mode encoding []) E := by
  exact (keep_tracks (h.gains horderly hgains)).of_noFailure

section

variable (h : session.Tracks mode encoding [] archive file)

include h

theorem openFile_tracks (number : Nat) (name : String) :
    Ends (openFile number name) session (fun _ => Session.Tracked mode encoding [])
      fun _ => Session.Tracked mode encoding [] := by
  rw [openFile, ends_bind, ends_on h.archive_eq h.file_eq]
  refine (Change.openFile_stands h.orderly name).mono ?_ ?_
  · rintro (_ | contents) store hstore
    · obtain rfl := hstore
      exact h.same.tracked
    · obtain ⟨st, hst, hstands⟩ := hstore
      refine ends_bind.mpr (keep_claimed h hstands.orderly ?_)
      refine Archive.gains_of_update hstands.standing_eq fun kind => ?_
      rw [Archive.count_of_standing hst, Option.elim_some]
      cases kind <;> simp [Standing.count]
  · rintro _ _ rfl
    exact h.same.tracked

theorem openFileMut_tracks (number : Nat) (name : String) :
    Ends (openFileMut number name) session (fun _ => Session.Tracked mode encoding [])
      fun _ => Session.Tracked mode encoding [] := by
  rw [openFileMut, ends_bind, ends_on h.archive_eq h.file_eq]
  refine (Change.openFileMut_stands h.orderly name).mono ?_ ?_
  · rintro (_ | contents) store hstore
    · obtain rfl := hstore
      exact h.same.tracked
    · obtain ⟨st, hst, hreaders, hwriter, hstands⟩ := hstore
      refine ends_bind.mpr (keep_claimed h hstands.orderly ?_)
      exact Archive.gains_of_claim (by rw [hst, Option.getD_some]) hreaders hwriter
        hstands.standing_eq
  · rintro _ _ rfl
    exact h.same.tracked

theorem createFile_tracks (hsurvives : encoding.Survives name) (number : Nat) :
    Ends (createFile number name) session (fun _ => Session.Tracked mode encoding [])
      fun _ => Session.Tracked mode encoding [] := by
  rw [createFile, ends_bind, ends_on h.archive_eq h.file_eq]
  refine (Change.createFile_stands h.orderly hsurvives).mono ?_ ?_
  · rintro (_ | _) store hstore
    · obtain rfl := hstore
      exact h.same.tracked
    · obtain ⟨st, hst, hreaders, hwriter, hstands⟩ := hstore
      rw [if_pos rfl]
      exact ends_bind.mpr (keep_claimed h hstands.orderly
        (Archive.gains_of_claim hst hreaders hwriter hstands.standing_eq))
  · rintro _ _ rfl
    exact h.same.tracked

theorem deleteFile_tracks (name : String) :
    Ends (on (Change.deleteFile name)) session (fun _ => Session.Tracked mode encoding [])
      fun _ => Session.Tracked mode encoding [] := by
  rw [ends_on h.archive_eq h.file_eq]
  refine (Change.deleteFile_stands h.orderly name).mono ?_ ?_
  · rintro (_ | _) store hdeleted
    · obtain rfl := hdeleted
      exact h.same.tracked
    · -- a file that is deleted has no handles
      obtain ⟨st, hst, hreaders, hwriter, hstands⟩ := hdeleted
      refine (h.keeps hstands.orderly (funext fun kind => funext fun other => ?_)).tracked
      rw [Archive.count_of_update hstands.standing_eq]
      split
      · next hother =>
        rw [hother, Archive.count_of_standing hst, Option.elim_none]
        cases kind <;> simp [Standing.count, hreaders, hwriter]
      · rfl
  · rintro _ _ rfl
    exact h.same.tracked

theorem dropHandle_tracks (number : Nat) :
    Ends (dropHandle number) session (fun _ => Session.Tracked mode encoding [])
      fun _ => Session.Tracked mode encoding [] := by
  simp only [dropHandle, forget, ends_bind, ends_modify]
  refine (handle_spec h.archive_eq number).mono ?_ ?_
  · rintro found _ ⟨rfl, hlookup⟩
    exact (release_tracks (h.forget hlookup)).of_noFailure
  · rintro _ _ rfl
    exact h.tracked

/-- The archive still knows the file of a handle, so closing a handle never misses it. -/
theorem closeHandle_tracks (number : Nat) :
    Ends (closeHandle number) session (fun _ => Session.Tracked mode encoding [])
      fun e after => after.Tracked mode encoding []
        ∧ ∀ name, e ≠ .archive (.notFound name) := by
  simp only [closeHandle, handle, opened, forget, ends_bind, ends_discard, ends_get, ends_pure,
    h.archive_eq]
  cases hlookup : session.handles.lookup number with
  | none => exact ⟨h.tracked, fun _ he => by cases he⟩
  | some found =>
    have hloose := h.forget hlookup
    simp only [ends_pure, ends_modify]
    cases hkind : found.kind with
    | reader => exact (release_tracks hloose).of_noFailure
    | writer =>
      obtain ⟨st, hst, hcount⟩ := hloose.standing
      have hwriter : st.writer = true := Standing.writer_of_count_pos (hkind ▸ hcount)
      have hreaders : st.readers = 0 := (h.orderly.sound _ _ hst).alone hwriter
      -- the file is given back, whether or not its contents can be saved
      have hback {new : Option Standing} {store : Store}
          (hstands : Change.Stands mode encoding (Function.update archive.standing found.name new)
            store)
          (hnew : ∀ kind, new.elim 0 (·.count kind) = 0) :
          (Session.withStore { session with
            handles := session.handles.filter (·.1 ≠ number) } store).Tracked mode
              encoding [] := by
        refine (hloose.loses hstands.orderly ?_).tracked
        refine Archive.loses_of_update hstands.standing_eq fun kind => ?_
        rw [Archive.count_of_standing hst, hnew, hkind]
        cases kind <;> simp [Standing.count, hwriter, hreaders]
      refine (ends_on hloose.archive_eq hloose.file_eq).mpr ?_
      refine (Change.commit_stands h.orderly hst found.cursor.contents).mono ?_ ?_
      · intro _ store hstands
        exact hback hstands fun kind => by cases kind <;> simp [Standing.count, hreaders]
      · rintro e store ⟨hstands, hfound⟩
        refine ⟨hback hstands fun kind => ?_, fun name he => hfound name ?_⟩
        · rw [Standing.dropped]
          split
          · rfl
          · cases kind <;> simp [Standing.count, hreaders]
        · exact SessionError.archive.inj he

end

end Work

namespace Operation

variable {session : Session} {mode : SaveMode} {encoding : Encoding} {archive : Archive}
  {file : Bytes}

/-- A file that may have been packed stays below 4 GiB. -/
def PacksFit (op : Operation) (mode : SaveMode) (after : Session) : Prop :=
  op.mayPack mode = true → ∀ file, after.file = some file → Fits file

/-- Every operation ends in a session that tracks its handles. -/
theorem tracks (h : session.Tracks mode encoding [] archive file) (op : Operation)
    (hsurvives : ∀ name, op.made? = some name → encoding.Survives name) :
    Ends op.work session (fun _ after => op.PacksFit mode after → after.Tracked mode encoding [])
      fun _ after => op.PacksFit mode after → after.Tracked mode encoding [] := by
  have hany (hends : Ends op.work session (fun _ => Session.Tracked mode encoding [])
      fun _ => Session.Tracked mode encoding []) :
      Ends op.work session (fun _ after => op.PacksFit mode after → after.Tracked mode encoding [])
        fun _ after => op.PacksFit mode after → after.Tracked mode encoding [] :=
    hends.mono (fun _ _ htracked _ => htracked) fun _ _ htracked _ => htracked
  have hlocal (hop : op.isLocal = true) : Ends op.work session
      (fun _ => Session.Tracked mode encoding []) fun _ => Session.Tracked mode encoding [] :=
    (touches h.archive_eq hop).mono (fun _ _ htouches => (h.touched htouches).tracked)
      fun _ _ htouches => (h.touched htouches).tracked
  have hstore {store : Store}
      (hstands : Change.StandsIfFits (op.mayPack mode) mode encoding archive.standing store)
      (hfits : op.PacksFit mode (session.withStore store)) :
      (session.withStore store).Tracked mode encoding [] := by
    obtain ⟨horderly, hstanding⟩ := hstands fun hpacks => hfits hpacks _ rfl
    refine (h.keeps horderly ?_).tracked
    funext kind name
    rw [Archive.count, hstanding, Archive.count]
  cases op with
  | writeAll name contents =>
    refine hany ?_
    rw [work, Work.ends_on h.archive_eq h.file_eq]
    exact (Change.writeAll_keeps h.orderly (hsurvives name rfl) contents).mono
      (fun _ _ hkeeps => (h.keeps hkeeps.1 hkeeps.2).tracked)
      fun _ _ hkeeps => (h.keeps hkeeps.1 hkeeps.2).tracked
  | createFile number name => exact hany (Work.createFile_tracks h (hsurvives name rfl) number)
  | openFile number name => exact hany (Work.openFile_tracks h number name)
  | openFileMut number name => exact hany (Work.openFileMut_tracks h number name)
  | readHandle | seekHandle | writeHandle | resizeHandle => exact hany (hlocal rfl)
  | closeHandle number =>
    refine hany ?_
    simp only [work, ends_bind, ends_pure]
    exact (Work.closeHandle_tracks h number).mono (fun _ _ => id) fun _ _ hclosed => hclosed.1
  | dropHandle number =>
    refine hany ?_
    simp only [work, ends_bind, ends_pure]
    exact Work.dropHandle_tracks h number
  | deleteFile name => exact hany (Work.deleteFile_tracks h name)
  | flush =>
    simp only [work, ends_bind, ends_pure]
    rw [Work.ends_on h.archive_eq h.file_eq]
    exact (Change.flush_stands h.orderly).mono (fun _ _ => hstore) fun _ _ => hstore
  | compact =>
    simp only [work, ends_bind, ends_pure]
    rw [Work.ends_on h.archive_eq h.file_eq]
    exact (Change.compact_stands h.orderly).mono (fun _ _ => hstore) fun _ _ => hstore

end Operation
end NovelScript
