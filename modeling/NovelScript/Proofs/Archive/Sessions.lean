import NovelScript.Archive.Session
import NovelScript.Proofs.Archive.Changes

/-!
# What the handles of a session do to the files

A session is `Sound` for a catalog if its open archive is intact for it and every file that is being
written has its handle.  Handles are kept in the order of their numbers, so that a number has one
handle.
-/

namespace NovelScript

namespace Work

variable {number : Nat} {handle : Handle} {handles : List (Nat × Handle)} {entry : Nat × Handle}

/-! ## Handles by number -/

theorem mem_insertHandle (h : entry ∈ insertHandle number handle handles) :
    entry = (number, handle) ∨ entry ∈ handles := by
  induction handles with
  | nil => exact .inl (List.mem_singleton.mp h)
  | cons first rest ih =>
    rw [insertHandle] at h
    split at h
    · exact (List.mem_cons.mp h)
    split at h
    · exact (List.mem_cons.mp h).imp_right (List.mem_cons_of_mem _)
    · rcases List.mem_cons.mp h with rfl | h
      · exact .inr List.mem_cons_self
      · exact (ih h).imp_right (List.mem_cons_of_mem _)

theorem self_mem_insertHandle : (number, handle) ∈ insertHandle number handle handles := by
  induction handles with
  | nil => exact List.mem_singleton.mpr rfl
  | cons first rest ih =>
    rw [insertHandle]
    split
    · exact List.mem_cons_self
    split
    · exact List.mem_cons_self
    · exact List.mem_cons_of_mem _ ih

/-- Only a handle of the same number makes way. -/
theorem mem_insertHandle_of_ne (h : entry ∈ handles) (hne : entry.1 ≠ number) :
    entry ∈ insertHandle number handle handles := by
  induction handles with
  | nil => cases h
  | cons first rest ih =>
    rw [insertHandle]
    split
    · exact List.mem_cons_of_mem _ h
    split
    · next heq =>
      rcases List.mem_cons.mp h with rfl | h
      · exact absurd heq.symm hne
      · exact List.mem_cons_of_mem _ h
    · rcases List.mem_cons.mp h with rfl | h
      · exact List.mem_cons_self
      · exact List.mem_cons_of_mem _ (ih h)

/-- The numbers of handles go up. -/
def Sorted (handles : List (Nat × Handle)) : Prop := handles.Pairwise fun a b => a.1 < b.1

theorem Sorted.insertHandle (h : Sorted handles) : Sorted (insertHandle number handle handles) := by
  induction handles with
  | nil => exact List.pairwise_singleton _ _
  | cons first rest ih =>
    obtain ⟨hfirst, hrest⟩ := List.pairwise_cons.mp h
    rw [Work.insertHandle]
    split
    · next hlt =>
      refine List.pairwise_cons.mpr ⟨fun b hb => ?_, h⟩
      rcases List.mem_cons.mp hb with rfl | hb
      · exact hlt
      · exact Nat.lt_trans hlt (hfirst b hb)
    split
    · next heq => exact List.pairwise_cons.mpr ⟨fun b hb => heq ▸ hfirst b hb, hrest⟩
    · next hle hne =>
      refine List.pairwise_cons.mpr ⟨fun b hb => ?_, ih hrest⟩
      rcases mem_insertHandle hb with rfl | hb
      · show first.1 < number
        omega
      · exact hfirst b hb

/-- In order, a handle is found by its number. -/
theorem Sorted.lookup (h : Sorted handles) (hmem : (number, handle) ∈ handles) :
    handles.lookup number = some handle := by
  induction handles with
  | nil => cases hmem
  | cons first rest ih =>
    obtain ⟨hfirst, hrest⟩ := List.pairwise_cons.mp h
    rcases List.mem_cons.mp hmem with rfl | hmem
    · exact List.lookup_cons_self
    · have hne : (number == first.1) = false := by
        have hlt := hfirst _ hmem
        simp only [beq_eq_false_iff_ne]
        omega
      rw [List.lookup_cons, hne]
      exact ih hrest hmem

end Work

namespace Session

/-- Whether a handle for writing is open on the file of a name. -/
def Writes (session : Session) (name : String) : Prop :=
  ∃ entry ∈ session.handles, entry.2.kind = .writer ∧ entry.2.name = name

/-- The session with what a step on the archive has left. -/
def withStore (session : Session) (store : Store) : Session :=
  { session with
    file := some store.file
    scratch := store.scratch
    archive := some store.archive
    warnings := store.warnings }

/-- Nothing has changed but, at most, the copies of contents that handles work on. -/
def Touches (session after : Session) : Prop :=
  ∃ f : Nat × Handle → Nat × Handle,
    (∀ entry, (f entry).1 = entry.1 ∧ (f entry).2.kind = entry.2.kind
      ∧ (f entry).2.name = entry.2.name)
    ∧ after = { session with handles := session.handles.map f }

/-- The open archive has the files of the catalog, and what is being written has its handle. -/
structure Sound (session : Session) (mode : SaveMode) (encoding : Encoding) (catalog : Catalog)
    (archive : Archive) (file : Bytes) : Prop where
  archive_eq : session.archive = some archive
  file_eq : session.file = some file
  intact : archive.Intact file mode encoding catalog
  sorted : Work.Sorted session.handles
  writes : ∀ name, archive.Writes name → session.Writes name

/-- Unless its file has become too large, the session is sound for the catalog. -/
def SoundIfFits (mode : SaveMode) (encoding : Encoding) (catalog : Catalog) (session : Session) :
    Prop :=
  (∀ file, session.file = some file → Fits file) →
    ∃ archive file, session.Sound mode encoding catalog archive file

variable {session : Session} {mode : SaveMode} {encoding : Encoding} {catalog : Catalog}
  {store : Store} {writing : String → Prop} {archive : Archive} {file : Bytes}

theorem soundIfFits (h : session.Sound mode encoding catalog archive file) :
    session.SoundIfFits mode encoding catalog := fun _ => ⟨archive, file, h⟩

theorem withStore_self (harchive : session.archive = some archive)
    (hfile : session.file = some file) :
    session.withStore ⟨file, session.scratch, archive, session.warnings⟩ = session := by
  cases session
  simp_all [withStore]

theorem touches_self (session : Session) : session.Touches session :=
  ⟨id, fun _ => ⟨rfl, rfl, rfl⟩, by rw [List.map_id]⟩

/-- The copy of the contents that a handle works on is its own affair. -/
theorem Sound.touched {after : Session} (h : session.Sound mode encoding catalog archive file)
    (htouches : session.Touches after) : after.Sound mode encoding catalog archive file := by
  obtain ⟨f, hf, rfl⟩ := htouches
  refine ⟨h.archive_eq, h.file_eq, h.intact, List.pairwise_map.mpr (h.sorted.imp ?_), ?_⟩
  · intro a b hlt
    rwa [(hf a).1, (hf b).1]
  · intro name hname
    obtain ⟨entry, hentry, hwriter, hentryName⟩ := h.writes name hname
    exact ⟨f entry, List.mem_map_of_mem hentry, (hf entry).2.1.trans hwriter,
      (hf entry).2.2.trans hentryName⟩

/-- A step that does nothing to the archive leaves the session as sound as it was. -/
theorem Sound.unchanged (h : session.Sound mode encoding catalog archive file) :
    (session.withStore ⟨file, session.scratch, archive, session.warnings⟩).Sound mode encoding
      catalog archive file :=
  ⟨rfl, rfl, h.intact, h.sorted, h.writes⟩

/-- A step on the archive leaves a sound session if it leaves the archive intact. -/
theorem sound_withStore (h : Change.Leaves mode encoding catalog writing store)
    (hsorted : Work.Sorted session.handles)
    (hwriting : ∀ name, writing name → session.Writes name) :
    (session.withStore store).Sound mode encoding catalog store.archive store.file where
  archive_eq := rfl
  file_eq := rfl
  intact := h.intact
  sorted := hsorted
  writes name hname := hwriting name (h.writes name hname)

theorem soundIfFits_withStore (h : Change.LeavesIfFits mode encoding catalog writing store)
    (hsorted : Work.Sorted session.handles)
    (hwriting : ∀ name, writing name → session.Writes name) :
    (session.withStore store).SoundIfFits mode encoding catalog :=
  fun hfits => ⟨_, _, sound_withStore (h (hfits _ rfl)) hsorted hwriting⟩

end Session

namespace Work

variable {α : Type} {session : Session} {archive : Archive} {file : Bytes} {change : Change α}
  {Q : α → Session → Prop} {E : SessionError → Session → Prop}

/-- A step on the archive is a step of the session. -/
theorem ends_on (harchive : session.archive = some archive) (hfile : session.file = some file) :
    Ends (on change) session Q E ↔
      Ends change ⟨file, session.scratch, archive, session.warnings⟩
        (fun a store => Q a (session.withStore store))
        fun e store => E (.archive e) (session.withStore store) := by
  simp only [on, opened, ends_bind, ends_get, harchive, ends_pure, hfile, Option.getD_some]
  simp only [Ends]
  rcases (change.run.run ⟨file, session.scratch, archive, session.warnings⟩ :
    Except ArchiveError α × Store) with ⟨e | a, store⟩
  · rfl
  · rfl

/-- A step that changes nothing in the archive changes nothing in the session. -/
theorem on_idles {r : Except ArchiveError α} (harchive : session.archive = some archive)
    (hfile : session.file = some file)
    (h : Idles change ⟨file, session.scratch, archive, session.warnings⟩ r) :
    Idles (on change) session (r.mapError .archive) := by
  have hsame := Session.withStore_self harchive hfile
  rw [idles_iff, ends_on harchive hfile]
  refine (idles_iff.mp h).mono ?_ ?_
  · rintro a _ ⟨rfl, rfl⟩
    exact ⟨rfl, hsame⟩
  · rintro e _ ⟨rfl, rfl⟩
    exact ⟨rfl, hsame⟩

/-- A handle of no number is not found, and nothing is done. -/
theorem handle_found (harchive : session.archive = some archive) (number : Nat) :
    Ends (handle number) session
      (fun found session' => session' = session ∧ session.handles.lookup number = some found)
      fun _ session' => session' = session ∧ session.handles.lookup number = none := by
  simp only [handle, opened, ends_bind, ends_discard, ends_get, harchive, ends_pure]
  cases session.handles.lookup number with
  | none => exact ⟨rfl, rfl⟩
  | some found => exact ⟨rfl, rfl⟩

theorem handle_spec (harchive : session.archive = some archive) (number : Nat) :
    Ends (handle number) session
      (fun found session' => session' = session ∧ session.handles.lookup number = some found)
      fun _ session' => session' = session :=
  (handle_found harchive number).mono (fun _ _ => id) fun _ _ => And.left

theorem writer_spec (harchive : session.archive = some archive) (number : Nat) :
    Ends (writer number) session
      (fun found session' => session' = session ∧ session.handles.lookup number = some found)
      fun _ session' => session' = session := by
  simp only [writer, ends_bind]
  refine (handle_spec harchive number).imp ?_
  rintro found _ ⟨rfl, hlookup⟩
  split
  · exact ⟨rfl, hlookup⟩
  · rfl

theorem setCursor_touches {E : SessionError → Session → Prop} (number : Nat) (cursor : Cursor) :
    Ends (setCursor number cursor) session (fun _ => session.Touches) E := by
  simp only [setCursor, ends_modify]
  refine ⟨_, fun entry => ?_, rfl⟩
  split
  · next he => exact ⟨he.symm, rfl, rfl⟩
  · exact ⟨rfl, rfl, rfl⟩

/-! ## Giving handles back -/

section

variable {mode : SaveMode} {encoding : Encoding} {catalog : Catalog} {number : Nat}
  {handle found : Handle}
  (harchive : session.archive = some archive) (hfile : session.file = some file)
  (hintact : archive.Intact file mode encoding catalog) (hsorted : Sorted session.handles)

include harchive hfile hintact hsorted

/-- A handle that is given back may be the last one of what was being written. -/
theorem release_spec (hwrites : ∀ name, archive.Writes name →
      session.Writes name ∨ handle.kind = .writer ∧ handle.name = name) :
    Ends (release handle) session
      (fun _ session' => (∃ archive', session'.Sound mode encoding catalog archive' file)
        ∧ session'.handles = session.handles) noFailure := by
  unfold release
  cases hkind : handle.kind with
  | reader =>
    rw [ends_on harchive hfile]
    refine (Change.releaseReader_spec hintact handle.name).imp ?_
    rintro _ store ⟨hsame, hleaves⟩
    refine ⟨⟨store.archive, ?_⟩, rfl⟩
    rw [← (show store.file = file from hsame)]
    refine Session.sound_withStore hleaves hsorted fun name hname => ?_
    -- a reader that goes takes no writer with it
    refine (hwrites name hname).resolve_right ?_
    rintro ⟨hwriter, -⟩
    rw [hkind] at hwriter
    cases hwriter
  | writer =>
    rw [ends_on harchive hfile]
    refine (Change.discardWriter_spec hintact handle.name).imp ?_
    rintro _ store ⟨hsame, hleaves⟩
    refine ⟨⟨store.archive, ?_⟩, rfl⟩
    rw [← (show store.file = file from hsame)]
    refine Session.sound_withStore hleaves hsorted ?_
    rintro name ⟨hname, hne⟩
    exact (hwrites name hname).resolve_right fun hwriter => hne hwriter.2.symm

/-- A handle is kept under its number; one that had it is given back. -/
theorem keep_spec (hwrites : ∀ name, archive.Writes name →
      session.Writes name ∨ handle.kind = .writer ∧ handle.name = name) :
    Ends (keep number handle) session
      (fun _ session' => (∃ archive', session'.Sound mode encoding catalog archive' file)
        ∧ session'.handles.lookup number = some handle) noFailure := by
  simp only [keep, ends_bind, ends_get, ends_modify]
  have hsorted' : Sorted (insertHandle number handle session.handles) := hsorted.insertHandle
  have hlookup := hsorted'.lookup self_mem_insertHandle
  generalize hkept : { session with handles := insertHandle number handle session.handles } = kept
  have hhandles : kept.handles = insertHandle number handle session.handles := by rw [← hkept]
  -- The handle for what was being written before is still there unless it is given back.
  have hstill : ∀ name, archive.Writes name → kept.Writes name
      ∨ ∃ old, session.handles.lookup number = some old ∧ old.kind = .writer ∧ old.name = name := by
    intro name hname
    rcases hwrites name hname with ⟨entry, hentry, hwriter⟩ | hwriter
    · by_cases hnumber : entry.1 = number
      · refine .inr ⟨entry.2, ?_, hwriter⟩
        rw [← hnumber]
        exact hsorted.lookup hentry
      · exact .inl ⟨entry, hhandles ▸ mem_insertHandle_of_ne hentry hnumber, hwriter⟩
    · exact .inl ⟨(number, handle), hhandles ▸ self_mem_insertHandle, hwriter⟩
  cases hold : session.handles.lookup number with
  | none =>
    refine ⟨⟨archive, ?_⟩, hhandles ▸ hlookup⟩
    refine ⟨?_, ?_, hintact, hhandles ▸ hsorted', fun name hname => ?_⟩
    · rw [← hkept]
      exact harchive
    · rw [← hkept]
      exact hfile
    · refine (hstill name hname).resolve_right ?_
      rintro ⟨old, hfound, -⟩
      rw [hold] at hfound
      cases hfound
  | some old =>
    have hreleased : Ends (release old) kept _ _ :=
      release_spec (by rw [← hkept]; exact harchive) (by rw [← hkept]; exact hfile) hintact
        (hhandles ▸ hsorted') fun name hname => (hstill name hname).imp_right ?_
    · refine hreleased.imp ?_
      rintro _ session' ⟨hsound, hsame⟩
      refine ⟨hsound, ?_⟩
      rw [hsame, hhandles]
      exact hlookup
    · rintro ⟨other, hfound, hwriter⟩
      obtain rfl := Option.some.inj (hold.symm.trans hfound)
      exact hwriter

end

end Work
end NovelScript
