import Mathlib.Data.Bool.Basic
import Mathlib.Logic.Function.Basic
import NovelScript.Proofs.Archive.Sparing

/-!
# A ledger of what a program has done

An archive keeps contents in memory, behind the end of its file or over old ones.  A program need
not know where.  It can keep a `Ledger`: the contents of every file, and for every open handle a
`Buffer`, a copy of its own that is read and written octet by octet.  `Ledger.record` says what an
operation adds to the ledger; of the archive it takes only whether the operation was possible.

`Kept` is every session that operations can lead to from a new archive, in any order, with the
ledger that was kept on the way.  A program finds just the files of the ledger
(`Kept.shows_ledger`).

## Shape of the argument

The handles of a session work on the buffers of the ledger (`Session.WorksOn`), and every operation
keeps it so (`Operation.keptIn`).  So a handle that is closed saves the contents of its buffer, and
the catalog of the ledger is the one that `Operation.effect` gives.

A length is stored as a word of 32 bits, so the file must not reach 4 GiB (`Kept.not_shows_ledger`).
-/

namespace NovelScript

/-! ## Buffers -/

/-- A copy of the contents of a file, with a position in it. -/
structure Buffer where
  kind : HandleKind
  name : String
  contents : Bytes
  position : Nat := 0

namespace Buffer

/-- Octets given place by place. -/
def tabulate (size : Nat) (octet : Nat → UInt8) : Bytes := (List.range size).map octet

/-- The octet at a place.  Behind the end there are zeros. -/
def octet (buffer : Buffer) (place : Nat) : UInt8 := buffer.contents.getD place 0

/-- Puts octets at the position and behind it, and moves behind them. -/
def write (buffer : Buffer) (octets : Bytes) : Buffer :=
  { buffer with
    contents := tabulate (max buffer.contents.length (buffer.position + octets.length)) fun place =>
      if buffer.position ≤ place ∧ place < buffer.position + octets.length then
        octets.getD (place - buffer.position) 0
      else buffer.octet place
    position := buffer.position + octets.length }

/-- Cuts the buffer off or fills it up with zeros; the position stays inside. -/
def resize (buffer : Buffer) (size : Nat) : Buffer :=
  { buffer with contents := tabulate size buffer.octet, position := min buffer.position size }

/-- Moves behind octets that are read, at most to the end. -/
def skip (buffer : Buffer) (count : Nat) : Buffer :=
  { buffer with position := buffer.position + min count (buffer.contents.length - buffer.position) }

/-- Moves to a place, which is counted from the front, from the position or from the end. -/
def move (buffer : Buffer) (whence : Whence) (offset : Int) : Buffer :=
  let base : Int := match whence with
    | .start => 0
    | .current => buffer.position
    | .end_ => buffer.contents.length
  { buffer with position := (base + offset).toNat }

/-- The catalog after the buffer is handed in. -/
def saved (buffer : Buffer) (catalog : Catalog) : Catalog :=
  match buffer.kind with
  | .reader => catalog
  | .writer => catalog.put buffer.name buffer.contents

/-- The handle that works on the buffer. -/
def handle (buffer : Buffer) : Handle :=
  ⟨buffer.kind, buffer.name, ⟨buffer.contents, buffer.position⟩⟩

theorem saved_of_ne (buffer : Buffer) {catalog : Catalog} {name : String} (h : name ≠ buffer.name) :
    buffer.saved catalog name = catalog name := by
  unfold saved
  cases buffer.kind with
  | reader => rfl
  | writer => exact Catalog.put_of_ne h

theorem getElem?_tabulate (size : Nat) (octet : Nat → UInt8) (place : Nat) :
    (tabulate size octet)[place]? = if place < size then some (octet place) else none := by
  rw [tabulate, List.getElem?_map]
  split
  · next h => rw [List.getElem?_range h, Option.map_some]
  · next h => rw [List.getElem?_eq_none (by simpa using h), Option.map_none]

/-! ### Buffers of handles -/

theorem length_rightpad (contents : Bytes) (size : Nat) :
    (contents.rightpad size 0).length = max contents.length size := by
  rw [List.rightpad, List.length_append, List.length_replicate]
  omega

/-- Contents that are filled up with zeros have the octets they had. -/
theorem getElem?_rightpad (contents : Bytes) (size place : Nat) :
    (contents.rightpad size 0)[place]? =
      if place < max contents.length size then some (contents.getD place 0) else none := by
  rw [List.rightpad, List.getElem?_append, List.getElem?_replicate]
  grind

variable (buffer : Buffer)

theorem handle_write (octets : Bytes) :
    (buffer.write octets).handle =
      { buffer.handle with cursor := buffer.handle.cursor.write octets } := by
  obtain ⟨kind, name, contents, position⟩ := buffer
  have hget := getElem?_rightpad contents position
  have hlength := length_rightpad contents position
  simp only [handle, write, octet, Cursor.write, Handle.mk.injEq, Cursor.mk.injEq, true_and,
    and_true]
  generalize contents.rightpad position 0 = before at hget hlength
  have htake : (before.take position).length = position := by
    rw [List.length_take, hlength]
    omega
  -- in front of the position nothing changes, and behind it come the octets and then the old ones
  refine List.ext_getElem? fun place => ?_
  rw [getElem?_tabulate, List.append_assoc]
  rcases Nat.lt_or_ge place position with hplace | hplace
  · rw [List.getElem?_append_left (by rwa [htake]), List.getElem?_take_of_lt hplace, hget]
    grind
  · rw [List.getElem?_append_right (by rwa [htake]), htake, List.getElem?_append,
      List.getElem?_drop, hget]
    grind

theorem handle_resize (size : Nat) :
    (buffer.resize size).handle =
      { buffer.handle with cursor := buffer.handle.cursor.setSize size } := by
  simp only [handle, resize, Cursor.setSize, Handle.mk.injEq, Cursor.mk.injEq, true_and, and_true]
  refine List.ext_getElem? fun place => ?_
  rw [getElem?_tabulate, List.getElem?_take, getElem?_rightpad]
  grind [octet]

theorem handle_skip (count : Nat) :
    (buffer.skip count).handle =
      { buffer.handle with cursor := (buffer.handle.cursor.read count).2 } := by
  simp only [handle, skip, Cursor.read, List.length_take, List.length_drop]

theorem handle_move {whence : Whence} {offset : Int} {cursor : Cursor}
    (h : buffer.handle.cursor.seek whence offset = .ok cursor) :
    (buffer.move whence offset).handle = { buffer.handle with cursor } := by
  cases whence with
  | start | current | end_ =>
    simp only [Cursor.seek] at h
    split at h
    · exact congrArg (Handle.mk _ _) (Except.ok.inj h)
    · cases h

end Buffer

/-! ## Ledgers -/

/-- What a program knows of an archive and of its handles. -/
structure Ledger where
  catalog : Catalog
  buffers : Nat → Option Buffer

namespace Ledger

/-- Neither files nor buffers. -/
def empty : Ledger := ⟨Catalog.empty, fun _ => none⟩

/-- Puts a buffer, or none, under a number. -/
def keep (ledger : Ledger) (number : Nat) (buffer : Option Buffer) : Ledger :=
  { ledger with buffers := Function.update ledger.buffers number buffer }

/-- Copies a file to a buffer. -/
def copy (ledger : Ledger) (number : Nat) (kind : HandleKind) (name : String) : Ledger :=
  ledger.keep number (some { kind, name, contents := (ledger.catalog name).getD [] })

/-- Changes the buffer of a number. -/
def revise (ledger : Ledger) (number : Nat) (f : Buffer → Buffer) : Ledger :=
  ledger.keep number ((ledger.buffers number).map f)

/-- Hands the buffer of a number in. -/
def handIn (ledger : Ledger) (number : Nat) : Ledger :=
  { ledger.keep number none with
    catalog := (ledger.buffers number).elim ledger.catalog (·.saved ledger.catalog) }

/-- The ledger after an operation that was possible. -/
def note (ledger : Ledger) : Operation → Ledger
  | .writeAll name contents => { ledger with catalog := ledger.catalog.put name contents }
  | .createFile number name =>
    ledger.keep number (some { kind := .writer, name, contents := [] })
  | .openFile number name => ledger.copy number .reader name
  | .openFileMut number name => ledger.copy number .writer name
  | .readHandle number count => ledger.revise number (·.skip count)
  | .seekHandle number whence offset => ledger.revise number (·.move whence offset)
  | .writeHandle number octets => ledger.revise number (·.write octets)
  | .resizeHandle number size => ledger.revise number (·.resize size)
  | .closeHandle number => ledger.handIn number
  | .dropHandle number => ledger.keep number none
  | .deleteFile name => { ledger with catalog := ledger.catalog.remove name }
  | .flush => ledger
  | .compact => ledger

/-- The ledger after an operation with this answer.  A handle is gone even if it could not be
closed; otherwise nothing comes of what was not possible. -/
def record (ledger : Ledger) (op : Operation) (answer : Except SessionError Bool) : Ledger :=
  match answer, op with
  | .ok true, op => ledger.note op
  | .error _, .closeHandle number => ledger.keep number none
  | _, _ => ledger

/-- The file that an operation may change. -/
def subject? (ledger : Ledger) : Operation → Option String
  | .writeAll name _ | .deleteFile name => some name
  | .closeHandle number => (ledger.buffers number).map (·.name)
  | _ => none

/-- Whether a buffer for writing the file of a name is kept. -/
def Writes (ledger : Ledger) (name : String) : Prop :=
  ∃ number buffer, ledger.buffers number = some buffer ∧ buffer.kind = .writer ∧ buffer.name = name

variable (ledger : Ledger) {op : Operation} {name : String}

/-- An operation changes no file but its subject. -/
theorem note_of_ne (h : ledger.subject? op ≠ some name) :
    (ledger.note op).catalog name = ledger.catalog name := by
  cases op with
  | writeAll other contents =>
    have hne : name ≠ other := fun he => h (by rw [he]; rfl)
    exact Catalog.put_of_ne hne
  | deleteFile other =>
    have hne : name ≠ other := fun he => h (by rw [he]; rfl)
    exact Catalog.remove_of_ne hne
  | closeHandle number =>
    simp only [note, handIn]
    cases hbuffer : ledger.buffers number with
    | none => rfl
    | some buffer =>
      refine buffer.saved_of_ne fun he => h ?_
      rw [subject?, hbuffer, Option.map_some, he]
  | _ => rfl

theorem record_of_ne (answer : Except SessionError Bool) (h : ledger.subject? op ≠ some name) :
    (ledger.record op answer).catalog name = ledger.catalog name := by
  unfold record
  split
  · exact ledger.note_of_ne h
  · rfl
  · rfl

end Ledger

/-! ## Handles by number -/

namespace Work

variable (handles : List (Nat × Handle)) (number other : Nat)

theorem lookup_cons_eq (entry : Nat × Handle) :
    (entry :: handles).lookup other =
      if other = entry.1 then some entry.2 else handles.lookup other := by
  rw [List.lookup_cons]
  split
  · next h => rw [if_pos (eq_of_beq h)]
  · next h => rw [if_neg (ne_of_beq_false h)]

theorem lookup_insertHandle (handle : Handle) :
    (insertHandle number handle handles).lookup other =
      if other = number then some handle else handles.lookup other := by
  induction handles with
  | nil => rw [insertHandle, lookup_cons_eq]
  | cons first rest ih =>
    rw [insertHandle]
    split
    · rw [lookup_cons_eq]
    split
    · grind [lookup_cons_eq]
    · grind [lookup_cons_eq]

theorem lookup_forget :
    (handles.filter (·.1 ≠ number)).lookup other =
      if other = number then none else handles.lookup other := by
  induction handles with
  | nil => simp
  | cons first rest ih => grind [lookup_cons_eq]

theorem lookup_setCursor (cursor : Cursor) :
    (handles.map fun entry =>
        if entry.1 = number then (number, { entry.2 with cursor }) else entry).lookup other =
      if other = number then (handles.lookup number).map fun handle => { handle with cursor }
      else handles.lookup other := by
  induction handles with
  | nil => simp
  | cons first rest ih => grind [lookup_cons_eq]

variable {α : Type} {session : Session} {number : Nat}

/-- A step on the archive leaves the handles alone. -/
theorem on_handles (change : Change α) (session : Session) :
    Ends (on change) session (fun _ after => after.handles = session.handles)
      fun _ after => after.handles = session.handles := by
  simp only [on, opened, ends_bind, ends_get]
  cases session.archive with
  | none => rfl
  | some archive =>
    simp only [ends_pure]
    split
    simp only [ends_bind, ends_set, ofArchive, ends_mk]
    exact ⟨fun _ _ => trivial, fun _ _ => trivial⟩

/-- A handle is kept under its number alone. -/
theorem keep_lookup {archive : Archive} {file : Bytes} (harchive : session.archive = some archive)
    (hfile : session.file = some file) (number : Nat) (handle : Handle) :
    Ends (keep number handle) session
      (fun _ after => ∀ other, after.handles.lookup other =
        if other = number then some handle else session.handles.lookup other) noFailure := by
  simp only [keep, ends_bind, ends_get, ends_modify]
  generalize hkept : { session with handles := insertHandle number handle session.handles } = kept
  have hlookup : ∀ other, kept.handles.lookup other =
      if other = number then some handle else session.handles.lookup other := by
    intro other
    rw [← hkept]
    exact lookup_insertHandle session.handles number other handle
  cases session.handles.lookup number with
  | none => exact hlookup
  | some old =>
    -- the handle that had the number is given back, which leaves the others
    have hreleased : Ends (release old) kept _ noFailure :=
      release_spares (by rw [← hkept]; exact harchive) (by rw [← hkept]; exact hfile) old
    refine hreleased.imp ?_
    rintro _ after ⟨-, -, -, hhandles⟩
    rwa [hhandles]

end Work

/-! ## Handles and buffers -/

/-- The handles of the session work on the buffers of the ledger. -/
def Session.WorksOn (session : Session) (ledger : Ledger) : Prop :=
  ∀ number, session.handles.lookup number = (ledger.buffers number).map Buffer.handle

namespace Session.WorksOn

variable {session after : Session} {ledger : Ledger} {number : Nat} {found : Handle}
  (h : session.WorksOn ledger)

include h

theorem of_handles_eq (hafter : after.handles = session.handles) : after.WorksOn ledger := by
  intro number
  rw [hafter]
  exact h number

theorem of_buffers_eq {ledger' : Ledger} (hbuffers : ledger'.buffers = ledger.buffers) :
    session.WorksOn ledger' := by
  intro number
  rw [hbuffers]
  exact h number

theorem keep {buffer : Option Buffer} (hafter : ∀ other, after.handles.lookup other =
      if other = number then buffer.map Buffer.handle else session.handles.lookup other) :
    after.WorksOn (ledger.keep number buffer) := by
  intro other
  simp only [hafter, Ledger.keep, Function.update_apply]
  split
  · rfl
  · exact h other

/-- A handle that is found works on a buffer. -/
theorem exists_buffer (hlookup : session.handles.lookup number = some found) :
    ∃ buffer, ledger.buffers number = some buffer ∧ buffer.handle = found :=
  Option.map_eq_some_iff.mp ((h number).symm.trans hlookup)

theorem forget (number : Nat) :
    Session.WorksOn { session with handles := session.handles.filter (·.1 ≠ number) }
      (ledger.keep number none) :=
  h.keep (Work.lookup_forget session.handles number)

/-- A handle gets another cursor where its buffer is revised. -/
theorem setCursor {E : SessionError → Session → Prop}
    (hlookup : session.handles.lookup number = some found) {cursor : Cursor} {f : Buffer → Buffer}
    (hf : ∀ buffer, buffer.handle = found → (f buffer).handle = { found with cursor }) :
    Ends (Work.setCursor number cursor) session
      (fun _ after => after.WorksOn (ledger.revise number f)) E := by
  obtain ⟨buffer, hbuffer, hhandle⟩ := h.exists_buffer hlookup
  simp only [Work.setCursor, ends_modify]
  refine h.keep fun other => ?_
  rw [Work.lookup_setCursor, hlookup, hbuffer, Option.map_some, Option.map_some, Option.map_some,
    hf buffer hhandle]

/-- What is open for writing is what the ledger has a buffer for. -/
theorem writes_iff (hsorted : Work.Sorted session.handles) (name : String) :
    session.Writes name ↔ ledger.Writes name := by
  constructor
  · rintro ⟨entry, hentry, hwriter, hname⟩
    obtain ⟨buffer, hbuffer, hhandle⟩ := h.exists_buffer (hsorted.lookup hentry)
    rw [← hhandle] at hwriter hname
    exact ⟨entry.1, buffer, hbuffer, hwriter, hname⟩
  · rintro ⟨number, buffer, hbuffer, hwriter, hname⟩
    have hlookup := h number
    rw [hbuffer, Option.map_some] at hlookup
    obtain ⟨_, _, hhandles, -⟩ := List.lookup_eq_some_iff.mp hlookup
    exact ⟨(number, buffer.handle), hhandles ▸ List.mem_append_cons_self, hwriter, hname⟩

end Session.WorksOn

/-! ## Operations -/

/-- The ledger is kept through an operation: the handles work on its buffers, and its catalog is the
one that the operation should give. -/
structure Operation.KeptIn (op : Operation) (session : Session) (ledger : Ledger)
    (answer : Except SessionError Bool) (after : Session) : Prop where
  works : after.WorksOn (ledger.record op answer)
  effect_eq : op.effect session answer ledger.catalog = (ledger.record op answer).catalog

namespace Operation

variable {mode : SaveMode} {encoding : Encoding} {session : Session} {ledger : Ledger}
  {archive : Archive} {file : Bytes}
  (h : session.Sound mode encoding ledger.catalog archive file) (hworks : session.WorksOn ledger)

include h hworks

theorem keptIn_openFile (number : Nat) (name : String) :
    Ends (work (openFile number name)) session
      (fun answer => (openFile number name).KeptIn session ledger (.ok answer))
      fun e => (openFile number name).KeptIn session ledger (.error e) := by
  rw [work, Work.openFile, ends_bind, Work.ends_on h.archive_eq h.file_eq]
  refine (Change.openFile_spec h.intact name).mono ?_ ?_
  · rintro (_ | contents) store ⟨-, -, hanswer⟩
    · exact ⟨hworks.of_handles_eq rfl, rfl⟩
    · refine ends_bind.mpr ?_
      refine (Work.keep_lookup rfl rfl number _).of_noFailure.imp fun _ after hafter => ?_
      refine ⟨hworks.keep fun other => ?_, rfl⟩
      rw [hafter, hanswer]
      rfl
  · exact fun _ store _ => ⟨hworks.of_handles_eq rfl, rfl⟩

theorem keptIn_openFileMut (number : Nat) (name : String) :
    Ends (work (openFileMut number name)) session
      (fun answer => (openFileMut number name).KeptIn session ledger (.ok answer))
      fun e => (openFileMut number name).KeptIn session ledger (.error e) := by
  rw [work, Work.openFileMut, ends_bind, Work.ends_on h.archive_eq h.file_eq]
  refine (Change.openFileMut_spec h.intact name).mono ?_ ?_
  · rintro (_ | contents) store hanswer
    · exact ⟨hworks.of_handles_eq rfl, rfl⟩
    · obtain ⟨-, hcatalog, -⟩ := hanswer
      refine ends_bind.mpr ?_
      refine (Work.keep_lookup rfl rfl number _).of_noFailure.imp fun _ after hafter => ?_
      refine ⟨hworks.keep fun other => ?_, rfl⟩
      rw [hafter, hcatalog]
      rfl
  · exact fun _ store _ => ⟨hworks.of_handles_eq rfl, rfl⟩

theorem keptIn_createFile (number : Nat) {name : String} (hsurvives : encoding.Survives name) :
    Ends (work (createFile number name)) session
      (fun answer => (createFile number name).KeptIn session ledger (.ok answer))
      fun e => (createFile number name).KeptIn session ledger (.error e) := by
  rw [work, Work.createFile, ends_bind, Work.ends_on h.archive_eq h.file_eq]
  refine (Change.createFile_spec h.intact hsurvives).mono ?_ ?_
  · rintro (_ | _) store -
    · exact ⟨hworks.of_handles_eq rfl, rfl⟩
    · rw [if_pos rfl, ends_bind]
      exact (Work.keep_lookup rfl rfl number _).of_noFailure.imp fun _ after hafter =>
        ⟨hworks.keep hafter, rfl⟩
  · exact fun _ store _ => ⟨hworks.of_handles_eq rfl, rfl⟩

/-- A handle that is given back is gone, whatever happens to the others. -/
theorem works_release {number : Nat} (found : Handle) :
    Ends (Work.release found)
      { session with handles := session.handles.filter (·.1 ≠ number) }
      (fun _ after => after.WorksOn (ledger.keep number none)) noFailure := by
  have hforgotten := hworks.forget number
  generalize hsession : { session with handles := session.handles.filter (·.1 ≠ number) } = session₁
  rw [hsession] at hforgotten
  have hreleased : Ends (Work.release found) session₁ _ noFailure :=
    Work.release_spares (by rw [← hsession]; exact h.archive_eq)
      (by rw [← hsession]; exact h.file_eq) found
  exact hreleased.imp fun _ _ hafter => hforgotten.of_handles_eq hafter.2.2.2

theorem keptIn_dropHandle (number : Nat) :
    Ends (work (dropHandle number)) session
      (fun answer => (dropHandle number).KeptIn session ledger (.ok answer))
      fun e => (dropHandle number).KeptIn session ledger (.error e) := by
  simp only [work, Work.dropHandle, Work.forget, ends_bind, ends_modify, ends_pure]
  refine (Work.handle_spec h.archive_eq number).mono ?_ ?_
  · rintro found _ ⟨rfl, -⟩
    exact (works_release h hworks found).of_noFailure.imp fun _ _ hafter => ⟨hafter, rfl⟩
  · rintro _ _ rfl
    exact ⟨hworks, rfl⟩

theorem keptIn_closeHandle (number : Nat) :
    Ends (work (closeHandle number)) session
      (fun answer => (closeHandle number).KeptIn session ledger (.ok answer))
      fun e => (closeHandle number).KeptIn session ledger (.error e) := by
  have hforgotten := hworks.forget number
  simp only [work, Work.closeHandle, Work.forget, ends_bind, ends_modify, ends_pure]
  refine (Work.handle_found h.archive_eq number).mono ?_ ?_
  · rintro found _ ⟨hsame, hlookup⟩
    rw [hsame]
    -- what the handle saves is its copy, which is that of the buffer that is handed in
    have hsaved : (closeHandle number).effect session (.ok true) ledger.catalog
        = (ledger.handIn number).catalog := by
      obtain ⟨buffer, hbuffer, rfl⟩ := hworks.exists_buffer hlookup
      simp only [effect, hlookup, Ledger.handIn, hbuffer]
      rfl
    cases found.kind with
    | reader =>
      exact (works_release h hworks found).of_noFailure.imp fun _ _ hafter => ⟨hafter, hsaved⟩
    | writer =>
      refine (Work.on_handles _ _).mono ?_ ?_
      · exact fun _ _ hafter => ⟨hforgotten.of_handles_eq hafter, hsaved⟩
      · exact fun _ _ hafter => ⟨hforgotten.of_handles_eq hafter, rfl⟩
  · rintro e _ ⟨rfl, hlookup⟩
    refine ⟨hworks.keep fun other => ?_, rfl⟩
    split
    · next he => rw [he, hlookup, Option.map_none]
    · rfl

omit h in
/-- An operation that leaves handles and buffers alone keeps the ledger. -/
theorem keptIn_of_handles_eq {op : Operation}
    (hwork : Ends op.work session (fun _ after => after.handles = session.handles)
      fun _ after => after.handles = session.handles)
    (hbuffers : ∀ answer, (ledger.record op answer).buffers = ledger.buffers)
    (heffect : ∀ answer,
      op.effect session answer ledger.catalog = (ledger.record op answer).catalog) :
    Ends op.work session (fun answer => op.KeptIn session ledger (.ok answer))
      fun e => op.KeptIn session ledger (.error e) := by
  have hkept (answer : Except SessionError Bool) (after : Session)
      (hafter : after.handles = session.handles) : op.KeptIn session ledger answer after :=
    ⟨(hworks.of_handles_eq hafter).of_buffers_eq (hbuffers answer), heffect answer⟩
  exact hwork.mono (fun _ => hkept _) fun _ => hkept _

/-- A handle that is read, moved or written still works on its buffer, which is revised alike. -/
theorem keptIn_of_isLocal {op : Operation} (hop : op.isLocal = true) :
    Ends op.work session (fun answer => op.KeptIn session ledger (.ok answer))
      fun e => op.KeptIn session ledger (.error e) := by
  have hself (e : SessionError) {op : Operation} (hop : op.isLocal = true) :
      op.KeptIn session ledger (.error e) session := by
    cases op with
    | readHandle | seekHandle | writeHandle | resizeHandle => exact ⟨hworks, rfl⟩
    | _ => cases hop
  cases op with
  | readHandle number count =>
    simp only [work, Work.readHandle, ends_bind, ends_discard, ends_pure]
    refine (Work.handle_spec h.archive_eq number).mono ?_ ?_
    · rintro found _ ⟨rfl, hlookup⟩
      refine (hworks.setCursor hlookup ?_).imp fun _ _ hafter => ⟨hafter, rfl⟩
      rintro buffer rfl
      exact buffer.handle_skip count
    · rintro e _ rfl
      exact hself e rfl
  | seekHandle number whence offset =>
    simp only [work, Work.seekHandle, ends_bind, ends_discard, ends_pure]
    refine (Work.handle_spec h.archive_eq number).mono ?_ ?_
    · rintro found _ ⟨rfl, hlookup⟩
      split
      · exact hself _ rfl
      · next cursor hseek =>
        rw [ends_bind]
        refine (hworks.setCursor hlookup ?_).imp fun _ _ hafter => ⟨hafter, rfl⟩
        rintro buffer rfl
        exact buffer.handle_move hseek
    · rintro e _ rfl
      exact hself e rfl
  | writeHandle number octets =>
    simp only [work, Work.writeHandle, ends_bind, ends_discard, ends_pure]
    refine (Work.writer_spec h.archive_eq number).mono ?_ ?_
    · rintro found _ ⟨rfl, hlookup⟩
      refine (hworks.setCursor hlookup ?_).imp fun _ _ hafter => ⟨hafter, rfl⟩
      rintro buffer rfl
      exact buffer.handle_write octets
    · rintro e _ rfl
      exact hself e rfl
  | resizeHandle number size =>
    simp only [work, Work.resizeHandle, ends_bind, ends_pure]
    refine (Work.writer_spec h.archive_eq number).mono ?_ ?_
    · rintro found _ ⟨rfl, hlookup⟩
      refine (hworks.setCursor hlookup ?_).imp fun _ _ hafter => ⟨hafter, rfl⟩
      rintro buffer rfl
      exact buffer.handle_resize size
    · rintro e _ rfl
      exact hself e rfl
  | _ => cases hop

/-- The ledger is kept through every operation. -/
theorem keptIn (op : Operation)
    (hsurvives : ∀ name, op.made? = some name → encoding.Survives name) :
    Ends op.work session (fun answer => op.KeptIn session ledger (.ok answer))
      fun e => op.KeptIn session ledger (.error e) := by
  cases op with
  | createFile number name => exact keptIn_createFile h hworks number (hsurvives name rfl)
  | openFile number name => exact keptIn_openFile h hworks number name
  | openFileMut number name => exact keptIn_openFileMut h hworks number name
  | readHandle | seekHandle | writeHandle | resizeHandle => exact keptIn_of_isLocal h hworks rfl
  | closeHandle number => exact keptIn_closeHandle h hworks number
  | dropHandle number => exact keptIn_dropHandle h hworks number
  | writeAll name contents =>
    refine keptIn_of_handles_eq hworks ?_ ?_ ?_
    · rw [work]
      exact Work.on_handles _ session
    · rintro (_ | _ | _) <;> rfl
    · rintro (_ | _ | _) <;> rfl
  | deleteFile name =>
    refine keptIn_of_handles_eq hworks ?_ ?_ ?_
    · rw [work]
      exact Work.on_handles _ session
    · rintro (_ | _ | _) <;> rfl
    · rintro (_ | _ | _) <;> rfl
  | flush =>
    refine keptIn_of_handles_eq hworks ?_ ?_ ?_
    · simp only [work, ends_bind, ends_pure]
      exact Work.on_handles _ session
    · rintro (_ | _ | _) <;> rfl
    · rintro (_ | _ | _) <;> rfl
  | compact =>
    refine keptIn_of_handles_eq hworks ?_ ?_ ?_
    · simp only [work, ends_bind, ends_pure]
      exact Work.on_handles _ session
    · rintro (_ | _ | _) <;> rfl
    · rintro (_ | _ | _) <;> rfl

end Operation

/-! ## What a program finds -/

/-- The sessions that operations lead to from a new archive, with the ledger kept on the way. -/
inductive Kept (mode : SaveMode) (encoding : Encoding) : Session → Ledger → Prop where
  | create {before session : Session} (harchive : before.archive = none)
      (hhandles : before.handles = []) (hencoding : before.encoding = encoding)
      (hrun : ((Work.createArchive mode).run.run before : Except SessionError Unit × Session)
        = (.ok (), session)) :
      Kept mode encoding session Ledger.empty
  | step {session after : Session} {ledger : Ledger} {answer : Except SessionError Bool}
      (op : Operation) (h : Kept mode encoding session ledger)
      (hleads : op.Leads encoding session answer after) :
      Kept mode encoding after (ledger.record op answer)

namespace Kept

variable {mode : SaveMode} {encoding : Encoding} {session after : Session} {ledger : Ledger}
  {answer : Except SessionError Bool}

/-- The ledger of a session has the catalog that the operations should have given, and the handles
work on its buffers. -/
theorem reachable (h : Kept mode encoding session ledger) :
    Reachable mode encoding session ledger.catalog ∧ session.WorksOn ledger := by
  induction h with
  | @create before session harchive hhandles hencoding hrun =>
    obtain ⟨_, _, _, _, _, _, _, hnone⟩ :=
      ((Work.createArchive_spec harchive hhandles).of_run hrun).1 () rfl
    refine ⟨.create harchive hhandles hencoding hrun, fun number => ?_⟩
    rw [hnone]
    rfl
  | @step session after ledger answer op _ hleads ih =>
    obtain ⟨hreachable, hworks⟩ := ih
    obtain ⟨archive, file, hsound, -⟩ := hreachable.sound
    have hends := (op.keptIn hsound hworks hleads.survives).of_run hleads.run
    have hkept : op.KeptIn session ledger answer after := by
      cases answer with
      | ok a => exact hends.1 a rfl
      | error e => exact hends.2 e rfl
    exact ⟨hkept.effect_eq ▸ hreachable.step op hleads, hkept.works⟩

/-- **An archive is a map from names to contents.**  However operations have led to a session, a
program finds in it just the files of its ledger, with the contents last saved, and its handles work
on the buffers.  The next operation has the effect that the ledger records, which leaves all files
alone but its subject. -/
theorem shows_ledger (h : Kept mode encoding session ledger) :
    session.Shows ledger.catalog ∧ session.WorksOn ledger
      ∧ (∀ name, session.Writes name ↔ ledger.Writes name)
      ∧ ∀ (op : Operation) (answer : Except SessionError Bool) (after : Session),
        op.Leads encoding session answer after →
          after.Shows (ledger.record op answer).catalog
            ∧ ∀ name, ledger.subject? op ≠ some name →
              (ledger.record op answer).catalog name = ledger.catalog name := by
  obtain ⟨hreachable, hworks⟩ := h.reachable
  obtain ⟨archive, file, hsound, -⟩ := hreachable.sound
  refine ⟨hreachable.shows, hworks, hworks.writes_iff hsound.sorted, ?_⟩
  intro op answer after hleads
  exact ⟨(h.step op hleads).reachable.1.shows, fun _ hne => ledger.record_of_ne answer hne⟩

/-! ### Computing with ledgers -/

theorem new (hmode : mode ≠ .readOnly) : Kept mode encoding (Session.new mode encoding) .empty :=
  .create rfl rfl rfl (Session.new_run hmode)

theorem next (h : Kept mode encoding session ledger) (op : Operation)
    (hsurvives : ∀ name, op.made? = some name → encoding.Survives name)
    (hfits : (op.work.after session).file.all (fun file => file.length < UInt32.size) = true) :
    Kept mode encoding (op.work.after session) (ledger.record op (op.work.answer session)) :=
  .step op h ⟨rfl, hsurvives, fits_of_all hfits⟩

end Kept

/-- A file is written through a handle, which is closed, and cut off through another, which is
dropped. -/
def Session.rewritten : Session :=
  (Session.new .flush .utf8).perform Operation.work
    [.writeAll "a" [1, 2, 3], .openFileMut 1 "a", .seekHandle 1 .end_ 1, .writeHandle 1 [4],
      .closeHandle 1, .openFileMut 2 "a", .resizeHandle 2 1, .dropHandle 2]

/-- The gap in front of what is written is filled up, and what is dropped leaves no trace. -/
theorem Kept.shows_ledger_rewritten : ∃ ledger : Ledger,
    ledger.catalog "a" = some [1, 2, 3, 0, 4] ∧ Session.rewritten.Shows ledger.catalog := by
  have h₀ : Kept .flush .utf8 _ .empty := .new (by decide)
  have h₁ := h₀.next (.writeAll "a" [1, 2, 3]) (survives_of_eq_some (by decide +kernel))
    (by decide +kernel)
  have h₂ := h₁.next (.openFileMut 1 "a") (by rintro _ ⟨⟩) (by decide +kernel)
  have h₃ := h₂.next (.seekHandle 1 .end_ 1) (by rintro _ ⟨⟩) (by decide +kernel)
  have h₄ := h₃.next (.writeHandle 1 [4]) (by rintro _ ⟨⟩) (by decide +kernel)
  have h₅ := h₄.next (.closeHandle 1) (by rintro _ ⟨⟩) (by decide +kernel)
  have h₆ := h₅.next (.openFileMut 2 "a") (by rintro _ ⟨⟩) (by decide +kernel)
  have h₇ := h₆.next (.resizeHandle 2 1) (by rintro _ ⟨⟩) (by decide +kernel)
  have h₈ := h₇.next (.dropHandle 2) (by rintro _ ⟨⟩) (by decide +kernel)
  exact ⟨_, by decide +kernel, h₈.shows_ledger.1⟩

/-- A file of one octet is saved. -/
def Session.single : Session :=
  (Session.new .flush .utf8).perform Operation.work [.writeAll "a" [1]]

/-- Contents that are saved over the octet are read as far as a length of 32 bits says. -/
theorem Session.readAll_single (contents : Bytes) :
    (Work.on (Change.readAll "a")).answer ((Operation.writeAll "a" contents).work.after .single) =
      (region ((Session.single.file.getD []).take 26 ++ contents) 26
        (UInt32.ofNat contents.length).toNat).mapError .archive := rfl

/-- Contents of 4 GiB and one octet are saved over the old ones without complaint, and then only
one octet of them is read. -/
theorem Kept.not_shows_ledger : ∃ (ledger : Ledger) (op : Operation),
    op = .writeAll "a" (List.replicate 4294967297 0) ∧ Encoding.Survives .utf8 "a"
      ∧ Kept .flush .utf8 .single ledger ∧ op.work.answer .single = .ok true
      ∧ (Work.on (Change.readAll "a")).answer (op.work.after .single) = .ok [0]
      ∧ ¬ (op.work.after .single).Shows (ledger.record op (.ok true)).catalog := by
  have ha : Encoding.Survives .utf8 "a" := Encoding.survives_of_isAscii (by decide +kernel)
  have hnew : Kept .flush .utf8 _ .empty := .new (by decide)
  have hsingle := hnew.next (.writeAll "a" [1]) (survives_of_eq_some (by decide +kernel))
    (by decide +kernel)
  obtain ⟨contents, hcontents⟩ : ∃ contents : Bytes, contents = List.replicate 4294967297 0 :=
    ⟨_, rfl⟩
  have hlength : (UInt32.ofNat contents.length).toNat = 1 := by
    rw [hcontents, List.length_replicate]
    rfl
  have hread : (Work.on (Change.readAll "a")).answer
      ((Operation.writeAll "a" contents).work.after .single) = .ok [0] := by
    rw [Session.readAll_single, hlength, hcontents, List.replicate_succ]
    rfl
  refine ⟨_, _, rfl, ha, hsingle, ?_, ?_, ?_⟩
  all_goals rw [← hcontents]
  · rfl
  · exact hread
  · intro hshows
    have hidle : ¬ ((Operation.writeAll "a" contents).work.after .single).Writes "a" := by
      rintro ⟨entry, hentry, -⟩
      cases hentry
    have hends := (hshows.readAll "a" hidle).of_run (Prod.ext hread rfl)
    have hcatalog : some contents = some [0] := hends.1 [0] rfl
    rw [Option.some.injEq, hcontents] at hcatalog
    have hfalse := congrArg List.length hcatalog
    rw [List.length_replicate] at hfalse
    cases hfalse

end NovelScript
