import NovelScript.Archive.Cursor
import NovelScript.Archive.Store

/-!
# Working on an archive through numbered handles

A `Session` is one file on disk, the archive that may be open on it, and the handles on files of
the archive, each under a number.  Handles are given back before the archive is: closing or leaving
an archive drops them in the order of their numbers.
-/

namespace NovelScript

/-- What a handle allows. -/
inductive HandleKind where
  | reader
  | writer
deriving DecidableEq

/-- A handle on a file of an archive.  It works on a copy of the contents. -/
structure Handle where
  kind : HandleKind
  name : String
  cursor : Cursor
deriving DecidableEq

/-- One file on disk and the work on it. -/
structure Session where
  path : String
  encoding : Encoding
  file : Option Bytes
  /-- Whether the scratch file of a packing that failed lies beside the file. -/
  scratch : Bool := false
  archive : Option Archive := none
  /-- Handles by number, the lowest number first. -/
  handles : List (Nat × Handle) := []
  warnings : List ArchiveWarning := []

/-- Why a step of a session fails. -/
inductive SessionError where
  | noArchive
  | noHandle (number : Nat)
  /-- The handle is of the other kind. -/
  | wrongHandle
  | archive (error : ArchiveError)
  /-- A handle refuses what was asked of it. -/
  | file (fault : FileFault)
deriving DecidableEq

/-- A step of a session. -/
abbrev Work := ExceptT SessionError (StateM Session)

namespace Work

/-- Lifts a pure result about archives. -/
def ofArchive {α : Type} (result : Except ArchiveError α) : Work α :=
  ExceptT.mk (pure (result.mapError .archive))

/-- The archive, which must be open. -/
def opened : Work Archive := do
  let some archive := (← get).archive | throw .noArchive
  return archive

/-- Does a step on the archive, which must be open. -/
def on {α : Type} (change : Change α) : Work α := do
  let archive ← opened
  let session ← get
  let (result, store) :=
    change.run.run ⟨session.file.getD [], session.scratch, archive, session.warnings⟩
  set { session with
    file := some store.file
    scratch := store.scratch
    archive := some store.archive
    warnings := store.warnings }
  ofArchive result

/-! ## Handles -/

/-- Puts a handle among others, in the place of one with its number. -/
def insertHandle (number : Nat) (handle : Handle) : List (Nat × Handle) → List (Nat × Handle)
  | [] => [(number, handle)]
  | entry :: rest =>
    if number < entry.1 then (number, handle) :: entry :: rest
    else if number = entry.1 then (number, handle) :: rest
    else entry :: insertHandle number handle rest

/-- The handle of a number; an archive must be open. -/
def handle (number : Nat) : Work Handle := do
  discard opened
  let some handle := (← get).handles.lookup number | throw (.noHandle number)
  return handle

/-- The handle for reading of a number. -/
def reader (number : Nat) : Work Handle := do
  let found ← handle number
  if found.kind = .reader then return found else throw .wrongHandle

/-- The handle for writing of a number. -/
def writer (number : Nat) : Work Handle := do
  let found ← handle number
  if found.kind = .writer then return found else throw .wrongHandle

/-- Gives a handle back to the archive. -/
def release (handle : Handle) : Work Unit :=
  match handle.kind with
  | .reader => on (Change.releaseReader handle.name)
  | .writer => on (Change.discardWriter handle.name)

/-- Forgets the handle of a number. -/
def forget (number : Nat) : Work Unit :=
  modify fun session => { session with handles := session.handles.filter (·.1 ≠ number) }

/-- Keeps a handle under a number.  A handle that had it is given back. -/
def keep (number : Nat) (handle : Handle) : Work Unit := do
  let before := (← get).handles.lookup number
  modify fun session => { session with handles := insertHandle number handle session.handles }
  before.forM release

/-- Moves the position of a handle or changes its copy. -/
def setCursor (number : Nat) (cursor : Cursor) : Work Unit :=
  modify fun session =>
    { session with
      handles := session.handles.map fun entry =>
        if entry.1 = number then (number, { entry.2 with cursor }) else entry }

/-- Opens a file for reading under a number.  Answers whether that is possible now. -/
def openFile (number : Nat) (name : String) : Work Bool := do
  match ← on (Change.openFile name) with
  | none => return false
  | some contents => do
    keep number ⟨.reader, name, { contents }⟩
    return true

/-- Opens a file for writing under a number.  Answers whether that is possible now. -/
def openFileMut (number : Nat) (name : String) : Work Bool := do
  match ← on (Change.openFileMut name) with
  | none => return false
  | some contents => do
    keep number ⟨.writer, name, { contents }⟩
    return true

/-- Opens an empty handle for writing under a number.  Answers whether that is possible now. -/
def createFile (number : Nat) (name : String) : Work Bool := do
  if ← on (Change.createFile name) then
    keep number ⟨.writer, name, { contents := [] }⟩
    return true
  else return false

/-- Reads up to `n` octets through a handle. -/
def readHandle (number n : Nat) : Work Bytes := do
  let (octets, cursor) := (← handle number).cursor.read n
  setCursor number cursor
  return octets

/-- Moves the position of a handle and answers it. -/
def seekHandle (number : Nat) (whence : Whence) (offset : Int) : Work Nat := do
  match (← handle number).cursor.seek whence offset with
  | .error fault => throw (.file fault)
  | .ok cursor => do
    setCursor number cursor
    return cursor.position

/-- Writes through a handle and answers how many octets were written. -/
def writeHandle (number : Nat) (octets : Bytes) : Work Nat := do
  setCursor number ((← writer number).cursor.write octets)
  return octets.length

/-- Sets the size of what a handle writes. -/
def resizeHandle (number size : Nat) : Work Unit := do
  setCursor number ((← writer number).cursor.setSize size)

/-- Gives a handle back without saving. -/
def dropHandle (number : Nat) : Work Unit := do
  let found ← handle number
  forget number
  release found

/-- Saves what a handle has written, and gives the handle back, whether or not saving succeeds. -/
def closeHandle (number : Nat) : Work Unit := do
  let found ← handle number
  forget number
  match found.kind with
  | .reader => release found
  | .writer => on (Change.commit found.name found.cursor.contents)

/-! ## Archives -/

/-- Ends the work on the archive, which must be open: all handles are given back first. -/
def leave : Work Unit := do
  discard opened
  let handles := (← get).handles
  modify fun session => { session with handles := [] }
  handles.forM fun entry => release entry.2
  on Change.close
  modify fun session => { session with archive := none }

/-- Ends the work on the archive if one is open. -/
def leaveAny : Work Unit := do
  if (← get).archive.isSome then leave

/-- Reads the archive in the file. -/
def load (mode : SaveMode) : Work Archive := do
  let session ← get
  match session.file with
  | none => throw (.archive (.file .notFound))
  | some file => do
    let outcome := Archive.load session.path mode session.encoding file
    modify fun session => { session with warnings := session.warnings ++ outcome.warnings }
    ofArchive outcome.result

/-- Opens the archive in the file, in the place of the one that is open. -/
def openArchive (mode : SaveMode) : Work Unit := do
  leaveAny
  let archive ← load mode
  modify fun session => { session with archive := some archive }

/-- Makes an archive without files and opens it, in the place of the one that is open. -/
def createArchive (mode : SaveMode) : Work Unit := do
  leaveAny
  if mode = .readOnly then throw (.archive .readOnly)
  modify fun session => { session with file := some Archive.emptyFile }
  openArchive mode

/-- What a second look at the file finds: all files with their contents. -/
def peek : Work (List (String × Except ArchiveError Bytes)) := do
  let archive ← load .readOnly
  let file := (← get).file.getD []
  return archive.files.map fun member => (member.name, archive.readAll file member.name)

/-- Writes the file behind the back of the archive. -/
def overwrite (file : Bytes) : Work Unit := modify fun session => { session with file := some file }

end Work
end NovelScript
