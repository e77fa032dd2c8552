import NovelScript.Archive.Packing

/-!
# Changing an archive

A `Store` is an open archive together with the file under it, and a `Change` is a step on it.  A
step that fails leaves the store as far as it came: what it has to undo it undoes itself.

## Shape of a save

`commit` takes the contents of a closed handle and saves them as the mode says: in memory, over the
old contents, or behind all others.  `flush` then makes the index show them, and `compact` writes
the file anew in its packed form.
-/

namespace NovelScript

/-- An open archive and the file under it. -/
structure Store where
  file : Bytes
  /-- Whether a packing that failed has left its scratch file. -/
  scratch : Bool
  archive : Archive
  warnings : List ArchiveWarning

/-- A step on an open archive. -/
abbrev Change := ExceptT ArchiveError (StateM Store)

namespace Change

/-! ## Parts of a step -/

/-- Records a warning. -/
def warn (warning : ArchiveWarning) : Change Unit :=
  modify fun store => { store with warnings := store.warnings ++ [warning] }

/-- Changes what the archive remembers. -/
def update (f : Archive → Archive) : Change Unit :=
  modify fun store => { store with archive := f store.archive }

/-- Changes the first member of a name. -/
def updateMember (name : String) (f : Member → Member) : Change Unit :=
  update fun archive => { archive with members := Member.change name f archive.members }

/-- Forgets the first member of a name. -/
def forget (name : String) : Change Unit :=
  update fun archive => { archive with members := archive.members.eraseP (·.name == name) }

/-- Writes the file under the archive anew. -/
def setFile (file : Bytes) : Change Unit := modify fun store => { store with file }

/-- A pure result. -/
def of {α : Type} (result : Except ArchiveError α) : Change α := ExceptT.mk (pure result)

/-- Only an archive that is not opened for reading alone can be changed. -/
def checkWritable : Change Unit := do
  if (← get).archive.mode = .readOnly then throw .readOnly

/-- An offset as a field of the index. -/
def fit (offset : Nat) : Except ArchiveError UInt32 :=
  if offset < 4294967296 then .ok (.ofNat offset) else .error (.corrupt (.offsetTooLarge offset))

/-- Writes octets behind the end of the file and answers where they are. -/
def append (octets : Bytes) : Change UInt32 := do
  let file := (← get).file
  discard <| of (fit (file.length + octets.length))
  setFile (file ++ octets)
  of (fit file.length)

/-- The stored form of a name. -/
def storedName (encoding : Encoding) (name : String) : Except ArchiveError Bytes :=
  (encoding.encodeTerminated name).mapError .encoding

/-- Writes the name of a file behind the end, and answers the entry with its place. -/
def appendName (name : String) (entry : IndexEntry) : Change IndexEntry := do
  let octets ← of (storedName (← get).archive.encoding name)
  let offset ← append octets
  return { entry with nameOffset := offset, nameLength := .ofNat octets.length }

/-! ## Saving contents -/

/-- Saves contents behind the end of the file. -/
def saveBehind (contents : Bytes) (entry : IndexEntry) : Change Residence := do
  let offset ← append contents
  return .stored { entry with dataOffset := offset, dataLength := .ofNat contents.length }

/-- Saves contents over the old ones where nothing comes behind these, else behind the end. -/
def saveInPlace (member : Member) (contents : Bytes) : Change Residence := do
  let file := (← get).file
  let entry := member.entry
  if member.isCreated then saveBehind contents (← appendName member.name entry)
  else if 0 < entry.dataLength ∧ entry.dataEnd = file.length then
    setFile (file.take entry.dataOffset.toNat ++ contents)
    return .stored { entry with dataLength := .ofNat contents.length }
  else saveBehind contents entry

/-- Saves name and contents of a member behind the end of the file.  The place of the name is
remembered even if there is no more room for the contents. -/
def saveAnew (member : Member) (contents : Bytes) : Change Residence := do
  let entry ← appendName member.name member.entry
  updateMember member.name (Member.relist entry)
  saveBehind contents entry

/-- Saves the contents of a member as the mode says, and answers where they are. -/
def save (member : Member) (contents : Bytes) : Change Residence := do
  match (← get).archive.mode with
  | .readOnly => throw .readOnly
  | .explicit => return .buffered member.entry.unknown contents
  | .flush => saveInPlace member contents
  | .immediate => saveAnew member contents

/-- Takes the contents of a closed handle.  A file that cannot be saved is not created. -/
def commit (name : String) (contents : Bytes) : Change Unit := do
  let some member := (← get).archive.find? name | throw (.notFound name)
  updateMember name fun m => { m with writer := false }
  try
    let residence ← save member contents
    updateMember name fun m => { m with residence }
    update fun archive => { archive with dirty := true }
  catch e =>
    if member.isCreated then forget name
    throw e

/-! ## Making the file show the changes -/

/-- The index of an archive as it is written. -/
def indexOctets (archive : Archive) : Bytes :=
  archive.files.flatMap fun member => member.entry.write

/-- Writes an index over the old one where nothing comes behind that, else behind the end. -/
def placeIndex (index : Bytes) : Change UInt32 := do
  let store ← get
  let header := store.archive.header
  if 0 < header.indexLength ∧ header.indexEnd = store.file.length then
    setFile (store.file.take header.indexOffset.toNat ++ index)
    return header.indexOffset
  else append index

/-- Writes the index, and a header that names its place. -/
def writeIndex : Change Unit := do
  let index := indexOctets (← get).archive
  let offset ← placeIndex index
  update fun archive =>
    { archive with
      header := { archive.header with indexOffset := offset, indexLength := .ofNat index.length } }
  let store ← get
  setFile (store.archive.header.write ++ store.file.drop ArchiveHeader.size)

/-- Files with their names in stored form.  Each name starts where the one in front of it ends, the
first of them at an offset, and every such place can be a field of the index. -/
def nameFrom (encoding : Encoding) (offset : Nat) :
    List Member → Except ArchiveError (List (Bytes × Member))
  | [] => .ok []
  | member :: rest => do
    let name ← storedName encoding member.name
    discard (fit offset)
    let named ← nameFrom encoding (offset + name.length) rest
    return (name, member) :: named

/-- The files of an archive with their names in stored form. -/
def namedFiles (archive : Archive) : Except ArchiveError (List (Bytes × Member)) :=
  nameFrom archive.encoding ArchiveHeader.size archive.files

/-- The offsets of contents of these sizes, and the offset behind the last. -/
def offsets (start : Nat) : List Nat → List Nat
  | [] => [start]
  | size :: rest => start :: offsets (start + size) rest

/-- The offsets of contents and index in the packed form can be fields of the index. -/
def checkOffsets (files : List (Bytes × Member)) : Except ArchiveError Unit := do
  let dataSizes := files.map (·.2.entry.dataLength.toNat)
  let contentsOffset := ArchiveHeader.size + (files.flatMap (·.1)).length
  (offsets contentsOffset dataSizes).forM fun offset => discard (fit offset)

/-- A file with a stored name, ready to be packed. -/
def packedFile (file : Bytes) (named : Bytes × Member) : Except ArchiveError PackedFile :=
  (named.2.contents file).map fun contents => ⟨named.1, contents, named.2.entry.unknown⟩

/-- Hands the handles on a member over to the member of its name in a new memory of the index.  A
member that is still being created is kept as it is. -/
def handOver (members : List Member) (old : Member) : List Member :=
  if old.isCreated then members ++ [old]
  else
    Member.change old.name (fun m => { m with readers := old.readers, writer := old.writer })
      members

/-- Writes the file anew in its packed form, which is built in a scratch file first. -/
def repack : Change Unit := do
  let store ← get
  let named ← of (namedFiles store.archive)
  of (checkOffsets named)
  modify fun store => { store with scratch := true }
  let packed ← of (named.mapM (packedFile store.file))
  let file := Packing.image store.archive.header.unknown packed
  modify fun store => { store with scratch := false, file }
  let index := Archive.readIndex store.archive.encoding file
  modify fun store => { store with warnings := store.warnings ++ index.warnings }
  let (header, members) ← of index.result
  update fun archive =>
    { archive with header, members := archive.members.foldl handOver members, dirty := false }

/-- Makes the file under the archive show all changes. -/
def flush : Change Unit := do
  let archive := (← get).archive
  if archive.dirty then
    match archive.mode with
    | .readOnly => pure ()
    | .explicit => repack
    | .flush | .immediate => do
      writeIndex
      update fun archive => { archive with dirty := false }

/-- Writes the file anew without the room of files that are gone.  In immediate mode, which keeps
that room, it is a flush. -/
def compact : Change Unit := do
  checkWritable
  if (← get).archive.mode = .immediate then
    warn .compactionUnavailable
    flush
  else repack

/-! ## Handles -/

/-- A file, which must be there. -/
def expectFile (name : String) : Change Member := do
  let some member := (← get).archive.file? name | throw (.notFound name)
  return member

/-- Opens a file for reading and answers its contents, none while it is being written. -/
def openFile (name : String) : Change (Option Bytes) := do
  let member ← expectFile name
  if member.writer then return none
  let contents ← of (member.contents (← get).file)
  updateMember name fun m => { m with readers := m.readers + 1 }
  return some contents

/-- Opens a file for writing and answers its contents, none while any other handle is open. -/
def openFileMut (name : String) : Change (Option Bytes) := do
  checkWritable
  let member ← expectFile name
  if member.isBusy then return none
  let contents ← of (member.contents (← get).file)
  updateMember name fun m => { m with writer := true }
  return some contents

/-- Opens an empty handle for writing a file, which need not be there.  Answers whether no other
handle is open. -/
def createFile (name : String) : Change Bool := do
  checkWritable
  match (← get).archive.find? name with
  | some member =>
    if member.isBusy then return false
    updateMember name fun m => { m with writer := true }
  | none =>
    let made : Member := { name, residence := .created, writer := true }
    update fun archive => { archive with members := archive.members ++ [made] }
  return true

/-- Gives back a handle for reading. -/
def releaseReader (name : String) : Change Unit :=
  updateMember name fun m => { m with readers := m.readers - 1 }

/-- Gives back a handle for writing without saving its contents. -/
def discardWriter (name : String) : Change Unit := do
  warn (.handleDropped name)
  match (← get).archive.find? name with
  | some member =>
    if member.isCreated then forget name else updateMember name fun m => { m with writer := false }
  | none => pure ()

/-! ## Whole files -/

/-- Takes a file out of the index.  Answers whether there was one without open handles. -/
def deleteFile (name : String) : Change Bool := do
  checkWritable
  match (← get).archive.find? name with
  | none => return false
  | some member =>
    if member.isBusy || member.isCreated then return false
    forget name
    update fun archive => { archive with dirty := true }
    return true

/-- Creates a file or replaces its contents.  Answers whether no handle is open on it. -/
def writeAll (name : String) (contents : Bytes) : Change Bool := do
  if ← createFile name then
    commit name contents
    return true
  else return false

/-- The contents of a file that no handle writes. -/
def readAll (name : String) : Change Bytes := do
  let store ← get
  of (store.archive.readAll store.file name)

/-- Ends the work on an archive; what no flush has shown is lost. -/
def close : Change Unit := do
  let archive := (← get).archive
  if archive.dirty then warn (.changesDropped archive.path)

end Change
end NovelScript
