import NovelScript.Archive.Header
import NovelScript.Outcome

/-!
# Archives

An archive is a list of files, its *members*, in the order of its index.  What is open is a memory
of the index and of the changes that the file under the archive does not show yet; this module says
what that memory holds and how it is read from the file (`Archive.load`).

## Where a member is

A member is `stored` in the file under the archive, `buffered` in memory until that file is
packed anew, or `created` by a handle that is still open.  Only the first two count as files of the
archive.
-/

namespace NovelScript

/-- When changes reach the file under an archive. -/
inductive SaveMode where
  | readOnly
  /-- Contents stay in memory until the file is packed anew. -/
  | explicit
  /-- Contents are written at once, over the old ones where these come last. -/
  | flush
  /-- Contents are written at once behind all others. -/
  | immediate
deriving DecidableEq

/-- Where a member is. -/
inductive Residence where
  /-- Made by a handle that is not closed yet. -/
  | created
  /-- In memory; `unknown` is the last word of its index entry. -/
  | buffered (unknown : UInt32) (contents : Bytes)
  /-- In the file under the archive. -/
  | stored (entry : IndexEntry)
deriving DecidableEq

/-- A file of an archive with the handles that are open on it. -/
structure Member where
  name : String
  residence : Residence
  readers : Nat := 0
  writer : Bool := false
deriving DecidableEq

/-- The octets of a region, all of which must lie inside the file. -/
def region (file : Bytes) (offset length : Nat) : Except ArchiveError Bytes :=
  let octets := (file.drop offset).take length
  if octets.length = length then .ok octets else .error (.file .shortRead)

namespace Member

/-- Whether the member is made by a handle that is not closed yet. -/
def isCreated (member : Member) : Bool := member.residence == .created

/-- Whether any handle is open on the member. -/
def isBusy (member : Member) : Bool := member.writer || 0 < member.readers

/-- The index entry of a member, as far as it is known. -/
def entry (member : Member) : IndexEntry :=
  match member.residence with
  | .created => {}
  | .buffered unknown contents => { dataLength := .ofNat contents.length, unknown }
  | .stored entry => entry

/-- The contents of a member; `file` is the file under the archive. -/
def contents (member : Member) (file : Bytes) : Except ArchiveError Bytes :=
  match member.residence with
  | .created => .ok []
  | .buffered _ contents => .ok contents
  | .stored entry => region file entry.dataOffset.toNat entry.dataLength.toNat

/-- A member that is in the file, under another entry. -/
def relist (entry : IndexEntry) (member : Member) : Member :=
  match member.residence with
  | .stored _ => { member with residence := .stored entry }
  | _ => member

/-- Changes the first member of a name. -/
def change (name : String) (f : Member → Member) : List Member → List Member
  | [] => []
  | member :: rest => if member.name = name then f member :: rest else member :: change name f rest

end Member

/-- An open archive. -/
structure Archive where
  path : String
  mode : SaveMode
  encoding : Encoding
  header : ArchiveHeader
  members : List Member
  /-- Whether there are changes that the index in the file does not show. -/
  dirty : Bool := false

namespace Archive

/-! ## What an archive holds -/

/-- The members that count as files. -/
def files (archive : Archive) : List Member := archive.members.filter (!·.isCreated)

/-- The first member of a name. -/
def find? (archive : Archive) (name : String) : Option Member :=
  archive.members.find? (·.name == name)

/-- The first member of a name, if it counts as a file. -/
def file? (archive : Archive) (name : String) : Option Member :=
  (archive.find? name).filter (!·.isCreated)

/-- The number of files. -/
def size (archive : Archive) : Nat := archive.files.length

/-- Whether there are no files. -/
def isEmpty (archive : Archive) : Bool := archive.size == 0

/-- Whether there is a file of a name. -/
def contains (archive : Archive) (name : String) : Bool := (archive.file? name).isSome

/-- The names of the files that match a pattern, in the order of the index. -/
def filesMatching (archive : Archive) (pattern : String) : Except ArchiveError (List String) :=
  match Pattern.Glob.parse pattern with
  | .error e => .error (.pattern e)
  | .ok glob => .ok ((archive.files.map (·.name)).filter glob.accepts)

/-! ## Reading the index -/

/-- Whether an entry names octets that a file of this size lacks, or has no name. -/
def isOutside (size : Nat) (entry : IndexEntry) : Bool :=
  size < entry.nameEnd || size < entry.dataEnd || entry.nameLength == 0

/-- The name of a listed file. -/
def nameOf (encoding : Encoding) (file : Bytes) (entry : IndexEntry) : String :=
  encoding.decodeTerminated ((file.drop entry.nameOffset.toNat).take entry.nameLength.toNat)

/-- Adds listed files to `members`.  A name listed before keeps its place and gets the entry. -/
def readMembers (encoding : Encoding) (file : Bytes) (members : List Member)
    (warnings : List ArchiveWarning) :
    List IndexEntry → Outcome ArchiveError ArchiveWarning (List Member)
  | [] => { result := .ok members, warnings }
  | entry :: rest =>
    if isOutside file.length entry then
      { result := .error (.corrupt (.entryOutside entry.nameOffset)), warnings }
    else
      let name := nameOf encoding file entry
      if members.any (·.name == name) then
        readMembers encoding file
          (Member.change name (fun m => { m with residence := .stored entry }) members)
          (warnings ++ [.listedTwice name]) rest
      else
        readMembers encoding file (members ++ [{ name, residence := .stored entry }]) warnings rest

/-- Reads the header and the index of a file. -/
def readIndex (encoding : Encoding) (file : Bytes) :
    Outcome ArchiveError ArchiveWarning (ArchiveHeader × List Member) :=
  match ArchiveHeader.read file with
  | .error e => { result := .error e }
  | .ok header =>
    if file.length < header.indexEnd then
      { result := .error (.corrupt (.indexOutside header.indexEnd file.length)) }
    else
      let entries := IndexEntry.takeMany header.entryCount (file.drop header.indexOffset.toNat)
      let outcome := readMembers encoding file [] [] entries
      { result := outcome.result.map fun members => (header, members)
        warnings := outcome.warnings }

/-- The archive in a file. -/
def load (path : String) (mode : SaveMode) (encoding : Encoding) (file : Bytes) :
    Outcome ArchiveError ArchiveWarning Archive :=
  let outcome := readIndex encoding file
  { result := outcome.result.map fun (header, members) =>
      { path, mode, encoding, header, members }
    warnings := outcome.warnings }

/-- The file under an archive without files. -/
def emptyFile : Bytes := ArchiveHeader.write {}

/-! ## Reading files -/

/-- The contents of a file that no handle writes; `file` is the file under the archive. -/
def readAll (archive : Archive) (file : Bytes) (name : String) : Except ArchiveError Bytes :=
  match archive.file? name with
  | none => .error (.notFound name)
  | some member => if member.writer then .error (.busy name) else member.contents file

end Archive
end NovelScript
