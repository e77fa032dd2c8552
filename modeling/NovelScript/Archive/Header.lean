import NovelScript.Archive.Error
import NovelScript.Byte.Word

/-!
# The header and index of an archive

An archive opens with 24 octets that say where its index is; the index has 20 octets per file, which
say where the file's name and data are.
-/

namespace NovelScript

/-- The 24-octet header. -/
structure ArchiveHeader where
  version : UInt16 := 0
  headerSize : UInt32 := 24
  unknown : UInt32 := 0
  indexOffset : UInt32 := 24
  /-- In octets, 20 per file. -/
  indexLength : UInt32 := 0
deriving DecidableEq

namespace ArchiveHeader

/-- Opens every archive. -/
def signature : Bytes := [0x59, 0x4B, 0x43, 0x30, 0x30, 0x31]

/-- The size of a header. -/
def size : Nat := 24

/-- The size of an index entry. -/
def entrySize : Nat := 20

/-- How many files the index lists. -/
def entryCount (header : ArchiveHeader) : Nat := header.indexLength.toNat / entrySize

/-- The octet behind the index. -/
def indexEnd (header : ArchiveHeader) : Nat :=
  header.indexOffset.toNat + header.indexLength.toNat

/-- The octets of a header. -/
def write (header : ArchiveHeader) : Bytes :=
  signature ++ Word.octets16 header.version ++ Word.octets32 header.headerSize
    ++ Word.octets32 header.unknown ++ Word.octets32 header.indexOffset
    ++ Word.octets32 header.indexLength

/-- The fields behind the signature. -/
def fields : Reader ArchiveHeader := do
  return {
    version := ← Word.take16
    headerSize := ← Word.take32
    unknown := ← Word.take32
    indexOffset := ← Word.take32
    indexLength := ← Word.take32 }

/-- Reads the header at the front of a file. -/
def read (input : Bytes) : Except ArchiveError ArchiveHeader :=
  match Word.takeOctets signature.length input with
  | none => .error (.file .shortRead)
  | some (opening, rest) =>
    if opening ≠ signature then .error .badSignature
    else
      match fields rest with
      | none => .error (.file .shortRead)
      | some (header, _) =>
        if header.version ≠ 0 then .error (.unsupportedVersion header.version)
        else if header.headerSize ≠ 24 then .error (.badHeaderSize header.headerSize)
        else if header.indexLength.toNat % entrySize ≠ 0 then
          .error (.corrupt (.indexLength header.indexLength))
        else .ok header

@[simp] theorem length_write (header : ArchiveHeader) : header.write.length = size := rfl

/-- The fields of a written header are read back. -/
theorem fields_write (header : ArchiveHeader) (rest : Bytes) :
    fields ((header.write ++ rest).drop signature.length) = some (header, rest) := by
  simp only [write, List.append_assoc, List.drop_left, fields, Word.take16_bind,
    Word.take32_bind]
  rfl

end ArchiveHeader

/-- Where the name and data of a file are. -/
structure IndexEntry where
  nameOffset : UInt32 := 0
  /-- The terminator of the name counts. -/
  nameLength : UInt32 := 0
  dataOffset : UInt32 := 0
  dataLength : UInt32 := 0
  unknown : UInt32 := 0
deriving DecidableEq

namespace IndexEntry

/-- The octet behind the name. -/
def nameEnd (entry : IndexEntry) : Nat := entry.nameOffset.toNat + entry.nameLength.toNat

/-- The octet behind the data. -/
def dataEnd (entry : IndexEntry) : Nat := entry.dataOffset.toNat + entry.dataLength.toNat

/-- The octets of an entry. -/
def write (entry : IndexEntry) : Bytes :=
  Word.octets32 entry.nameOffset ++ Word.octets32 entry.nameLength
    ++ Word.octets32 entry.dataOffset ++ Word.octets32 entry.dataLength
    ++ Word.octets32 entry.unknown

/-- Takes an entry off the front of the input. -/
def take : Reader IndexEntry := do
  return {
    nameOffset := ← Word.take32
    nameLength := ← Word.take32
    dataOffset := ← Word.take32
    dataLength := ← Word.take32
    unknown := ← Word.take32 }

/-- The first `n` entries of the input, or as many as there are. -/
def takeMany : Nat → Bytes → List IndexEntry
  | 0, _ => []
  | n + 1, input =>
    match take input with
    | some (entry, rest) => entry :: takeMany n rest
    | none => []

@[simp] theorem length_write (entry : IndexEntry) :
    entry.write.length = ArchiveHeader.entrySize := rfl

@[simp] theorem take_write (entry : IndexEntry) (rest : Bytes) :
    take (entry.write ++ rest) = some (entry, rest) := by
  simp only [write, List.append_assoc, take, Word.take32_bind]
  rfl

/-- Entries written one after the other are read back in order. -/
theorem takeMany_flatMap_write (entries : List IndexEntry) (rest : Bytes) :
    takeMany entries.length (entries.flatMap write ++ rest) = entries := by
  induction entries with
  | nil => rfl
  | cons entry entries ih =>
    simp only [List.length_cons, List.flatMap_cons, List.append_assoc, takeMany, take_write, ih]

end IndexEntry
end NovelScript
