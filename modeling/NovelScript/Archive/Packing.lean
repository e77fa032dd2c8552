import NovelScript.Archive.Basic

/-!
# The packed form of an archive

In a packed archive the header, the names, the contents and the index follow each other without
gaps, all in the order of the index.  `Packing.image` is that file as a whole.
-/

namespace NovelScript

/-- A file to be packed. -/
structure PackedFile where
  /-- The stored name with its terminator. -/
  name : Bytes
  contents : Bytes
  /-- The last word of the index entry. -/
  unknown : UInt32
deriving DecidableEq

namespace Packing

/-- The index entries of files whose names and contents start at these offsets. -/
def entries (nameOffset dataOffset : Nat) : List PackedFile → List IndexEntry
  | [] => []
  | file :: rest =>
    { nameOffset := .ofNat nameOffset
      nameLength := .ofNat file.name.length
      dataOffset := .ofNat dataOffset
      dataLength := .ofNat file.contents.length
      unknown := file.unknown }
      :: entries (nameOffset + file.name.length) (dataOffset + file.contents.length) rest

/-- The names one after the other. -/
def names (files : List PackedFile) : Bytes := files.flatMap (·.name)

/-- The contents one after the other. -/
def contents (files : List PackedFile) : Bytes := files.flatMap (·.contents)

/-- Where the contents start. -/
def contentsOffset (files : List PackedFile) : Nat := ArchiveHeader.size + (names files).length

/-- Where the index starts. -/
def indexOffset (files : List PackedFile) : Nat := contentsOffset files + (contents files).length

/-- The header of a packed archive. -/
def header (unknown : UInt32) (files : List PackedFile) : ArchiveHeader where
  unknown := unknown
  indexOffset := .ofNat (indexOffset files)
  indexLength := .ofNat (ArchiveHeader.entrySize * files.length)

/-- The packed archive. -/
def image (unknown : UInt32) (files : List PackedFile) : Bytes :=
  (header unknown files).write ++ names files ++ contents files
    ++ (entries ArchiveHeader.size (contentsOffset files) files).flatMap IndexEntry.write

@[simp] theorem length_entries (nameOffset dataOffset : Nat) (files : List PackedFile) :
    (entries nameOffset dataOffset files).length = files.length := by
  induction files generalizing nameOffset dataOffset with
  | nil => rfl
  | cons file rest ih => simp [entries, ih]

/-- A packed archive takes 24 octets, its names and contents, and 20 octets per file. -/
theorem length_image (unknown : UInt32) (files : List PackedFile) :
    (image unknown files).length =
      indexOffset files + ArchiveHeader.entrySize * files.length := by
  have index : ∀ es : List IndexEntry,
      (es.flatMap IndexEntry.write).length = ArchiveHeader.entrySize * es.length := by
    intro es
    induction es with
    | nil => rfl
    | cons e es ih => simp [List.flatMap_cons, ih, Nat.mul_succ, Nat.add_comm]
  simp [image, index, indexOffset, contentsOffset, Nat.add_assoc]

end Packing
end NovelScript
