import NovelScript.FileFault
import NovelScript.Pattern.Glob
import NovelScript.Text.Encoding

/-!
# Why an archive cannot be opened, read or changed

`ArchiveError.message` is the only place that puts these failures into words, and
`ArchiveWarning.message` that of the oddities an archive puts up with.
-/

namespace NovelScript

/-- What is wrong with the tables of an archive. -/
inductive TableFault where
  | indexLength (found : UInt32)
  | indexOutside (ends size : Nat)
  | entryOutside (nameOffset : UInt32)
  | offsetTooLarge (offset : Nat)
deriving DecidableEq

/-- Failures of the archive. -/
inductive ArchiveError where
  | file (fault : FileFault)
  | badSignature
  | unsupportedVersion (found : UInt16)
  | badHeaderSize (found : UInt32)
  | corrupt (fault : TableFault)
  | readOnly
  | notFound (name : String)
  | busy (name : String)
  | pattern (error : Pattern.GlobError)
  | encoding (error : EncodingError)
deriving DecidableEq

/-- An oddity that the archive puts up with. -/
inductive ArchiveWarning where
  | listedTwice (name : String)
  | handleDropped (name : String)
  | compactionUnavailable
  | changesDropped (path : String)
deriving DecidableEq

/-! ## Wording -/

/-- A number as hexadecimal with its mark. -/
def hexLiteral (n : Nat) : String := "0x" ++ Text.capitalHexDigits n

def TableFault.message : TableFault → String
  | indexLength found => s!"index length {found} is not a multiple of 20"
  | indexOutside ends size =>
    s!"index ends at {hexLiteral ends}, file is {hexLiteral size} bytes"
  | entryOutside nameOffset =>
    s!"entry at name offset {hexLiteral nameOffset.toNat} points outside the file"
  | offsetTooLarge offset => s!"offset {hexLiteral offset} does not fit in 32 bits"

/-- The wording of a failure. -/
def ArchiveError.message : ArchiveError → String
  | file fault => s!"I/O error: {fault.message}"
  | badSignature => "bad archive signature"
  | unsupportedVersion found => s!"unsupported archive version {found}"
  | badHeaderSize found => s!"bad archive header size {found}"
  | corrupt fault => s!"corrupt archive: {fault.message}"
  | readOnly => "archive is opened read-only"
  | notFound name => s!"file not found in archive: {name}"
  | busy name => s!"file is open for writing: {name}"
  | pattern error => s!"bad file pattern: {error.message}"
  | encoding error => error.message

/-- The wording of a warning. -/
def ArchiveWarning.message : ArchiveWarning → String
  | listedTwice name => s!"{name}: listed twice in the index, keeping the later entry"
  | handleDropped name => s!"{name}: write handle dropped without close, discarding"
  | compactionUnavailable =>
    "compaction is not available in immediate mode, only flushing the index"
  | changesDropped path => s!"{path}: dropped with unflushed changes"

end NovelScript
