import NovelScript.Text.Encoding

/-!
# Settings of the script tools and the archive
-/

namespace NovelScript

/-- Which texts the decompiler moves into the string table. -/
structure ExternalizeSettings where
  /-- A pattern for the functions whose text arguments are moved. -/
  functions : String := "^(StrOut|StrOutNW|StrOutNWC|SetName)$"
  /-- A pattern for texts that stay where they are, such as file names. -/
  exclude : Option String := some "^[\\w./\\\\-]*\\.\\w\x7b2,4\x7d$"
  /-- Opens the keys of moved texts. -/
  keyHead : String := "T"
deriving DecidableEq

/-- The settings that scripts and archives share. -/
structure Settings where
  /-- Encoding of the texts of a data sector and the names of an archive. -/
  encoding : Encoding := .shiftJis
  /-- Combined with every octet of a scrambled data sector. -/
  scriptKey : UInt8 := 0xAA
  /-- Whether written data sectors are scrambled. -/
  encrypt : Bool := true
  externalize : Option ExternalizeSettings := none
deriving DecidableEq

end NovelScript
