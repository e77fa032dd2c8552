import NovelScript.Script.Error

/-!
# The header of a compiled script

A compiled script opens with 48 octets: a signature, an encryption flag, the length of the header
itself and the places of the code, the element table and the data sector.  `read` accepts exactly
the headers whose length and flag are the known ones; `write` writes any header.
-/

namespace NovelScript

/-- The 48-octet header. -/
structure ScriptHeader where
  encryption : Int16
  headerLength : Int32
  unknown1 : UInt32
  codeOffset : UInt32
  /-- In words. -/
  codeCount : UInt32
  indexOffset : UInt32
  /-- In records. -/
  indexCount : UInt32
  dataOffset : UInt32
  dataLength : UInt32
  maxLocals : UInt32
  unknown2 : UInt32
deriving DecidableEq

namespace ScriptHeader

/-- Opens every compiled script. -/
def signature : Bytes := [0x59, 0x4B, 0x53, 0x30, 0x30, 0x31]

/-- The size of a header. -/
def size : Nat := 48

/-- Whether the data sector is scrambled. -/
def isEncrypted (header : ScriptHeader) : Bool := header.encryption == 1

/-- The octets of a header. -/
def write (header : ScriptHeader) : Bytes :=
  signature ++ Word.octets16 header.encryption.toUInt16
    ++ Word.octets32 header.headerLength.toUInt32 ++ Word.octets32 header.unknown1
    ++ Word.octets32 header.codeOffset ++ Word.octets32 header.codeCount
    ++ Word.octets32 header.indexOffset ++ Word.octets32 header.indexCount
    ++ Word.octets32 header.dataOffset ++ Word.octets32 header.dataLength
    ++ Word.octets32 header.maxLocals ++ Word.octets32 header.unknown2

/-- The fields behind the signature. -/
def fields : Reader ScriptHeader := do
  return {
    encryption := (← Word.take16).toInt16
    headerLength := (← Word.take32).toInt32
    unknown1 := ← Word.take32
    codeOffset := ← Word.take32
    codeCount := ← Word.take32
    indexOffset := ← Word.take32
    indexCount := ← Word.take32
    dataOffset := ← Word.take32
    dataLength := ← Word.take32
    maxLocals := ← Word.take32
    unknown2 := ← Word.take32 }

/-- Reads the header of a compiled script. -/
def read (input : Bytes) : Except ScriptError ScriptHeader :=
  let tooShort := .error (.badHeader (.tooShort input.length))
  if input.length < size then tooShort
  else if input.take signature.length ≠ signature then .error .badSignature
  else
    match fields (input.drop signature.length) with
    | none => tooShort
    | some (header, _) =>
      if header.headerLength ≠ 48 then .error (.badHeader (.headerLength header.headerLength))
      else if header.encryption ≠ 0 ∧ header.encryption ≠ 1 then
        .error (.badHeader (.encryptionFlag header.encryption))
      else .ok header

@[simp] theorem length_write (header : ScriptHeader) : header.write.length = size := rfl

/-- The fields of a written header are read back. -/
theorem fields_write (header : ScriptHeader) (rest : Bytes) :
    fields ((header.write ++ rest).drop signature.length) = some (header, rest) := by
  simp only [write, List.append_assoc, List.drop_left, fields, Word.take16_bind,
    Word.take32_bind]
  rfl

end ScriptHeader

/-- Whether `input` opens like a compiled script. -/
def isCompiledScript (input : Bytes) : Bool := ScriptHeader.signature.isPrefixOf input

end NovelScript
