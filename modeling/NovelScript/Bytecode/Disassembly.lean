import NovelScript.Bytecode.Header
import NovelScript.Bytecode.Program
import NovelScript.Bytecode.Record
import NovelScript.Settings

/-!
# From a compiled script to a program

The sections of a compiled script lie where its header says.  Records become elements, links between
markers are looked up in the code stream, and code words are gathered into instructions.  A link
that leads nowhere is dropped; anything else out of order is refused.
-/

namespace NovelScript
namespace Program

/-- The octets of a section, which must lie inside the file. -/
def section_ (input : Bytes) (offset : UInt32) (length : Nat) : Except ScriptError Bytes :=
  if offset.toNat + length ≤ input.length then .ok ((input.drop offset.toNat).take length)
  else .error (.outOfRange offset.toNat input.length)

/-- Reads records into elements; `index` elements come before them, `markers` of them markers. -/
def readElements (view : SectorView) (index markers : Nat) :
    List ElementRecord → Except ScriptError (List Element)
  | [] => .ok []
  | record :: rest => do
    let element ← record.element index markers view
    let markers := if element.marker?.isSome then markers + 1 else markers
    let elements ← readElements view (index + 1) markers rest
    return element :: elements

/-- Whether a position of the table holds a marker. -/
def holdsMarker (elements : Array Element) (id : ElementId) : Bool :=
  (elements[id]?.bind Element.marker?).isSome

/-- The marker that a stored marker belongs with: the data sector names a code word, and that word
the marker. -/
def storedLink? (elements : Array Element) (code : Array UInt32) (view : SectorView)
    (record : ElementRecord) : Option ElementId :=
  if record.field2 = ElementRecord.linkNone ∨ record.field2 = ElementRecord.linkOperator then none
  else
    match view.integerAt record.field2.toNat with
    | .error _ => none
    | .ok word =>
      if word.toInt < 0 then none
      else (code[word.toInt.toNat]?.map UInt32.toNat).filter (holdsMarker elements)

/-- An element with its link looked up. -/
def linkElement (elements : Array Element) (code : Array UInt32) (view : SectorView)
    (element : Element) (record : ElementRecord) : Element :=
  match element with
  | .marker m => .marker { m with link := storedLink? elements code view record }
  | other => other

/-- Reads the argument words of a call, the first of them at `word`. -/
def readArguments (elements : Array Element) (word : Nat) :
    List UInt32 → Except ScriptError (List ElementId)
  | [] => .ok []
  | argument :: rest => do
    unless argument.toNat < elements.size do
      throw (.corrupt (.wordOutsideTable word argument.toNat elements.size))
    return argument.toNat :: (← readArguments elements (word + 1) rest)

/-- Gathers code words into instructions, the first of them at `word`. -/
def readCode (elements : Array Element) (word : Nat) :
    List UInt32 → Except ScriptError (List Instruction)
  | [] => .ok []
  | head :: rest =>
    match elements[head.toNat]? with
    | none => .error (.corrupt (.wordOutsideTable word head.toNat elements.size))
    | some (.function _) =>
      match rest with
      | [] => .error (.corrupt (.callWithoutCount word))
      | count :: rest =>
        if rest.length < count.toNat then .error (.corrupt (.callOverrun word count.toNat))
        else do
          let arguments ← readArguments elements (word + 2) (rest.take count.toNat)
          let others ← readCode elements (word + 2 + count.toNat) (rest.drop count.toNat)
          return .call head.toNat arguments :: others
    | some (.marker _) => do
      return .label head.toNat :: (← readCode elements (word + 1) rest)
    | some element =>
      if element.isAssignable then do
        return .target head.toNat :: (← readCode elements (word + 1) rest)
      else .error (.corrupt (.cannotStart element word))
termination_by words => words.length
decreasing_by all_goals simp only [List.length_drop, List.length_cons]; omega

/-- The program of a compiled script. -/
def disassemble (input : Bytes) (settings : Settings) : Except ScriptError Program := do
  let header ← ScriptHeader.read input
  let codeBytes ← section_ input header.codeOffset (header.codeCount.toNat * 4)
  let indexBytes ← section_ input header.indexOffset (header.indexCount.toNat * ElementRecord.size)
  let dataBytes ← section_ input header.dataOffset header.dataLength.toNat
  let code := Word.words32 codeBytes
  let records := ElementRecord.ofWords (Word.words32 indexBytes)
  let view := SectorView.open_ settings.encoding
    (if header.isEncrypted then some settings.scriptKey else none) dataBytes
  let unlinked := (← readElements view 0 0 records).toArray
  let elements := unlinked.zipWith (linkElement unlinked code.toArray view) records.toArray
  let instructions ← readCode elements 0 code
  return ⟨elements, instructions, header.maxLocals.toNat⟩

end Program
end NovelScript
