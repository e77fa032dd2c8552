import NovelScript.Bytecode.Header
import NovelScript.Bytecode.Program
import NovelScript.Bytecode.Record
import NovelScript.Settings

/-!
# From a program to a compiled script

Every element that the instructions refer to gets a *slot* of the stored table, in order of first
use.  Markers have a slot each; other elements of equal value share one.  A code word is a slot.

`Program.assemble` checks the program (`Program.check`), and then everything it writes is a function
of the program: the slots, the code, the placed labels, the records with the data sector.
-/

namespace NovelScript
namespace Program

/-! ## Checks -/

/-- The number of a local that the program does not provide for. -/
def excessLocal? (program : Program) : Element → Option Nat
  | .localVar id => if program.maxLocals ≤ id then some id else none
  | _ => none

/-- Every local of the table is provided for, and their count fits its header field. -/
def checkLocals (program : Program) : Except ScriptError Unit :=
  match program.elements.toList.findSome? program.excessLocal? with
  | some id => .error (.invalid (.localTooHigh id program.maxLocals))
  | none =>
    if program.maxLocals < 4294967296 then .ok ()
    else .error (.invalid (.tooManyLocals program.maxLocals))

/-- The instruction refers to elements of the right kinds. -/
def checkInstruction (program : Program) : Instruction → Except ScriptError Unit
  | .call function arguments => do
    let element ← program.expect function
    if element.functionName?.isNone then throw (.invalid (.callThroughNonFunction function))
    arguments.forM fun argument => discard (program.expect argument)
  | .label id =>
    if (program.marker? id).isSome then .ok () else .error (.invalid (.labelThroughNonMarker id))
  | .target id => do
    let element ← program.expect id
    unless element.isAssignable do throw (.invalid (.assignmentToNonAssignable id))

/-- The program can be assembled, the encoding of its texts apart. -/
def check (program : Program) : Except ScriptError Unit := do
  program.checkLocals
  program.instructions.forM program.checkInstruction

/-! ## Slots and code -/

/-- Whether two references share a slot. -/
def sameSlot (program : Program) (a b : ElementId) : Bool :=
  a == b || match program.elements[a]?, program.elements[b]? with
    | some (.marker _), _ => false
    | some x, some y => x == y
    | _, _ => false

/-- The references that open a slot: those that share none with an earlier one. -/
def firstUses (program : Program) (seen : List ElementId) : List ElementId → List ElementId
  | [] => seen
  | id :: rest =>
    if seen.any (program.sameSlot id) then firstUses program seen rest
    else firstUses program (seen ++ [id]) rest

/-- The elements of the stored table in the order of their slots. -/
def slots (program : Program) : List ElementId :=
  program.firstUses [] (program.instructions.flatMap Instruction.references)

/-- The slot of an element that an instruction refers to. -/
def slotIn (program : Program) (slots : List ElementId) (id : ElementId) : Nat :=
  slots.findIdx (program.sameSlot id)

/-- The code words of an instruction. -/
def instructionWords (program : Program) (slots : List ElementId) : Instruction → List UInt32
  | .call function arguments =>
    UInt32.ofNat (program.slotIn slots function) :: UInt32.ofNat arguments.length
      :: arguments.map fun argument => UInt32.ofNat (program.slotIn slots argument)
  | .label id | .target id => [UInt32.ofNat (program.slotIn slots id)]

/-- The code stream. -/
def code (program : Program) : List UInt32 :=
  program.instructions.flatMap (program.instructionWords program.slots)

/-! ## What the code says about elements -/

/-- The code word at which a marker is first placed. -/
def labelWord? (program : Program) (id : ElementId) : Option Nat :=
  ((positioned 0 program.instructions).find? fun entry => entry.2 == .label id).map (·.1)

/-- Whether an instruction calls the function of a slot. -/
def callsSlot (program : Program) (id : ElementId) : Instruction → Bool
  | .call function _ => program.sameSlot id function
  | _ => false

/-- The code word of the last call through the function of a slot, zero if there is none. -/
def lastCall (program : Program) (id : ElementId) : Nat :=
  (((positioned 0 program.instructions).reverse.find? fun entry =>
    program.callsSlot id entry.2).map (·.1)).getD 0

/-- An element with the offset of its label brought up to date. -/
def placeElement (program : Program) (id : ElementId) (element : Element) : Element :=
  match element, program.labelWord? id with
  | .marker m, some word => .marker { m with labelOffset := .ofNat word }
  | _, _ => element

/-- The program with every placed marker at the word of its first label. -/
def placed (program : Program) : Program :=
  { program with elements := program.elements.mapIdx program.placeElement }

/-! ## The stored form -/

/-- Stores the elements of slots one after the other. -/
def writeRecords (program : Program) : List ElementId → DataSector →
    Except ScriptError (List ElementRecord × DataSector)
  | [], sector => .ok ([], sector)
  | id :: rest, sector => do
    let element ← program.expect id
    let linkWord := element.marker?.bind fun m => m.link.bind program.labelWord?
    let (record, sector) ← ElementRecord.ofElement element (program.lastCall id) linkWord sector
    let (records, sector) ← writeRecords program rest sector
    return (record :: records, sector)

/-- The header of a script with this code, table and data sector. -/
def header (program : Program) (settings : Settings) (code : List UInt32)
    (records : List ElementRecord) (sector : DataSector) : ScriptHeader :=
  let indexOffset := ScriptHeader.size + 4 * code.length
  { encryption := if settings.encrypt then 1 else 0
    headerLength := 48
    unknown1 := 0
    codeOffset := .ofNat ScriptHeader.size
    codeCount := .ofNat code.length
    indexOffset := .ofNat indexOffset
    indexCount := .ofNat records.length
    dataOffset := .ofNat (indexOffset + ElementRecord.size * records.length)
    dataLength := .ofNat sector.size
    maxLocals := .ofNat program.maxLocals
    unknown2 := 0 }

/-- The compiled script of a program. -/
def assemble (program : Program) (settings : Settings) : Except ScriptError Bytes := do
  program.check
  let placed := program.placed
  let (records, sector) ← placed.writeRecords program.slots (.empty settings.encoding)
  let key := if settings.encrypt then some settings.scriptKey else none
  return (placed.header settings program.code records sector).write
    ++ program.code.flatMap Word.octets32
    ++ records.flatMap ElementRecord.write
    ++ scramble key sector.bytes

/-- The program as assembling leaves it: a program that passes the checks has its labels placed,
whether or not its texts can be stored. -/
def afterAssembly (program : Program) : Program :=
  match program.check with
  | .ok _ => program.placed
  | .error _ => program

end Program
end NovelScript
