import NovelScript.Script.Error

/-!
# Programs: elements and instructions

A `Program` is the symbolic form of a compiled script.  An instruction calls a function, places a
marker as a label, or names the target of the assignment that follows.  In the code stream a call
takes two words and one per argument, the others one word.
-/

namespace NovelScript

/-- One step of a program. -/
inductive Instruction where
  | call (function : ElementId) (arguments : List ElementId)
  | label (marker : ElementId)
  | target (element : ElementId)
deriving DecidableEq, Repr

/-- Elements, the instructions that refer to them, and how many locals these may use. -/
structure Program where
  elements : Array Element
  instructions : List Instruction
  maxLocals : Nat
deriving DecidableEq

namespace Instruction

/-- How many code words the instruction takes. -/
def width : Instruction → Nat
  | call _ arguments => 2 + arguments.length
  | label _ | target _ => 1

/-- The elements that the instruction refers to, in code order. -/
def references : Instruction → List ElementId
  | call function arguments => function :: arguments
  | label marker => [marker]
  | target element => [element]

end Instruction

/-- Instructions with the code words at which they start, the first at `word`. -/
def positioned (word : Nat) : List Instruction → List (Nat × Instruction)
  | [] => []
  | i :: rest => (word, i) :: positioned (word + i.width) rest

namespace Program

/-- The element at a position, which must not lie outside the table. -/
def expect (program : Program) (id : ElementId) : Except ScriptError Element :=
  match program.elements[id]? with
  | some element => .ok element
  | none => .error (.corrupt (.danglingElement id))

/-- The marker at a position, if there is one. -/
def marker? (program : Program) (id : ElementId) : Option Marker :=
  program.elements[id]?.bind Element.marker?

/-! ## Listing -/

/-- How a listing shows the element at a position. -/
def describe (program : Program) (id : ElementId) : String :=
  match program.elements[id]? with
  | some element => element.render
  | none => s!"<dangling {id}>"

/-- How a listing shows an instruction. -/
def describeInstruction (program : Program) : Instruction → String
  | .call function arguments =>
    let list := ", ".intercalate (arguments.map program.describe)
    s!"call   {program.describe function} [{list}]"
  | .label id =>
    match program.marker? id with
    | some m =>
      let link := match m.link.bind program.marker? with
        | some other => s!" -> #{other.number}"
        | none => ""
      s!"label  {program.describe id} @{m.labelOffset}{link}"
    | none => s!"label  {program.describe id}"
  | .target id => s!"target {program.describe id}"

/-- A code position with at least eight digits. -/
def paddedWord (word : Nat) : String :=
  .ofList ((toString word).toList.leftpad 8 '0')

/-- The program as text, one instruction per line behind its code position. -/
def listing (program : Program) : String :=
  String.join (s!"; max_locals = {program.maxLocals}\n"
    :: (positioned 0 program.instructions).map fun (word, i) =>
      s!"{paddedWord word}  {program.describeInstruction i}\n")

end Program
end NovelScript
