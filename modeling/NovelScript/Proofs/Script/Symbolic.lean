import Mathlib.Data.List.Forall2
import NovelScript.Proofs.Script.Registers
import NovelScript.Proofs.Script.Trees

/-!
# Code with elements in place of their positions

An instruction refers to elements by position.  Put the elements themselves in place of the
positions, of a marker only its name, and what the compiler emits becomes a function of the tree
alone: `Symbolic.statements`.  It has no table of elements and cannot fail; what the compiler
refuses is a condition of its own, `Statement.CompilableList`.
-/

namespace NovelScript

/-- What an element says by itself: of a marker only the name. -/
def Element.face : Element → Element
  | .marker m => .marker ⟨m.name, none, 0, 0⟩
  | element => element

/-- The face of the markers of a name. -/
def markerFace (name : String) : Element := .marker ⟨name, none, 0, 0⟩

/-- The face of a function. -/
def functionFace (name : String) : Element := .function name

/-- An instruction with faces in place of element positions. -/
inductive SymbolicInstruction where
  | call (function : Element) (arguments : List Element)
  | label (marker : Element)
  | target (element : Element)

/-- Instructions with faces in place of element positions. -/
abbrev SymbolicCode := List SymbolicInstruction

/-- The face of the element at a position. -/
def faceAt (elements : Array Element) (id : ElementId) : Option Element :=
  elements[id]?.map Element.face

/-- An instruction refers to elements with the faces of a symbolic instruction. -/
def Instruction.Spells (elements : Array Element) :
    Instruction → SymbolicInstruction → Prop
  | .call function arguments, .call face faces =>
    faceAt elements function = some face ∧ arguments.map (faceAt elements) = faces.map some
  | .label id, .label face | .target id, .target face => faceAt elements id = some face
  | _, _ => False

/-- Instructions that spell symbolic code, one by one. -/
abbrev SpellsAll (elements : Array Element) (code : List Instruction) (symbolic : SymbolicCode) :
    Prop :=
  List.Forall₂ (Instruction.Spells elements) code symbolic

/-- Whether an element is the assignment is said by its face. -/
theorem isAssign_of_faceAt {program : Program} {id : ElementId} {face : Element}
    (h : faceAt program.elements id = some face) :
    Decompile.isAssign program id = (face.functionName? == some assignFunction) := by
  obtain ⟨e, he, rfl⟩ := Option.map_eq_some_iff.mp h
  rw [Decompile.isAssign, he]
  cases e <;> simp [Element.face, Element.functionName?]

/-! ## What the compiler refuses -/

/-- Whether a label can have this name. -/
def isLabelName (name : String) : Bool :=
  name ≠ blockOpen && name ≠ blockClose && !isOperator name

/-- The flag of a variable exists. -/
def Variable.Compilable : Variable → Prop
  | special _ => True
  | flag kind id => kind.inRange id = true

/-- The flag of a target exists. -/
def Target.Compilable : Target → Prop
  | var which => which.Compilable
  | flagPointer kind id => kind.inRange id = true
  | pointer _ => True

namespace Expression

mutual

/-- The compiler takes the expression as an argument. -/
def Compilable : Expression → Prop
  | integer _ | pointer _ | text _ => True
  | var which => which.Compilable
  | flagPointer kind id => kind.inRange id = true
  | operation operands operators =>
    operators ≠ [] ∧ operands.length = operators.length + 1
      ∧ (∀ name ∈ operators, isOperator name = true) ∧ CompilableOperands operands
  | call function arguments => function ≠ assignFunction ∧ CompilableList arguments
  | labelRef name => isLabelName name = true

/-- The compiler takes the expressions as arguments. -/
def CompilableList : List Expression → Prop
  | [] => True
  | x :: xs => Compilable x ∧ CompilableList xs

/-- The compiler takes the expressions as operands. -/
def CompilableOperands : List Expression → Prop
  | [] => True
  | x :: xs => (x.isLabelRef = false ∧ Compilable x) ∧ CompilableOperands xs

end

/-- The compiler takes the expression as an operand. -/
def CompilableOperand (e : Expression) : Prop := e.isLabelRef = false ∧ e.Compilable

end Expression

namespace Statement

/-- The code of a statement does not run into that of the next. -/
def Separate : Statement → Option Statement → Prop
  | call .., some (block _) => False
  | conditional _ _ none, some (label name) => name ≠ elseLabel
  | _, _ => True

mutual

/-- The compiler takes the statement. -/
def Compilable : Statement → Prop
  | block body => CompilableList body
  | assignment target value => target.Compilable ∧ value.CompilableOperand
  | call function arguments =>
    function ≠ assignFunction ∧ Expression.CompilableList arguments
  | bodyCall function arguments body =>
    function ≠ ifFunction ∧ function ≠ assignFunction ∧ Expression.CompilableList arguments
      ∧ CompilableList body
  | conditional condition body otherwise =>
    condition.CompilableOperand ∧ CompilableList body ∧ CompilableOption otherwise
  | label name => isLabelName name = true

/-- The compiler takes the statements. -/
def CompilableList : List Statement → Prop
  | [] => True
  | s :: rest => s.Separate rest.head? ∧ Compilable s ∧ CompilableList rest

/-- The compiler takes the alternative. -/
def CompilableOption : Option (List Statement) → Prop
  | none => True
  | some body => CompilableList body

end
end Statement

/-- A sign is a chain whose first operand is zero. -/
theorem Compile.sign?_eq_some {operands : List Expression} {operators : List String} {sign : String}
    (h : Compile.sign? operands operators = some sign) :
    ∃ x, operands = [.integer 0, x] ∧ operators = [sign] ∧ x.isLabelRef = false := by
  unfold Compile.sign? at h
  split at h
  · rename_i zero x operator
    split at h
    · rename_i hc
      obtain ⟨rfl, hx⟩ := hc
      obtain rfl := Option.some.inj h
      exact ⟨x, rfl, rfl, by simpa using hx⟩
    · simp at h
  · simp at h

/-! ## Symbolic code -/

/-- Code with the faces that its value is read from, and the registers taken afterwards. -/
structure Piece where
  code : SymbolicCode
  faces : List Element
  pool : LocalPool

namespace Piece

/-- The registers once the value has been read. -/
def released (piece : Piece) : LocalPool := piece.pool.freeAll (registers piece.faces)

/-- The register that receives what comes of a value. -/
def destination (piece : Piece) : Element := .localVar piece.released.alloc.1

/-- One piece behind another. -/
def append (first second : Piece) : Piece :=
  ⟨first.code ++ second.code, first.faces ++ second.faces, second.pool⟩

/-- A chain stored in a register. -/
def stored (chain : Piece) : Piece where
  code := chain.code ++ [.target chain.destination, .call (functionFace assignFunction) chain.faces]
  faces := [chain.destination]
  pool := chain.released.alloc.2

/-- The answer of a call stored in a register. -/
def captured (function : String) (arguments : Piece) : Piece where
  code := arguments.code ++ [.target arguments.destination, .call (functionFace assignFunction) [],
    .call (functionFace function) arguments.faces]
  faces := [arguments.destination]
  pool := arguments.released.alloc.2

end Piece

namespace Symbolic

/-- The face of a variable, or of the flag whose number is in it. -/
def variableFace (pointer : Bool) : Variable → Element
  | .special name => .special name
  | .flag kind id =>
    if kind.isInt then .intFlag kind.name ⟨id, pointer⟩ else .textFlag kind.name ⟨id, pointer⟩

/-- The face of an expression that needs no code. -/
def simpleFace (strings : StringTable) : Expression → Element
  | .integer value => .integer ⟨value, false⟩
  | .pointer value => .integer ⟨value, true⟩
  | .text literal => .text (literal.said strings)
  | .var which => variableFace false which
  | .flagPointer kind id => variableFace true (.flag kind id)
  | .labelRef name => markerFace name
  | .operation .. | .call .. => .text ""

/-- The face of an assignment target. -/
def targetFace : Target → Element
  | .var which => variableFace false which
  | .flagPointer kind id => variableFace true (.flag kind id)
  | .pointer value => .integer ⟨value, true⟩

mutual

/-- An argument of a call. -/
def argument (strings : StringTable) (pool : LocalPool) : Expression → Piece
  | .operation operands operators => (operandsOf strings pool operands operators).stored
  | .call function arguments => (argumentsOf strings pool arguments).captured function
  | e => ⟨[], [simpleFace strings e], pool⟩

/-- The arguments of a call. -/
def argumentsOf (strings : StringTable) (pool : LocalPool) : List Expression → Piece
  | [] => ⟨[], [], pool⟩
  | x :: rest =>
    let first := argument strings pool x
    first.append (argumentsOf strings first.pool rest)

/-- An operand of a chain. -/
def operand (strings : StringTable) (pool : LocalPool) : Expression → Piece
  | .operation operands operators =>
    match Compile.sign? operands operators with
    | some sign =>
      let value := secondOf strings pool operands
      ⟨value.code, markerFace sign :: value.faces, value.pool⟩
    | none => (operandsOf strings pool operands operators).stored
  | .call function arguments => (argumentsOf strings pool arguments).captured function
  | e => ⟨[], [simpleFace strings e], pool⟩

/-- The operand behind a sign. -/
def secondOf (strings : StringTable) (pool : LocalPool) : List Expression → Piece
  | _ :: x :: _ => argument strings pool x
  | _ => ⟨[], [], pool⟩

/-- The operands of a chain from the first on. -/
def operandsOf (strings : StringTable) (pool : LocalPool) :
    List Expression → List String → Piece
  | [], _ => ⟨[], [], pool⟩
  | x :: rest, operators =>
    let first := operand strings pool x
    first.append (laterOperandsOf strings first.pool rest operators)

/-- The operands of a chain from the second on, each behind its operator. -/
def laterOperandsOf (strings : StringTable) (pool : LocalPool) :
    List Expression → List String → Piece
  | x :: rest, operator :: operators =>
    let first := operand strings pool x
    let piece := first.append (laterOperandsOf strings first.pool rest operators)
    { piece with faces := markerFace operator :: piece.faces }
  | _, _ => ⟨[], [], pool⟩

end

/-- A chain as the arguments of an assignment or condition. -/
def chain (strings : StringTable) (pool : LocalPool) : Expression → Piece
  | .operation operands operators => operandsOf strings pool operands operators
  | e => operand strings pool e

/-- An assignment. -/
def assignment (strings : StringTable) (pool : LocalPool) (target : Target) :
    Expression → SymbolicCode × LocalPool
  | .call function arguments =>
    let piece := argumentsOf strings pool arguments
    (piece.code ++ [.target (targetFace target), .call (functionFace assignFunction) [],
      .call (functionFace function) piece.faces], piece.released)
  | value =>
    let piece := chain strings pool value
    (piece.code ++ [.target (targetFace target), .call (functionFace assignFunction) piece.faces],
      piece.released)

/-- Code between braces. -/
def braced (body : SymbolicCode × LocalPool) : SymbolicCode × LocalPool :=
  (.label (markerFace blockOpen) :: body.1 ++ [.label (markerFace blockClose)], body.2)

mutual

/-- A statement. -/
def statement (strings : StringTable) (pool : LocalPool) :
    Statement → SymbolicCode × LocalPool
  | .block body => braced (statements strings pool body)
  | .assignment target value => assignment strings pool target value
  | .call function arguments =>
    let piece := argumentsOf strings pool arguments
    (piece.code ++ [.call (functionFace function) piece.faces], piece.released)
  | .bodyCall function arguments body =>
    let piece := argumentsOf strings pool arguments
    let block := braced (statements strings piece.released body)
    (piece.code ++ .call (functionFace function) piece.faces :: block.1, block.2)
  | .conditional condition body otherwise =>
    let piece := chain strings pool condition
    let block := braced (statements strings piece.released body)
    let other := alternative strings block.2 otherwise
    (piece.code ++ .call (functionFace ifFunction) piece.faces :: block.1 ++ other.1, other.2)
  | .label name => ([.label (markerFace name)], pool)

/-- The second body of a conditional. -/
def alternative (strings : StringTable) (pool : LocalPool) :
    Option (List Statement) → SymbolicCode × LocalPool
  | none => ([], pool)
  | some body =>
    let block := braced (statements strings pool body)
    (.label (markerFace elseLabel) :: block.1, block.2)

/-- Statements one after the other. -/
def statements (strings : StringTable) (pool : LocalPool) :
    List Statement → SymbolicCode × LocalPool
  | [] => ([], pool)
  | s :: rest =>
    let first := statement strings pool s
    let others := statements strings first.2 rest
    (first.1 ++ others.1, others.2)

end
end Symbolic
end NovelScript
