import NovelScript.Bytecode.Program
import NovelScript.Script.StringTable
import NovelScript.Script.Tree

/-!
# From a statement tree to a program

Statements become instructions in evaluation order.  An operation or call inside another expression
is first stored in a *local*, a register that is free again once its value has been read; the
lowest free register is taken.  Elements of equal value are made once, operators once per name and
labels once per name.

## Shape of the compiler

A step works on a `Draft`, the elements and registers so far, and answers the code it emits, so the
code of a tree is the code of its parts put together.  What a step did to the draft before it failed
stays, in particular its warnings.
-/

namespace NovelScript

/-- A text that the compiler could not find; its key stands in for it. -/
structure MissingText where
  key : String
deriving DecidableEq

/-- The wording of the warning. -/
def MissingText.message (warning : MissingText) : String :=
  s!"missing string table entry @{warning.key}, keeping the key"

/-! ## Registers -/

/-- Which registers hold a value that is still to be read. -/
structure LocalPool where
  inUse : List Bool := []
deriving DecidableEq

namespace LocalPool

/-- Marks the lowest free register in a list as taken and answers its number. -/
def takeFrom : List Bool → Nat × List Bool
  | [] => (0, [true])
  | false :: rest => (0, true :: rest)
  | true :: rest => ((takeFrom rest).1 + 1, true :: (takeFrom rest).2)

/-- Takes the lowest free register. -/
def alloc (pool : LocalPool) : Nat × LocalPool :=
  ((takeFrom pool.inUse).1, ⟨(takeFrom pool.inUse).2⟩)

/-- Gives a register back. -/
def free (pool : LocalPool) (id : Nat) : LocalPool := ⟨pool.inUse.set id false⟩

/-- How many registers are taken. -/
def liveCount (pool : LocalPool) : Nat := pool.inUse.count true

/-- How many registers have been taken at once. -/
def highWater (pool : LocalPool) : Nat := pool.inUse.length

end LocalPool

/-! ## Drafts -/

/-- A program under construction, its instructions apart. -/
structure Draft where
  elements : Array Element := #[]
  operators : List (String × ElementId) := []
  labels : List (String × ElementId) := []
  markerCount : Nat := 0
  locals : LocalPool := {}
  warnings : List MissingText := []

/-- A step of the compiler. -/
abbrev Compile := ExceptT ScriptError (StateM Draft)

/-- Instructions in the order in which they are emitted. -/
abbrev Code := List Instruction

namespace Compile

/-- Fails on input that has no compiled form. -/
def refuse {α : Type} (fault : Misuse) : Compile α := throw (.invalid fault)

/-- The element of this value, made if it is new. -/
def intern (element : Element) : Compile ElementId := do
  let draft ← get
  match draft.elements.idxOf? element with
  | some id => return id
  | none =>
    set { draft with elements := draft.elements.push element }
    return draft.elements.size

/-- The function of this name. -/
def function (name : String) : Compile ElementId := intern (.function name)

/-- A new marker. -/
def newMarker (name : String) : Compile ElementId := do
  let draft ← get
  set { draft with
    elements := draft.elements.push (.marker ⟨name, none, draft.markerCount, 0⟩)
    markerCount := draft.markerCount + 1 }
  return draft.elements.size

/-- The marker of an operator. -/
def operatorMarker (name : String) : Compile ElementId := do
  unless isOperator name do refuse (.unknownOperator name)
  match (← get).operators.lookup name with
  | some id => return id
  | none =>
    let id ← newMarker name
    modify fun draft => { draft with operators := draft.operators ++ [(name, id)] }
    return id

/-- The marker of a label, whether it is placed or only referred to. -/
def labelMarker (name : String) : Compile ElementId := do
  if name = blockOpen ∨ name = blockClose ∨ isOperator name then refuse (.notALabelName name)
  match (← get).labels.lookup name with
  | some id => return id
  | none =>
    let id ← newMarker name
    modify fun draft => { draft with labels := draft.labels ++ [(name, id)] }
    return id

/-- An element with its link set. -/
def linkTo (link : ElementId) : Element → Element
  | .marker m => .marker { m with link := some link }
  | other => other

/-- Links two markers to each other. -/
def linkPair (a b : ElementId) : Compile Unit :=
  modify fun draft =>
    { draft with elements := (draft.elements.modify a (linkTo b)).modify b (linkTo a) }

/-- Takes a register. -/
def allocLocal : Compile ElementId := do
  let (id, pool) := (← get).locals.alloc
  modify fun draft => { draft with locals := pool }
  intern (.localVar id)

/-- The pool with the register of an element given back. -/
def releaseOne (elements : Array Element) (pool : LocalPool) (id : ElementId) : LocalPool :=
  match elements[id]? with
  | some (.localVar register) => pool.free register
  | _ => pool

/-- Gives back the registers among elements that have been read. -/
def release (ids : List ElementId) : Compile Unit :=
  modify fun draft =>
    { draft with locals := ids.foldl (releaseOne draft.elements) draft.locals }

/-! ## Simple values -/

/-- The element of a variable, or of the flag whose number is in it. -/
def variableElement (pointer : Bool) : Variable → Except Misuse Element
  | .special name => .ok (.special name)
  | .flag kind id =>
    if kind.inRange id then
      if kind.isInt then .ok (.intFlag kind.name ⟨id, pointer⟩)
      else .ok (.textFlag kind.name ⟨id, pointer⟩)
    else .error (.flagOutOfRange kind id)

/-- The element of a variable, made if it is new. -/
def internVariable (pointer : Bool) (which : Variable) : Compile ElementId := do
  match variableElement pointer which with
  | .ok element => intern element
  | .error fault => refuse fault

/-- The text of a literal. -/
def literalText (strings : Option StringTable) : TextLiteral → Compile String
  | .plain text => return text
  | .external key => do
    let some table := strings | throw (.unsupported (.externalTextWithoutTable key))
    match table.get? key with
    | some text => return text
    | none =>
      modify fun draft => { draft with warnings := draft.warnings ++ [⟨key⟩] }
      return key

/-- The element of an expression that needs no code. -/
def simple (strings : Option StringTable) : Expression → Compile ElementId
  | .integer value => intern (.integer ⟨value, false⟩)
  | .pointer value => intern (.integer ⟨value, true⟩)
  | .text literal => do intern (.text (← literalText strings literal))
  | .var which => internVariable false which
  | .flagPointer kind id => internVariable true (.flag kind id)
  | .operation .. | .call .. | .labelRef _ => throw (.internal .notSimple)

/-- The element of an assignment target. -/
def targetElement : Target → Compile ElementId
  | .var which => internVariable false which
  | .flagPointer kind id => internVariable true (.flag kind id)
  | .pointer value => intern (.integer ⟨value, true⟩)

/-! ## Expressions -/

/-- Stores in a register what `value` computes as the arguments of an assignment. -/
def intoLocal (value : Compile (Code × List ElementId)) : Compile (Code × ElementId) := do
  let assign ← function assignFunction
  let (code, ids) ← value
  release ids
  let register ← allocLocal
  return (code ++ [.target register, .call assign ids], register)

/-- Stores in a register what a call answers. -/
def callIntoLocal (call : Compile (Code × Instruction)) : Compile (Code × ElementId) := do
  let assign ← function assignFunction
  let (code, instruction) ← call
  let register ← allocLocal
  return (code ++ [.target register, .call assign [], instruction], register)

/-- The call of a function; the instruction itself comes after the code of its arguments. -/
def callWith (name : String) (arguments : Compile (Code × List ElementId)) :
    Compile (Code × Instruction) := do
  if name = assignFunction then refuse .assignCalled
  let (code, ids) ← arguments
  release ids
  return (code, .call (← function name) ids)

/-- A chain has an operator between each two operands, and one at least. -/
def checkChain (operands operators : Nat) : Compile Unit := do
  if operators = 0 then refuse .noOperator
  if operands ≠ operators + 1 then refuse (.operandCount operands operators)

/-- The operator of a chain `0 operator x` that is stored as a sign in front of `x`. -/
def sign? : List Expression → List String → Option String
  | [.integer zero, x], [operator] => if zero = 0 ∧ ¬ x.isLabelRef then some operator else none
  | _, _ => none

mutual

/-- An argument of a call: a single element, behind the code that computes it. -/
def argument (strings : Option StringTable) : Expression → Compile (Code × ElementId)
  | .labelRef name => do return ([], ← labelMarker name)
  | .operation operands operators =>
    intoLocal do
      checkChain operands.length operators.length
      operandsOf strings operands operators
  | .call name arguments => callIntoLocal (callWith name (argumentsOf strings arguments))
  | e => do return ([], ← simple strings e)

/-- The arguments of a call. -/
def argumentsOf (strings : Option StringTable) :
    List Expression → Compile (Code × List ElementId)
  | [] => return ([], [])
  | x :: rest => do
    let (code, id) ← argument strings x
    let (others, ids) ← argumentsOf strings rest
    return (code ++ others, id :: ids)

/-- An operand of a chain: a single element, or a sign in front of one. -/
def operand (strings : Option StringTable) : Expression → Compile (Code × List ElementId)
  | .labelRef name => refuse (.labelAsOperand name)
  | .operation operands operators =>
    match sign? operands operators with
    | some sign => do
      let marker ← operatorMarker sign
      let (code, id) ← secondOf strings operands
      return (code, [marker, id])
    | none => do
      let (code, id) ← intoLocal do
        checkChain operands.length operators.length
        operandsOf strings operands operators
      return (code, [id])
  | .call name arguments => do
    let (code, id) ← callIntoLocal (callWith name (argumentsOf strings arguments))
    return (code, [id])
  | e => do return ([], [← simple strings e])

/-- The operand behind a sign. -/
def secondOf (strings : Option StringTable) : List Expression → Compile (Code × ElementId)
  | _ :: x :: _ => argument strings x
  | _ => throw (.internal .notSimple)

/-- The operands of a chain from the first on, with the operators between them. -/
def operandsOf (strings : Option StringTable) :
    List Expression → List String → Compile (Code × List ElementId)
  | [], _ => return ([], [])
  | x :: rest, operators => do
    let (code, ids) ← operand strings x
    let (others, more) ← laterOperandsOf strings rest operators
    return (code ++ others, ids ++ more)

/-- The operands of a chain from the second on, each behind its operator. -/
def laterOperandsOf (strings : Option StringTable) :
    List Expression → List String → Compile (Code × List ElementId)
  | x :: rest, operator :: operators => do
    let marker ← operatorMarker operator
    let (code, ids) ← operand strings x
    let (others, more) ← laterOperandsOf strings rest operators
    return (code ++ others, marker :: ids ++ more)
  | _, _ => return ([], [])

end

/-- A chain as the arguments of an assignment or condition; any other expression is a single
operand. -/
def chain (strings : Option StringTable) : Expression → Compile (Code × List ElementId)
  | .operation operands operators => do
    checkChain operands.length operators.length
    operandsOf strings operands operators
  | e => operand strings e

/-! ## Statements -/

/-- The code of an assignment.  A call is captured: it comes behind an assignment without
arguments. -/
def assignment (strings : Option StringTable) (target : Target) : Expression → Compile Code
  | .call name arguments => do
    let target ← targetElement target
    let assign ← function assignFunction
    let (code, instruction) ← callWith name (argumentsOf strings arguments)
    return code ++ [.target target, .call assign [], instruction]
  | value => do
    let target ← targetElement target
    let assign ← function assignFunction
    let (code, ids) ← chain strings value
    release ids
    return code ++ [.target target, .call assign ids]

/-- Two statements may follow each other if their code cannot be read as one statement. -/
def checkNeighbours : Statement → Option Statement → Compile Unit
  | .call name _, some (.block _) => refuse (.blockAfterCall name)
  | .conditional _ _ none, some (.label name) =>
    if name = elseLabel then refuse .elseLabelAfterIf else pure ()
  | _, _ => pure ()

/-- No register outlives the statement that took it. -/
def checkReleased : Compile Unit := do
  let live := (← get).locals.liveCount
  if live ≠ 0 then throw (.internal (.localsLive live))

/-- The code of a block around the code of its body. -/
def braced (body : Compile Code) : Compile Code := do
  let open_ ← newMarker blockOpen
  let close ← newMarker blockClose
  linkPair open_ close
  let code ← body
  return .label open_ :: code ++ [.label close]

mutual

/-- The code of a statement. -/
def statement (strings : Option StringTable) : Statement → Compile Code
  | .block body => braced (statements strings body)
  | .assignment target value => assignment strings target value
  | .call name arguments => do
    let (code, instruction) ← callWith name (argumentsOf strings arguments)
    return code ++ [instruction]
  | .bodyCall name arguments body => do
    if name = ifFunction then refuse .ifWithBody
    let (code, instruction) ← callWith name (argumentsOf strings arguments)
    let block ← braced (statements strings body)
    return code ++ instruction :: block
  | .conditional condition body otherwise => do
    let (code, ids) ← chain strings condition
    release ids
    let test ← function ifFunction
    let block ← braced (statements strings body)
    let alternative ← alternative strings otherwise
    return code ++ .call test ids :: block ++ alternative
  | .label name => do
    let marker ← labelMarker name
    linkPair marker marker
    return [.label marker]

/-- The code of the second body of a conditional. -/
def alternative (strings : Option StringTable) : Option (List Statement) → Compile Code
  | none => return []
  | some body => do
    let marker ← newMarker elseLabel
    let block ← braced (statements strings body)
    return .label marker :: block

/-- The code of statements one after the other. -/
def statements (strings : Option StringTable) : List Statement → Compile Code
  | [] => return []
  | s :: rest => do
    checkNeighbours s rest.head?
    let code ← statement strings s
    checkReleased
    let others ← statements strings rest
    return code ++ others

end
end Compile

/-- What compiling a tree gives: a program or the reason why there is none, and the warnings on the
way. -/
structure Compilation where
  result : Except ScriptError Program
  warnings : List MissingText

/-- Compiles a statement tree; keys of moved texts are looked up in `strings`. -/
def compile (strings : Option StringTable) (tree : List Statement) : Compilation :=
  let (result, draft) := (Compile.statements strings tree).run.run {}
  { result := result.map fun code => ⟨draft.elements, code, draft.locals.highWater⟩
    warnings := draft.warnings }

end NovelScript
