import NovelScript.Bytecode.Program
import NovelScript.Script.Externalization
import NovelScript.Script.StringTable
import NovelScript.Script.Tree

/-!
# From a program to a statement tree

Instructions are read in order.  A value stored in a local is held until it is read, once, and takes
the place of the local there.  Braces open and close blocks; the blocks open at a point are a stack
of `Frame`s, each with the statement it will become and the statements in front of it.

## Shape of the walk

`Decompile.walk` is one recursion over the instructions, so what it does with the code of a
statement is one step on the stack.  What happened before a failure stays in the state, in
particular the warnings.
-/

namespace NovelScript

/-- An oddity that the decompiler puts up with. -/
inductive DecompileWarning where
  | elseWithoutBody (at_ : Nat)
  | localOverwritten (id at_ : Nat)
  | localsUnused (count : Nat)
deriving DecidableEq

/-- The wording of a warning. -/
def DecompileWarning.message : DecompileWarning → String
  | elseWithoutBody at_ =>
    s!"`else` without a body at instruction {at_}, using an empty block"
  | localOverwritten id at_ => s!"local {id} overwritten before use at instruction {at_}"
  | localsUnused count => s!"{count} locals were assigned but never used"

/-! ## Locals -/

/-- What is known of locals: the value that one holds, or that its value has been read. -/
structure HeldLocals where
  entries : List (Nat × Option Expression) := []

namespace HeldLocals

/-- What is known of a local; nothing if it was never assigned. -/
def get? (held : HeldLocals) (id : Nat) : Option (Option Expression) := held.entries.lookup id

/-- Changes the entry of a local, or adds one. -/
def put (id : Nat) (state : Option Expression) :
    List (Nat × Option Expression) → List (Nat × Option Expression)
  | [] => [(id, state)]
  | entry :: rest => if entry.1 = id then (id, state) :: rest else entry :: put id state rest

/-- Records what a local holds. -/
def set (held : HeldLocals) (id : Nat) (state : Option Expression) : HeldLocals :=
  ⟨put id state held.entries⟩

/-- How many locals hold a value that was never read. -/
def unused (held : HeldLocals) : Nat := held.entries.countP (·.2.isSome)

end HeldLocals

/-! ## The state of the walk -/

/-- What changes while instructions are read. -/
structure DecompileState where
  locals : HeldLocals := {}
  strings : Option StringTable
  warnings : List DecompileWarning := []

/-- A step of the decompiler. -/
abbrev Decompile := ExceptT ScriptError (StateM DecompileState)

/-- What a block becomes when it closes. -/
inductive Opener where
  | block
  | call (function : String) (arguments : List Expression)
  | condition (condition : Expression)
  | otherwise (condition : Expression) (body : List Statement)

/-- An open block: what it becomes, and the statements in front of it. -/
structure Frame where
  opener : Opener
  before : List Statement

/-- How deep blocks may be nested. -/
def maxBlockDepth : Nat := 64

namespace Decompile

/-- Fails on code that no tree compiles to. -/
def corrupt {α : Type} (fault : Corruption) : Decompile α := throw (.corrupt fault)

/-- Records a warning. -/
def warn (warning : DecompileWarning) : Decompile Unit :=
  modify fun state => { state with warnings := state.warnings ++ [warning] }

/-- The element at a position. -/
def expect (program : Program) (id : ElementId) : Decompile Element :=
  ExceptT.mk (pure (program.expect id))

/-! ## Values -/

/-- The target that an element in front of an assignment names. -/
def target : Element → Except Corruption Target
  | .special name => .ok (.var (.special name))
  | element@(.intFlag kind id) => flagTarget element kind id true
  | element@(.textFlag kind id) => flagTarget element kind id false
  | element@(.integer n) =>
    if n.pointer then .ok (.pointer n.value) else .error (.notAssignable element)
  | element => .error (.notAssignable element)
where
  /-- A flag must be of a known kind, stored as what its kind holds, and in range. -/
  flagTarget (element : Element) (kindName : String) (id : ScriptInt) (isInt : Bool) :
      Except Corruption Target :=
    match FlagKind.ofName? kindName with
    | none => .error (.unknownFlagKind kindName)
    | some kind =>
      if kind.isInt ≠ isInt then .error (.wrongElementType element)
      else if !kind.inRange id.value then .error (.flagOutOfRange kind id.value)
      else if id.pointer then .ok (.flagPointer kind id.value)
      else .ok (.var (.flag kind id.value))

/-- The value of a target where it is read. -/
def ofTarget : Target → Expression
  | .var which => .var which
  | .flagPointer kind id => .flagPointer kind id
  | .pointer value => .pointer value

/-- Reads a local, which must hold a value. -/
def takeLocal (id : Nat) : Decompile Expression := do
  let state ← get
  match state.locals.get? id with
  | some (some value) =>
    set { state with locals := state.locals.set id none }
    return value
  | some none => corrupt (.localUsedTwice id)
  | none => corrupt (.localUnassigned id)

/-- The value of an element. -/
def value (element : Element) : Decompile Expression :=
  match element with
  | .integer n => return if n.pointer then .pointer n.value else .integer n.value
  | .text text => return .text (.plain text)
  | .special name => return .var (.special name)
  | .intFlag .. | .textFlag .. =>
    match target element with
    | .ok target => return ofTarget target
    | .error fault => corrupt fault
  | .localVar id => takeLocal id
  | .function _ | .marker _ => corrupt (.notAValue element)

/-- A text among the arguments of a function, moved out if the rules say so. -/
def textArgument (rules : Option ExternalizeRules) (function text : String) :
    Decompile Expression := do
  let state ← get
  match rules, state.strings with
  | some rules, some strings =>
    if rules.wants function text then
      let (key, strings) := strings.insert rules.keyHead text
      set { state with strings := some strings }
      return .text (.external key)
    else return .text (.plain text)
  | _, _ => return .text (.plain text)

/-- An argument of a call. -/
def argument (rules : Option ExternalizeRules) (program : Program) (function : String)
    (id : ElementId) : Decompile Expression := do
  match ← expect program id with
  | .marker m =>
    if isOperator m.name then corrupt (.operatorArgument m.name function)
    else return .labelRef m.name
  | .text text => textArgument rules function text
  | element => value element

/-- The arguments of a call. -/
def arguments (rules : Option ExternalizeRules) (program : Program) (function : String) :
    List ElementId → Decompile (List Expression)
  | [] => return []
  | id :: rest => do
    let x ← argument rules program function id
    return x :: (← arguments rules program function rest)

/-- An operand of a chain. -/
def operand (program : Program) (id : ElementId) : Decompile Expression := do
  match ← expect program id with
  | .marker m => corrupt (.markerAsOperand m.name)
  | element => value element

/-- The operator that an element names. -/
def operator? : Element → Option String
  | .marker m => if isOperator m.name then some m.name else none
  | _ => none

mutual

/-- Reads a chain from an operand on; an operator in the place of an operand is a sign. -/
def chainFrom (program : Program) : List ElementId → Decompile (List Expression × List String)
  | [] => corrupt .missingOperand
  | [id] => do
    match operator? (← expect program id) with
    | some sign => corrupt (.signWithoutOperand sign)
    | none => do
      let x ← operand program id
      chainBehind program x []
  | id :: next :: rest => do
    match operator? (← expect program id) with
    | some sign => do
      let x ← operand program next
      chainBehind program (.binary (.integer 0) sign x) rest
    | none => do
      let x ← operand program id
      chainBehind program x (next :: rest)

/-- Reads what follows an operand of a chain. -/
def chainBehind (program : Program) (x : Expression) :
    List ElementId → Decompile (List Expression × List String)
  | [] => return ([x], [])
  | id :: rest => do
    let element ← expect program id
    match operator? element with
    | some name =>
      let (operands, operators) ← chainFrom program rest
      return (x :: operands, name :: operators)
    | none => corrupt (.expectedOperator element)

end

/-- The expression of a chain; a single operand stands for itself. -/
def chain (program : Program) (ids : List ElementId) : Decompile Expression := do
  match ← chainFrom program ids with
  | ([x], []) => return x
  | (operands, operators) => return .operation operands operators

/-! ## Statements -/

/-- The name of the marker that an instruction places. -/
def labelName? (program : Program) : Option Instruction → Option String
  | some (.label id) => (program.marker? id).map (·.name)
  | _ => none

/-- The function that a call goes through. -/
def functionName (program : Program) (id : ElementId) : Decompile String := do
  match ← expect program id with
  | .function name => return name
  | _ => corrupt (.callThrough id)

/-- Whether an element is the assignment function. -/
def isAssign (program : Program) (id : ElementId) : Bool :=
  program.elements[id]? == some (.function assignFunction)

/-- Opens a block at an instruction, unless too many are open. -/
def push (at_ : Nat) (opener : Opener) (before : List Statement) (frames : List Frame) :
    Decompile (List Frame) :=
  if maxBlockDepth ≤ frames.length then corrupt (.nestedTooDeep maxBlockDepth at_)
  else return ⟨opener, before⟩ :: frames

/-- Stores a value: a local holds it from now on, and any other target makes a statement. -/
def store (program : Program) (at_ : Nat) (element : Element) (x : Expression) :
    Decompile (List Statement) := do
  match element with
  | .localVar id =>
    if program.maxLocals ≤ id then corrupt (.localTooHigh id program.maxLocals)
    let state ← get
    if (state.locals.get? id).any (·.isSome) then warn (.localOverwritten id at_)
    modify fun state => { state with locals := state.locals.set id (some x) }
    return []
  | element =>
    match target element with
    | .ok target => return [.assignment target x]
    | .error fault => corrupt fault

/-- Reads instructions from position `at_` on, inside the blocks of `frames` and behind the
statements `current` of the innermost one. -/
def walk (rules : Option ExternalizeRules) (program : Program) (at_ : Nat) (frames : List Frame)
    (current : List Statement) : List Instruction → Decompile (List Statement)
  | [] => if frames.isEmpty then return current else corrupt .unterminatedBlock
  | .label id :: rest => do
    let some marker := program.marker? id | corrupt (.labelWithoutMarker id)
    if marker.name = blockClose then
      match frames with
      | [] => corrupt (.unbalancedClose at_)
      | frame :: frames =>
        match frame.opener with
        | .block =>
          walk rules program (at_ + 1) frames (frame.before ++ [.block current]) rest
        | .call function arguments =>
          walk rules program (at_ + 1) frames
            (frame.before ++ [.bodyCall function arguments current]) rest
        | .otherwise condition body =>
          walk rules program (at_ + 1) frames
            (frame.before ++ [.conditional condition body (some current)]) rest
        | .condition condition =>
          match rest with
          | [] =>
            walk rules program (at_ + 1) frames
              (frame.before ++ [.conditional condition current none]) []
          | next :: others =>
            if labelName? program (some next) = some elseLabel then
              match others with
              | [] => do
                warn (.elseWithoutBody (at_ + 1))
                walk rules program (at_ + 2) frames
                  (frame.before ++ [.conditional condition current (some [])]) []
              | brace :: inside =>
                if labelName? program (some brace) = some blockOpen then do
                  let frames ← push (at_ + 2) (.otherwise condition current) frame.before frames
                  walk rules program (at_ + 3) frames [] inside
                else do
                  warn (.elseWithoutBody (at_ + 1))
                  walk rules program (at_ + 2) frames
                    (frame.before ++ [.conditional condition current (some [])]) (brace :: inside)
            else
              walk rules program (at_ + 1) frames
                (frame.before ++ [.conditional condition current none]) (next :: others)
    else if marker.name = blockOpen then do
      let frames ← push at_ .block current frames
      walk rules program (at_ + 1) frames [] rest
    else walk rules program (at_ + 1) frames (current ++ [.label marker.name]) rest
  | .target id :: rest => do
    let element ← expect program id
    match rest with
    | .call assign ids :: rest =>
      if !isAssign program assign then corrupt (.targetWithoutAssign at_)
      else if ids.isEmpty then
        match rest with
        | .call function ids :: rest => do
          let name ← functionName program function
          let xs ← arguments rules program name ids
          let made ← store program at_ element (.call name xs)
          walk rules program (at_ + 3) frames (current ++ made) rest
        | _ => corrupt (.assignWithoutCall (at_ + 1))
      else do
        let x ← chain program ids
        let made ← store program at_ element x
        walk rules program (at_ + 2) frames (current ++ made) rest
    | _ => corrupt (.targetWithoutAssign at_)
  | .call function ids :: rest => do
    let name ← functionName program function
    if name = assignFunction then corrupt (.assignWithoutTarget at_)
    match rest with
    | [] =>
      let xs ← arguments rules program name ids
      walk rules program (at_ + 1) frames (current ++ [.call name xs]) []
    | brace :: inside =>
      if labelName? program (some brace) ≠ some blockOpen then
        let xs ← arguments rules program name ids
        walk rules program (at_ + 1) frames (current ++ [.call name xs]) (brace :: inside)
      else if name = ifFunction then
        if ids.isEmpty then corrupt .ifWithoutCondition
        let condition ← chain program ids
        let frames ← push (at_ + 1) (.condition condition) current frames
        walk rules program (at_ + 2) frames [] inside
      else
        let xs ← arguments rules program name ids
        let frames ← push (at_ + 1) (.call name xs) current frames
        walk rules program (at_ + 2) frames [] inside

/-- The statements of a program; locals left over at the end are worth a warning. -/
def statements (rules : Option ExternalizeRules) (program : Program) :
    Decompile (List Statement) := do
  if rules.isSome ∧ (← get).strings.isNone then throw (.unsupported .rulesWithoutTable)
  let tree ← walk rules program 0 [] [] program.instructions
  let unused := (← get).locals.unused
  if 0 < unused then warn (.localsUnused unused)
  return tree

end Decompile

/-- What decompiling a program gives: a tree or the reason why there is none, the string table
afterwards, and the warnings on the way. -/
structure Decompilation where
  result : Except ScriptError (List Statement)
  strings : Option StringTable
  warnings : List DecompileWarning

/-- Decompiles a program.  Texts that the rules ask for are added to `strings`, which the rules
need. -/
def decompile (rules : Option ExternalizeRules) (strings : Option StringTable)
    (program : Program) : Decompilation :=
  let (result, state) := (Decompile.statements rules program).run.run { strings }
  ⟨result, state.strings, state.warnings⟩

end NovelScript
