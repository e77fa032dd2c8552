import NovelScript.Text.Quoted

/-!
# The elements that instructions refer to

A compiled script keeps one table of *elements*: functions, markers, constants and variables.  Its
instructions name elements by their positions in that table, so an `ElementId` is a position and may
lie outside the table.

A *marker* is a label, a brace, an operator or a sign.  Markers are told apart by position: two of
one name are two markers.  All other elements are told apart by value alone.
-/

namespace NovelScript

/-- A position in the element table. -/
abbrev ElementId := Nat

/-- An integer of the code: a value, or, as a pointer, the number of the flag that holds it. -/
structure ScriptInt where
  value : Int32
  pointer : Bool
deriving DecidableEq, Repr

/-- A label, brace, operator or sign. -/
structure Marker where
  name : String
  /-- The marker that this one belongs with: the other brace of a block, or itself for a label. -/
  link : Option ElementId
  /-- Tells markers of one name apart in a listing. -/
  number : Nat
  /-- The code word at which the marker was last placed as a label. -/
  labelOffset : UInt32
deriving DecidableEq, Repr

/-- What an instruction can refer to. -/
inductive Element where
  | function (name : String)
  | marker (marker : Marker)
  | integer (number : ScriptInt)
  | text (value : String)
  /-- A string slot that the engine reserves. -/
  | special (name : String)
  | intFlag (kind : String) (id : ScriptInt)
  | textFlag (kind : String) (id : ScriptInt)
  | localVar (id : Nat)
deriving DecidableEq, Repr

/-! ## Names with a meaning -/

/-- Opens a block. -/
def blockOpen : String := "\x7b"

/-- Closes a block. -/
def blockClose : String := "\x7d"

/-- Stands between the two bodies of a conditional. -/
def elseLabel : String := "else"

/-- The function that stores a value in the preceding target. -/
def assignFunction : String := "="

/-- The function that decides whether the following block runs. -/
def ifFunction : String := "if"

/-- The names of markers that join operands. -/
def operators : List String :=
  ["+", "-", "*", "/", "%", "==", "!=", "<", "<=", ">", ">=", "&&", "||", "&", "|", "^"]

/-- Whether a marker of this name joins operands. -/
def isOperator (name : String) : Bool := operators.contains name

/-! ## Kinds of flags -/

/-- The four stores of variables that scripts share. -/
inductive FlagKind where
  | globalFlag
  | flag
  | globalString
  | string
deriving DecidableEq, Repr

namespace FlagKind

/-- The name of a store in the code. -/
def name : FlagKind → String
  | globalFlag => "GlobalFlag"
  | flag => "Flag"
  | globalString => "GlobalString"
  | string => "String"

/-- Finds a store by name. -/
def ofName? (name : String) : Option FlagKind :=
  [globalFlag, flag, globalString, string].find? (·.name == name)

@[simp] theorem ofName?_name (kind : FlagKind) : ofName? kind.name = some kind := by
  cases kind <;> decide

/-- Whether the store holds integers. -/
def isInt : FlagKind → Bool
  | globalFlag | flag => true
  | globalString | string => false

/-- How many variables a store has. -/
def limit : FlagKind → Nat
  | globalFlag | globalString => 10000
  | flag | string => 65536

/-- Whether a store has a variable of this number. -/
def inRange (kind : FlagKind) (id : Int32) : Bool :=
  0 ≤ id.toInt && id.toInt < kind.limit

end FlagKind

/-! ## Text -/

/-- The text of an integer. -/
def ScriptInt.render (n : ScriptInt) : String :=
  if n.pointer then s!"&{n.value}" else toString n.value

namespace Element

/-- The name of a function element. -/
def functionName? : Element → Option String
  | function name => some name
  | _ => none

/-- The marker of a marker element. -/
def marker? : Element → Option Marker
  | marker m => some m
  | _ => none

/-- Whether an assignment can have the element as its target. -/
def isAssignable : Element → Bool
  | special _ | intFlag .. | textFlag .. | localVar _ | integer _ => true
  | function _ | marker _ | text _ => false

/-- How messages and listings show an element. -/
def render : Element → String
  | function name => s!"Func({name})"
  | marker m => s!"Ctrl({m.name})#{m.number}"
  | integer n => s!"CInt({n.render})"
  | text value => s!"CStr({Text.quote value})"
  | special name => s!"SStr({name})"
  | intFlag kind id => s!"VInt({kind}:{id.render})"
  | textFlag kind id => s!"VStr({kind}:{id.render})"
  | localVar id => s!"VLoc({id})"

end Element
end NovelScript
