import NovelScript.Proofs.Script.Trees
import NovelScript.Script.Externalization

/-!
# Moving the texts of a tree out of it

`Statement.moveOutList` moves the texts of a tree into a string table, as rules ask for it, in the
order in which the code of the tree names them: the texts of a call come behind those of the calls
in its arguments.  Only a text that is itself an argument of a call can move.
-/

namespace NovelScript

namespace Expression

/-- Whether the expression is a text. -/
def isText : Expression → Bool
  | text _ => true
  | _ => false

/-- An argument of a call; a text is moved out if the rules ask for it. -/
def moveArgument (rules : Option ExternalizeRules) (function : String) :
    Expression → Option StringTable → Expression × Option StringTable
  | text (.plain s), table =>
    match rules, table with
    | some rules, some strings =>
      if rules.wants function s then
        (text (.external (strings.insert rules.keyHead s).1),
          some (strings.insert rules.keyHead s).2)
      else (text (.plain s), table)
    | _, _ => (text (.plain s), table)
  | e, table => (e, table)

/-- The arguments of a call, with texts among them moved out. -/
def moveArguments (rules : Option ExternalizeRules) (function : String) :
    List Expression → Option StringTable → List Expression × Option StringTable
  | [], table => ([], table)
  | x :: xs, table =>
    let first := moveArgument rules function x table
    let others := moveArguments rules function xs first.2
    (first.1 :: others.1, others.2)

mutual

/-- The expression with its texts moved out. -/
def moveOut (rules : Option ExternalizeRules) :
    Expression → Option StringTable → Expression × Option StringTable
  | operation operands operators, table =>
    let inside := moveOutList rules operands table
    (operation inside.1 operators, inside.2)
  | call function arguments, table =>
    let inside := moveOutList rules arguments table
    let moved := moveArguments rules function inside.1 inside.2
    (call function moved.1, moved.2)
  | e, table => (e, table)

/-- The expressions with the texts inside them moved out. -/
def moveOutList (rules : Option ExternalizeRules) :
    List Expression → Option StringTable → List Expression × Option StringTable
  | [], table => ([], table)
  | x :: xs, table =>
    let first := moveOut rules x table
    let others := moveOutList rules xs first.2
    (first.1 :: others.1, others.2)

end

/-- The arguments of a call with all their texts moved out. -/
def moveAll (rules : Option ExternalizeRules) (function : String) (arguments : List Expression)
    (table : Option StringTable) : List Expression × Option StringTable :=
  let inside := moveOutList rules arguments table
  moveArguments rules function inside.1 inside.2

end Expression

namespace Statement

mutual

/-- The statement with its texts moved out. -/
def moveOut (rules : Option ExternalizeRules) :
    Statement → Option StringTable → Statement × Option StringTable
  | block body, table =>
    let inside := moveOutList rules body table
    (block inside.1, inside.2)
  | assignment target value, table =>
    let moved := value.moveOut rules table
    (assignment target moved.1, moved.2)
  | call function arguments, table =>
    let moved := Expression.moveAll rules function arguments table
    (call function moved.1, moved.2)
  | bodyCall function arguments body, table =>
    let moved := Expression.moveAll rules function arguments table
    let inside := moveOutList rules body moved.2
    (bodyCall function moved.1 inside.1, inside.2)
  | conditional condition body otherwise, table =>
    let moved := condition.moveOut rules table
    let inside := moveOutList rules body moved.2
    let other := moveOutOption rules otherwise inside.2
    (conditional moved.1 inside.1 other.1, other.2)
  | label name, table => (label name, table)

/-- The statements with their texts moved out, one after the other. -/
def moveOutList (rules : Option ExternalizeRules) :
    List Statement → Option StringTable → List Statement × Option StringTable
  | [], table => ([], table)
  | s :: rest, table =>
    let first := moveOut rules s table
    let others := moveOutList rules rest first.2
    (first.1 :: others.1, others.2)

/-- An alternative with its texts moved out. -/
def moveOutOption (rules : Option ExternalizeRules) :
    Option (List Statement) → Option StringTable → Option (List Statement) × Option StringTable
  | none, table => (none, table)
  | some body, table =>
    let inside := moveOutList rules body table
    (some inside.1, inside.2)

end

end Statement

/-! ## Without rules -/

namespace Expression

@[simp] theorem moveArgument_none (function : String) (e : Expression)
    (table : Option StringTable) : moveArgument none function e table = (e, table) := by
  unfold moveArgument
  split <;> rfl

@[simp] theorem moveArguments_none (function : String) (xs : List Expression)
    (table : Option StringTable) : moveArguments none function xs table = (xs, table) := by
  induction xs with
  | nil => rfl
  | cons x xs ih => simp [moveArguments, ih]

mutual

@[simp] theorem moveOut_none (e : Expression) (table : Option StringTable) :
    e.moveOut none table = (e, table) := by
  match e with
  | operation operands operators => rw [moveOut, moveOutList_none operands table]
  | call function arguments =>
    rw [moveOut, moveOutList_none arguments table, moveArguments_none]
  | integer _ | pointer _ | text _ | var _ | flagPointer .. | labelRef _ => rw [moveOut] <;> simp

@[simp] theorem moveOutList_none (xs : List Expression) (table : Option StringTable) :
    moveOutList none xs table = (xs, table) := by
  match xs with
  | [] => rfl
  | x :: xs => rw [moveOutList, moveOut_none x table, moveOutList_none xs table]

end

@[simp] theorem moveAll_none (function : String) (arguments : List Expression)
    (table : Option StringTable) :
    moveAll none function arguments table = (arguments, table) := by
  simp [moveAll]

end Expression

namespace Statement

mutual

@[simp] theorem moveOut_none (s : Statement) (table : Option StringTable) :
    s.moveOut none table = (s, table) := by
  match s with
  | block body => rw [moveOut, moveOutList_none body table]
  | assignment target value => rw [moveOut, Expression.moveOut_none]
  | call function arguments => rw [moveOut, Expression.moveAll_none]
  | bodyCall function arguments body =>
    rw [moveOut, Expression.moveAll_none, moveOutList_none body table]
  | conditional condition body otherwise =>
    rw [moveOut, Expression.moveOut_none, moveOutList_none body table,
      moveOutOption_none otherwise table]
  | label name => rfl

/-- Without rules nothing moves. -/
@[simp] theorem moveOutList_none (tree : List Statement) (table : Option StringTable) :
    moveOutList none tree table = (tree, table) := by
  match tree with
  | [] => rfl
  | s :: rest => rw [moveOutList, moveOut_none s table, moveOutList_none rest table]

@[simp] theorem moveOutOption_none (otherwise : Option (List Statement))
    (table : Option StringTable) : moveOutOption none otherwise table = (otherwise, table) := by
  match otherwise with
  | none => rfl
  | some body => rw [moveOutOption, moveOutList_none body table]

end

end Statement

/-! ## What moving keeps -/

namespace Expression

variable {rules : Option ExternalizeRules} {table : Option StringTable}

theorem moveArgument_of_not_text (function : String) {e : Expression} (h : e.isText = false) :
    moveArgument rules function e table = (e, table) := by
  cases e with
  | text literal => exact Bool.noConfusion h
  | _ => rfl

theorem isLabelRef_moveOut (e : Expression) :
    (e.moveOut rules table).1.isLabelRef = e.isLabelRef := by
  cases e <;> rw [moveOut] <;> first | rfl | simp

end Expression
end NovelScript
