import NovelScript.Script.Tree

/-!
# The text of a statement tree

Statements are printed one per line, four spaces to a level of nesting.  A chain inside a chain
stands in parentheses, a moved text is its key behind an at sign, and texts are in double quotes.

`printStatements` has no text for a tree with an operand in front of which an operator is missing.
-/

namespace NovelScript

/-- A character of a printed text. -/
def printedChar (c : Char) : List Char :=
  if c = '\\' then ['\\', '\\']
  else if c = '"' then ['\\', '"']
  else if c = '\n' then ['\\', 'n']
  else if c = '\t' then ['\\', 't']
  else [c]

/-- A text between double quotes. -/
def printedText (text : String) : String :=
  .ofList ('"' :: text.toList.flatMap printedChar ++ ['"'])

namespace TextLiteral

/-- The text of a literal. -/
def render : TextLiteral → String
  | plain text => printedText text
  | external key => s!"@{key}"

end TextLiteral

namespace Variable

/-- The text of a variable. -/
def render : Variable → String
  | special name => s!"${name}"
  | flag kind id => s!"{kind.name}:{id}"

end Variable

/-- The text of an assignment target. -/
def Target.render : Target → String
  | .var which => which.render
  | .flagPointer kind id => s!"{kind.name}:&{id}"
  | .pointer value => s!"&{value}"

/-- The text of a call whose arguments are already printed. -/
def renderCall (function : String) (arguments : List String) : String :=
  function ++ "(" ++ ", ".intercalate arguments ++ ")"

namespace Expression

/-- Whether the expression is a chain. -/
def isOperation : Expression → Bool
  | operation .. => true
  | _ => false

/-- Printed operands with the operators between them. -/
def renderChain : List String → List String → String
  | [], _ => ""
  | x :: xs, operators =>
    x ++ String.join (List.zipWith (fun operator y => " " ++ operator ++ " " ++ y) operators xs)

mutual

/-- The text of an expression. -/
def render : Expression → String
  | integer value => toString value
  | pointer value => s!"&{value}"
  | text literal => literal.render
  | var which => which.render
  | flagPointer kind id => s!"{kind.name}:&{id}"
  | operation operands operators => renderChain (renderOperands operands) operators
  | call function arguments => renderCall function (renderAll arguments)
  | labelRef name => s!":{name}"

/-- The texts of operands: a chain among them is put into parentheses. -/
def renderOperands : List Expression → List String
  | [] => []
  | x :: rest =>
    (if x.isOperation then "(" ++ render x ++ ")" else render x) :: renderOperands rest

/-- The texts of expressions. -/
def renderAll : List Expression → List String
  | [] => []
  | x :: rest => render x :: renderAll rest

end
end Expression

namespace Statement

/-- A line at a level of nesting. -/
def line (depth : Nat) (text : String) : String :=
  String.join (List.replicate depth "    ") ++ text ++ "\n"

mutual

/-- The lines of a statement. -/
def render (depth : Nat) : Statement → String
  | block body => line depth "\x7b" ++ renderAll (depth + 1) body ++ line depth "\x7d"
  | assignment target value => line depth (target.render ++ " = " ++ value.render ++ ";")
  | call function arguments =>
    line depth (renderCall function (Expression.renderAll arguments) ++ ";")
  | bodyCall function arguments body =>
    line depth (renderCall function (Expression.renderAll arguments) ++ " \x7b")
      ++ renderAll (depth + 1) body ++ line depth "\x7d"
  | conditional condition body otherwise =>
    line depth ("if (" ++ condition.render ++ ") \x7b") ++ renderAll (depth + 1) body
      ++ renderOtherwise depth otherwise
  | label name => line depth (":" ++ name)

/-- The lines that end a conditional. -/
def renderOtherwise (depth : Nat) : Option (List Statement) → String
  | none => line depth "\x7d"
  | some body =>
    line depth "\x7d else \x7b" ++ renderAll (depth + 1) body ++ line depth "\x7d"

/-- The lines of statements one after the other. -/
def renderAll (depth : Nat) : List Statement → String
  | [] => ""
  | s :: rest => render depth s ++ renderAll depth rest

end
end Statement

/-- The text of a tree, if none of its chains lacks an operator. -/
def printStatements (tree : List Statement) : Option String :=
  if Statement.completeList tree then some (Statement.renderAll 0 tree) else none

end NovelScript
