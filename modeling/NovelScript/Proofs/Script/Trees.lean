import NovelScript.Script.StringTable
import NovelScript.Script.Tree

/-!
# What statement trees say

A tree says the same with its moved texts put back (`Statement.resolveList`).  Its blocks are nested
to some depth (`Statement.depthList`), and it has names and texts that a file must be able to store
(`Statement.textsList`).
-/

namespace NovelScript

namespace TextLiteral

/-- The text that a literal stands for; a key without a text stands for itself. -/
def said (strings : StringTable) : TextLiteral → String
  | plain text => text
  | external key => (strings.get? key).getD key

/-- The literal with its text put back. -/
def resolve (strings : StringTable) (literal : TextLiteral) : TextLiteral :=
  plain (literal.said strings)

/-- Whether the text has not been moved out. -/
def isPlain : TextLiteral → Bool
  | plain _ => true
  | external _ => false

theorem resolve_of_isPlain {strings : StringTable} {literal : TextLiteral}
    (h : literal.isPlain = true) : literal.resolve strings = literal := by
  cases literal with
  | plain text => rfl
  | external key => exact Bool.noConfusion h

end TextLiteral

/-- The names that a variable brings along; those of flags are fixed. -/
def Variable.texts : Variable → List String
  | special name => [name]
  | flag .. => []

/-- The names that a target brings along. -/
def Target.texts : Target → List String
  | var which => which.texts
  | flagPointer .. | pointer _ => []

namespace Expression

/-! ## Expressions -/

mutual

/-- The expression with its texts put back. -/
def resolve (strings : StringTable) : Expression → Expression
  | text literal => text (literal.resolve strings)
  | operation operands operators => operation (resolveList strings operands) operators
  | call function arguments => call function (resolveList strings arguments)
  | e => e

/-- The expressions with their texts put back. -/
def resolveList (strings : StringTable) : List Expression → List Expression
  | [] => []
  | x :: xs => resolve strings x :: resolveList strings xs

end

mutual

/-- Whether no text in the expression has been moved out. -/
def isPlain : Expression → Bool
  | text literal => literal.isPlain
  | operation operands _ => isPlainList operands
  | call _ arguments => isPlainList arguments
  | _ => true

/-- Whether no text in the expressions has been moved out. -/
def isPlainList : List Expression → Bool
  | [] => true
  | x :: xs => isPlain x && isPlainList xs

end

mutual

/-- The names and texts of an expression. -/
def texts (strings : StringTable) : Expression → List String
  | text literal => [literal.said strings]
  | var which => which.texts
  | operation operands _ => textsList strings operands
  | call function arguments => function :: textsList strings arguments
  | labelRef name => [name]
  | _ => []

/-- The names and texts of expressions. -/
def textsList (strings : StringTable) : List Expression → List String
  | [] => []
  | x :: xs => texts strings x ++ textsList strings xs

end

mutual

theorem resolve_of_isPlain {strings : StringTable} (e : Expression) (h : e.isPlain = true) :
    e.resolve strings = e := by
  match e with
  | integer _ | pointer _ | var _ | flagPointer .. | labelRef _ => rfl
  | text literal => rw [resolve, TextLiteral.resolve_of_isPlain h]
  | operation operands operators => rw [resolve, resolveList_of_isPlainList operands h]
  | call function arguments => rw [resolve, resolveList_of_isPlainList arguments h]

theorem resolveList_of_isPlainList {strings : StringTable} (xs : List Expression)
    (h : isPlainList xs = true) : resolveList strings xs = xs := by
  match xs with
  | [] => rfl
  | x :: xs =>
    rw [isPlainList, Bool.and_eq_true] at h
    rw [resolveList, resolve_of_isPlain x h.1, resolveList_of_isPlainList xs h.2]

end

mutual

theorem isPlain_resolve (strings : StringTable) (e : Expression) :
    (e.resolve strings).isPlain = true := by
  match e with
  | integer _ | pointer _ | var _ | flagPointer .. | labelRef _ | text _ => rfl
  | operation operands _ => rw [resolve, isPlain, isPlainList_resolveList strings operands]
  | call _ arguments => rw [resolve, isPlain, isPlainList_resolveList strings arguments]

theorem isPlainList_resolveList (strings : StringTable) (xs : List Expression) :
    isPlainList (resolveList strings xs) = true := by
  match xs with
  | [] => rfl
  | x :: xs =>
    rw [resolveList, isPlainList, isPlain_resolve strings x, isPlainList_resolveList strings xs,
      Bool.and_self]

end

mutual

theorem texts_resolve (strings table : StringTable) (e : Expression) :
    (e.resolve strings).texts table = e.texts strings := by
  match e with
  | integer _ | pointer _ | var _ | flagPointer .. | labelRef _ | text _ => rfl
  | operation operands _ => rw [resolve, texts, texts, textsList_resolveList strings table operands]
  | call _ arguments => rw [resolve, texts, texts, textsList_resolveList strings table arguments]

theorem textsList_resolveList (strings table : StringTable) (xs : List Expression) :
    textsList table (resolveList strings xs) = textsList strings xs := by
  match xs with
  | [] => rfl
  | x :: xs =>
    rw [resolveList, textsList, textsList, texts_resolve strings table x,
      textsList_resolveList strings table xs]

end

end Expression

namespace Statement

/-! ## Statements -/

mutual

/-- The statement with its texts put back. -/
def resolve (strings : StringTable) : Statement → Statement
  | block body => block (resolveList strings body)
  | assignment target value => assignment target (value.resolve strings)
  | call function arguments => call function (Expression.resolveList strings arguments)
  | bodyCall function arguments body =>
    bodyCall function (Expression.resolveList strings arguments) (resolveList strings body)
  | conditional condition body otherwise =>
    conditional (condition.resolve strings) (resolveList strings body)
      (resolveOption strings otherwise)
  | label name => label name

/-- The statements with their texts put back. -/
def resolveList (strings : StringTable) : List Statement → List Statement
  | [] => []
  | s :: rest => resolve strings s :: resolveList strings rest

/-- An alternative with its texts put back. -/
def resolveOption (strings : StringTable) : Option (List Statement) → Option (List Statement)
  | none => none
  | some body => some (resolveList strings body)

end

mutual

/-- Whether no text in the statement has been moved out. -/
def isPlain : Statement → Bool
  | block body => isPlainList body
  | assignment _ value => value.isPlain
  | call _ arguments => Expression.isPlainList arguments
  | bodyCall _ arguments body => Expression.isPlainList arguments && isPlainList body
  | conditional condition body otherwise =>
    condition.isPlain && isPlainList body && isPlainOption otherwise
  | label _ => true

/-- Whether no text in the statements has been moved out. -/
def isPlainList : List Statement → Bool
  | [] => true
  | s :: rest => isPlain s && isPlainList rest

/-- Whether no text in an alternative has been moved out. -/
def isPlainOption : Option (List Statement) → Bool
  | none => true
  | some body => isPlainList body

end

mutual

/-- How deep the blocks of a statement are nested. -/
def depth : Statement → Nat
  | block body => depthList body + 1
  | bodyCall _ _ body => depthList body + 1
  | conditional _ body otherwise => max (depthList body) (depthOption otherwise) + 1
  | assignment .. | call .. | label _ => 0

/-- How deep the blocks of statements are nested. -/
def depthList : List Statement → Nat
  | [] => 0
  | s :: rest => max (depth s) (depthList rest)

/-- How deep the blocks in an alternative are nested. -/
def depthOption : Option (List Statement) → Nat
  | none => 0
  | some body => depthList body

end

mutual

/-- The names and texts of a statement. -/
def texts (strings : StringTable) : Statement → List String
  | block body => textsList strings body
  | assignment target value => target.texts ++ value.texts strings
  | call function arguments => function :: Expression.textsList strings arguments
  | bodyCall function arguments body =>
    function :: Expression.textsList strings arguments ++ textsList strings body
  | conditional condition body otherwise =>
    condition.texts strings ++ textsList strings body ++ textsOption strings otherwise
  | label name => [name]

/-- The names and texts of statements. -/
def textsList (strings : StringTable) : List Statement → List String
  | [] => []
  | s :: rest => texts strings s ++ textsList strings rest

/-- The names and texts of an alternative. -/
def textsOption (strings : StringTable) : Option (List Statement) → List String
  | none => []
  | some body => textsList strings body

end

mutual

theorem resolve_of_isPlain {strings : StringTable} (s : Statement) (h : s.isPlain = true) :
    s.resolve strings = s := by
  match s with
  | label _ => rfl
  | block body => rw [resolve, resolveList_of_isPlainList body h]
  | assignment target value => rw [resolve, Expression.resolve_of_isPlain value h]
  | call function arguments => rw [resolve, Expression.resolveList_of_isPlainList arguments h]
  | bodyCall function arguments body =>
    rw [isPlain, Bool.and_eq_true] at h
    rw [resolve, Expression.resolveList_of_isPlainList arguments h.1,
      resolveList_of_isPlainList body h.2]
  | conditional condition body otherwise =>
    rw [isPlain, Bool.and_eq_true, Bool.and_eq_true] at h
    rw [resolve, Expression.resolve_of_isPlain condition h.1.1,
      resolveList_of_isPlainList body h.1.2, resolveOption_of_isPlainOption otherwise h.2]

/-- Nothing has to be put back where nothing has been moved out. -/
theorem resolveList_of_isPlainList {strings : StringTable} (tree : List Statement)
    (h : isPlainList tree = true) : resolveList strings tree = tree := by
  match tree with
  | [] => rfl
  | s :: rest =>
    rw [isPlainList, Bool.and_eq_true] at h
    rw [resolveList, resolve_of_isPlain s h.1, resolveList_of_isPlainList rest h.2]

theorem resolveOption_of_isPlainOption {strings : StringTable}
    (otherwise : Option (List Statement)) (h : isPlainOption otherwise = true) :
    resolveOption strings otherwise = otherwise := by
  match otherwise with
  | none => rfl
  | some body => rw [resolveOption, resolveList_of_isPlainList body h]

end

mutual

theorem isPlain_resolve (strings : StringTable) (s : Statement) :
    (s.resolve strings).isPlain = true := by
  match s with
  | label _ => rfl
  | block body => rw [resolve, isPlain, isPlainList_resolveList strings body]
  | assignment _ value => rw [resolve, isPlain, Expression.isPlain_resolve]
  | call _ arguments => rw [resolve, isPlain, Expression.isPlainList_resolveList]
  | bodyCall _ arguments body =>
    rw [resolve, isPlain, Expression.isPlainList_resolveList, isPlainList_resolveList strings body,
      Bool.and_self]
  | conditional condition body otherwise =>
    rw [resolve, isPlain, Expression.isPlain_resolve, isPlainList_resolveList strings body,
      isPlainOption_resolveOption strings otherwise, Bool.and_self, Bool.and_self]

/-- With the texts put back, none is moved out. -/
theorem isPlainList_resolveList (strings : StringTable) (tree : List Statement) :
    isPlainList (resolveList strings tree) = true := by
  match tree with
  | [] => rfl
  | s :: rest =>
    rw [resolveList, isPlainList, isPlain_resolve strings s, isPlainList_resolveList strings rest,
      Bool.and_self]

theorem isPlainOption_resolveOption (strings : StringTable)
    (otherwise : Option (List Statement)) :
    isPlainOption (resolveOption strings otherwise) = true := by
  match otherwise with
  | none => rfl
  | some body => rw [resolveOption, isPlainOption, isPlainList_resolveList strings body]

end

mutual

theorem texts_resolve (strings table : StringTable) (s : Statement) :
    (s.resolve strings).texts table = s.texts strings := by
  match s with
  | label _ => rfl
  | block body => rw [resolve, texts, texts, textsList_resolveList strings table body]
  | assignment _ value => rw [resolve, texts, texts, Expression.texts_resolve]
  | call _ arguments => rw [resolve, texts, texts, Expression.textsList_resolveList]
  | bodyCall _ arguments body =>
    rw [resolve, texts, texts, Expression.textsList_resolveList,
      textsList_resolveList strings table body]
  | conditional condition body otherwise =>
    rw [resolve, texts, texts, Expression.texts_resolve, textsList_resolveList strings table body,
      textsOption_resolveOption strings table otherwise]

/-- The names and texts of a tree stay the same when its texts are put back. -/
theorem textsList_resolveList (strings table : StringTable) (tree : List Statement) :
    textsList table (resolveList strings tree) = textsList strings tree := by
  match tree with
  | [] => rfl
  | s :: rest =>
    rw [resolveList, textsList, textsList, texts_resolve strings table s,
      textsList_resolveList strings table rest]

theorem textsOption_resolveOption (strings table : StringTable)
    (otherwise : Option (List Statement)) :
    textsOption table (resolveOption strings otherwise) = textsOption strings otherwise := by
  match otherwise with
  | none => rfl
  | some body =>
    rw [resolveOption, textsOption, textsOption, textsList_resolveList strings table body]

end
end Statement
end NovelScript
