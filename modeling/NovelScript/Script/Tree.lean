import NovelScript.Bytecode.Element

/-!
# Statement trees

A script is a list of statements over expressions.  An operation is a chain of operands with an
operator between each two, evaluated from left to right; nothing keeps a chain from having too many
or too few operators, and `complete` says that none is missing.

Trees have decidable equality (`Expression.same_iff`, `Statement.same_iff`).
-/

namespace NovelScript

/-- A text in a script: the text itself, or its key in the string table. -/
inductive TextLiteral where
  | plain (text : String)
  | external (key : String)
deriving DecidableEq

/-- A variable of the engine. -/
inductive Variable where
  /-- A string slot that the engine reserves. -/
  | special (name : String)
  | flag (kind : FlagKind) (id : Int32)
deriving DecidableEq

/-- What an assignment stores into. -/
inductive Target where
  | var (which : Variable)
  /-- The flag whose number is in a flag. -/
  | flagPointer (kind : FlagKind) (id : Int32)
  | pointer (value : Int32)
deriving DecidableEq

/-- What is computed. -/
inductive Expression where
  | integer (value : Int32)
  | pointer (value : Int32)
  | text (literal : TextLiteral)
  | var (which : Variable)
  /-- The flag whose number is in a flag. -/
  | flagPointer (kind : FlagKind) (id : Int32)
  | operation (operands : List Expression) (operators : List String)
  | call (function : String) (arguments : List Expression)
  | labelRef (name : String)

/-- What is done. -/
inductive Statement where
  | block (body : List Statement)
  | assignment (target : Target) (value : Expression)
  | call (function : String) (arguments : List Expression)
  /-- A call that owns the block behind it. -/
  | bodyCall (function : String) (arguments : List Expression) (body : List Statement)
  | conditional (condition : Expression) (body : List Statement)
      (otherwise : Option (List Statement))
  | label (name : String)

namespace Expression

/-- The chain `left operator right`. -/
def binary (left : Expression) (operator : String) (right : Expression) : Expression :=
  .operation [left, right] [operator]

/-- Whether the expression refers to a label. -/
def isLabelRef : Expression → Bool
  | labelRef _ => true
  | _ => false

/-! ## Equality -/

mutual

/-- Whether two expressions are equal. -/
def same : Expression → Expression → Bool
  | integer a, integer b | pointer a, pointer b => a == b
  | text a, text b => a == b
  | var a, var b => a == b
  | flagPointer k a, flagPointer l b => k == l && a == b
  | operation xs a, operation ys b => sameList xs ys && a == b
  | call f xs, call g ys => f == g && sameList xs ys
  | labelRef a, labelRef b => a == b
  | _, _ => false

/-- Whether two lists of expressions are equal. -/
def sameList : List Expression → List Expression → Bool
  | [], [] => true
  | x :: xs, y :: ys => same x y && sameList xs ys
  | _, _ => false

end

mutual

theorem same_iff (a b : Expression) : same a b = true ↔ a = b := by
  cases a <;> cases b <;> simp [same, sameList_iff]

theorem sameList_iff (xs ys : List Expression) : sameList xs ys = true ↔ xs = ys := by
  match xs, ys with
  | [], [] => simp [sameList]
  | [], _ :: _ | _ :: _, [] => simp [sameList]
  | x :: xs, y :: ys => simp [sameList, same_iff x y, sameList_iff xs ys]

end

instance : DecidableEq Expression := fun a b => decidable_of_iff _ (same_iff a b)

/-! ## Completeness -/

mutual

/-- No chain lacks an operator in front of an operand. -/
def complete : Expression → Bool
  | operation operands operators =>
    operands.length ≤ operators.length + 1 && completeList operands
  | call _ arguments => completeList arguments
  | _ => true

/-- All expressions are complete. -/
def completeList : List Expression → Bool
  | [] => true
  | x :: xs => complete x && completeList xs

end
end Expression

namespace Statement

/-! ## Equality -/

mutual

/-- Whether two statements are equal. -/
def same : Statement → Statement → Bool
  | block a, block b => sameList a b
  | assignment t a, assignment u b => t == u && a == b
  | call f xs, call g ys => f == g && xs == ys
  | bodyCall f xs a, bodyCall g ys b => f == g && xs == ys && sameList a b
  | conditional c a e, conditional d b f => c == d && sameList a b && sameOption e f
  | label a, label b => a == b
  | _, _ => false

/-- Whether two lists of statements are equal. -/
def sameList : List Statement → List Statement → Bool
  | [], [] => true
  | x :: xs, y :: ys => same x y && sameList xs ys
  | _, _ => false

/-- Whether two alternatives are equal. -/
def sameOption : Option (List Statement) → Option (List Statement) → Bool
  | none, none => true
  | some xs, some ys => sameList xs ys
  | _, _ => false

end

mutual

theorem same_iff (a b : Statement) : same a b = true ↔ a = b := by
  cases a <;> cases b <;> simp [same, sameList_iff, sameOption_iff, and_assoc]

theorem sameList_iff (xs ys : List Statement) : sameList xs ys = true ↔ xs = ys := by
  match xs, ys with
  | [], [] => simp [sameList]
  | [], _ :: _ | _ :: _, [] => simp [sameList]
  | x :: xs, y :: ys => simp [sameList, same_iff x y, sameList_iff xs ys]

theorem sameOption_iff (e f : Option (List Statement)) : sameOption e f = true ↔ e = f := by
  match e, f with
  | none, none => simp [sameOption]
  | none, some _ | some _, none => simp [sameOption]
  | some xs, some ys => simp [sameOption, sameList_iff xs ys]

end

instance : DecidableEq Statement := fun a b => decidable_of_iff _ (same_iff a b)

/-! ## Completeness -/

mutual

/-- No chain in the statement lacks an operator in front of an operand. -/
def complete : Statement → Bool
  | block body => completeList body
  | assignment _ value => value.complete
  | call _ arguments => Expression.completeList arguments
  | bodyCall _ arguments body => Expression.completeList arguments && completeList body
  | conditional condition body otherwise =>
    condition.complete && completeList body && completeOption otherwise
  | label _ => true

/-- All statements are complete. -/
def completeList : List Statement → Bool
  | [] => true
  | x :: xs => complete x && completeList xs

/-- All statements of an alternative are complete. -/
def completeOption : Option (List Statement) → Bool
  | none => true
  | some body => completeList body

end
end Statement
end NovelScript
