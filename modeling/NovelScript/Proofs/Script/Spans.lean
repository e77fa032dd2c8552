import NovelScript.Proofs.Script.Emission

/-!
# Where the code of a statement stands

How many instructions a statement takes is told by the tree (`Statement.codeLength`), and so is
where the code of each statement in a tree begins and where its bodies begin
(`Statement.spansList`).  The compiler emits code of that length (`Compile.statement_length`).
-/

namespace NovelScript

/-! ## How long code is -/

namespace Expression

mutual

/-- How many instructions compute an argument of a call. -/
def argumentLength : Expression → Nat
  | operation operands _ => operandsLength operands + 2
  | call _ arguments => argumentsLength arguments + 3
  | _ => 0

/-- How many instructions compute the arguments of a call. -/
def argumentsLength : List Expression → Nat
  | [] => 0
  | x :: rest => argumentLength x + argumentsLength rest

/-- How many instructions compute an operand of a chain.  A sign takes none. -/
def operandLength : Expression → Nat
  | operation operands operators =>
    if (Compile.sign? operands operators).isSome then secondLength operands
    else operandsLength operands + 2
  | call _ arguments => argumentsLength arguments + 3
  | _ => 0

/-- How many instructions compute the operand behind a sign. -/
def secondLength : List Expression → Nat
  | _ :: x :: _ => argumentLength x
  | _ => 0

/-- How many instructions compute the operands of a chain. -/
def operandsLength : List Expression → Nat
  | [] => 0
  | x :: rest => operandLength x + operandsLength rest

end

/-- How many instructions compute a condition or what is assigned. -/
def chainLength : Expression → Nat
  | operation operands _ => operandsLength operands
  | e => e.operandLength

/-- How many instructions assign the value of an expression. -/
def assignmentLength : Expression → Nat
  | call _ arguments => argumentsLength arguments + 3
  | e => e.chainLength + 2

end Expression

/-- Spans of instructions moved by `n`. -/
def shifted (n : Nat) (spans : List (Nat × Nat)) : List (Nat × Nat) :=
  spans.map fun span => (n + span.1, n + span.2)

namespace Statement

mutual

/-- How many instructions a statement takes, with its bodies and the labels around them. -/
def codeLength : Statement → Nat
  | block body => codeLengthList body + 2
  | assignment _ value => value.assignmentLength
  | call _ arguments => Expression.argumentsLength arguments + 1
  | bodyCall _ arguments body =>
    Expression.argumentsLength arguments + 1 + (codeLengthList body + 2)
  | conditional condition body otherwise =>
    condition.chainLength + 1 + (codeLengthList body + 2) + codeLengthOption otherwise
  | label _ => 1

/-- How many instructions statements take. -/
def codeLengthList : List Statement → Nat
  | [] => 0
  | s :: rest => codeLength s + codeLengthList rest

/-- How many instructions an alternative takes, with its labels. -/
def codeLengthOption : Option (List Statement) → Nat
  | none => 0
  | some body => 1 + (codeLengthList body + 2)

end

mutual

/-- From where to where the code of each assignment, call and condition in a statement goes, bodies
left out. -/
def spans : Statement → List (Nat × Nat)
  | block body => shifted 1 (spansList body)
  | assignment _ value => [(0, value.assignmentLength)]
  | call _ arguments => [(0, Expression.argumentsLength arguments + 1)]
  | bodyCall _ arguments body =>
    let length := Expression.argumentsLength arguments + 1
    (0, length) :: shifted length (shifted 1 (spansList body))
  | conditional condition body otherwise =>
    let length := condition.chainLength + 1
    (0, length) :: shifted length (shifted 1 (spansList body)
      ++ shifted (codeLengthList body + 2) (spansOption otherwise))
  | label _ => []

/-- From where to where the code of each assignment, call and condition in statements goes. -/
def spansList : List Statement → List (Nat × Nat)
  | [] => []
  | s :: rest => spans s ++ shifted s.codeLength (spansList rest)

/-- From where to where the code of each assignment, call and condition in an alternative goes. -/
def spansOption : Option (List Statement) → List (Nat × Nat)
  | none => []
  | some body => shifted 1 (shifted 1 (spansList body))

end
end Statement

namespace Symbolic

section

variable (strings : StringTable)

mutual

theorem length_argument (pool : LocalPool) (e : Expression) (hc : e.Compilable) :
    (argument strings pool e).code.length = e.argumentLength := by
  match e with
  | .operation operands operators =>
    obtain ⟨-, hlength, -, hoperands⟩ := hc
    rw [argument, Expression.argumentLength, Piece.stored, List.length_append,
      length_operandsOf pool operands operators hlength hoperands]
    rfl
  | .call function arguments =>
    rw [argument, Expression.argumentLength, Piece.captured, List.length_append,
      length_argumentsOf pool arguments hc.2]
    rfl
  | .integer _ | .pointer _ | .text _ | .var _ | .flagPointer .. | .labelRef _ =>
    simp only [argument, Expression.argumentLength, List.length_nil]

theorem length_argumentsOf (pool : LocalPool) (arguments : List Expression)
    (hc : Expression.CompilableList arguments) :
    (argumentsOf strings pool arguments).code.length = Expression.argumentsLength arguments := by
  match arguments with
  | [] =>
    rw [argumentsOf, Expression.argumentsLength]
    rfl
  | x :: rest =>
    rw [argumentsOf, Expression.argumentsLength, Piece.append, List.length_append,
      length_argument pool x hc.1, length_argumentsOf _ rest hc.2]

theorem length_operand (pool : LocalPool) (e : Expression) (hc : e.CompilableOperand) :
    (operand strings pool e).code.length = e.operandLength := by
  match e with
  | .operation operands operators =>
    obtain ⟨-, -, hlength, -, hoperands⟩ := hc
    rw [operand, Expression.operandLength]
    split
    · next sign hsign =>
      obtain ⟨x, rfl, rfl, -⟩ := Compile.sign?_eq_some hsign
      rw [hsign, secondOf, Expression.secondLength]
      exact length_argument pool x hoperands.2.1.2
    · next hsign =>
      rw [hsign, Piece.stored, List.length_append,
        length_operandsOf pool operands operators hlength hoperands]
      rfl
  | .call function arguments =>
    rw [operand, Expression.operandLength, Piece.captured, List.length_append,
      length_argumentsOf pool arguments hc.2.2]
    rfl
  | .integer _ | .pointer _ | .text _ | .var _ | .flagPointer .. | .labelRef _ =>
    simp only [operand, Expression.operandLength, List.length_nil]

theorem length_operandsOf (pool : LocalPool) (operands : List Expression)
    (operators : List String) (hlength : operands.length = operators.length + 1)
    (hc : Expression.CompilableOperands operands) :
    (operandsOf strings pool operands operators).code.length
      = Expression.operandsLength operands := by
  match operands with
  | [] => simp at hlength
  | x :: rest =>
    rw [operandsOf, Expression.operandsLength, Piece.append, List.length_append,
      length_operand pool x hc.1,
      length_laterOperandsOf _ rest operators (Nat.succ.inj hlength) hc.2]

theorem length_laterOperandsOf (pool : LocalPool) (operands : List Expression)
    (operators : List String) (hlength : operands.length = operators.length)
    (hc : Expression.CompilableOperands operands) :
    (laterOperandsOf strings pool operands operators).code.length
      = Expression.operandsLength operands := by
  match operands, operators with
  | [], [] =>
    simp only [laterOperandsOf, Expression.operandsLength, List.length_nil]
  | x :: rest, operator :: operators =>
    rw [laterOperandsOf, Expression.operandsLength]
    simp only [Piece.append, List.length_append, length_operand pool x hc.1,
      length_laterOperandsOf _ rest operators (Nat.succ.inj hlength) hc.2]

end

theorem length_chain (pool : LocalPool) {e : Expression} (hc : e.CompilableOperand) :
    (chain strings pool e).code.length = e.chainLength := by
  cases e with
  | operation operands operators =>
    obtain ⟨-, -, hlength, -, hoperands⟩ := hc
    exact length_operandsOf strings pool operands operators hlength hoperands
  | _ => exact length_operand strings pool _ hc

theorem length_assignment (pool : LocalPool) (target : Target) {e : Expression}
    (hc : e.CompilableOperand) :
    (assignment strings pool target e).1.length = e.assignmentLength := by
  cases e with
  | call function arguments =>
    rw [assignment, List.length_append, length_argumentsOf strings pool arguments hc.2.2]
    rfl
  | _ =>
    simp only [assignment, List.length_append, length_chain strings pool hc]
    rfl

theorem length_braced (body : SymbolicCode × LocalPool) :
    (braced body).1.length = body.1.length + 2 := by
  simp [braced]

mutual

theorem length_statement (pool : LocalPool) (s : Statement) (hc : s.Compilable) :
    (statement strings pool s).1.length = s.codeLength := by
  match s with
  | .block body =>
    rw [statement, Statement.codeLength, length_braced, length_statements pool body hc]
  | .assignment target value => exact length_assignment strings pool target hc.2
  | .call function arguments =>
    rw [statement, Statement.codeLength, List.length_append,
      length_argumentsOf strings pool arguments hc.2]
    rfl
  | .bodyCall function arguments body =>
    obtain ⟨-, -, harguments, hbody⟩ := hc
    simp only [statement, Statement.codeLength, List.length_append, List.length_cons,
      length_argumentsOf strings pool arguments harguments, length_braced,
      length_statements _ body hbody]
    omega
  | .conditional condition body otherwise =>
    obtain ⟨hcondition, hbody, hotherwise⟩ := hc
    simp only [statement, Statement.codeLength, List.length_append, List.length_cons,
      length_chain strings pool hcondition, length_braced, length_statements _ body hbody,
      length_alternative _ otherwise hotherwise]
    omega
  | .label name => rfl

theorem length_alternative (pool : LocalPool) (otherwise : Option (List Statement))
    (hc : Statement.CompilableOption otherwise) :
    (alternative strings pool otherwise).1.length = Statement.codeLengthOption otherwise := by
  match otherwise with
  | none => rfl
  | some body =>
    simp only [alternative, Statement.codeLengthOption, List.length_cons, length_braced,
      length_statements pool body hc]
    omega

theorem length_statements (pool : LocalPool) (tree : List Statement)
    (hc : Statement.CompilableList tree) :
    (statements strings pool tree).1.length = Statement.codeLengthList tree := by
  match tree with
  | [] => rfl
  | s :: rest =>
    rw [statements, Statement.codeLengthList, List.length_append, length_statement pool s hc.2.1,
      length_statements _ rest hc.2.2]

end

end
end Symbolic

/-- The compiler emits code of the length that the tree tells. -/
theorem Compile.statement_length (strings : Option StringTable) (s : Statement) {d : Draft}
    (hd : d.Sound) :
    Ends (statement strings s) d (fun code _ => code.length = s.codeLength) anyFailure := by
  refine (statement_compiles strings s d hd).imp ?_
  rintro code d' ⟨-, hspells, -, hc⟩
  rw [hspells.length_eq, Symbolic.length_statement _ _ s hc]

end NovelScript
