import Mathlib.Algebra.GroupWithZero.Nat
import NovelScript.Proofs.Script.Emission
import NovelScript.Proofs.Script.Parts

/-!
# Compiled code evaluates a tree in post-order

Arguments stand in front of the call that takes them, operands from left to right, a condition in
front of its `if`, and bodies behind what owns them.  So the calls of the code, each with the number
of its arguments, are those of the tree in post-order (`applications_of_compile`); the assignments
that the compiler adds are no calls of the tree.
-/

namespace NovelScript

/-! ## The calls of a tree -/

namespace Expression

/-- How many elements an operand of a chain takes; a sign is an element of its own. -/
def operandWidth : Expression → Nat
  | operation operands operators => if (Compile.sign? operands operators).isSome then 2 else 1
  | _ => 1

theorem operandWidth_pos (e : Expression) : 0 < e.operandWidth := by
  unfold operandWidth
  split
  · split <;> decide
  · decide

/-- How many elements a value takes as a chain of operands and operators. -/
def chainWidth : Expression → Nat
  | operation operands operators => (operands.map operandWidth).sum + operators.length
  | e => e.operandWidth

mutual

/-- The calls of an expression in post-order, each with the number of its arguments. -/
def applications : Expression → List (String × Nat)
  | operation operands _ => applicationsList operands
  | call function arguments => applicationsList arguments ++ [(function, arguments.length)]
  | _ => []

/-- The calls of expressions from left to right. -/
def applicationsList : List Expression → List (String × Nat)
  | [] => []
  | x :: xs => applications x ++ applicationsList xs

end

mutual

theorem map_fst_applications (e : Expression) : e.applications.map (·.1) = e.calls := by
  match e with
  | operation operands _ =>
    rw [applications, calls, map_fst_applicationsList operands]
  | call function arguments =>
    rw [applications, calls, List.map_append, map_fst_applicationsList arguments]
    rfl
  | integer _ | pointer _ | text _ | var _ | flagPointer .. | labelRef _ =>
    simp only [applications, calls, List.map_nil]

theorem map_fst_applicationsList (xs : List Expression) :
    (applicationsList xs).map (·.1) = callsList xs := by
  match xs with
  | [] => rfl
  | x :: xs =>
    rw [applicationsList, callsList, List.map_append, map_fst_applications x,
      map_fst_applicationsList xs]

end
end Expression

namespace Statement

mutual

/-- The calls of a statement in post-order, each with the number of its arguments.  An `if` is a
call whose arguments are those of its condition as a chain. -/
def applications : Statement → List (String × Nat)
  | block body => applicationsList body
  | assignment _ value => value.applications
  | call function arguments =>
    Expression.applicationsList arguments ++ [(function, arguments.length)]
  | bodyCall function arguments body =>
    Expression.applicationsList arguments ++ (function, arguments.length) :: applicationsList body
  | conditional condition body otherwise =>
    condition.applications ++ (ifFunction, condition.chainWidth) :: applicationsList body
      ++ applicationsOption otherwise
  | label _ => []

/-- The calls of statements in order. -/
def applicationsList : List Statement → List (String × Nat)
  | [] => []
  | s :: rest => applications s ++ applicationsList rest

/-- The calls of an alternative. -/
def applicationsOption : Option (List Statement) → List (String × Nat)
  | none => []
  | some body => applicationsList body

end

theorem filterMap_call?_callParts (calls : List String) :
    (callParts calls).filterMap Part.call? = calls := by
  simp [callParts, List.filterMap_map, Function.comp_def, Part.call?]

mutual

theorem map_fst_applications (s : Statement) :
    s.applications.map (·.1) = s.parts.filterMap Part.call? := by
  match s with
  | block body =>
    rw [applications, parts, List.filterMap_cons, map_fst_applicationsList body]
    rfl
  | assignment _ value =>
    simp [applications, parts, value.map_fst_applications, filterMap_call?_callParts, Part.call?]
  | call function arguments =>
    simp [applications, parts, Expression.map_fst_applicationsList, filterMap_call?_callParts,
      Part.call?]
  | bodyCall function arguments body =>
    have hbody := map_fst_applicationsList body
    simp [applications, parts, Expression.map_fst_applicationsList, filterMap_call?_callParts,
      List.filterMap_cons, Part.call?, hbody]
  | conditional condition body otherwise =>
    have hbody := map_fst_applicationsList body
    have hotherwise := map_fst_applicationsOption otherwise
    simp [applications, parts, condition.map_fst_applications, filterMap_call?_callParts,
      List.filterMap_cons, Part.call?, hbody, hotherwise]
  | label _ => simp [applications, parts, Part.call?]

theorem map_fst_applicationsList (tree : List Statement) :
    (applicationsList tree).map (·.1) = (partsList tree).filterMap Part.call? := by
  match tree with
  | [] => rfl
  | s :: rest =>
    rw [applicationsList, partsList, List.map_append, List.filterMap_append,
      map_fst_applications s, map_fst_applicationsList rest]

theorem map_fst_applicationsOption (otherwise : Option (List Statement)) :
    (applicationsOption otherwise).map (·.1) = (partsOption otherwise).filterMap Part.call? := by
  match otherwise with
  | none => rfl
  | some body =>
    have hbody := map_fst_applicationsList body
    simpa [applicationsOption, partsOption, List.filterMap_cons, Part.call?] using hbody

end

end Statement

/-! ## The calls of code -/

namespace Program

variable (program : Program)

/-- The calls that instructions make but for the assignments directly behind a target: the function,
if it is one, and the number of arguments. -/
def applicationsBehind (target : Bool) : List Instruction → List (Option String × Nat)
  | [] => []
  | .label _ :: rest => applicationsBehind false rest
  | .target _ :: rest => applicationsBehind true rest
  | .call function ids :: rest =>
    if target && Decompile.isAssign program function then applicationsBehind false rest
    else (program.functionName? function, ids.length) :: applicationsBehind false rest

/-- The calls that a program makes but for the assignments directly behind a target. -/
def applications : List (Option String × Nat) :=
  program.applicationsBehind false program.instructions

theorem filterMap_fst_applicationsBehind (target : Bool) (instructions : List Instruction) :
    (program.applicationsBehind target instructions).filterMap (·.1)
      = program.callsBehind target instructions := by
  induction instructions generalizing target with
  | nil => rfl
  | cons i rest ih =>
    cases i with
    | label id => exact ih false
    | target id => exact ih true
    | call function ids =>
      rw [applicationsBehind, callsBehind]
      split
      · exact ih false
      · rw [List.filterMap_cons, ih false]
        cases program.functionName? function <;> rfl

end Program

namespace Symbolic

/-- The calls that symbolic code makes but for the assignments directly behind a target. -/
def applicationsBehind (target : Bool) : SymbolicCode → List (Option String × Nat)
  | [] => []
  | .label _ :: rest => applicationsBehind false rest
  | .target _ :: rest => applicationsBehind true rest
  | .call face faces :: rest =>
    if target && face.functionName? == some assignFunction then applicationsBehind false rest
    else (face.functionName?, faces.length) :: applicationsBehind false rest

/-- Instructions make the calls that the code makes that they spell. -/
theorem applicationsBehind_of_spells {program : Program} {instructions : List Instruction}
    {code : SymbolicCode} (h : SpellsAll program.elements instructions code) (target : Bool) :
    program.applicationsBehind target instructions = applicationsBehind target code := by
  induction h generalizing target with
  | nil => rfl
  | @cons i s instructions code hi _ ih =>
    cases i with
    | label id =>
      cases s with
      | label face => exact ih false
      | call _ _ | target _ => exact hi.elim
    | target id =>
      cases s with
      | target face => exact ih true
      | call _ _ | label _ => exact hi.elim
    | call function ids =>
      cases s with
      | label _ | target _ => exact hi.elim
      | call face faces =>
        have hname : program.functionName? function = face.functionName? := by
          obtain ⟨e, he, rfl⟩ := Option.map_eq_some_iff.mp hi.1
          rw [Program.functionName?, he]
          cases e <;> rfl
        have hlength : ids.length = faces.length := by
          simpa using congrArg List.length hi.2
        rw [Program.applicationsBehind, applicationsBehind, hname, isAssign_of_faceAt hi.1, hlength,
          ih false]

/-- In front of any code, the code makes these calls. -/
def Applies (code : SymbolicCode) (calls : List (String × Nat)) : Prop :=
  ∀ more, applicationsBehind false (code ++ more)
    = calls.map (fun call => (some call.1, call.2)) ++ applicationsBehind false more

theorem applies_nil : Applies [] [] := fun _ => rfl

theorem Applies.append {code code' : SymbolicCode} {calls calls' : List (String × Nat)}
    (h : Applies code calls) (h' : Applies code' calls') :
    Applies (code ++ code') (calls ++ calls') := by
  intro more
  rw [List.append_assoc, h, h', List.map_append, List.append_assoc]

theorem applies_call (name : String) {faces : List Element} {n : Nat} (h : faces.length = n) :
    Applies [.call (functionFace name) faces] [(name, n)] := fun _ => h ▸ rfl

theorem applies_label (face : Element) : Applies [.label face] [] := fun _ => rfl

theorem applies_assign (face : Element) (faces : List Element) :
    Applies [.target face, .call (functionFace assignFunction) faces] [] := fun more => by
  simp [applicationsBehind, functionFace, Element.functionName?]

theorem Applies.stored {piece : Piece} {calls : List (String × Nat)}
    (h : Applies piece.code calls) : Applies piece.stored.code calls := by
  rw [← List.append_nil calls]
  exact h.append (applies_assign _ _)

theorem Applies.captured {piece : Piece} {calls : List (String × Nat)}
    (h : Applies piece.code calls) (name : String) {n : Nat} (hn : piece.faces.length = n) :
    Applies (piece.captured name).code (calls ++ [(name, n)]) :=
  h.append ((applies_assign _ []).append (applies_call name hn))

theorem Applies.braced {body : SymbolicCode × LocalPool} {calls : List (String × Nat)}
    (h : Applies body.1 calls) : Applies (braced body).1 calls := by
  have hclosed := h.append (applies_label (markerFace blockClose))
  rw [List.append_nil] at hclosed
  exact (applies_label (markerFace blockOpen)).append hclosed

section

variable (strings : StringTable)

/-! ## How many arguments a call is given -/

theorem length_argument_faces (pool : LocalPool) (e : Expression) :
    (argument strings pool e).faces.length = 1 := by
  unfold argument
  split <;> rfl

theorem length_argumentsOf_faces (pool : LocalPool) (arguments : List Expression) :
    (argumentsOf strings pool arguments).faces.length = arguments.length := by
  induction arguments generalizing pool with
  | nil =>
    rw [argumentsOf]
    rfl
  | cons x rest ih =>
    rw [argumentsOf, Piece.append, List.length_append, length_argument_faces, ih,
      List.length_cons, Nat.add_comm]

theorem length_operand_faces (pool : LocalPool) (e : Expression) :
    (operand strings pool e).faces.length = e.operandWidth := by
  cases e with
  | operation operands operators =>
    rw [operand, Expression.operandWidth]
    cases hsign : Compile.sign? operands operators with
    | none => rfl
    | some sign =>
      obtain ⟨x, rfl, -, -⟩ := Compile.sign?_eq_some hsign
      simp [secondOf, length_argument_faces]
  | call _ _ =>
    rw [operand]
    rfl
  | _ =>
    simp only [operand]
    rfl

theorem operandsOf_faces_ne_nil (pool : LocalPool) {operands : List Expression}
    {operators : List String} (h : operands.length = operators.length + 1) :
    (operandsOf strings pool operands operators).faces ≠ [] := by
  cases operands with
  | nil => simp at h
  | cons x rest =>
    rw [operandsOf, ← List.length_pos_iff, Piece.append, List.length_append, length_operand_faces]
    have hpos := x.operandWidth_pos
    omega

theorem length_laterOperandsOf_faces (pool : LocalPool) {operands : List Expression}
    {operators : List String} (h : operands.length = operators.length) :
    (laterOperandsOf strings pool operands operators).faces.length
      = (operands.map Expression.operandWidth).sum + operators.length := by
  induction operands generalizing pool operators with
  | nil =>
    obtain rfl : operators = [] := by simpa using h.symm
    simp [laterOperandsOf]
  | cons x rest ih =>
    cases operators with
    | nil => simp at h
    | cons operator operators =>
      rw [laterOperandsOf]
      simp only [Piece.append, List.length_cons, List.length_append, length_operand_faces,
        ih _ (Nat.succ.inj h), List.map_cons, List.sum_cons]
      omega

theorem length_chain_faces (pool : LocalPool) {e : Expression} (h : e.CompilableOperand) :
    (chain strings pool e).faces.length = e.chainWidth := by
  cases e with
  | operation operands operators =>
    obtain ⟨-, -, hlength, -⟩ := h
    cases operands with
    | nil => simp at hlength
    | cons x rest =>
      rw [chain, operandsOf, Piece.append, List.length_append, length_operand_faces,
        length_laterOperandsOf_faces strings _ (Nat.succ.inj hlength), Expression.chainWidth,
        List.map_cons, List.sum_cons, Nat.add_assoc]
  | _ => exact length_operand_faces strings pool _

theorem chain_faces_ne_nil (pool : LocalPool) {e : Expression} (h : e.CompilableOperand) :
    (chain strings pool e).faces ≠ [] := by
  cases e with
  | operation operands operators =>
    obtain ⟨-, -, hlength, -⟩ := h
    exact operandsOf_faces_ne_nil strings pool hlength
  | _ =>
    rw [chain, ← List.length_pos_iff, length_operand_faces]
    · exact Expression.operandWidth_pos _
    · simp

/-! ## The calls of the code of a tree -/

mutual

theorem applies_argument (pool : LocalPool) (e : Expression) (hc : e.Compilable) :
    Applies (argument strings pool e).code e.applications := by
  match e with
  | .operation operands operators =>
    obtain ⟨-, hlength, -, hoperands⟩ := hc
    rw [argument, Expression.applications]
    exact (applies_operandsOf pool operands operators hlength hoperands).stored
  | .call function arguments =>
    rw [argument, Expression.applications]
    exact (applies_argumentsOf pool arguments hc.2).captured function
      (length_argumentsOf_faces strings pool arguments)
  | .integer _ | .pointer _ | .text _ | .var _ | .flagPointer .. | .labelRef _ =>
    simp only [argument, Expression.applications]
    exact applies_nil

theorem applies_argumentsOf (pool : LocalPool) (arguments : List Expression)
    (hc : Expression.CompilableList arguments) :
    Applies (argumentsOf strings pool arguments).code (Expression.applicationsList arguments) := by
  match arguments with
  | [] =>
    rw [argumentsOf]
    exact applies_nil
  | x :: rest =>
    rw [argumentsOf, Expression.applicationsList]
    exact (applies_argument pool x hc.1).append (applies_argumentsOf _ rest hc.2)

theorem applies_operand (pool : LocalPool) (e : Expression) (hc : e.CompilableOperand) :
    Applies (operand strings pool e).code e.applications := by
  match e with
  | .operation operands operators =>
    obtain ⟨-, -, hlength, -, hoperands⟩ := hc
    rw [operand, Expression.applications]
    split
    · next sign hsign =>
      -- a sign is only given to the call: the zero in front of it leaves no code
      obtain ⟨x, rfl, rfl, -⟩ := Compile.sign?_eq_some hsign
      rw [secondOf]
      simpa [Expression.applicationsList, Expression.applications]
        using applies_argument pool x hoperands.2.1.2
    · exact (applies_operandsOf pool operands operators hlength hoperands).stored
  | .call function arguments =>
    rw [operand, Expression.applications]
    exact (applies_argumentsOf pool arguments hc.2.2).captured function
      (length_argumentsOf_faces strings pool arguments)
  | .integer _ | .pointer _ | .text _ | .var _ | .flagPointer .. | .labelRef _ =>
    simp only [operand, Expression.applications]
    exact applies_nil

theorem applies_operandsOf (pool : LocalPool) (operands : List Expression)
    (operators : List String) (hlength : operands.length = operators.length + 1)
    (hc : Expression.CompilableOperands operands) :
    Applies (operandsOf strings pool operands operators).code
      (Expression.applicationsList operands) := by
  match operands with
  | [] => simp at hlength
  | x :: rest =>
    rw [operandsOf, Expression.applicationsList]
    exact (applies_operand pool x hc.1).append
      (applies_laterOperandsOf _ rest operators (by simpa using hlength) hc.2)

theorem applies_laterOperandsOf (pool : LocalPool) (operands : List Expression)
    (operators : List String) (hlength : operands.length = operators.length)
    (hc : Expression.CompilableOperands operands) :
    Applies (laterOperandsOf strings pool operands operators).code
      (Expression.applicationsList operands) := by
  match operands, operators with
  | [], [] =>
    simp only [laterOperandsOf, Expression.applicationsList]
    exact applies_nil
  | x :: rest, operator :: operators =>
    rw [laterOperandsOf, Expression.applicationsList]
    exact (applies_operand pool x hc.1).append
      (applies_laterOperandsOf _ rest operators (by simpa using hlength) hc.2)

end

theorem applies_chain (pool : LocalPool) (e : Expression) (hc : e.CompilableOperand) :
    Applies (chain strings pool e).code e.applications := by
  unfold chain
  split
  · obtain ⟨-, -, hlength, -, hoperands⟩ := hc
    rw [Expression.applications]
    exact applies_operandsOf strings pool _ _ hlength hoperands
  · exact applies_operand strings pool e hc

theorem applies_assignment (pool : LocalPool) (target : Target) (e : Expression)
    (hc : e.CompilableOperand) : Applies (assignment strings pool target e).1 e.applications := by
  unfold assignment
  split
  · next function arguments =>
    rw [Expression.applications]
    exact (applies_argumentsOf strings pool arguments hc.2.2).append
      ((applies_assign _ []).append
        (applies_call function (length_argumentsOf_faces strings pool arguments)))
  · rw [← List.append_nil e.applications]
    exact (applies_chain strings pool e hc).append (applies_assign _ _)

mutual

theorem applies_statement (pool : LocalPool) (s : Statement) (hc : s.Compilable) :
    Applies (statement strings pool s).1 s.applications := by
  match s with
  | .block body =>
    rw [statement, Statement.applications]
    exact (applies_statements pool body hc).braced
  | .assignment target value =>
    rw [statement, Statement.applications]
    exact applies_assignment strings pool target value hc.2
  | .call function arguments =>
    rw [statement, Statement.applications]
    exact (applies_argumentsOf strings pool arguments hc.2).append
      (applies_call function (length_argumentsOf_faces strings pool arguments))
  | .bodyCall function arguments body =>
    obtain ⟨-, -, harguments, hbody⟩ := hc
    have hcode := (applies_argumentsOf strings pool arguments harguments).append
      ((applies_call function (length_argumentsOf_faces strings pool arguments)).append
        (applies_statements (argumentsOf strings pool arguments).released body hbody).braced)
    simpa [statement, Statement.applications] using hcode
  | .conditional condition body otherwise =>
    obtain ⟨hcondition, hbody, hotherwise⟩ := hc
    let piece := chain strings pool condition
    let block := braced (statements strings piece.released body)
    have hblock : Applies block.1 (Statement.applicationsList body) :=
      (applies_statements piece.released body hbody).braced
    have hcode := (applies_chain strings pool condition hcondition).append
      ((applies_call ifFunction (length_chain_faces strings pool hcondition)).append
        (hblock.append (applies_alternative block.2 otherwise hotherwise)))
    simpa [statement, Statement.applications, piece, block] using hcode
  | .label name =>
    rw [statement, Statement.applications]
    exact applies_label _

theorem applies_alternative (pool : LocalPool) (otherwise : Option (List Statement))
    (hc : Statement.CompilableOption otherwise) :
    Applies (alternative strings pool otherwise).1 (Statement.applicationsOption otherwise) := by
  match otherwise with
  | none =>
    rw [alternative, Statement.applicationsOption]
    exact applies_nil
  | some body =>
    rw [alternative, Statement.applicationsOption]
    exact (applies_label (markerFace elseLabel)).append (applies_statements pool body hc).braced

theorem applies_statements (pool : LocalPool) (tree : List Statement)
    (hc : Statement.CompilableList tree) :
    Applies (statements strings pool tree).1 (Statement.applicationsList tree) := by
  match tree with
  | [] =>
    rw [statements]
    exact applies_nil
  | s :: rest =>
    rw [statements, Statement.applicationsList]
    exact (applies_statement pool s hc.2.1).append (applies_statements _ rest hc.2.2)

end

end
end Symbolic

/-- A program that spells the code of a tree makes the calls of the tree in post-order. -/
theorem applications_of_spells {program : Program} {strings : StringTable} {tree : List Statement}
    (h : SpellsAll program.elements program.instructions (Symbolic.statements strings {} tree).1)
    (hc : Statement.CompilableList tree) :
    program.applications
      = (Statement.applicationsList tree).map fun call => (some call.1, call.2) := by
  have hcode := Symbolic.applies_statements strings {} tree hc []
  rw [Program.applications, Symbolic.applicationsBehind_of_spells h]
  simpa [Symbolic.applicationsBehind] using hcode

/-- The calls of compiled code, each with the number of its arguments, are those of the tree in
post-order. -/
theorem applications_of_compile {strings : Option StringTable} {tree : List Statement}
    {program : Program} (h : (compile strings tree).result = .ok program) :
    program.applications
      = (Statement.applicationsList tree).map fun call => (some call.1, call.2) := by
  obtain ⟨hspells, -, hcompilable⟩ := spells_of_compile h
  exact applications_of_spells hspells hcompilable

/-- An `if` with a sign, a nested chain and a nested call in its condition, in front of an
assignment of a call and a call with a body. -/
def nestedCalls : List Statement :=
  [.conditional
    (.operation
      [.call "f" [.call "g" [.integer 1]], .operation [.integer 0, .call "h" []] ["-"],
        .operation [.call "k" [], .integer 2] ["*"]] ["+", "<"])
    [.assignment (.var (.special "S")) (.call "p" [.operation [.call "q" [], .integer 3] ["+"]])]
    (some [.bodyCall "b" [.call "c" []] [.call "d" [.integer 4, .call "e" []]]])]

theorem applications_of_compile_nestedCalls :
    ∃ program, (compile none nestedCalls).result = .ok program
      ∧ program.applications
        = [(some "g", 1), (some "f", 1), (some "h", 0), (some "k", 0), (some "if", 6),
          (some "q", 0), (some "p", 1), (some "c", 0), (some "b", 1), (some "e", 0),
          (some "d", 2)] := by
  have hok : (compile none nestedCalls).result.isOk = true := by decide +kernel
  cases hresult : (compile none nestedCalls).result with
  | error e => simp [hresult, Except.isOk, Except.toBool] at hok
  | ok program => exact ⟨program, rfl, applications_of_compile hresult⟩

end NovelScript
