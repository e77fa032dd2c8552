import NovelScript.Proofs.Script.Applications
import NovelScript.Proofs.Script.Drafts
import NovelScript.Proofs.Script.Pieces
import NovelScript.Proofs.Script.Transfers

/-!
# Compiled code reads each local once

The registers that are taken between two instructions of a statement are those that are pending
(`Piece.Flows`), and between two statements none is taken.  So the code of a statement in front of
its bodies is paired, and with it the code of a tree (`Symbolic.paired_statements`): every value is
read by exactly one argument, in the code of the statement that it was assigned in.
-/

namespace NovelScript

/-- What symbolic code does with locals. -/
def SymbolicCode.accesses (code : SymbolicCode) : List Access := code.map SymbolicInstruction.access

@[simp] theorem SymbolicCode.accesses_nil : SymbolicCode.accesses [] = [] := rfl

@[simp] theorem SymbolicCode.accesses_cons (i : SymbolicInstruction) (code : SymbolicCode) :
    SymbolicCode.accesses (i :: code) = i.access :: SymbolicCode.accesses code := rfl

@[simp] theorem SymbolicCode.accesses_append (code more : SymbolicCode) :
    SymbolicCode.accesses (code ++ more)
      = SymbolicCode.accesses code ++ SymbolicCode.accesses more :=
  List.map_append

@[simp] theorem SymbolicCode.length_accesses (code : SymbolicCode) :
    (SymbolicCode.accesses code).length = code.length :=
  List.length_map _

theorem reduceOption_map_register? (faces : List Element) :
    (faces.map Element.register?).reduceOption = registers faces := by
  rw [List.reduceOption, List.filterMap_map]
  rfl

namespace Piece

variable {piece first second : Piece} {pool : LocalPool} {code : List Access} {written : Option Nat}

/-- Between its instructions the registers that a piece has taken are pending. -/
def Flows (piece : Piece) (pool : LocalPool) : Prop :=
  NovelScript.Flows pool.Taken (SymbolicCode.accesses piece.code) piece.pool.Taken

theorem Flows.append (h : first.Flows pool) (h' : second.Flows first.pool) :
    (first.append second).Flows pool := by
  rw [Flows, Piece.append, SymbolicCode.accesses_append]
  exact NovelScript.Flows.append h h'

/-- A transfer that reads the value of a piece gives its registers back. -/
theorem Takes.flows_released (h : piece.Takes pool)
    (htransfer : Transfer code (piece.faces.map Element.register?) none) :
    NovelScript.Flows piece.pool.Taken code piece.released.Taken := by
  rw [← List.append_nil code]
  refine .cons htransfer (fun r hr => ?_) ?_ (by simp) (fun r => ?_) (.nil fun _ => Iff.rfl)
  · rw [reduceOption_map_register?] at hr
    exact (h.taken r).mpr (.inr hr)
  · rw [reduceOption_map_register?]
    exact h.nodup
  · rw [reduceOption_map_register?, released, LocalPool.taken_freeAll]
    simp [and_comm]

/-- A transfer that reads the value of a piece may assign the register that is then free. -/
theorem Takes.flows_destination (h : piece.Takes pool)
    (htransfer : Transfer code (piece.faces.map Element.register?) piece.destination.register?) :
    NovelScript.Flows piece.pool.Taken code piece.released.alloc.2.Taken := by
  rw [← List.append_nil code]
  refine .cons htransfer (fun r hr => ?_) ?_ (fun r hr ht => ?_) (fun r => ?_)
    (.nil fun _ => Iff.rfl)
  · rw [reduceOption_map_register?] at hr
    exact (h.taken r).mpr (.inr hr)
  · rw [reduceOption_map_register?]
    exact h.nodup
  · rw [reduceOption_map_register?]
    obtain rfl : piece.released.alloc.1 = r := Option.some.inj hr
    by_contra hnot
    refine piece.released.not_taken_alloc ?_
    rw [released, LocalPool.taken_freeAll]
    exact ⟨hnot, ht⟩
  · have hwritten : piece.destination.register? = some r ↔ r = piece.released.alloc.1 := by
      rw [Piece.destination, Element.register?, Option.some.injEq, eq_comm]
    rw [hwritten, reduceOption_map_register?, LocalPool.taken_alloc, released,
      LocalPool.taken_freeAll, or_comm, and_comm]

theorem Flows.stored (h : piece.Flows pool) (htakes : piece.Takes pool) (hne : piece.faces ≠ []) :
    piece.stored.Flows pool := by
  rw [Flows, Piece.stored, SymbolicCode.accesses_append]
  exact NovelScript.Flows.append h (htakes.flows_destination (.store _ _ (by simpa using hne)))

theorem Flows.captured (function : String) (h : piece.Flows pool) (htakes : piece.Takes pool) :
    (piece.captured function).Flows pool := by
  rw [Flows, Piece.captured, SymbolicCode.accesses_append]
  exact NovelScript.Flows.append h (htakes.flows_destination (.capture _ _ _))

theorem flows_plain (faces : List Element) : Flows ⟨[], faces, pool⟩ pool := .nil fun _ => Iff.rfl

end Piece

namespace Symbolic

section

variable (strings : StringTable)

/-! ## Expressions -/

mutual

theorem flows_argument (pool : LocalPool) (e : Expression) (hc : e.Compilable) :
    (argument strings pool e).Flows pool := by
  match e with
  | .operation operands operators =>
    obtain ⟨-, hlength, -, hoperands⟩ := hc
    rw [argument]
    exact (flows_operandsOf pool operands operators hlength hoperands).stored
      (operandsOf_takes strings pool operands operators)
      (operandsOf_faces_ne_nil strings pool hlength)
  | .call function arguments =>
    rw [argument]
    exact (flows_argumentsOf pool arguments hc.2).captured function
      (argumentsOf_takes strings pool arguments)
  | .integer _ | .pointer _ | .text _ | .var _ | .flagPointer .. | .labelRef _ =>
    simp only [argument]
    exact Piece.flows_plain _

theorem flows_argumentsOf (pool : LocalPool) (arguments : List Expression)
    (hc : Expression.CompilableList arguments) :
    (argumentsOf strings pool arguments).Flows pool := by
  match arguments with
  | [] =>
    rw [argumentsOf]
    exact Piece.flows_plain _
  | x :: rest =>
    rw [argumentsOf]
    exact (flows_argument pool x hc.1).append (flows_argumentsOf _ rest hc.2)

theorem flows_operand (pool : LocalPool) (e : Expression) (hc : e.CompilableOperand) :
    (operand strings pool e).Flows pool := by
  match e with
  | .operation operands operators =>
    obtain ⟨-, -, hlength, -, hoperands⟩ := hc
    rw [operand]
    split
    · next sign hsign =>
      obtain ⟨x, rfl, rfl, -⟩ := Compile.sign?_eq_some hsign
      rw [secondOf]
      exact flows_argument pool x hoperands.2.1.2
    · exact (flows_operandsOf pool operands operators hlength hoperands).stored
        (operandsOf_takes strings pool operands operators)
        (operandsOf_faces_ne_nil strings pool hlength)
  | .call function arguments =>
    rw [operand]
    exact (flows_argumentsOf pool arguments hc.2.2).captured function
      (argumentsOf_takes strings pool arguments)
  | .integer _ | .pointer _ | .text _ | .var _ | .flagPointer .. | .labelRef _ =>
    simp only [operand]
    exact Piece.flows_plain _

theorem flows_operandsOf (pool : LocalPool) (operands : List Expression)
    (operators : List String) (hlength : operands.length = operators.length + 1)
    (hc : Expression.CompilableOperands operands) :
    (operandsOf strings pool operands operators).Flows pool := by
  match operands with
  | [] => simp at hlength
  | x :: rest =>
    rw [operandsOf]
    exact (flows_operand pool x hc.1).append
      (flows_laterOperandsOf _ rest operators (Nat.succ.inj hlength) hc.2)

theorem flows_laterOperandsOf (pool : LocalPool) (operands : List Expression)
    (operators : List String) (hlength : operands.length = operators.length)
    (hc : Expression.CompilableOperands operands) :
    (laterOperandsOf strings pool operands operators).Flows pool := by
  match operands, operators with
  | [], [] =>
    simp only [laterOperandsOf]
    exact Piece.flows_plain _
  | x :: rest, operator :: operators =>
    rw [laterOperandsOf]
    exact (flows_operand pool x hc.1).append
      (flows_laterOperandsOf _ rest operators (Nat.succ.inj hlength) hc.2)

end

theorem flows_chain (pool : LocalPool) {e : Expression} (hc : e.CompilableOperand) :
    (chain strings pool e).Flows pool := by
  unfold chain
  split
  · obtain ⟨-, -, hlength, -, hoperands⟩ := hc
    exact flows_operandsOf strings pool _ _ hlength hoperands
  · exact flows_operand strings pool e hc

/-! ## Statements -/

/-- What reads the value of a piece at the end is paired with the code of the piece. -/
theorem paired_of_flows {piece : Piece} {pool : LocalPool} {code : SymbolicCode}
    (h : piece.Flows pool) (htakes : piece.Takes pool) (hpool : ∀ r, ¬ pool.Taken r)
    (htransfer : Transfer (SymbolicCode.accesses code) (piece.faces.map Element.register?) none) :
    Paired (SymbolicCode.accesses (piece.code ++ code)) [(0, piece.code.length + code.length)] := by
  rw [SymbolicCode.accesses_append]
  have hpaired := (Flows.append h (htakes.flows_released htransfer)).paired hpool
    fun r hr => hpool r ((htakes.taken_released r).mp hr)
  simpa using hpaired

theorem register?_targetFace (target : Target) : (targetFace target).register? = none := by
  cases target with
  | var which =>
    cases which with
    | special _ => rfl
    | flag kind _ => cases kind <;> rfl
  | flagPointer kind _ => cases kind <;> rfl
  | pointer _ => rfl

theorem paired_assignment {pool : LocalPool} (hpool : ∀ r, ¬ pool.Taken r) (target : Target)
    {e : Expression} (hc : e.CompilableOperand) :
    Paired (SymbolicCode.accesses (assignment strings pool target e).1)
      [(0, e.assignmentLength)] := by
  rw [← length_assignment strings pool target hc]
  unfold assignment
  split
  · next function arguments =>
    rw [List.length_append]
    refine paired_of_flows (flows_argumentsOf strings pool arguments hc.2.2)
      (argumentsOf_takes strings pool arguments) hpool ?_
    rw [← register?_targetFace target]
    exact .capture _ _ _
  · rw [List.length_append]
    refine paired_of_flows (flows_chain strings pool hc) (chain_takes strings pool e) hpool ?_
    rw [← register?_targetFace target]
    exact .store _ _ (by simpa using chain_faces_ne_nil strings pool hc)

/-- A call that reads the arguments in front of it is paired with their code. -/
theorem paired_arguments {pool : LocalPool} (hpool : ∀ r, ¬ pool.Taken r) (function : Element)
    {arguments : List Expression} (hc : Expression.CompilableList arguments) :
    Paired (SymbolicCode.accesses ((argumentsOf strings pool arguments).code
        ++ [.call function (argumentsOf strings pool arguments).faces]))
      [(0, Expression.argumentsLength arguments + 1)] := by
  rw [← length_argumentsOf strings pool arguments hc]
  exact paired_of_flows (flows_argumentsOf strings pool arguments hc)
    (argumentsOf_takes strings pool arguments) hpool (.call _ _)

/-- A call that reads the operands in front of it is paired with their code. -/
theorem paired_condition {pool : LocalPool} (hpool : ∀ r, ¬ pool.Taken r) (function : Element)
    {e : Expression} (hc : e.CompilableOperand) :
    Paired (SymbolicCode.accesses ((chain strings pool e).code
        ++ [.call function (chain strings pool e).faces])) [(0, e.chainLength + 1)] := by
  rw [← length_chain strings pool hc]
  exact paired_of_flows (flows_chain strings pool hc) (chain_takes strings pool e) hpool
    (.call _ _)

theorem paired_braced {body : SymbolicCode × LocalPool} {spans : List (Nat × Nat)}
    (h : Paired (SymbolicCode.accesses body.1) spans) :
    Paired (SymbolicCode.accesses (braced body).1) (shifted 1 spans) := by
  have hbody := Paired.label.append (h.append Paired.label)
  simpa [braced, SymbolicCode.accesses, SymbolicInstruction.access, shifted] using hbody

mutual

theorem paired_statement {pool : LocalPool} (hpool : ∀ r, ¬ pool.Taken r) (s : Statement)
    (hc : s.Compilable) : Paired (SymbolicCode.accesses (statement strings pool s).1) s.spans := by
  match s with
  | .block body => exact paired_braced (paired_statements hpool body hc)
  | .assignment target value => exact paired_assignment strings hpool target hc.2
  | .call function arguments => exact paired_arguments strings hpool _ hc.2
  | .bodyCall function arguments body =>
    obtain ⟨-, -, harguments, hbody⟩ := hc
    have hreleased (r : Nat) : ¬ (argumentsOf strings pool arguments).released.Taken r :=
      fun hr => hpool r (((argumentsOf_takes strings pool arguments).taken_released r).mp hr)
    have hpaired := (paired_arguments strings hpool (functionFace function) harguments).append
      (paired_braced (paired_statements hreleased body hbody))
    simpa [statement, Statement.spans, length_argumentsOf strings pool arguments harguments]
      using hpaired
  | .conditional condition body otherwise =>
    obtain ⟨hcondition, hbody, hotherwise⟩ := hc
    let piece := chain strings pool condition
    let block := braced (statements strings piece.released body)
    have hreleased (r : Nat) : ¬ piece.released.Taken r :=
      fun hr => hpool r (((chain_takes strings pool condition).taken_released r).mp hr)
    have hback (r : Nat) : ¬ block.2.Taken r :=
      fun hr => hreleased r (((statements_returns strings piece.released body).taken r).mp hr)
    have hblock := (paired_braced (paired_statements hreleased body hbody)).append
      (paired_alternative hback otherwise hotherwise)
    have hpaired := (paired_condition strings hpool (functionFace ifFunction) hcondition).append
      hblock
    simpa [statement, Statement.spans, length_chain strings pool hcondition, length_braced,
      length_statements strings _ body hbody, piece, block] using hpaired
  | .label name => exact Paired.label

theorem paired_alternative {pool : LocalPool} (hpool : ∀ r, ¬ pool.Taken r)
    (otherwise : Option (List Statement)) (hc : Statement.CompilableOption otherwise) :
    Paired (SymbolicCode.accesses (alternative strings pool otherwise).1)
      (Statement.spansOption otherwise) := by
  match otherwise with
  | none => exact Paired.nil
  | some body => exact Paired.label.append (paired_braced (paired_statements hpool body hc))

theorem paired_statements {pool : LocalPool} (hpool : ∀ r, ¬ pool.Taken r) (tree : List Statement)
    (hc : Statement.CompilableList tree) :
    Paired (SymbolicCode.accesses (statements strings pool tree).1) (Statement.spansList tree) := by
  match tree with
  | [] => exact Paired.nil
  | s :: rest =>
    rw [statements, Statement.spansList, ← length_statement strings pool s hc.2.1,
      SymbolicCode.accesses_append, ← SymbolicCode.length_accesses]
    have hback (r : Nat) : ¬ (statement strings pool s).2.Taken r :=
      fun hr => hpool r (((statement_returns strings pool s).taken r).mp hr)
    exact (paired_statement hpool s hc.2.1).append (paired_statements hback rest hc.2.2)

end

end
end Symbolic

/-- Compiled code never clobbers a local nor reads it again: each value that a local is assigned is
read by exactly one argument, behind the assignment, in the code of the same statement and before
the local is assigned again; each local that is read holds such a value; and the program asks for
all of its locals. -/
theorem locals_of_compile {strings : Option StringTable} {tree : List Statement} {program : Program}
    (h : (compile strings tree).result = .ok program) :
    Paired program.accesses (Statement.spansList tree)
      ∧ ∀ (id : ElementId) (r : Nat),
        program.elements[id]? = some (Element.localVar r) → r < program.maxLocals := by
  obtain ⟨hspells, -, hcompilable⟩ := spells_of_compile h
  have hempty (r : Nat) : ¬ LocalPool.Taken {} r := by simp [LocalPool.Taken]
  rw [accesses_of_spells hspells]
  exact ⟨Symbolic.paired_statements _ hempty tree hcompilable,
    fun _ _ hlocal => register_lt_of_compile h hlocal⟩

/-- An assignment and a condition, whose operands are chains of calls. -/
def nestedChains : List Statement :=
  [.assignment (.var (.special "S"))
    (.operation [.call "f" [.operation [.call "g" [], .integer 1] ["+"]],
      .operation [.call "h" [], .call "k" []] ["*"]] ["-"]),
    .conditional (.operation [.call "p" [.call "q" []], .integer 2] ["<"])
      [.call "d" [.call "e" []]] none]

theorem locals_of_compile_nestedChains :
    ∃ program, (compile none nestedChains).result = .ok program
      ∧ Paired program.accesses [(0, 18), (18, 25), (26, 30)]
      ∧ ∀ (id : ElementId) (r : Nat),
        program.elements[id]? = some (Element.localVar r) → r < program.maxLocals := by
  have hok : (compile none nestedChains).result.isOk = true := by decide +kernel
  have hspans : Statement.spansList nestedChains = [(0, 18), (18, 25), (26, 30)] := by decide
  cases hresult : (compile none nestedChains).result with
  | error e => simp [hresult, Except.isOk, Except.toBool] at hok
  | ok program => exact ⟨program, rfl, hspans ▸ locals_of_compile hresult⟩

end NovelScript
