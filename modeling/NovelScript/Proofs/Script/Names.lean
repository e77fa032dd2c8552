import NovelScript.Proofs.Script.Symbolic

/-!
# Names and texts in symbolic code

The elements of the code of a tree are stored with names and texts of the tree, or with one of a few
names that the code brings along (`reservedNames`).  So what holds of all of these holds of every
text that is stored (`Symbolic.statements_texts`).
-/

namespace NovelScript

/-- The names and texts that an element is stored with. -/
def Element.texts : Element → List String
  | function name | special name => [name]
  | marker m => [m.name]
  | text value => [value]
  | intFlag kind _ | textFlag kind _ => [kind]
  | integer _ | localVar _ => []

/-- The elements that an instruction refers to. -/
def SymbolicInstruction.faces : SymbolicInstruction → List Element
  | call function arguments => function :: arguments
  | label face | target face => [face]

/-- The names of all flag kinds. -/
def flagKindNames : List String :=
  [FlagKind.globalFlag, .flag, .globalString, .string].map FlagKind.name

/-- The names that the code brings along. -/
def reservedNames : List String :=
  [assignFunction, ifFunction, elseLabel, blockOpen, blockClose] ++ operators ++ flagKindNames

theorem mem_reservedNames_of_isOperator {name : String} (h : isOperator name = true) :
    name ∈ reservedNames := by
  have hmem : name ∈ operators := List.contains_iff_mem.mp h
  simp [reservedNames, hmem]

theorem flagKind_mem_reservedNames (kind : FlagKind) : kind.name ∈ reservedNames := by
  cases kind <;> simp [reservedNames, flagKindNames]

section

variable {K : String → Prop}

/-- The property holds of all names and texts of the elements. -/
def AllTexts (K : String → Prop) (faces : List Element) : Prop :=
  ∀ face ∈ faces, ∀ t ∈ face.texts, K t

/-- The property holds of all names and texts of the elements that code refers to. -/
def CodeTexts (K : String → Prop) (code : SymbolicCode) : Prop :=
  AllTexts K (code.flatMap SymbolicInstruction.faces)

theorem AllTexts.append {faces more : List Element} (h₁ : AllTexts K faces)
    (h₂ : AllTexts K more) : AllTexts K (faces ++ more) :=
  fun face hface => (List.mem_append.mp hface).elim (h₁ face) (h₂ face)

theorem AllTexts.cons {face : Element} {faces : List Element} (h₁ : ∀ t ∈ face.texts, K t)
    (h₂ : AllTexts K faces) : AllTexts K (face :: faces) :=
  List.forall_mem_cons.mpr ⟨h₁, h₂⟩

theorem AllTexts.nil : AllTexts K [] := List.forall_mem_nil _

theorem CodeTexts.append {code more : SymbolicCode} (h₁ : CodeTexts K code)
    (h₂ : CodeTexts K more) : CodeTexts K (code ++ more) := by
  rw [CodeTexts, List.flatMap_append]
  exact AllTexts.append h₁ h₂

theorem CodeTexts.cons {i : SymbolicInstruction} {code : SymbolicCode}
    (h₁ : AllTexts K i.faces) (h₂ : CodeTexts K code) : CodeTexts K (i :: code) := by
  rw [CodeTexts, List.flatMap_cons]
  exact AllTexts.append h₁ h₂

theorem CodeTexts.nil : CodeTexts K [] := AllTexts.nil

/-- The property holds of all names and texts of a piece. -/
structure Piece.Texts (K : String → Prop) (piece : Piece) : Prop where
  code : CodeTexts K piece.code
  faces : AllTexts K piece.faces

namespace Piece.Texts

variable {piece first second : Piece}

theorem append (h₁ : Texts K first) (h₂ : Texts K second) : Texts K (first.append second) :=
  ⟨h₁.code.append h₂.code, h₁.faces.append h₂.faces⟩

theorem plain {face : Element} {pool : LocalPool} (h : ∀ t ∈ face.texts, K t) :
    Texts K ⟨[], [face], pool⟩ :=
  ⟨.nil, .cons h .nil⟩

theorem destination (piece : Piece) : AllTexts K [piece.destination] :=
  .cons (by simp [Piece.destination, Element.texts]) .nil

theorem stored (hassign : K assignFunction) (h : Texts K piece) : Texts K piece.stored :=
  ⟨h.code.append (.cons (destination piece) (.cons (.cons (by simpa [functionFace, Element.texts])
    h.faces) .nil)), destination piece⟩

theorem captured {function : String} (hassign : K assignFunction) (hfunction : K function)
    (h : Texts K piece) : Texts K (piece.captured function) :=
  ⟨h.code.append (.cons (destination piece)
    (.cons (.cons (by simpa [functionFace, Element.texts]) .nil)
      (.cons (.cons (by simpa [functionFace, Element.texts]) h.faces) .nil))), destination piece⟩

end Piece.Texts

namespace Symbolic

/-! ## Expressions -/

theorem function_texts {function : String} {faces : List Element} (hfunction : K function)
    (hfaces : AllTexts K faces) : AllTexts K (functionFace function :: faces) :=
  .cons (by simpa [functionFace, Element.texts] using hfunction) hfaces

theorem marker_texts {name : String} {code : SymbolicCode} (hname : K name)
    (hcode : CodeTexts K code) : CodeTexts K (.label (markerFace name) :: code) :=
  .cons (.cons (by simpa [markerFace, Element.texts] using hname) .nil) hcode

set_option linter.unusedSectionVars false

variable (hreserved : ∀ t ∈ reservedNames, K t)

include hreserved

theorem variableFace_texts {pointer : Bool} {which : Variable} (h : ∀ t ∈ which.texts, K t) :
    ∀ t ∈ (variableFace pointer which).texts, K t := by
  cases which with
  | special name => exact h
  | flag kind id =>
    have hkind := hreserved _ (flagKind_mem_reservedNames kind)
    rw [variableFace]
    split <;> simpa [Element.texts] using hkind

theorem simpleFace_texts {strings : StringTable} {e : Expression} (h : ∀ t ∈ e.texts strings, K t)
    (ho : ∀ operands operators, e ≠ .operation operands operators)
    (hcall : ∀ function arguments, e ≠ .call function arguments) :
    ∀ t ∈ (simpleFace strings e).texts, K t := by
  cases e with
  | integer _ | pointer _ => simp [simpleFace, Element.texts]
  | text literal => exact h
  | labelRef name => exact h
  | var which => exact variableFace_texts hreserved h
  | flagPointer kind id =>
    have hnone : ∀ t ∈ (Variable.flag kind id).texts, K t := List.forall_mem_nil _
    exact variableFace_texts hreserved hnone
  | operation operands operators => exact absurd rfl (ho operands operators)
  | call function arguments => exact absurd rfl (hcall function arguments)

theorem targetFace_texts {dest : Target} (h : ∀ t ∈ dest.texts, K t) :
    ∀ t ∈ (targetFace dest).texts, K t := by
  cases dest with
  | var which => exact variableFace_texts hreserved h
  | flagPointer kind id =>
    have hnone : ∀ t ∈ (Variable.flag kind id).texts, K t := List.forall_mem_nil _
    exact variableFace_texts hreserved hnone
  | pointer value => simp [targetFace, Element.texts]

mutual

theorem argument_texts (strings : StringTable) (pool : LocalPool) (e : Expression)
    (hc : e.Compilable) (h : ∀ t ∈ e.texts strings, K t) :
    (argument strings pool e).Texts K := by
  match e with
  | .operation operands operators =>
    rw [argument]
    exact (operandsOf_texts strings pool operands operators hc.2.2.1 hc.2.2.2 h).stored
      (hreserved _ (by simp [reservedNames]))
  | .call function arguments =>
    rw [argument]
    rw [Expression.texts, List.forall_mem_cons] at h
    exact (argumentsOf_texts strings pool arguments hc.2 h.2).captured
      (hreserved _ (by simp [reservedNames])) h.1
  | .integer _ | .pointer _ | .text _ | .var _ | .flagPointer .. | .labelRef _ =>
    simp only [argument]
    exact .plain (simpleFace_texts hreserved h (by simp) (by simp))

theorem argumentsOf_texts (strings : StringTable) (pool : LocalPool)
    (arguments : List Expression) (hc : Expression.CompilableList arguments)
    (h : ∀ t ∈ Expression.textsList strings arguments, K t) :
    (argumentsOf strings pool arguments).Texts K := by
  match arguments with
  | [] =>
    rw [argumentsOf]
    exact ⟨.nil, .nil⟩
  | x :: rest =>
    rw [Expression.textsList, List.forall_mem_append] at h
    rw [argumentsOf]
    exact (argument_texts strings pool x hc.1 h.1).append
      (argumentsOf_texts strings _ rest hc.2 h.2)

theorem operand_texts (strings : StringTable) (pool : LocalPool) (e : Expression)
    (hc : e.CompilableOperand) (h : ∀ t ∈ e.texts strings, K t) :
    (operand strings pool e).Texts K := by
  match e with
  | .operation operands operators =>
    rw [operand]
    split
    · rename_i sign hsign
      obtain ⟨x, rfl, rfl, -⟩ := Compile.sign?_eq_some hsign
      have hop := mem_reservedNames_of_isOperator (hc.2.2.2.1 sign (by simp))
      rw [Expression.texts, Expression.textsList, List.forall_mem_append, Expression.textsList,
        List.forall_mem_append] at h
      have hx := argument_texts strings pool x hc.2.2.2.2.2.1.2 h.2.1
      exact ⟨hx.code, .cons (by simpa [markerFace, Element.texts] using hreserved _ hop) hx.faces⟩
    · exact (operandsOf_texts strings pool operands operators hc.2.2.2.1 hc.2.2.2.2 h).stored
        (hreserved _ (by simp [reservedNames]))
  | .call function arguments =>
    rw [operand]
    rw [Expression.texts, List.forall_mem_cons] at h
    exact (argumentsOf_texts strings pool arguments hc.2.2 h.2).captured
      (hreserved _ (by simp [reservedNames])) h.1
  | .integer _ | .pointer _ | .text _ | .var _ | .flagPointer .. | .labelRef _ =>
    simp only [operand]
    exact .plain (simpleFace_texts hreserved h (by simp) (by simp))

theorem operandsOf_texts (strings : StringTable) (pool : LocalPool) (operands : List Expression)
    (operators : List String) (hops : ∀ name ∈ operators, isOperator name = true)
    (hc : Expression.CompilableOperands operands)
    (h : ∀ t ∈ Expression.textsList strings operands, K t) :
    (operandsOf strings pool operands operators).Texts K := by
  match operands with
  | [] =>
    rw [operandsOf]
    exact ⟨.nil, .nil⟩
  | x :: rest =>
    rw [Expression.textsList, List.forall_mem_append] at h
    rw [operandsOf]
    exact (operand_texts strings pool x hc.1 h.1).append
      (laterOperandsOf_texts strings _ rest operators hops hc.2 h.2)

theorem laterOperandsOf_texts (strings : StringTable) (pool : LocalPool)
    (operands : List Expression) (operators : List String)
    (hops : ∀ name ∈ operators, isOperator name = true)
    (hc : Expression.CompilableOperands operands)
    (h : ∀ t ∈ Expression.textsList strings operands, K t) :
    (laterOperandsOf strings pool operands operators).Texts K := by
  match operands, operators with
  | x :: rest, operator :: operators =>
    rw [Expression.textsList, List.forall_mem_append] at h
    rw [List.forall_mem_cons] at hops
    rw [laterOperandsOf]
    have hrest := (operand_texts strings pool x hc.1 h.1).append
      (laterOperandsOf_texts strings (operand strings pool x).pool rest operators hops.2 hc.2 h.2)
    have hop := hreserved _ (mem_reservedNames_of_isOperator hops.1)
    exact ⟨hrest.code, .cons (by simpa [markerFace, Element.texts] using hop) hrest.faces⟩
  | [], _ | _ :: _, [] =>
    simp only [laterOperandsOf]
    exact ⟨.nil, .nil⟩

end

theorem chain_texts (strings : StringTable) (pool : LocalPool) (e : Expression)
    (hc : e.CompilableOperand) (h : ∀ t ∈ e.texts strings, K t) :
    (chain strings pool e).Texts K := by
  unfold chain
  split
  · exact operandsOf_texts hreserved strings pool _ _ hc.2.2.2.1 hc.2.2.2.2 h
  · exact operand_texts hreserved strings pool e hc h

/-! ## Statements -/

theorem braced_texts {body : SymbolicCode × LocalPool} (h : CodeTexts K body.1) :
    CodeTexts K (braced body).1 :=
  (marker_texts (hreserved _ (by simp [reservedNames])) h).append
    (marker_texts (hreserved _ (by simp [reservedNames])) .nil)

theorem assignment_texts (strings : StringTable) (pool : LocalPool) (dest : Target)
    (e : Expression) (hc : e.CompilableOperand) (hdest : ∀ t ∈ dest.texts, K t)
    (h : ∀ t ∈ e.texts strings, K t) : CodeTexts K (assignment strings pool dest e).1 := by
  have hassign : K assignFunction := hreserved _ (by simp [reservedNames])
  have htarget : AllTexts K (SymbolicInstruction.target (targetFace dest)).faces :=
    .cons (targetFace_texts hreserved hdest) .nil
  unfold assignment
  split
  · rename_i function arguments
    rw [Expression.texts, List.forall_mem_cons] at h
    have harguments := argumentsOf_texts hreserved strings pool arguments hc.2.2 h.2
    exact harguments.code.append (.cons htarget (.cons (function_texts hassign .nil)
      (.cons (function_texts h.1 harguments.faces) .nil)))
  · have hchain := chain_texts hreserved strings pool e hc h
    exact hchain.code.append
      (.cons htarget (.cons (function_texts hassign hchain.faces) .nil))

mutual

theorem statement_texts (strings : StringTable) (pool : LocalPool) (s : Statement)
    (hc : s.Compilable) (h : ∀ t ∈ s.texts strings, K t) :
    CodeTexts K (statement strings pool s).1 := by
  match s with
  | .block body => exact braced_texts hreserved (statements_texts strings pool body hc h)
  | .assignment dest value =>
    rw [Statement.texts, List.forall_mem_append] at h
    exact assignment_texts hreserved strings pool dest value hc.2 h.1 h.2
  | .call function arguments =>
    rw [Statement.texts, List.forall_mem_cons] at h
    have harguments := argumentsOf_texts hreserved strings pool arguments hc.2 h.2
    exact harguments.code.append (.cons (function_texts h.1 harguments.faces) .nil)
  | .bodyCall function arguments body =>
    rw [Statement.texts, List.cons_append, List.forall_mem_cons, List.forall_mem_append] at h
    have harguments := argumentsOf_texts hreserved strings pool arguments hc.2.2.1 h.2.1
    exact harguments.code.append (.cons (function_texts h.1 harguments.faces)
      (braced_texts hreserved (statements_texts strings _ body hc.2.2.2 h.2.2)))
  | .conditional condition body otherwise =>
    rw [Statement.texts, List.forall_mem_append, List.forall_mem_append] at h
    have hcondition := chain_texts hreserved strings pool condition hc.1 h.1.1
    have hif : K ifFunction := hreserved _ (by simp [reservedNames])
    rw [statement, List.append_assoc]
    exact hcondition.code.append (.cons (function_texts hif hcondition.faces)
      ((braced_texts hreserved (statements_texts strings _ body hc.2.1 h.1.2)).append
        (alternative_texts strings _ otherwise hc.2.2 h.2)))
  | .label name =>
    rw [Statement.texts, List.forall_mem_cons] at h
    exact marker_texts h.1 .nil

theorem alternative_texts (strings : StringTable) (pool : LocalPool)
    (otherwise : Option (List Statement)) (hc : Statement.CompilableOption otherwise)
    (h : ∀ t ∈ Statement.textsOption strings otherwise, K t) :
    CodeTexts K (alternative strings pool otherwise).1 := by
  match otherwise with
  | none => exact .nil
  | some body =>
    exact marker_texts (hreserved _ (by simp [reservedNames]))
      (braced_texts hreserved (statements_texts strings pool body hc h))

/-- What holds of the names and texts of a tree and of the reserved names holds of all that the
code of the tree is stored with. -/
theorem statements_texts (strings : StringTable) (pool : LocalPool) (tree : List Statement)
    (hc : Statement.CompilableList tree) (h : ∀ t ∈ Statement.textsList strings tree, K t) :
    CodeTexts K (statements strings pool tree).1 := by
  match tree with
  | [] => exact .nil
  | s :: rest =>
    rw [Statement.textsList, List.forall_mem_append] at h
    exact (statement_texts strings pool s hc.2.1 h.1).append
      (statements_texts strings _ rest hc.2.2 h.2)

end

end Symbolic
end
end NovelScript
