import NovelScript.Proofs.Script.Calls

/-!
# Parts of trees and programs

A tree is made of parts: calls, assignments, bodies of blocks and labels.  The instructions of a
program stand for parts as well (`Program.partsBehind`), in the order in which they come; all that
is counted in a tree or a program is counted among its parts.
-/

namespace NovelScript

/-! ## Parts of trees -/

/-- Something that a tree is made of. -/
inductive Part where
  | call (function : String)
  | assignment
  | body
  | label (name : String)
deriving DecidableEq

namespace Part

/-- The function of a call. -/
def call? : Part → Option String
  | call function => some function
  | assignment | body | label _ => none

/-- The name of a label. -/
def label? : Part → Option String
  | label name => some name
  | call _ | assignment | body => none

end Part

/-- The parts of expressions that make these calls. -/
def callParts (calls : List String) : List Part := calls.map .call

namespace Statement

mutual

/-- The parts of a statement, in the order of its code.  An `if` is a call, an `else` a label. -/
def parts : Statement → List Part
  | block body => .body :: partsList body
  | assignment _ value => callParts value.calls ++ [.assignment]
  | call function arguments => callParts (Expression.callsList arguments) ++ [.call function]
  | bodyCall function arguments body =>
    callParts (Expression.callsList arguments) ++ .call function :: .body :: partsList body
  | conditional condition body otherwise =>
    callParts condition.calls ++ .call ifFunction :: .body :: partsList body
      ++ partsOption otherwise
  | label name => [.label name]

/-- The parts of statements. -/
def partsList : List Statement → List Part
  | [] => []
  | s :: rest => parts s ++ partsList rest

/-- The parts of an alternative. -/
def partsOption : Option (List Statement) → List Part
  | none => []
  | some body => .label elseLabel :: .body :: partsList body

end

@[simp] theorem partsList_append (tree more : List Statement) :
    partsList (tree ++ more) = partsList tree ++ partsList more := by
  induction tree with
  | nil => rfl
  | cons s rest ih => rw [List.cons_append, partsList, partsList, ih, List.append_assoc]

/-- The functions that a tree calls, in the order of its code, with `if` for each condition. -/
def callsIn (tree : List Statement) : List String := (partsList tree).filterMap Part.call?

/-- The labels of a tree, with `else` for each second body of a condition. -/
def labelsIn (tree : List Statement) : List String := (partsList tree).filterMap Part.label?

/-- How many assignments a tree has. -/
def assignmentsIn (tree : List Statement) : Nat := (partsList tree).count .assignment

/-- How many bodies of blocks a tree has. -/
def bodiesIn (tree : List Statement) : Nat := (partsList tree).count .body

end Statement

/-! ## Parts of programs -/

namespace Instruction

/-- Whether the instruction calls a function. -/
def isCall : Instruction → Bool
  | call .. => true
  | label _ | target _ => false

/-- Whether the instruction places a marker. -/
def isLabel : Instruction → Bool
  | label _ => true
  | call .. | target _ => false

/-- Whether the instruction names a target. -/
def isTarget : Instruction → Bool
  | target _ => true
  | call .. | label _ => false

end Instruction

namespace Program

variable (program : Program)

/-- Whether an instruction names a local as the target. -/
def isLocalTarget : Instruction → Bool
  | .target id => (program.elements[id]?.bind Element.register?).isSome
  | .call .. | .label _ => false

/-- The name of the function at a position. -/
def functionName? (id : ElementId) : Option String :=
  program.elements[id]?.bind Element.functionName?

/-- The functions that instructions call, but for the assignments directly behind a target. -/
def callsBehind (target : Bool) : List Instruction → List String
  | [] => []
  | .label _ :: rest => callsBehind false rest
  | .target _ :: rest => callsBehind true rest
  | .call function _ :: rest =>
    if target && Decompile.isAssign program function then callsBehind false rest
    else (program.functionName? function).toList ++ callsBehind false rest

/-- The functions that a program calls, but for the assignments directly behind a target. -/
def calls : List String := program.callsBehind false program.instructions

/-- The names of the labels among instructions. -/
def labelNames (instructions : List Instruction) : List String :=
  instructions.filterMap fun i => Decompile.labelName? program (some i)

/-- Whether a label of this name opens or closes a block. -/
def isBrace (name : String) : Bool := name == blockOpen || name == blockClose

/-- Braces among names are balanced, with `depth` blocks open in front and at most `limit` open
anywhere. -/
def nests (limit depth : Nat) : List String → Bool
  | [] => depth == 0
  | name :: rest =>
    if name = blockOpen then depth < limit && nests limit (depth + 1) rest
    else if name = blockClose then 0 < depth && nests limit (depth - 1) rest
    else nests limit depth rest

/-- The parts that an instruction stands for, which may be directly behind a target. -/
def partsOf (target : Bool) : Instruction → List Part
  | .call function _ =>
    if target && Decompile.isAssign program function then []
    else callParts (program.functionName? function).toList
  | .label id =>
    match Decompile.labelName? program (some (.label id)) with
    | none => []
    | some name =>
      if name = blockOpen then [.body] else if name = blockClose then [] else [.label name]
  | .target id => if program.isLocalTarget (.target id) then [] else [.assignment]

/-- The parts that instructions stand for. -/
def partsBehind (target : Bool) : List Instruction → List Part
  | [] => []
  | i :: rest => program.partsOf target i ++ partsBehind i.isTarget rest

end Program

namespace Program

variable (program : Program)

/-! ## What the parts of instructions say -/

theorem filterMap_call?_parts (target : Bool) (instructions : List Instruction) :
    (program.partsBehind target instructions).filterMap Part.call?
      = program.callsBehind target instructions := by
  induction instructions generalizing target with
  | nil => rfl
  | cons i rest ih =>
    rw [partsBehind, List.filterMap_append, ih]
    cases i with
    | call function ids =>
      simp only [partsOf, callsBehind, Instruction.isTarget]
      split
      · rfl
      · cases program.functionName? function <;> simp [callParts, Part.call?]
    | label id =>
      simp only [partsOf, callsBehind, Instruction.isTarget]
      split
      · rfl
      · split
        · rfl
        · split <;> rfl
    | target id =>
      simp only [partsOf, callsBehind, Instruction.isTarget]
      split <;> rfl

theorem labelNames_cons (i : Instruction) (rest : List Instruction) :
    program.labelNames (i :: rest)
      = (Decompile.labelName? program (some i)).toList ++ program.labelNames rest := by
  rw [labelNames, List.filterMap_cons]
  cases Decompile.labelName? program (some i) <;> rfl

/-- An instruction places a marker, or it stands for calls or an assignment. -/
theorem partsOf_cases (target : Bool) (i : Instruction) :
    (∃ name, Decompile.labelName? program (some i) = some name ∧ program.partsOf target i
      = if name = blockOpen then [.body] else if name = blockClose then [] else [.label name])
    ∨ Decompile.labelName? program (some i) = none ∧ ((∃ calls, program.partsOf target i
      = callParts calls) ∨ program.partsOf target i = [.assignment]) := by
  cases i with
  | call function ids =>
    refine .inr ⟨rfl, .inl ?_⟩
    rw [partsOf]
    split
    · exact ⟨[], rfl⟩
    · exact ⟨_, rfl⟩
  | target id =>
    refine .inr ⟨rfl, ?_⟩
    rw [partsOf]
    split
    · exact .inl ⟨[], rfl⟩
    · exact .inr rfl
  | label id =>
    rw [partsOf]
    cases Decompile.labelName? program (some (.label id)) with
    | none => exact .inr ⟨rfl, .inl ⟨[], rfl⟩⟩
    | some name => exact .inl ⟨name, rfl, rfl⟩

theorem filterMap_label?_parts (target : Bool) (instructions : List Instruction) :
    (program.partsBehind target instructions).filterMap Part.label?
      = (program.labelNames instructions).filter fun name => !isBrace name := by
  induction instructions generalizing target with
  | nil => rfl
  | cons i rest ih =>
    rw [partsBehind, List.filterMap_append, ih, labelNames_cons, List.filter_append]
    refine congrArg (· ++ _) ?_
    obtain ⟨name, hname, hparts⟩ | ⟨hname, ⟨calls, hparts⟩ | hparts⟩ :=
      program.partsOf_cases target i
    all_goals rw [hname, hparts]
    · by_cases hopen : name = blockOpen
      · simp [hopen, Part.label?, isBrace]
      · by_cases hclose : name = blockClose <;> simp [hopen, hclose, Part.label?, isBrace]
    · simp [callParts, Part.label?, List.filterMap_eq_nil_iff]
    · rfl

theorem count_body_parts (target : Bool) (instructions : List Instruction) :
    (program.partsBehind target instructions).count .body
      = (program.labelNames instructions).count blockOpen := by
  induction instructions generalizing target with
  | nil => rfl
  | cons i rest ih =>
    rw [partsBehind, List.count_append, ih, labelNames_cons, List.count_append]
    refine congrArg (· + _) ?_
    obtain ⟨name, hname, hparts⟩ | ⟨hname, ⟨calls, hparts⟩ | hparts⟩ :=
      program.partsOf_cases target i
    all_goals rw [hname, hparts]
    · by_cases hopen : name = blockOpen
      · simp [hopen]
      · have hcount : List.count blockOpen [name] = 0 := by simp [hopen]
        rw [if_neg hopen, Option.toList_some, hcount]
        split <;> rfl
    · simp [callParts, List.count_eq_zero]
    · rfl

theorem count_assignment_parts (target : Bool) (instructions : List Instruction) :
    (program.partsBehind target instructions).count .assignment
        + instructions.countP program.isLocalTarget
      = instructions.countP Instruction.isTarget := by
  induction instructions generalizing target with
  | nil => rfl
  | cons i rest ih =>
    have hrest := ih i.isTarget
    rw [partsBehind, List.count_append, List.countP_cons, List.countP_cons, ← hrest]
    suffices hone : (program.partsOf target i).count .assignment
        + (if program.isLocalTarget i then 1 else 0) = if i.isTarget then 1 else 0 by omega
    cases i with
    | target id =>
      rw [partsOf]
      split <;> simp_all [Instruction.isTarget]
    | call function ids =>
      rw [partsOf]
      split <;> simp [callParts, isLocalTarget, Instruction.isTarget, List.count_eq_zero]
    | label id =>
      rw [partsOf]
      split
      · rfl
      · split
        · rfl
        · split <;> rfl

variable {program} {target : Bool}

theorem partsBehind_label {i : Instruction} {rest : List Instruction} {name : String}
    (h : Decompile.labelName? program (some i) = some name) (hopen : name ≠ blockOpen)
    (hclose : name ≠ blockClose) :
    program.partsBehind target (i :: rest) = .label name :: program.partsBehind false rest := by
  cases i with
  | label id => simp [partsBehind, partsOf, h, hopen, hclose, Instruction.isTarget]
  | call _ _ | target _ => simp [Decompile.labelName?] at h

theorem partsBehind_open {i : Instruction} {rest : List Instruction}
    (h : Decompile.labelName? program (some i) = some blockOpen) :
    program.partsBehind target (i :: rest) = .body :: program.partsBehind false rest := by
  cases i with
  | label id => simp [partsBehind, partsOf, h, Instruction.isTarget]
  | call _ _ | target _ => simp [Decompile.labelName?] at h

theorem partsBehind_close {i : Instruction} {rest : List Instruction}
    (h : Decompile.labelName? program (some i) = some blockClose) :
    program.partsBehind target (i :: rest) = program.partsBehind false rest := by
  have hne : blockClose ≠ blockOpen := by decide
  cases i with
  | label id => simp [partsBehind, partsOf, h, hne, Instruction.isTarget]
  | call _ _ | target _ => simp [Decompile.labelName?] at h

theorem partsBehind_call {function : ElementId} {ids : List ElementId} {rest : List Instruction}
    {name : String} (h : program.expect function = .ok (.function name)) :
    program.partsBehind false (.call function ids :: rest)
      = .call name :: program.partsBehind false rest := by
  simp [partsBehind, partsOf, functionName?, expect_eq_ok_iff.mp h, Element.functionName?,
    callParts, Instruction.isTarget]

theorem partsBehind_assign {assign id : ElementId} {ids : List ElementId}
    {rest : List Instruction} (h : Decompile.isAssign program assign = true) :
    program.partsBehind target (.target id :: .call assign ids :: rest)
      = program.partsOf false (.target id) ++ program.partsBehind false rest := by
  simp [partsBehind, partsOf, h, Instruction.isTarget]

end Program

end NovelScript
