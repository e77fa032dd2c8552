import NovelScript.Proofs.Script.Symbolic

/-!
# How symbolic code uses registers and labels

The code of an expression takes exactly the registers that its value is read from, and they were
free before (`Piece.Takes`); once they are given back the pool is as it was.  So a statement leaves
no register taken (`Symbolic.statements_returns`).  Expressions place no label, so that the code of
a statement starts with one only if the statement is a block or a label
(`Symbolic.leadingLabel?_statement`).
-/

namespace NovelScript

/-- Whether an instruction places a label. -/
def SymbolicInstruction.isLabel : SymbolicInstruction → Bool
  | label _ => true
  | call .. | target _ => false

namespace Piece

/-! ## Pieces -/

/-- A piece takes the registers that its value is read from, which were free, and no others; it
places no label. -/
structure Takes (piece : Piece) (pool : LocalPool) : Prop where
  free : ∀ r ∈ registers piece.faces, ¬ pool.Taken r
  nodup : (registers piece.faces).Nodup
  taken : ∀ r, piece.pool.Taken r ↔ pool.Taken r ∨ r ∈ registers piece.faces
  highWater : pool.highWater ≤ piece.pool.highWater
  unlabelled : ∀ i ∈ piece.code, i.isLabel = false

variable {piece first second : Piece} {pool : LocalPool}

/-- Elements other than registers take none. -/
theorem takes_plain {faces : List Element} (h : registers faces = []) :
    Takes ⟨[], faces, pool⟩ pool where
  free := by simp [h]
  nodup := by simp [h]
  taken := by simp [h]
  highWater := Nat.le_refl _
  unlabelled := by simp

theorem Takes.append (h₁ : first.Takes pool) (h₂ : second.Takes first.pool) :
    (first.append second).Takes pool where
  free r hr := by
    rw [Piece.append, registers_append, List.mem_append] at hr
    rcases hr with hr | hr
    · exact h₁.free r hr
    · exact fun ht => h₂.free r hr ((h₁.taken r).mpr (.inl ht))
  nodup := by
    rw [Piece.append, registers_append, List.nodup_append]
    refine ⟨h₁.nodup, h₂.nodup, ?_⟩
    rintro r hr _ hr' rfl
    exact h₂.free r hr' ((h₁.taken r).mpr (.inr hr))
  taken r := by
    rw [Piece.append, registers_append, List.mem_append, h₂.taken, h₁.taken, or_assoc]
  highWater := Nat.le_trans h₁.highWater h₂.highWater
  unlabelled i hi := (List.mem_append.mp hi).elim (h₁.unlabelled i) (h₂.unlabelled i)

/-- A marker in front takes no register. -/
theorem Takes.marked (name : String) (h : piece.Takes pool) :
    Takes ⟨piece.code, markerFace name :: piece.faces, piece.pool⟩ pool :=
  { h with }

/-- With its value read, a piece has taken nothing. -/
theorem Takes.taken_released (h : piece.Takes pool) (r : Nat) :
    piece.released.Taken r ↔ pool.Taken r := by
  rw [released, LocalPool.taken_freeAll, h.taken]
  constructor
  · rintro ⟨hr, ht | hr'⟩
    · exact ht
    · exact absurd hr' hr
  · exact fun ht => ⟨fun hr => h.free r hr ht, .inl ht⟩

theorem highWater_released (piece : Piece) : piece.released.highWater = piece.pool.highWater :=
  LocalPool.highWater_freeAll _ _

theorem highWater_le_released_alloc (piece : Piece) :
    piece.pool.highWater ≤ piece.released.alloc.2.highWater :=
  piece.highWater_released ▸ piece.released.highWater_le_alloc

/-- The register that receives a value is free, and it is what is taken for it. -/
theorem Takes.destination (h : piece.Takes pool) {code : SymbolicCode}
    (hcode : ∀ i ∈ code, i.isLabel = false) :
    Takes ⟨piece.code ++ code, [piece.destination], piece.released.alloc.2⟩ pool where
  free r hr := by
    obtain rfl : r = piece.released.alloc.1 := by simpa [Piece.destination] using hr
    exact fun ht => piece.released.not_taken_alloc ((h.taken_released _).mpr ht)
  nodup := by simp [Piece.destination]
  taken r := by simp [Piece.destination, h.taken_released, or_comm]
  highWater := Nat.le_trans h.highWater piece.highWater_le_released_alloc
  unlabelled i hi := (List.mem_append.mp hi).elim (h.unlabelled i) (hcode i)

theorem Takes.stored (h : piece.Takes pool) : piece.stored.Takes pool :=
  h.destination (by simp [SymbolicInstruction.isLabel])

theorem Takes.captured (function : String) (h : piece.Takes pool) :
    (piece.captured function).Takes pool :=
  h.destination (by simp [SymbolicInstruction.isLabel])

end Piece

namespace Symbolic

/-! ## Expressions -/

theorem registers_variableFace (pointer : Bool) (which : Variable) :
    registers [variableFace pointer which] = [] := by
  cases which with
  | special name => rfl
  | flag kind id => cases kind <;> rfl

theorem registers_simpleFace (strings : StringTable) (e : Expression) :
    registers [simpleFace strings e] = [] := by
  cases e with
  | var which => exact registers_variableFace false which
  | flagPointer kind id => exact registers_variableFace true (.flag kind id)
  | _ => rfl

mutual

theorem argument_takes (strings : StringTable) (pool : LocalPool) (e : Expression) :
    (argument strings pool e).Takes pool := by
  match e with
  | .operation operands operators =>
    rw [argument]
    exact (operandsOf_takes strings pool operands operators).stored
  | .call function arguments =>
    rw [argument]
    exact (argumentsOf_takes strings pool arguments).captured function
  | .integer _ | .pointer _ | .text _ | .var _ | .flagPointer .. | .labelRef _ =>
    simp only [argument]
    exact Piece.takes_plain (registers_simpleFace strings _)

theorem argumentsOf_takes (strings : StringTable) (pool : LocalPool)
    (arguments : List Expression) : (argumentsOf strings pool arguments).Takes pool := by
  match arguments with
  | [] =>
    rw [argumentsOf]
    exact Piece.takes_plain rfl
  | x :: rest =>
    rw [argumentsOf]
    exact (argument_takes strings pool x).append (argumentsOf_takes strings _ rest)

theorem operand_takes (strings : StringTable) (pool : LocalPool) (e : Expression) :
    (operand strings pool e).Takes pool := by
  match e with
  | .operation operands operators =>
    rw [operand]
    split
    · rename_i sign _
      exact (secondOf_takes strings pool operands).marked sign
    · exact (operandsOf_takes strings pool operands operators).stored
  | .call function arguments =>
    rw [operand]
    exact (argumentsOf_takes strings pool arguments).captured function
  | .integer _ | .pointer _ | .text _ | .var _ | .flagPointer .. | .labelRef _ =>
    simp only [operand]
    exact Piece.takes_plain (registers_simpleFace strings _)

theorem secondOf_takes (strings : StringTable) (pool : LocalPool) (operands : List Expression) :
    (secondOf strings pool operands).Takes pool := by
  match operands with
  | _ :: x :: _ =>
    rw [secondOf]
    exact argument_takes strings pool x
  | [] | [_] =>
    simp only [secondOf]
    exact Piece.takes_plain rfl

theorem operandsOf_takes (strings : StringTable) (pool : LocalPool) (operands : List Expression)
    (operators : List String) : (operandsOf strings pool operands operators).Takes pool := by
  match operands with
  | [] =>
    rw [operandsOf]
    exact Piece.takes_plain rfl
  | x :: rest =>
    rw [operandsOf]
    exact (operand_takes strings pool x).append (laterOperandsOf_takes strings _ rest operators)

theorem laterOperandsOf_takes (strings : StringTable) (pool : LocalPool)
    (operands : List Expression) (operators : List String) :
    (laterOperandsOf strings pool operands operators).Takes pool := by
  match operands, operators with
  | x :: rest, operator :: operators =>
    rw [laterOperandsOf]
    exact ((operand_takes strings pool x).append
      (laterOperandsOf_takes strings _ rest operators)).marked operator
  | [], _ | _ :: _, [] =>
    simp only [laterOperandsOf]
    exact Piece.takes_plain rfl

end

theorem chain_takes (strings : StringTable) (pool : LocalPool) (e : Expression) :
    (chain strings pool e).Takes pool := by
  unfold chain
  split
  · exact operandsOf_takes strings pool _ _
  · exact operand_takes strings pool e

/-! ## Statements -/

/-- Afterwards the same registers are taken as before. -/
structure Returns (pool pool' : LocalPool) : Prop where
  taken : ∀ r, pool'.Taken r ↔ pool.Taken r
  highWater : pool.highWater ≤ pool'.highWater

theorem Returns.refl (pool : LocalPool) : Returns pool pool := ⟨fun _ => Iff.rfl, Nat.le_refl _⟩

theorem Returns.trans {pool pool' pool'' : LocalPool} (h₁ : Returns pool pool')
    (h₂ : Returns pool' pool'') : Returns pool pool'' :=
  ⟨fun r => (h₂.taken r).trans (h₁.taken r), Nat.le_trans h₁.highWater h₂.highWater⟩

theorem Returns.of_takes {piece : Piece} {pool : LocalPool} (h : piece.Takes pool) :
    Returns pool piece.released :=
  ⟨h.taken_released, piece.highWater_released ▸ h.highWater⟩

theorem assignment_returns (strings : StringTable) (pool : LocalPool) (target : Target)
    (e : Expression) : Returns pool (assignment strings pool target e).2 := by
  unfold assignment
  split
  · exact .of_takes (argumentsOf_takes strings pool _)
  · exact .of_takes (chain_takes strings pool e)

mutual

theorem statement_returns (strings : StringTable) (pool : LocalPool) (s : Statement) :
    Returns pool (statement strings pool s).2 := by
  match s with
  | .block body => exact statements_returns strings pool body
  | .assignment target value => exact assignment_returns strings pool target value
  | .call _ arguments => exact .of_takes (argumentsOf_takes strings pool arguments)
  | .bodyCall _ arguments body =>
    exact (Returns.of_takes (argumentsOf_takes strings pool arguments)).trans
      (statements_returns strings _ body)
  | .conditional condition body otherwise =>
    exact (Returns.of_takes (chain_takes strings pool condition)).trans
      ((statements_returns strings _ body).trans (alternative_returns strings _ otherwise))
  | .label _ => exact .refl pool

theorem alternative_returns (strings : StringTable) (pool : LocalPool)
    (otherwise : Option (List Statement)) :
    Returns pool (alternative strings pool otherwise).2 := by
  match otherwise with
  | none => exact .refl pool
  | some body => exact statements_returns strings pool body

/-- Statements give back every register that they take. -/
theorem statements_returns (strings : StringTable) (pool : LocalPool) (tree : List Statement) :
    Returns pool (statements strings pool tree).2 := by
  match tree with
  | [] => exact .refl pool
  | s :: rest =>
    exact (statement_returns strings pool s).trans (statements_returns strings _ rest)

end

/-! ## Labels -/

/-- The label that code starts with. -/
def leadingLabel? : SymbolicCode → Option Element
  | .label marker :: _ => some marker
  | _ => none

/-- The label that the code of a statement starts with. -/
def openingLabel? : Statement → Option Element
  | .block _ => some (markerFace blockOpen)
  | .label name => some (markerFace name)
  | _ => none

theorem leadingLabel?_of_unlabelled {i : SymbolicInstruction} {code more : SymbolicCode}
    (hcode : ∀ j ∈ code, j.isLabel = false) (hi : i.isLabel = false) :
    leadingLabel? (code ++ i :: more) = none := by
  cases code with
  | nil => cases i <;> first | rfl | simp [SymbolicInstruction.isLabel] at hi
  | cons j code =>
    have hj := hcode j List.mem_cons_self
    cases j <;> first | rfl | simp [SymbolicInstruction.isLabel] at hj

theorem leadingLabel?_assignment (strings : StringTable) (pool : LocalPool) (target : Target)
    (e : Expression) (more : SymbolicCode) :
    leadingLabel? ((assignment strings pool target e).1 ++ more) = none := by
  unfold assignment
  split
  · rw [List.append_assoc]
    exact leadingLabel?_of_unlabelled (argumentsOf_takes strings pool _).unlabelled rfl
  · rw [List.append_assoc]
    exact leadingLabel?_of_unlabelled (chain_takes strings pool e).unlabelled rfl

/-- Only a block or a label starts with a label. -/
theorem leadingLabel?_statement (strings : StringTable) (pool : LocalPool) (s : Statement)
    (more : SymbolicCode) :
    leadingLabel? ((statement strings pool s).1 ++ more) = openingLabel? s := by
  cases s with
  | block _ | label _ => rfl
  | assignment target value => exact leadingLabel?_assignment strings pool target value more
  | call _ arguments =>
    rw [statement, List.append_assoc]
    exact leadingLabel?_of_unlabelled (argumentsOf_takes strings pool arguments).unlabelled rfl
  | bodyCall _ arguments _ =>
    rw [statement, List.append_assoc]
    exact leadingLabel?_of_unlabelled (argumentsOf_takes strings pool arguments).unlabelled rfl
  | conditional condition _ _ =>
    simp only [statement, List.append_assoc, List.cons_append]
    exact leadingLabel?_of_unlabelled (chain_takes strings pool condition).unlabelled rfl

end Symbolic
end NovelScript
