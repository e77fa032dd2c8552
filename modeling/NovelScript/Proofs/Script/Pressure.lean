import Mathlib.Data.Set.Card
import NovelScript.Proofs.Script.LocalUse

/-!
# How many locals compiled code needs

A program asks for as many locals as hold a value at once somewhere in its code, and for no more
(`maxLocals_of_compile`).  What a local holds at a point of the code is the value of an assignment
in front of the point that is read behind it (`HeldAt`).

## Shape of the proof

Where no assignment is under way, the registers that are taken are those whose values are still to
be read (`Serves.iff_live`).  The pool gives out a register that is new only if it has no other to
give, so at some point of the code all registers are taken that it ever gives out (`Peaks`).
-/

namespace NovelScript

/-! ## What locals hold at a point -/

section

variable {code front rest : List Access} {spans : List (Nat × Nat)} {r start p k j : Nat}

/-- In front of the instruction at `p`, a local holds the value of the assignment at `start`, which
is read from there on. -/
def HeldAt (code : List Access) (p start : Nat) : Prop :=
  ∃ r stop, Assigns code r start stop ∧ stop < p ∧ ∃ k j, p ≤ k ∧ ReadsFrom code r (stop + 1) k j

/-- How many values the locals hold in front of the instruction at `p`. -/
noncomputable def heldCount (code : List Access) (p : Nat) : Nat :=
  {start | HeldAt code p start}.ncard

/-- The instruction at `p` belongs to an assignment that is under way: there is a target in front of
it, or a target and an assignment without arguments. -/
def MidAssignment (code : List Access) (p : Nat) : Prop :=
  ∃ start register, code[start]? = some (.target register)
    ∧ (p = start + 1 ∨ p = start + 2 ∧ code[start + 1]? = some (.call true []))

/-- What a local holds in front of the instruction at `p` is read from there on. -/
def Live (code : List Access) (p r : Nat) : Prop := ∃ k j, ReadsFrom code r p k j

/-- The local that is the target at a position. -/
def targetAt (code : List Access) (start : Nat) : Nat :=
  match code[start]? with
  | some (.target (some r)) => r
  | _ => 0

theorem Assigns.targetAt_eq {stop : Nat} (h : Assigns code r start stop) :
    targetAt code start = r := by
  rw [targetAt, h.1]

/-- One instruction is the last of one assignment only. -/
theorem Assigns.start_eq {start' stop : Nat} (h : Assigns code r start stop)
    (h' : Assigns code r start' stop) : start' = start := by
  obtain ⟨htarget, _, hcall, ⟨-, hstop⟩ | ⟨-, hstop, -⟩⟩ := h <;>
    obtain ⟨htarget', _, hcall', ⟨-, hstop'⟩ | ⟨-, hstop', -⟩⟩ := h'
  · omega
  · obtain rfl : start = start' + 1 := by omega
    cases hcall'.symm.trans htarget
  · obtain rfl : start' = start + 1 := by omega
    cases hcall.symm.trans htarget'
  · omega

/-- A local holds at most one value. -/
theorem HeldAt.injOn (code : List Access) (p : Nat) :
    Set.InjOn (targetAt code) {start | HeldAt code p start} := by
  rintro start ⟨r, stop, hassigns, hstop, k, j, hk, hread⟩
    start' ⟨r', stop', hassigns', hstop', k', j', hk', hread'⟩ heq
  rw [hassigns.targetAt_eq, hassigns'.targetAt_eq] at heq
  subst heq
  -- of two assignments the later would come before the value of the earlier is read
  have hle : stop' ≤ stop := by
    by_contra hlt
    have hkept := hread.kept hassigns' (by omega)
    omega
  have hge : stop ≤ stop' := by
    by_contra hlt
    have hkept := hread'.kept hassigns (by omega)
    omega
  obtain rfl := Nat.le_antisymm hle hge
  exact hassigns'.start_eq hassigns

/-- In paired code the locals that hold a value are those that are read before they are assigned
again. -/
theorem Paired.image_heldAt (h : Paired code spans) (p : Nat) :
    targetAt code '' {start | HeldAt code p start} = {r | Live code p r} := by
  ext r
  constructor
  · rintro ⟨start, ⟨r, stop, hassigns, hstop, k, j, hk, hread⟩, rfl⟩
    rw [hassigns.targetAt_eq]
    exact ⟨k, j, hread.reads, hk, fun hlater hp => hread.kept hlater (by omega)⟩
  · rintro ⟨k, j, hread⟩
    obtain ⟨start, stop, hassigns, horigin⟩ := h.origin hread.reads
    have hstop : stop < p := by
      by_contra hle
      have hkept := hread.kept hassigns (by omega)
      have hlater := horigin.later
      omega
    exact ⟨start, ⟨r, stop, hassigns, hstop, k, j, hread.later, horigin⟩, hassigns.targetAt_eq⟩

theorem Paired.heldCount_eq (h : Paired code spans) (p : Nat) :
    heldCount code p = {r | Live code p r}.ncard := by
  rw [← h.image_heldAt p, (HeldAt.injOn code p).ncard_image]
  rfl

/-! ## Between transfers -/

/-- In front of code that is served, the locals are pending that are read. -/
theorem Serves.iff_live {pending : Nat → Prop} (h : Serves pending rest) :
    pending r ↔ Live rest 0 r := by
  constructor
  · intro hr
    obtain ⟨⟨k, j⟩, hread, -⟩ := h.handed hr
    exact ⟨k, j, hread⟩
  · rintro ⟨k, j, hread⟩
    obtain ⟨hr, -⟩ | ⟨start, stop, hassigns, horigin⟩ := h.origin hread.reads
    · exact hr
    · have hkept := hread.kept hassigns (Nat.zero_le stop)
      have hlater := horigin.later
      omega

theorem live_append (hfront : Closed front) :
    Live (front ++ rest) front.length r ↔ Live rest 0 r := by
  constructor
  · rintro ⟨k, j, hread⟩
    obtain ⟨i, -, hi⟩ := (readsFrom_append_right (p := 0) hfront).mp hread
    exact ⟨i, j, hi⟩
  · rintro ⟨i, j, hi⟩
    exact ⟨_, j, (readsFrom_append_right (p := 0) hfront).mpr ⟨i, rfl, hi⟩⟩

theorem Transfer.assignment_lt {arguments : List (Option Nat)} {written register : Option Nat}
    (h : Transfer code arguments written) (htarget : code[start]? = some (.target register)) :
    start + 1 < code.length
      ∧ (code[start + 1]? = some (.call true []) → start + 2 < code.length) := by
  cases h with
  | label | call _ _ => cases start <;> simp at htarget
  | store _ _ hne =>
    match start with
    | 0 => exact ⟨by simp, fun hcall => absurd (by simpa using hcall) hne⟩
    | 1 | start + 2 => simp at htarget
  | capture _ _ _ =>
    match start with
    | 0 => exact ⟨by simp, fun _ => by simp⟩
    | 1 | 2 | start + 3 => simp at htarget

/-- An assignment that begins in code made of transfers also ends in it. -/
theorem Flows.assignment_lt {pending pending' : Nat → Prop} {register : Option Nat}
    (h : Flows pending code pending') (htarget : code[start]? = some (.target register)) :
    start + 1 < code.length
      ∧ (code[start + 1]? = some (.call true []) → start + 2 < code.length) := by
  induction h generalizing start with
  | nil _ => simp at htarget
  | @cons _ _ _ code rest _ _ htransfer _ _ _ _ _ ih =>
    rw [List.length_append]
    by_cases hstart : start < code.length
    · rw [List.getElem?_append_left hstart] at htarget
      obtain ⟨hnext, hbehind⟩ := htransfer.assignment_lt htarget
      rw [List.getElem?_append_left hnext]
      exact ⟨by omega, fun hcall => by have hlt := hbehind hcall; omega⟩
    · obtain ⟨s, rfl⟩ := Nat.exists_eq_add_of_le (Nat.le_of_not_lt hstart)
      rw [getElem?_append_length_add] at htarget
      obtain ⟨hnext, hbehind⟩ := ih htarget
      rw [Nat.add_assoc, getElem?_append_length_add]
      exact ⟨by omega, fun hcall => by have hlt := hbehind hcall; omega⟩

theorem Flows.closed {pending pending' : Nat → Prop} (h : Flows pending code pending') :
    Closed code := by
  induction h with
  | nil _ => exact Paired.nil.closed
  | cons htransfer _ _ _ _ _ ih => exact htransfer.closed.append ih

/-- Behind code made of transfers no assignment is under way. -/
theorem Flows.not_midAssignment {pending pending' : Nat → Prop} (h : Flows pending front pending') :
    ¬ MidAssignment (front ++ rest) front.length := by
  rintro ⟨start, register, htarget, hlength | ⟨hlength, hcall⟩⟩
  · rw [List.getElem?_append_left (by omega)] at htarget
    have hlt := (h.assignment_lt htarget).1
    omega
  · rw [List.getElem?_append_left (by omega)] at htarget hcall
    have hlt := (h.assignment_lt htarget).2 hcall
    omega

end

/-! ## Where the pool is full -/

namespace LocalPool

theorem lt_highWater_of_taken {pool : LocalPool} {r : Nat} (h : pool.Taken r) :
    r < pool.highWater :=
  (List.getElem?_eq_some_iff.mp h).1

theorem takeFrom_full {inUse : List Bool} (h : (takeFrom inUse).2.length ≠ inUse.length) :
    ∀ r < (takeFrom inUse).2.length, (takeFrom inUse).2[r]? = some true := by
  induction inUse with
  | nil =>
    intro r hr
    obtain rfl : r = 0 := by simpa [takeFrom] using hr
    rfl
  | cons b rest ih =>
    cases b with
    | false => simp [takeFrom] at h
    | true =>
      intro r hr
      cases r with
      | zero => rfl
      | succ r => exact ih (by simpa [takeFrom] using h) r (by simpa [takeFrom] using hr)

/-- A register that is new is given out only if all others are taken. -/
theorem taken_alloc_of_grown {pool : LocalPool} (h : pool.alloc.2.highWater ≠ pool.highWater) :
    pool.alloc.2.Taken = (· < pool.alloc.2.highWater) :=
  funext fun r => propext ⟨lt_highWater_of_taken, takeFrom_full h r⟩

end LocalPool

section

variable {code more : List Access} {pool next pool' : LocalPool}

/-- At a point of the code all registers are taken that the pool has given out by its end, unless it
has given out none that is new. -/
def Peaks (pool : LocalPool) (code : List Access) (pool' : LocalPool) : Prop :=
  pool'.highWater = pool.highWater ∨ ∃ front rest, code = front ++ rest
    ∧ Flows pool.Taken front (· < pool'.highWater) ∧ Flows (· < pool'.highWater) rest pool'.Taken

theorem Peaks.append (h : Peaks pool code next) (hcode : Flows pool.Taken code next.Taken)
    (h' : Peaks next more pool') (hmore : Flows next.Taken more pool'.Taken) :
    Peaks pool (code ++ more) pool' := by
  obtain hsame | ⟨front, rest, rfl, hfront, hrest⟩ := h'
  · obtain hsame' | ⟨front, rest, rfl, hfront, hrest⟩ := h
    · exact .inl (hsame.trans hsame')
    · rw [← hsame] at hfront hrest
      exact .inr ⟨front, rest ++ more, List.append_assoc .., hfront, hrest.append hmore⟩
  · exact .inr ⟨code ++ front, rest, (List.append_assoc ..).symm, hcode.append hfront, hrest⟩

/-- Where a register is taken that is new, all are. -/
theorem peaks_alloc {released : LocalPool} (hreleased : released.highWater = pool.highWater)
    (hcode : Flows pool.Taken code released.alloc.2.Taken) : Peaks pool code released.alloc.2 := by
  by_cases hgrown : released.alloc.2.highWater = released.highWater
  · exact .inl (hgrown.trans hreleased)
  · rw [LocalPool.taken_alloc_of_grown hgrown] at hcode
    refine .inr ⟨code, [], (List.append_nil code).symm, hcode, .nil fun r => ?_⟩
    rw [LocalPool.taken_alloc_of_grown hgrown]

end

namespace Piece

variable {piece first second : Piece} {pool : LocalPool}

/-- Somewhere in a piece all registers are taken that it needs. -/
def Peaks (piece : Piece) (pool : LocalPool) : Prop :=
  NovelScript.Peaks pool (SymbolicCode.accesses piece.code) piece.pool

theorem Peaks.append (h : first.Peaks pool) (hflows : first.Flows pool)
    (h' : second.Peaks first.pool) (hflows' : second.Flows first.pool) :
    (first.append second).Peaks pool := by
  rw [Peaks, Piece.append, SymbolicCode.accesses_append]
  exact NovelScript.Peaks.append h hflows h' hflows'

/-- What assigns the value of a piece to a register may need one more. -/
theorem Peaks.destination {code : SymbolicCode} (h : piece.Peaks pool) (hflows : piece.Flows pool)
    (hcode : NovelScript.Flows piece.pool.Taken (SymbolicCode.accesses code)
      piece.released.alloc.2.Taken) :
    Peaks ⟨piece.code ++ code, [piece.destination], piece.released.alloc.2⟩ pool := by
  rw [Peaks, SymbolicCode.accesses_append]
  exact NovelScript.Peaks.append h hflows (peaks_alloc piece.highWater_released hcode) hcode

theorem Peaks.stored (h : piece.Peaks pool) (hflows : piece.Flows pool) (htakes : piece.Takes pool)
    (hne : piece.faces ≠ []) : piece.stored.Peaks pool :=
  h.destination hflows (htakes.flows_destination (.store _ _ (by simpa using hne)))

theorem Peaks.captured (function : String) (h : piece.Peaks pool) (hflows : piece.Flows pool)
    (htakes : piece.Takes pool) : (piece.captured function).Peaks pool :=
  h.destination hflows (htakes.flows_destination (.capture _ _ _))

theorem peaks_plain (faces : List Element) : Peaks ⟨[], faces, pool⟩ pool := .inl rfl

end Piece

namespace Symbolic

section

variable (strings : StringTable)

/-! ## Expressions -/

mutual

theorem peaks_argument (pool : LocalPool) (e : Expression) (hc : e.Compilable) :
    (argument strings pool e).Peaks pool := by
  match e with
  | .operation operands operators =>
    obtain ⟨-, hlength, -, hoperands⟩ := hc
    rw [argument]
    exact (peaks_operandsOf pool operands operators hlength hoperands).stored
      (flows_operandsOf strings pool operands operators hlength hoperands)
      (operandsOf_takes strings pool operands operators)
      (operandsOf_faces_ne_nil strings pool hlength)
  | .call function arguments =>
    rw [argument]
    exact (peaks_argumentsOf pool arguments hc.2).captured function
      (flows_argumentsOf strings pool arguments hc.2) (argumentsOf_takes strings pool arguments)
  | .integer _ | .pointer _ | .text _ | .var _ | .flagPointer .. | .labelRef _ =>
    simp only [argument]
    exact Piece.peaks_plain _

theorem peaks_argumentsOf (pool : LocalPool) (arguments : List Expression)
    (hc : Expression.CompilableList arguments) :
    (argumentsOf strings pool arguments).Peaks pool := by
  match arguments with
  | [] =>
    rw [argumentsOf]
    exact Piece.peaks_plain _
  | x :: rest =>
    rw [argumentsOf]
    exact (peaks_argument pool x hc.1).append (flows_argument strings pool x hc.1)
      (peaks_argumentsOf _ rest hc.2) (flows_argumentsOf strings _ rest hc.2)

theorem peaks_operand (pool : LocalPool) (e : Expression) (hc : e.CompilableOperand) :
    (operand strings pool e).Peaks pool := by
  match e with
  | .operation operands operators =>
    obtain ⟨-, -, hlength, -, hoperands⟩ := hc
    rw [operand]
    split
    · next sign hsign =>
      obtain ⟨x, rfl, rfl, -⟩ := Compile.sign?_eq_some hsign
      rw [secondOf]
      exact peaks_argument pool x hoperands.2.1.2
    · exact (peaks_operandsOf pool operands operators hlength hoperands).stored
        (flows_operandsOf strings pool operands operators hlength hoperands)
        (operandsOf_takes strings pool operands operators)
        (operandsOf_faces_ne_nil strings pool hlength)
  | .call function arguments =>
    rw [operand]
    exact (peaks_argumentsOf pool arguments hc.2.2).captured function
      (flows_argumentsOf strings pool arguments hc.2.2) (argumentsOf_takes strings pool arguments)
  | .integer _ | .pointer _ | .text _ | .var _ | .flagPointer .. | .labelRef _ =>
    simp only [operand]
    exact Piece.peaks_plain _

theorem peaks_operandsOf (pool : LocalPool) (operands : List Expression)
    (operators : List String) (hlength : operands.length = operators.length + 1)
    (hc : Expression.CompilableOperands operands) :
    (operandsOf strings pool operands operators).Peaks pool := by
  match operands with
  | [] => simp at hlength
  | x :: rest =>
    rw [operandsOf]
    exact (peaks_operand pool x hc.1).append (flows_operand strings pool x hc.1)
      (peaks_laterOperandsOf _ rest operators (Nat.succ.inj hlength) hc.2)
      (flows_laterOperandsOf strings _ rest operators (Nat.succ.inj hlength) hc.2)

theorem peaks_laterOperandsOf (pool : LocalPool) (operands : List Expression)
    (operators : List String) (hlength : operands.length = operators.length)
    (hc : Expression.CompilableOperands operands) :
    (laterOperandsOf strings pool operands operators).Peaks pool := by
  match operands, operators with
  | [], [] =>
    simp only [laterOperandsOf]
    exact Piece.peaks_plain _
  | x :: rest, operator :: operators =>
    rw [laterOperandsOf]
    exact (peaks_operand pool x hc.1).append (flows_operand strings pool x hc.1)
      (peaks_laterOperandsOf _ rest operators (Nat.succ.inj hlength) hc.2)
      (flows_laterOperandsOf strings _ rest operators (Nat.succ.inj hlength) hc.2)

end

theorem peaks_chain (pool : LocalPool) {e : Expression} (hc : e.CompilableOperand) :
    (chain strings pool e).Peaks pool := by
  unfold chain
  split
  · obtain ⟨-, -, hlength, -, hoperands⟩ := hc
    exact peaks_operandsOf strings pool _ _ hlength hoperands
  · exact peaks_operand strings pool e hc

/-! ## Statements -/

/-- Code gives back the registers that it takes, and at some point has taken all that it needs. -/
structure Rises (pool : LocalPool) (code : SymbolicCode × LocalPool) : Prop where
  flows : Flows pool.Taken (SymbolicCode.accesses code.1) code.2.Taken
  peaks : Peaks pool (SymbolicCode.accesses code.1) code.2

variable {strings} {pool : LocalPool} {code more : SymbolicCode} {next last : LocalPool}

theorem Rises.append (h : Rises pool (code, next)) (h' : Rises next (more, last)) :
    Rises pool (code ++ more, last) where
  flows := SymbolicCode.accesses_append .. ▸ h.flows.append h'.flows
  peaks := SymbolicCode.accesses_append .. ▸ h.peaks.append h.flows h'.peaks h'.flows

/-- What reads the value of a piece needs no register of its own. -/
theorem rises_of_piece {piece : Piece} (hflows : piece.Flows pool) (htakes : piece.Takes pool)
    (hpeaks : piece.Peaks pool)
    (htransfer : Transfer (SymbolicCode.accesses code) (piece.faces.map Element.register?) none) :
    Rises pool (piece.code ++ code, piece.released) := by
  have hpiece : Rises pool (piece.code, piece.pool) := ⟨hflows, hpeaks⟩
  exact hpiece.append ⟨htakes.flows_released htransfer, .inl piece.highWater_released⟩

theorem rises_label (face : Element) : Rises pool ([.label face], pool) where
  flows := by
    refine .cons .label (by simp) (by simp) (by simp) (fun r => ?_) (.nil fun _ => Iff.rfl)
    simp
  peaks := .inl rfl

theorem Rises.braced {body : SymbolicCode × LocalPool} (h : Rises pool body) :
    Rises pool (braced body) :=
  (rises_label _).append (h.append (rises_label _))

variable (strings pool)

theorem rises_assignment (target : Target) {e : Expression} (hc : e.CompilableOperand) :
    Rises pool (assignment strings pool target e) := by
  unfold assignment
  split
  · next function arguments =>
    refine rises_of_piece (flows_argumentsOf strings pool arguments hc.2.2)
      (argumentsOf_takes strings pool arguments)
      (peaks_argumentsOf strings pool arguments hc.2.2) ?_
    rw [← register?_targetFace target]
    exact .capture _ _ _
  · refine rises_of_piece (flows_chain strings pool hc) (chain_takes strings pool e)
      (peaks_chain strings pool hc) ?_
    rw [← register?_targetFace target]
    exact .store _ _ (by simpa using chain_faces_ne_nil strings pool hc)

/-- A call behind the code of its arguments. -/
theorem rises_arguments (function : Element) {arguments : List Expression}
    (hc : Expression.CompilableList arguments) :
    Rises pool ((argumentsOf strings pool arguments).code
        ++ [.call function (argumentsOf strings pool arguments).faces],
      (argumentsOf strings pool arguments).released) :=
  rises_of_piece (flows_argumentsOf strings pool arguments hc)
    (argumentsOf_takes strings pool arguments) (peaks_argumentsOf strings pool arguments hc)
    (.call _ _)

mutual

theorem rises_statement (pool : LocalPool) (s : Statement) (hc : s.Compilable) :
    Rises pool (statement strings pool s) := by
  match s with
  | .block body => exact (rises_statements pool body hc).braced
  | .assignment target value => exact rises_assignment strings pool target hc.2
  | .call function arguments => exact rises_arguments strings pool _ hc.2
  | .bodyCall function arguments body =>
    obtain ⟨-, -, harguments, hbody⟩ := hc
    have hrises := (rises_arguments strings pool (functionFace function) harguments).append
      (rises_statements _ body hbody).braced
    rwa [List.append_assoc] at hrises
  | .conditional condition body otherwise =>
    obtain ⟨hcondition, hbody, hotherwise⟩ := hc
    have htested : Rises pool ((chain strings pool condition).code
        ++ [.call (functionFace ifFunction) (chain strings pool condition).faces],
          (chain strings pool condition).released) :=
      rises_of_piece (flows_chain strings pool hcondition) (chain_takes strings pool condition)
        (peaks_chain strings pool hcondition) (.call _ _)
    have hrises := htested.append
      ((rises_statements _ body hbody).braced.append (rises_alternative _ otherwise hotherwise))
    rw [List.append_assoc] at hrises
    rw [statement, List.append_assoc]
    exact hrises
  | .label name => exact rises_label _

theorem rises_alternative (pool : LocalPool) (otherwise : Option (List Statement))
    (hc : Statement.CompilableOption otherwise) :
    Rises pool (alternative strings pool otherwise) := by
  match otherwise with
  | none => exact ⟨.nil fun _ => Iff.rfl, .inl rfl⟩
  | some body => exact (rises_label _).append (rises_statements pool body hc).braced

theorem rises_statements (pool : LocalPool) (tree : List Statement)
    (hc : Statement.CompilableList tree) : Rises pool (statements strings pool tree) := by
  match tree with
  | [] => exact ⟨.nil fun _ => Iff.rfl, .inl rfl⟩
  | s :: rest =>
    exact (rises_statement pool s hc.2.1).append (rises_statements _ rest hc.2.2)

end

end
end Symbolic

/-! ## Compiled programs -/

section

variable {code : List Access} {pool : LocalPool} {program : Program}

/-- Code that starts and ends with no register taken has a point between assignments at which all
registers are taken that it needs. -/
theorem exists_heldCount_eq {spans : List (Nat × Nat)} (hpaired : Paired code spans)
    (hflows : Flows (LocalPool.Taken {}) code pool.Taken) (hpeaks : Peaks {} code pool)
    (hend : ∀ r, ¬ pool.Taken r) :
    ∃ p ≤ code.length, ¬ MidAssignment code p ∧ pool.highWater = heldCount code p := by
  -- before the first instruction, should no register be taken anywhere
  have hsplit : ∃ front rest,
      code = front ++ rest ∧ Closed front ∧ ¬ MidAssignment code front.length
      ∧ Serves (· < pool.highWater) rest := by
    obtain hnone | ⟨front, rest, rfl, hfront, hrest⟩ := hpeaks
    · refine ⟨[], code, rfl, Paired.nil.closed, by rintro ⟨_, _, -, h | ⟨h, -⟩⟩ <;> simp at h, ?_⟩
      have hserves := hflows.serves hend
      have hempty : LocalPool.Taken {} = (· < pool.highWater) := by
        funext r
        rw [hnone]
        simp [LocalPool.Taken, LocalPool.highWater]
      rwa [hempty] at hserves
    · exact ⟨front, rest, rfl, hfront.closed, hfront.not_midAssignment, hrest.serves hend⟩
  obtain ⟨front, rest, rfl, hclosed, hmid, hserves⟩ := hsplit
  refine ⟨front.length, by simp, hmid, ?_⟩
  have hlive : {r | Live (front ++ rest) front.length r} = Finset.range pool.highWater := by
    ext r
    rw [Finset.mem_coe, Finset.mem_range]
    exact (live_append hclosed).trans hserves.iff_live.symm
  rw [hpaired.heldCount_eq, hlive, Set.ncard_coe_finset, Finset.card_range]

theorem exists_of_access_call {k : Nat} {assigns : Bool} {arguments : List (Option Nat)}
    (h : program.accesses[k]? = some (.call assigns arguments)) :
    ∃ function ids, program.instructions[k]? = some (.call function ids)
      ∧ arguments = ids.map fun id => program.elements[id]?.bind Element.register? := by
  rw [Program.accesses, List.getElem?_map, Option.map_eq_some_iff] at h
  obtain ⟨i, hi, haccess⟩ := h
  cases i with
  | call function ids =>
    obtain ⟨-, rfl⟩ := Access.call.inj haccess
    exact ⟨function, ids, hi, rfl⟩
  | label _ | target _ => cases haccess

theorem eq_localVar_of_register? {element : Option Element} {r : Nat}
    (h : element.bind Element.register? = some r) : element = some (.localVar r) := by
  obtain ⟨e, rfl, he⟩ := Option.bind_eq_some_iff.mp h
  cases e with
  | localVar id => rw [Option.some.inj he]
  | _ => cases he

/-- A local that is read stands in the table. -/
theorem exists_localVar_of_reads {r k j : Nat} (h : Reads program.accesses r k j) :
    ∃ id : ElementId, program.elements[id]? = some (Element.localVar r) := by
  obtain ⟨assigns, arguments, hcall, hargument⟩ := h
  obtain ⟨function, ids, -, rfl⟩ := exists_of_access_call hcall
  obtain ⟨id, -, hid⟩ := Option.map_eq_some_iff.mp (List.getElem?_map ▸ hargument)
  exact ⟨id, eq_localVar_of_register? hid⟩

/-- A value that a local holds is assigned by an instruction whose target is a local. -/
theorem HeldAt.exists_target {p start : Nat} (h : HeldAt program.accesses p start) :
    ∃ (id : ElementId) (r : Nat), .target id ∈ program.instructions
      ∧ program.elements[id]? = some (Element.localVar r) := by
  obtain ⟨r, stop, ⟨htarget, -⟩, -⟩ := h
  rw [Program.accesses, List.getElem?_map, Option.map_eq_some_iff] at htarget
  obtain ⟨i, hi, haccess⟩ := htarget
  cases i with
  | target id =>
    exact ⟨id, r, List.mem_of_getElem? hi, eq_localVar_of_register? (Access.target.inj haccess)⟩
  | call _ _ | label _ => cases haccess

end

/-- A compiled program asks for as many locals as hold a value at once at some point of its code
between assignments, and for none if its code has no locals. -/
theorem maxLocals_of_compile {strings : Option StringTable} {tree : List Statement}
    {program : Program} (h : (compile strings tree).result = .ok program) :
    IsGreatest {n | ∃ p ≤ program.accesses.length, ¬ MidAssignment program.accesses p
        ∧ n = heldCount program.accesses p} program.maxLocals
      ∧ ((∀ i ∈ program.instructions, ∀ id ∈ i.references, ∀ r,
          program.elements[id]? ≠ some (Element.localVar r)) → program.maxLocals = 0) := by
  obtain ⟨hspells, hlocals, hcompilable⟩ := spells_of_compile h
  have haccesses := accesses_of_spells hspells
  have hempty (r : Nat) : ¬ LocalPool.Taken {} r := by simp [LocalPool.Taken]
  have hpaired := Symbolic.paired_statements (strings.getD .empty) hempty tree hcompilable
  obtain ⟨hflows, hpeaks⟩ := Symbolic.rises_statements (strings.getD .empty) {} tree hcompilable
  have hpeak := exists_heldCount_eq hpaired hflows hpeaks fun r hr =>
    hempty r (((Symbolic.statements_returns _ _ tree).taken r).mp hr)
  rw [SymbolicCode.accesses, ← haccesses, ← hlocals] at hpeak
  rw [SymbolicCode.accesses, ← haccesses] at hpaired
  refine ⟨⟨hpeak, ?_⟩, fun hnone => ?_⟩
  · rintro n ⟨p, -, -, rfl⟩
    have hlow : {r | Live program.accesses p r} ⊆ Finset.range program.maxLocals := by
      rintro r ⟨k, j, hread⟩
      obtain ⟨id, hid⟩ := exists_localVar_of_reads hread.reads
      exact Finset.mem_coe.mpr (Finset.mem_range.mpr (register_lt_of_compile h hid))
    have hle := Set.ncard_le_ncard hlow (Finset.finite_toSet _)
    rwa [Set.ncard_coe_finset, Finset.card_range, ← hpaired.heldCount_eq] at hle
  · obtain ⟨p, -, -, hcount⟩ := hpeak
    have hheld : {start | HeldAt program.accesses p start} = ∅ := by
      refine Set.eq_empty_of_forall_notMem fun start hheld => ?_
      obtain ⟨id, r, htarget, hid⟩ := hheld.exists_target
      exact hnone _ htarget id (by simp [Instruction.references]) r hid
    rw [hcount, heldCount, hheld, Set.ncard_empty]

theorem maxLocals_of_compile_nestedChains :
    ∃ program, (compile none nestedChains).result = .ok program ∧ program.maxLocals = 3
      ∧ IsGreatest {n | ∃ p ≤ program.accesses.length, ¬ MidAssignment program.accesses p
        ∧ n = heldCount program.accesses p} 3 := by
  have hthree : (compile none nestedChains).result.toOption.map (·.maxLocals) = some 3 := by
    decide +kernel
  cases hresult : (compile none nestedChains).result with
  | error e => simp [hresult, Except.toOption] at hthree
  | ok program =>
    have hthree : program.maxLocals = 3 := by simpa [hresult, Except.toOption] using hthree
    exact ⟨program, rfl, hthree, hthree ▸ (maxLocals_of_compile hresult).1⟩

end NovelScript
