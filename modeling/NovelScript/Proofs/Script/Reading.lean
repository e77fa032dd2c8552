import NovelScript.Proofs.Script.Denotation

/-!
# The decompiler reads the code of expressions

Read from locals that hold what the registers taken so far stand for (`Covers`), the code of an
expression leaves its value in the elements that it is read from, and keeps what was held before
(`Delivers`).  The value has its texts put back, and then moved out as the rules ask for it.

## Shape of the proof

What a piece of code does is said of the walk behind it (`Performs`): whatever holds of the walk
that goes on behind the code, with the statements made and the locals as they are then, holds of the
walk from the code on.  The induction follows the tree.
-/

namespace NovelScript

/-- Symbolic code in two parts is spelled by instructions in two parts. -/
theorem SpellsAll.append_iff {elements : Array Element} {instructions : List Instruction}
    {code more : SymbolicCode} :
    SpellsAll elements instructions (code ++ more) ↔ ∃ first second,
      instructions = first ++ second ∧ SpellsAll elements first code
        ∧ SpellsAll elements second more := by
  constructor
  · intro h
    induction code generalizing instructions with
    | nil => exact ⟨[], instructions, rfl, .nil, h⟩
    | cons s code ih =>
      obtain ⟨i, rest, hi, hrest, rfl⟩ := List.forall₂_cons_right_iff.mp h
      obtain ⟨first, second, rfl, hfirst, hsecond⟩ := ih hrest
      exact ⟨i :: first, second, rfl, .cons hi hfirst, hsecond⟩
  · rintro ⟨first, second, rfl, hfirst, hsecond⟩
    exact List.rel_append hfirst hsecond

theorem SpellsAll.of_target {elements : Array Element} {instructions : List Instruction}
    {face : Element} {code : SymbolicCode}
    (h : SpellsAll elements instructions (.target face :: code)) :
    ∃ id rest, instructions = .target id :: rest ∧ faceAt elements id = some face
      ∧ SpellsAll elements rest code := by
  obtain ⟨i, rest, hi, hrest, rfl⟩ := List.forall₂_cons_right_iff.mp h
  cases i with
  | target id => exact ⟨id, rest, rfl, hi, hrest⟩
  | call _ _ | label _ => exact hi.elim

theorem SpellsAll.of_label {elements : Array Element} {instructions : List Instruction}
    {face : Element} {code : SymbolicCode}
    (h : SpellsAll elements instructions (.label face :: code)) :
    ∃ id rest, instructions = .label id :: rest ∧ faceAt elements id = some face
      ∧ SpellsAll elements rest code := by
  obtain ⟨i, rest, hi, hrest, rfl⟩ := List.forall₂_cons_right_iff.mp h
  cases i with
  | label id => exact ⟨id, rest, rfl, hi, hrest⟩
  | call _ _ | target _ => exact hi.elim

theorem SpellsAll.of_call {elements : Array Element} {instructions : List Instruction}
    {face : Element} {faces : List Element} {code : SymbolicCode}
    (h : SpellsAll elements instructions (.call face faces :: code)) :
    ∃ id ids rest, instructions = .call id ids :: rest ∧ faceAt elements id = some face
      ∧ ids.map (faceAt elements) = faces.map some ∧ SpellsAll elements rest code := by
  obtain ⟨i, rest, hi, hrest, rfl⟩ := List.forall₂_cons_right_iff.mp h
  cases i with
  | call id ids => exact ⟨id, ids, rest, rfl, hi.1, hi.2, hrest⟩
  | label _ | target _ => exact hi.elim

namespace Decompile

variable {rules : Option ExternalizeRules} {program : Program} {st : DecompileState}
  {Q : List Statement → DecompileState → Prop} {at_ : Nat} {frames : List Frame}
  {current : List Statement} {rest : List Instruction} {table table₁ table₂ : Option StringTable}

/-- Where code stands: the failures that are allowed from there on, the open blocks around it and
the instructions behind it. -/
abbrev Setting := (ScriptError → DecompileState → Prop) → List Frame → List Instruction → Prop

/-- From the locals `held` and the string table `table` the code makes the statements `made` and
leaves the locals `held'` and the table `table'`, wherever it is `fit` to stand. -/
def Performs (rules : Option ExternalizeRules) (program : Program) (fit : Setting)
    (code : SymbolicCode) (held : HeldLocals) (table : Option StringTable) (made : List Statement)
    (held' : HeldLocals) (table' : Option StringTable) : Prop :=
  ∀ ⦃instructions : List Instruction⦄, SpellsAll program.elements instructions code →
    ∀ (at_ : Nat) (frames : List Frame) (current : List Statement) (rest : List Instruction)
      (st : DecompileState) (Q : List Statement → DecompileState → Prop)
      (E : ScriptError → DecompileState → Prop), fit E frames rest →
      (∀ at', Ends (walk rules program at' frames (current ++ made) rest)
        { st with locals := held', strings := table' } Q E) →
      Ends (walk rules program at_ frames current (instructions ++ rest))
        { st with locals := held, strings := table } Q E

/-- Any surroundings. -/
def anywhere : Setting := fun _ _ _ => True

theorem performs_nil (rules : Option ExternalizeRules) (program : Program) (held : HeldLocals)
    (table : Option StringTable) : Performs rules program anywhere [] held table [] held table := by
  rintro _ h at_ frames current rest st Q E - hrest
  cases h
  simpa using hrest at_

theorem Performs.append {fit fit₁ fit₂ : Setting} {code more : SymbolicCode}
    {held held₁ held₂ : HeldLocals} {made made' : List Statement}
    (h₁ : Performs rules program fit₁ code held table made held₁ table₁)
    (h₂ : Performs rules program fit₂ more held₁ table₁ made' held₂ table₂)
    (hfit₁ : ∀ E frames rest second, fit E frames rest →
      SpellsAll program.elements second more → fit₁ E frames (second ++ rest))
    (hfit₂ : ∀ E frames rest, fit E frames rest → fit₂ E frames rest) :
    Performs rules program fit (code ++ more) held table (made ++ made') held₂ table₂ := by
  intro instructions hspell at_ frames current rest st Q E hfit hrest
  obtain ⟨first, second, rfl, hfirst, hsecond⟩ := SpellsAll.append_iff.mp hspell
  rw [List.append_assoc]
  refine h₁ hfirst at_ frames current _ st Q E (hfit₁ _ _ _ _ hfit hsecond) fun at₁ => ?_
  refine h₂ hsecond at₁ frames _ rest st Q E (hfit₂ _ _ _ hfit) fun at₂ => ?_
  rw [List.append_assoc]
  exact hrest at₂

theorem Performs.behind {fit : Setting} {code more : SymbolicCode}
    {held held₁ held₂ : HeldLocals} {made : List Statement}
    (h₁ : Performs rules program anywhere code held table [] held₁ table₁)
    (h₂ : Performs rules program fit more held₁ table₁ made held₂ table₂) :
    Performs rules program fit (code ++ more) held table made held₂ table₂ :=
  h₁.append h₂ (fun _ _ _ _ _ _ => trivial) fun _ _ _ => id

/-! ## Assignments -/

/-- Storing a value in the element makes these statements and leaves these locals. -/
def Stores (program : Program) (face : Element) (x : Expression) (held : HeldLocals)
    (made : List Statement) (held' : HeldLocals) : Prop :=
  ∀ (at_ : Nat) (st : DecompileState), Ends (store program at_ face x) { st with locals := held }
    (fun m st' => m = made ∧ st' = { st with locals := held' }) noFailure

theorem stores_local {r : Nat} {x : Expression} {held : HeldLocals} (hr : r < program.maxLocals)
    (hfree : ¬ held.Pending r) :
    Stores program (.localVar r) x held [] (held.set r (some x)) := by
  intro at_ st
  have hnone : (held.get? r).any (·.isSome) = false := by
    rcases h : held.get? r with _ | (_ | y)
    · rfl
    · rfl
    · exact absurd ⟨y, h⟩ hfree
  simp only [store, Nat.not_le.mpr hr, if_false, ends_bind, ends_get, ends_modify, ends_pure,
    hnone, Bool.false_eq_true]
  exact ⟨trivial, trivial⟩

theorem target_targetFace {dest : Target} (h : dest.Compilable) :
    target (Symbolic.targetFace dest) = .ok dest := by
  cases dest with
  | pointer value => rfl
  | flagPointer kind id => exact target_variableFace _ h
  | var which =>
    cases which with
    | special name => rfl
    | flag kind id => exact target_variableFace _ h

theorem marker?_variableFace (pointer : Bool) (which : Variable) :
    (Symbolic.variableFace pointer which).marker? = none := by
  cases which with
  | special name => rfl
  | flag kind id => cases kind <;> rfl

theorem marker?_targetFace (dest : Target) : (Symbolic.targetFace dest).marker? = none := by
  cases dest with
  | var which => exact marker?_variableFace false which
  | flagPointer kind id => exact marker?_variableFace true (.flag kind id)
  | pointer value => rfl

theorem stores_target {dest : Target} (h : dest.Compilable) (x : Expression) (held : HeldLocals) :
    Stores program (Symbolic.targetFace dest) x held [.assignment dest x] held := by
  intro at_ st
  have ht := target_targetFace h
  have hr : registers [Symbolic.targetFace dest] = [] := by
    cases dest with
    | var which => exact Symbolic.registers_variableFace false which
    | flagPointer kind id => exact Symbolic.registers_variableFace true (.flag kind id)
    | pointer value => rfl
  rw [store]
  · rw [ht]
    exact ⟨rfl, rfl⟩
  · rintro r hface
    rw [hface] at hr
    simp at hr

theorem isAssign_of_face {id : ElementId}
    (h : faceAt program.elements id = some (functionFace assignFunction)) :
    isAssign program id = true := by
  rw [isAssign, getElem?_of_faceAt h rfl]
  simp [functionFace]

theorem ends_functionName {id : ElementId} {name : String}
    (h : faceAt program.elements id = some (functionFace name))
    {Q : String → DecompileState → Prop} {E : ScriptError → DecompileState → Prop} :
    Ends (functionName program id) st Q E ↔ Q name st := by
  rw [functionName, ends_bind, ends_expect (getElem?_of_faceAt h rfl)]
  exact Iff.rfl

/-- A chain is read and stored. -/
theorem performs_assign {face : Element} {faces : List Element} {x : Expression}
    {held held' : HeldLocals} {made : List Statement} (hface : face.marker? = none)
    (h : DenotesChain held faces x) (hnodup : (registers faces).Nodup)
    (hstore : Stores program face x (held.takeAll (registers faces)) made held') :
    Performs rules program anywhere [.target face, .call (functionFace assignFunction) faces] held
      table made held' table := by
  rintro instructions hspell at_ frames current rest st Q E - hrest
  obtain ⟨id, _, rfl, hid, hspell₁⟩ := hspell.of_target
  obtain ⟨assign, ids, _, rfl, hassign, hids, hspell₂⟩ := hspell₁.of_call
  cases hspell₂
  have hne : ids.isEmpty = false := by
    cases ids with
    | nil => exact absurd (by simpa using hids.symm) h.ne_nil
    | cons _ _ => rfl
  simp only [List.cons_append, List.nil_append, walk, isAssign_of_face hassign, hne, ends_bind,
    ends_expect (getElem?_of_faceAt hid hface), Bool.not_true, Bool.false_eq_true, if_false]
  have hread : Reads (chain program ids) { st with locals := held, strings := table } x
      (registers faces) := reads_chain hids h hnodup
  refine hread.ends ((hstore at_ { st with strings := table }).imp ?_).of_noFailure
  rintro _ _ ⟨rfl, rfl⟩
  exact hrest _

/-- The answer of a call is read and stored. -/
theorem performs_capture {name : String} {face : Element} {faces : List Element}
    {xs : List Expression} {held held' : HeldLocals} {made : List Statement}
    (hface : face.marker? = none) (h : DenotesAll held faces xs)
    (hnodup : (registers faces).Nodup)
    (hstore : Stores program face (.call name (Expression.moveArguments rules name xs table).1)
      (held.takeAll (registers faces)) made held') :
    Performs rules program anywhere [.target face, .call (functionFace assignFunction) [],
      .call (functionFace name) faces] held table made held'
      (Expression.moveArguments rules name xs table).2 := by
  rintro instructions hspell at_ frames current rest st Q E - hrest
  obtain ⟨id, _, rfl, hid, hspell₁⟩ := hspell.of_target
  obtain ⟨assign, none_, _, rfl, hassign, hnone, hspell₂⟩ := hspell₁.of_call
  obtain ⟨function, ids, _, rfl, hfunction, hids, hspell₃⟩ := hspell₂.of_call
  cases hspell₃
  obtain rfl : none_ = [] := by simpa using hnone
  simp only [List.cons_append, List.nil_append, walk, isAssign_of_face hassign, ends_bind,
    ends_expect (getElem?_of_faceAt hid hface), Bool.not_true, Bool.false_eq_true, if_false,
    List.isEmpty_nil, if_true, ends_functionName hfunction]
  refine (reads_arguments rules hids h hnodup).ends
    ((hstore at_ { st with strings := _ }).imp ?_).of_noFailure
  rintro _ _ ⟨rfl, rfl⟩
  exact hrest _

/-! ## Values in registers -/

/-- Values are pending in registers that are taken, and in no others. -/
structure Covers (pool : LocalPool) (held : HeldLocals) : Prop where
  distinct : held.Distinct
  taken : ∀ r, held.Pending r → pool.Taken r

/-- The code of a piece makes no statement and keeps what the registers taken before hold. -/
structure Delivers (rules : Option ExternalizeRules) (program : Program) (piece : Piece)
    (pool : LocalPool) (held : HeldLocals) (table : Option StringTable) (held' : HeldLocals)
    (table' : Option StringTable) : Prop where
  performs : Performs rules program anywhere piece.code held table [] held' table'
  covers : Covers piece.pool held'
  kept : ∀ r, pool.Taken r → held'.get? r = held.get? r

variable {pool : LocalPool} {piece first second : Piece} {held held₁ held₂ : HeldLocals}

/-- Once the value of a piece has been read, its registers are free. -/
theorem Covers.released (h : Covers piece.pool held) :
    Covers piece.released (held.takeAll (registers piece.faces)) := by
  refine ⟨h.distinct.takeAll _, fun r hp => ?_⟩
  rw [HeldLocals.pending_takeAll] at hp
  rw [Piece.released, LocalPool.taken_freeAll]
  exact ⟨hp.1, h.taken r hp.2⟩

theorem delivers_plain (rules : Option ExternalizeRules) (program : Program)
    (table : Option StringTable) (faces : List Element) (h : Covers pool held) :
    Delivers rules program ⟨[], faces, pool⟩ pool held table held table :=
  ⟨performs_nil rules program held table, h, fun _ _ => rfl⟩

/-- Later code keeps what an earlier piece delivered. -/
theorem Delivers.agree (h : Delivers rules program second first.pool held₁ table₁ held₂ table₂)
    (ht : first.Takes pool) : Agree held₁ held₂ (registers first.faces) :=
  fun r hr => h.kept r ((ht.taken r).mpr (.inr hr))

theorem Delivers.append (h₁ : Delivers rules program first pool held table held₁ table₁)
    (ht : first.Takes pool)
    (h₂ : Delivers rules program second first.pool held₁ table₁ held₂ table₂) :
    Delivers rules program (first.append second) pool held table held₂ table₂ where
  performs := h₁.performs.behind h₂.performs
  covers := h₂.covers
  kept r hr := (h₂.kept r ((ht.taken r).mpr (.inl hr))).trans (h₁.kept r hr)

/-- The register that receives a value holds nothing. -/
theorem Covers.not_pending_destination (h : Covers piece.pool held) :
    ¬ (held.takeAll (registers piece.faces)).Pending piece.released.alloc.1 :=
  fun hp => piece.released.not_taken_alloc (h.released.taken _ hp)

/-- A value read from a piece goes into a register of its own. -/
theorem Delivers.destination (h : Delivers rules program piece pool held table held₁ table₁)
    (ht : piece.Takes pool) {code : SymbolicCode} {x : Expression}
    (hcode : Performs rules program anywhere code held₁ table₁ []
      ((held₁.takeAll (registers piece.faces)).set piece.released.alloc.1 (some x)) table₂) :
    Delivers rules program ⟨piece.code ++ code, [piece.destination], piece.released.alloc.2⟩ pool
      held table ((held₁.takeAll (registers piece.faces)).set piece.released.alloc.1 (some x))
      table₂ where
  performs := h.performs.behind hcode
  covers := by
    refine ⟨h.covers.released.distinct.set _ _, fun r hp => ?_⟩
    rw [LocalPool.taken_alloc]
    by_cases hr : r = piece.released.alloc.1
    · exact .inl hr
    · obtain ⟨y, hy⟩ := hp
      rw [HeldLocals.get?_set, if_neg hr] at hy
      exact .inr (h.covers.released.taken r ⟨y, hy⟩)
  kept r hr := by
    -- a register taken before is neither the new one nor one that was read
    have hne : r ≠ piece.released.alloc.1 := by
      rintro rfl
      exact piece.released.not_taken_alloc ((ht.taken_released _).mpr hr)
    have hfree : r ∉ registers piece.faces := fun hmem => ht.free r hmem hr
    rw [HeldLocals.get?_set, if_neg hne, HeldLocals.get?_takeAll, if_neg hfree, h.kept r hr]

theorem destination_lt (h : piece.released.alloc.2.highWater ≤ program.maxLocals) :
    piece.released.alloc.1 < program.maxLocals :=
  Nat.lt_of_lt_of_le (LocalPool.alloc_lt _) h

/-- The pieces deliver this value in a single element, and leave this string table. -/
structure DeliversOne (rules : Option ExternalizeRules) (program : Program) (piece : Piece)
    (pool : LocalPool) (held : HeldLocals) (table : Option StringTable)
    (moved : Expression × Option StringTable) (held' : HeldLocals) (face : Element) : Prop
    extends Delivers rules program piece pool held table held' moved.2 where
  faces : piece.faces = [face]
  denotes : Denotes held' face moved.1
  plain : moved.1.isLabelRef = false → face.marker? = none

theorem Delivers.stored {x : Expression}
    (h : Delivers rules program piece pool held table held₁ table₁) (ht : piece.Takes pool)
    (hx : DenotesChain held₁ piece.faces x) (htext : x.isText = false)
    (hroom : piece.stored.pool.highWater ≤ program.maxLocals) :
    ∃ held', DeliversOne rules program piece.stored pool held table (x, table₁) held'
      piece.destination := by
  refine ⟨_, h.destination ht (x := x) ?_, rfl, .held (by simp) htext, fun _ => rfl⟩
  exact performs_assign rfl hx ht.nodup
    (stores_local (destination_lt hroom) h.covers.not_pending_destination)

theorem Delivers.captured (name : String) {xs : List Expression}
    (h : Delivers rules program piece pool held table held₁ table₁)
    (ht : piece.Takes pool) (hx : DenotesAll held₁ piece.faces xs)
    (hroom : (piece.captured name).pool.highWater ≤ program.maxLocals) :
    ∃ held', DeliversOne rules program (piece.captured name) pool held table
      (.call name (Expression.moveArguments rules name xs table₁).1,
        (Expression.moveArguments rules name xs table₁).2) held' piece.destination := by
  refine ⟨_, h.destination ht
    (x := .call name (Expression.moveArguments rules name xs table₁).1) ?_, rfl,
    .held (by simp) rfl, fun _ => rfl⟩
  exact performs_capture rfl hx ht.nodup
    (stores_local (destination_lt hroom) h.covers.not_pending_destination)

/-! ## Expressions -/

theorem denotes_simpleFace (strings : StringTable) (held : HeldLocals) {e : Expression}
    (hc : e.Compilable) (ho : ∀ operands operators, e ≠ .operation operands operators)
    (hcall : ∀ function arguments, e ≠ .call function arguments) :
    Denotes held (Symbolic.simpleFace strings e) (e.resolve strings) := by
  cases e with
  | integer value => exact .integer value
  | pointer value => exact .pointer value
  | text literal => exact .text _
  | labelRef name => exact .labelRef hc
  | flagPointer kind id => exact .flagPointer hc
  | operation operands operators => exact absurd rfl (ho operands operators)
  | call function arguments => exact absurd rfl (hcall function arguments)
  | var which =>
    cases which with
    | special name => exact .special name
    | flag kind id => exact .flag hc

theorem marker?_simpleFace (strings : StringTable) {e : Expression} (h : e.isLabelRef = false) :
    (Symbolic.simpleFace strings e).marker? = none := by
  cases e with
  | labelRef name => exact Bool.noConfusion h
  | var which => exact marker?_variableFace false which
  | flagPointer kind id => exact marker?_variableFace true (.flag kind id)
  | _ => rfl

theorem isLabelRef_resolve (strings : StringTable) (e : Expression) :
    (e.resolve strings).isLabelRef = e.isLabelRef := by
  cases e <;> rfl

theorem moveOut_simple {e : Expression}
    (ho : ∀ operands operators, e ≠ .operation operands operators)
    (hcall : ∀ function arguments, e ≠ .call function arguments) (strings : StringTable) :
    (e.resolve strings).moveOut rules table = (e.resolve strings, table) := by
  cases e with
  | operation operands operators => exact absurd rfl (ho operands operators)
  | call function arguments => exact absurd rfl (hcall function arguments)
  | _ => rw [Expression.resolve, Expression.moveOut] <;> simp

theorem deliversOne_simple (rules : Option ExternalizeRules) (program : Program)
    (strings : StringTable) (table : Option StringTable) {e : Expression} (h : Covers pool held)
    (hc : e.Compilable) (ho : ∀ operands operators, e ≠ .operation operands operators)
    (hcall : ∀ function arguments, e ≠ .call function arguments) :
    DeliversOne rules program ⟨[], [Symbolic.simpleFace strings e], pool⟩ pool held table
      ((e.resolve strings).moveOut rules table) held (Symbolic.simpleFace strings e) := by
  rw [moveOut_simple ho hcall]
  exact ⟨delivers_plain rules program table _ h, rfl, denotes_simpleFace strings held hc ho hcall,
    fun hl => marker?_simpleFace strings (isLabelRef_resolve strings e ▸ hl)⟩

theorem DeliversOne.operand {x : Expression} {face : Element}
    (h : DeliversOne rules program piece pool held table (x, table₁) held₁ face)
    (hx : x.isLabelRef = false) : DenotesOperand held₁ piece.faces x := by
  rw [h.faces]
  exact .plain h.denotes (h.plain hx)

mutual

theorem argument_delivers (rules : Option ExternalizeRules) (program : Program)
    (strings : StringTable) (pool : LocalPool) (held : HeldLocals) (table : Option StringTable)
    (e : Expression) (hc : e.Compilable) (h : Covers pool held)
    (hroom : (Symbolic.argument strings pool e).pool.highWater ≤ program.maxLocals) :
    ∃ held' face, DeliversOne rules program (Symbolic.argument strings pool e) pool held table
      ((e.resolve strings).moveOut rules table) held' face := by
  match e with
  | .operation operands operators =>
    rw [Symbolic.argument] at hroom ⊢
    rw [Expression.resolve, Expression.moveOut]
    obtain ⟨hne, hlen, hops, hx⟩ := hc
    obtain ⟨held₁, h₁, hd₁⟩ := operandsOf_delivers rules program strings pool held table operands
      operators hne hlen hops hx h (Nat.le_trans (Piece.highWater_le_released_alloc _) hroom)
    obtain ⟨held₂, h₂⟩ := h₁.stored (Symbolic.operandsOf_takes strings pool operands operators)
      hd₁ rfl hroom
    exact ⟨held₂, _, h₂⟩
  | .call function arguments =>
    rw [Symbolic.argument] at hroom ⊢
    rw [Expression.resolve, Expression.moveOut]
    obtain ⟨held₁, h₁, hd₁⟩ := argumentsOf_delivers rules program strings pool held table arguments
      hc.2 h (Nat.le_trans (Piece.highWater_le_released_alloc _) hroom)
    obtain ⟨held₂, h₂⟩ := h₁.captured function
      (Symbolic.argumentsOf_takes strings pool arguments) hd₁ hroom
    exact ⟨held₂, _, h₂⟩
  | .integer _ | .pointer _ | .text _ | .var _ | .flagPointer .. | .labelRef _ =>
    simp only [Symbolic.argument]
    exact ⟨held, _, deliversOne_simple rules program strings table h hc (by simp) (by simp)⟩

theorem argumentsOf_delivers (rules : Option ExternalizeRules) (program : Program)
    (strings : StringTable) (pool : LocalPool) (held : HeldLocals) (table : Option StringTable)
    (arguments : List Expression) (hc : Expression.CompilableList arguments)
    (h : Covers pool held)
    (hroom : (Symbolic.argumentsOf strings pool arguments).pool.highWater ≤ program.maxLocals) :
    ∃ held', Delivers rules program (Symbolic.argumentsOf strings pool arguments) pool held table
        held' (Expression.moveOutList rules (Expression.resolveList strings arguments) table).2
      ∧ DenotesAll held' (Symbolic.argumentsOf strings pool arguments).faces
          (Expression.moveOutList rules (Expression.resolveList strings arguments) table).1 := by
  match arguments with
  | [] =>
    rw [Symbolic.argumentsOf]
    exact ⟨held, delivers_plain rules program table [] h, .nil⟩
  | x :: rest =>
    rw [Symbolic.argumentsOf] at hroom ⊢
    have ht := Symbolic.argument_takes strings pool x
    have htrest := Symbolic.argumentsOf_takes strings (Symbolic.argument strings pool x).pool rest
    obtain ⟨held₁, face, h₁⟩ := argument_delivers rules program strings pool held table x hc.1 h
      (Nat.le_trans htrest.highWater hroom)
    obtain ⟨held₂, h₂, hd₂⟩ := argumentsOf_delivers rules program strings _ held₁
      ((x.resolve strings).moveOut rules table).2 rest hc.2 h₁.covers hroom
    refine ⟨held₂, h₁.append ht h₂, ?_⟩
    -- what the first argument stands for outlives the code of the others
    have hagree := h₂.agree ht
    rw [h₁.faces] at hagree
    rw [Piece.append, h₁.faces]
    exact .cons (h₁.denotes.of_agree hagree) hd₂

theorem operand_delivers (rules : Option ExternalizeRules) (program : Program)
    (strings : StringTable) (pool : LocalPool) (held : HeldLocals) (table : Option StringTable)
    (e : Expression) (hc : e.CompilableOperand) (h : Covers pool held)
    (hroom : (Symbolic.operand strings pool e).pool.highWater ≤ program.maxLocals) :
    ∃ held', Delivers rules program (Symbolic.operand strings pool e) pool held table held'
        ((e.resolve strings).moveOut rules table).2
      ∧ DenotesOperand held' (Symbolic.operand strings pool e).faces
          ((e.resolve strings).moveOut rules table).1 := by
  match e with
  | .operation operands operators =>
    obtain ⟨-, hne, hlen, hops, hx⟩ := hc
    rw [Symbolic.operand] at hroom ⊢
    rw [Expression.resolve, Expression.moveOut]
    split at hroom
    · rename_i sign hsign
      -- a sign comes back as the zero and the operator it was made of
      obtain ⟨x, rfl, rfl, hlabel⟩ := Compile.sign?_eq_some hsign
      simp only [Symbolic.secondOf] at hroom ⊢
      obtain ⟨held₁, face, h₁⟩ := argument_delivers rules program strings pool held table x
        hx.2.1.2 h hroom
      refine ⟨held₁, ⟨h₁.performs, h₁.covers, h₁.kept⟩, ?_⟩
      rw [h₁.faces]
      have hx : ((x.resolve strings).moveOut rules table).1.isLabelRef = false := by
        rw [Expression.isLabelRef_moveOut, isLabelRef_resolve, hlabel]
      exact .signed (hops sign (by simp)) h₁.denotes (h₁.plain hx)
    · obtain ⟨held₁, h₁, hd₁⟩ := operandsOf_delivers rules program strings pool held table operands
        operators hne hlen hops hx h (Nat.le_trans (Piece.highWater_le_released_alloc _) hroom)
      obtain ⟨held₂, h₂⟩ := h₁.stored (Symbolic.operandsOf_takes strings pool operands operators)
        hd₁ rfl hroom
      exact ⟨held₂, h₂.toDelivers, h₂.operand rfl⟩
  | .call function arguments =>
    rw [Symbolic.operand] at hroom ⊢
    rw [Expression.resolve, Expression.moveOut]
    obtain ⟨held₁, h₁, hd₁⟩ := argumentsOf_delivers rules program strings pool held table arguments
      hc.2.2 h (Nat.le_trans (Piece.highWater_le_released_alloc _) hroom)
    obtain ⟨held₂, h₂⟩ := h₁.captured function
      (Symbolic.argumentsOf_takes strings pool arguments) hd₁ hroom
    exact ⟨held₂, h₂.toDelivers, h₂.operand rfl⟩
  | .integer _ | .pointer _ | .text _ | .var _ | .flagPointer .. | .labelRef _ =>
    simp only [Symbolic.operand]
    have hone := deliversOne_simple rules program strings table h hc.2 (by simp) (by simp)
    exact ⟨held, hone.toDelivers, hone.operand ((isLabelRef_resolve strings _).trans hc.1)⟩

theorem operandsOf_delivers (rules : Option ExternalizeRules) (program : Program)
    (strings : StringTable) (pool : LocalPool) (held : HeldLocals) (table : Option StringTable)
    (operands : List Expression) (operators : List String) (hne : operators ≠ [])
    (hlen : operands.length = operators.length + 1)
    (hops : ∀ name ∈ operators, isOperator name = true)
    (hc : Expression.CompilableOperands operands) (h : Covers pool held)
    (hroom : (Symbolic.operandsOf strings pool operands operators).pool.highWater
      ≤ program.maxLocals) :
    ∃ held', Delivers rules program (Symbolic.operandsOf strings pool operands operators) pool held
        table held' (Expression.moveOutList rules (Expression.resolveList strings operands) table).2
      ∧ DenotesChain held' (Symbolic.operandsOf strings pool operands operators).faces
          (.operation (Expression.moveOutList rules (Expression.resolveList strings operands)
            table).1 operators) := by
  match operands with
  | [] => simp at hlen
  | x :: rest =>
    rw [Symbolic.operandsOf] at hroom ⊢
    have ht := Symbolic.operand_takes strings pool x
    have htrest := Symbolic.laterOperandsOf_takes strings (Symbolic.operand strings pool x).pool
      rest operators
    obtain ⟨held₁, h₁, hd₁⟩ := operand_delivers rules program strings pool held table x hc.1 h
      (Nat.le_trans htrest.highWater hroom)
    obtain ⟨held₂, h₂, hd₂⟩ := laterOperandsOf_delivers rules program strings _ held₁
      ((x.resolve strings).moveOut rules table).2 rest operators (by simpa using hlen) hops hc.2
      h₁.covers hroom
    exact ⟨held₂, h₁.append ht h₂, .operation rfl (hd₁.of_agree (h₂.agree ht)) hd₂ hne⟩

theorem laterOperandsOf_delivers (rules : Option ExternalizeRules) (program : Program)
    (strings : StringTable) (pool : LocalPool) (held : HeldLocals) (table : Option StringTable)
    (operands : List Expression) (operators : List String)
    (hlen : operands.length = operators.length)
    (hops : ∀ name ∈ operators, isOperator name = true)
    (hc : Expression.CompilableOperands operands) (h : Covers pool held)
    (hroom : (Symbolic.laterOperandsOf strings pool operands operators).pool.highWater
      ≤ program.maxLocals) :
    ∃ held', Delivers rules program (Symbolic.laterOperandsOf strings pool operands operators) pool
        held table held'
        (Expression.moveOutList rules (Expression.resolveList strings operands) table).2
      ∧ DenotesLater held' (Symbolic.laterOperandsOf strings pool operands operators).faces
          (Expression.moveOutList rules (Expression.resolveList strings operands) table).1
          operators := by
  match operands, operators with
  | [], [] =>
    simp only [Symbolic.laterOperandsOf]
    exact ⟨held, delivers_plain rules program table [] h, .nil⟩
  | x :: rest, operator :: operators =>
    rw [Symbolic.laterOperandsOf] at hroom ⊢
    have ht := Symbolic.operand_takes strings pool x
    have htrest := Symbolic.laterOperandsOf_takes strings (Symbolic.operand strings pool x).pool
      rest operators
    obtain ⟨held₁, h₁, hd₁⟩ := operand_delivers rules program strings pool held table x hc.1 h
      (Nat.le_trans htrest.highWater hroom)
    obtain ⟨held₂, h₂, hd₂⟩ := laterOperandsOf_delivers rules program strings _ held₁
      ((x.resolve strings).moveOut rules table).2 rest operators (by simpa using hlen)
      (fun name hname => hops name (List.mem_cons_of_mem _ hname)) hc.2 h₁.covers hroom
    have happend := h₁.append ht h₂
    refine ⟨held₂, ⟨happend.performs, happend.covers, happend.kept⟩, ?_⟩
    exact .cons (hops operator List.mem_cons_self) (hd₁.of_agree (h₂.agree ht)) hd₂

end

theorem chain_delivers (rules : Option ExternalizeRules) (program : Program)
    (strings : StringTable) (pool : LocalPool) (held : HeldLocals) (table : Option StringTable)
    (e : Expression) (hc : e.CompilableOperand) (h : Covers pool held)
    (hroom : (Symbolic.chain strings pool e).pool.highWater ≤ program.maxLocals) :
    ∃ held', Delivers rules program (Symbolic.chain strings pool e) pool held table held'
        ((e.resolve strings).moveOut rules table).2
      ∧ DenotesChain held' (Symbolic.chain strings pool e).faces
          ((e.resolve strings).moveOut rules table).1 := by
  unfold Symbolic.chain at hroom ⊢
  split at hroom
  · rename_i operands operators
    obtain ⟨-, hne, hlen, hops, hx⟩ := hc
    rw [Expression.resolve, Expression.moveOut]
    exact operandsOf_delivers rules program strings pool held table operands operators hne hlen hops
      hx h hroom
  · obtain ⟨held₁, h₁, hd₁⟩ := operand_delivers rules program strings pool held table e hc h hroom
    exact ⟨held₁, h₁, .single hd₁⟩

end Decompile
end NovelScript
