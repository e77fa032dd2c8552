import NovelScript.Proofs.Script.Parts

/-!
# Nothing is lost and nothing is made twice

Unless a local is overwritten or left over, decompiling keeps every part of a program and adds none,
but for the empty bodies of an `else` that has none (`decompile_accounts`).

## Shape of the proof

At a point of the walk the parts are in the open blocks, in the statements of the innermost one, in
the values of locals, or still to come.  A move only shifts them (`Move.count_parts`).  What is
still to come is well formed at each point, since it is at the end (`Move.wellFormed`).
-/

namespace NovelScript

/-- A label `else` behind a brace that closes a block, and in front of none that opens one. -/
def Program.BodylessElse (program : Program) (at_ : Nat) : Prop :=
  ∃ before rest, program.instructions = before ++ rest ∧ before.length = at_
    ∧ Decompile.labelName? program before.getLast? = some blockClose
    ∧ Decompile.labelName? program rest.head? = some elseLabel
    ∧ Decompile.labelName? program rest.tail.head? ≠ some blockOpen

/-- A tree accounts for a program in which `bodyless` labels `else` have no body. -/
structure Program.Accounts (program : Program) (tree : List Statement) (bodyless : Nat) :
    Prop where
  calls : (Statement.callsIn tree).Perm program.calls
  calls_length : (Statement.callsIn tree).length + program.instructions.countP Instruction.isTarget
    = program.instructions.countP Instruction.isCall
  assignments : Statement.assignmentsIn tree + program.instructions.countP program.isLocalTarget
    = program.instructions.countP Instruction.isTarget
  nests : Program.nests 64 0 (program.labelNames program.instructions) = true
  bodies : Statement.bodiesIn tree
    = (program.labelNames program.instructions).count blockOpen + bodyless
  labels : (Statement.labelsIn tree).Perm
    ((program.labelNames program.instructions).filter fun name => !Program.isBrace name)
  labels_length : (program.labelNames program.instructions).length
    = program.instructions.countP Instruction.isLabel

/-- Whether the warning is about a value that was never read. -/
def DecompileWarning.isLoss : DecompileWarning → Bool
  | elseWithoutBody _ => false
  | localOverwritten .. | localsUnused _ => true

/-- The calls in what locals hold. -/
abbrev HeldLocals.calls (held : HeldLocals) : List String := held.gather Expression.calls

/-- The parts in what a block becomes, apart from the statements to come in it. -/
def Opener.parts : Opener → List Part
  | block => [.body]
  | call function arguments =>
    callParts (Expression.callsList arguments) ++ [.call function, .body]
  | condition e => callParts e.calls ++ [.call ifFunction, .body]
  | otherwise e body =>
    callParts e.calls ++ .call ifFunction :: .body :: Statement.partsList body
      ++ [.label elseLabel, .body]

/-- The parts in an open block and in front of it. -/
def Frame.parts (frame : Frame) : List Part :=
  Statement.partsList frame.before ++ frame.opener.parts

namespace Decompile

/-- The parts at a point of the walk: in open blocks, in statements, in locals and to come. -/
def Point.parts (program : Program) (p : Point) : List Part :=
  p.frames.flatMap Frame.parts ++ Statement.partsList p.current ++ callParts p.state.locals.calls
    ++ program.partsBehind false p.rest

theorem parts_finish (opener : Opener) (body : List Statement) :
    (finish opener body).parts = opener.parts ++ Statement.partsList body := by
  cases opener <;> simp [finish, Opener.parts, Statement.parts, Statement.partsOption]

section

variable {program : Program} {st t u : DecompileState} {rs : List Nat} {calls : List String}

theorem count_callParts_append (xs ys : List String) (part : Part) :
    (callParts (xs ++ ys)).count part = (callParts xs).count part + (callParts ys).count part := by
  rw [callParts, List.map_append, List.count_append]
  rfl

/-- What is read from locals is gone from them. -/
theorem Took.count_parts (h : Took st t rs calls) (part : Part) :
    (callParts t.locals.calls).count part + (callParts calls).count part
      = (callParts st.locals.calls).count part := by
  obtain ⟨rfl, hnodup, -, rfl⟩ := h
  have hperm : ((st.locals.takeAll rs).calls ++ rs.flatMap st.locals.callsAt).Perm
      st.locals.calls := List.perm_iff_count.mpr fun name => by
    rw [List.count_append]
    exact st.locals.count_gather_takeAll _ hnodup name
  rw [← count_callParts_append]
  exact (hperm.map Part.call).count_eq part

/-- Without a warning that a value is lost, a local that receives a value held none. -/
theorem store_cases_of_kept {at_ : Nat} {element : Element} {x : Expression}
    {made : List Statement} (h : Answers (store program at_ element x) st made t)
    (hkept : ∀ w ∈ t.warnings, w.isLoss = false) :
    (∃ r, element = .localVar r ∧ ¬ st.locals.Pending r ∧ made = []
      ∧ t = { st with locals := st.locals.set r (some x) })
    ∨ element.register? = none ∧ ∃ dest, made = [.assignment dest x] ∧ t = st := by
  obtain ⟨r, rfl, -, rfl, rfl⟩ | ⟨hnone, dest, -, rfl, rfl⟩ := store_cases h
  · have hfree : ¬ (st.locals.get? r).any (·.isSome) = true := fun hheld =>
      Bool.noConfusion (hkept (.localOverwritten r at_) (by simp [hheld]))
    refine .inl ⟨r, rfl, ?_, rfl, by rw [if_neg hfree, List.append_nil]⟩
    rintro ⟨y, hy⟩
    exact hfree (by simp [hy])
  · exact .inr ⟨hnone, dest, rfl, rfl⟩

/-- What is stored is held by a local, or it is in the statement that is made. -/
theorem count_parts_store {at_ : Nat} {id : ElementId} {element : Element} {x : Expression}
    {made : List Statement} (helement : program.expect id = .ok element)
    (h : Answers (store program at_ element x) st made t)
    (hkept : ∀ w ∈ t.warnings, w.isLoss = false) (part : Part) :
    (callParts t.locals.calls).count part + (Statement.partsList made).count part
      = (callParts st.locals.calls).count part + (callParts x.calls).count part
        + (program.partsOf false (.target id)).count part := by
  have hat := Program.expect_eq_ok_iff.mp helement
  obtain ⟨r, rfl, hfree, rfl, rfl⟩ | ⟨hnone, dest, rfl, rfl⟩ := store_cases_of_kept h hkept
  · have hempty : st.locals.gatherAt Expression.calls r = [] := by
      rcases hr : st.locals.get? r with _ | _ | y
      · simp [HeldLocals.gatherAt, hr]
      · simp [HeldLocals.gatherAt, hr]
      · exact absurd ⟨y, hr⟩ hfree
    have hperm : (st.locals.set r (some x)).calls.Perm (st.locals.calls ++ x.calls) :=
      List.perm_iff_count.mpr fun name => by
        have hset := st.locals.count_gather_set Expression.calls r (some x) name
        rw [hempty] at hset
        simpa using hset
    have hlocal : program.partsOf false (.target id) = [] := by
      simp [Program.partsOf, Program.isLocalTarget, hat, Element.register?]
    rw [hlocal, ← count_callParts_append]
    exact (hperm.map Part.call).count_eq part
  · have hother : program.partsOf false (.target id) = [.assignment] := by
      simp [Program.partsOf, Program.isLocalTarget, hat, hnone]
    simp only [hother, Statement.partsList, Statement.parts, List.append_nil, List.count_append]
    omega

theorem warnings_store {at_ : Nat} {element : Element} {x : Expression} {made : List Statement}
    (h : Answers (store program at_ element x) st made t)
    (hkept : ∀ w ∈ t.warnings, w.isLoss = false) : t.warnings = st.warnings := by
  obtain ⟨r, -, -, -, rfl⟩ | ⟨-, dest, -, rfl⟩ := store_cases_of_kept h hkept <;> rfl

theorem Took.warnings (h : Took st t rs calls) : t.warnings = st.warnings := by
  rw [h.state]

/-- The empty bodies that warnings are about. -/
def emptyBodies (warnings : List DecompileWarning) : List Part := warnings.map fun _ => .body

/-- A move shifts parts from one place to another, and adds only the empty bodies that it warns
about. -/
theorem Move.count_parts {p q : Point} (h : Move none program p q)
    (hkept : ∀ w ∈ q.state.warnings, w.isLoss = false) (part : Part) :
    (p.parts program).count part + (emptyBodies q.state.warnings).count part
      = (q.parts program).count part + (emptyBodies p.state.warnings).count part := by
  have helse₁ : elseLabel ≠ blockOpen := by decide
  have helse₂ : elseLabel ≠ blockClose := by decide
  cases h with
  | label hname hopen hclose =>
    simp only [Point.parts, Program.partsBehind_label hname hopen hclose,
      Statement.partsList_append, Statement.partsList, Statement.parts, List.count_append,
      List.count_cons, List.count_nil]
    omega
  | opens hname hroom =>
    simp only [Point.parts, Program.partsBehind_open hname, List.flatMap_cons, Frame.parts,
      Opener.parts, Statement.partsList, List.count_append, List.count_cons, List.count_nil]
    omega
  | closes hname hopener =>
    simp only [Point.parts, Program.partsBehind_close hname, List.flatMap_cons, Frame.parts,
      Statement.partsList_append, Statement.partsList, parts_finish, List.count_append,
      List.count_nil]
    omega
  | otherwise hname helse hbrace hroom =>
    simp only [Point.parts, Program.partsBehind_close hname,
      Program.partsBehind_label helse helse₁ helse₂, Program.partsBehind_open hbrace,
      List.flatMap_cons, Frame.parts, Opener.parts, Statement.partsList, List.count_append,
      List.count_cons, List.count_nil]
    omega
  | bodyless hname helse hbrace =>
    simp only [Point.parts, Program.partsBehind_close hname,
      Program.partsBehind_label helse helse₁ helse₂, List.flatMap_cons, Frame.parts, Opener.parts,
      Statement.partsList_append, Statement.partsList, Statement.parts, Statement.partsOption,
      emptyBodies, List.map_append, List.map_cons, List.map_nil, List.count_append,
      List.count_cons, List.count_nil]
    omega
  | assign hassign hids helement hx hstore =>
    have htook := took_chain hx
    have hread := htook.count_parts part
    have hstored := count_parts_store helement hstore hkept part
    simp only [Point.parts, Program.partsBehind_assign hassign, Statement.partsList_append,
      warnings_store hstore hkept, htook.warnings, List.count_append]
    omega
  | capture hassign helement hname hxs hstore =>
    have htook := took_arguments hxs
    have hread := htook.count_parts part
    have hstored := count_parts_store helement hstore hkept part
    rw [Expression.calls, count_callParts_append] at hstored
    simp only [Point.parts, Program.partsBehind_assign hassign, Program.partsBehind_call hname,
      Statement.partsList_append, warnings_store hstore hkept, htook.warnings, List.count_append,
      List.count_cons]
    simp only [callParts, List.map_cons, List.map_nil, List.count_cons, List.count_nil]
      at hstored hread ⊢
    omega
  | call hname hassign hbrace hxs =>
    have htook := took_arguments hxs
    have hread := htook.count_parts part
    simp only [Point.parts, Program.partsBehind_call hname, Statement.partsList_append,
      Statement.partsList, Statement.parts, htook.warnings, List.count_append, List.count_cons,
      List.count_nil]
    omega
  | bodyCall hname hassign hif hbrace hxs hroom =>
    have htook := took_arguments hxs
    have hread := htook.count_parts part
    simp only [Point.parts, Program.partsBehind_call hname, Program.partsBehind_open hbrace,
      List.flatMap_cons, Frame.parts, Opener.parts, Statement.partsList, htook.warnings,
      List.count_append, List.count_cons, List.count_nil]
    omega
  | condition hname hids hbrace hx hroom =>
    have htook := took_chain hx
    have hread := htook.count_parts part
    simp only [Point.parts, Program.partsBehind_call hname, Program.partsBehind_open hbrace,
      List.flatMap_cons, Frame.parts, Opener.parts, Statement.partsList, htook.warnings,
      List.count_append, List.count_cons, List.count_nil]
    omega

/-- A move keeps the warnings before it. -/
theorem Move.warnings_prefix {p q : Point} (h : Move none program p q) :
    p.state.warnings <+: q.state.warnings := by
  have hstore {at_ : Nat} {element : Element} {x : Expression} {made : List Statement}
      {st t : DecompileState} (h : Answers (store program at_ element x) st made t) :
      st.warnings <+: t.warnings := by
    obtain ⟨r, -, -, -, rfl⟩ | ⟨-, dest, -, -, rfl⟩ := store_cases h
    · exact List.prefix_append _ _
    · exact List.prefix_refl _
  cases h with
  | label _ _ _ | opens _ _ | closes _ _ | otherwise _ _ _ _ => exact List.prefix_refl _
  | bodyless _ _ _ => exact List.prefix_append _ _
  | assign _ _ _ hx hmade => exact (took_chain hx).warnings ▸ hstore hmade
  | capture _ _ _ hxs hmade => exact (took_arguments hxs).warnings ▸ hstore hmade
  | call _ _ _ hxs | bodyCall _ _ _ _ hxs _ =>
    exact (took_arguments hxs).warnings ▸ List.prefix_refl _
  | condition _ _ _ hx _ => exact (took_chain hx).warnings ▸ List.prefix_refl _

/-- A move goes past the instructions that it reads. -/
theorem Move.consumes {rules : Option ExternalizeRules} {p q : Point}
    (h : Move rules program p q) :
    ∃ read, p.rest = read ++ q.rest ∧ q.at_ = p.at_ + read.length := by
  cases h with
  | label _ _ _ | opens _ _ | closes _ _ | call _ _ _ _ => exact ⟨[_], rfl, rfl⟩
  | bodyless _ _ _ | assign _ _ _ _ _ | bodyCall _ _ _ _ _ _ | condition _ _ _ _ _ =>
    exact ⟨[_, _], rfl, rfl⟩
  | otherwise _ _ _ _ | capture _ _ _ _ _ => exact ⟨[_, _, _], rfl, rfl⟩

end
end Decompile

namespace Program

/-- Instructions that can stand where `depth` blocks are open: their braces match, each target has
its assignment, and each label has a name. -/
structure WellFormed (program : Program) (depth : Nat) (instructions : List Instruction) :
    Prop where
  nests : nests maxBlockDepth depth (program.labelNames instructions) = true
  calls : (program.callsBehind false instructions).length
      + instructions.countP Instruction.isTarget
    = instructions.countP Instruction.isCall
  labels : (program.labelNames instructions).length = instructions.countP Instruction.isLabel

variable {program : Program} {depth : Nat} {rest : List Instruction}

theorem exists_label {i : Instruction} {name : String}
    (h : Decompile.labelName? program (some i) = some name) : ∃ id, i = .label id := by
  cases i with
  | label id => exact ⟨id, rfl⟩
  | call _ _ | target _ => simp [Decompile.labelName?] at h

theorem WellFormed.of_label {i : Instruction} {name : String}
    (h : Decompile.labelName? program (some i) = some name) {depth' : Nat}
    (hrest : program.WellFormed depth' rest)
    (hnests : Program.nests maxBlockDepth depth (name :: program.labelNames rest)
      = Program.nests maxBlockDepth depth' (program.labelNames rest)) :
    program.WellFormed depth (i :: rest) := by
  obtain ⟨id, rfl⟩ := exists_label h
  refine ⟨?_, ?_, ?_⟩
  · rw [labelNames_cons, h]
    exact hnests.trans hrest.nests
  · simpa [callsBehind, Instruction.isTarget, Instruction.isCall] using hrest.calls
  · simpa [labelNames_cons, h, List.countP_cons, Instruction.isLabel] using hrest.labels

theorem WellFormed.call {function : ElementId} {ids : List ElementId} {name : String}
    (h : program.expect function = .ok (.function name)) (hrest : program.WellFormed depth rest) :
    program.WellFormed depth (.call function ids :: rest) := by
  refine ⟨?_, ?_, ?_⟩
  · simpa [labelNames_cons, Decompile.labelName?] using hrest.nests
  · have hname : program.functionName? function = some name := by
      simp [functionName?, expect_eq_ok_iff.mp h, Element.functionName?]
    have hcalls := hrest.calls
    simp only [callsBehind, hname, Option.toList_some, List.cons_append, List.nil_append,
      List.length_cons, List.countP_cons, Instruction.isTarget, Instruction.isCall,
      Bool.false_and, Bool.false_eq_true, ↓reduceIte]
    omega
  · simpa [labelNames_cons, Decompile.labelName?, Instruction.isLabel] using hrest.labels

theorem WellFormed.assign {id assign : ElementId} {ids : List ElementId}
    (h : Decompile.isAssign program assign = true) (hrest : program.WellFormed depth rest) :
    program.WellFormed depth (.target id :: .call assign ids :: rest) := by
  refine ⟨?_, ?_, ?_⟩
  · simpa [labelNames_cons, Decompile.labelName?] using hrest.nests
  · have hcalls := hrest.calls
    simp only [callsBehind, h, List.countP_cons, Instruction.isTarget, Instruction.isCall,
      Bool.and_self, Bool.false_eq_true, ↓reduceIte]
    omega
  · simpa [labelNames_cons, Decompile.labelName?, Instruction.isLabel] using hrest.labels

theorem WellFormed.opens {i : Instruction}
    (h : Decompile.labelName? program (some i) = some blockOpen) (hroom : depth < maxBlockDepth)
    (hrest : program.WellFormed (depth + 1) rest) : program.WellFormed depth (i :: rest) :=
  .of_label h hrest (by simp [Program.nests, hroom])

theorem WellFormed.closes {i : Instruction}
    (h : Decompile.labelName? program (some i) = some blockClose)
    (hrest : program.WellFormed depth rest) : program.WellFormed (depth + 1) (i :: rest) :=
  .of_label h hrest (by
    have hne : blockClose ≠ blockOpen := by decide
    simp [Program.nests, hne])

theorem WellFormed.label {i : Instruction} {name : String}
    (h : Decompile.labelName? program (some i) = some name) (hopen : name ≠ blockOpen)
    (hclose : name ≠ blockClose) (hrest : program.WellFormed depth rest) :
    program.WellFormed depth (i :: rest) :=
  .of_label h hrest (by simp [Program.nests, hopen, hclose])

end Program

namespace Decompile

variable {program : Program}

theorem Move.wellFormed {p q : Point} (h : Move none program p q)
    (hrest : program.WellFormed q.frames.length q.rest) :
    program.WellFormed p.frames.length p.rest := by
  have helse₁ : elseLabel ≠ blockOpen := by decide
  have helse₂ : elseLabel ≠ blockClose := by decide
  cases h with
  | label hname hopen hclose => exact .label hname hopen hclose hrest
  | opens hname hroom => exact .opens hname hroom hrest
  | closes hname _ => exact .closes hname hrest
  | otherwise hname helse hbrace hroom =>
    exact .closes hname (.label helse helse₁ helse₂ (.opens hbrace hroom hrest))
  | bodyless hname helse _ => exact .closes hname (.label helse helse₁ helse₂ hrest)
  | assign hassign _ _ _ _ => exact .assign hassign hrest
  | capture hassign _ hname _ _ => exact .assign hassign (.call hname hrest)
  | call hname _ _ _ => exact .call hname hrest
  | bodyCall hname _ _ hbrace _ hroom => exact .call hname (.opens hbrace hroom hrest)
  | condition hname _ hbrace _ hroom => exact .call hname (.opens hbrace hroom hrest)

/-- The braces that are still to come match the open blocks. -/
theorem wellFormed_of_moves {p : Point} {end_ : Nat} {tree : List Statement} {st : DecompileState}
    (h : Relation.ReflTransGen (Move none program) p ⟨end_, [], tree, st, []⟩) :
    program.WellFormed p.frames.length p.rest := by
  induction h using Relation.ReflTransGen.head_induction_on with
  | refl => exact ⟨rfl, rfl, rfl⟩
  | head hmove _ ih => exact hmove.wellFormed ih

theorem warnings_prefix_of_moves {p e : Point}
    (h : Relation.ReflTransGen (Move none program) p e) :
    p.state.warnings <+: e.state.warnings := by
  have hmove {q r : Point} (hmove : Move none program q r)
      (hq : p.state.warnings <+: q.state.warnings) : p.state.warnings <+: r.state.warnings :=
    hq.trans hmove.warnings_prefix
  exact invariant_of_moves hmove h (List.prefix_refl _)

/-- A run of moves without a loss shifts parts, and adds the empty bodies that it warns about. -/
theorem count_parts_of_moves {p e : Point} (h : Relation.ReflTransGen (Move none program) p e)
    (hkept : ∀ w ∈ e.state.warnings, w.isLoss = false) (part : Part) :
    (p.parts program).count part + (emptyBodies e.state.warnings).count part
      = (e.parts program).count part + (emptyBodies p.state.warnings).count part := by
  induction h using Relation.ReflTransGen.head_induction_on with
  | refl => rfl
  | head hmove hmoves ih =>
    have hstep := hmove.count_parts
      (fun w hw => hkept w ((warnings_prefix_of_moves hmoves).subset hw)) part
    omega

/-- A move without a loss warns about an `else` without a body, or not at all. -/
theorem Move.warnings_cases {p q : Point} (h : Move none program p q)
    (hkept : ∀ w ∈ q.state.warnings, w.isLoss = false) :
    q.state.warnings = p.state.warnings
    ∨ ∃ i next, p.rest = i :: next :: q.rest ∧ q.at_ = p.at_ + 2
      ∧ q.state.warnings = p.state.warnings ++ [.elseWithoutBody (p.at_ + 1)]
      ∧ labelName? program (some i) = some blockClose
      ∧ labelName? program (some next) = some elseLabel
      ∧ labelName? program q.rest.head? ≠ some blockOpen := by
  cases h with
  | label _ _ _ | opens _ _ | closes _ _ | otherwise _ _ _ _ => exact .inl rfl
  | bodyless hname helse hbrace => exact .inr ⟨_, _, rfl, rfl, rfl, hname, helse, hbrace⟩
  | assign _ _ _ hx hmade =>
    exact .inl ((warnings_store hmade hkept).trans (took_chain hx).warnings)
  | capture _ _ _ hxs hmade =>
    exact .inl ((warnings_store hmade hkept).trans (took_arguments hxs).warnings)
  | call _ _ _ hxs | bodyCall _ _ _ _ hxs _ => exact .inl (took_arguments hxs).warnings
  | condition _ _ _ hx _ => exact .inl (took_chain hx).warnings

/-- Without a loss, the warnings are about the labels `else` without a body, from front to back. -/
theorem warnings_of_moves {p e : Point} (h : Relation.ReflTransGen (Move none program) p e)
    (hkept : ∀ w ∈ e.state.warnings, w.isLoss = false) {before : List Instruction}
    (hbefore : program.instructions = before ++ p.rest) (hlength : before.length = p.at_) :
    ∃ positions : List Nat,
      e.state.warnings = p.state.warnings ++ positions.map .elseWithoutBody
      ∧ positions.Pairwise (· < ·)
      ∧ ∀ at_ ∈ positions, p.at_ < at_ ∧ program.BodylessElse at_ := by
  induction h using Relation.ReflTransGen.head_induction_on generalizing before with
  | refl => exact ⟨[], by simp, .nil, by simp⟩
  | @head p q hmove hmoves ih =>
    have hkept' : ∀ w ∈ q.state.warnings, w.isLoss = false :=
      fun w hw => hkept w ((warnings_prefix_of_moves hmoves).subset hw)
    obtain ⟨read, hread, hat⟩ := hmove.consumes
    have hbefore' : program.instructions = (before ++ read) ++ q.rest := by
      rw [hbefore, hread, List.append_assoc]
    obtain ⟨positions, hwarnings, hordered, hall⟩ := ih hbefore'
      (by rw [List.length_append, hlength, hat])
    obtain hsame | ⟨i, next, hrest, hat, hmore, hname, helse, hbrace⟩ := hmove.warnings_cases hkept'
    · refine ⟨positions, hsame ▸ hwarnings, hordered, fun at_ hmem => ?_⟩
      obtain ⟨hlt, hbodyless⟩ := hall at_ hmem
      exact ⟨by omega, hbodyless⟩
    · refine ⟨(p.at_ + 1) :: positions, ?_, ?_, ?_⟩
      · rw [hwarnings, hmore, List.append_assoc]
        rfl
      · refine List.pairwise_cons.mpr ⟨fun at_ hmem => ?_, hordered⟩
        obtain ⟨hlt, -⟩ := hall at_ hmem
        omega
      · refine List.forall_mem_cons.mpr ⟨⟨by omega, before ++ [i], next :: q.rest, ?_⟩,
          fun at_ hmem => ?_⟩
        · refine ⟨by simp [hbefore, hrest], by simp [hlength], ?_, helse, hbrace⟩
          rw [List.getLast?_append, List.getLast?_singleton]
          exact hname
        · obtain ⟨hlt, hbodyless⟩ := hall at_ hmem
          exact ⟨by omega, hbodyless⟩

end Decompile

/-- Decompiling loses and duplicates nothing: unless a local is overwritten or left over, the tree
has the calls, assignments, bodies and labels of the program, and besides them only the empty body
of each `else` that has none, about which there is a warning. -/
theorem decompile_accounts {program : Program} {strings : Option StringTable}
    {tree : List Statement} (h : (decompile none strings program).result = .ok tree)
    (hkept : ∀ w ∈ (decompile none strings program).warnings, w.isLoss = false) :
    ∃ positions : List Nat,
      (decompile none strings program).warnings = positions.map .elseWithoutBody
      ∧ positions.Pairwise (· < ·) ∧ (∀ at_ ∈ positions, program.BodylessElse at_)
      ∧ program.Accounts tree positions.length := by
  obtain ⟨end_, st, hmoves, hwarnings⟩ := Decompile.moves_of_decompile h
  rw [hwarnings] at hkept ⊢
  have hunused : ¬ 0 < st.locals.unused := fun hpos =>
    Bool.noConfusion (hkept (.localsUnused st.locals.unused) (by simp [hpos]))
  rw [if_neg hunused, List.append_nil] at hkept ⊢
  obtain ⟨positions, hpositions, hordered, hall⟩ :=
    Decompile.warnings_of_moves hmoves hkept (List.nil_append _).symm rfl
  replace hpositions : st.warnings = positions.map .elseWithoutBody := hpositions
  have hwell := Decompile.wellFormed_of_moves hmoves
  -- at the end nothing is left in locals
  have hparts : (Statement.partsList tree).Perm (program.partsBehind false program.instructions
      ++ List.replicate positions.length Part.body) := List.perm_iff_count.mpr fun part => by
    have hcount := Decompile.count_parts_of_moves hmoves hkept part
    have hempty : st.locals.calls = [] :=
      st.locals.gather_eq_nil Expression.calls (Nat.eq_zero_of_not_pos hunused)
    have hbodies : Decompile.emptyBodies st.warnings = List.replicate positions.length .body := by
      rw [Decompile.emptyBodies, List.map_const', hpositions, List.length_map]
    have hend : Decompile.Point.parts program ⟨end_, [], tree, st, []⟩
        = Statement.partsList tree := by
      simp [Decompile.Point.parts, hempty, callParts, Program.partsBehind]
    have hstart : Decompile.Point.parts program ⟨0, [], [], { strings }, program.instructions⟩
        = program.partsBehind false program.instructions := rfl
    rw [hstart, hend, hbodies] at hcount
    rw [List.count_append, hcount]
    rfl
  refine ⟨positions, hpositions, hordered, fun at_ hmem => (hall at_ hmem).2, ?_⟩
  have hcalls : (Statement.callsIn tree).Perm program.calls := by
    have hnames := hparts.filterMap Part.call?
    rwa [List.filterMap_append, program.filterMap_call?_parts,
      List.filterMap_replicate_of_none rfl, List.append_nil] at hnames
  have hassignments := hparts.count_eq .assignment
  have hbodies := hparts.count_eq .body
  have hlabels := hparts.filterMap Part.label?
  rw [List.count_append, List.count_replicate, if_neg (by decide), Nat.add_zero] at hassignments
  rw [List.count_append, List.count_replicate_self, program.count_body_parts] at hbodies
  rw [List.filterMap_append, program.filterMap_label?_parts, List.filterMap_replicate_of_none rfl,
    List.append_nil] at hlabels
  exact {
    calls := hcalls
    calls_length := hcalls.length_eq ▸ hwell.calls
    assignments := by
      rw [Statement.assignmentsIn, hassignments, program.count_assignment_parts]
    nests := hwell.nests
    bodies := hbodies
    labels := hlabels
    labels_length := hwell.labels }

/-- A condition over the answer of a call that a local holds, with an `else` that has no body. -/
def retrying : Program where
  elements := #[.localVar 0, .function assignFunction, .function "ask", .function ifFunction,
    .marker ⟨blockOpen, none, 0, 0⟩, .marker ⟨blockClose, none, 1, 0⟩,
    .marker ⟨elseLabel, none, 2, 0⟩, .marker ⟨"again", none, 3, 0⟩, .special "answer",
    .integer ⟨1, false⟩]
  instructions := [.target 0, .call 1 [], .call 2 [7], .label 7, .call 3 [0], .label 4, .target 8,
    .call 1 [9], .label 5, .label 6, .label 7]
  maxLocals := 1

theorem decompile_accounts_retrying :
    ∃ tree, (decompile none none retrying).result = .ok tree
      ∧ tree = [.label "again", .conditional (.call "ask" [.labelRef "again"])
          [.assignment (.var (.special "answer")) (.integer 1)] (some []), .label "again"]
      ∧ retrying.Accounts tree 1 := by
  have hwarnings : (decompile none none retrying).warnings = [.elseWithoutBody 9] := by
    decide +kernel
  have hresult : (decompile none none retrying).result.toOption
      = some [.label "again", .conditional (.call "ask" [.labelRef "again"])
          [.assignment (.var (.special "answer")) (.integer 1)] (some []), .label "again"] := by
    decide +kernel
  cases htree : (decompile none none retrying).result with
  | error e => simp [htree, Except.toOption] at hresult
  | ok tree =>
    obtain ⟨positions, hpositions, -, -, haccounts⟩ := decompile_accounts htree
      (by rw [hwarnings]; decide)
    have hone : positions.length = 1 := by
      have hlength := congrArg List.length (hwarnings.symm.trans hpositions)
      simpa using hlength.symm
    exact ⟨tree, rfl, by simpa [htree, Except.toOption] using hresult, hone ▸ haccounts⟩

end NovelScript
