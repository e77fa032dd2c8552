import Mathlib.Logic.Function.Basic
import NovelScript.Proofs.Script.Accounting
import NovelScript.Proofs.Script.RoundTrip

/-!
# In which order a recompiled script calls

The decompiler puts the call that a local holds in the place where the local is read, and there the
compiler emits it.  `Program.deferredCalls` is the order of calls that comes of it: it can be read
off the instructions, with the calls that each local holds.

A tree has its calls in this order (`callsIn_of_decompile`), its code has the calls in the order of
the tree (`calls_of_spells`), and so a script that is decompiled and compiled again makes the same
calls, each held one where its local is read (`Script.calls_recompiled`).
-/

namespace NovelScript

/-! ## The order of evaluation -/

/-- What instructions evaluate at once: the locals that are read, the function that is called with
them, if any, and the local that holds the value, if one does. -/
structure Evaluation where
  reads : List Nat
  call : Option String
  into : Option Nat

namespace Evaluation

/-- The calls in the value, when each local holds calls. -/
def calls (held : Nat → List String) (e : Evaluation) : List String :=
  e.reads.flatMap held ++ e.call.toList

/-- The calls of evaluations when each call that a local holds is made where the local is read. -/
def deferred (held : Nat → List String) : List Evaluation → List String
  | [] => []
  | e :: rest =>
    match e.into with
    | some r => deferred (Function.update held r (e.calls held)) rest
    | none => e.calls held ++ deferred held rest

/-- The locals among those that are read whose values have calls. -/
def caught (held : Nat → List String) (e : Evaluation) : List Nat :=
  e.reads.filter fun r => held r ≠ []

/-- Whether values with calls are read in the order in which locals received them, each before any
other call is made.  Those that are `waiting` to be read stand in this order. -/
def inOrder (held : Nat → List String) (waiting : List Nat) : List Evaluation → Bool
  | [] => waiting.isEmpty
  | e :: rest =>
    match e.into with
    | none => e.caught held == waiting && inOrder held [] rest
    | some r =>
      let left := waiting.take (waiting.length - (e.caught held).length)
      waiting == left ++ e.caught held && !left.contains r
        && inOrder (Function.update held r (e.calls held))
          (left ++ if e.calls held = [] then [] else [r]) rest

variable {held : Nat → List String}

/-- Calls that nothing holds are made at once. -/
@[simp] theorem deferred_made (reads : List Nat) (call : Option String) (rest : List Evaluation) :
    deferred held (⟨reads, call, none⟩ :: rest)
      = reads.flatMap held ++ call.toList ++ deferred held rest := rfl

/-- Calls that a local holds wait for it to be read. -/
@[simp] theorem deferred_held (reads : List Nat) (call : Option String) (r : Nat)
    (rest : List Evaluation) :
    deferred held (⟨reads, call, some r⟩ :: rest)
      = deferred (Function.update held r (reads.flatMap held ++ call.toList)) rest := rfl

theorem flatMap_caught (e : Evaluation) : (e.caught held).flatMap held = e.reads.flatMap held := by
  rw [caught]
  induction e.reads with
  | nil => rfl
  | cons r rs ih =>
    by_cases hr : held r = [] <;> simp_all

/-- Read in order, calls are made in the order of the instructions. -/
theorem deferred_of_inOrder {waiting : List Nat} {es : List Evaluation}
    (h : inOrder held waiting es = true) :
    deferred held es = waiting.flatMap held ++ es.flatMap (·.call.toList) := by
  induction es generalizing held waiting with
  | nil =>
    rw [inOrder, List.isEmpty_iff] at h
    simp [deferred, h]
  | cons e rest ih =>
    rw [inOrder] at h
    rw [deferred]
    cases hinto : e.into with
    | none =>
      simp only [hinto, Bool.and_eq_true, beq_iff_eq] at h
      obtain ⟨rfl, hrest⟩ := h
      simp [ih hrest, calls, flatMap_caught]
    | some r =>
      simp only [hinto, Bool.and_eq_true, beq_iff_eq, Bool.not_eq_true', List.contains_eq_mem,
        decide_eq_false_iff_not] at h
      generalize waiting.take _ = left at h
      obtain ⟨⟨rfl, hr⟩, hrest⟩ := h
      -- the locals that still wait hold what they held
      have hleft : left.flatMap (Function.update held r (e.calls held)) = left.flatMap held :=
        List.flatMap_congr fun r' hr' => Function.update_of_ne (ne_of_mem_of_not_mem hr' hr) _ _
      have hnew : (if e.calls held = [] then [] else [r]).flatMap
          (Function.update held r (e.calls held)) = e.calls held := by
        by_cases hcalls : e.calls held = [] <;> simp [hcalls]
      simp only [ih hrest, List.flatMap_append, hleft, hnew, List.flatMap_cons, flatMap_caught]
      simp [calls]

end Evaluation

namespace Program

variable (program : Program)

/-- The local at a position. -/
def localAt? (id : ElementId) : Option Nat := program.elements[id]?.bind Element.register?

/-- What instructions evaluate. -/
def evaluations : List Instruction → List Evaluation
  | [] => []
  | .label _ :: rest => evaluations rest
  | .call function ids :: rest =>
    ⟨program.registersAt ids, program.functionName? function, none⟩ :: evaluations rest
  | .target id :: .call _ [] :: .call function ids :: rest =>
    ⟨program.registersAt ids, program.functionName? function, program.localAt? id⟩
      :: evaluations rest
  | .target id :: .call _ ids :: rest =>
    ⟨program.registersAt ids, none, program.localAt? id⟩ :: evaluations rest
  | .target _ :: rest => evaluations rest

/-- The calls of a program when each call that a local holds is made where the local is read. -/
def deferredCalls : List String :=
  Evaluation.deferred (fun _ => []) (program.evaluations program.instructions)

/-- Whether values with calls are read from locals in the order in which these received them, each
before any other call is made. -/
def readsInOrder : Bool :=
  Evaluation.inOrder (fun _ => []) [] (program.evaluations program.instructions)

variable {program}

theorem evaluations_label {i : Instruction} {name : String} {rest : List Instruction}
    (h : Decompile.labelName? program (some i) = some name) :
    program.evaluations (i :: rest) = program.evaluations rest := by
  obtain ⟨id, rfl⟩ := exists_label h
  rfl

theorem functionName?_of_expect {function : ElementId} {name : String}
    (h : program.expect function = .ok (.function name)) :
    program.functionName? function = some name := by
  simp [functionName?, expect_eq_ok_iff.mp h, Element.functionName?]

end Program

namespace Decompile

variable {program : Program}

/-- The calls in open blocks, from the outermost on, and in the statements inside them. -/
def callsInside (frames : List Frame) (current : List Statement) : List String :=
  (frames.reverse.flatMap Frame.parts ++ Statement.partsList current).filterMap Part.call?

/-- The calls that each local holds are these. -/
def Tracks (held : Nat → List String) (locals : HeldLocals) : Prop :=
  ∀ r, locals.Pending r → held r = locals.callsAt r

variable {held : Nat → List String} {st t : DecompileState} {rs : List Nat} {calls : List String}

theorem Tracks.took (h : Tracks held st.locals) (htook : Took st t rs calls) :
    Tracks held t.locals ∧ calls = rs.flatMap held := by
  obtain ⟨rfl, -, hpending, rfl⟩ := htook
  refine ⟨fun r hr => ?_, List.flatMap_congr fun r hr => (h r (hpending r hr)).symm⟩
  obtain ⟨hfree, hr⟩ := (st.locals.pending_takeAll rs r).mp hr
  simp only [h r hr, HeldLocals.gatherAt, HeldLocals.get?_takeAll, if_neg hfree]

theorem Tracks.set (h : Tracks held st.locals) (r : Nat) (x : Expression) :
    Tracks (Function.update held r x.calls) (st.locals.set r (some x)) := by
  rintro r' ⟨y, hy⟩
  rw [HeldLocals.get?_set] at hy
  by_cases hr : r' = r
  · subst hr
    simp [HeldLocals.gatherAt]
  · rw [if_neg hr] at hy
    rw [Function.update_of_ne hr, h r' ⟨y, hy⟩]
    simp [HeldLocals.gatherAt, hr]

@[simp] theorem filterMap_callParts (calls : List String) :
    (callParts calls).filterMap Part.call? = calls := by
  simp [callParts, List.filterMap_map, Function.comp_def, Part.call?]

/-- What is stored is in the local or in the statement that is made. -/
theorem Tracks.store {at_ : Nat} {id : ElementId} {element : Element} {x : Expression}
    {made : List Statement} (h : Tracks held st.locals)
    (helement : program.expect id = .ok element)
    (hstore : Answers (store program at_ element x) st made t) :
    (∃ r, program.localAt? id = some r ∧ made = []
      ∧ Tracks (Function.update held r x.calls) t.locals)
    ∨ program.localAt? id = none
      ∧ (Statement.partsList made).filterMap Part.call? = x.calls ∧ Tracks held t.locals := by
  rw [Program.localAt?, Program.expect_eq_ok_iff.mp helement]
  obtain ⟨r, rfl, -, rfl, rfl⟩ | ⟨hnone, dest, -, rfl, rfl⟩ := store_cases hstore
  · exact .inl ⟨r, rfl, rfl, h.set r x⟩
  · refine .inr ⟨hnone, ?_, h⟩
    simp [Statement.partsList, Statement.parts, Part.call?]

@[simp] theorem callsInside_cons (opener : Opener) (before : List Statement) (frames : List Frame)
    (current : List Statement) :
    callsInside (⟨opener, before⟩ :: frames) current = callsInside frames before
      ++ opener.parts.filterMap Part.call?
      ++ (Statement.partsList current).filterMap Part.call? := by
  simp [callsInside, Frame.parts]

@[simp] theorem callsInside_append (frames : List Frame) (current made : List Statement) :
    callsInside frames (current ++ made)
      = callsInside frames current ++ (Statement.partsList made).filterMap Part.call? := by
  simp [callsInside]

/-- A move keeps the calls in their order, if a held call counts where its local is read. -/
theorem Move.keeps_calls {p q : Point} (h : Move none program p q)
    (hheld : Tracks held p.state.locals) :
    ∃ held', Tracks held' q.state.locals
      ∧ callsInside p.frames p.current ++ Evaluation.deferred held (program.evaluations p.rest)
        = callsInside q.frames q.current
          ++ Evaluation.deferred held' (program.evaluations q.rest) := by
  cases h with
  | label hname hopen hclose =>
    refine ⟨held, hheld, ?_⟩
    simp [Program.evaluations_label hname, Statement.partsList, Statement.parts, Part.call?]
  | opens hname hroom =>
    refine ⟨held, hheld, ?_⟩
    simp [Program.evaluations_label hname, Opener.parts, Statement.partsList, Part.call?]
  | closes hname hopener =>
    refine ⟨held, hheld, ?_⟩
    simp [Program.evaluations_label hname, parts_finish, Statement.partsList]
  | otherwise hname helse hbrace hroom =>
    refine ⟨held, hheld, ?_⟩
    simp [Program.evaluations_label hname, Program.evaluations_label helse,
      Program.evaluations_label hbrace, Opener.parts, Statement.partsList, List.filterMap_cons,
      Part.call?]
  | bodyless hname helse hbrace =>
    refine ⟨held, hheld, ?_⟩
    simp [Program.evaluations_label hname, Program.evaluations_label helse, Opener.parts,
      Statement.partsList, Statement.parts, Statement.partsOption, List.filterMap_cons, Part.call?]
  | @assign at_ frames current made st t u id assign ids rest element x hassign hids helement hx
      hstore =>
    obtain ⟨hread, hcalls⟩ := hheld.took (took_chain hx)
    obtain ⟨i, more, rfl⟩ := List.exists_cons_of_ne_nil hids
    obtain ⟨r, hr, rfl, htracks⟩ | ⟨hnone, hmade, htracks⟩ := hread.store helement hstore
    · refine ⟨_, htracks, ?_⟩
      simp [Program.evaluations, hr, ← hcalls]
    · refine ⟨held, htracks, ?_⟩
      simp [Program.evaluations, hnone, hmade, ← hcalls]
  | capture hassign helement hname hxs hstore =>
    obtain ⟨hread, hcalls⟩ := hheld.took (took_arguments hxs)
    have hcall := Program.functionName?_of_expect hname
    obtain ⟨r, hr, rfl, htracks⟩ | ⟨hnone, hmade, htracks⟩ := hread.store helement hstore
    · refine ⟨_, htracks, ?_⟩
      simp [Program.evaluations, hr, hcall, ← hcalls, Expression.calls]
    · refine ⟨held, htracks, ?_⟩
      simp [Program.evaluations, hnone, hcall, hmade, ← hcalls, Expression.calls]
  | call hname hassign hbrace hxs =>
    obtain ⟨hread, hcalls⟩ := hheld.took (took_arguments hxs)
    refine ⟨held, hread, ?_⟩
    simp [Program.evaluations, Program.functionName?_of_expect hname, ← hcalls,
      Statement.partsList, Statement.parts, Part.call?]
  | bodyCall hname hassign hif hbrace hxs hroom =>
    obtain ⟨hread, hcalls⟩ := hheld.took (took_arguments hxs)
    refine ⟨held, hread, ?_⟩
    simp [Program.evaluations, Program.functionName?_of_expect hname, ← hcalls,
      Program.evaluations_label hbrace, Opener.parts, Statement.partsList, Part.call?]
  | condition hname hids hbrace hx hroom =>
    obtain ⟨hread, hcalls⟩ := hheld.took (took_chain hx)
    refine ⟨held, hread, ?_⟩
    simp [Program.evaluations, Program.functionName?_of_expect hname, ← hcalls,
      Program.evaluations_label hbrace, Opener.parts, Statement.partsList, Part.call?]

theorem calls_of_moves {p e : Point} (h : Relation.ReflTransGen (Move none program) p e)
    {held : Nat → List String} (hheld : Tracks held p.state.locals) :
    ∃ held', callsInside p.frames p.current
        ++ Evaluation.deferred held (program.evaluations p.rest)
      = callsInside e.frames e.current
        ++ Evaluation.deferred held' (program.evaluations e.rest) := by
  induction h using Relation.ReflTransGen.head_induction_on generalizing held with
  | refl => exact ⟨held, rfl⟩
  | head hmove _ ih =>
    obtain ⟨held₁, htracks, hstep⟩ := hmove.keeps_calls hheld
    obtain ⟨held₂, hrest⟩ := ih htracks
    exact ⟨held₂, hstep.trans hrest⟩

/-- What a run of moves has read evaluates the calls of the instructions. -/
theorem flatMap_evaluations_of_moves {p : Point} {end_ : Nat} {tree : List Statement}
    {st : DecompileState}
    (h : Relation.ReflTransGen (Move none program) p ⟨end_, [], tree, st, []⟩) :
    (program.evaluations p.rest).flatMap (·.call.toList)
      = program.callsBehind false p.rest := by
  induction h using Relation.ReflTransGen.head_induction_on with
  | refl => rfl
  | head hmove _ ih =>
    have hlabel {i : Instruction} {name : String} {rest : List Instruction}
        (hname : labelName? program (some i) = some name) :
        program.callsBehind false (i :: rest) = program.callsBehind false rest := by
      obtain ⟨id, rfl⟩ := Program.exists_label hname
      rfl
    cases hmove with
    | label hname _ _ | opens hname _ | closes hname _ =>
      rw [Program.evaluations_label hname, hlabel hname, ih]
    | otherwise hname helse hbrace _ =>
      rw [Program.evaluations_label hname, Program.evaluations_label helse,
        Program.evaluations_label hbrace, hlabel hname, hlabel helse, hlabel hbrace, ih]
    | bodyless hname helse _ =>
      rw [Program.evaluations_label hname, Program.evaluations_label helse, hlabel hname,
        hlabel helse, ih]
    | assign hassign hids _ _ _ =>
      obtain ⟨i, more, rfl⟩ := List.exists_cons_of_ne_nil hids
      simp [Program.evaluations, Program.callsBehind, hassign, ih]
    | capture hassign _ _ _ _ => simp [Program.evaluations, Program.callsBehind, hassign, ih]
    | call _ _ _ _ => simp [Program.evaluations, Program.callsBehind, ih]
    | bodyCall _ _ _ hbrace _ _ | condition _ _ hbrace _ _ =>
      simp [Program.evaluations, Program.evaluations_label hbrace, Program.callsBehind,
        hlabel hbrace, ih]

end Decompile

section

variable {program : Program} {strings : Option StringTable} {tree : List Statement}

/-- A tree has the calls of its program, each held one where its local is read. -/
theorem callsIn_of_decompile (h : (decompile none strings program).result = .ok tree) :
    Statement.callsIn tree = program.deferredCalls := by
  obtain ⟨end_, st, hmoves, -⟩ := Decompile.moves_of_decompile h
  have hstart : Decompile.Tracks (fun _ => []) ({} : HeldLocals) := by
    rintro r ⟨x, hx⟩
    simp [HeldLocals.get?] at hx
  obtain ⟨held, hcalls⟩ := Decompile.calls_of_moves hmoves hstart
  rw [Statement.callsIn, Program.deferredCalls]
  simpa [Decompile.callsInside, Program.evaluations, Evaluation.deferred, Statement.partsList]
    using hcalls.symm

/-- Read in order, held calls stay where they are. -/
theorem deferredCalls_of_readsInOrder (h : (decompile none strings program).result = .ok tree)
    (horder : program.readsInOrder = true) : program.deferredCalls = program.calls := by
  obtain ⟨end_, st, hmoves, -⟩ := Decompile.moves_of_decompile h
  rw [Program.deferredCalls, Evaluation.deferred_of_inOrder horder, List.flatMap_nil,
    List.nil_append]
  exact Decompile.flatMap_evaluations_of_moves hmoves

end
end NovelScript
