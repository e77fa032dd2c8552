import Mathlib.Data.List.Nodup
import NovelScript.Proofs.Script.Moves

/-!
# Calls in what the decompiler reads

The calls of an expression, innermost first, are the calls that evaluating it makes, in order.  A
value that the decompiler reads has no calls of its own: they are those of the values that it takes
from locals, each local once and in the order of the code (`arguments_took`, `chain_took`).
-/

namespace NovelScript

namespace Expression

mutual

/-- The functions that an expression calls, in the order in which they are called. -/
def calls : Expression → List String
  | operation operands _ => callsList operands
  | call function arguments => callsList arguments ++ [function]
  | _ => []

/-- The functions that expressions call. -/
def callsList : List Expression → List String
  | [] => []
  | x :: xs => calls x ++ callsList xs

end

end Expression

/-- The registers among the elements at some positions. -/
def Program.registersAt (program : Program) (ids : List ElementId) : List Nat :=
  ids.filterMap fun id => program.elements[id]?.bind Element.register?

/-- The calls in the value of a local. -/
abbrev HeldLocals.callsAt (held : HeldLocals) (r : Nat) : List String :=
  held.gatherAt Expression.calls r

theorem Program.registersAt_cons {program : Program} {id : ElementId} {element : Element}
    (h : program.expect id = .ok element) (ids : List ElementId) :
    program.registersAt (id :: ids) = element.register?.toList ++ program.registersAt ids := by
  rw [registersAt, List.filterMap_cons, expect_eq_ok_iff.mp h]
  cases h : element.register? <;> simp [registersAt, h]

namespace Decompile

/-- Between the states the values of these locals have been read, one after the other, and nothing
else has changed.  These are the calls in them. -/
structure Took (st t : DecompileState) (rs : List Nat) (calls : List String) : Prop where
  state : t = { st with locals := st.locals.takeAll rs }
  nodup : rs.Nodup
  pending : ∀ r ∈ rs, st.locals.Pending r
  calls : calls = rs.flatMap st.locals.callsAt

section

variable {program : Program} {st t u : DecompileState} {rs rs' : List Nat}
  {calls calls' : List String}

theorem Took.refl (st : DecompileState) : Took st st [] [] := ⟨rfl, List.nodup_nil, by simp, rfl⟩

theorem Took.trans (h : Took st t rs calls) (h' : Took t u rs' calls') :
    Took st u (rs ++ rs') (calls ++ calls') := by
  obtain ⟨rfl, hnodup, hpending, rfl⟩ := h
  obtain ⟨rfl, hnodup', hpending', rfl⟩ := h'
  -- what has been read is no longer pending
  have hother (r : Nat) (hr : r ∈ rs') : r ∉ rs ∧ st.locals.Pending r :=
    (st.locals.pending_takeAll rs r).mp (hpending' r hr)
  refine ⟨by simp [HeldLocals.takeAll], ?_, ?_, ?_⟩
  · rw [List.nodup_append]
    exact ⟨hnodup, hnodup', fun r hr r' hr' h => (hother r' hr').1 (h ▸ hr)⟩
  · exact fun r hr => (List.mem_append.mp hr).elim (hpending r) fun hr => (hother r hr).2
  · rw [List.flatMap_append]
    refine congrArg _ (List.flatMap_congr fun r hr => ?_)
    simp only [HeldLocals.gatherAt, HeldLocals.get?_takeAll, if_neg (hother r hr).1]

theorem answers_takeLocal {r : Nat} {x : Expression} (h : Answers (takeLocal r) st x t) :
    st.locals.get? r = some (some x) ∧ t = { st with locals := st.locals.set r none } := by
  rw [takeLocal] at h
  obtain ⟨_, _, hget, h⟩ := answers_bind.mp h
  obtain ⟨rfl, rfl⟩ := answers_get.mp hget
  rcases hr : st.locals.get? r with _ | _ | y
  · simp [hr] at h
  · simp [hr] at h
  · simp only [hr] at h
    obtain ⟨_, _, hset, h⟩ := answers_bind.mp h
    obtain rfl := answers_set.mp hset
    obtain ⟨rfl, rfl⟩ := answers_pure.mp h
    exact ⟨rfl, rfl⟩

theorem took_takeLocal {r : Nat} {x : Expression} (h : Answers (takeLocal r) st x t) :
    Took st t [r] x.calls := by
  obtain ⟨hr, rfl⟩ := answers_takeLocal h
  refine ⟨rfl, List.nodup_singleton r, ?_, ?_⟩
  · exact fun r' hr' => ⟨x, List.mem_singleton.mp hr' ▸ hr⟩
  · simp [HeldLocals.gatherAt, hr]

/-- A value has no calls, unless it is that of a local. -/
theorem took_value {element : Element} {x : Expression} (h : Answers (value element) st x t) :
    Took st t element.register?.toList x.calls := by
  cases element with
  | localVar r => exact took_takeLocal h
  | function _ | marker _ => exact absurd h answers_corrupt
  | integer n =>
    rw [value] at h
    split at h
    all_goals
      obtain ⟨rfl, rfl⟩ := answers_pure.mp h
      exact .refl st
  | text _ | special _ =>
    obtain ⟨rfl, rfl⟩ := answers_pure.mp h
    exact .refl st
  | intFlag _ _ | textFlag _ _ =>
    rw [value] at h
    split at h
    · next which _ =>
      obtain ⟨rfl, rfl⟩ := answers_pure.mp h
      cases which <;> exact .refl st
    · exact absurd h answers_corrupt

theorem took_argument {function : String} {id : ElementId} {x : Expression}
    (h : Answers (argument none program function id) st x t) :
    ∃ element, program.expect id = .ok element ∧ Took st t element.register?.toList x.calls := by
  rw [argument] at h
  obtain ⟨element, _, he, h⟩ := answers_bind.mp h
  obtain ⟨helement, rfl⟩ := answers_expect.mp he
  refine ⟨element, helement, ?_⟩
  cases element with
  | marker m =>
    simp only at h
    split at h
    · exact absurd h answers_corrupt
    · obtain ⟨rfl, rfl⟩ := answers_pure.mp h
      exact .refl st
  | text text =>
    simp only [textArgument] at h
    obtain ⟨_, _, hget, h⟩ := answers_bind.mp h
    obtain ⟨rfl, rfl⟩ := answers_get.mp hget
    obtain ⟨rfl, rfl⟩ := answers_pure.mp h
    exact .refl st
  | _ => exact took_value h

/-- The calls in arguments are those in the locals that they are read from. -/
theorem took_arguments {function : String} {ids : List ElementId} {xs : List Expression}
    (h : Answers (arguments none program function ids) st xs t) :
    Took st t (program.registersAt ids) (Expression.callsList xs) := by
  induction ids generalizing st xs with
  | nil =>
    obtain ⟨rfl, rfl⟩ := answers_pure.mp h
    exact .refl st
  | cons id ids ih =>
    rw [arguments] at h
    obtain ⟨x, _, hx, h⟩ := answers_bind.mp h
    obtain ⟨rest, _, hrest, h⟩ := answers_bind.mp h
    obtain ⟨rfl, rfl⟩ := answers_pure.mp h
    obtain ⟨element, he, htook⟩ := took_argument hx
    rw [Program.registersAt_cons he]
    exact htook.trans (ih hrest)

/-! ## Chains -/

theorem took_operand {id : ElementId} {x : Expression} (h : Answers (operand program id) st x t) :
    ∃ element, program.expect id = .ok element ∧ Took st t element.register?.toList x.calls := by
  rw [operand] at h
  obtain ⟨element, _, he, h⟩ := answers_bind.mp h
  obtain ⟨helement, rfl⟩ := answers_expect.mp he
  refine ⟨element, helement, ?_⟩
  cases element with
  | marker m => exact absurd h answers_corrupt
  | _ => exact took_value h

theorem register?_of_operator {element : Element} {name : String}
    (h : operator? element = some name) : element.register? = none := by
  cases element with
  | marker m => rfl
  | _ => simp [operator?] at h

mutual

theorem took_chainFrom (ids : List ElementId) {st t : DecompileState}
    {r : List Expression × List String} (h : Answers (chainFrom program ids) st r t) :
    Took st t (program.registersAt ids) (Expression.callsList r.1) := by
  match ids with
  | [] => exact absurd h answers_corrupt
  | [id] =>
    rw [chainFrom] at h
    obtain ⟨element, _, he, h⟩ := answers_bind.mp h
    obtain ⟨-, rfl⟩ := answers_expect.mp he
    split at h
    · exact absurd h answers_corrupt
    · obtain ⟨x, _, hx, h⟩ := answers_bind.mp h
      obtain ⟨element, he, htook⟩ := took_operand hx
      obtain ⟨calls, hcalls, hrest⟩ := took_chainBehind [] h
      rw [Program.registersAt_cons he, hcalls]
      exact htook.trans hrest
  | id :: next :: rest =>
    rw [chainFrom] at h
    obtain ⟨element, _, he, h⟩ := answers_bind.mp h
    obtain ⟨helement, rfl⟩ := answers_expect.mp he
    split at h
    · next sign hsign =>
      obtain ⟨x, _, hx, h⟩ := answers_bind.mp h
      obtain ⟨operand, he, htook⟩ := took_operand hx
      obtain ⟨calls, hcalls, hrest⟩ := took_chainBehind rest h
      rw [Program.registersAt_cons helement, register?_of_operator hsign,
        Program.registersAt_cons he, hcalls]
      simpa [Expression.binary, Expression.calls, Expression.callsList] using htook.trans hrest
    · obtain ⟨x, _, hx, h⟩ := answers_bind.mp h
      obtain ⟨element, he, htook⟩ := took_operand hx
      obtain ⟨calls, hcalls, hrest⟩ := took_chainBehind (next :: rest) h
      rw [Program.registersAt_cons he, hcalls]
      exact htook.trans hrest

theorem took_chainBehind (ids : List ElementId) {st t : DecompileState} {x : Expression}
    {r : List Expression × List String} (h : Answers (chainBehind program x ids) st r t) :
    ∃ calls, Expression.callsList r.1 = x.calls ++ calls
      ∧ Took st t (program.registersAt ids) calls := by
  match ids with
  | [] =>
    rw [chainBehind] at h
    obtain ⟨rfl, rfl⟩ := answers_pure.mp h
    exact ⟨[], rfl, .refl st⟩
  | id :: rest =>
    rw [chainBehind] at h
    obtain ⟨element, _, he, h⟩ := answers_bind.mp h
    obtain ⟨helement, rfl⟩ := answers_expect.mp he
    split at h
    · next name hname =>
      obtain ⟨r, _, hr, h⟩ := answers_bind.mp h
      obtain ⟨rfl, rfl⟩ := answers_pure.mp h
      refine ⟨Expression.callsList r.1, rfl, ?_⟩
      rw [Program.registersAt_cons helement, register?_of_operator hname]
      exact took_chainFrom rest hr
    · exact absurd h answers_corrupt

end

/-- The calls in a chain are those in the locals that it is read from. -/
theorem took_chain {ids : List ElementId} {x : Expression}
    (h : Answers (chain program ids) st x t) :
    Took st t (program.registersAt ids) x.calls := by
  rw [chain] at h
  obtain ⟨r, _, hr, h⟩ := answers_bind.mp h
  have htook := took_chainFrom ids hr
  split at h
  all_goals obtain ⟨rfl, rfl⟩ := answers_pure.mp h
  · simpa [Expression.callsList] using htook
  · exact htook

end
end Decompile
end NovelScript
