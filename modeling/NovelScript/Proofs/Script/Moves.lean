import Mathlib.Logic.Relation
import NovelScript.Proofs.Script.Walk

/-!
# The walk, move by move

What the decompiler does with the code of one statement, or with one brace, is a `Move` from one
`Point` of the walk to the next.  A walk that answers is a run of moves down to the end of the
instructions (`moves_of_walk`).  So what each move preserves holds of every tree that a program
decompiles to (`moves_of_decompile`, `invariant_of_decompile`), and no proof about the decompiler's
answers has to unfold the walk again.
-/

namespace NovelScript
namespace Decompile

/-! ## Points and moves -/

/-- A point of the walk: its position, the open blocks, the statements in front of it in the
innermost block, the state and the instructions still to come. -/
structure Point where
  at_ : Nat
  frames : List Frame
  current : List Statement
  state : DecompileState
  rest : List Instruction

/-- The walk from a point on. -/
def Point.walk (rules : Option ExternalizeRules) (program : Program) (p : Point) :
    Decompile (List Statement) :=
  Decompile.walk rules program p.at_ p.frames p.current p.rest

/-- What the walk may do at a point. -/
inductive Move (rules : Option ExternalizeRules) (program : Program) : Point → Point → Prop
  /-- A label becomes a statement. -/
  | label {at_ : Nat} {frames : List Frame} {current : List Statement} {st : DecompileState}
      {i : Instruction} {rest : List Instruction} {name : String}
      (hname : labelName? program (some i) = some name)
      (hopen : name ≠ blockOpen) (hclose : name ≠ blockClose) :
    Move rules program ⟨at_, frames, current, st, i :: rest⟩
      ⟨at_ + 1, frames, current ++ [.label name], st, rest⟩
  /-- A brace opens a block of its own. -/
  | opens {at_ : Nat} {frames : List Frame} {current : List Statement} {st : DecompileState}
      {i : Instruction} {rest : List Instruction}
      (hname : labelName? program (some i) = some blockOpen)
      (hroom : frames.length < maxBlockDepth) :
    Move rules program ⟨at_, frames, current, st, i :: rest⟩
      ⟨at_ + 1, ⟨.block, current⟩ :: frames, [], st, rest⟩
  /-- A brace closes a block, which becomes a statement. -/
  | closes {at_ : Nat} {opener : Opener} {before : List Statement} {frames : List Frame}
      {current : List Statement} {st : DecompileState} {i : Instruction} {rest : List Instruction}
      (hname : labelName? program (some i) = some blockClose)
      (hopener : Finishes program rest opener) :
    Move rules program ⟨at_, ⟨opener, before⟩ :: frames, current, st, i :: rest⟩
      ⟨at_ + 1, frames, before ++ [finish opener current], st, rest⟩
  /-- An `else` with a body goes on with the condition that closes in front of it. -/
  | otherwise {at_ : Nat} {condition : Expression} {before : List Statement} {frames : List Frame}
      {current : List Statement} {st : DecompileState} {i next brace : Instruction}
      {rest : List Instruction} (hname : labelName? program (some i) = some blockClose)
      (helse : labelName? program (some next) = some elseLabel)
      (hbrace : labelName? program (some brace) = some blockOpen)
      (hroom : frames.length < maxBlockDepth) :
    Move rules program
      ⟨at_, ⟨.condition condition, before⟩ :: frames, current, st, i :: next :: brace :: rest⟩
      ⟨at_ + 3, ⟨.otherwise condition current, before⟩ :: frames, [], st, rest⟩
  /-- An `else` without a body has an empty one, which is worth a warning. -/
  | bodyless {at_ : Nat} {condition : Expression} {before : List Statement} {frames : List Frame}
      {current : List Statement} {st : DecompileState} {i next : Instruction}
      {rest : List Instruction} (hname : labelName? program (some i) = some blockClose)
      (helse : labelName? program (some next) = some elseLabel)
      (hbrace : labelName? program rest.head? ≠ some blockOpen) :
    Move rules program
      ⟨at_, ⟨.condition condition, before⟩ :: frames, current, st, i :: next :: rest⟩
      ⟨at_ + 2, frames, before ++ [.conditional condition current (some [])],
        { st with warnings := st.warnings ++ [.elseWithoutBody (at_ + 1)] }, rest⟩
  /-- A chain is stored. -/
  | assign {at_ : Nat} {frames : List Frame} {current made : List Statement}
      {st t u : DecompileState} {id assign : ElementId} {ids : List ElementId}
      {rest : List Instruction} {element : Element} {x : Expression}
      (hassign : isAssign program assign = true) (hids : ids ≠ [])
      (helement : program.expect id = .ok element) (hx : Answers (chain program ids) st x t)
      (hstore : Answers (store program at_ element x) t made u) :
    Move rules program ⟨at_, frames, current, st, .target id :: .call assign ids :: rest⟩
      ⟨at_ + 2, frames, current ++ made, u, rest⟩
  /-- The answer of a call is stored. -/
  | capture {at_ : Nat} {frames : List Frame} {current made : List Statement}
      {st t u : DecompileState} {id assign function : ElementId} {ids : List ElementId}
      {rest : List Instruction} {element : Element} {name : String} {xs : List Expression}
      (hassign : isAssign program assign = true) (helement : program.expect id = .ok element)
      (hname : program.expect function = .ok (.function name))
      (hxs : Answers (arguments rules program name ids) st xs t)
      (hstore : Answers (store program at_ element (.call name xs)) t made u) :
    Move rules program
      ⟨at_, frames, current, st, .target id :: .call assign [] :: .call function ids :: rest⟩
      ⟨at_ + 3, frames, current ++ made, u, rest⟩
  /-- A call becomes a statement. -/
  | call {at_ : Nat} {frames : List Frame} {current : List Statement} {st t : DecompileState}
      {function : ElementId} {ids : List ElementId} {rest : List Instruction} {name : String}
      {xs : List Expression} (hname : program.expect function = .ok (.function name))
      (hassign : name ≠ assignFunction) (hbrace : labelName? program rest.head? ≠ some blockOpen)
      (hxs : Answers (arguments rules program name ids) st xs t) :
    Move rules program ⟨at_, frames, current, st, .call function ids :: rest⟩
      ⟨at_ + 1, frames, current ++ [.call name xs], t, rest⟩
  /-- A call in front of a brace owns the block. -/
  | bodyCall {at_ : Nat} {frames : List Frame} {current : List Statement} {st t : DecompileState}
      {function : ElementId} {ids : List ElementId} {brace : Instruction}
      {rest : List Instruction} {name : String} {xs : List Expression}
      (hname : program.expect function = .ok (.function name))
      (hassign : name ≠ assignFunction) (hif : name ≠ ifFunction)
      (hbrace : labelName? program (some brace) = some blockOpen)
      (hxs : Answers (arguments rules program name ids) st xs t)
      (hroom : frames.length < maxBlockDepth) :
    Move rules program ⟨at_, frames, current, st, .call function ids :: brace :: rest⟩
      ⟨at_ + 2, ⟨.call name xs, current⟩ :: frames, [], t, rest⟩
  /-- An `if` in front of a brace has the block as its body. -/
  | condition {at_ : Nat} {frames : List Frame} {current : List Statement}
      {st t : DecompileState} {function : ElementId} {ids : List ElementId} {brace : Instruction}
      {rest : List Instruction} {x : Expression}
      (hname : program.expect function = .ok (.function ifFunction)) (hids : ids ≠ [])
      (hbrace : labelName? program (some brace) = some blockOpen)
      (hx : Answers (chain program ids) st x t) (hroom : frames.length < maxBlockDepth) :
    Move rules program ⟨at_, frames, current, st, .call function ids :: brace :: rest⟩
      ⟨at_ + 2, ⟨.condition x, current⟩ :: frames, [], t, rest⟩

section

variable {rules : Option ExternalizeRules} {program : Program} {st t : DecompileState}

/-! ## A walk that answers -/

@[simp] theorem answers_corrupt {α : Type} {fault : Corruption} {a : α} :
    ¬ Answers (corrupt fault : Decompile α) st a t :=
  answers_throw

@[simp] theorem answers_expect {id : ElementId} {element : Element} :
    Answers (expect program id) st element t ↔ program.expect id = .ok element ∧ st = t :=
  answers_mk

@[simp] theorem answers_warn {warning : DecompileWarning} {x : Unit} :
    Answers (warn warning) st x t ↔ { st with warnings := st.warnings ++ [warning] } = t :=
  answers_modify

@[simp] theorem answers_functionName {id : ElementId} {name : String} :
    Answers (functionName program id) st name t
      ↔ program.expect id = .ok (.function name) ∧ st = t := by
  rw [functionName, answers_bind]
  constructor
  · rintro ⟨element, t, h, h'⟩
    obtain ⟨he, rfl⟩ := answers_expect.mp h
    cases element with
    | function name =>
      obtain ⟨rfl, rfl⟩ := answers_pure.mp h'
      exact ⟨he, rfl⟩
    | _ => exact absurd h' answers_corrupt
  · rintro ⟨he, rfl⟩
    exact ⟨_, _, answers_expect.mpr ⟨he, rfl⟩, answers_pure.mpr ⟨rfl, rfl⟩⟩

@[simp] theorem answers_push {at_ : Nat} {opener : Opener} {before : List Statement}
    {frames inside : List Frame} :
    Answers (push at_ opener before frames) st inside t
      ↔ frames.length < maxBlockDepth ∧ ⟨opener, before⟩ :: frames = inside ∧ st = t := by
  rw [push]
  split
  · next h => simp [Nat.not_lt.mpr h]
  · next h => simp [Nat.not_le.mp h]

theorem labelName?_of_marker {id : ElementId} {marker : Marker}
    (h : program.marker? id = some marker) :
    labelName? program (some (.label id)) = some marker.name := by
  rw [labelName?, h, Option.map_some]

variable {at_ : Nat} {frames : List Frame} {current tree : List Statement}
  {rest : List Instruction}

theorem move_of_label {id : ElementId}
    (h : Answers (walk rules program at_ frames current (.label id :: rest)) st tree t) :
    ∃ p, Move rules program ⟨at_, frames, current, st, .label id :: rest⟩ p
      ∧ Answers (p.walk rules program) p.state tree t := by
  rw [walk.eq_def] at h
  cases hm : program.marker? id with
  | none => simp [hm] at h
  | some marker =>
    have hname := labelName?_of_marker hm
    simp only [hm] at h
    split at h
    · next hclose =>
      rw [hclose] at hname
      cases frames with
      | nil => simp at h
      | cons frame frames =>
        obtain ⟨opener, before⟩ := frame
        cases opener with
        | block | call _ _ | otherwise _ _ => exact ⟨_, .closes hname trivial, h⟩
        | condition condition =>
          cases rest with
          | nil => exact ⟨_, .closes hname (by simp [Finishes, labelName?]), h⟩
          | cons next others =>
            simp only at h
            split at h
            · next helse =>
              cases others with
              | nil =>
                obtain ⟨_, _, hwarn, h⟩ := answers_bind.mp h
                obtain rfl := answers_warn.mp hwarn
                exact ⟨_, .bodyless hname helse (by simp [labelName?]), h⟩
              | cons brace inside =>
                simp only at h
                split at h
                · next hbrace =>
                  obtain ⟨_, _, hpush, h⟩ := answers_bind.mp h
                  obtain ⟨hroom, rfl, rfl⟩ := answers_push.mp hpush
                  exact ⟨_, .otherwise hname helse hbrace hroom, h⟩
                · next hbrace =>
                  obtain ⟨_, _, hwarn, h⟩ := answers_bind.mp h
                  obtain rfl := answers_warn.mp hwarn
                  exact ⟨_, .bodyless hname helse hbrace, h⟩
            · next helse => exact ⟨_, .closes hname helse, h⟩
    · next hclose =>
      split at h
      · next hopen =>
        rw [hopen] at hname
        obtain ⟨_, _, hpush, h⟩ := answers_bind.mp h
        obtain ⟨hroom, rfl, rfl⟩ := answers_push.mp hpush
        exact ⟨_, .opens hname hroom, h⟩
      · next hopen => exact ⟨_, .label hname hopen hclose, h⟩

theorem move_of_target {id : ElementId}
    (h : Answers (walk rules program at_ frames current (.target id :: rest)) st tree t) :
    ∃ p, Move rules program ⟨at_, frames, current, st, .target id :: rest⟩ p
      ∧ Answers (p.walk rules program) p.state tree t := by
  rw [walk.eq_def] at h
  obtain ⟨element, _, he, h⟩ := answers_bind.mp h
  obtain ⟨helement, rfl⟩ := answers_expect.mp he
  cases rest with
  | nil => simp at h
  | cons next rest =>
    cases next with
    | label _ | target _ => simp at h
    | call assign ids =>
      simp only at h
      split at h
      · simp at h
      next hassign =>
      have hassign : isAssign program assign = true := by simpa using hassign
      cases ids with
      | cons id ids =>
        simp only [List.isEmpty_cons, Bool.false_eq_true, if_false] at h
        obtain ⟨x, _, hx, h⟩ := answers_bind.mp h
        obtain ⟨made, _, hstore, h⟩ := answers_bind.mp h
        exact ⟨_, .assign hassign (by simp) helement hx hstore, h⟩
      | nil =>
        cases rest with
        | nil => simp at h
        | cons next rest =>
          cases next with
          | label _ | target _ => simp at h
          | call function ids =>
            simp only [List.isEmpty_nil, if_true] at h
            obtain ⟨name, _, hf, h⟩ := answers_bind.mp h
            obtain ⟨hname, rfl⟩ := answers_functionName.mp hf
            obtain ⟨xs, _, hxs, h⟩ := answers_bind.mp h
            obtain ⟨made, _, hstore, h⟩ := answers_bind.mp h
            exact ⟨_, .capture hassign helement hname hxs hstore, h⟩

theorem move_of_call {function : ElementId} {ids : List ElementId}
    (h : Answers (walk rules program at_ frames current (.call function ids :: rest)) st tree t) :
    ∃ p, Move rules program ⟨at_, frames, current, st, .call function ids :: rest⟩ p
      ∧ Answers (p.walk rules program) p.state tree t := by
  rw [walk.eq_def] at h
  obtain ⟨name, _, hf, h⟩ := answers_bind.mp h
  obtain ⟨hname, rfl⟩ := answers_functionName.mp hf
  by_cases hassign : name = assignFunction
  · simp [hassign] at h
  rw [if_neg hassign] at h
  cases rest with
  | nil =>
    obtain ⟨xs, _, hxs, h⟩ := answers_bind.mp h
    exact ⟨_, .call hname hassign (by simp [labelName?]) hxs, h⟩
  | cons brace inside =>
    simp only at h
    split at h
    · next hbrace =>
      obtain ⟨xs, _, hxs, h⟩ := answers_bind.mp h
      exact ⟨_, .call hname hassign hbrace hxs, h⟩
    · next hbrace =>
      have hbrace := not_not.mp hbrace
      split at h
      · next hif =>
        subst hif
        cases ids with
        | nil => simp at h
        | cons id ids =>
          obtain ⟨x, _, hx, h⟩ := answers_bind.mp h
          obtain ⟨_, _, hpush, h⟩ := answers_bind.mp h
          obtain ⟨hroom, rfl, rfl⟩ := answers_push.mp hpush
          exact ⟨_, .condition hname (by simp) hbrace hx hroom, h⟩
      · next hif =>
        obtain ⟨xs, _, hxs, h⟩ := answers_bind.mp h
        obtain ⟨_, _, hpush, h⟩ := answers_bind.mp h
        obtain ⟨hroom, rfl, rfl⟩ := answers_push.mp hpush
        exact ⟨_, .bodyCall hname hassign hif hbrace hxs hroom, h⟩

/-- In front of an instruction, a walk that answers makes a move. -/
theorem move_of_walk {i : Instruction}
    (h : Answers (walk rules program at_ frames current (i :: rest)) st tree t) :
    ∃ p, Move rules program ⟨at_, frames, current, st, i :: rest⟩ p
      ∧ Answers (p.walk rules program) p.state tree t := by
  cases i with
  | label id => exact move_of_label h
  | target id => exact move_of_target h
  | call function ids => exact move_of_call h

theorem Move.length_lt {p q : Point} (h : Move rules program p q) :
    q.rest.length < p.rest.length := by
  cases h <;> simp only [List.length_cons] <;> omega

/-- A walk that answers is a run of moves down to the end of the instructions, where no block is
open. -/
theorem moves_of_walk {p : Point} (h : Answers (p.walk rules program) p.state tree t) :
    ∃ end_, Relation.ReflTransGen (Move rules program) p ⟨end_, [], tree, t, []⟩ := by
  induction hn : p.rest.length using Nat.strongRecOn generalizing p with
  | ind n ih =>
    obtain ⟨at_, frames, current, st, rest⟩ := p
    cases rest with
    | nil =>
      simp only [Point.walk, walk] at h
      split at h
      · next hframes =>
        obtain ⟨rfl, rfl⟩ := answers_pure.mp h
        rw [List.isEmpty_iff] at hframes
        exact ⟨at_, hframes ▸ .refl⟩
      · exact absurd h answers_corrupt
    | cons i rest =>
      obtain ⟨q, hmove, hq⟩ := move_of_walk h
      obtain ⟨end_, hmoves⟩ := ih _ (hn ▸ hmove.length_lt) hq rfl
      exact ⟨end_, .head hmove hmoves⟩

/-- A tree comes of a run of moves; then values left in locals are worth a warning. -/
theorem moves_of_decompile {strings : Option StringTable}
    (h : (decompile rules strings program).result = .ok tree) :
    ∃ end_ st, Relation.ReflTransGen (Move rules program)
        ⟨0, [], [], { strings }, program.instructions⟩ ⟨end_, [], tree, st, []⟩
      ∧ (decompile rules strings program).warnings = st.warnings
        ++ if 0 < st.locals.unused then [.localsUnused st.locals.unused] else [] := by
  rcases hrun : ((statements rules program).run.run { strings } :
    Except ScriptError (List Statement) × DecompileState) with ⟨r, u⟩
  rw [decompile, hrun] at h ⊢
  obtain rfl : r = .ok tree := h
  have hanswers : Answers (statements rules program) { strings } tree u := hrun
  rw [statements, answers_bind] at hanswers
  obtain ⟨_, _, hget, hanswers⟩ := hanswers
  obtain ⟨rfl, rfl⟩ := answers_get.mp hget
  split at hanswers
  · simp at hanswers
  · obtain ⟨made, st, hwalk, hanswers⟩ := answers_bind.mp hanswers
    obtain ⟨_, _, hget, hanswers⟩ := answers_bind.mp hanswers
    obtain ⟨rfl, rfl⟩ := answers_get.mp hget
    obtain ⟨end_, hmoves⟩ := moves_of_walk (p := ⟨0, [], [], _, _⟩) hwalk
    simp only at hanswers
    split at hanswers
    · next hunused =>
      obtain ⟨_, _, hwarn, hpure⟩ := answers_bind.mp hanswers
      obtain rfl := answers_warn.mp hwarn
      obtain ⟨rfl, rfl⟩ := answers_pure.mp hpure
      exact ⟨end_, st, hmoves, by rw [if_pos hunused]⟩
    · next hunused =>
      obtain ⟨rfl, rfl⟩ := answers_pure.mp hanswers
      exact ⟨end_, st, hmoves, by rw [if_neg hunused, List.append_nil]⟩

theorem invariant_of_moves {Keeps : Point → Prop} {p e : Point}
    (hmove : ∀ {p q : Point}, Move rules program p q → Keeps p → Keeps q)
    (h : Relation.ReflTransGen (Move rules program) p e) (hp : Keeps p) : Keeps e := by
  induction h with
  | refl => exact hp
  | tail _ hlast ih => exact hmove hlast ih

/-- What holds before the first move, and behind every move if in front of it, holds at the end. -/
theorem invariant_of_decompile {strings : Option StringTable} {Keeps : Point → Prop}
    (hmove : ∀ {p q : Point}, Move rules program p q → Keeps p → Keeps q)
    (h : (decompile rules strings program).result = .ok tree)
    (hstart : Keeps ⟨0, [], [], { strings }, program.instructions⟩) :
    ∃ end_ st, Keeps ⟨end_, [], tree, st, []⟩ := by
  obtain ⟨end_, st, hmoves, -⟩ := moves_of_decompile h
  exact ⟨end_, st, invariant_of_moves hmove hmoves hstart⟩

/-! ## Values that are stored -/

/-- A local holds what is stored into it, and a value that it still held is lost; any other element
has to name a target, and the statement is made. -/
theorem store_cases {at_ : Nat} {element : Element} {x : Expression} {made : List Statement}
    (h : Answers (store program at_ element x) st made t) :
    (∃ r, element = .localVar r ∧ r < program.maxLocals ∧ made = []
      ∧ t = { st with
        locals := st.locals.set r (some x)
        warnings := st.warnings ++
          if (st.locals.get? r).any (·.isSome) then [.localOverwritten r at_] else [] })
    ∨ element.register? = none
      ∧ ∃ dest, target element = .ok dest ∧ made = [.assignment dest x] ∧ t = st := by
  by_cases hlocal : ∃ r, element = .localVar r
  · obtain ⟨r, rfl⟩ := hlocal
    refine .inl ⟨r, rfl, ?_⟩
    rw [store] at h
    split at h
    · simp at h
    · next hlow =>
      obtain ⟨_, _, hget, h⟩ := answers_bind.mp h
      obtain ⟨rfl, rfl⟩ := answers_get.mp hget
      simp only at h
      split at h
      · next hheld =>
        obtain ⟨_, _, hwarn, h⟩ := answers_bind.mp h
        obtain rfl := answers_warn.mp hwarn
        obtain ⟨_, _, hset, h⟩ := answers_bind.mp h
        obtain rfl := answers_modify.mp hset
        obtain ⟨rfl, rfl⟩ := answers_pure.mp h
        exact ⟨Nat.not_le.mp hlow, rfl, by rw [if_pos hheld]⟩
      · next hheld =>
        obtain ⟨_, _, hset, h⟩ := answers_bind.mp h
        obtain rfl := answers_modify.mp hset
        obtain ⟨rfl, rfl⟩ := answers_pure.mp h
        exact ⟨Nat.not_le.mp hlow, rfl, by rw [if_neg hheld, List.append_nil]⟩
  · have hother (r : Nat) (hr : element = .localVar r) : False := hlocal ⟨r, hr⟩
    refine .inr ⟨?_, ?_⟩
    · cases element with
      | localVar r => exact (hother r rfl).elim
      | _ => rfl
    · rw [store] at h
      · split at h
        · next dest hdest =>
          obtain ⟨rfl, rfl⟩ := answers_pure.mp h
          exact ⟨dest, hdest, rfl, rfl⟩
        · exact absurd h answers_corrupt
      · exact hother

end
end Decompile
end NovelScript
