import NovelScript.Proofs.Script.Emission
import NovelScript.Proofs.Script.Pieces

/-!
# The compiler takes every compilable tree

`Statement.CompilableList` is all that the compiler asks of a tree whose texts it can find
(`exists_compile`).  In particular it never finds a register taken between two statements.

## Shape of the proof

A step on an expression refuses no draft at all (`Accepts`).  A step on statements needs a draft in
which every register is free, and leaves one (`Settles`).  That an expression gives back what it
takes is what its symbolic code says (`Piece.Takes`).
-/

namespace NovelScript
namespace Compile

variable {α β : Type} {step : Compile α}

/-! ## Steps that refuse nothing -/

/-- The step refuses no draft. -/
def Accepts (step : Compile α) : Prop := ∀ d : Draft, Ends step d (fun _ _ => True) noFailure

theorem Accepts.bind {next : α → Compile β} (h : Accepts step) (hnext : ∀ a, Accepts (next a)) :
    Accepts (step >>= next) := by
  intro d
  rw [ends_bind]
  exact (h d).imp fun a d' _ => hnext a d'

theorem accepts_pure (a : α) : Accepts (pure a) := fun _ => trivial

theorem accepts_intern (element : Element) : Accepts (intern element) := by
  intro d
  simp only [intern, ends_bind, ends_get]
  split <;> trivial

theorem accepts_newMarker (name : String) : Accepts (newMarker name) := fun _ => trivial

theorem accepts_linkPair (a b : ElementId) : Accepts (linkPair a b) := fun _ => trivial

theorem accepts_release (ids : List ElementId) : Accepts (release ids) := fun _ => trivial

theorem accepts_allocLocal : Accepts allocLocal := by
  intro d
  simp only [allocLocal, ends_bind, ends_get, ends_modify]
  exact accepts_intern _ _

theorem accepts_operatorMarker {name : String} (h : isOperator name = true) :
    Accepts (operatorMarker name) := by
  intro d
  simp only [operatorMarker, h, if_true, ends_bind, ends_get]
  split <;> trivial

theorem accepts_labelMarker {name : String} (h : isLabelName name = true) :
    Accepts (labelMarker name) := by
  intro d
  have hname : ¬ (name = blockOpen ∨ name = blockClose ∨ isOperator name = true) := by
    simpa [isLabelName, and_assoc] using h
  simp only [labelMarker, hname, if_false, ends_bind, ends_get]
  split <;> trivial

theorem accepts_internVariable (pointer : Bool) {which : Variable} (h : which.Compilable) :
    Accepts (internVariable pointer which) := by
  cases which with
  | special name => exact accepts_intern _
  | flag kind id =>
    have hrange : kind.inRange id = true := h
    by_cases hint : kind.isInt = true
    all_goals
      simp only [internVariable, variableElement, hrange, hint, if_true, Bool.false_eq_true,
        if_false]
      exact accepts_intern _

/-- A text is found where it stands, or else a key stands for it. -/
theorem accepts_literalText {strings : Option StringTable} {literal : TextLiteral}
    (h : strings = none → literal.isPlain = true) : Accepts (literalText strings literal) := by
  intro d
  cases literal with
  | plain text => trivial
  | external key =>
    cases strings with
    | none => exact Bool.noConfusion (h rfl)
    | some table =>
      rw [literalText]
      cases table.get? key <;> trivial

theorem accepts_simple {strings : Option StringTable} {e : Expression} (hs : IsSimple e)
    (hc : e.Compilable) (htexts : strings = none → e.isPlain = true) :
    Accepts (simple strings e) := by
  cases e with
  | integer _ | pointer _ => exact accepts_intern _
  | var which => exact accepts_internVariable false hc
  | flagPointer kind id => exact accepts_internVariable true hc
  | text literal => exact (accepts_literalText htexts).bind fun _ => accepts_intern _
  | operation _ _ | call _ _ | labelRef _ => exact hs.elim

theorem accepts_targetElement {target : Target} (h : target.Compilable) :
    Accepts (targetElement target) := by
  cases target with
  | var which => exact accepts_internVariable false h
  | flagPointer kind id => exact accepts_internVariable true h
  | pointer value => exact accepts_intern _

/-! ## Expressions -/

theorem accepts_intoLocal {value : Compile (Code × List ElementId)} (h : Accepts value) :
    Accepts (intoLocal value) :=
  (accepts_intern _).bind fun _ => h.bind fun _ => (accepts_release _).bind fun _ =>
    accepts_allocLocal.bind fun _ => accepts_pure _

theorem accepts_callIntoLocal {call : Compile (Code × Instruction)} (h : Accepts call) :
    Accepts (callIntoLocal call) :=
  (accepts_intern _).bind fun _ => h.bind fun _ => accepts_allocLocal.bind fun _ => accepts_pure _

theorem accepts_callWith {name : String} {arguments : Compile (Code × List ElementId)}
    (hname : name ≠ assignFunction) (h : Accepts arguments) :
    Accepts (callWith name arguments) := by
  rw [callWith, if_neg hname]
  exact h.bind fun _ => (accepts_release _).bind fun _ => (accepts_intern _).bind fun _ =>
    accepts_pure _

theorem accepts_checkChain {operands operators : Nat} (h₀ : operators ≠ 0)
    (h : operands = operators + 1) : Accepts (checkChain operands operators) := by
  intro d
  simp [checkChain, h₀, h]

mutual

theorem argument_accepts (strings : Option StringTable) (e : Expression) (hc : e.Compilable)
    (htexts : strings = none → e.isPlain = true) : Accepts (argument strings e) := by
  match e with
  | .labelRef name =>
    rw [argument]
    exact (accepts_labelMarker hc).bind fun _ => accepts_pure _
  | .integer _ | .pointer _ | .text _ | .var _ | .flagPointer .. =>
    rw [argument]
    · exact (accepts_simple (by trivial) hc htexts).bind fun _ => accepts_pure _
    all_goals simp
  | .operation operands operators =>
    obtain ⟨hne, hlen, hops, hoperands⟩ := hc
    rw [argument]
    exact accepts_intoLocal ((accepts_checkChain (by simpa using hne) hlen).bind fun _ =>
      operandsOf_accepts strings operands operators hops hoperands htexts)
  | .call name arguments =>
    rw [argument]
    exact accepts_callIntoLocal (accepts_callWith hc.1
      (argumentsOf_accepts strings arguments hc.2 htexts))

theorem argumentsOf_accepts (strings : Option StringTable) (arguments : List Expression)
    (hc : Expression.CompilableList arguments)
    (htexts : strings = none → Expression.isPlainList arguments = true) :
    Accepts (argumentsOf strings arguments) := by
  match arguments with
  | [] => exact accepts_pure _
  | x :: rest =>
    simp only [Expression.isPlainList, Bool.and_eq_true] at htexts
    rw [argumentsOf]
    exact (argument_accepts strings x hc.1 fun h => (htexts h).1).bind fun _ =>
      (argumentsOf_accepts strings rest hc.2 fun h => (htexts h).2).bind fun _ => accepts_pure _

theorem operand_accepts (strings : Option StringTable) (e : Expression)
    (hc : e.CompilableOperand) (htexts : strings = none → e.isPlain = true) :
    Accepts (operand strings e) := by
  match e with
  | .labelRef name => exact Bool.noConfusion hc.1
  | .integer _ | .pointer _ | .text _ | .var _ | .flagPointer .. =>
    rw [operand]
    · exact (accepts_simple (by trivial) hc.2 htexts).bind fun _ => accepts_pure _
    all_goals simp
  | .operation operands operators =>
    obtain ⟨hne, hlen, hops, hoperands⟩ := hc.2
    rw [operand]
    split
    · rename_i sign hsign
      obtain ⟨x, rfl, rfl, hx⟩ := sign?_eq_some hsign
      have hplain (h : strings = none) : x.isPlain = true := by
        simpa [Expression.isPlain, Expression.isPlainList] using htexts h
      rw [secondOf]
      exact (accepts_operatorMarker (hops sign (by simp))).bind fun _ =>
        (argument_accepts strings x hoperands.2.1.2 hplain).bind fun _ => accepts_pure _
    · refine Accepts.bind (accepts_intoLocal ?_) fun _ => accepts_pure _
      exact (accepts_checkChain (by simpa using hne) hlen).bind fun _ =>
        operandsOf_accepts strings operands operators hops hoperands htexts
  | .call name arguments =>
    rw [operand]
    exact (accepts_callIntoLocal (accepts_callWith hc.2.1
      (argumentsOf_accepts strings arguments hc.2.2 htexts))).bind fun _ => accepts_pure _

theorem operandsOf_accepts (strings : Option StringTable) (operands : List Expression)
    (operators : List String) (hops : ∀ name ∈ operators, isOperator name = true)
    (hc : Expression.CompilableOperands operands)
    (htexts : strings = none → Expression.isPlainList operands = true) :
    Accepts (operandsOf strings operands operators) := by
  match operands with
  | [] => exact accepts_pure _
  | x :: rest =>
    simp only [Expression.isPlainList, Bool.and_eq_true] at htexts
    rw [operandsOf]
    exact (operand_accepts strings x hc.1 fun h => (htexts h).1).bind fun _ =>
      (laterOperandsOf_accepts strings rest operators hops hc.2 fun h => (htexts h).2).bind
        fun _ => accepts_pure _

theorem laterOperandsOf_accepts (strings : Option StringTable) (operands : List Expression)
    (operators : List String) (hops : ∀ name ∈ operators, isOperator name = true)
    (hc : Expression.CompilableOperands operands)
    (htexts : strings = none → Expression.isPlainList operands = true) :
    Accepts (laterOperandsOf strings operands operators) := by
  match operands, operators with
  | [], _ | _ :: _, [] =>
    rw [laterOperandsOf]
    · exact accepts_pure _
    all_goals simp
  | x :: rest, operator :: operators =>
    simp only [Expression.isPlainList, Bool.and_eq_true] at htexts
    rw [List.forall_mem_cons] at hops
    rw [laterOperandsOf]
    exact (accepts_operatorMarker hops.1).bind fun _ =>
      (operand_accepts strings x hc.1 fun h => (htexts h).1).bind fun _ =>
        (laterOperandsOf_accepts strings rest operators hops.2 hc.2 fun h => (htexts h).2).bind
          fun _ => accepts_pure _

end

theorem chain_accepts (strings : Option StringTable) (e : Expression) (hc : e.CompilableOperand)
    (htexts : strings = none → e.isPlain = true) : Accepts (chain strings e) := by
  unfold chain
  split
  · obtain ⟨hne, hlen, hops, hoperands⟩ := hc.2
    exact (accepts_checkChain (by simpa using hne) hlen).bind fun _ =>
      operandsOf_accepts strings _ _ hops hoperands htexts
  · exact operand_accepts strings e hc htexts

theorem assignment_accepts (strings : Option StringTable) {target : Target} {e : Expression}
    (htarget : target.Compilable) (hc : e.CompilableOperand)
    (htexts : strings = none → e.isPlain = true) : Accepts (assignment strings target e) := by
  unfold assignment
  split
  · exact (accepts_targetElement htarget).bind fun _ => (accepts_intern _).bind fun _ =>
      (accepts_callWith hc.2.1 (argumentsOf_accepts strings _ hc.2.2 htexts)).bind fun _ =>
        accepts_pure _
  · exact (accepts_targetElement htarget).bind fun _ => (accepts_intern _).bind fun _ =>
      (chain_accepts strings e hc htexts).bind fun _ => (accepts_release _).bind fun _ =>
        accepts_pure _

end Compile

/-! ## Statements -/

theorem LocalPool.liveCount_eq_zero_iff {pool : LocalPool} :
    pool.liveCount = 0 ↔ ∀ r, ¬ pool.Taken r := by
  rw [liveCount, List.count_eq_zero, List.mem_iff_getElem?, not_exists]
  rfl

/-- A draft between two statements: every register is free. -/
structure Draft.Idle (d : Draft) : Prop where
  sound : d.Sound
  free : ∀ r, ¬ d.locals.Taken r

theorem Draft.idle_empty : Idle {} := ⟨sound_empty, by simp [LocalPool.Taken]⟩

/-- A later draft is idle if the registers have been given back. -/
theorem Draft.Idle.later {d d' : Draft} (h : d.Idle) (hlater : d.Extends d')
    (hback : Symbolic.Returns d.locals d'.locals) : d'.Idle :=
  ⟨hlater.sound h.sound, fun r hr => h.free r ((hback.taken r).mp hr)⟩

theorem Interned.idle {d d' : Draft} {id : ElementId} {face : Element}
    (h : Interned d id face d') (hd : d.Idle) : d'.Idle :=
  hd.later h.later (h.locals ▸ .refl _)

namespace Compile

/-- The step refuses no draft in which every register is free, and leaves every register free. -/
def Settles (step : Compile α) : Prop :=
  ∀ d : Draft, d.Idle → Ends step d (fun _ d' => d'.Idle) noFailure

theorem Settles.bind {next : α → Compile β} (h : Settles step) (hnext : ∀ a, Settles (next a)) :
    Settles (step >>= next) := by
  intro d hd
  rw [ends_bind]
  exact (h d hd).imp fun a d' hd' => hnext a d' hd'

theorem settles_pure (a : α) : Settles (pure a) := fun _ hd => hd

/-- What is known of a step that refuses nothing says whether registers are free behind it. -/
theorem Accepts.settles {Q : Draft → α → Draft → Prop} (h : Accepts step)
    (hends : ∀ d : Draft, d.Sound → Ends step d (Q d) anyFailure)
    (hidle : ∀ (d : Draft) (a : α) (d' : Draft), Q d a d' → d.Idle → d'.Idle) : Settles step := by
  intro d hd
  exact (Ends.of_certain (h d) (hends d hd.sound)).imp fun a d' hq => hidle d a d' hq hd

theorem settles_function (name : String) : Settles (function name) :=
  (accepts_intern _).settles (fun d _ => ends_function name d) fun _ _ _ h => h.idle

theorem settles_newMarker (name : String) : Settles (newMarker name) :=
  (accepts_newMarker name).settles (fun d _ => ends_newMarker name d) fun _ _ _ h => h.1.idle

theorem settles_labelMarker {name : String} (h : isLabelName name = true) :
    Settles (labelMarker name) :=
  (accepts_labelMarker h).settles (fun _ hd => ends_labelMarker name hd) fun _ _ _ h => h.1.idle

theorem settles_linkPair (a b : ElementId) : Settles (linkPair a b) :=
  (accepts_linkPair a b).settles (fun d _ => ends_linkPair a b d) fun _ _ _ h hd =>
    hd.later h.1 (h.2 ▸ .refl _)

theorem settles_checkReleased : Settles checkReleased := by
  intro d hd
  simpa [checkReleased, LocalPool.liveCount_eq_zero_iff.mpr hd.free] using hd

theorem settles_checkNeighbours {s : Statement} {next : Option Statement} (h : s.Separate next) :
    Settles (checkNeighbours s next) := by
  unfold checkNeighbours
  split
  · exact h.elim
  · rw [if_neg h]
    exact settles_pure _
  · exact settles_pure _

/-- The arguments of a call have given their registers back when it is answered. -/
theorem settles_callWith (strings : Option StringTable) {name : String}
    {arguments : List Expression} (hname : name ≠ assignFunction)
    (hc : Expression.CompilableList arguments)
    (htexts : strings = none → Expression.isPlainList arguments = true) :
    Settles (callWith name (argumentsOf strings arguments)) := by
  refine (accepts_callWith hname (argumentsOf_accepts strings arguments hc htexts)).settles
    (compiles_callWith name (argumentsOf_compiles strings arguments)) ?_
  rintro d _ d' ⟨hlater, -, -, hlocals, -⟩ hd
  exact hd.later hlater
    (hlocals ▸ .of_takes (Symbolic.argumentsOf_takes (strings.getD .empty) d.locals arguments))

theorem settles_assignment (strings : Option StringTable) {target : Target} {e : Expression}
    (htarget : target.Compilable) (hc : e.CompilableOperand)
    (htexts : strings = none → e.isPlain = true) : Settles (assignment strings target e) := by
  refine (assignment_accepts strings htarget hc htexts).settles
    (assignment_compiles strings target e) ?_
  rintro d _ d' ⟨hlater, -, hlocals, -⟩ hd
  exact hd.later hlater (hlocals ▸ Symbolic.assignment_returns _ _ target e)

theorem settles_braced {body : Compile Code} (h : Settles body) : Settles (braced body) :=
  (settles_newMarker _).bind fun _ => (settles_newMarker _).bind fun _ =>
    (settles_linkPair _ _).bind fun _ => h.bind fun _ => settles_pure _

/-- Behind a condition its registers are given back before anything else happens. -/
theorem settles_condition (strings : Option StringTable) {condition : Expression}
    (hc : condition.CompilableOperand) (htexts : strings = none → condition.isPlain = true)
    {next : Code × List ElementId → Compile β} (hnext : ∀ r, Settles (next r)) :
    Settles (do let r ← chain strings condition; release r.2; next r) := by
  intro d hd
  rw [ends_bind]
  refine (Ends.of_certain (chain_accepts strings condition hc htexts d)
    (chain_compiles strings condition d hd.sound)).imp ?_
  rintro r d' ⟨h, -⟩
  simp only [release, ends_bind, ends_modify, foldl_releaseOne h.faces, h.locals]
  refine hnext r _ (hd.later ⟨fun hs => ?_, h.later.faces⟩
    (.of_takes (Symbolic.chain_takes _ _ condition)))
  exact ⟨(h.later.sound hs).operators, (h.later.sound hs).labels⟩

mutual

theorem statement_settles (strings : Option StringTable) (s : Statement) (hc : s.Compilable)
    (htexts : strings = none → s.isPlain = true) : Settles (statement strings s) := by
  match s with
  | .block body =>
    rw [statement]
    exact settles_braced (statements_settles strings body hc htexts)
  | .assignment target value =>
    rw [statement]
    exact settles_assignment strings hc.1 hc.2 htexts
  | .call name arguments =>
    rw [statement]
    exact (settles_callWith strings hc.1 hc.2 htexts).bind fun _ => settles_pure _
  | .bodyCall name arguments body =>
    obtain ⟨hif, hname, harguments, hbody⟩ := hc
    simp only [Statement.isPlain, Bool.and_eq_true] at htexts
    rw [statement, if_neg hif]
    exact (settles_callWith strings hname harguments fun h => (htexts h).1).bind fun _ =>
      (settles_braced (statements_settles strings body hbody fun h => (htexts h).2)).bind
        fun _ => settles_pure _
  | .conditional condition body otherwise =>
    obtain ⟨hcondition, hbody, hotherwise⟩ := hc
    simp only [Statement.isPlain, Bool.and_eq_true] at htexts
    rw [statement]
    exact settles_condition strings hcondition (fun h => (htexts h).1.1) fun _ =>
      (settles_function _).bind fun _ =>
        (settles_braced (statements_settles strings body hbody fun h => (htexts h).1.2)).bind
          fun _ => (alternative_settles strings otherwise hotherwise fun h => (htexts h).2).bind
            fun _ => settles_pure _
  | .label name =>
    rw [statement]
    exact (settles_labelMarker hc).bind fun _ => (settles_linkPair _ _).bind fun _ =>
      settles_pure _

theorem alternative_settles (strings : Option StringTable) (otherwise : Option (List Statement))
    (hc : Statement.CompilableOption otherwise)
    (htexts : strings = none → Statement.isPlainOption otherwise = true) :
    Settles (alternative strings otherwise) := by
  match otherwise with
  | none =>
    rw [alternative]
    exact settles_pure _
  | some body =>
    rw [alternative]
    exact (settles_newMarker _).bind fun _ =>
      (settles_braced (statements_settles strings body hc htexts)).bind fun _ => settles_pure _

/-- The compiler refuses no statements that are compilable, and no register is taken behind
them. -/
theorem statements_settles (strings : Option StringTable) (tree : List Statement)
    (hc : Statement.CompilableList tree)
    (htexts : strings = none → Statement.isPlainList tree = true) :
    Settles (statements strings tree) := by
  match tree with
  | [] =>
    rw [statements]
    exact settles_pure _
  | s :: rest =>
    obtain ⟨hseparate, hs, hrest⟩ := hc
    simp only [Statement.isPlainList, Bool.and_eq_true] at htexts
    rw [statements]
    exact (settles_checkNeighbours hseparate).bind fun _ =>
      (statement_settles strings s hs fun h => (htexts h).1).bind fun _ =>
        settles_checkReleased.bind fun _ =>
          (statements_settles strings rest hrest fun h => (htexts h).2).bind fun _ =>
            settles_pure _

end

end Compile

/-- The compiler takes every compilable tree whose texts it can find. -/
theorem exists_compile {strings : Option StringTable} {tree : List Statement}
    (hc : Statement.CompilableList tree)
    (htexts : strings = none → Statement.isPlainList tree = true) :
    ∃ program, (compile strings tree).result = .ok program := by
  obtain ⟨code, d, hrun, -⟩ :=
    (Compile.statements_settles strings tree hc htexts {} Draft.idle_empty).run_eq
  exact ⟨_, by rw [compile, hrun]; rfl⟩

end NovelScript
