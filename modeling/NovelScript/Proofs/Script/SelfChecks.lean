import NovelScript.Proofs.Script.Acceptance
import NovelScript.Proofs.Script.LocalUse

/-!
# The compiler finds no fault with itself

The compiler checks of itself that no register outlives a statement, and that what is left when
calls, chains and labels have been compiled is a single element.  Whatever tree it is given, and
whatever texts it finds, neither check ever fails (`compile_ne_internal`).

## Shape of the proof

Compiling an expression may fail in many ways, but not in one of these, whatever the draft
(`Blameless`).  Compiling statements needs a draft in which every register is free, and leaves one
unless it fails (`Clears`): what is left behind where nothing fails is known from the code that is
emitted, be the tree compilable or not.
-/

namespace NovelScript

/-- A failure other than one that the compiler finds with itself. -/
def ScriptError.IsForeign (e : ScriptError) : Prop := ∀ fault, e ≠ .internal fault

theorem ScriptError.isForeign_invalid (fault : Misuse) : (invalid fault).IsForeign :=
  fun _ h => nomatch h

theorem ScriptError.isForeign_unsupported (fault : Unsupported) : (unsupported fault).IsForeign :=
  fun _ h => nomatch h

namespace Compile

variable {α β : Type} {step : Compile α}

/-- However the step ends, it is not with a failure that the compiler finds with itself. -/
def Blameless (step : Compile α) : Prop :=
  ∀ d : Draft, Ends step d (fun _ _ => True) fun e _ => e.IsForeign

theorem Blameless.bind {next : α → Compile β} (h : Blameless step)
    (hnext : ∀ a, Blameless (next a)) : Blameless (step >>= next) := by
  intro d
  rw [ends_bind]
  exact (h d).imp fun a d' _ => hnext a d'

theorem Accepts.blameless (h : Accepts step) : Blameless step := fun d => (h d).of_noFailure

theorem blameless_pure (a : α) : Blameless (pure a) := (accepts_pure a).blameless

theorem blameless_refuse (fault : Misuse) : Blameless (refuse fault : Compile α) :=
  fun _ => ScriptError.isForeign_invalid fault

theorem blameless_function (name : String) : Blameless (function name) :=
  (accepts_intern _).blameless

theorem blameless_release (ids : List ElementId) : Blameless (release ids) :=
  (accepts_release ids).blameless

theorem blameless_operatorMarker (name : String) : Blameless (operatorMarker name) := by
  by_cases h : isOperator name = true
  · exact (accepts_operatorMarker h).blameless
  · intro d
    simp [operatorMarker, h, refuse, ScriptError.isForeign_invalid]

theorem blameless_labelMarker (name : String) : Blameless (labelMarker name) := by
  by_cases h : isLabelName name = true
  · exact (accepts_labelMarker h).blameless
  · intro d
    have hname : name = blockOpen ∨ name = blockClose ∨ isOperator name = true := by
      by_contra hname
      exact h (by simpa [isLabelName, and_assoc] using hname)
    simp [labelMarker, hname, refuse, ScriptError.isForeign_invalid]

theorem blameless_internVariable (pointer : Bool) (which : Variable) :
    Blameless (internVariable pointer which) := by
  unfold internVariable
  split
  · exact (accepts_intern _).blameless
  · exact blameless_refuse _

theorem blameless_literalText (strings : Option StringTable) (literal : TextLiteral) :
    Blameless (literalText strings literal) := by
  intro d
  by_cases h : strings = none → literal.isPlain = true
  · exact (accepts_literalText h).blameless d
  · obtain ⟨rfl, hplain⟩ := Classical.not_imp.mp h
    cases literal with
    | plain _ => exact absurd rfl hplain
    | external _ => exact ScriptError.isForeign_unsupported _

/-- Nothing but single elements are asked for as such. -/
theorem blameless_simple (strings : Option StringTable) {e : Expression} (hs : IsSimple e) :
    Blameless (simple strings e) := by
  cases e with
  | integer _ | pointer _ => exact (accepts_intern _).blameless
  | text literal =>
    exact (blameless_literalText strings literal).bind fun _ => (accepts_intern _).blameless
  | var which => exact blameless_internVariable false which
  | flagPointer kind id => exact blameless_internVariable true (.flag kind id)
  | operation _ _ | call _ _ | labelRef _ => exact hs.elim

theorem blameless_targetElement (target : Target) : Blameless (targetElement target) := by
  cases target with
  | var which => exact blameless_internVariable false which
  | flagPointer kind id => exact blameless_internVariable true (.flag kind id)
  | pointer _ => exact (accepts_intern _).blameless

theorem blameless_checkChain (operands operators : Nat) :
    Blameless (checkChain operands operators) := by
  intro d
  rw [checkChain]
  by_cases h₀ : operators = 0 <;> by_cases h₁ : operands = operators + 1 <;>
    simp [h₀, h₁, refuse, ScriptError.isForeign_invalid]

theorem blameless_checkNeighbours (s : Statement) (next : Option Statement) :
    Blameless (checkNeighbours s next) := by
  unfold checkNeighbours
  split
  · exact blameless_refuse _
  · split
    · exact blameless_refuse _
    · exact blameless_pure _
  · exact blameless_pure _

/-! ## Expressions -/

theorem Blameless.intoLocal {value : Compile (Code × List ElementId)} (h : Blameless value) :
    Blameless (intoLocal value) :=
  (blameless_function _).bind fun _ => h.bind fun _ => (blameless_release _).bind fun _ =>
    accepts_allocLocal.blameless.bind fun _ => blameless_pure _

theorem Blameless.callIntoLocal {call : Compile (Code × Instruction)} (h : Blameless call) :
    Blameless (callIntoLocal call) :=
  (blameless_function _).bind fun _ => h.bind fun _ =>
    accepts_allocLocal.blameless.bind fun _ => blameless_pure _

theorem Blameless.callWith {name : String} {arguments : Compile (Code × List ElementId)}
    (h : Blameless arguments) : Blameless (callWith name arguments) := by
  have hcall (answer : Code × List ElementId) : Blameless (do
      release answer.2
      return (answer.1, Instruction.call (← function name) answer.2)) :=
    (blameless_release _).bind fun _ => (blameless_function _).bind fun _ => blameless_pure _
  unfold Compile.callWith
  split_ifs
  · exact (blameless_refuse _).bind fun _ => h.bind hcall
  · exact h.bind hcall

mutual

theorem argument_blameless (strings : Option StringTable) (e : Expression) :
    Blameless (argument strings e) := by
  match e with
  | .labelRef name =>
    rw [argument]
    exact (blameless_labelMarker name).bind fun _ => blameless_pure _
  | .integer _ | .pointer _ | .text _ | .var _ | .flagPointer .. =>
    rw [argument]
    · exact (blameless_simple strings (by trivial)).bind fun _ => blameless_pure _
    all_goals simp
  | .operation operands operators =>
    rw [argument]
    exact ((blameless_checkChain _ _).bind fun _ =>
      operandsOf_blameless strings operands operators).intoLocal
  | .call name arguments =>
    rw [argument]
    exact (argumentsOf_blameless strings arguments).callWith.callIntoLocal

theorem argumentsOf_blameless (strings : Option StringTable) (arguments : List Expression) :
    Blameless (argumentsOf strings arguments) := by
  match arguments with
  | [] => exact blameless_pure _
  | x :: rest =>
    rw [argumentsOf]
    exact (argument_blameless strings x).bind fun _ =>
      (argumentsOf_blameless strings rest).bind fun _ => blameless_pure _

theorem operand_blameless (strings : Option StringTable) (e : Expression) :
    Blameless (operand strings e) := by
  match e with
  | .labelRef name => exact blameless_refuse _
  | .integer _ | .pointer _ | .text _ | .var _ | .flagPointer .. =>
    rw [operand]
    · exact (blameless_simple strings (by trivial)).bind fun _ => blameless_pure _
    all_goals simp
  | .operation operands operators =>
    rw [operand]
    split
    · -- only a chain of two operands has a sign, and what the sign is put in front of is the second
      rename_i sign hsign
      obtain ⟨x, rfl, rfl, -⟩ := sign?_eq_some hsign
      rw [secondOf]
      exact (blameless_operatorMarker sign).bind fun _ =>
        (argument_blameless strings x).bind fun _ => blameless_pure _
    · exact ((blameless_checkChain _ _).bind fun _ =>
        operandsOf_blameless strings operands operators).intoLocal.bind fun _ => blameless_pure _
  | .call name arguments =>
    rw [operand]
    exact (argumentsOf_blameless strings arguments).callWith.callIntoLocal.bind fun _ =>
      blameless_pure _

theorem operandsOf_blameless (strings : Option StringTable) (operands : List Expression)
    (operators : List String) : Blameless (operandsOf strings operands operators) := by
  match operands with
  | [] => exact blameless_pure _
  | x :: rest =>
    rw [operandsOf]
    exact (operand_blameless strings x).bind fun _ =>
      (laterOperandsOf_blameless strings rest operators).bind fun _ => blameless_pure _

theorem laterOperandsOf_blameless (strings : Option StringTable) (operands : List Expression)
    (operators : List String) : Blameless (laterOperandsOf strings operands operators) := by
  match operands, operators with
  | x :: rest, operator :: operators =>
    rw [laterOperandsOf]
    exact (blameless_operatorMarker operator).bind fun _ =>
      (operand_blameless strings x).bind fun _ =>
        (laterOperandsOf_blameless strings rest operators).bind fun _ => blameless_pure _
  | [], _ | _ :: _, [] =>
    rw [laterOperandsOf]
    · exact blameless_pure _
    all_goals simp

end

theorem chain_blameless (strings : Option StringTable) (e : Expression) :
    Blameless (chain strings e) := by
  unfold chain
  split
  · exact (blameless_checkChain _ _).bind fun _ => operandsOf_blameless strings _ _
  · exact operand_blameless strings e

theorem assignment_blameless (strings : Option StringTable) (target : Target) (e : Expression) :
    Blameless (assignment strings target e) := by
  unfold assignment
  split
  · exact (blameless_targetElement target).bind fun _ => (blameless_function _).bind fun _ =>
      (argumentsOf_blameless strings _).callWith.bind fun _ => blameless_pure _
  · exact (blameless_targetElement target).bind fun _ => (blameless_function _).bind fun _ =>
      (chain_blameless strings e).bind fun _ => (blameless_release _).bind fun _ =>
        blameless_pure _

/-! ## Statements -/

/-- Started in a draft in which every register is free, the step leaves one, or fails for a reason
that is not the compiler's own. -/
def Clears (step : Compile α) : Prop :=
  ∀ d : Draft, d.Idle → Ends step d (fun _ d' => d'.Idle) fun e _ => e.IsForeign

theorem Clears.bind {next : α → Compile β} (h : Clears step)
    (hnext : ∀ a, Clears (next a)) : Clears (step >>= next) := by
  intro d hd
  rw [ends_bind]
  exact (h d hd).imp fun a d' hd' => hnext a d' hd'

theorem Settles.clears (h : Settles step) : Clears step :=
  fun d hd => (h d hd).of_noFailure

theorem clears_pure (a : α) : Clears (pure a) := (settles_pure a).clears

theorem clears_refuse (fault : Misuse) : Clears (refuse fault : Compile α) :=
  fun _ _ => ScriptError.isForeign_invalid fault

/-- What is known of a step where it does not fail says whether registers are free behind it. -/
theorem Blameless.clears {Q : Draft → α → Draft → Prop} (h : Blameless step)
    (hends : ∀ d : Draft, d.Sound → Ends step d (Q d) anyFailure)
    (hidle : ∀ (d : Draft) (a : α) (d' : Draft), Q d a d' → d.Idle → d'.Idle) : Clears step := by
  intro d hd
  refine ((h d).and (hends d hd.sound)).mono ?_ fun _ _ => And.left
  exact fun a d' hq => hidle d a d' hq.2 hd

theorem clears_labelMarker (name : String) : Clears (labelMarker name) :=
  (blameless_labelMarker name).clears (fun _ hd => ends_labelMarker name hd)
    fun _ _ _ h => h.1.idle

theorem clears_checkNeighbours (s : Statement) (next : Option Statement) :
    Clears (checkNeighbours s next) :=
  (blameless_checkNeighbours s next).clears (fun d _ => ends_checkNeighbours s next d)
    fun _ _ _ h hd => h.1 ▸ hd

theorem clears_callWith (strings : Option StringTable) (name : String)
    (arguments : List Expression) : Clears (callWith name (argumentsOf strings arguments)) := by
  refine (argumentsOf_blameless strings arguments).callWith.clears
    (compiles_callWith name (argumentsOf_compiles strings arguments)) ?_
  rintro d _ d' ⟨hlater, -, -, hlocals, -⟩ hd
  exact hd.later hlater
    (hlocals ▸ .of_takes (Symbolic.argumentsOf_takes (strings.getD .empty) d.locals arguments))

theorem clears_assignment (strings : Option StringTable) (target : Target) (e : Expression) :
    Clears (assignment strings target e) := by
  refine (assignment_blameless strings target e).clears (assignment_compiles strings target e) ?_
  rintro d _ d' ⟨hlater, -, hlocals, -⟩ hd
  exact hd.later hlater (hlocals ▸ Symbolic.assignment_returns _ _ target e)

/-- Behind a condition its registers are given back before anything else happens. -/
theorem clears_condition (strings : Option StringTable) (condition : Expression)
    {next : Code × List ElementId → Compile β} (hnext : ∀ r, Clears (next r)) :
    Clears (do let r ← chain strings condition; release r.2; next r) := by
  intro d hd
  rw [ends_bind]
  refine ((chain_blameless strings condition d).and
    (chain_compiles strings condition d hd.sound)).mono ?_ fun _ _ => And.left
  rintro r d' ⟨-, h, -⟩
  simp only [release, ends_bind, ends_modify, foldl_releaseOne h.faces, h.locals]
  refine hnext r _ (hd.later ⟨fun hs => ?_, h.later.faces⟩
    (.of_takes (Symbolic.chain_takes _ _ condition)))
  exact ⟨(h.later.sound hs).operators, (h.later.sound hs).labels⟩

theorem Clears.braced {body : Compile Code} (h : Clears body) : Clears (braced body) :=
  (settles_newMarker _).clears.bind fun _ => (settles_newMarker _).clears.bind fun _ =>
    (settles_linkPair _ _).clears.bind fun _ => h.bind fun _ => clears_pure _

mutual

theorem statement_clears (strings : Option StringTable) (s : Statement) :
    Clears (statement strings s) := by
  match s with
  | .block body =>
    rw [statement]
    exact (statements_clears strings body).braced
  | .assignment target value =>
    rw [statement]
    exact clears_assignment strings target value
  | .call name arguments =>
    rw [statement]
    exact (clears_callWith strings name arguments).bind fun _ => clears_pure _
  | .bodyCall name arguments body =>
    have hcode : Clears (do
        let (code, instruction) ← callWith name (argumentsOf strings arguments)
        let block ← Compile.braced (statements strings body)
        return code ++ instruction :: block) :=
      (clears_callWith strings name arguments).bind fun _ =>
        (statements_clears strings body).braced.bind fun _ => clears_pure _
    rw [statement]
    split
    · exact (clears_refuse _).bind fun _ => hcode
    · exact hcode
  | .conditional condition body otherwise =>
    rw [statement]
    exact clears_condition strings condition fun _ => (settles_function _).clears.bind fun _ =>
      (statements_clears strings body).braced.bind fun _ =>
        (alternative_clears strings otherwise).bind fun _ => clears_pure _
  | .label name =>
    rw [statement]
    exact (clears_labelMarker name).bind fun _ => (settles_linkPair _ _).clears.bind fun _ =>
      clears_pure _

theorem alternative_clears (strings : Option StringTable)
    (otherwise : Option (List Statement)) : Clears (alternative strings otherwise) := by
  match otherwise with
  | none =>
    rw [alternative]
    exact clears_pure _
  | some body =>
    rw [alternative]
    exact (settles_newMarker _).clears.bind fun _ =>
      (statements_clears strings body).braced.bind fun _ => clears_pure _

theorem statements_clears (strings : Option StringTable) (tree : List Statement) :
    Clears (statements strings tree) := by
  match tree with
  | [] =>
    rw [statements]
    exact clears_pure _
  | s :: rest =>
    rw [statements]
    exact (clears_checkNeighbours s rest.head?).bind fun _ =>
      (statement_clears strings s).bind fun _ => settles_checkReleased.clears.bind fun _ =>
        (statements_clears strings rest).bind fun _ => clears_pure _

end

end Compile

/-! ## Compiling a tree -/

/-- No tree and no string table make the compiler fail for a reason of its own; behind every
statement, wherever it stands, every register is free again if it was before. -/
theorem compile_ne_internal (strings : Option StringTable) :
    (∀ tree fault, (compile strings tree).result ≠ .error (.internal fault))
      ∧ ∀ (s : Statement) (d : Draft), d.Sound → d.locals.liveCount = 0 →
        Ends (Compile.statement strings s) d (fun _ d' => d'.locals.liveCount = 0)
          fun e _ => ∀ fault, e ≠ .internal fault := by
  refine ⟨fun tree fault h => ?_, fun s d hsound hfree => ?_⟩
  · rw [compile] at h
    rcases hrun : ((Compile.statements strings tree).run.run {} : Except ScriptError Code × Draft)
      with ⟨result, d⟩
    simp only [hrun] at h
    have hends := (Compile.statements_clears strings tree {} Draft.idle_empty).of_run hrun
    cases result with
    | error e => exact hends.2 e rfl fault (Except.error.inj h)
    | ok code => simp [Except.map] at h
  · have hd : d.Idle := ⟨hsound, LocalPool.liveCount_eq_zero_iff.mp hfree⟩
    exact (Compile.statement_clears strings s d hd).imp fun _ d' hd' =>
      LocalPool.liveCount_eq_zero_iff.mpr hd'.free

theorem compile_ne_internal_nestedChains :
    Draft.Sound {} ∧ LocalPool.liveCount {} = 0
      ∧ Ends (Compile.statement none (.block nestedChains)) {}
        (fun _ d' => d'.locals.liveCount = 0) fun e _ => ∀ fault, e ≠ .internal fault :=
  ⟨Draft.sound_empty, rfl,
    (compile_ne_internal none).2 (.block nestedChains) {} Draft.sound_empty rfl⟩

end NovelScript
