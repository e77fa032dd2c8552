import Mathlib.Logic.Relation
import NovelScript.Proofs.Script.Emission

/-!
# What the compiler does to a draft

Whatever it compiles, and whether it fails or not, the compiler changes a draft in a few ways only
(`Draft.Change`, `Compile.statements_works`).  What these keep holds of every draft that it reaches
(`Draft.Changes.keeps`); so no local in the table of a program lies beyond the locals that the
program asks for (`register_lt_of_compile`).
-/

namespace NovelScript

namespace Draft

/-- One way in which the compiler changes a draft. -/
inductive Change : Draft → Draft → Prop
  /-- An element other than a marker or a local is new. -/
  | element (d : Draft) (e : Element) (hmarker : e.marker? = none) (hlocal : e.register? = none) :
    Change d { d with elements := d.elements.push e }
  /-- A local that the pool has given out is new. -/
  | register (d : Draft) (r : Nat) (hr : r < d.locals.highWater) :
    Change d { d with elements := d.elements.push (.localVar r) }
  | marker (d : Draft) (name : String) :
    Change d { d with
      elements := d.elements.push (.marker ⟨name, none, d.markerCount, 0⟩)
      markerCount := d.markerCount + 1 }
  | operator (d : Draft) (name : String) (id : ElementId) :
    Change d { d with operators := d.operators ++ [(name, id)] }
  | label (d : Draft) (name : String) (id : ElementId) :
    Change d { d with labels := d.labels ++ [(name, id)] }
  | link (d : Draft) (a b : ElementId) :
    Change d { d with
      elements := (d.elements.modify a (Compile.linkTo b)).modify b (Compile.linkTo a) }
  | alloc (d : Draft) : Change d { d with locals := d.locals.alloc.2 }
  | release (d : Draft) (ids : List ElementId) :
    Change d { d with locals := ids.foldl (Compile.releaseOne d.elements) d.locals }
  | warning (d : Draft) (key : String) : Change d { d with warnings := d.warnings ++ [⟨key⟩] }

/-- Changes one after the other. -/
abbrev Changes : Draft → Draft → Prop := Relation.ReflTransGen Change

/-- What every change keeps holds after any number of them. -/
theorem Changes.keeps {P : Draft → Prop} (hchange : ∀ d d', Change d d' → P d → P d')
    {d d' : Draft} (h : Changes d d') (hd : P d) : P d' := by
  induction h with
  | refl => exact hd
  | tail _ hstep ih => exact hchange _ _ hstep ih

end Draft

namespace Compile

variable {α β : Type} {step : Compile α}

/-! ## Steps on a draft -/

/-- However the step ends, it has made changes that the compiler makes. -/
def Works (step : Compile α) : Prop :=
  ∀ d : Draft, Ends step d (fun _ d' => d.Changes d') fun _ d' => d.Changes d'

theorem works_pure (a : α) : Works (pure a) := fun _ => .refl

theorem works_throw (e : ScriptError) : Works (throw e : Compile α) := fun _ => .refl

theorem works_refuse (fault : Misuse) : Works (refuse fault : Compile α) := works_throw _

theorem Works.bind {next : α → Compile β} (h : Works step) (hnext : ∀ a, Works (next a)) :
    Works (step >>= next) := by
  intro d
  rw [ends_bind]
  refine (h d).imp fun a d' hd' => ?_
  exact (hnext a d').mono (fun _ _ => hd'.trans) fun _ _ => hd'.trans

theorem works_intern {e : Element} (hmarker : e.marker? = none) (hlocal : e.register? = none) :
    Works (intern e) := by
  intro d
  simp only [intern, ends_bind, ends_get]
  split
  · exact .refl
  · exact .single (.element d e hmarker hlocal)

theorem works_function (name : String) : Works (function name) := works_intern rfl rfl

theorem works_newMarker (name : String) : Works (newMarker name) :=
  fun d => .single (.marker d name)

theorem works_linkPair (a b : ElementId) : Works (linkPair a b) := fun d => .single (.link d a b)

theorem works_release (ids : List ElementId) : Works (release ids) :=
  fun d => .single (.release d ids)

/-- A change of the draft is a step of its own. -/
theorem works_modify {f : Draft → Draft} (h : ∀ d : Draft, d.Change (f d)) :
    Works (modify f : Compile PUnit) :=
  fun d => .single (h d)

theorem works_operatorMarker (name : String) : Works (operatorMarker name) := by
  intro d
  rw [operatorMarker]
  by_cases hname : isOperator name = true
  · simp only [hname, if_true, ends_bind, ends_get]
    split
    · exact .refl
    · exact (works_newMarker name).bind
        (fun id => (works_modify fun d' => .operator d' name id).bind fun _ => works_pure id) d
  · simp only [hname]
    exact works_refuse _ d

theorem works_labelMarker (name : String) : Works (labelMarker name) := by
  intro d
  rw [labelMarker]
  split
  · exact works_refuse _ d
  · simp only [ends_bind, ends_get]
    split
    · exact .refl
    · exact (works_newMarker name).bind
        (fun id => (works_modify fun d' => .label d' name id).bind fun _ => works_pure id) d

/-- Taking a register comes before its element is made. -/
theorem works_allocLocal : Works allocLocal := by
  intro d
  simp only [allocLocal, ends_bind, ends_get, ends_modify, intern]
  split
  · exact .single (.alloc d)
  · exact .tail (.single (.alloc d)) (.register _ _ d.locals.alloc_lt)

theorem works_internVariable (pointer : Bool) (which : Variable) :
    Works (internVariable pointer which) := by
  unfold internVariable
  cases which with
  | special name => exact works_intern rfl rfl
  | flag kind id =>
    rw [variableElement]
    split_ifs
    · exact works_intern rfl rfl
    · exact works_intern rfl rfl
    · exact works_refuse _

theorem works_literalText (strings : Option StringTable) (literal : TextLiteral) :
    Works (literalText strings literal) := by
  cases literal with
  | plain text => exact works_pure text
  | external key =>
    cases strings with
    | none => exact works_throw _
    | some table =>
      intro d
      rw [literalText]
      cases table.get? key with
      | some text => exact .refl
      | none => exact .single (.warning d key)

theorem works_simple (strings : Option StringTable) (e : Expression) :
    Works (simple strings e) := by
  cases e with
  | integer _ | pointer _ => exact works_intern rfl rfl
  | text literal => exact (works_literalText strings literal).bind fun _ => works_intern rfl rfl
  | var which => exact works_internVariable false which
  | flagPointer kind id => exact works_internVariable true (.flag kind id)
  | operation _ _ | call _ _ | labelRef _ => exact works_throw _

theorem works_targetElement (target : Target) : Works (targetElement target) := by
  cases target with
  | var which => exact works_internVariable false which
  | flagPointer kind id => exact works_internVariable true (.flag kind id)
  | pointer _ => exact works_intern rfl rfl

theorem works_checkChain (operands operators : Nat) : Works (checkChain operands operators) := by
  intro d
  rw [checkChain]
  by_cases h₀ : operators = 0 <;> by_cases h₁ : operands = operators + 1 <;>
    simp [h₀, h₁, refuse, Relation.ReflTransGen.refl]

/-! ## Expressions -/

theorem Works.intoLocal {value : Compile (Code × List ElementId)} (h : Works value) :
    Works (intoLocal value) :=
  (works_function _).bind fun _ => h.bind fun _ => (works_release _).bind fun _ =>
    works_allocLocal.bind fun _ => works_pure _

theorem Works.callIntoLocal {call : Compile (Code × Instruction)} (h : Works call) :
    Works (callIntoLocal call) :=
  (works_function _).bind fun _ => h.bind fun _ => works_allocLocal.bind fun _ => works_pure _

theorem Works.callWith {name : String} {arguments : Compile (Code × List ElementId)}
    (h : Works arguments) : Works (callWith name arguments) := by
  have hcall (answer : Code × List ElementId) : Works (do
      release answer.2
      return (answer.1, Instruction.call (← function name) answer.2)) :=
    (works_release _).bind fun _ => (works_function _).bind fun _ => works_pure _
  unfold Compile.callWith
  split_ifs
  · exact (works_refuse _).bind fun _ => h.bind hcall
  · exact h.bind hcall

mutual

theorem argument_works (strings : Option StringTable) (e : Expression) :
    Works (argument strings e) := by
  match e with
  | .labelRef name =>
    rw [argument]
    exact (works_labelMarker name).bind fun _ => works_pure _
  | .integer _ | .pointer _ | .text _ | .var _ | .flagPointer .. =>
    rw [argument]
    · exact (works_simple strings _).bind fun _ => works_pure _
    all_goals simp
  | .operation operands operators =>
    rw [argument]
    exact ((works_checkChain _ _).bind fun _ =>
      operandsOf_works strings operands operators).intoLocal
  | .call name arguments =>
    rw [argument]
    exact (argumentsOf_works strings arguments).callWith.callIntoLocal

theorem argumentsOf_works (strings : Option StringTable) (arguments : List Expression) :
    Works (argumentsOf strings arguments) := by
  match arguments with
  | [] => exact works_pure _
  | x :: rest =>
    rw [argumentsOf]
    exact (argument_works strings x).bind fun _ =>
      (argumentsOf_works strings rest).bind fun _ => works_pure _

theorem operand_works (strings : Option StringTable) (e : Expression) :
    Works (operand strings e) := by
  match e with
  | .labelRef name => exact works_refuse _
  | .integer _ | .pointer _ | .text _ | .var _ | .flagPointer .. =>
    rw [operand]
    · exact (works_simple strings _).bind fun _ => works_pure _
    all_goals simp
  | .operation operands operators =>
    rw [operand]
    split
    · exact (works_operatorMarker _).bind fun _ =>
        (secondOf_works strings operands).bind fun _ => works_pure _
    · exact ((works_checkChain _ _).bind fun _ =>
        operandsOf_works strings operands operators).intoLocal.bind fun _ => works_pure _
  | .call name arguments =>
    rw [operand]
    exact (argumentsOf_works strings arguments).callWith.callIntoLocal.bind fun _ => works_pure _

theorem secondOf_works (strings : Option StringTable) (operands : List Expression) :
    Works (secondOf strings operands) := by
  match operands with
  | _ :: x :: _ =>
    rw [secondOf]
    exact argument_works strings x
  | [] | [_] => exact works_throw _

theorem operandsOf_works (strings : Option StringTable) (operands : List Expression)
    (operators : List String) : Works (operandsOf strings operands operators) := by
  match operands with
  | [] => exact works_pure _
  | x :: rest =>
    rw [operandsOf]
    exact (operand_works strings x).bind fun _ =>
      (laterOperandsOf_works strings rest operators).bind fun _ => works_pure _

theorem laterOperandsOf_works (strings : Option StringTable) (operands : List Expression)
    (operators : List String) : Works (laterOperandsOf strings operands operators) := by
  match operands, operators with
  | x :: rest, operator :: operators =>
    rw [laterOperandsOf]
    exact (works_operatorMarker operator).bind fun _ => (operand_works strings x).bind fun _ =>
      (laterOperandsOf_works strings rest operators).bind fun _ => works_pure _
  | [], _ | _ :: _, [] =>
    rw [laterOperandsOf]
    · exact works_pure _
    all_goals simp

end

theorem chain_works (strings : Option StringTable) (e : Expression) : Works (chain strings e) := by
  unfold chain
  split
  · exact (works_checkChain _ _).bind fun _ => operandsOf_works strings _ _
  · exact operand_works strings e

/-! ## Statements -/

theorem assignment_works (strings : Option StringTable) (target : Target) (e : Expression) :
    Works (assignment strings target e) := by
  unfold assignment
  split
  · exact (works_targetElement target).bind fun _ => (works_function _).bind fun _ =>
      (argumentsOf_works strings _).callWith.bind fun _ => works_pure _
  · exact (works_targetElement target).bind fun _ => (works_function _).bind fun _ =>
      (chain_works strings e).bind fun _ => (works_release _).bind fun _ => works_pure _

theorem works_checkNeighbours (s : Statement) (next : Option Statement) :
    Works (checkNeighbours s next) := by
  unfold checkNeighbours
  split
  · exact works_refuse _
  · split
    · exact works_refuse _
    · exact works_pure _
  · exact works_pure _

theorem works_checkReleased : Works checkReleased := by
  intro d
  simp only [checkReleased, ends_bind, ends_get]
  split <;> exact .refl

theorem Works.braced {body : Compile Code} (h : Works body) : Works (braced body) :=
  (works_newMarker _).bind fun _ => (works_newMarker _).bind fun _ =>
    (works_linkPair _ _).bind fun _ => h.bind fun _ => works_pure _

mutual

theorem statement_works (strings : Option StringTable) (s : Statement) :
    Works (statement strings s) := by
  match s with
  | .block body =>
    rw [statement]
    exact (statements_works strings body).braced
  | .assignment target value =>
    rw [statement]
    exact assignment_works strings target value
  | .call name arguments =>
    rw [statement]
    exact (argumentsOf_works strings arguments).callWith.bind fun _ => works_pure _
  | .bodyCall name arguments body =>
    have hcode : Works (do
        let (code, instruction) ← callWith name (argumentsOf strings arguments)
        let block ← Compile.braced (statements strings body)
        return code ++ instruction :: block) :=
      (argumentsOf_works strings arguments).callWith.bind fun _ =>
        (statements_works strings body).braced.bind fun _ => works_pure _
    rw [statement]
    split
    · exact (works_refuse _).bind fun _ => hcode
    · exact hcode
  | .conditional condition body otherwise =>
    rw [statement]
    exact (chain_works strings condition).bind fun _ => (works_release _).bind fun _ =>
      (works_function _).bind fun _ => (statements_works strings body).braced.bind fun _ =>
        (alternative_works strings otherwise).bind fun _ => works_pure _
  | .label name =>
    rw [statement]
    exact (works_labelMarker name).bind fun _ => (works_linkPair _ _).bind fun _ => works_pure _

theorem alternative_works (strings : Option StringTable) (otherwise : Option (List Statement)) :
    Works (alternative strings otherwise) := by
  match otherwise with
  | none =>
    rw [alternative]
    exact works_pure _
  | some body =>
    rw [alternative]
    exact (works_newMarker _).bind fun _ =>
      (statements_works strings body).braced.bind fun _ => works_pure _

/-- However compiling statements ends, the draft has seen only changes that the compiler makes. -/
theorem statements_works (strings : Option StringTable) (tree : List Statement) :
    Works (statements strings tree) := by
  match tree with
  | [] =>
    rw [statements]
    exact works_pure _
  | s :: rest =>
    rw [statements]
    exact (works_checkNeighbours s _).bind fun _ => (statement_works strings s).bind fun _ =>
      works_checkReleased.bind fun _ => (statements_works strings rest).bind fun _ => works_pure _

end

end Compile

/-! ## Locals of the program -/

/-- No local of the draft lies beyond those that the pool has given out. -/
def Draft.Bounded (d : Draft) : Prop :=
  ∀ (id : ElementId) (r : Nat),
    d.elements[id]? = some (Element.localVar r) → r < d.locals.highWater

theorem highWater_foldl_releaseOne (elements : Array Element) (ids : List ElementId)
    (pool : LocalPool) :
    (ids.foldl (Compile.releaseOne elements) pool).highWater = pool.highWater := by
  induction ids generalizing pool with
  | nil => rfl
  | cons id ids ih =>
    rw [List.foldl_cons, ih, Compile.releaseOne]
    split
    · simp [LocalPool.free, LocalPool.highWater]
    · rfl

theorem eq_localVar_of_linkTo {link : ElementId} {e : Element} {r : Nat}
    (h : Compile.linkTo link e = .localVar r) : e = .localVar r := by
  cases e <;> simp_all [Compile.linkTo]

theorem getElem?_of_modify_linkTo {elements : Array Element} {i link id : ElementId} {r : Nat}
    (h : (elements.modify i (Compile.linkTo link))[id]? = some (.localVar r)) :
    elements[id]? = some (.localVar r) := by
  rw [Array.getElem?_modify] at h
  split at h
  · obtain ⟨e, he, hlink⟩ := Option.map_eq_some_iff.mp h
    rw [he, eq_localVar_of_linkTo hlink]
  · exact h

theorem Draft.Change.bounded {d d' : Draft} (h : d.Change d') (hd : d.Bounded) : d'.Bounded := by
  intro id r hr
  cases h with
  | element e _ hlocal =>
    obtain hr | ⟨-, rfl⟩ := getElem?_push_eq_some.mp hr
    · exact hd id r hr
    · simp [Element.register?] at hlocal
  | register r' hr' =>
    obtain hr | ⟨-, heq⟩ := getElem?_push_eq_some.mp hr
    · exact hd id r hr
    · rw [← Element.localVar.inj heq]
      exact hr'
  | marker name =>
    obtain hr | ⟨-, heq⟩ := getElem?_push_eq_some.mp hr
    · exact hd id r hr
    · cases heq
  | operator | label | warning => exact hd id r hr
  | link a b => exact hd id r (getElem?_of_modify_linkTo (getElem?_of_modify_linkTo hr))
  | alloc => exact Nat.lt_of_lt_of_le (hd id r hr) d.locals.highWater_le_alloc
  | release ids =>
    rw [highWater_foldl_releaseOne]
    exact hd id r hr

/-- No local in the table of a compiled program lies beyond the locals that it asks for. -/
theorem register_lt_of_compile {strings : Option StringTable} {tree : List Statement}
    {program : Program} (h : (compile strings tree).result = .ok program) {id : ElementId} {r : Nat}
    (hr : program.elements[id]? = some (.localVar r)) : r < program.maxLocals := by
  unfold compile at h
  rcases hrun : ((Compile.statements strings tree).run.run {} : Except ScriptError Code × Draft)
    with ⟨result, d⟩
  have hchanges := (Compile.statements_works strings tree {}).after hrun
  have hbounded : d.Bounded :=
    hchanges.keeps (fun _ _ => Draft.Change.bounded) (by simp [Draft.Bounded])
  simp only [hrun] at h
  cases result with
  | error e => simp [Except.map] at h
  | ok code =>
    obtain rfl := Except.ok.inj h
    exact hbounded id r hr

end NovelScript
