import NovelScript.Proofs.Script.Markers

/-!
# The labels of compiled code

What the compiler emits for a tree has labels for what stands in the tree, in order
(`Statement.placementsList`), and its calls cite the labels that the tree refers to
(`Compile.statements_lays`).
-/

namespace NovelScript

namespace Expression

mutual

/-- The names of the labels that an expression refers to. -/
def labelRefs : Expression → List String
  | operation operands _ => labelRefsList operands
  | call _ arguments => labelRefsList arguments
  | labelRef name => [name]
  | integer _ | pointer _ | text _ | var _ | flagPointer .. => []

/-- The names of the labels that expressions refer to. -/
def labelRefsList : List Expression → List String
  | [] => []
  | x :: rest => labelRefs x ++ labelRefsList rest

end
end Expression

/-! ## Labels of trees -/

namespace Statement

/-- Placements between those of braces. -/
def bracedPlacements (body : List Placement) : List Placement := .opens :: body ++ [.closes]

mutual

/-- What the labels in the code of a statement stand for, in order. -/
def placements : Statement → List Placement
  | block body => bracedPlacements (placementsList body)
  | assignment .. | call .. => []
  | bodyCall _ _ body => bracedPlacements (placementsList body)
  | conditional _ body otherwise =>
    bracedPlacements (placementsList body) ++ placementsOption otherwise
  | label name => [.declares name]

/-- What the labels in the code of statements stand for, in order. -/
def placementsList : List Statement → List Placement
  | [] => []
  | s :: rest => placements s ++ placementsList rest

/-- What the labels in the code of an alternative stand for, in order. -/
def placementsOption : Option (List Statement) → List Placement
  | none => []
  | some body => .alternative :: bracedPlacements (placementsList body)

end

mutual

/-- The names of the labels that a statement refers to. -/
def labelRefs : Statement → List String
  | block body => labelRefsList body
  | assignment _ value => value.labelRefs
  | call _ arguments => Expression.labelRefsList arguments
  | bodyCall _ arguments body => Expression.labelRefsList arguments ++ labelRefsList body
  | conditional condition body otherwise =>
    condition.labelRefs ++ (labelRefsList body ++ labelRefsOption otherwise)
  | label _ => []

/-- The names of the labels that statements refer to. -/
def labelRefsList : List Statement → List String
  | [] => []
  | s :: rest => labelRefs s ++ labelRefsList rest

/-- The names of the labels that an alternative refers to. -/
def labelRefsOption : Option (List Statement) → List String
  | none => []
  | some body => labelRefsList body

end
end Statement

namespace Compile

open Draft

variable {α β : Type}

/-! ## Steps that answer an element -/

/-- The step makes no brace and answers an element that may be cited. -/
def Remembers (step : Compile ElementId) : Prop :=
  ∀ d : Draft, d.Tidy → Ends step d (fun id d' => d.Wires [id] [] [] d') anyFailure

/-- The step does nothing to markers. -/
def Ignores (step : Compile α) : Prop :=
  ∀ d : Draft, d.Tidy → Ends step d (fun _ d' => d.Wires [] [] [] d') anyFailure

theorem Ignores.remembers {step : Compile α} {next : α → Compile ElementId} (h : Ignores step)
    (hnext : ∀ a, Remembers (next a)) : Remembers (step >>= next) := by
  intro d hd
  rw [ends_bind]
  refine (h d hd).imp fun a d₁ h₁ => ?_
  exact (hnext a d₁ h₁.tidy).imp fun id d₂ h₂ => h₁.append h₂

theorem pushes_plain {e : Element} (h : e.marker? = none) (d : Draft) :
    d.Pushes e { d with elements := d.elements.push e } where
  elements := rfl
  operators {name id} := by
    refine ⟨.inl, fun hop => hop.resolve_right ?_⟩
    rintro ⟨-, m, rfl, -⟩
    cases h
  labels := .inl
  keeps := id
  unlinked := by
    rintro m rfl
    cases h

theorem remembers_intern {e : Element} (h : e.marker? = none) : Remembers (intern e) := by
  intro d hd
  simp only [intern, ends_bind, ends_get]
  split
  · next id hid =>
    refine (Wires.refl hd).cite ⟨e, getElem?_of_idxOf? hid, ?_⟩
    rintro m rfl
    cases h
  · refine ((pushes_plain h d).wires hd).cite ⟨e, by simp, ?_⟩
    rintro m rfl
    cases h

theorem remembers_function (name : String) : Remembers (function name) := remembers_intern rfl

theorem remembers_allocLocal : Remembers allocLocal := by
  intro d hd
  simp only [allocLocal, ends_bind, ends_get, ends_modify]
  have hsame : d.Wires [] [] [] { d with locals := d.locals.alloc.2 } := .of_eq hd rfl rfl rfl
  exact (remembers_intern rfl _ hsame.tidy).imp fun id d' h => hsame.append h

theorem remembers_internVariable (pointer : Bool) (which : Variable) :
    Remembers (internVariable pointer which) := by
  unfold internVariable
  cases which with
  | special name => exact remembers_intern rfl
  | flag kind id =>
    rw [variableElement]
    split_ifs
    · exact remembers_intern rfl
    · exact remembers_intern rfl
    · exact fun _ _ => trivial

theorem remembers_simple (strings : Option StringTable) (e : Expression) :
    Remembers (simple strings e) := by
  cases e with
  | integer _ | pointer _ => exact remembers_intern rfl
  | text literal =>
    have htext : Ignores (literalText strings literal) := by
      intro d hd
      cases literal with
      | plain text => exact .refl hd
      | external key =>
        cases strings with
        | none => trivial
        | some table =>
          rw [literalText]
          cases table.get? key with
          | some text => exact .refl hd
          | none => exact .of_eq hd rfl rfl rfl
    exact htext.remembers fun _ => remembers_intern rfl
  | var which => exact remembers_internVariable false which
  | flagPointer kind id => exact remembers_internVariable true (.flag kind id)
  | operation _ _ | call _ _ | labelRef _ => exact fun _ _ => trivial

theorem remembers_targetElement (target : Target) : Remembers (targetElement target) := by
  cases target with
  | var which => exact remembers_internVariable false which
  | flagPointer kind id => exact remembers_internVariable true (.flag kind id)
  | pointer _ => exact remembers_intern rfl

/-- A new operator is remembered under its name. -/
theorem pushes_operator {name : String} (hname : isOperator name = true) (d : Draft) :
    d.Pushes (.marker ⟨name, none, d.markerCount, 0⟩)
      { d with
        elements := d.elements.push (.marker ⟨name, none, d.markerCount, 0⟩)
        markerCount := d.markerCount + 1
        operators := d.operators ++ [(name, d.elements.size)] } where
  elements := rfl
  operators {name' id} := by
    rw [List.mem_append, List.mem_singleton, Prod.mk.injEq]
    refine or_congr_right ⟨?_, ?_⟩
    · rintro ⟨rfl, rfl⟩
      exact ⟨rfl, _, rfl, rfl, hname⟩
    · rintro ⟨rfl, m, hm, rfl, -⟩
      obtain rfl := Element.marker.inj hm
      exact ⟨rfl, rfl⟩
  labels := .inl
  keeps := id
  unlinked := by
    rintro m hm
    obtain rfl := Element.marker.inj hm
    refine ⟨rfl, ?_⟩
    by_contra hbrace
    have hopen : name ≠ blockOpen := by rintro rfl; exact absurd hname (by decide)
    have hclose : name ≠ blockClose := by rintro rfl; exact absurd hname (by decide)
    exact hbrace (by simp [brace?, hopen, hclose])

theorem remembers_operatorMarker (name : String) : Remembers (operatorMarker name) := by
  intro d hd
  rw [operatorMarker]
  by_cases hname : isOperator name = true
  · simp only [hname, if_true, ends_bind, ends_get]
    split
    · next id hid =>
      have hoperator := mem_of_lookup hid
      obtain ⟨-, m, hm, rfl, -⟩ := hd.operator hoperator
      exact (Wires.refl hd).cite ⟨_, hm, fun m' hm' => .inl (Element.marker.inj hm' ▸ hoperator)⟩
    · have hpush := pushes_operator hname d
      have hnew := hpush.mem_elements.mpr (.inr ⟨rfl, rfl⟩)
      refine (hpush.wires hd).cite ⟨_, hnew, fun m hm => .inl ?_⟩
      obtain rfl := Element.marker.inj hm
      exact List.mem_append_right _ List.mem_cons_self
  · simp [hname, refuse, anyFailure]

/-- A new label is remembered under its name. -/
theorem pushes_label {name : String} (hname : isLabelName name = true) {d : Draft}
    (hnew : d.labels.lookup name = none) :
    d.Pushes (.marker ⟨name, none, d.markerCount, 0⟩)
      { d with
        elements := d.elements.push (.marker ⟨name, none, d.markerCount, 0⟩)
        markerCount := d.markerCount + 1
        labels := d.labels ++ [(name, d.elements.size)] } where
  elements := rfl
  operators {name' id} := by
    refine ⟨.inl, fun hop => hop.resolve_right ?_⟩
    rintro ⟨-, m, hm, rfl, hop⟩
    obtain rfl := Element.marker.inj hm
    rw [isOperator_eq_false hname] at hop
    cases hop
  labels {name' id} hlabel := by
    refine (List.mem_append.mp hlabel).imp_right fun hlast => ?_
    obtain ⟨rfl, rfl⟩ := Prod.mk.inj (List.mem_singleton.mp hlast)
    refine ⟨rfl, ⟨_, rfl, rfl⟩, hname, fun id' hold => ?_⟩
    have hnone := List.lookup_eq_none_iff.mp hnew _ hold
    simp at hnone
  keeps := List.mem_append_left _
  unlinked := by
    rintro m hm
    obtain rfl := Element.marker.inj hm
    exact ⟨rfl, brace?_eq_none hname⟩

/-- A label is new, or the one that is remembered. -/
theorem ends_labelMarker_wires (name : String) {d : Draft} (hd : d.Tidy) :
    Ends (labelMarker name) d (fun id d' => d.Wires [] [] [] d' ∧ (name, id) ∈ d'.labels)
      anyFailure := by
  rw [labelMarker]
  by_cases hlabel : name = blockOpen ∨ name = blockClose ∨ isOperator name = true
  · simp [hlabel, refuse, anyFailure]
  · have hname : isLabelName name = true := by simp_all [isLabelName]
    simp only [hlabel, if_false, ends_bind, ends_get]
    split
    · next id hid => exact ⟨.refl hd, mem_of_lookup hid⟩
    · next hnew =>
      exact ⟨(pushes_label hname hnew).wires hd, List.mem_append_right _ List.mem_cons_self⟩

/-! ## Expressions -/

/-- The elements that are passed to functions, by code or by what comes behind it. -/
def citedBy (code : Code) (ids : List ElementId) : List ElementId :=
  code.flatMap Instruction.arguments ++ ids

/-- The step emits code without labels, and answers elements, that refer to these names. -/
def Refers (step : Compile (Code × List ElementId)) (names : List String) : Prop :=
  ∀ d : Draft, d.Tidy → Ends step d (fun r d' => r.1.filterMap Instruction.placed? = []
    ∧ d.Wires (citedBy r.1 r.2) [] names d') anyFailure

/-- The same of a step that answers a single element. -/
def RefersOne (step : Compile (Code × ElementId)) (names : List String) : Prop :=
  ∀ d : Draft, d.Tidy → Ends step d (fun r d' => r.1.filterMap Instruction.placed? = []
    ∧ d.Wires (citedBy r.1 [r.2]) [] names d') anyFailure

/-- The same of a step that answers a call. -/
def RefersCall (step : Compile (Code × Instruction)) (names : List String) : Prop :=
  ∀ d : Draft, d.Tidy → Ends step d (fun r d' => r.1.filterMap Instruction.placed? = []
    ∧ r.2.placed? = none ∧ d.Wires (citedBy r.1 r.2.arguments) [] names d') anyFailure

variable {names names' : List String}

theorem Remembers.refersOne {step : Compile ElementId} (h : Remembers step) :
    RefersOne (do return ([], ← step)) [] := by
  intro d hd
  rw [ends_bind]
  exact (h d hd).imp fun id d' h => ⟨rfl, h⟩

theorem RefersOne.refers {step : Compile (Code × ElementId)} (h : RefersOne step names) :
    Refers (do let (code, id) ← step; return (code, [id])) names := by
  intro d hd
  rw [ends_bind]
  exact (h d hd).imp fun _ _ => id

/-- One piece of code behind another. -/
theorem wires_append {d d₁ d₂ : Draft} {code others : Code} {ids more : List ElementId}
    (h : d.Wires (citedBy code ids) [] names d₁)
    (h' : d₁.Wires (citedBy others more) [] names' d₂) :
    d.Wires (citedBy (code ++ others) (ids ++ more)) [] (names ++ names') d₂ := by
  refine (h.append h').reorder fun id => ?_
  simp only [citedBy, List.flatMap_append, List.mem_append]
  tauto

theorem filterMap_placed?_append {code others : Code}
    (h : code.filterMap Instruction.placed? = [])
    (h' : others.filterMap Instruction.placed? = []) :
    (code ++ others).filterMap Instruction.placed? = [] := by
  rw [List.filterMap_append, h, h', List.append_nil]

theorem ignores_release (ids : List ElementId) : Ignores (release ids) :=
  fun _ hd => .of_eq hd rfl rfl rfl

theorem refers_intoLocal {value : Compile (Code × List ElementId)} (h : Refers value names) :
    RefersOne (intoLocal value) names := by
  intro d hd
  rw [intoLocal, ends_bind]
  refine (remembers_function assignFunction d hd).imp fun assign d₁ h₁ => ?_
  rw [ends_bind]
  refine (h d₁ h₁.tidy).imp ?_
  rintro ⟨code, ids⟩ d₂ ⟨hplain, h₂⟩
  rw [ends_bind]
  refine (ignores_release ids d₂ h₂.tidy).imp fun _ d₃ h₃ => ?_
  rw [ends_bind]
  refine (remembers_allocLocal d₃ h₃.tidy).imp fun register d₄ h₄ => ?_
  have hwires := (h₁.drop (List.nil_subset _)).behind (h₂.append (h₃.behind h₄))
  simp only [List.append_nil] at hwires
  refine ⟨by simp [hplain, Instruction.placed?], hwires.reorder fun id => ?_⟩
  simp [citedBy, Instruction.arguments]

theorem refers_callWith (name : String) {arguments : Compile (Code × List ElementId)}
    (h : Refers arguments names) : RefersCall (callWith name arguments) names := by
  intro d hd
  rw [callWith]
  by_cases hname : name = assignFunction
  · simp [hname, refuse, anyFailure]
  · simp only [hname, if_false, ends_bind, ends_pure]
    refine (h d hd).imp ?_
    rintro ⟨code, ids⟩ d₁ ⟨hplain, h₁⟩
    refine (ignores_release ids d₁ h₁.tidy).imp fun _ d₂ h₂ => ?_
    refine (remembers_function name d₂ h₂.tidy).imp fun function d₃ h₃ => ?_
    exact ⟨hplain, rfl, (h₁.followed h₂).followed (h₃.drop (List.nil_subset _))⟩

theorem refers_callIntoLocal {call : Compile (Code × Instruction)} (h : RefersCall call names) :
    RefersOne (callIntoLocal call) names := by
  intro d hd
  rw [callIntoLocal, ends_bind]
  refine (remembers_function assignFunction d hd).imp fun assign d₁ h₁ => ?_
  rw [ends_bind]
  refine (h d₁ h₁.tidy).imp ?_
  rintro ⟨code, instruction⟩ d₂ ⟨hplain, hplaced, h₂⟩
  rw [ends_bind]
  refine (remembers_allocLocal d₂ h₂.tidy).imp fun register d₃ h₃ => ?_
  have hwires := (h₁.drop (List.nil_subset _)).behind (h₂.append h₃)
  simp only [List.append_nil] at hwires
  refine ⟨filterMap_placed?_append hplain ?_, hwires.reorder fun id => ?_⟩
  · exact List.filterMap_cons_none hplaced
  · simp [citedBy, Instruction.arguments]

/-- A chain that is not refused has one operand more than operators. -/
theorem Refers.checked {operands operators : Nat} {step : Compile (Code × List ElementId)}
    (h : operands = operators + 1 → Refers step names) :
    Refers (do checkChain operands operators; step) names := by
  intro d hd
  rw [ends_bind]
  refine (ends_checkChain operands operators d).imp ?_
  rintro ⟨⟩ _ ⟨rfl, -, hlength⟩
  exact h hlength _ hd

end Compile

namespace Draft

variable {d d₁ d₂ d' : Draft} {code more : Code} {placements placements' : List Placement}
  {names names' : List String}

/-! ## Code that has labels -/

/-- The code has labels for the placements, and refers to the names. -/
def Lays (d : Draft) (code : Code) (placements : List Placement) (names : List String)
    (d' : Draft) : Prop :=
  ∃ marks : List (ElementId × Placement), marks.map Prod.fst = code.filterMap Instruction.placed?
    ∧ marks.map Prod.snd = placements
    ∧ d.Wires (code.flatMap Instruction.arguments) marks names d'

variable {d₁ d₂ : Draft} {code more : Code} {placements placements' : List Placement}
  {names' : List String}

theorem Lays.tidy (h : d.Lays code placements names d') : d'.Tidy := by
  obtain ⟨_, -, -, hwires⟩ := h
  exact hwires.tidy

theorem lays_nil (h : d.Tidy) : d.Lays [] [] [] d := ⟨[], rfl, rfl, .refl h⟩

theorem Lays.append (h : d.Lays code placements names d₁)
    (h' : d₁.Lays more placements' names' d₂) :
    d.Lays (code ++ more) (placements ++ placements') (names ++ names') d₂ := by
  obtain ⟨marks, hcode, rfl, hwires⟩ := h
  obtain ⟨marks', hmore, rfl, hwires'⟩ := h'
  refine ⟨marks ++ marks', ?_, List.map_append, ?_⟩
  · rw [List.map_append, List.filterMap_append, hcode, hmore]
  · rw [List.flatMap_append]
    exact hwires.append hwires'

/-- Code without labels, with what passes its values to a function. -/
theorem lays_of_wires {ids : List ElementId}
    (h : d.Wires (code.flatMap Instruction.arguments ++ ids) [] names d')
    (hcode : code.filterMap Instruction.placed? = [])
    (hmore : more.filterMap Instruction.placed? = [])
    (hids : more.flatMap Instruction.arguments = ids) : d.Lays (code ++ more) [] names d' := by
  refine ⟨[], (Compile.filterMap_placed?_append hcode hmore).symm, rfl, ?_⟩
  rw [List.flatMap_append, hids]
  exact h

theorem Lays.followed (h : d.Lays code placements names d₁) (h' : d₁.Wires [] [] [] d₂) :
    d.Lays code placements names d₂ := by
  obtain ⟨marks, hcode, hplacements, hwires⟩ := h
  exact ⟨marks, hcode, hplacements, hwires.followed h'⟩

theorem Lays.behind (h : d.Wires [] [] [] d₁) (h' : d₁.Lays code placements names d₂) :
    d.Lays code placements names d₂ := by
  obtain ⟨marks, hcode, hplacements, hwires⟩ := h'
  exact ⟨marks, hcode, hplacements, h.behind hwires⟩

theorem Lays.braced (hd : d.Tidy) (h : d.opened.Lays code placements names d') :
    d.Lays (.label d.elements.size :: code ++ [.label (d.elements.size + 1)])
      (Statement.bracedPlacements placements) names d' := by
  obtain ⟨marks, hcode, rfl, hwires⟩ := h
  refine ⟨(d.elements.size, .opens) :: marks ++ [(d.elements.size + 1, .closes)], ?_, ?_, ?_⟩
  · simp [hcode, Instruction.placed?]
  · simp [Statement.bracedPlacements]
  · simpa [Instruction.arguments] using hwires.braced hd

/-- A label by itself. -/
theorem lays_mark {id : ElementId} {placement : Placement}
    (h : d.Wires [] [(id, placement)] [] d') : d.Lays [.label id] [placement] [] d' :=
  ⟨[(id, placement)], rfl, rfl, h⟩

end Draft

namespace Compile

open Draft

theorem argument_refers_simple (strings : Option StringTable) {e : Expression} (hs : IsSimple e) :
    RefersOne (argument strings e) [] := by
  cases e
  case operation | call | labelRef => exact hs.elim
  all_goals
    rw [argument]
    · exact (remembers_simple strings _).refersOne
    all_goals simp

theorem operand_refers_simple (strings : Option StringTable) {e : Expression} (hs : IsSimple e) :
    Refers (operand strings e) [] := by
  cases e
  case operation | call | labelRef => exact hs.elim
  all_goals
    rw [operand]
    · intro d hd
      rw [ends_bind]
      exact (remembers_simple strings _ d hd).imp fun id d' h => ⟨rfl, h⟩
    all_goals simp

mutual

theorem argument_refers (strings : Option StringTable) (e : Expression) :
    RefersOne (argument strings e) e.labelRefs := by
  match e with
  | .labelRef name =>
    intro d hd
    rw [argument, ends_bind]
    refine (ends_labelMarker_wires name hd).imp fun id d' h => ⟨rfl, ?_⟩
    exact h.1.refer h.2
  | .integer _ | .pointer _ | .text _ | .var _ | .flagPointer .. =>
    exact argument_refers_simple strings (by trivial)
  | .operation operands operators =>
    rw [argument]
    exact refers_intoLocal (Refers.checked fun hlength =>
      operandsOf_refers strings operands operators hlength)
  | .call name arguments =>
    rw [argument]
    exact refers_callIntoLocal (refers_callWith name (argumentsOf_refers strings arguments))

theorem argumentsOf_refers (strings : Option StringTable) (arguments : List Expression) :
    Refers (argumentsOf strings arguments) (Expression.labelRefsList arguments) := by
  match arguments with
  | [] => exact fun d hd => ⟨rfl, .refl hd⟩
  | x :: rest =>
    intro d hd
    rw [argumentsOf, ends_bind]
    refine (argument_refers strings x d hd).imp ?_
    rintro ⟨code, id⟩ d₁ ⟨hplain, h₁⟩
    rw [ends_bind]
    refine (argumentsOf_refers strings rest d₁ h₁.tidy).imp ?_
    rintro ⟨others, ids⟩ d₂ ⟨hplain', h₂⟩
    exact ⟨filterMap_placed?_append hplain hplain', wires_append h₁ h₂⟩

theorem operand_refers (strings : Option StringTable) (e : Expression) :
    Refers (operand strings e) e.labelRefs := by
  match e with
  | .labelRef name => exact fun d _ => trivial
  | .integer _ | .pointer _ | .text _ | .var _ | .flagPointer .. =>
    exact operand_refers_simple strings (by trivial)
  | .operation operands operators =>
    rw [operand]
    split
    · next sign hsign =>
      -- the zero in front of a sign refers to nothing
      obtain ⟨x, rfl, rfl, -⟩ := sign?_eq_some hsign
      intro d hd
      rw [secondOf, ends_bind]
      refine (remembers_operatorMarker sign d hd).imp fun marker d₁ h₁ => ?_
      rw [ends_bind]
      refine (argument_refers strings x d₁ h₁.tidy).imp ?_
      rintro ⟨code, id⟩ d₂ ⟨hplain, h₂⟩
      have hwires := h₁.marked h₂
      simp only [Expression.labelRefs, Expression.labelRefsList, List.append_nil, List.nil_append]
      exact ⟨hplain, hwires⟩
    · exact (refers_intoLocal (Refers.checked fun hlength =>
        operandsOf_refers strings operands operators hlength)).refers
  | .call name arguments =>
    rw [operand]
    exact (refers_callIntoLocal
      (refers_callWith name (argumentsOf_refers strings arguments))).refers

theorem operandsOf_refers (strings : Option StringTable) (operands : List Expression)
    (operators : List String) (hlength : operands.length = operators.length + 1) :
    Refers (operandsOf strings operands operators) (Expression.labelRefsList operands) := by
  match operands with
  | x :: rest =>
    intro d hd
    rw [operandsOf, ends_bind]
    refine (operand_refers strings x d hd).imp ?_
    rintro ⟨code, ids⟩ d₁ ⟨hplain, h₁⟩
    rw [ends_bind]
    refine (laterOperandsOf_refers strings rest operators (Nat.succ.inj hlength) d₁ h₁.tidy).imp ?_
    rintro ⟨others, more⟩ d₂ ⟨hplain', h₂⟩
    exact ⟨filterMap_placed?_append hplain hplain', wires_append h₁ h₂⟩

theorem laterOperandsOf_refers (strings : Option StringTable) (operands : List Expression)
    (operators : List String) (hlength : operands.length = operators.length) :
    Refers (laterOperandsOf strings operands operators) (Expression.labelRefsList operands) := by
  match operands, operators with
  | [], [] => exact fun d hd => ⟨rfl, .refl hd⟩
  | x :: rest, operator :: operators =>
    intro d hd
    rw [laterOperandsOf, ends_bind]
    refine (remembers_operatorMarker operator d hd).imp fun marker d₁ h₁ => ?_
    rw [ends_bind]
    refine (operand_refers strings x d₁ h₁.tidy).imp ?_
    rintro ⟨code, ids⟩ d₂ ⟨hplain, h₂⟩
    rw [ends_bind]
    refine (laterOperandsOf_refers strings rest operators (Nat.succ.inj hlength) d₂ h₂.tidy).imp ?_
    rintro ⟨others, more⟩ d₃ ⟨hplain', h₃⟩
    exact ⟨filterMap_placed?_append hplain hplain', h₁.marked (wires_append h₂ h₃)⟩

end

theorem chain_refers (strings : Option StringTable) (e : Expression) :
    Refers (chain strings e) e.labelRefs := by
  unfold chain
  split
  · exact Refers.checked fun hlength => operandsOf_refers strings _ _ hlength
  · exact operand_refers strings e

/-! ## Statements -/

variable {step : Compile Code} {placements placements' : List Placement}
  {names names' : List String}

/-- The step emits code that has labels for the placements, and refers to the names. -/
def Lays (step : Compile Code) (placements : List Placement) (names : List String) : Prop :=
  ∀ d : Draft, d.Tidy → Ends step d (fun code d' => d.Lays code placements names d') anyFailure

theorem lays_braced (h : Lays step placements names) :
    Lays (braced step) (Statement.bracedPlacements placements) names := by
  intro d hd
  simp only [braced, newMarker, linkPair, ends_bind, ends_get, ends_set, ends_pure, ends_modify,
    Array.size_push, elements_opened]
  exact (h d.opened hd.opened).imp fun code d' hcode => hcode.braced hd

theorem lays_second (h : Lays step placements names) :
    Lays (do
      let marker ← newMarker elseLabel
      let block ← braced step
      return .label marker :: block)
      (.alternative :: Statement.bracedPlacements placements) names := by
  intro d hd
  simp only [newMarker, ends_bind, ends_get, ends_set, ends_pure]
  have hmarker := lays_mark (wires_alternative hd)
  exact (lays_braced h _ hmarker.tidy).imp fun block d' hblock => hmarker.append hblock

theorem lays_label (name : String) :
    Lays (do
      let marker ← labelMarker name
      linkPair marker marker
      return [.label marker]) [.declares name] [] := by
  intro d hd
  rw [ends_bind]
  refine (ends_labelMarker_wires name hd).imp ?_
  rintro marker d₁ ⟨h₁, hlabel⟩
  exact (lays_mark (wires_declares h₁.tidy hlabel)).behind h₁

/-- A call behind the code of its arguments. -/
theorem lays_callWith (strings : Option StringTable) (name : String) (arguments : List Expression) :
    ∀ d : Draft, d.Tidy → Ends (callWith name (argumentsOf strings arguments)) d
      (fun r d' => d.Lays (r.1 ++ [r.2]) [] (Expression.labelRefsList arguments) d')
      anyFailure := by
  intro d hd
  refine (refers_callWith name (argumentsOf_refers strings arguments) d hd).imp ?_
  rintro ⟨code, instruction⟩ d' ⟨hplain, hplaced, hwires⟩
  exact lays_of_wires hwires hplain (List.filterMap_cons_none hplaced) (by simp)

theorem lays_captured (target : Target) {call : Compile (Code × Instruction)}
    (h : RefersCall call names) :
    Lays (do
      let target ← targetElement target
      let assign ← function assignFunction
      let (code, instruction) ← call
      return code ++ [.target target, .call assign [], instruction]) [] names := by
  intro d hd
  rw [ends_bind]
  refine (remembers_targetElement target d hd).imp fun id d₁ h₁ => ?_
  rw [ends_bind]
  refine (remembers_function assignFunction d₁ h₁.tidy).imp fun assign d₂ h₂ => ?_
  rw [ends_bind]
  refine (h d₂ h₂.tidy).imp ?_
  rintro ⟨code, instruction⟩ d₃ ⟨hplain, hplaced, h₃⟩
  have hwires := (h₁.drop (List.nil_subset _)).behind ((h₂.drop (List.nil_subset _)).behind h₃)
  exact lays_of_wires hwires hplain (List.filterMap_cons_none hplaced)
    (by simp [Instruction.arguments])

theorem lays_assigned (target : Target) {value : Compile (Code × List ElementId)}
    (h : Refers value names) :
    Lays (do
      let target ← targetElement target
      let assign ← function assignFunction
      let (code, ids) ← value
      release ids
      return code ++ [.target target, .call assign ids]) [] names := by
  intro d hd
  rw [ends_bind]
  refine (remembers_targetElement target d hd).imp fun id d₁ h₁ => ?_
  rw [ends_bind]
  refine (remembers_function assignFunction d₁ h₁.tidy).imp fun assign d₂ h₂ => ?_
  rw [ends_bind]
  refine (h d₂ h₂.tidy).imp ?_
  rintro ⟨code, ids⟩ d₃ ⟨hplain, h₃⟩
  rw [ends_bind]
  refine (ignores_release ids d₃ h₃.tidy).imp fun _ d₄ h₄ => ?_
  have hwires := (h₁.drop (List.nil_subset _)).behind
    ((h₂.drop (List.nil_subset _)).behind (h₃.followed h₄))
  exact lays_of_wires hwires hplain rfl (by simp [Instruction.arguments])

theorem assignment_lays (strings : Option StringTable) (target : Target) (e : Expression) :
    Lays (assignment strings target e) [] e.labelRefs := by
  unfold assignment
  split
  · exact lays_captured target (refers_callWith _ (argumentsOf_refers strings _))
  · exact lays_assigned target (chain_refers strings e)

theorem lays_conditional {condition : Compile (Code × List ElementId)}
    {body alternative : Compile Code} {names₁ names₂ : List String}
    (h : Refers condition names) (hbody : Lays body placements names₁)
    (halternative : Lays alternative placements' names₂) :
    Lays (do
      let (code, ids) ← condition
      release ids
      let test ← function ifFunction
      let block ← braced body
      let alternative ← alternative
      return code ++ .call test ids :: block ++ alternative)
      (Statement.bracedPlacements placements ++ placements') (names ++ (names₁ ++ names₂)) := by
  intro d hd
  rw [ends_bind]
  refine (h d hd).imp ?_
  rintro ⟨code, ids⟩ d₁ ⟨hplain, h₁⟩
  rw [ends_bind]
  refine (ignores_release ids d₁ h₁.tidy).imp fun _ d₂ h₂ => ?_
  rw [ends_bind]
  refine (remembers_function ifFunction d₂ h₂.tidy).imp fun test d₃ h₃ => ?_
  have htest : d.Lays (code ++ [.call test ids]) [] names d₃ :=
    lays_of_wires ((h₁.followed h₂).followed (h₃.drop (List.nil_subset _))) hplain rfl
      (by simp [Instruction.arguments])
  rw [ends_bind]
  refine (lays_braced hbody d₃ h₃.tidy).imp fun block d₄ h₄ => ?_
  rw [ends_bind]
  refine (halternative d₄ h₄.tidy).imp fun other d₅ h₅ => ?_
  simpa using htest.append (h₄.append h₅)

mutual

theorem statement_lays (strings : Option StringTable) (s : Statement) :
    Lays (statement strings s) s.placements s.labelRefs := by
  match s with
  | .block body =>
    rw [statement]
    exact lays_braced (statements_lays strings body)
  | .assignment target value =>
    rw [statement]
    exact assignment_lays strings target value
  | .call name arguments =>
    intro d hd
    rw [statement, ends_bind]
    exact (lays_callWith strings name arguments d hd).imp fun _ _ => id
  | .bodyCall name arguments body =>
    intro d hd
    rw [statement]
    by_cases hname : name = ifFunction
    · simp [hname, refuse, anyFailure]
    · simp only [hname, if_false]
      rw [ends_bind]
      refine (lays_callWith strings name arguments d hd).imp ?_
      rintro ⟨code, instruction⟩ d₁ h₁
      rw [ends_bind]
      refine (lays_braced (statements_lays strings body) d₁ h₁.tidy).imp fun block d₂ h₂ => ?_
      rw [Statement.placements, Statement.labelRefs]
      simpa using h₁.append h₂
  | .conditional condition body otherwise =>
    rw [statement]
    exact lays_conditional (chain_refers strings condition) (statements_lays strings body)
      (alternative_lays strings otherwise)
  | .label name =>
    rw [statement]
    exact lays_label name

theorem alternative_lays (strings : Option StringTable) (otherwise : Option (List Statement)) :
    Lays (alternative strings otherwise) (Statement.placementsOption otherwise)
      (Statement.labelRefsOption otherwise) := by
  match otherwise with
  | none => exact fun d hd => lays_nil hd
  | some body =>
    rw [alternative]
    exact lays_second (statements_lays strings body)

/-- The labels in the code of statements are those of the tree. -/
theorem statements_lays (strings : Option StringTable) (tree : List Statement) :
    Lays (statements strings tree) (Statement.placementsList tree)
      (Statement.labelRefsList tree) := by
  match tree with
  | [] => exact fun d hd => lays_nil hd
  | s :: rest =>
    intro d hd
    rw [statements, ends_bind]
    refine (ends_checkNeighbours s rest.head? d).imp ?_
    rintro ⟨⟩ _ ⟨rfl, -⟩
    rw [ends_bind]
    refine (statement_lays strings s _ hd).imp fun code d₁ h₁ => ?_
    rw [ends_bind]
    refine (ends_checkReleased d₁).imp ?_
    rintro ⟨⟩ _ rfl
    rw [ends_bind]
    exact (statements_lays strings rest _ h₁.tidy).imp fun others d₂ h₂ => h₁.append h₂

end

end Compile
end NovelScript
