import NovelScript.Proofs.Script.Emission

/-!
# The markers of a draft

The compiler makes three kinds of markers.  Operators and labels are made once for each name and
remembered, braces come in pairs that are linked to each other, and the marker in front of the
second body of a conditional is made anew each time (`Draft.Tidy`).  What it emits cites remembered
markers only, and places every brace that it makes once (`Draft.Wires`).

This module has what becomes of a draft when a marker is made or linked.
-/

namespace NovelScript

/-! ## Labels and references -/

namespace Instruction

/-- The marker that the instruction places. -/
def placed? : Instruction → Option ElementId
  | label marker => some marker
  | call .. | target _ => none

/-- The elements that the instruction passes to a function. -/
def arguments : Instruction → List ElementId
  | call _ arguments => arguments
  | label _ | target _ => []

end Instruction

/-- What a label stands for in a tree. -/
inductive Placement where
  | opens
  | closes
  /-- It stands in front of the second body of a conditional. -/
  | alternative
  | declares (name : String)
deriving DecidableEq

/-- Whether a marker of this name opens a block, or closes one. -/
def brace? (name : String) : Option Bool :=
  if name = blockOpen then some true else if name = blockClose then some false else none

/-- Whether a placement opens a block, or closes one. -/
def Placement.brace? : Placement → Option Bool
  | opens => some true
  | closes => some false
  | alternative | declares _ => none

theorem brace?_eq_none {name : String} (h : isLabelName name = true) : brace? name = none := by
  simp only [isLabelName, Bool.and_eq_true, decide_eq_true_eq] at h
  rw [brace?, if_neg h.1.1, if_neg h.1.2]

theorem isOperator_eq_false {name : String} (h : isLabelName name = true) :
    isOperator name = false := by
  simp only [isLabelName, Bool.and_eq_true, Bool.not_eq_true'] at h
  exact h.2

/-- The braces among placements. -/
def braceMarks (marks : List (ElementId × Placement)) : List (ElementId × Option Bool) :=
  marks.map fun mark => (mark.1, mark.2.brace?)

theorem braceMarks_append (marks marks' : List (ElementId × Placement)) :
    braceMarks (marks ++ marks') = braceMarks marks ++ braceMarks marks' := List.map_append

/-- The pairs of braces that belong together among labels, if these are balanced.  The blocks that
are open are on the stack, the last one first. -/
def bracePairs : List ElementId → List (ElementId × Option Bool) →
    Option (List (ElementId × ElementId))
  | [], [] => some []
  | _ :: _, [] => none
  | stack, (id, some true) :: rest => bracePairs (id :: stack) rest
  | [], (_, some false) :: _ => none
  | opening :: stack, (id, some false) :: rest =>
    (bracePairs stack rest).map ((opening, id) :: ·)
  | stack, (_, none) :: rest => bracePairs stack rest

namespace Draft

variable {d d₁ d₂ d' : Draft} {id : ElementId} {name : String}

/-! ## Drafts in order -/

/-- Operators are remembered and not linked; of a label name there is one marker, which is linked to
itself or not at all; and braces are linked to braces. -/
structure Tidy (d : Draft) : Prop where
  operator : ∀ {name id}, (name, id) ∈ d.operators → isOperator name = true
    ∧ ∃ m, d.elements[id]? = some (.marker m) ∧ m.name = name ∧ m.link = none
  remembered : ∀ {id m}, d.elements[id]? = some (.marker m) → isOperator m.name = true →
    (m.name, id) ∈ d.operators
  label : ∀ {name id}, (name, id) ∈ d.labels → isLabelName name = true
    ∧ ∃ m, d.elements[id]? = some (.marker m) ∧ m.name = name
      ∧ (m.link = none ∨ m.link = some id)
  alone : ∀ {name id id'}, (name, id) ∈ d.labels → (name, id') ∈ d.labels → id' = id
  linked : ∀ {id m target}, d.elements[id]? = some (.marker m) → m.link = some target →
    (m.name, id) ∈ d.labels ∨ ∃ m', d.elements[target]? = some (.marker m')
      ∧ (brace? m'.name).isSome = true

theorem tidy_empty : Tidy {} where
  operator := by simp
  remembered := by simp
  label := by simp
  alone := by simp
  linked := by simp

/-- The marker of a name that is remembered as a label. -/
theorem Tidy.name_eq (h : d.Tidy) {m : Marker} (hlabel : (name, id) ∈ d.labels)
    (hm : d.elements[id]? = some (.marker m)) : m.name = name := by
  obtain ⟨-, m', hm', hname, -⟩ := h.label hlabel
  rw [hm] at hm'
  obtain rfl := Element.marker.inj (Option.some.inj hm')
  exact hname

/-- A marker that no label can be named after is not remembered as one. -/
theorem Tidy.not_label (h : d.Tidy) {m : Marker} (hm : d.elements[id]? = some (.marker m))
    (hname : isLabelName m.name = false) (name : String) : (name, id) ∉ d.labels := by
  intro hlabel
  have hlabelName := (h.label hlabel).1
  rw [← h.name_eq hlabel hm, hname] at hlabelName
  cases hlabelName

theorem isLabelName_eq_false_of_brace {name : String} (h : (brace? name).isSome = true) :
    isLabelName name = false := by
  by_contra hname
  rw [brace?_eq_none (by simpa using hname)] at h
  cases h

/-- Elements that are no labels stay as they are, and what is remembered stays remembered. -/
structure Grows (d d' : Draft) : Prop where
  size_le : d.elements.size ≤ d'.elements.size
  element : ∀ {id e}, d.elements[id]? = some e → (∀ name, (name, id) ∉ d.labels) →
    d'.elements[id]? = some e
  operators : ∀ {entry}, entry ∈ d.operators → entry ∈ d'.operators
  labels : ∀ {entry}, entry ∈ d.labels → entry ∈ d'.labels
  fresh : ∀ {name id}, (name, id) ∈ d'.labels → (name, id) ∈ d.labels ∨ d.elements.size ≤ id

theorem Grows.refl (d : Draft) : d.Grows d := ⟨Nat.le_refl _, fun h _ => h, id, id, .inl⟩

theorem lt_size {e : Element} (h : d.elements[id]? = some e) : id < d.elements.size :=
  (Array.getElem?_eq_some_iff.mp h).1

/-- An element that is no label does not become one. -/
theorem Grows.not_label (h : d.Grows d') {e : Element} (he : d.elements[id]? = some e)
    (hnone : ∀ name, (name, id) ∉ d.labels) (name : String) : (name, id) ∉ d'.labels := by
  intro hlabel
  rcases h.fresh hlabel with hold | hsize
  · exact hnone name hold
  · exact absurd (lt_size he) (Nat.not_lt.mpr hsize)

theorem Grows.trans (h : d.Grows d₁) (h' : d₁.Grows d₂) : d.Grows d₂ where
  size_le := Nat.le_trans h.size_le h'.size_le
  element he hnone := h'.element (h.element he hnone) (h.not_label he hnone)
  operators he := h'.operators (h.operators he)
  labels he := h'.labels (h.labels he)
  fresh hlabel := by
    rcases h'.fresh hlabel with hold | hsize
    · exact h.fresh hold
    · exact .inr (Nat.le_trans h.size_le hsize)

/-! ## What stays as it is -/

/-- The element is none of the markers that are placed only. -/
def Cites (d : Draft) (id : ElementId) : Prop :=
  ∃ e, d.elements[id]? = some e
    ∧ ∀ m, e = .marker m → (m.name, id) ∈ d.operators ∨ (m.name, id) ∈ d.labels

/-- The marker is what a placement asks for. -/
def Places (d : Draft) (id : ElementId) : Placement → Prop
  | .opens => ∃ m, d.elements[id]? = some (.marker m) ∧ m.name = blockOpen
  | .closes => ∃ m, d.elements[id]? = some (.marker m) ∧ m.name = blockClose
  | .alternative => (∃ m, d.elements[id]? = some (.marker m) ∧ m.name = elseLabel
      ∧ m.link = none) ∧ ∀ name, (name, id) ∉ d.labels
  | .declares name => (name, id) ∈ d.labels

/-- Two braces are linked to each other. -/
def Joins (d : Draft) (pair : ElementId × ElementId) : Prop :=
  (∃ m, d.elements[pair.1]? = some (.marker m) ∧ m.name = blockOpen ∧ m.link = some pair.2)
    ∧ ∃ m, d.elements[pair.2]? = some (.marker m) ∧ m.name = blockClose ∧ m.link = some pair.1

/-- The label of a name is linked to itself. -/
def LinksLabel (d : Draft) (name : String) : Prop :=
  ∃ id m, (name, id) ∈ d.labels ∧ d.elements[id]? = some (.marker m) ∧ m.link = some id

theorem Tidy.cites (h : d.Tidy) (hlabel : (name, id) ∈ d.labels) : d.Cites id := by
  obtain ⟨-, m, hm, rfl, -⟩ := h.label hlabel
  refine ⟨_, hm, fun m' hm' => ?_⟩
  obtain rfl := Element.marker.inj hm'
  exact .inr hlabel

theorem Cites.grow (h : d.Cites id) (hgrows : d.Grows d') (htidy : d'.Tidy) : d'.Cites id := by
  obtain ⟨e, he, hcited⟩ := h
  by_cases hnone : ∀ name, (name, id) ∉ d.labels
  · refine ⟨e, hgrows.element he hnone, fun m hm => ?_⟩
    exact (hcited m hm).imp hgrows.operators hgrows.labels
  · obtain ⟨name, hlabel⟩ := not_forall_not.mp hnone
    exact htidy.cites (hgrows.labels hlabel)

/-- A marker that no label can be named after stays as it is. -/
theorem Grows.marker (hgrows : d.Grows d') (htidy : d.Tidy) {m : Marker}
    (hm : d.elements[id]? = some (.marker m)) (hname : isLabelName m.name = false) :
    d'.elements[id]? = some (.marker m) :=
  hgrows.element hm (htidy.not_label hm hname)

theorem Places.grow {placement : Placement} (h : d.Places id placement) (hgrows : d.Grows d')
    (htidy : d.Tidy) : d'.Places id placement := by
  cases placement with
  | opens | closes =>
    obtain ⟨m, hm, hname⟩ := h
    exact ⟨m, hgrows.marker htidy hm (by rw [hname]; decide), hname⟩
  | alternative =>
    obtain ⟨⟨m, hm, hname, hlink⟩, hnone⟩ := h
    exact ⟨⟨m, hgrows.element hm hnone, hname, hlink⟩, hgrows.not_label hm hnone⟩
  | declares name => exact hgrows.labels h

theorem Places.lt_size {placement : Placement} (h : d.Places id placement) (htidy : d.Tidy) :
    id < d.elements.size := by
  cases placement with
  | opens | closes =>
    obtain ⟨m, hm, -⟩ := h
    exact Draft.lt_size hm
  | alternative =>
    obtain ⟨⟨m, hm, -⟩, -⟩ := h
    exact Draft.lt_size hm
  | declares name =>
    obtain ⟨-, m, hm, -⟩ := htidy.label h
    exact Draft.lt_size hm

theorem Joins.grow {pair : ElementId × ElementId} (h : d.Joins pair) (hgrows : d.Grows d')
    (htidy : d.Tidy) : d'.Joins pair := by
  obtain ⟨⟨m, hm, hname, hlink⟩, m', hm', hname', hlink'⟩ := h
  exact ⟨⟨m, hgrows.marker htidy hm (by rw [hname]; decide), hname, hlink⟩,
    m', hgrows.marker htidy hm' (by rw [hname']; decide), hname', hlink'⟩

/-! ## What a step does to markers -/

/-- A step cites elements and places markers, for placements of a tree and references to names.
Every brace that it makes it places once, and it links the labels that it declares and no others. -/
structure Wires (d : Draft) (cited : List ElementId) (marks : List (ElementId × Placement))
    (names : List String) (d' : Draft) : Prop where
  grows : d.Grows d'
  tidy : d'.Tidy
  cites : ∀ id ∈ cited, d'.Cites id
  refers : ∀ name ∈ names, ∃ id ∈ cited, (name, id) ∈ d'.labels
  places : ∀ mark ∈ marks, d'.Places mark.1 mark.2
  once : ∀ {id m}, d'.elements[id]? = some (.marker m) → (brace? m.name).isSome = true →
    (marks.map Prod.fst).count id = if id < d.elements.size then 0 else 1
  links : ∀ name, d'.LinksLabel name ↔ d.LinksLabel name ∨ .declares name ∈ marks.map Prod.snd
  joins : ∃ pairs, (∀ pair ∈ pairs, d'.Joins pair) ∧ ∀ stack rest,
    bracePairs stack (braceMarks marks ++ rest) = (bracePairs stack rest).map (pairs ++ ·)

variable {cited cited' : List ElementId} {marks marks' : List (ElementId × Placement)}
  {names names' : List String}

theorem Wires.refl (h : d.Tidy) : d.Wires [] [] [] d where
  grows := .refl d
  tidy := h
  cites := by simp
  refers := by simp
  places := by simp
  once hm _ := by simp [lt_size hm]
  links := by simp
  joins := ⟨[], by simp, by simp [braceMarks]⟩

theorem Wires.append (h : d.Wires cited marks names d₁) (h' : d₁.Wires cited' marks' names' d₂) :
    d.Wires (cited ++ cited') (marks ++ marks') (names ++ names') d₂ where
  grows := h.grows.trans h'.grows
  tidy := h'.tidy
  cites id hid := by
    rcases List.mem_append.mp hid with hid | hid
    · exact (h.cites id hid).grow h'.grows h'.tidy
    · exact h'.cites id hid
  refers name hname := by
    rcases List.mem_append.mp hname with hname | hname
    · obtain ⟨id, hid, hlabel⟩ := h.refers name hname
      exact ⟨id, List.mem_append_left _ hid, h'.grows.labels hlabel⟩
    · obtain ⟨id, hid, hlabel⟩ := h'.refers name hname
      exact ⟨id, List.mem_append_right _ hid, hlabel⟩
  places mark hmark := by
    rcases List.mem_append.mp hmark with hmark | hmark
    · exact (h.places mark hmark).grow h'.grows h.tidy
    · exact h'.places mark hmark
  once {id m} hm hbrace := by
    rw [List.map_append, List.count_append, h'.once hm hbrace]
    by_cases hold : id < d₁.elements.size
    · -- a brace of the first step is the same marker afterwards
      have he := Array.getElem?_eq_getElem hold
      have hnone : ∀ name, (name, id) ∉ d₁.labels := fun name hlabel =>
        h'.tidy.not_label hm (isLabelName_eq_false_of_brace hbrace) name (h'.grows.labels hlabel)
      have hsame := (h'.grows.element he hnone).symm.trans hm
      rw [Option.some.inj hsame] at he
      rw [if_pos hold, h.once he hbrace, Nat.add_zero]
    · have hzero : (marks.map Prod.fst).count id = 0 := by
        refine List.count_eq_zero.mpr fun hmem => ?_
        obtain ⟨mark, hmark, rfl⟩ := List.mem_map.mp hmem
        exact hold ((h.places mark hmark).lt_size h.tidy)
      have hsize : ¬ id < d.elements.size := fun hlt =>
        hold (Nat.lt_of_lt_of_le hlt h.grows.size_le)
      rw [hzero, if_neg hold, if_neg hsize]
  links name := by rw [h'.links, h.links, List.map_append, List.mem_append, or_assoc]
  joins := by
    obtain ⟨pairs, hpairs, hmatch⟩ := h.joins
    obtain ⟨pairs', hpairs', hmatch'⟩ := h'.joins
    refine ⟨pairs ++ pairs', fun pair hpair => ?_, fun stack rest => ?_⟩
    · rcases List.mem_append.mp hpair with hpair | hpair
      · exact (hpairs pair hpair).grow h'.grows h.tidy
      · exact hpairs' pair hpair
    · rw [braceMarks_append, List.append_assoc, hmatch, hmatch', Option.map_map]
      simp only [Function.comp_def, List.append_assoc]

/-- Behind a step that does nothing to markers. -/
theorem Wires.behind (h : d.Wires [] [] [] d₁) (h' : d₁.Wires cited marks names d₂) :
    d.Wires cited marks names d₂ := by
  simpa using h.append h'

/-- In front of a step that does nothing to markers. -/
theorem Wires.followed (h : d.Wires cited marks names d₁) (h' : d₁.Wires [] [] [] d₂) :
    d.Wires cited marks names d₂ := by
  simpa using h.append h'

/-- What is cited besides. -/
theorem Wires.cite (h : d.Wires cited marks names d') (hcites : d'.Cites id) :
    d.Wires (id :: cited) marks names d' :=
  { h with
    cites := List.forall_mem_cons.mpr ⟨hcites, h.cites⟩
    refers := fun name hname =>
      (h.refers name hname).imp fun _ hid => ⟨List.mem_cons_of_mem _ hid.1, hid.2⟩ }

/-- A reference to a label cites it. -/
theorem Wires.refer (h : d.Wires cited marks names d') (hlabel : (name, id) ∈ d'.labels) :
    d.Wires (id :: cited) marks (name :: names) d' :=
  { h.cite (h.tidy.cites hlabel) with
    refers := List.forall_mem_cons.mpr ⟨⟨id, List.mem_cons_self, hlabel⟩,
      (h.cite (h.tidy.cites hlabel)).refers⟩ }

/-- In which order elements are cited does not matter. -/
theorem Wires.reorder (h : d.Wires cited marks names d')
    (hmem : ∀ id, id ∈ cited' ↔ id ∈ cited) : d.Wires cited' marks names d' :=
  { h with
    cites := fun id hid => h.cites id ((hmem id).mp hid)
    refers := fun name hname =>
      (h.refers name hname).imp fun id hid => ⟨(hmem id).mpr hid.1, hid.2⟩ }

/-- An operator that is cited in front of what comes behind it. -/
theorem Wires.marked {code : Code} {ids : List ElementId} (h : d.Wires [id] [] [] d₁)
    (h' : d₁.Wires (code.flatMap Instruction.arguments ++ ids) marks names d₂) :
    d.Wires (code.flatMap Instruction.arguments ++ id :: ids) marks names d₂ := by
  refine (h.append h').reorder fun id' => ?_
  simp only [List.mem_append, List.mem_cons, List.not_mem_nil, or_false]
  tauto

/-- Where no reference counts on it, an element need not be cited. -/
theorem Wires.drop (h : d.Wires cited marks [] d') (hmem : ∀ id ∈ cited', id ∈ cited) :
    d.Wires cited' marks [] d' :=
  { h with
    cites := fun id hid => h.cites id (hmem id hid)
    refers := by simp }

/-- Nothing is known of markers but what is in the table and what is remembered. -/
theorem Wires.of_eq (h : d.Tidy) (helements : d'.elements = d.elements)
    (hoperators : d'.operators = d.operators) (hlabels : d'.labels = d.labels) :
    d.Wires [] [] [] d' := by
  obtain ⟨elements, operators, labels, count, pool, warnings⟩ := d'
  subst helements hoperators hlabels
  obtain ⟨⟩ := d
  exact { Wires.refl h with
    grows := ⟨Nat.le_refl _, fun h _ => h, id, id, .inl⟩
    tidy := ⟨h.operator, h.remembered, h.label, h.alone, h.linked⟩ }

/-! ## A new element -/

/-- An element is new that is no brace; if it is an operator or a label, it may be remembered. -/
structure Pushes (d : Draft) (e : Element) (d' : Draft) : Prop where
  elements : d'.elements = d.elements.push e
  operators : ∀ {name id}, (name, id) ∈ d'.operators ↔ (name, id) ∈ d.operators
    ∨ id = d.elements.size ∧ ∃ m, e = .marker m ∧ m.name = name ∧ isOperator name = true
  labels : ∀ {name id}, (name, id) ∈ d'.labels → (name, id) ∈ d.labels
    ∨ id = d.elements.size ∧ (∃ m, e = .marker m ∧ m.name = name) ∧ isLabelName name = true
      ∧ ∀ id', (name, id') ∉ d.labels
  keeps : ∀ {entry}, entry ∈ d.labels → entry ∈ d'.labels
  unlinked : ∀ m, e = .marker m → m.link = none ∧ brace? m.name = none

namespace Pushes

variable {e : Element}

theorem mem_elements (h : d.Pushes e d') {x : Element} :
    d'.elements[id]? = some x ↔ d.elements[id]? = some x ∨ id = d.elements.size ∧ e = x := by
  rw [h.elements, getElem?_push_eq_some]

theorem grows (h : d.Pushes e d') : d.Grows d' where
  size_le := by simp [h.elements]
  element he _ := h.mem_elements.mpr (.inl he)
  operators he := h.operators.mpr (.inl he)
  labels := h.keeps
  fresh hlabel := (h.labels hlabel).imp_right fun hnew => Nat.le_of_eq hnew.1.symm

theorem tidy (h : d.Pushes e d') (hd : d.Tidy) : d'.Tidy where
  operator {name id} hoperator := by
    rcases h.operators.mp hoperator with hold | ⟨rfl, m, rfl, rfl, hname⟩
    · obtain ⟨hname, m, hm, hrest⟩ := hd.operator hold
      exact ⟨hname, m, h.mem_elements.mpr (.inl hm), hrest⟩
    · exact ⟨hname, m, h.mem_elements.mpr (.inr ⟨rfl, rfl⟩), rfl, (h.unlinked m rfl).1⟩
  remembered {id m} hm hname := by
    rcases h.mem_elements.mp hm with hold | ⟨rfl, rfl⟩
    · exact h.operators.mpr (.inl (hd.remembered hold hname))
    · exact h.operators.mpr (.inr ⟨rfl, m, rfl, rfl, hname⟩)
  label {name id} hlabel := by
    rcases h.labels hlabel with hold | ⟨rfl, ⟨m, rfl, rfl⟩, hname, -⟩
    · obtain ⟨hname, m, hm, hrest⟩ := hd.label hold
      exact ⟨hname, m, h.mem_elements.mpr (.inl hm), hrest⟩
    · exact ⟨hname, m, h.mem_elements.mpr (.inr ⟨rfl, rfl⟩), rfl, .inl (h.unlinked m rfl).1⟩
  alone {name id id'} hlabel hlabel' := by
    rcases h.labels hlabel with hold | ⟨rfl, -, -, hnone⟩ <;>
      rcases h.labels hlabel' with hold' | ⟨rfl, -, -, hnone'⟩
    · exact hd.alone hold hold'
    · exact absurd hold (hnone' id)
    · exact absurd hold' (hnone id')
    · rfl
  linked {id m target} hm hlink := by
    rcases h.mem_elements.mp hm with hold | ⟨rfl, rfl⟩
    · refine (hd.linked hold hlink).imp h.keeps ?_
      rintro ⟨m', hm', hbrace⟩
      exact ⟨m', h.mem_elements.mpr (.inl hm'), hbrace⟩
    · rw [(h.unlinked m rfl).1] at hlink
      cases hlink

/-- A brace is no new element. -/
theorem brace (h : d.Pushes e d') {m : Marker} (hm : d'.elements[id]? = some (.marker m))
    (hbrace : (brace? m.name).isSome = true) : id < d.elements.size := by
  rcases h.mem_elements.mp hm with hold | ⟨-, rfl⟩
  · exact lt_size hold
  · rw [(h.unlinked m rfl).2] at hbrace
    cases hbrace

theorem linksLabel_iff (h : d.Pushes e d') (name : String) :
    d'.LinksLabel name ↔ d.LinksLabel name := by
  constructor
  · rintro ⟨id, m, hlabel, hm, hlink⟩
    rcases h.mem_elements.mp hm with hold | ⟨-, rfl⟩
    · rcases h.labels hlabel with hlabel | ⟨rfl, -⟩
      · exact ⟨id, m, hlabel, hold, hlink⟩
      · exact absurd (lt_size hold) (Nat.lt_irrefl _)
    · rw [(h.unlinked m rfl).1] at hlink
      cases hlink
  · rintro ⟨id, m, hlabel, hm, hlink⟩
    exact ⟨id, m, h.keeps hlabel, h.mem_elements.mpr (.inl hm), hlink⟩

theorem wires (h : d.Pushes e d') (hd : d.Tidy) : d.Wires [] [] [] d' where
  grows := h.grows
  tidy := h.tidy hd
  cites := by simp
  refers := by simp
  places := by simp
  once hm hbrace := by simp [h.brace hm hbrace]
  links name := by simp [h.linksLabel_iff name]
  joins := ⟨[], by simp, by simp [braceMarks]⟩

end Pushes

/-! ## Blocks, alternatives and declared labels -/

/-- The braces of a block are new and linked to each other. -/
def opened (d : Draft) : Draft :=
  { d with
    elements := (d.elements.push
      (.marker ⟨blockOpen, some (d.elements.size + 1), d.markerCount, 0⟩)).push
      (.marker ⟨blockClose, some d.elements.size, d.markerCount + 1, 0⟩)
    markerCount := d.markerCount + 2 }

theorem mem_opened {id : ElementId} {x : Element} :
    d.opened.elements[id]? = some x ↔ d.elements[id]? = some x
      ∨ id = d.elements.size
        ∧ .marker ⟨blockOpen, some (d.elements.size + 1), d.markerCount, 0⟩ = x
      ∨ id = d.elements.size + 1
        ∧ .marker ⟨blockClose, some d.elements.size, d.markerCount + 1, 0⟩ = x := by
  rw [opened, getElem?_push_eq_some, getElem?_push_eq_some, Array.size_push, or_assoc]

theorem elements_opened (d : Draft) :
    (((d.elements.push (.marker ⟨blockOpen, none, d.markerCount, 0⟩)).push
        (.marker ⟨blockClose, none, d.markerCount + 1, 0⟩)).modify d.elements.size
          (Compile.linkTo (d.elements.size + 1))).modify (d.elements.size + 1)
        (Compile.linkTo d.elements.size) = d.opened.elements := by
  refine Array.ext_getElem? fun i => ?_
  simp only [opened, Array.getElem?_modify, Array.getElem?_push, Array.size_push]
  split_ifs <;> first | rfl | omega

theorem grows_opened (d : Draft) : d.Grows d.opened where
  size_le := by
    rw [opened, Array.size_push, Array.size_push]
    exact Nat.le_add_right _ 2
  element he _ := mem_opened.mpr (.inl he)
  operators := id
  labels := id
  fresh := .inl

theorem Tidy.opened (hd : d.Tidy) : d.opened.Tidy where
  operator hoperator := by
    obtain ⟨hname, m, hm, hrest⟩ := hd.operator hoperator
    exact ⟨hname, m, mem_opened.mpr (.inl hm), hrest⟩
  remembered {id m} hm hname := by
    rcases mem_opened.mp hm with hold | ⟨-, hnew⟩ | ⟨-, hnew⟩
    · exact hd.remembered hold hname
    · obtain rfl := Element.marker.inj hnew
      exact absurd hname (show ¬ isOperator blockOpen = true by decide)
    · obtain rfl := Element.marker.inj hnew
      exact absurd hname (show ¬ isOperator blockClose = true by decide)
  label hlabel := by
    obtain ⟨hname, m, hm, hrest⟩ := hd.label hlabel
    exact ⟨hname, m, mem_opened.mpr (.inl hm), hrest⟩
  alone := hd.alone
  linked {id m target} hm hlink := by
    rcases mem_opened.mp hm with hold | ⟨-, hnew⟩ | ⟨-, hnew⟩
    · refine (hd.linked hold hlink).imp_right ?_
      rintro ⟨m', hm', hbrace⟩
      exact ⟨m', mem_opened.mpr (.inl hm'), hbrace⟩
    · obtain rfl := Element.marker.inj hnew
      obtain rfl := Option.some.inj hlink
      exact .inr ⟨_, mem_opened.mpr (.inr (.inr ⟨rfl, rfl⟩)), rfl⟩
    · obtain rfl := Element.marker.inj hnew
      obtain rfl := Option.some.inj hlink
      exact .inr ⟨_, mem_opened.mpr (.inr (.inl ⟨rfl, rfl⟩)), rfl⟩

theorem linksLabel_opened (hd : d.Tidy) (name : String) :
    d.opened.LinksLabel name ↔ d.LinksLabel name := by
  constructor
  · rintro ⟨id, m, hlabel, hm, hlink⟩
    obtain ⟨-, m', hm', -⟩ := hd.label hlabel
    have hsame := (mem_opened.mpr (.inl hm')).symm.trans hm
    obtain rfl := Element.marker.inj (Option.some.inj hsame)
    exact ⟨id, m', hlabel, hm', hlink⟩
  · rintro ⟨id, m, hlabel, hm, hlink⟩
    exact ⟨id, m, hlabel, mem_opened.mpr (.inl hm), hlink⟩

/-- Of three ranges, the first has nothing new, and the braces are the second. -/
theorem count_braced {id n count : Nat} (h : count = if id < n + 2 then 0 else 1) :
    count + (if n = id then 1 else 0) + (if n + 1 = id then 1 else 0)
      = if id < n then 0 else 1 := by
  subst h
  split_ifs <;> omega

/-- A body between its braces. -/
theorem Wires.braced (hd : d.Tidy) (h : d.opened.Wires cited marks names d') :
    d.Wires cited ((d.elements.size, .opens) :: marks ++ [(d.elements.size + 1, .closes)]) names
      d' where
  grows := d.grows_opened.trans h.grows
  tidy := h.tidy
  cites := h.cites
  refers := h.refers
  places := by
    have hopen : d.opened.Places d.elements.size .opens :=
      ⟨_, mem_opened.mpr (.inr (.inl ⟨rfl, rfl⟩)), rfl⟩
    have hclose : d.opened.Places (d.elements.size + 1) .closes :=
      ⟨_, mem_opened.mpr (.inr (.inr ⟨rfl, rfl⟩)), rfl⟩
    intro mark hmark
    rcases List.mem_append.mp hmark with hmark | hmark
    · rcases List.mem_cons.mp hmark with rfl | hmark
      · exact hopen.grow h.grows hd.opened
      · exact h.places mark hmark
    · obtain rfl := List.mem_singleton.mp hmark
      exact hclose.grow h.grows hd.opened
  once {id m} hm hbrace := by
    have hsize : d.opened.elements.size = d.elements.size + 2 := by simp [Draft.opened]
    have hcount := h.once hm hbrace
    rw [hsize] at hcount
    simp only [List.map_append, List.map_cons, List.map_nil, List.count_append, List.count_cons,
      List.count_nil, beq_iff_eq, Nat.zero_add]
    exact count_braced hcount
  links name := by
    rw [h.links, linksLabel_opened hd]
    simp
  joins := by
    obtain ⟨pairs, hpairs, hmatch⟩ := h.joins
    have hjoin : d.opened.Joins (d.elements.size, d.elements.size + 1) :=
      ⟨⟨_, mem_opened.mpr (.inr (.inl ⟨rfl, rfl⟩)), rfl, rfl⟩,
        _, mem_opened.mpr (.inr (.inr ⟨rfl, rfl⟩)), rfl, rfl⟩
    refine ⟨pairs ++ [(d.elements.size, d.elements.size + 1)], ?_, fun stack rest => ?_⟩
    · rw [List.forall_mem_append, List.forall_mem_singleton]
      exact ⟨hpairs, hjoin.grow h.grows hd.opened⟩
    · -- the closing brace finds the opening one on top of the stack
      have hmarks : braceMarks ((d.elements.size, .opens) :: marks
            ++ [(d.elements.size + 1, .closes)]) ++ rest
          = (d.elements.size, some true)
            :: (braceMarks marks ++ ((d.elements.size + 1, some false) :: rest)) := by
        simp [braceMarks, Placement.brace?]
      rw [hmarks, bracePairs, hmatch, bracePairs]
      simp [Function.comp_def]

theorem pushes_alternative (d : Draft) :
    d.Pushes (.marker ⟨elseLabel, none, d.markerCount, 0⟩)
      { d with
        elements := d.elements.push (.marker ⟨elseLabel, none, d.markerCount, 0⟩)
        markerCount := d.markerCount + 1 } where
  elements := rfl
  operators {name id} := by
    refine ⟨.inl, fun hop => hop.resolve_right ?_⟩
    rintro ⟨-, m, hm, rfl, hop⟩
    obtain rfl := Element.marker.inj hm
    exact absurd hop (show ¬ isOperator elseLabel = true by decide)
  labels := .inl
  keeps := id
  unlinked := by
    rintro m hm
    obtain rfl := Element.marker.inj hm
    exact ⟨rfl, show brace? elseLabel = none by decide⟩

/-- The marker in front of a second body is new. -/
theorem wires_alternative (hd : d.Tidy) :
    d.Wires [] [(d.elements.size, .alternative)] []
      { d with
        elements := d.elements.push (.marker ⟨elseLabel, none, d.markerCount, 0⟩)
        markerCount := d.markerCount + 1 } :=
  { d.pushes_alternative.wires hd with
    places := by
      rw [List.forall_mem_singleton]
      refine ⟨⟨_, d.pushes_alternative.mem_elements.mpr (.inr ⟨rfl, rfl⟩), rfl, rfl⟩,
        fun name hlabel => ?_⟩
      obtain ⟨-, m, hm, -⟩ := hd.label hlabel
      exact Nat.lt_irrefl _ (lt_size hm)
    once := fun hm hbrace => by
      have hlt := d.pushes_alternative.brace hm hbrace
      simp [hlt, Nat.ne_of_gt hlt]
    links := fun name => by simp [d.pushes_alternative.linksLabel_iff name]
    joins := ⟨[], by simp, fun stack rest => by
      cases stack <;> simp [braceMarks, Placement.brace?, bracePairs]⟩ }

/-- The draft with a label linked to itself. -/
def declared (d : Draft) (id : ElementId) : Draft :=
  { d with
    elements := (d.elements.modify id (Compile.linkTo id)).modify id (Compile.linkTo id) }

/-- A label that is linked is the same marker but for its link. -/
theorem getElem?_declared {id : ElementId} {m : Marker}
    (hm : d.elements[id]? = some (.marker m)) (other : ElementId) :
    (d.declared id).elements[other]?
      = if id = other then some (.marker { m with link := some id }) else d.elements[other]? := by
  rw [declared, Array.getElem?_modify, Array.getElem?_modify]
  split
  · next h =>
    subst h
    rw [hm]
    rfl
  · rfl

section

variable {id other : ElementId} {m m' : Marker}

/-- Linking a label keeps other markers as they are. -/
theorem marker_of_declared (hm : d.elements[id]? = some (.marker m))
    (hm' : (d.declared id).elements[other]? = some (.marker m')) :
    other ≠ id ∧ d.elements[other]? = some (.marker m')
      ∨ other = id ∧ m' = { m with link := some id } := by
  rw [getElem?_declared hm] at hm'
  split at hm'
  · next h => exact .inr ⟨h.symm, (Element.marker.inj (Option.some.inj hm')).symm⟩
  · next h => exact .inl ⟨Ne.symm h, hm'⟩

/-- Linking a label keeps what markers there are. -/
theorem exists_declared (hm : d.elements[id]? = some (.marker m))
    (hm' : d.elements[other]? = some (.marker m')) :
    ∃ link, (d.declared id).elements[other]? = some (.marker { m' with link })
      ∧ (link = m'.link ∨ link = some other ∧ other = id) := by
  rw [getElem?_declared hm]
  split
  · next h =>
    subst h
    rw [hm] at hm'
    obtain rfl := Element.marker.inj (Option.some.inj hm')
    exact ⟨_, rfl, .inr ⟨rfl, rfl⟩⟩
  · exact ⟨_, hm', .inl rfl⟩

theorem grows_declared (hlabel : (m.name, id) ∈ d.labels)
    (hm : d.elements[id]? = some (.marker m)) : d.Grows (d.declared id) where
  size_le := by simp [declared]
  element {other e} he hnone := by
    rw [getElem?_declared hm, if_neg]
    · exact he
    · rintro rfl
      exact hnone _ hlabel
  operators := fun h => h
  labels := fun h => h
  fresh := .inl

theorem Tidy.declared (hd : d.Tidy) (hlabel : (m.name, id) ∈ d.labels)
    (hm : d.elements[id]? = some (.marker m)) : (d.declared id).Tidy where
  operator {name other} hoperator := by
    obtain ⟨hname, m', hm', rfl, hlink⟩ := hd.operator hoperator
    obtain ⟨link, hkept, rfl | ⟨rfl, rfl⟩⟩ := exists_declared hm hm'
    · exact ⟨hname, _, hkept, rfl, hlink⟩
    · -- no operator is a label
      rw [isOperator_eq_false (hd.name_eq hlabel hm' ▸ (hd.label hlabel).1)] at hname
      cases hname
  remembered hm' hname := by
    rcases marker_of_declared hm hm' with ⟨-, hold⟩ | ⟨rfl, rfl⟩
    · exact hd.remembered hold hname
    · rw [isOperator_eq_false (hd.label hlabel).1] at hname
      cases hname
  label hlabel' := by
    obtain ⟨hname, m', hm', rfl, hlink⟩ := hd.label hlabel'
    obtain ⟨link, hkept, rfl | ⟨rfl, -⟩⟩ := exists_declared hm hm'
    · exact ⟨hname, _, hkept, rfl, hlink⟩
    · exact ⟨hname, _, hkept, rfl, .inr rfl⟩
  alone := hd.alone
  linked hm' hlink := by
    rcases marker_of_declared hm hm' with ⟨-, hold⟩ | ⟨rfl, rfl⟩
    · refine (hd.linked hold hlink).imp_right ?_
      rintro ⟨brace, hbrace, hname⟩
      obtain ⟨link, hkept, -⟩ := exists_declared hm hbrace
      exact ⟨_, hkept, hname⟩
    · exact .inl hlabel

/-- A declared label is linked to itself. -/
theorem wires_declares (hd : d.Tidy) {name : String} (hlabel : (name, id) ∈ d.labels) :
    d.Wires [] [(id, .declares name)] [] (d.declared id) := by
  obtain ⟨hname, m, hm, rfl, -⟩ := hd.label hlabel
  exact {
    grows := grows_declared hlabel hm
    tidy := hd.declared hlabel hm
    cites := by simp
    refers := by simp
    places := by
      rw [List.forall_mem_singleton]
      exact hlabel
    once := fun {other m'} hm' hbrace => by
      rcases marker_of_declared hm hm' with ⟨hne, hold⟩ | ⟨rfl, rfl⟩
      · simp [Ne.symm hne, lt_size hold]
      · rw [brace?_eq_none hname] at hbrace
        cases hbrace
    links := fun name => by
      rw [List.map_singleton, List.mem_singleton, Placement.declares.injEq]
      constructor
      · rintro ⟨other, m', hlabel', hm', hlink⟩
        rcases marker_of_declared hm hm' with ⟨-, hold⟩ | ⟨rfl, -⟩
        · exact .inl ⟨other, m', hlabel', hold, hlink⟩
        · exact .inr (hd.name_eq hlabel' hm).symm
      · rintro (⟨other, m', hlabel', hm', hlink⟩ | rfl)
        · obtain ⟨link, hkept, rfl | ⟨rfl, -⟩⟩ := exists_declared hm hm'
          · exact ⟨other, _, hlabel', hkept, hlink⟩
          · exact ⟨other, _, hlabel', hkept, rfl⟩
        · exact ⟨id, _, hlabel, (getElem?_declared hm id).trans (if_pos rfl), rfl⟩
    joins := ⟨[], by simp, fun stack rest => by
      cases stack <;> simp [braceMarks, Placement.brace?, bracePairs]⟩ }

end

end Draft
end NovelScript
