import NovelScript.Proofs.Script.Symbolic
import NovelScript.Proofs.Steps

/-!
# The compiler emits symbolic code

A step of the compiler only adds elements to a draft (`Draft.Extends`), so what its instructions
spell stays as it is.  `statements_compiles` says of a whole tree that the compiler, if it does not
refuse it, emits instructions that spell `Symbolic.statements`, and that the tree is compilable.

## Shape of the proof

Each function of the compiler has its counterpart in `Symbolic`, and one lemma that ties the two.
The induction follows the tree; the combinators in between (`intoLocal`, `callIntoLocal`, `braced`)
have lemmas about any parts that they may be given.
-/

namespace NovelScript

/-! ## Faces of elements -/

theorem getElem?_of_idxOf? {elements : Array Element} {e : Element} {id : ElementId}
    (h : elements.idxOf? e = some id) : elements[id]? = some e := by
  rw [Array.idxOf?_eq_map_finIdxOf?_val, Option.map_eq_some_iff] at h
  obtain ⟨j, hj, rfl⟩ := h
  simp [Array.finIdxOf?_eq_some_iff] at hj
  simp [hj.1]

/-- What is at a position of a longer table was there, or is the new element behind it. -/
theorem getElem?_push_eq_some {elements : Array Element} {e x : Element} {id : ElementId} :
    (elements.push e)[id]? = some x ↔ elements[id]? = some x ∨ id = elements.size ∧ e = x := by
  rw [Array.getElem?_push]
  split
  · next h => simp [h]
  · next h => simp [h]

theorem faceAt_push {elements : Array Element} (e : Element) {id : ElementId} {face : Element}
    (h : faceAt elements id = some face) : faceAt (elements.push e) id = some face := by
  unfold faceAt at h ⊢
  obtain ⟨x, hx, rfl⟩ := Option.map_eq_some_iff.mp h
  obtain ⟨hlt, -⟩ := Array.getElem?_eq_some_iff.mp hx
  rw [Array.getElem?_push_lt hlt]
  simp_all

@[simp] theorem faceAt_push_size (elements : Array Element) (e : Element) :
    faceAt (elements.push e) elements.size = some e.face := by
  simp [faceAt]

theorem face_linkTo (link : ElementId) (e : Element) : (Compile.linkTo link e).face = e.face := by
  cases e <;> rfl

/-- Linking markers does not change what they say. -/
@[simp] theorem faceAt_modify_linkTo (elements : Array Element) (i link id : ElementId) :
    faceAt (elements.modify i (Compile.linkTo link)) id = faceAt elements id := by
  unfold faceAt
  rw [Array.getElem?_modify]
  split
  · rw [Option.map_map]
    congr 1
    funext e
    exact face_linkTo link e
  · rfl

namespace Draft

/-! ## Drafts -/

/-- Markers that are remembered by name have that name. -/
structure Sound (d : Draft) : Prop where
  operators : ∀ {name id}, (name, id) ∈ d.operators →
    faceAt d.elements id = some (markerFace name)
  labels : ∀ {name id}, (name, id) ∈ d.labels → faceAt d.elements id = some (markerFace name)

/-- A later draft has the elements of an earlier one. -/
structure Extends (d d' : Draft) : Prop where
  sound : d.Sound → d'.Sound
  faces : ∀ {id face}, faceAt d.elements id = some face → faceAt d'.elements id = some face

theorem Extends.refl (d : Draft) : d.Extends d := ⟨id, id⟩

theorem Extends.trans {d d' d'' : Draft} (h : d.Extends d') (h' : d'.Extends d'') :
    d.Extends d'' :=
  ⟨fun hd => h'.sound (h.sound hd), fun hf => h'.faces (h.faces hf)⟩

/-- Adding elements extends a draft. -/
theorem Extends.of_faces {d d' : Draft} (ho : d'.operators = d.operators)
    (hl : d'.labels = d.labels)
    (hf : ∀ {id face}, faceAt d.elements id = some face → faceAt d'.elements id = some face) :
    d.Extends d' :=
  ⟨fun hd => ⟨fun h => hf (hd.operators (ho ▸ h)), fun h => hf (hd.labels (hl ▸ h))⟩, hf⟩

theorem sound_empty : Sound {} := ⟨by simp, by simp⟩

end Draft

/-- Positions keep their faces in a later draft. -/
theorem Draft.Extends.map_faceAt {d d' : Draft} (h : d.Extends d') {ids : List ElementId}
    {faces : List Element} (hs : ids.map (faceAt d.elements) = faces.map some) :
    ids.map (faceAt d'.elements) = faces.map some := by
  induction ids generalizing faces with
  | nil => simpa using hs
  | cons id ids ih =>
    cases faces with
    | nil => simp at hs
    | cons face faces =>
      simp only [List.map_cons, List.cons.injEq] at hs ⊢
      exact ⟨h.faces hs.1, ih hs.2⟩

/-- What code spells in a draft it spells in a later one. -/
theorem SpellsAll.extend {d d' : Draft} (h : d.Extends d') {code : Code}
    {symbolic : SymbolicCode} (hs : SpellsAll d.elements code symbolic) :
    SpellsAll d'.elements code symbolic := by
  refine hs.imp fun i s hi => ?_
  cases i <;> cases s <;> simp only [Instruction.Spells] at hi ⊢
  · exact ⟨h.faces hi.1, h.map_faceAt hi.2⟩
  · exact h.faces hi
  · exact h.faces hi

/-! ## Elements -/

/-- A step has answered the position of an element, and has taken no register. -/
structure Interned (d : Draft) (id : ElementId) (face : Element) (d' : Draft) : Prop where
  later : d.Extends d'
  face : faceAt d'.elements id = some face
  locals : d'.locals = d.locals

namespace Compile

theorem ends_intern (element : Element) (d : Draft) :
    Ends (intern element) d (fun id d' => Interned d id element.face d') anyFailure := by
  simp only [intern, ends_bind, ends_get]
  split
  · rename_i id hid
    rw [ends_pure]
    exact ⟨.refl d, by simp [faceAt, getElem?_of_idxOf? hid], rfl⟩
  · simp only [ends_bind, ends_set, ends_pure]
    exact ⟨.of_faces rfl rfl (faceAt_push element), faceAt_push_size _ _, rfl⟩

theorem ends_function (name : String) (d : Draft) :
    Ends (function name) d (fun id d' => Interned d id (functionFace name) d') anyFailure :=
  ends_intern (.function name) d

theorem ends_newMarker (name : String) (d : Draft) :
    Ends (newMarker name) d (fun id d' => Interned d id (markerFace name) d'
      ∧ d'.operators = d.operators ∧ d'.labels = d.labels) anyFailure := by
  simp only [newMarker, ends_bind, ends_get, ends_set, ends_pure]
  exact ⟨⟨.of_faces rfl rfl (faceAt_push _), faceAt_push_size _ _, rfl⟩, trivial, trivial⟩

theorem ends_linkPair (a b : ElementId) (d : Draft) :
    Ends (linkPair a b) d (fun _ d' => d.Extends d' ∧ d'.locals = d.locals) anyFailure := by
  rw [linkPair, ends_modify]
  exact ⟨.of_faces rfl rfl (by simp), rfl⟩

/-- A name found in a list of pairs is there. -/
theorem mem_of_lookup {names : List (String × ElementId)} {name : String} {id : ElementId}
    (h : names.lookup name = some id) : (name, id) ∈ names := by
  obtain ⟨_, _, rfl, -⟩ := List.lookup_eq_some_iff.mp h
  simp

theorem ends_operatorMarker (name : String) {d : Draft} (hd : d.Sound) :
    Ends (operatorMarker name) d
      (fun id d' => Interned d id (markerFace name) d' ∧ isOperator name = true) anyFailure := by
  rw [operatorMarker]
  by_cases hop : isOperator name = true
  · simp only [hop, if_true, and_true, ends_bind, ends_get]
    split
    · rename_i id hid
      exact ⟨.refl d, hd.operators (mem_of_lookup hid), rfl⟩
    · rw [ends_bind]
      refine (ends_newMarker name d).imp ?_
      rintro id d₁ ⟨h₁, -, -⟩
      simp only [ends_bind, ends_modify, ends_pure]
      -- the new marker is remembered under its name, which is all that soundness asks
      refine ⟨⟨fun hs => ⟨fun h => ?_, (h₁.later.sound hs).labels⟩, h₁.later.faces⟩, h₁.face,
        h₁.locals⟩
      rcases List.mem_append.mp h with h | h
      · exact (h₁.later.sound hs).operators h
      · obtain ⟨rfl, rfl⟩ := Prod.mk.inj (List.mem_singleton.mp h)
        exact h₁.face
  · simp [hop, refuse, anyFailure]

theorem ends_labelMarker (name : String) {d : Draft} (hd : d.Sound) :
    Ends (labelMarker name) d
      (fun id d' => Interned d id (markerFace name) d' ∧ isLabelName name = true) anyFailure := by
  rw [labelMarker]
  by_cases hlabel : name = blockOpen ∨ name = blockClose ∨ isOperator name = true
  · simp [hlabel, refuse, anyFailure]
  · have hname : isLabelName name = true := by simp_all [isLabelName]
    simp only [hlabel, if_false, hname, and_true, ends_bind, ends_get]
    split
    · rename_i id hid
      exact ⟨.refl d, hd.labels (mem_of_lookup hid), rfl⟩
    · rw [ends_bind]
      refine (ends_newMarker name d).imp ?_
      rintro id d₁ ⟨h₁, -, -⟩
      simp only [ends_bind, ends_modify, ends_pure]
      refine ⟨⟨fun hs => ⟨(h₁.later.sound hs).operators, fun h => ?_⟩, h₁.later.faces⟩, h₁.face,
        h₁.locals⟩
      rcases List.mem_append.mp h with h | h
      · exact (h₁.later.sound hs).labels h
      · obtain ⟨rfl, rfl⟩ := Prod.mk.inj (List.mem_singleton.mp h)
        exact h₁.face

theorem ends_literalText (strings : Option StringTable) (literal : TextLiteral) (d : Draft) :
    Ends (literalText strings literal) d (fun text d' =>
      text = literal.said (strings.getD .empty) ∧ d.Extends d' ∧ d'.locals = d.locals)
      anyFailure := by
  cases literal with
  | plain text => exact ⟨rfl, .refl d, rfl⟩
  | external key =>
    cases strings with
    | none => trivial
    | some table =>
      rw [literalText]
      cases hkey : table.get? key with
      | some text => exact ⟨by simp [TextLiteral.said, hkey], .refl d, rfl⟩
      | none =>
        refine ⟨by simp [TextLiteral.said, hkey], .of_faces rfl rfl id, rfl⟩

theorem ends_internVariable (pointer : Bool) (which : Variable) (d : Draft) :
    Ends (internVariable pointer which) d (fun id d' =>
      Interned d id (Symbolic.variableFace pointer which) d' ∧ which.Compilable) anyFailure := by
  rw [internVariable]
  cases which with
  | special name =>
    exact (ends_intern _ d).imp fun _ _ h => ⟨h, trivial⟩
  | flag kind id =>
    by_cases hr : kind.inRange id = true
    · by_cases hi : kind.isInt = true
      all_goals
        simp only [variableElement, hr, hi, if_true, Symbolic.variableFace, Bool.false_eq_true,
          if_false]
        exact (ends_intern _ d).imp fun _ _ h => ⟨h, hr⟩
    · simp [variableElement, hr, refuse, anyFailure]

/-- An expression that needs no code is a single element. -/
def IsSimple : Expression → Prop
  | .operation .. | .call .. | .labelRef _ => False
  | _ => True

theorem ends_simple (strings : Option StringTable) {e : Expression} (hs : IsSimple e)
    (d : Draft) :
    Ends (simple strings e) d (fun id d' =>
      Interned d id (Symbolic.simpleFace (strings.getD .empty) e) d' ∧ e.Compilable)
      anyFailure := by
  cases e with
  | integer value | pointer value => exact (ends_intern _ d).imp fun _ _ h => ⟨h, trivial⟩
  | var which => exact ends_internVariable false which d
  | flagPointer kind id => exact ends_internVariable true (.flag kind id) d
  | text literal =>
    rw [simple, ends_bind]
    refine (ends_literalText strings literal d).imp ?_
    rintro _ d₁ ⟨rfl, hlater, hlocals⟩
    refine (ends_intern _ d₁).imp fun id d₂ h => ⟨?_, trivial⟩
    exact ⟨hlater.trans h.later, h.face, h.locals.trans hlocals⟩
  | operation _ _ | call _ _ | labelRef _ => exact hs.elim

theorem ends_targetElement (target : Target) (d : Draft) :
    Ends (targetElement target) d (fun id d' =>
      Interned d id (Symbolic.targetFace target) d' ∧ target.Compilable) anyFailure := by
  cases target with
  | var which => exact ends_internVariable false which d
  | flagPointer kind id => exact ends_internVariable true (.flag kind id) d
  | pointer value => exact (ends_intern _ d).imp fun _ _ h => ⟨h, trivial⟩

/-! ## Registers -/

theorem releaseOne_of_faceAt {elements : Array Element} {id : ElementId} {face : Element}
    (h : faceAt elements id = some face) (pool : LocalPool) :
    releaseOne elements pool id = pool.freeAll (registers [face]) := by
  obtain ⟨e, he, rfl⟩ := Option.map_eq_some_iff.mp h
  rw [releaseOne, he]
  cases e <;> rfl

/-- Releasing elements gives back the registers among their faces. -/
theorem foldl_releaseOne {elements : Array Element} {ids : List ElementId}
    {faces : List Element} (h : ids.map (faceAt elements) = faces.map some) (pool : LocalPool) :
    ids.foldl (releaseOne elements) pool = pool.freeAll (registers faces) := by
  -- the registers come back in the order of the elements
  induction ids generalizing faces pool with
  | nil =>
    obtain rfl : faces = [] := by simpa using h
    rfl
  | cons id ids ih =>
    cases faces with
    | nil => simp at h
    | cons face faces =>
      simp only [List.map_cons, List.cons.injEq] at h
      rw [List.foldl_cons, releaseOne_of_faceAt h.1, ih h.2, registers_cons face faces]
      simp [LocalPool.freeAll]

theorem ends_allocLocal (d : Draft) :
    Ends allocLocal d (fun id d' => d.Extends d'
      ∧ faceAt d'.elements id = some (.localVar d.locals.alloc.1)
      ∧ d'.locals = d.locals.alloc.2) anyFailure := by
  simp only [allocLocal, ends_bind, ends_get, ends_modify]
  refine (ends_intern _ _).imp fun id d' h => ?_
  exact ⟨⟨fun hd => h.later.sound ⟨hd.operators, hd.labels⟩, h.later.faces⟩, h.face, h.locals⟩

/-! ## Emitted code -/

/-- A step has emitted a piece of symbolic code and the elements that its value is read from. -/
structure Emits (d : Draft) (code : Code) (ids : List ElementId) (piece : Piece) (d' : Draft) :
    Prop where
  later : d.Extends d'
  code : SpellsAll d'.elements code piece.code
  faces : ids.map (faceAt d'.elements) = piece.faces.map some
  locals : d'.locals = piece.pool

theorem Emits.append {d d₁ d₂ : Draft} {code more : Code} {ids others : List ElementId}
    {first second : Piece} (h₁ : Emits d code ids first d₁) (h₂ : Emits d₁ more others second d₂) :
    Emits d (code ++ more) (ids ++ others) (first.append second) d₂ where
  later := h₁.later.trans h₂.later
  code := List.rel_append (h₁.code.extend h₂.later) h₂.code
  faces := by simp [Piece.append, h₂.later.map_faceAt h₁.faces, h₂.faces]
  locals := h₂.locals

theorem Emits.of_interned {d d' : Draft} {id : ElementId} {face : Element}
    (h : Interned d id face d') : Emits d [] [id] ⟨[], [face], d.locals⟩ d' where
  later := h.later
  code := .nil
  faces := by simp [h.face]
  locals := h.locals

/-- The step emits the piece that belongs to the registers it starts with, or refuses; where it
does not refuse, `C` holds. -/
def Compiles (step : Compile (Code × List ElementId)) (piece : LocalPool → Piece) (C : Prop) :
    Prop :=
  ∀ d : Draft, d.Sound →
    Ends step d (fun r d' => Emits d r.1 r.2 (piece d.locals) d' ∧ C) anyFailure

/-- The same of a step that answers a single element. -/
def CompilesOne (step : Compile (Code × ElementId)) (piece : LocalPool → Piece) (C : Prop) :
    Prop :=
  ∀ d : Draft, d.Sound →
    Ends step d (fun r d' => Emits d r.1 [r.2] (piece d.locals) d' ∧ C) anyFailure

/-- The step emits the arguments of a call, gives their registers back and answers the call. -/
def CompilesCall (step : Compile (Code × Instruction)) (name : String)
    (piece : LocalPool → Piece) (C : Prop) : Prop :=
  ∀ d : Draft, d.Sound → Ends step d (fun r d' => d.Extends d'
    ∧ SpellsAll d'.elements r.1 (piece d.locals).code
    ∧ r.2.Spells d'.elements (.call (functionFace name) (piece d.locals).faces)
    ∧ d'.locals = (piece d.locals).released ∧ C) anyFailure

variable {piece : LocalPool → Piece} {C : Prop}

theorem Compiles.ofOne {step : Compile (Code × ElementId)} (h : CompilesOne step piece C) :
    Compiles (do let (code, id) ← step; return (code, [id])) piece C := by
  intro d hd
  rw [ends_bind]
  exact (h d hd).imp fun _ _ => id

theorem compiles_intoLocal {value : Compile (Code × List ElementId)}
    (h : Compiles value piece C) :
    CompilesOne (intoLocal value) (fun pool => (piece pool).stored) C := by
  intro d hd
  rw [intoLocal, ends_bind]
  refine (ends_function assignFunction d).imp fun assign d₁ h₁ => ?_
  rw [ends_bind]
  refine (h d₁ (h₁.later.sound hd)).imp ?_
  rintro ⟨code, ids⟩ d₂ ⟨h₂, hC⟩
  rw [h₁.locals] at h₂
  simp only [release, ends_bind, ends_modify, foldl_releaseOne h₂.faces]
  refine (ends_allocLocal _).imp ?_
  rintro register d₃ ⟨h₃, hface, hlocals⟩
  -- the operands are read before the register is taken, which may be one of theirs
  have hreleased : d₂.locals.freeAll (registers (piece d.locals).faces)
      = (piece d.locals).released := by rw [h₂.locals, Piece.released]
  have hlater : d₂.Extends d₃ := ⟨fun hs => h₃.sound ⟨hs.operators, hs.labels⟩, h₃.faces⟩
  rw [hreleased] at hface hlocals
  rw [ends_pure]
  refine ⟨⟨h₁.later.trans (h₂.later.trans hlater), ?_,
    by simpa [Piece.stored, Piece.destination] using hface, hlocals⟩, hC⟩
  refine List.rel_append (h₂.code.extend hlater) (.cons hface (.cons ⟨?_, ?_⟩ .nil))
  · exact hlater.faces (h₂.later.faces h₁.face)
  · exact hlater.map_faceAt h₂.faces

theorem compiles_callWith (name : String) {arguments : Compile (Code × List ElementId)}
    (h : Compiles arguments piece C) :
    CompilesCall (callWith name arguments) name piece (name ≠ assignFunction ∧ C) := by
  intro d hd
  rw [callWith]
  by_cases hname : name = assignFunction
  · simp [hname, refuse, anyFailure]
  · simp only [hname, if_false, ends_bind, ends_pure]
    refine (h d hd).imp ?_
    rintro ⟨code, ids⟩ d₁ ⟨h₁, hC⟩
    simp only [release, ends_modify, foldl_releaseOne h₁.faces]
    refine (ends_function name _).imp fun id d₂ h₂ => ?_
    have hlater : d₁.Extends d₂ := ⟨fun hs => h₂.later.sound ⟨hs.operators, hs.labels⟩,
      h₂.later.faces⟩
    refine ⟨h₁.later.trans hlater, h₁.code.extend hlater, ⟨h₂.face, hlater.map_faceAt h₁.faces⟩,
      ?_, hname, hC⟩
    rw [h₂.locals, Piece.released, h₁.locals]

theorem compiles_callIntoLocal {name : String} {call : Compile (Code × Instruction)}
    (h : CompilesCall call name piece C) :
    CompilesOne (callIntoLocal call) (fun pool => (piece pool).captured name) C := by
  intro d hd
  rw [callIntoLocal, ends_bind]
  refine (ends_function assignFunction d).imp fun assign d₁ h₁ => ?_
  rw [ends_bind]
  refine (h d₁ (h₁.later.sound hd)).imp ?_
  rintro ⟨code, instruction⟩ d₂ ⟨hlater, hcode, hcall, hlocals, hC⟩
  rw [h₁.locals] at hcode hcall hlocals
  rw [ends_bind]
  refine (ends_allocLocal d₂).imp ?_
  rintro register d₃ ⟨h₃, hface, hpool⟩
  rw [hlocals] at hface hpool
  rw [ends_pure]
  refine ⟨⟨h₁.later.trans (hlater.trans h₃), ?_,
    by simpa [Piece.captured, Piece.destination] using hface, hpool⟩, hC⟩
  refine List.rel_append (hcode.extend h₃)
    (.cons hface (.cons ⟨h₃.faces (hlater.faces h₁.face), rfl⟩ ?_))
  exact SpellsAll.extend h₃ (.cons hcall .nil)

/-- What a checked chain is: an operator between each two operands, and one at least. -/
theorem ends_checkChain (operands operators : Nat) (d : Draft) :
    Ends (checkChain operands operators) d (fun _ d' =>
      d' = d ∧ operators ≠ 0 ∧ operands = operators + 1) anyFailure := by
  rw [checkChain]
  by_cases h₀ : operators = 0 <;> by_cases h₁ : operands = operators + 1 <;>
    simp [h₀, h₁, refuse, anyFailure]

theorem Compiles.checked {operands operators : Nat} {step : Compile (Code × List ElementId)}
    (h : operands = operators + 1 → Compiles step piece C) :
    Compiles (do checkChain operands operators; step) piece
      (operators ≠ 0 ∧ operands = operators + 1 ∧ C) := by
  intro d hd
  rw [ends_bind]
  refine (ends_checkChain operands operators d).imp ?_
  rintro ⟨⟩ _ ⟨rfl, h₀, h₁⟩
  exact (h h₁ _ hd).imp fun _ _ hr => ⟨hr.1, h₀, h₁, hr.2⟩

/-! ## Expressions -/

theorem argument_simple (strings : Option StringTable) {e : Expression} (hs : IsSimple e) :
    CompilesOne (argument strings e)
      (fun pool => Symbolic.argument (strings.getD .empty) pool e) e.Compilable := by
  intro d hd
  cases e
  case operation | call | labelRef => exact hs.elim
  all_goals
    rw [argument, ends_bind]
    · exact (ends_simple strings hs d).imp fun id d₁ h => ⟨.of_interned h.1, h.2⟩
    all_goals simp

theorem operand_simple (strings : Option StringTable) {e : Expression} (hs : IsSimple e) :
    Compiles (operand strings e)
      (fun pool => Symbolic.operand (strings.getD .empty) pool e) e.CompilableOperand := by
  intro d hd
  cases e
  case operation | call | labelRef => exact hs.elim
  all_goals
    rw [operand, ends_bind]
    · exact (ends_simple strings hs d).imp fun id d₁ h => ⟨.of_interned h.1, rfl, h.2⟩
    all_goals simp

mutual

theorem argument_compiles (strings : Option StringTable) (e : Expression) :
    CompilesOne (argument strings e)
      (fun pool => Symbolic.argument (strings.getD .empty) pool e) e.Compilable := by
  match e with
  | .labelRef name =>
    intro d hd
    rw [argument, ends_bind]
    exact (ends_labelMarker name hd).imp fun id d₁ h => ⟨.of_interned h.1, h.2⟩
  | .integer _ | .pointer _ | .text _ | .var _ | .flagPointer .. =>
    exact argument_simple strings (by trivial)
  | .operation operands operators =>
    rw [argument]
    intro d hd
    refine (compiles_intoLocal (Compiles.checked fun hlen =>
      operandsOf_compiles strings operands operators hlen) d hd).imp fun r d' h => ⟨h.1, ?_⟩
    simpa [Expression.Compilable, ← and_assoc] using h.2
  | .call name arguments =>
    rw [argument]
    exact compiles_callIntoLocal (compiles_callWith name (argumentsOf_compiles strings arguments))

theorem argumentsOf_compiles (strings : Option StringTable) (arguments : List Expression) :
    Compiles (argumentsOf strings arguments)
      (fun pool => Symbolic.argumentsOf (strings.getD .empty) pool arguments)
      (Expression.CompilableList arguments) := by
  match arguments with
  | [] => exact fun d _ => ⟨⟨.refl d, .nil, rfl, rfl⟩, trivial⟩
  | x :: rest =>
    intro d hd
    rw [argumentsOf, ends_bind]
    refine (argument_compiles strings x d hd).imp ?_
    rintro ⟨code, id⟩ d₁ ⟨h₁, hx⟩
    rw [ends_bind]
    refine (argumentsOf_compiles strings rest d₁ (h₁.later.sound hd)).imp ?_
    rintro ⟨others, ids⟩ d₂ ⟨h₂, hrest⟩
    rw [h₁.locals] at h₂
    exact ⟨h₁.append h₂, hx, hrest⟩

theorem operand_compiles (strings : Option StringTable) (e : Expression) :
    Compiles (operand strings e)
      (fun pool => Symbolic.operand (strings.getD .empty) pool e) e.CompilableOperand := by
  match e with
  | .labelRef name => exact fun d _ => trivial
  | .integer _ | .pointer _ | .text _ | .var _ | .flagPointer .. =>
    exact operand_simple strings (by trivial)
  | .operation operands operators =>
    intro d hd
    rw [operand]
    split
    · rename_i sign hsign
      -- a sign is compiled without its zero
      obtain ⟨x, rfl, rfl, hx⟩ := sign?_eq_some hsign
      rw [ends_bind]
      refine (ends_operatorMarker sign hd).imp ?_
      rintro marker d₁ ⟨h₁, hop⟩
      rw [secondOf, ends_bind]
      refine (argument_compiles strings x d₁ (h₁.later.sound hd)).imp ?_
      rintro ⟨code, id⟩ d₂ ⟨h₂, hcomp⟩
      rw [h₁.locals] at h₂
      rw [ends_pure]
      refine ⟨?_, rfl, by simp, rfl, by simpa using hop, ⟨rfl, trivial⟩, ⟨hx, hcomp⟩, trivial⟩
      simp only [Symbolic.operand, hsign]
      exact ⟨h₁.later.trans h₂.later, h₂.code, by simpa using ⟨h₂.later.faces h₁.face, h₂.faces⟩,
        h₂.locals⟩
    · rename_i hsign
      have h := Compiles.ofOne (compiles_intoLocal (Compiles.checked fun hlen =>
        operandsOf_compiles strings operands operators hlen)) d hd
      refine h.imp fun r d' h => ⟨?_, rfl, ?_⟩
      · simp only [Symbolic.operand, hsign]
        exact h.1
      · simpa [Expression.Compilable, ← and_assoc] using h.2
  | .call name arguments =>
    rw [operand]
    intro d hd
    exact (Compiles.ofOne (compiles_callIntoLocal (compiles_callWith name
      (argumentsOf_compiles strings arguments))) d hd).imp fun r d' h => ⟨h.1, rfl, h.2⟩

theorem operandsOf_compiles (strings : Option StringTable) (operands : List Expression)
    (operators : List String) (hlen : operands.length = operators.length + 1) :
    Compiles (operandsOf strings operands operators)
      (fun pool => Symbolic.operandsOf (strings.getD .empty) pool operands operators)
      ((∀ name ∈ operators, isOperator name = true) ∧ Expression.CompilableOperands operands) := by
  match operands with
  | x :: rest =>
    intro d hd
    rw [operandsOf, ends_bind]
    refine (operand_compiles strings x d hd).imp ?_
    rintro ⟨code, ids⟩ d₁ ⟨h₁, hx⟩
    rw [ends_bind]
    refine (laterOperandsOf_compiles strings rest operators (by simpa using hlen) d₁
      (h₁.later.sound hd)).imp ?_
    rintro ⟨others, more⟩ d₂ ⟨h₂, hops, hrest⟩
    rw [h₁.locals] at h₂
    exact ⟨h₁.append h₂, hops, hx, hrest⟩

theorem laterOperandsOf_compiles (strings : Option StringTable) (operands : List Expression)
    (operators : List String) (hlen : operands.length = operators.length) :
    Compiles (laterOperandsOf strings operands operators)
      (fun pool => Symbolic.laterOperandsOf (strings.getD .empty) pool operands operators)
      ((∀ name ∈ operators, isOperator name = true) ∧ Expression.CompilableOperands operands) := by
  match operands, operators with
  | [], [] => exact fun d _ => ⟨⟨.refl d, .nil, rfl, rfl⟩, by simp, trivial⟩
  | x :: rest, operator :: operators =>
    intro d hd
    rw [laterOperandsOf, ends_bind]
    refine (ends_operatorMarker operator hd).imp ?_
    rintro marker d₁ ⟨h₁, hop⟩
    rw [ends_bind]
    refine (operand_compiles strings x d₁ (h₁.later.sound hd)).imp ?_
    rintro ⟨code, ids⟩ d₂ ⟨h₂, hx⟩
    rw [ends_bind]
    refine (laterOperandsOf_compiles strings rest operators (by simpa using hlen) d₂
      (h₂.later.sound (h₁.later.sound hd))).imp ?_
    rintro ⟨others, more⟩ d₃ ⟨h₃, hops, hrest⟩
    rw [h₁.locals] at h₂
    rw [h₂.locals] at h₃
    have h := h₂.append h₃
    refine ⟨⟨h₁.later.trans h.later, h.code, ?_, h.locals⟩, by simpa using ⟨hop, hops⟩, hx, hrest⟩
    simpa [Symbolic.laterOperandsOf] using ⟨h.later.faces h₁.face, by simpa using h.faces⟩

end

theorem chain_compiles (strings : Option StringTable) (e : Expression) :
    Compiles (chain strings e)
      (fun pool => Symbolic.chain (strings.getD .empty) pool e) e.CompilableOperand := by
  unfold chain
  split
  · rename_i operands operators
    intro d hd
    refine (Compiles.checked (fun hlen => operandsOf_compiles strings operands operators hlen)
      d hd).imp fun r d' h => ⟨h.1, rfl, ?_⟩
    simpa [Expression.Compilable, ← and_assoc] using h.2
  · rename_i hne
    intro d hd
    have hchain : Symbolic.chain (strings.getD .empty) d.locals e
        = Symbolic.operand (strings.getD .empty) d.locals e := by
      rw [Symbolic.chain]
      exact hne
    simp only [hchain]
    exact operand_compiles strings e d hd

/-! ## Statements -/

/-- The step emits code for a statement or refuses; where it does not refuse, `C` holds. -/
def CompilesCode (step : Compile Code) (code : LocalPool → SymbolicCode × LocalPool) (C : Prop) :
    Prop :=
  ∀ d : Draft, d.Sound → Ends step d (fun r d' => d.Extends d'
    ∧ SpellsAll d'.elements r (code d.locals).1 ∧ d'.locals = (code d.locals).2 ∧ C) anyFailure

theorem compilesCode_captured (target : Target) {name : String}
    {call : Compile (Code × Instruction)} (h : CompilesCall call name piece C) :
    CompilesCode (do
      let target ← targetElement target
      let assign ← function assignFunction
      let (code, instruction) ← call
      return code ++ [.target target, .call assign [], instruction])
      (fun pool => ((piece pool).code ++ [.target (Symbolic.targetFace target),
        .call (functionFace assignFunction) [],
        .call (functionFace name) (piece pool).faces], (piece pool).released))
      (target.Compilable ∧ C) := by
  intro d hd
  rw [ends_bind]
  refine (ends_targetElement target d).imp ?_
  rintro id d₁ ⟨h₁, htarget⟩
  rw [ends_bind]
  refine (ends_function assignFunction d₁).imp fun assign d₂ h₂ => ?_
  rw [ends_bind]
  refine (h d₂ (h₂.later.sound (h₁.later.sound hd))).imp ?_
  rintro ⟨code, instruction⟩ d₃ ⟨h₃, hcode, hcall, hlocals, hC⟩
  rw [h₂.locals, h₁.locals] at hcode hcall hlocals
  refine ⟨h₁.later.trans (h₂.later.trans h₃), ?_, hlocals, htarget, hC⟩
  refine List.rel_append hcode (.cons ?_ (.cons ⟨h₃.faces h₂.face, rfl⟩ (.cons hcall .nil)))
  exact h₃.faces (h₂.later.faces h₁.face)

theorem compilesCode_assigned (target : Target) {value : Compile (Code × List ElementId)}
    (h : Compiles value piece C) :
    CompilesCode (do
      let target ← targetElement target
      let assign ← function assignFunction
      let (code, ids) ← value
      release ids
      return code ++ [.target target, .call assign ids])
      (fun pool => ((piece pool).code ++ [.target (Symbolic.targetFace target),
        .call (functionFace assignFunction) (piece pool).faces], (piece pool).released))
      (target.Compilable ∧ C) := by
  intro d hd
  rw [ends_bind]
  refine (ends_targetElement target d).imp ?_
  rintro id d₁ ⟨h₁, htarget⟩
  rw [ends_bind]
  refine (ends_function assignFunction d₁).imp fun assign d₂ h₂ => ?_
  rw [ends_bind]
  refine (h d₂ (h₂.later.sound (h₁.later.sound hd))).imp ?_
  rintro ⟨code, ids⟩ d₃ ⟨h₃, hC⟩
  rw [h₂.locals, h₁.locals] at h₃
  simp only [release, ends_bind, ends_modify, ends_pure, foldl_releaseOne h₃.faces, h₃.locals]
  refine ⟨?_, ?_, rfl, htarget, hC⟩
  · have hlater := h₁.later.trans (h₂.later.trans h₃.later)
    exact ⟨fun hs => ⟨(hlater.sound hs).operators, (hlater.sound hs).labels⟩, hlater.faces⟩
  · refine List.rel_append h₃.code (.cons ?_ (.cons ⟨?_, h₃.faces⟩ .nil))
    · exact h₃.later.faces (h₂.later.faces h₁.face)
    · exact h₃.later.faces h₂.face

theorem assignment_compiles (strings : Option StringTable) (target : Target) (e : Expression) :
    CompilesCode (assignment strings target e)
      (fun pool => Symbolic.assignment (strings.getD .empty) pool target e)
      (target.Compilable ∧ e.CompilableOperand) := by
  unfold assignment
  split
  · rename_i name arguments
    intro d hd
    refine (compilesCode_captured target (compiles_callWith name
      (argumentsOf_compiles strings arguments)) d hd).imp fun r d' h => ?_
    exact ⟨h.1, h.2.1, h.2.2.1, h.2.2.2.1, rfl, h.2.2.2.2⟩
  · rename_i hne
    intro d hd
    have hsymbolic : Symbolic.assignment (strings.getD .empty) d.locals target e
        = ((Symbolic.chain (strings.getD .empty) d.locals e).code
            ++ [.target (Symbolic.targetFace target), .call (functionFace assignFunction)
              (Symbolic.chain (strings.getD .empty) d.locals e).faces],
          (Symbolic.chain (strings.getD .empty) d.locals e).released) := by
      rw [Symbolic.assignment]
      exact hne
    simp only [hsymbolic]
    exact compilesCode_assigned target (chain_compiles strings e) d hd

theorem ends_checkNeighbours (s : Statement) (next : Option Statement) (d : Draft) :
    Ends (checkNeighbours s next) d (fun _ d' => d' = d ∧ s.Separate next) anyFailure := by
  unfold checkNeighbours
  split
  · trivial
  · split
    · trivial
    · rename_i h
      exact ⟨rfl, h⟩
  · rename_i h₁ h₂
    refine ⟨rfl, ?_⟩
    -- the two refusals are the two ways in which statements run together
    unfold Statement.Separate
    split
    · exact h₁ _ _ _ rfl rfl
    · exact absurd rfl (h₂ _ _ _ rfl)
    · trivial

theorem ends_checkReleased (d : Draft) :
    Ends checkReleased d (fun _ d' => d' = d) anyFailure := by
  simp only [checkReleased, ends_bind, ends_get]
  split <;> simp [anyFailure]

theorem braced_compiles {body : Compile Code} {code : LocalPool → SymbolicCode × LocalPool}
    (h : CompilesCode body code C) :
    CompilesCode (braced body) (fun pool => Symbolic.braced (code pool)) C := by
  intro d hd
  rw [braced, ends_bind]
  refine (ends_newMarker blockOpen d).imp ?_
  rintro opening d₁ ⟨h₁, -⟩
  rw [ends_bind]
  refine (ends_newMarker blockClose d₁).imp ?_
  rintro closing d₂ ⟨h₂, -⟩
  rw [ends_bind]
  refine (ends_linkPair opening closing d₂).imp ?_
  rintro ⟨⟩ d₃ ⟨h₃, hlocals⟩
  have hlater := h₁.later.trans (h₂.later.trans h₃)
  rw [ends_bind]
  refine (h d₃ (hlater.sound hd)).imp ?_
  rintro code d₄ ⟨h₄, hcode, hpool, hC⟩
  rw [hlocals, h₂.locals, h₁.locals] at hcode hpool
  refine ⟨hlater.trans h₄, .cons ?_ (List.rel_append hcode (.cons ?_ .nil)), hpool, hC⟩
  · exact h₄.faces (h₃.faces (h₂.later.faces h₁.face))
  · exact h₄.faces (h₃.faces h₂.face)

/-- A condition, its body and what stands for the other body are emitted one after the other. -/
theorem compilesCode_conditional {condition : Compile (Code × List ElementId)}
    {body alternative : Compile Code} {code code' : LocalPool → SymbolicCode × LocalPool}
    {C₁ C₂ : Prop} (h : Compiles condition piece C) (hbody : CompilesCode body code C₁)
    (halternative : CompilesCode alternative code' C₂) :
    CompilesCode (do
      let (code, ids) ← condition
      release ids
      let test ← function ifFunction
      let block ← braced body
      let alternative ← alternative
      return code ++ .call test ids :: block ++ alternative)
      (fun pool =>
        let block := Symbolic.braced (code (piece pool).released)
        let other := code' block.2
        ((piece pool).code ++ .call (functionFace ifFunction) (piece pool).faces :: block.1
          ++ other.1, other.2))
      (C ∧ C₁ ∧ C₂) := by
  intro d hd
  rw [ends_bind]
  refine (h d hd).imp ?_
  rintro ⟨tested, ids⟩ d₁ ⟨h₁, hC⟩
  -- the registers of the condition are free before its body is compiled
  simp only [release, ends_bind, ends_modify, ends_pure, foldl_releaseOne h₁.faces, h₁.locals]
  refine (ends_function ifFunction _).imp fun test d₂ h₂ => ?_
  have hlater : d₁.Extends d₂ := ⟨fun hs => h₂.later.sound ⟨hs.operators, hs.labels⟩,
    h₂.later.faces⟩
  refine (braced_compiles hbody d₂ (hlater.sound (h₁.later.sound hd))).imp ?_
  rintro block d₃ ⟨h₃, hblock, hpool, hC₁⟩
  rw [h₂.locals] at hblock hpool
  refine (halternative d₃ (h₃.sound (hlater.sound (h₁.later.sound hd)))).imp ?_
  rintro other d₄ ⟨h₄, hother, hlast, hC₂⟩
  rw [hpool] at hother hlast
  refine ⟨h₁.later.trans (hlater.trans (h₃.trans h₄)), ?_, hlast, hC, hC₁, hC₂⟩
  -- each part spells its code in the table in which the last part ends
  have hcondition := h₁.code.extend (hlater.trans (h₃.trans h₄))
  have hcall : SpellsAll d₄.elements [.call test ids]
      [.call (functionFace ifFunction) (piece d.locals).faces] :=
    .cons ⟨(h₃.trans h₄).faces h₂.face,
      (hlater.trans (h₃.trans h₄)).map_faceAt h₁.faces⟩ .nil
  simp only [List.append_assoc, List.cons_append]
  exact List.rel_append hcondition (List.rel_append hcall
    (List.rel_append (hblock.extend h₄) hother))

mutual

theorem statement_compiles (strings : Option StringTable) (s : Statement) :
    CompilesCode (statement strings s)
      (fun pool => Symbolic.statement (strings.getD .empty) pool s) s.Compilable := by
  match s with
  | .block body =>
    rw [statement]
    exact braced_compiles (statements_compiles strings body)
  | .assignment target value =>
    rw [statement]
    exact assignment_compiles strings target value
  | .call name arguments =>
    intro d hd
    rw [statement, ends_bind]
    refine (compiles_callWith name (argumentsOf_compiles strings arguments) d hd).imp ?_
    rintro ⟨code, instruction⟩ d₁ ⟨h₁, hcode, hcall, hlocals, hC⟩
    exact ⟨h₁, List.rel_append hcode (.cons hcall .nil), hlocals, hC⟩
  | .bodyCall name arguments body =>
    intro d hd
    rw [statement]
    by_cases hname : name = ifFunction
    · simp [hname, refuse, anyFailure]
    simp only [hname, if_false, ends_bind, ends_pure]
    refine (compiles_callWith name (argumentsOf_compiles strings arguments) d hd).imp ?_
    rintro ⟨code, instruction⟩ d₁ ⟨h₁, hcode, hcall, hlocals, hC⟩
    refine (braced_compiles (statements_compiles strings body) d₁ (h₁.sound hd)).imp ?_
    rintro block d₂ ⟨h₂, hblock, hpool, hbody⟩
    rw [hlocals] at hblock hpool
    refine ⟨h₁.trans h₂, List.rel_append (hcode.extend h₂) ?_, hpool, hname, hC.1, hC.2, hbody⟩
    exact List.rel_append (SpellsAll.extend h₂ (.cons hcall .nil)) hblock
  | .conditional condition body otherwise =>
    rw [statement]
    exact compilesCode_conditional (chain_compiles strings condition)
      (statements_compiles strings body) (alternative_compiles strings otherwise)
  | .label name =>
    intro d hd
    rw [statement, ends_bind]
    refine (ends_labelMarker name hd).imp ?_
    rintro marker d₁ ⟨h₁, hname⟩
    rw [ends_bind]
    refine (ends_linkPair marker marker d₁).imp ?_
    rintro ⟨⟩ d₂ ⟨h₂, hlocals⟩
    exact ⟨h₁.later.trans h₂, .cons (h₂.faces h₁.face) .nil, hlocals.trans h₁.locals, hname⟩

theorem alternative_compiles (strings : Option StringTable)
    (otherwise : Option (List Statement)) :
    CompilesCode (alternative strings otherwise)
      (fun pool => Symbolic.alternative (strings.getD .empty) pool otherwise)
      (Statement.CompilableOption otherwise) := by
  match otherwise with
  | none => exact fun d _ => ⟨.refl d, .nil, rfl, trivial⟩
  | some body =>
    intro d hd
    rw [alternative, ends_bind]
    refine (ends_newMarker elseLabel d).imp ?_
    rintro marker d₁ ⟨h₁, -⟩
    rw [ends_bind]
    refine (braced_compiles (statements_compiles strings body) d₁ (h₁.later.sound hd)).imp ?_
    rintro block d₂ ⟨h₂, hblock, hpool, hbody⟩
    rw [h₁.locals] at hblock hpool
    exact ⟨h₁.later.trans h₂, .cons (h₂.faces h₁.face) hblock, hpool, hbody⟩

/-- The code of statements spells their symbolic code, and the compiler has refused none. -/
theorem statements_compiles (strings : Option StringTable) (tree : List Statement) :
    CompilesCode (statements strings tree)
      (fun pool => Symbolic.statements (strings.getD .empty) pool tree)
      (Statement.CompilableList tree) := by
  match tree with
  | [] => exact fun d _ => ⟨.refl d, .nil, rfl, trivial⟩
  | s :: rest =>
    intro d hd
    rw [statements, ends_bind]
    refine (ends_checkNeighbours s rest.head? d).imp ?_
    rintro ⟨⟩ _ ⟨rfl, hseparate⟩
    rw [ends_bind]
    refine (statement_compiles strings s _ hd).imp ?_
    rintro code d₁ ⟨h₁, hcode, hpool, hs⟩
    rw [ends_bind]
    refine (ends_checkReleased d₁).imp ?_
    rintro ⟨⟩ _ rfl
    rw [ends_bind]
    refine (statements_compiles strings rest _ (h₁.sound hd)).imp ?_
    rintro others d₂ ⟨h₂, hothers, hlast, hrest⟩
    rw [hpool] at hothers hlast
    exact ⟨h₁.trans h₂, List.rel_append (hcode.extend h₂) hothers, hlast, hseparate, hs, hrest⟩

end

end Compile

/-- A program that the compiler makes of a tree spells the symbolic code of the tree, and has as
many locals as that takes at once. -/
theorem spells_of_compile {strings : Option StringTable} {tree : List Statement}
    {program : Program} (h : (compile strings tree).result = .ok program) :
    SpellsAll program.elements program.instructions
        (Symbolic.statements (strings.getD .empty) {} tree).1
      ∧ program.maxLocals = (Symbolic.statements (strings.getD .empty) {} tree).2.highWater
      ∧ Statement.CompilableList tree := by
  -- the induction over the tree starts in the empty draft
  have hends := Compile.statements_compiles strings tree {} Draft.sound_empty
  unfold compile at h
  rcases hrun : ((Compile.statements strings tree).run.run {} : Except ScriptError Code × Draft)
    with ⟨r, d⟩
  simp only [hrun] at h
  cases r with
  | error e => simp [Except.map] at h
  | ok code =>
    obtain ⟨-, hcode, hpool, htree⟩ := (hends.of_run hrun).1 code rfl
    obtain rfl := Except.ok.inj h
    exact ⟨hcode, by rw [hpool], htree⟩

end NovelScript
