import NovelScript.Proofs.Script.Reading

/-!
# The decompiler reads the code of statements

The code of statements makes those statements, with their texts put back and then moved out as the
rules ask for it (`statements_performs`).  So a program that spells the symbolic code of a tree is
read as that tree, without a warning, or else its blocks are nested too deep (`ends_statements`,
`decompile_moves_of_spells`, `decompile_of_spells`).

A block is one step of the walk that opens it, the code of its body, and one step that closes it and
may go on with an `else`.  A call and a condition look one instruction ahead, hence what follows a
statement must not run into it (`Settles`).
-/

namespace NovelScript
namespace Decompile

variable {rules : Option ExternalizeRules} {program : Program} {st : DecompileState}
  {Q : List Statement → DecompileState → Prop} {E : ScriptError → DecompileState → Prop}
  {at_ : Nat} {frames : List Frame} {current : List Statement} {rest : List Instruction}
  {pool : LocalPool} {held held' : HeldLocals} {table table' : Option StringTable}

/-! ## Steps of the walk -/

/-- The statement that a block becomes when it closes. -/
def finish : Opener → List Statement → Statement
  | .block, body => .block body
  | .call function arguments, body => .bodyCall function arguments body
  | .condition condition, body => .conditional condition body none
  | .otherwise condition body, other => .conditional condition body (some other)

/-- An `else` behind a condition goes on with it. -/
def Finishes (program : Program) (rest : List Instruction) : Opener → Prop
  | .condition _ => labelName? program rest.head? ≠ some elseLabel
  | .block | .call .. | .otherwise .. => True

section

variable {id : ElementId} {name : String} {ids : List ElementId} {faces : List Element}

theorem marker?_of_face (h : faceAt program.elements id = some (markerFace name)) :
    ∃ m, program.marker? id = some m ∧ m.name = name := by
  obtain ⟨m, hget, hm⟩ := getElem?_of_markerFace h
  exact ⟨m, by simp [Program.marker?, hget, Element.marker?], hm⟩

theorem labelName?_of_face (h : faceAt program.elements id = some (markerFace name)) :
    labelName? program (some (.label id)) = some name := by
  obtain ⟨m, hm, rfl⟩ := marker?_of_face h
  simp [labelName?, hm]

/-- Inside `n` blocks there is room for `depth` more, or the failure for want of room is allowed. -/
def Room (E : ScriptError → DecompileState → Prop) (n depth : Nat) : Prop :=
  n + depth ≤ maxBlockDepth
    ∨ ∀ (at_ : Nat) (st : DecompileState), E (.corrupt (.nestedTooDeep maxBlockDepth at_)) st

theorem Room.mono {n depth depth' : Nat} (h : Room E n depth) (hle : depth' ≤ depth) :
    Room E n depth' :=
  h.imp_left (Nat.le_trans (Nat.add_le_add_left hle n))

/-- One block takes its place from those that are open around the others. -/
theorem Room.split {n depth : Nat} (h : Room E n (depth + 1)) : Room E n 1 ∧ Room E (n + 1) depth :=
  ⟨h.mono (Nat.le_add_left 1 depth), h.imp_left (by omega)⟩

theorem ends_push {opener : Opener} {before : List Statement} (hroom : Room E frames.length 1)
    {Q : List Frame → DecompileState → Prop} (hrest : Q (⟨opener, before⟩ :: frames) st) :
    Ends (push at_ opener before frames) st Q E := by
  rw [push]
  split
  · next hfull => exact hroom.elim (fun h => absurd h (by omega)) fun h => h at_ st
  · exact hrest

theorem ends_walk_open (h : faceAt program.elements id = some (markerFace blockOpen))
    (hroom : Room E frames.length 1)
    (hrest : Ends (walk rules program (at_ + 1) (⟨.block, current⟩ :: frames) [] rest) st Q E) :
    Ends (walk rules program at_ frames current (.label id :: rest)) st Q E := by
  obtain ⟨m, hm, hname⟩ := marker?_of_face h
  have hclose : blockOpen ≠ blockClose := by decide
  rw [walk.eq_def]
  simp only [hm, hname, hclose, if_false, if_true, ends_bind]
  exact ends_push hroom hrest

theorem ends_walk_label (h : faceAt program.elements id = some (markerFace name))
    (hname : isLabelName name = true)
    (hrest : Ends (walk rules program (at_ + 1) frames (current ++ [.label name]) rest) st Q E) :
    Ends (walk rules program at_ frames current (.label id :: rest)) st Q E := by
  obtain ⟨m, hm, rfl⟩ := marker?_of_face h
  have hbraces : m.name ≠ blockOpen ∧ m.name ≠ blockClose := by
    simpa using (Bool.and_eq_true_iff.mp hname).1
  rw [walk.eq_def]
  simp only [hm, hbraces.1, hbraces.2, if_false]
  exact hrest

theorem ends_walk_close {opener : Opener} {before : List Statement}
    (h : faceAt program.elements id = some (markerFace blockClose))
    (hopener : Finishes program rest opener)
    (hrest : Ends (walk rules program (at_ + 1) frames (before ++ [finish opener current]) rest)
      st Q E) :
    Ends (walk rules program at_ (⟨opener, before⟩ :: frames) current (.label id :: rest)) st Q
      E := by
  obtain ⟨m, hm, hname⟩ := marker?_of_face h
  rw [walk.eq_def]
  simp only [hm, hname, if_true]
  cases opener with
  | block | call _ _ | otherwise _ _ => exact hrest
  | condition condition =>
    cases rest with
    | nil => exact hrest
    | cons next others =>
      simp only [Finishes, List.head?_cons] at hopener
      simp only [hopener, if_false]
      exact hrest

theorem ends_walk_else {condition : Expression} {before : List Statement} {marker brace : ElementId}
    (h : faceAt program.elements id = some (markerFace blockClose))
    (helse : faceAt program.elements marker = some (markerFace elseLabel))
    (hbrace : faceAt program.elements brace = some (markerFace blockOpen))
    (hroom : Room E frames.length 1)
    (hrest : Ends (walk rules program (at_ + 3) (⟨.otherwise condition current, before⟩ :: frames)
      [] rest) st Q E) :
    Ends (walk rules program at_ (⟨.condition condition, before⟩ :: frames) current
      (.label id :: .label marker :: .label brace :: rest)) st Q E := by
  obtain ⟨m, hm, hname⟩ := marker?_of_face h
  rw [walk.eq_def]
  simp only [hm, hname, if_true, labelName?_of_face helse, labelName?_of_face hbrace, ends_bind]
  exact ends_push hroom hrest

theorem ends_walk_call {xs : List Expression}
    (h : faceAt program.elements id = some (functionFace name)) (hname : name ≠ assignFunction)
    (hids : ids.map (faceAt program.elements) = faces.map some)
    (hx : DenotesAll st.locals faces xs) (hnodup : (registers faces).Nodup)
    (hnext : labelName? program rest.head? ≠ some blockOpen)
    (hrest : Ends (walk rules program (at_ + 1) frames
        (current ++ [.call name (Expression.moveArguments rules name xs st.strings).1]) rest)
      { st with
        locals := st.locals.takeAll (registers faces)
        strings := (Expression.moveArguments rules name xs st.strings).2 } Q E) :
    Ends (walk rules program at_ frames current (.call id ids :: rest)) st Q E := by
  have hread : Ends (arguments rules program name ids) st (fun xs t =>
      Ends (walk rules program (at_ + 1) frames (current ++ [.call name xs]) rest) t Q E) E :=
    (reads_arguments rules hids hx hnodup).ends hrest
  rw [walk.eq_def]
  cases rest with
  | nil =>
    simp only [ends_bind, ends_functionName h, hname, if_false]
    exact hread
  | cons next others =>
    simp only [List.head?_cons] at hnext
    simp only [ends_bind, ends_functionName h, hname, if_false, hnext, ne_eq, not_false_eq_true,
      if_true]
    exact hread

theorem ends_walk_bodyCall {xs : List Expression} {brace : ElementId}
    (h : faceAt program.elements id = some (functionFace name)) (hname : name ≠ assignFunction)
    (hif : name ≠ ifFunction) (hids : ids.map (faceAt program.elements) = faces.map some)
    (hx : DenotesAll st.locals faces xs) (hnodup : (registers faces).Nodup)
    (hbrace : faceAt program.elements brace = some (markerFace blockOpen))
    (hroom : Room E frames.length 1)
    (hrest : Ends (walk rules program (at_ + 2)
        (⟨.call name (Expression.moveArguments rules name xs st.strings).1, current⟩ :: frames) []
        rest)
      { st with
        locals := st.locals.takeAll (registers faces)
        strings := (Expression.moveArguments rules name xs st.strings).2 } Q E) :
    Ends (walk rules program at_ frames current (.call id ids :: .label brace :: rest)) st Q E := by
  rw [walk.eq_def]
  simp only [ends_bind, ends_functionName h, hname, if_false, labelName?_of_face hbrace, hif,
    ne_eq, not_true_eq_false]
  exact (reads_arguments rules hids hx hnodup).ends (ends_push hroom hrest)

theorem ends_walk_if {condition : Expression} {brace : ElementId}
    (h : faceAt program.elements id = some (functionFace ifFunction))
    (hids : ids.map (faceAt program.elements) = faces.map some)
    (hx : DenotesChain st.locals faces condition) (hnodup : (registers faces).Nodup)
    (hbrace : faceAt program.elements brace = some (markerFace blockOpen))
    (hroom : Room E frames.length 1)
    (hrest : Ends (walk rules program (at_ + 2) (⟨.condition condition, current⟩ :: frames) [] rest)
      { st with locals := st.locals.takeAll (registers faces) } Q E) :
    Ends (walk rules program at_ frames current (.call id ids :: .label brace :: rest)) st Q E := by
  have hassign : ifFunction ≠ assignFunction := by decide
  have hne : ids.isEmpty = false := by
    cases ids with
    | nil => exact absurd (by simpa using hids.symm) hx.ne_nil
    | cons _ _ => rfl
  rw [walk.eq_def]
  simp only [ends_bind, ends_functionName h, hassign, if_false, labelName?_of_face hbrace, hne,
    ne_eq, not_true_eq_false, Bool.false_eq_true, if_true]
  exact (reads_chain hids hx hnodup).ends (ends_push hroom hrest)

end

/-! ## Statements -/

/-- What follows belongs neither to a call nor to a condition in front of it. -/
def Closed (program : Program) (rest : List Instruction) : Prop :=
  labelName? program rest.head? ≠ some blockOpen ∧ labelName? program rest.head? ≠ some elseLabel

/-- What follows does not belong to the statement. -/
def Settles (program : Program) (rest : List Instruction) : Statement → Prop
  | .call .. => labelName? program rest.head? ≠ some blockOpen
  | .conditional _ _ none => labelName? program rest.head? ≠ some elseLabel
  | _ => True

/-- There is room for the blocks of a statement, and what follows does not belong to it. -/
def Fits (program : Program) (s : Statement) : Setting := fun E frames rest =>
  Room E frames.length s.depth ∧ Settles program rest s

/-- There is room for the blocks of statements, and what follows belongs to none. -/
def FitsAll (program : Program) (tree : List Statement) : Setting := fun E frames rest =>
  Room E frames.length (Statement.depthList tree) ∧ Closed program rest

theorem closed_of_face {id : ElementId}
    (h : faceAt program.elements id = some (markerFace blockClose)) :
    Closed program (.label id :: rest) := by
  rw [Closed, List.head?_cons, labelName?_of_face h]
  decide

/-- The label in front of instructions is the one in front of the code that they spell. -/
theorem labelName?_append_ne {instructions : List Instruction} {code : SymbolicCode}
    {name : String} (hspell : SpellsAll program.elements instructions code)
    (hrest : labelName? program rest.head? ≠ some name)
    (hcode : Symbolic.leadingLabel? code ≠ some (markerFace name)) :
    labelName? program (instructions ++ rest).head? ≠ some name := by
  cases hspell with
  | nil => exact hrest
  | @cons i s _ _ hi _ =>
    cases i with
    | call _ _ | target _ => simp [labelName?]
    | label id =>
      cases s with
      | call _ _ | target _ => exact hi.elim
      | label face =>
        simp only [List.cons_append, List.head?_cons]
        intro hname
        obtain ⟨m, hm, rfl⟩ := Option.map_eq_some_iff.mp hname
        obtain ⟨e, he, hmarker⟩ := Option.bind_eq_some_iff.mp hm
        have hface : faceAt program.elements id = some (markerFace m.name) := by
          cases e with
          | marker m' =>
            obtain rfl := Option.some.inj hmarker
            simp [faceAt, he, Element.face, markerFace]
          | _ => simp [Element.marker?] at hmarker
        rw [show faceAt program.elements id = some face from hi] at hface
        exact hcode (by rw [Symbolic.leadingLabel?, Option.some.inj hface])

theorem markerFace_injective {a b : String} (h : markerFace a = markerFace b) : a = b := by
  simpa [markerFace] using h

/-- No label of this name comes next if none does behind the code and the first statement opens with
none. -/
theorem labelName?_statements_ne (strings : StringTable) {pool : LocalPool}
    {tree : List Statement} {instructions : List Instruction} {name : String}
    (hspell : SpellsAll program.elements instructions (Symbolic.statements strings pool tree).1)
    (hname : labelName? program rest.head? ≠ some name)
    (hnext : ∀ next, tree.head? = some next →
      Symbolic.openingLabel? next ≠ some (markerFace name)) :
    labelName? program (instructions ++ rest).head? ≠ some name := by
  refine labelName?_append_ne hspell hname ?_
  cases tree with
  | nil =>
    intro hlabel
    cases hlabel
  | cons next later =>
    have hopening : Symbolic.leadingLabel? (Symbolic.statements strings pool (next :: later)).1
        = Symbolic.openingLabel? next := Symbolic.leadingLabel?_statement strings pool next _
    rw [hopening]
    exact hnext next rfl

/-- In front of statements that do not run into it, a statement is settled. -/
theorem settles_of_separate (strings : StringTable) {pool : LocalPool} {s : Statement}
    {tree : List Statement} {instructions : List Instruction} (hs : s.Separate tree.head?)
    (htree : Statement.CompilableList tree)
    (hspell : SpellsAll program.elements instructions (Symbolic.statements strings pool tree).1)
    (hrest : Closed program rest) : Settles program (instructions ++ rest) s := by
  cases s with
  | call function arguments =>
    refine labelName?_statements_ne strings hspell hrest.1 fun next hnext => ?_
    rw [hnext] at hs
    cases next with
    | block body => exact hs.elim
    | label name =>
      -- a brace is no name that a label of the tree may have
      intro hopen
      obtain rfl := markerFace_injective (Option.some.inj hopen)
      obtain ⟨later, rfl⟩ := List.head?_eq_some_iff.mp hnext
      have hlabelName : isLabelName blockOpen = true := htree.2.1
      exact absurd hlabelName (by decide)
    | _ => simp [Symbolic.openingLabel?]
  | conditional condition body otherwise =>
    cases otherwise with
    | some _ => trivial
    | none =>
      refine labelName?_statements_ne strings hspell hrest.2 fun next hnext => ?_
      rw [hnext] at hs
      cases next with
      | block body =>
        intro hopen
        exact absurd (markerFace_injective (Option.some.inj hopen)) (by decide)
      | label name =>
        intro hopen
        exact hs (markerFace_injective (Option.some.inj hopen))
      | _ => simp [Symbolic.openingLabel?]
  | _ => trivial

/-- The code of a body and its closing brace make the statement that the block becomes. -/
theorem Performs.ends_finish {tree made : List Statement} {code : SymbolicCode} {opener : Opener}
    {before : List Statement} {instructions : List Instruction}
    (h : Performs rules program (FitsAll program tree) code held table made held' table')
    (hspell : SpellsAll program.elements instructions
      (code ++ [.label (markerFace blockClose)]))
    (hroom : Room E (frames.length + 1) (Statement.depthList tree))
    (hopener : Finishes program rest opener)
    (hrest : ∀ at', Ends (walk rules program at' frames (before ++ [finish opener made]) rest)
      { st with locals := held', strings := table' } Q E) :
    Ends (walk rules program at_ (⟨opener, before⟩ :: frames) [] (instructions ++ rest))
      { st with locals := held, strings := table } Q E := by
  obtain ⟨body, last, rfl, hbody, hlast⟩ := SpellsAll.append_iff.mp hspell
  obtain ⟨id, _, rfl, hid, hnil⟩ := hlast.of_label
  cases hnil
  rw [List.append_assoc]
  refine h hbody at_ _ [] _ st Q E ⟨hroom, closed_of_face hid⟩ fun at' => ?_
  exact ends_walk_close hid hopener (hrest _)

theorem performs_block {body : List Statement} {code : SymbolicCode × LocalPool}
    {made : List Statement}
    (h : Performs rules program (FitsAll program body) code.1 held table made held' table') :
    Performs rules program (Fits program (.block body)) (Symbolic.braced code).1 held table
      [.block made] held' table' := by
  rintro instructions hspell at_ frames current rest st Q E ⟨hdepth, -⟩ hrest
  obtain ⟨hroom, hbody⟩ := hdepth.split
  obtain ⟨id, inside, rfl, hid, hinside⟩ := hspell.of_label
  exact ends_walk_open hid hroom (h.ends_finish hinside hbody trivial hrest)

theorem performs_call {function : String} {faces : List Element} {xs : List Expression}
    {arguments : List Expression} (hname : function ≠ assignFunction)
    (hx : DenotesAll held faces xs) (hnodup : (registers faces).Nodup) :
    Performs rules program (Fits program (.call function arguments))
      [.call (functionFace function) faces] held table
      [.call function (Expression.moveArguments rules function xs table).1]
      (held.takeAll (registers faces)) (Expression.moveArguments rules function xs table).2 := by
  rintro instructions hspell at_ frames current rest st Q E ⟨-, hnext⟩ hrest
  obtain ⟨id, ids, _, rfl, hid, hids, hnil⟩ := hspell.of_call
  cases hnil
  exact ends_walk_call hid hname hids hx hnodup hnext (hrest _)

theorem performs_bodyCall {function : String} {faces : List Element} {xs : List Expression}
    {arguments : List Expression} {body made : List Statement} {code : SymbolicCode × LocalPool}
    (hname : function ≠ assignFunction) (hif : function ≠ ifFunction)
    (hx : DenotesAll held faces xs) (hnodup : (registers faces).Nodup)
    (h : Performs rules program (FitsAll program body) code.1 (held.takeAll (registers faces))
      (Expression.moveArguments rules function xs table).2 made held' table') :
    Performs rules program (Fits program (.bodyCall function arguments body))
      (.call (functionFace function) faces :: (Symbolic.braced code).1) held table
      [.bodyCall function (Expression.moveArguments rules function xs table).1 made] held'
      table' := by
  rintro instructions hspell at_ frames current rest st Q E ⟨hdepth, -⟩ hrest
  obtain ⟨hroom, hbody⟩ := hdepth.split
  obtain ⟨id, ids, _, rfl, hid, hids, hblock⟩ := hspell.of_call
  obtain ⟨brace, inside, rfl, hbrace, hinside⟩ := hblock.of_label
  exact ends_walk_bodyCall hid hname hif hids hx hnodup hbrace hroom
    (h.ends_finish hinside hbody trivial hrest)

theorem performs_conditional {condition x : Expression} {faces : List Element}
    {body made : List Statement} {code : SymbolicCode × LocalPool}
    (hx : DenotesChain held faces x) (hnodup : (registers faces).Nodup)
    (h : Performs rules program (FitsAll program body) code.1 (held.takeAll (registers faces)) table
      made held' table') :
    Performs rules program (Fits program (.conditional condition body none))
      (.call (functionFace ifFunction) faces :: (Symbolic.braced code).1) held table
      [.conditional x made none] held' table' := by
  rintro instructions hspell at_ frames current rest st Q E ⟨hdepth, hnext⟩ hrest
  rw [Statement.depth, Statement.depthOption, Nat.max_zero] at hdepth
  obtain ⟨hroom, hbody⟩ := hdepth.split
  obtain ⟨id, ids, _, rfl, hid, hids, hblock⟩ := hspell.of_call
  obtain ⟨brace, inside, rfl, hbrace, hinside⟩ := hblock.of_label
  exact ends_walk_if hid hids hx hnodup hbrace hroom (h.ends_finish hinside hbody hnext hrest)

theorem performs_alternative {condition x : Expression} {faces : List Element}
    {body made other made' : List Statement} {code code' : SymbolicCode × LocalPool}
    {held₁ : HeldLocals} {table₁ : Option StringTable} (hx : DenotesChain held faces x)
    (hnodup : (registers faces).Nodup)
    (h : Performs rules program (FitsAll program body) code.1 (held.takeAll (registers faces)) table
      made held₁ table₁)
    (h' : Performs rules program (FitsAll program other) code'.1 held₁ table₁ made' held' table') :
    Performs rules program (Fits program (.conditional condition body (some other)))
      (.call (functionFace ifFunction) faces :: (Symbolic.braced code).1
        ++ .label (markerFace elseLabel) :: (Symbolic.braced code').1) held table
      [.conditional x made (some made')] held' table' := by
  rintro instructions hspell at_ frames current rest st Q E ⟨hdepth, -⟩ hrest
  rw [Statement.depth, Statement.depthOption] at hdepth
  obtain ⟨hroom, hmax⟩ := hdepth.split
  have hbody := hmax.mono (Nat.le_max_left _ _)
  have hother := hmax.mono (Nat.le_max_right _ _)
  simp only [Symbolic.braced, List.cons_append, List.append_assoc, List.nil_append] at hspell
  obtain ⟨id, ids, _, rfl, hid, hids, hblock⟩ := hspell.of_call
  obtain ⟨brace, _, rfl, hbrace, hinside⟩ := hblock.of_label
  obtain ⟨inside, _, rfl, hmade, hlast⟩ := SpellsAll.append_iff.mp hinside
  obtain ⟨close, _, rfl, hclose, hlater⟩ := hlast.of_label
  obtain ⟨marker, _, rfl, hmarker, hblock'⟩ := hlater.of_label
  obtain ⟨brace', inside', rfl, hbrace', hinside'⟩ := hblock'.of_label
  simp only [List.cons_append, List.append_assoc]
  refine ends_walk_if hid hids hx hnodup hbrace hroom ?_
  -- the first body closes into the second, which is closed like any block
  refine h hmade _ _ [] _ st Q E ⟨hbody, closed_of_face hclose⟩ fun at' => ?_
  exact ends_walk_else hclose hmarker hbrace' hroom (h'.ends_finish hinside' hother trivial hrest)

/-- The code of an assignment makes that assignment. -/
theorem assignment_performs (rules : Option ExternalizeRules) (program : Program)
    (strings : StringTable) (pool : LocalPool) (held : HeldLocals) (table : Option StringTable)
    (to_ : Target) (e : Expression) (hto : to_.Compilable) (hc : e.CompilableOperand)
    (h : Covers pool held)
    (hroom : (Symbolic.assignment strings pool to_ e).2.highWater ≤ program.maxLocals) :
    ∃ held', Performs rules program anywhere (Symbolic.assignment strings pool to_ e).1 held table
        [.assignment to_ ((e.resolve strings).moveOut rules table).1] held'
        ((e.resolve strings).moveOut rules table).2
      ∧ Covers (Symbolic.assignment strings pool to_ e).2 held' := by
  unfold Symbolic.assignment at hroom ⊢
  split at hroom
  · rename_i function arguments
    rw [Piece.highWater_released] at hroom
    rw [Expression.resolve, Expression.moveOut]
    obtain ⟨held₁, h₁, hx⟩ := argumentsOf_delivers rules program strings pool held table arguments
      hc.2.2 h hroom
    exact ⟨_, h₁.performs.behind (performs_capture (marker?_targetFace to_) hx
      (Symbolic.argumentsOf_takes strings pool arguments).nodup (stores_target hto _ _)),
      h₁.covers.released⟩
  · rw [Piece.highWater_released] at hroom
    obtain ⟨held₁, h₁, hx⟩ := chain_delivers rules program strings pool held table e hc h hroom
    exact ⟨_, h₁.performs.behind (performs_assign (marker?_targetFace to_) hx
      (Symbolic.chain_takes strings pool e).nodup (stores_target hto _ _)), h₁.covers.released⟩

theorem Performs.weaken {fit fit' : Setting} {code : SymbolicCode} {made : List Statement}
    (h : Performs rules program fit code held table made held' table')
    (hfit : ∀ E frames rest, fit' E frames rest → fit E frames rest) :
    Performs rules program fit' code held table made held' table' :=
  fun _ hspell at_ frames current rest st Q E hf =>
    h hspell at_ frames current rest st Q E (hfit E frames rest hf)

mutual

/-- The code of a statement makes that statement. -/
theorem statement_performs (rules : Option ExternalizeRules) (program : Program)
    (strings : StringTable) (pool : LocalPool) (held : HeldLocals) (table : Option StringTable)
    (s : Statement) (hc : s.Compilable) (h : Covers pool held)
    (hroom : (Symbolic.statement strings pool s).2.highWater ≤ program.maxLocals) :
    ∃ held', Performs rules program (Fits program s) (Symbolic.statement strings pool s).1 held
        table [((s.resolve strings).moveOut rules table).1] held'
        ((s.resolve strings).moveOut rules table).2
      ∧ Covers (Symbolic.statement strings pool s).2 held' := by
  match s with
  | .block body =>
    obtain ⟨held₁, h₁, hcov⟩ := statements_performs rules program strings pool held table body hc h
      hroom
    exact ⟨held₁, performs_block h₁, hcov⟩
  | .assignment to_ value =>
    obtain ⟨held₁, h₁, hcov⟩ := assignment_performs rules program strings pool held table to_ value
      hc.1 hc.2 h hroom
    exact ⟨held₁, h₁.weaken fun _ _ _ _ => trivial, hcov⟩
  | .call function arguments =>
    rw [Symbolic.statement, Piece.highWater_released] at hroom
    obtain ⟨held₁, h₁, hx⟩ := argumentsOf_delivers rules program strings pool held table arguments
      hc.2 h hroom
    exact ⟨_, h₁.performs.behind (performs_call hc.1 hx
      (Symbolic.argumentsOf_takes strings pool arguments).nodup), h₁.covers.released⟩
  | .bodyCall function arguments body =>
    obtain ⟨hif, hname, hargs, hbody⟩ := hc
    have htakes := Symbolic.argumentsOf_takes strings pool arguments
    have hback := Symbolic.statements_returns strings
      (Symbolic.argumentsOf strings pool arguments).released body
    obtain ⟨held₁, h₁, hx⟩ := argumentsOf_delivers rules program strings pool held table arguments
      hargs h (Piece.highWater_released _ ▸ Nat.le_trans hback.highWater hroom)
    obtain ⟨held₂, h₂, hcov⟩ := statements_performs rules program strings _ _ _ body hbody
      h₁.covers.released hroom
    exact ⟨held₂, h₁.performs.behind (performs_bodyCall hname hif hx htakes.nodup h₂), hcov⟩
  | .conditional condition body otherwise =>
    obtain ⟨hcondition, hbody, hotherwise⟩ := hc
    have htakes := Symbolic.chain_takes strings pool condition
    have hback := Symbolic.statements_returns strings
      (Symbolic.chain strings pool condition).released body
    match otherwise with
    | none =>
      obtain ⟨held₁, h₁, hx⟩ := chain_delivers rules program strings pool held table condition
        hcondition h (Piece.highWater_released _ ▸ Nat.le_trans hback.highWater hroom)
      obtain ⟨held₂, h₂, hcov⟩ := statements_performs rules program strings _ _ _ body hbody
        h₁.covers.released hroom
      refine ⟨held₂, ?_, hcov⟩
      rw [Symbolic.statement, Symbolic.alternative, List.append_nil]
      exact h₁.performs.behind (performs_conditional hx htakes.nodup h₂)
    | some other =>
      have hback' := Symbolic.statements_returns strings (Symbolic.statements strings
        (Symbolic.chain strings pool condition).released body).2 other
      have hroom₂ := Nat.le_trans hback'.highWater hroom
      obtain ⟨held₁, h₁, hx⟩ := chain_delivers rules program strings pool held table condition
        hcondition h (Piece.highWater_released _ ▸ Nat.le_trans hback.highWater hroom₂)
      obtain ⟨held₂, h₂, hcov₂⟩ := statements_performs rules program strings _ _ _ body hbody
        h₁.covers.released hroom₂
      obtain ⟨held₃, h₃, hcov⟩ := statements_performs rules program strings _ held₂ _ other
        hotherwise hcov₂ hroom
      refine ⟨held₃, ?_, hcov⟩
      rw [Symbolic.statement, Symbolic.alternative, List.append_assoc]
      exact h₁.performs.behind (performs_alternative hx htakes.nodup h₂ h₃)
  | .label name =>
    refine ⟨held, ?_, h⟩
    rintro instructions hspell at_ frames current rest st Q E - hrest
    obtain ⟨id, _, rfl, hid, hnil⟩ := hspell.of_label
    cases hnil
    exact ends_walk_label hid hc (hrest _)

/-- The code of statements makes those statements. -/
theorem statements_performs (rules : Option ExternalizeRules) (program : Program)
    (strings : StringTable) (pool : LocalPool) (held : HeldLocals) (table : Option StringTable)
    (tree : List Statement) (hc : Statement.CompilableList tree) (h : Covers pool held)
    (hroom : (Symbolic.statements strings pool tree).2.highWater ≤ program.maxLocals) :
    ∃ held', Performs rules program (FitsAll program tree) (Symbolic.statements strings pool tree).1
        held table (Statement.moveOutList rules (Statement.resolveList strings tree) table).1 held'
        (Statement.moveOutList rules (Statement.resolveList strings tree) table).2
      ∧ Covers (Symbolic.statements strings pool tree).2 held' := by
  match tree with
  | [] => exact ⟨held, (performs_nil rules program held table).weaken fun _ _ _ _ => trivial, h⟩
  | s :: rest =>
    obtain ⟨hseparate, hs, hrest⟩ := hc
    have hback := Symbolic.statements_returns strings (Symbolic.statement strings pool s).2 rest
    obtain ⟨held₁, h₁, hcov₁⟩ := statement_performs rules program strings pool held table s hs h
      (Nat.le_trans hback.highWater hroom)
    obtain ⟨held₂, h₂, hcov₂⟩ := statements_performs rules program strings _ held₁
      ((s.resolve strings).moveOut rules table).2 rest hrest hcov₁ hroom
    -- what follows the first statement is the code of the next, or what follows them all
    refine ⟨held₂, h₁.append h₂ ?_ ?_, hcov₂⟩
    · rintro E frames after second ⟨hdepth, hclosed⟩ hspell
      refine ⟨hdepth.mono (Nat.le_max_left _ _), ?_⟩
      exact settles_of_separate strings hseparate hrest hspell hclosed
    · rintro E frames after ⟨hdepth, hclosed⟩
      exact ⟨hdepth.mono (Nat.le_max_right _ _), hclosed⟩

end

/-- A program that spells the symbolic code of a tree, with room for its registers, is read as that
tree without a warning, or fails for want of room for its blocks. -/
theorem ends_statements (program : Program) {strings : StringTable} {tree : List Statement}
    {rules : Option ExternalizeRules} {table : Option StringTable}
    (hrules : rules.isSome → table.isSome)
    (hspell : SpellsAll program.elements program.instructions
      (Symbolic.statements strings {} tree).1)
    (hroom : (Symbolic.statements strings {} tree).2.highWater ≤ program.maxLocals)
    (htree : Statement.CompilableList tree) (hdepth : Room E 0 (Statement.depthList tree)) :
    Ends (statements rules program) { strings := table } (fun made st =>
      made = (Statement.moveOutList rules (Statement.resolveList strings tree) table).1
        ∧ st.strings = (Statement.moveOutList rules (Statement.resolveList strings tree) table).2
        ∧ st.warnings = []) E := by
  have hcov : Covers {} {} := ⟨by simp [HeldLocals.Distinct], by
    rintro r ⟨x, hx⟩
    simp [HeldLocals.get?] at hx⟩
  obtain ⟨held, h, hheld⟩ := statements_performs rules program strings {} {} table tree htree hcov
    hroom
  have hback := Symbolic.statements_returns strings {} tree
  -- all registers have been given back, so no value is left over
  have hnone : held.unused = 0 := by
    refine HeldLocals.unused_eq_zero hheld.distinct fun r hr => ?_
    have htaken := (hback.taken r).mp (hheld.taken r hr)
    simp [LocalPool.Taken] at htaken
  have htable : ¬ (rules.isSome = true ∧ table.isNone = true) := by
    rintro ⟨hsome, hnone⟩
    simp [Option.isNone_iff_eq_none.mp hnone] at hrules
    simp [hrules] at hsome
  generalize Statement.moveOutList rules (Statement.resolveList strings tree) table = moved at h ⊢
  have hwalk := h hspell 0 [] [] [] { strings := table }
    (fun made st => made = moved.1 ∧ st = ⟨held, moved.2, []⟩) E
    ⟨hdepth, by simp [Closed, labelName?]⟩ (fun at' => by simp [walk])
  rw [List.append_nil] at hwalk
  simp only [statements, ends_bind, ends_get, htable, if_false]
  refine Ends.imp hwalk ?_
  rintro _ _ ⟨rfl, rfl⟩
  simp [hnone]

end Decompile

/-- A program that spells the symbolic code of a tree, with room for its registers, is read as that
tree with its texts put back and then moved out as the rules ask for it.  There is no warning. -/
theorem decompile_moves_of_spells (program : Program) {strings : StringTable}
    {tree : List Statement} {rules : Option ExternalizeRules} {table : Option StringTable}
    (hrules : rules.isSome → table.isSome)
    (hspell : SpellsAll program.elements program.instructions
      (Symbolic.statements strings {} tree).1)
    (hroom : (Symbolic.statements strings {} tree).2.highWater ≤ program.maxLocals)
    (htree : Statement.CompilableList tree)
    (hdepth : Statement.depthList tree ≤ maxBlockDepth) :
    decompile rules table program
      = ⟨.ok (Statement.moveOutList rules (Statement.resolveList strings tree) table).1,
        (Statement.moveOutList rules (Statement.resolveList strings tree) table).2, []⟩ := by
  have hdepth' : Decompile.Room noFailure 0 (Statement.depthList tree) := .inl (by omega)
  obtain ⟨made, st, hrun, rfl, hstrings, hwarnings⟩ :=
    (Decompile.ends_statements program hrules hspell hroom htree hdepth').run_eq
  rw [decompile, hrun, ← hstrings, ← hwarnings]

/-- Without rules nothing is moved out. -/
theorem decompile_of_spells (program : Program) {strings : StringTable} {tree : List Statement}
    (table : Option StringTable)
    (hspell : SpellsAll program.elements program.instructions
      (Symbolic.statements strings {} tree).1)
    (hroom : (Symbolic.statements strings {} tree).2.highWater ≤ program.maxLocals)
    (htree : Statement.CompilableList tree)
    (hdepth : Statement.depthList tree ≤ maxBlockDepth) :
    decompile none table program = ⟨.ok (Statement.resolveList strings tree), table, []⟩ := by
  rw [decompile_moves_of_spells program (by simp) hspell hroom htree hdepth,
    Statement.moveOutList_none]

end NovelScript
