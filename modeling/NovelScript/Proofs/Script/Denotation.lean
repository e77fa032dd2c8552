import NovelScript.Proofs.Script.Moving
import NovelScript.Proofs.Script.Pieces
import NovelScript.Proofs.Steps

/-!
# What elements stand for

While locals hold values, an element stands for an expression (`Denotes`), a sequence of elements
for arguments (`DenotesAll`) or for a chain (`DenotesChain`).  The decompiler reads what they stand
for, and thereby uses up the registers among them and nothing else.

None of this depends on the locals beyond those registers, so that a value stays what it is while
other locals change.
-/

namespace NovelScript

/-- What an element stands for as an argument. -/
inductive Denotes (held : HeldLocals) : Element → Expression → Prop
  | integer (value : Int32) : Denotes held (.integer ⟨value, false⟩) (.integer value)
  | pointer (value : Int32) : Denotes held (.integer ⟨value, true⟩) (.pointer value)
  | text (text : String) : Denotes held (.text text) (.text (.plain text))
  | special (name : String) : Denotes held (.special name) (.var (.special name))
  | flag {kind : FlagKind} {id : Int32} (h : kind.inRange id = true) :
    Denotes held (Symbolic.variableFace false (.flag kind id)) (.var (.flag kind id))
  | flagPointer {kind : FlagKind} {id : Int32} (h : kind.inRange id = true) :
    Denotes held (Symbolic.variableFace true (.flag kind id)) (.flagPointer kind id)
  | labelRef {name : String} (h : isLabelName name = true) :
    Denotes held (markerFace name) (.labelRef name)
  | held {r : Nat} {x : Expression} (h : held.get? r = some (some x)) (hx : x.isText = false) :
    Denotes held (.localVar r) x

/-- What elements stand for as the arguments of a call. -/
abbrev DenotesAll (held : HeldLocals) : List Element → List Expression → Prop :=
  List.Forall₂ (Denotes held)

/-- What one element, or a sign and one element, stand for as an operand. -/
inductive DenotesOperand (held : HeldLocals) : List Element → Expression → Prop
  | plain {face : Element} {x : Expression} (h : Denotes held face x)
    (hx : face.marker? = none) : DenotesOperand held [face] x
  | signed {sign : String} {face : Element} {x : Expression} (hs : isOperator sign = true)
    (h : Denotes held face x) (hx : face.marker? = none) :
    DenotesOperand held [markerFace sign, face] (.binary (.integer 0) sign x)

/-- What elements behind an operand stand for: further operands, each behind its operator. -/
inductive DenotesLater (held : HeldLocals) :
    List Element → List Expression → List String → Prop
  | nil : DenotesLater held [] [] []
  | cons {name : String} {operand later : List Element} {x : Expression} {xs : List Expression}
    {names : List String} (hname : isOperator name = true) (hx : DenotesOperand held operand x)
    (hrest : DenotesLater held later xs names) :
    DenotesLater held (markerFace name :: operand ++ later) (x :: xs) (name :: names)

/-- What elements stand for as a chain: a single operand for itself. -/
inductive DenotesChain (held : HeldLocals) (faces : List Element) : Expression → Prop
  | single {x : Expression} (h : DenotesOperand held faces x) : DenotesChain held faces x
  | operation {operand later : List Element} {x : Expression} {xs : List Expression}
    {names : List String} (hfaces : faces = operand ++ later) (hx : DenotesOperand held operand x)
    (hrest : DenotesLater held later xs names) (hnames : names ≠ []) :
    DenotesChain held faces (.operation (x :: xs) names)

/-! ## Locals that matter -/

section

variable {held held' : HeldLocals}

/-- Two states of the locals agree on some registers. -/
def Agree (held held' : HeldLocals) (rs : List Nat) : Prop :=
  ∀ r ∈ rs, held'.get? r = held.get? r

theorem Agree.append_iff {rs rs' : List Nat} :
    Agree held held' (rs ++ rs') ↔ Agree held held' rs ∧ Agree held held' rs' := by
  simp only [Agree, List.mem_append, or_imp, forall_and]

theorem Denotes.of_agree {face : Element} {x : Expression} (h : Denotes held face x)
    (ha : Agree held held' (registers [face])) : Denotes held' face x := by
  cases h with
  | integer value => exact .integer value
  | pointer value => exact .pointer value
  | text text => exact .text text
  | special name => exact .special name
  | flag h => exact .flag h
  | flagPointer h => exact .flagPointer h
  | labelRef h => exact .labelRef h
  | held h hx => exact .held ((ha _ (by simp)).trans h) hx

theorem Denotes.eq_of_text {text : String} {x : Expression} (h : Denotes held (.text text) x) :
    x = .text (.plain text) := by
  generalize hface : Element.text text = face at h
  cases h with
  | flag | flagPointer =>
    rw [Symbolic.variableFace] at hface
    split at hface <;> simp at hface
  | text text => rw [Element.text.inj hface]
  | _ => simp [markerFace] at hface

theorem DenotesAll.of_agree {faces : List Element} {xs : List Expression}
    (h : DenotesAll held faces xs) (ha : Agree held held' (registers faces)) :
    DenotesAll held' faces xs := by
  induction h with
  | nil => exact .nil
  | cons h _ ih =>
    rw [registers_cons, Agree.append_iff] at ha
    exact .cons (h.of_agree ha.1) (ih ha.2)

theorem DenotesOperand.of_agree {faces : List Element} {x : Expression}
    (h : DenotesOperand held faces x) (ha : Agree held held' (registers faces)) :
    DenotesOperand held' faces x := by
  cases h with
  | plain h hx => exact .plain (h.of_agree ha) hx
  | signed hs h hx => exact .signed hs (h.of_agree ha) hx

theorem DenotesLater.of_agree {faces : List Element} {xs : List Expression}
    {names : List String} (h : DenotesLater held faces xs names)
    (ha : Agree held held' (registers faces)) : DenotesLater held' faces xs names := by
  induction h with
  | nil => exact .nil
  | cons hname hx _ ih =>
    rw [registers_append, Agree.append_iff] at ha
    exact .cons hname (hx.of_agree ha.1) (ih ha.2)

/-- Reading registers leaves the others as they are. -/
theorem agree_takeAll {rs rs' : List Nat} (h : ∀ r ∈ rs, r ∉ rs') :
    Agree held (held.takeAll rs') rs := by
  intro r hr
  rw [HeldLocals.get?_takeAll, if_neg (h r hr)]

/-- The registers of a part of a chain are read once. -/
theorem DenotesLater.takeAll {faces later : List Element} {xs : List Expression}
    {names : List String} (h : DenotesLater held later xs names)
    (hnodup : (registers (faces ++ later)).Nodup) :
    DenotesLater (held.takeAll (registers faces)) later xs names := by
  rw [registers_append, List.nodup_append] at hnodup
  exact h.of_agree (agree_takeAll fun r hr hr' => hnodup.2.2 r hr' r hr rfl)

theorem DenotesChain.ne_nil {faces : List Element} {x : Expression}
    (h : DenotesChain held faces x) : faces ≠ [] := by
  cases h with
  | single h => cases h <;> simp
  | operation hfaces hx =>
    subst hfaces
    cases hx <;> simp

end

/-! ## Elements of a program -/

section

variable {program : Program} {id : ElementId} {face : Element}

theorem Program.expect_eq_ok_iff {element : Element} :
    program.expect id = .ok element ↔ program.elements[id]? = some element := by
  rw [Program.expect]
  cases program.elements[id]? <;> simp

/-- An element is the same as its face, or both are markers of one name. -/
theorem Element.eq_of_face {e : Element} (h : e.face = face) :
    e = face ∧ face.marker? = none ∨ ∃ m, e = .marker m ∧ face = markerFace m.name := by
  subst h
  cases e with
  | marker m => exact .inr ⟨m, rfl, rfl⟩
  | _ => exact .inl ⟨rfl, rfl⟩

/-- An element that is no marker is found as it is. -/
theorem getElem?_of_faceAt (h : faceAt program.elements id = some face)
    (hface : face.marker? = none) : program.elements[id]? = some face := by
  obtain ⟨e, he, hface'⟩ := Option.map_eq_some_iff.mp h
  rcases Element.eq_of_face hface' with ⟨rfl, -⟩ | ⟨m, -, rfl⟩
  · exact he
  · simp [markerFace, Element.marker?] at hface

/-- A marker is found under its name. -/
theorem getElem?_of_markerFace {name : String}
    (h : faceAt program.elements id = some (markerFace name)) :
    ∃ m, program.elements[id]? = some (.marker m) ∧ m.name = name := by
  obtain ⟨e, he, hface⟩ := Option.map_eq_some_iff.mp h
  rcases Element.eq_of_face hface with ⟨rfl, hm⟩ | ⟨m, rfl, hm⟩
  · simp [markerFace, Element.marker?] at hm
  · refine ⟨m, he, ?_⟩
    have := Element.marker.inj hm
    simp_all

end

namespace Decompile

/-! ## Reading values -/

variable {program : Program} {st : DecompileState}

theorem ends_expect {id : ElementId} {e : Element} (h : program.elements[id]? = some e)
    {Q : Element → DecompileState → Prop} {E : ScriptError → DecompileState → Prop} :
    Ends (expect program id) st Q E ↔ Q e st := by
  simp [expect, Program.expect, h, ends_mk]

/-- The step answers `x`, uses up some registers, leaves this string table and changes nothing
else. -/
def ReadsInto {α : Type} (step : Decompile α) (st : DecompileState) (x : α) (rs : List Nat)
    (table : Option StringTable) : Prop :=
  Ends step st (fun y st' => y = x
    ∧ st' = { st with locals := st.locals.takeAll rs, strings := table }) noFailure

/-- The step answers `x`, uses up some registers and changes nothing else. -/
abbrev Reads {α : Type} (step : Decompile α) (st : DecompileState) (x : α) (rs : List Nat) : Prop :=
  ReadsInto step st x rs st.strings

theorem reads_pure {α : Type} (x : α) : Reads (pure x) st x [] := ⟨rfl, rfl⟩

/-- Behind a step that answers `x` only this answer matters. -/
theorem ReadsInto.ends {α : Type} {step : Decompile α} {x : α} {rs : List Nat}
    {table : Option StringTable} (h : ReadsInto step st x rs table)
    {Q : α → DecompileState → Prop} {E : ScriptError → DecompileState → Prop}
    (hQ : Q x { st with locals := st.locals.takeAll rs, strings := table }) :
    Ends step st Q E := by
  refine (Ends.imp h ?_).of_noFailure
  rintro _ _ ⟨rfl, rfl⟩
  exact hQ

theorem ReadsInto.bind {α β : Type} {step : Decompile α} {next : α → Decompile β} {x : α} {y : β}
    {rs rs' : List Nat} {table table' : Option StringTable} (h : ReadsInto step st x rs table)
    (h' : ReadsInto (next x) { st with locals := st.locals.takeAll rs, strings := table } y rs'
      table') :
    ReadsInto (step >>= next) st y (rs ++ rs') table' := by
  rw [ReadsInto, ends_bind]
  refine h.ends (Ends.imp h' ?_)
  rintro _ _ ⟨rfl, rfl⟩
  simp [HeldLocals.takeAll]

theorem reads_takeLocal {r : Nat} {x : Expression} (h : st.locals.get? r = some (some x)) :
    Reads (takeLocal r) st x [r] := by
  simp only [ReadsInto, takeLocal, ends_bind, ends_get, h, ends_set, ends_pure]
  exact ⟨trivial, rfl⟩

theorem target_variableFace (pointer : Bool) {kind : FlagKind} {id : Int32}
    (h : kind.inRange id = true) :
    target (Symbolic.variableFace pointer (.flag kind id))
      = .ok (if pointer then .flagPointer kind id else .var (.flag kind id)) := by
  cases hi : kind.isInt <;> cases pointer <;>
    simp [Symbolic.variableFace, hi, target, target.flagTarget, h]

theorem value_variableFace {pointer : Bool} {kind : FlagKind} {id : Int32}
    (h : kind.inRange id = true) :
    value (Symbolic.variableFace pointer (.flag kind id))
      = pure (if pointer then .flagPointer kind id else .var (.flag kind id)) := by
  have ht := target_variableFace pointer h
  cases hi : kind.isInt
  all_goals
    simp only [Symbolic.variableFace, hi, Bool.false_eq_true, if_false, if_true] at ht ⊢
    rw [value, ht]
    cases pointer <;> rfl

theorem reads_value {face : Element} {x : Expression} (h : Denotes st.locals face x)
    (hface : face.marker? = none) : Reads (value face) st x (registers [face]) := by
  cases h with
  | integer value | pointer value | text text | special name => exact reads_pure _
  | held h _ => exact reads_takeLocal h
  | labelRef h => simp [markerFace, Element.marker?] at hface
  | flag h | flagPointer h =>
    rw [value_variableFace h, Symbolic.registers_variableFace]
    exact reads_pure _

theorem reads_textArgument (rules : Option ExternalizeRules) (function text : String) :
    ReadsInto (textArgument rules function text) st
      (Expression.moveArgument rules function (.text (.plain text)) st.strings).1 []
      (Expression.moveArgument rules function (.text (.plain text)) st.strings).2 := by
  obtain ⟨locals, strings, warnings⟩ := st
  rw [textArgument, ReadsInto, ends_bind, ends_get]
  rcases rules with _ | rules
  · exact reads_pure _
  rcases strings with _ | strings
  · exact reads_pure _
  by_cases hwants : rules.wants function text = true
  · simp only [Expression.moveArgument, hwants, if_true]
    exact ⟨rfl, rfl⟩
  · simp only [Expression.moveArgument, hwants]
    exact reads_pure _

theorem reads_argument (rules : Option ExternalizeRules) {function : String} {id : ElementId}
    {face : Element} {x : Expression} (hface : faceAt program.elements id = some face)
    (h : Denotes st.locals face x) :
    ReadsInto (argument rules program function id) st
      (Expression.moveArgument rules function x st.strings).1 (registers [face])
      (Expression.moveArgument rules function x st.strings).2 := by
  rw [argument, ReadsInto, ends_bind]
  -- a marker stands for a label, and for nothing else
  by_cases hm : face.marker? = none
  · rw [ends_expect (getElem?_of_faceAt hface hm)]
    split
    · simp [Element.marker?] at hm
    · obtain rfl := h.eq_of_text
      exact reads_textArgument rules function _
    · next htext =>
      -- no local holds a text, so only an element that is one may move
      have hx : x.isText = false := by
        cases h with
        | text text => exact absurd rfl (htext text)
        | held _ hx => exact hx
        | _ => rfl
      rw [Expression.moveArgument_of_not_text function hx]
      exact reads_value h hm
  · cases h with
    | @labelRef name hname =>
      obtain ⟨m, hget, rfl⟩ := getElem?_of_markerFace hface
      rw [ends_expect hget]
      have hop : isOperator m.name = false := by simp_all [isLabelName]
      simp only [hop, Bool.false_eq_true, if_false]
      exact reads_pure _
    | flag h | flagPointer h =>
      rw [Symbolic.variableFace] at hm
      split at hm <;> exact absurd rfl hm
    | _ => exact absurd rfl hm

theorem reads_arguments (rules : Option ExternalizeRules) {function : String}
    {ids : List ElementId} {faces : List Element} {xs : List Expression}
    (hfaces : ids.map (faceAt program.elements) = faces.map some)
    (h : DenotesAll st.locals faces xs) (hnodup : (registers faces).Nodup) :
    ReadsInto (arguments rules program function ids) st
      (Expression.moveArguments rules function xs st.strings).1 (registers faces)
      (Expression.moveArguments rules function xs st.strings).2 := by
  induction faces generalizing ids xs st with
  | nil =>
    cases h
    obtain rfl : ids = [] := by simpa using hfaces
    exact reads_pure _
  | cons face faces ih =>
    obtain ⟨x, xs, hx, hrest, rfl⟩ := List.forall₂_cons_left_iff.mp h
    cases ids with
    | nil => simp at hfaces
    | cons id ids =>
      simp only [List.map_cons, List.cons.injEq] at hfaces
      rw [registers_cons, List.nodup_append] at hnodup
      -- registers are distinct, so reading one argument leaves those of the others
      have hfree : ∀ r ∈ registers faces, r ∉ registers [face] :=
        fun r hr hr' => hnodup.2.2 r hr' r hr rfl
      have hmore := @ih
        { st with
          locals := st.locals.takeAll (registers [face])
          strings := (Expression.moveArgument rules function x st.strings).2 }
        ids xs hfaces.2 (DenotesAll.of_agree hrest (agree_takeAll hfree)) hnodup.2.1
      rw [arguments, registers_cons, ← List.append_nil (registers faces)]
      exact (reads_argument rules hfaces.1 hx).bind (hmore.bind (reads_pure _))

/-! ## Reading chains -/

theorem reads_operand {id : ElementId} {face : Element} {x : Expression}
    (hface : faceAt program.elements id = some face) (h : Denotes st.locals face x)
    (hm : face.marker? = none) : Reads (operand program id) st x (registers [face]) := by
  rw [operand, Reads, ReadsInto, ends_bind, ends_expect (getElem?_of_faceAt hface hm)]
  split
  · simp [Element.marker?] at hm
  · exact reads_value h hm

theorem operator?_eq_none {face : Element} (hm : face.marker? = none) : operator? face = none := by
  cases face with
  | marker m => simp [Element.marker?] at hm
  | _ => rfl

/-- What follows an operand may be read on its own. -/
theorem reads_chainFrom {ids : List ElementId} {faces later : List Element} {x : Expression}
    {chain : List Expression × List String} {rs : List Nat}
    (hfaces : ids.map (faceAt program.elements) = (faces ++ later).map some)
    (hx : DenotesOperand st.locals faces x)
    (hbehind : ∀ rest, rest.map (faceAt program.elements) = later.map some →
      Reads (chainBehind program x rest)
        { st with locals := st.locals.takeAll (registers faces) } chain rs) :
    Reads (chainFrom program ids) st chain (registers faces ++ rs) := by
  cases hx with
  | @plain face x h hm =>
    obtain ⟨id, rest, rfl, hid, hrest⟩ := List.map_eq_cons_iff.mp hfaces
    have hread : Reads (operand program id >>= fun x => chainBehind program x rest) st chain
        (registers [face] ++ rs) := (reads_operand hid h hm).bind (hbehind rest hrest)
    cases rest
    all_goals
      rw [chainFrom, Reads, ReadsInto, ends_bind, ends_expect (getElem?_of_faceAt hid hm),
        operator?_eq_none hm]
      exact hread
  | @signed sign face x hs h hm =>
    obtain ⟨marker, ids, rfl, hmarker, hids⟩ := List.map_eq_cons_iff.mp hfaces
    obtain ⟨id, rest, rfl, hid, hrest⟩ := List.map_eq_cons_iff.mp hids
    obtain ⟨m, hget, rfl⟩ := getElem?_of_markerFace hmarker
    have hop : operator? (.marker m) = some m.name := by rw [operator?, if_pos hs]
    rw [chainFrom, Reads, ReadsInto, ends_bind, ends_expect hget, hop]
    exact (reads_operand hid h hm).bind (hbehind rest hrest)

/-- Operands behind an operand are read up to the end. -/
theorem reads_chainBehind {ids : List ElementId} {faces : List Element} {xs : List Expression}
    {names : List String} (x : Expression)
    (hfaces : ids.map (faceAt program.elements) = faces.map some)
    (h : DenotesLater st.locals faces xs names) (hnodup : (registers faces).Nodup) :
    Reads (chainBehind program x ids) st (x :: xs, names) (registers faces) := by
  -- the induction is on the operands still to come
  induction xs generalizing x ids faces names st with
  | nil =>
    cases h
    obtain rfl : ids = [] := by simpa using hfaces
    rw [chainBehind]
    exact reads_pure _
  | cons y ys ih =>
    cases h with
    | @cons name operand later _ _ names hname hy hrest =>
      obtain ⟨marker, ids, rfl, hmarker, hids⟩ := List.map_eq_cons_iff.mp hfaces
      obtain ⟨m, hget, rfl⟩ := getElem?_of_markerFace hmarker
      have hop : operator? (.marker m) = some m.name := by rw [operator?, if_pos hname]
      have hchain : Reads (chainFrom program ids) st (y :: ys, names)
          (registers operand ++ registers later) :=
        reads_chainFrom hids hy fun rest hmore => ih y hmore (hrest.takeAll hnodup)
          (List.nodup_append.mp (registers_append operand later ▸ hnodup)).2.1
      rw [chainBehind, Reads, ReadsInto, ends_bind, ends_expect hget, hop]
      have h : Reads (chainFrom program ids >>= fun r => pure (x :: r.1, m.name :: r.2)) st
          (x :: y :: ys, m.name :: names) (registers operand ++ registers later ++ []) :=
        hchain.bind (reads_pure _)
      rw [List.append_nil] at h
      rwa [List.cons_append, registers_cons, registers_append]

/-- A chain is read as what it stands for. -/
theorem reads_chain {ids : List ElementId} {faces : List Element} {x : Expression}
    (hfaces : ids.map (faceAt program.elements) = faces.map some)
    (h : DenotesChain st.locals faces x) (hnodup : (registers faces).Nodup) :
    Reads (chain program ids) st x (registers faces) := by
  cases h with
  | single h =>
    have hchain : Reads (chainFrom program ids) st ([x], []) (registers faces ++ []) :=
      reads_chainFrom ((List.append_nil faces).symm ▸ hfaces) h fun rest hrest =>
        reads_chainBehind x hrest .nil List.nodup_nil
    have hlast : registers faces = registers faces ++ [] ++ [] := by simp
    rw [chain, hlast]
    exact hchain.bind (reads_pure x)
  | @operation operand later x xs names hsplit hx hrest hnames =>
    subst hsplit
    have hchain : Reads (chainFrom program ids) st (x :: xs, names)
        (registers operand ++ registers later) :=
      reads_chainFrom hfaces hx fun rest hmore => reads_chainBehind x hmore (hrest.takeAll hnodup)
        (List.nodup_append.mp (registers_append operand later ▸ hnodup)).2.1
    rw [chain, registers_append, ← List.append_nil (_ ++ _)]
    -- an operator is left, so the chain is no single operand
    refine hchain.bind ?_
    split
    · rename_i hsingle
      exact absurd (Prod.mk.inj hsingle).2 hnames
    · rename_i hsplit
      obtain ⟨rfl, rfl⟩ := Prod.mk.inj hsplit
      exact reads_pure _

end Decompile
end NovelScript
