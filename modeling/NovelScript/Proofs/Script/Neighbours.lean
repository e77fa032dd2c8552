import NovelScript.Proofs.Script.CallOrder

/-!
# Which statements are neighbours in a decompiled tree

The code of two statements next to each other must not read as one statement: a call takes the block
behind it as its own, and a conditional the `else` behind it.  The compiler refuses trees with such
neighbours, so a tree that it takes has none (`Statement.CompilableList.apart`).

The decompiler makes them in one way only.  An assignment to a local makes no statement, so what
stands on both sides of it in the code stands together in the tree.  Where no such assignment is in
front of a block or of a label `else`, all statements are apart (`apart_of_decompile`).
-/

namespace NovelScript

/-! ## Apart -/

namespace Statement

mutual

/-- Inside the statement, no statement runs into the next. -/
def Apart : Statement → Prop
  | block body => ApartList body
  | bodyCall _ _ body => ApartList body
  | conditional _ body otherwise => ApartList body ∧ ApartOption otherwise
  | assignment .. | call .. | label _ => True

/-- No statement runs into the next. -/
def ApartList : List Statement → Prop
  | [] => True
  | s :: rest => s.Separate rest.head? ∧ Apart s ∧ ApartList rest

/-- In the alternative, no statement runs into the next. -/
def ApartOption : Option (List Statement) → Prop
  | none => True
  | some body => ApartList body

end

mutual

theorem Compilable.apart (s : Statement) (h : s.Compilable) : s.Apart := by
  match s with
  | assignment .. | call .. | label _ => trivial
  | block body => exact CompilableList.apart body h
  | bodyCall _ _ body => exact CompilableList.apart body h.2.2.2
  | conditional _ body otherwise =>
    exact ⟨CompilableList.apart body h.2.1, CompilableOption.apart otherwise h.2.2⟩

/-- In what the compiler takes, no statement runs into the next. -/
theorem CompilableList.apart (tree : List Statement) (h : CompilableList tree) :
    ApartList tree := by
  match tree with
  | [] => trivial
  | s :: rest => exact ⟨h.1, Compilable.apart s h.2.1, CompilableList.apart rest h.2.2⟩

theorem CompilableOption.apart (otherwise : Option (List Statement))
    (h : CompilableOption otherwise) : ApartOption otherwise := by
  match otherwise with
  | none => trivial
  | some body => exact CompilableList.apart body h

end

theorem separate_none (s : Statement) : s.Separate none := by
  unfold Separate
  split <;> trivial

/-- Whether a statement runs into the next only matters for blocks and labels. -/
theorem separate_of_ne {s next : Statement} (hblock : ∀ body, next ≠ block body)
    (hlabel : ∀ name, next ≠ label name) : s.Separate (some next) := by
  unfold Separate
  split
  · next body h => exact hblock body (Option.some.inj h)
  · next name h => exact absurd (Option.some.inj h) (hlabel name)
  · trivial

/-- A statement goes behind others if the last of them does not run into it. -/
theorem ApartList.concat {tree : List Statement} {s : Statement} (h : ApartList tree)
    (hs : s.Apart) (hlast : ∀ last ∈ tree.getLast?, last.Separate (some s)) :
    ApartList (tree ++ [s]) := by
  induction tree with
  | nil => exact ⟨s.separate_none, hs, trivial⟩
  | cons first rest ih =>
    obtain ⟨hseparate, hfirst, hrest⟩ := h
    cases rest with
    | nil => exact ⟨hlast first rfl, hfirst, ih trivial (by simp)⟩
    | cons second rest => exact ⟨hseparate, hfirst, ih hrest (by simpa using hlast)⟩

end Statement

/-! ## The code in between -/

namespace Program

variable (program : Program)

/-- Whether code opens with neither a block nor a label `else`. -/
def opensClear (rest : List Instruction) : Bool :=
  Decompile.labelName? program rest.head? ≠ some blockOpen
    && Decompile.labelName? program rest.head? ≠ some elseLabel

/-- Whether no assignment to a local is directly in front of a block or of a label `else`: there
statements could run into each other once it is gone. -/
def joinsNothing : List Instruction → Bool
  | [] => true
  | .label _ :: rest | .call _ _ :: rest => joinsNothing rest
  | .target id :: .call _ [] :: .call _ _ :: rest =>
    ((program.localAt? id).isNone || program.opensClear rest) && joinsNothing rest
  | .target id :: .call _ _ :: rest =>
    ((program.localAt? id).isNone || program.opensClear rest) && joinsNothing rest
  | .target _ :: rest => joinsNothing rest

end Program

namespace Decompile

variable {rules : Option ExternalizeRules} {program : Program}

/-- A statement does not run into what the code behind it makes. -/
def Ahead (program : Program) (rest : List Instruction) : Statement → Prop
  | .call .. => labelName? program rest.head? ≠ some blockOpen
  | .conditional _ _ none => labelName? program rest.head? ≠ some elseLabel
  | _ => True

theorem ahead_of_opensClear {rest : List Instruction} (h : program.opensClear rest = true)
    (s : Statement) : Ahead program rest s := by
  simp only [Program.opensClear, Bool.and_eq_true, decide_eq_true_eq] at h
  unfold Ahead
  split
  · exact h.1
  · exact h.2
  · trivial

theorem Ahead.separate_label {s : Statement} {i : Instruction} {rest : List Instruction}
    {name : String} (h : Ahead program (i :: rest) s)
    (hname : labelName? program (some i) = some name) : s.Separate (some (.label name)) := by
  unfold Statement.Separate
  split
  · next hnext => cases hnext
  · next hnext =>
    cases hnext
    rw [Ahead, List.head?_cons, hname] at h
    exact fun helse => h (congrArg some helse)
  · trivial

theorem Ahead.separate_block {s : Statement} {i : Instruction} {rest : List Instruction}
    (h : Ahead program (i :: rest) s) (hname : labelName? program (some i) = some blockOpen)
    (body : List Statement) : s.Separate (some (.block body)) := by
  unfold Statement.Separate
  split
  · rw [Ahead, List.head?_cons, hname] at h
    exact h rfl
  · next hnext => cases hnext
  · trivial

/-- The statements in front of an open block are apart from each other and from what the block
becomes, and so are those that are waiting in its opener. -/
structure Frame.Apart (f : Frame) : Prop where
  before : Statement.ApartList f.before
  last : ∀ last ∈ f.before.getLast?, ∀ body, last.Separate (some (finish f.opener body))
  opener : ∀ body, Statement.ApartList body → (finish f.opener body).Apart

/-- All statements so far are apart, and the last does not run into what comes next. -/
structure Point.Apart (program : Program) (p : Point) : Prop where
  frames : ∀ f ∈ p.frames, Frame.Apart f
  current : Statement.ApartList p.current
  last : ∀ last ∈ p.current.getLast?, Ahead program p.rest last

/-- A block opens behind statements that do not run into what it becomes. -/
theorem Point.Apart.push {p : Point} (h : p.Apart program) (opener : Opener)
    (hlast : ∀ last ∈ p.current.getLast?, ∀ body, last.Separate (some (finish opener body)))
    (hopener : ∀ body, Statement.ApartList body → (finish opener body).Apart) :
    ∀ f ∈ (⟨opener, p.current⟩ :: p.frames : List Frame), Frame.Apart f :=
  List.forall_mem_cons.mpr ⟨⟨h.current, hlast, hopener⟩, h.frames⟩

/-- What is stored makes a statement that no other runs into.  In a local it makes none, but then
what comes next is none that others run into either. -/
theorem apart_store {at_ : Nat} {id : ElementId} {element : Element} {x : Expression}
    {st t : DecompileState} {current made : List Statement} {rest : List Instruction}
    (hcurrent : Statement.ApartList current) (helement : program.expect id = .ok element)
    (hstore : Answers (store program at_ element x) st made t)
    (hclear : ((program.localAt? id).isNone || program.opensClear rest) = true) :
    Statement.ApartList (current ++ made)
      ∧ ∀ last ∈ (current ++ made).getLast?, Ahead program rest last := by
  rw [Program.localAt?, Program.expect_eq_ok_iff.mp helement] at hclear
  obtain ⟨r, rfl, -, rfl, -⟩ | ⟨-, dest, -, rfl, -⟩ := store_cases hstore
  · have hclear : program.opensClear rest = true := by simpa [Element.register?] using hclear
    exact ⟨by simpa using hcurrent, fun last _ => ahead_of_opensClear hclear last⟩
  · refine ⟨hcurrent.concat trivial fun _ _ => Statement.separate_of_ne (by simp) (by simp), ?_⟩
    simp [Ahead]

/-! ## Moves -/

theorem Move.joinsNothing {p q : Point} (h : Move rules program p q)
    (hjoins : program.joinsNothing p.rest = true) : program.joinsNothing q.rest = true := by
  have hlabel {i : Instruction} {name : String} {rest : List Instruction}
      (hname : labelName? program (some i) = some name) :
      program.joinsNothing (i :: rest) = program.joinsNothing rest := by
    obtain ⟨id, rfl⟩ := Program.exists_label hname
    rfl
  cases h with
  | label hname _ _ | opens hname _ | closes hname _ => rwa [hlabel hname] at hjoins
  | otherwise hname helse hbrace _ =>
    rwa [hlabel hname, hlabel helse, hlabel hbrace] at hjoins
  | bodyless hname helse _ => rwa [hlabel hname, hlabel helse] at hjoins
  | assign _ hids _ _ _ =>
    obtain ⟨i, more, rfl⟩ := List.exists_cons_of_ne_nil hids
    exact (Bool.and_eq_true _ _ ▸ hjoins).2
  | capture _ _ _ _ _ => exact (Bool.and_eq_true _ _ ▸ hjoins).2
  | call _ _ _ _ => exact hjoins
  | bodyCall _ _ _ hbrace _ _ | condition _ _ hbrace _ _ =>
    rw [Program.joinsNothing, hlabel hbrace] at hjoins
    exact hjoins

/-- A move keeps statements apart. -/
theorem Move.apart {p q : Point} (hmove : Move rules program p q)
    (hjoins : program.joinsNothing p.rest = true) (h : p.Apart program) : q.Apart program := by
  have hnone : ∀ last ∈ ([] : List Statement).getLast?, Ahead program q.rest last := by simp
  cases hmove with
  | label hname hopen hclose =>
    refine ⟨h.frames, h.current.concat trivial fun last hlast => ?_, by simp [Ahead]⟩
    exact (h.last last hlast).separate_label hname
  | opens hname hroom =>
    refine ⟨h.push _ (fun last hlast body => ?_) fun _ hbody => hbody, trivial, hnone⟩
    exact (h.last last hlast).separate_block hname body
  | @closes _ opener before frames current _ _ rest hname hopener =>
    obtain ⟨hframe, hframes⟩ := List.forall_mem_cons.mp h.frames
    have hfinish := hframe.before.concat (hframe.opener current h.current)
      fun last hlast => hframe.last last hlast current
    refine ⟨hframes, hfinish, ?_⟩
    cases opener with
    | condition condition => simpa [finish, Ahead, Finishes] using hopener
    | block | call _ _ | otherwise _ _ => simp [finish, Ahead]
  | @otherwise _ condition before _ current =>
    obtain ⟨hframe, hframes⟩ := List.forall_mem_cons.mp h.frames
    have hother : Frame.Apart ⟨.otherwise condition current, before⟩ := ⟨hframe.before,
      fun last _ body => Statement.separate_of_ne (by simp [finish]) (by simp [finish]),
      fun body hbody => ⟨h.current, hbody⟩⟩
    exact ⟨List.forall_mem_cons.mpr ⟨hother, hframes⟩, trivial, hnone⟩
  | bodyless hname helse hbrace =>
    obtain ⟨hframe, hframes⟩ := List.forall_mem_cons.mp h.frames
    refine ⟨hframes, hframe.before.concat ⟨h.current, trivial⟩ fun last _ => ?_, by simp [Ahead]⟩
    exact Statement.separate_of_ne (by simp) (by simp)
  | assign hassign hids helement hx hstore =>
    obtain ⟨i, more, rfl⟩ := List.exists_cons_of_ne_nil hids
    obtain ⟨hmade, hlast⟩ :=
      apart_store h.current helement hstore (Bool.and_eq_true _ _ ▸ hjoins).1
    exact ⟨h.frames, hmade, hlast⟩
  | capture hassign helement hname hxs hstore =>
    obtain ⟨hmade, hlast⟩ :=
      apart_store h.current helement hstore (Bool.and_eq_true _ _ ▸ hjoins).1
    exact ⟨h.frames, hmade, hlast⟩
  | call hname hassign hbrace hxs =>
    refine ⟨h.frames, h.current.concat trivial fun last _ => ?_, by simpa [Ahead] using hbrace⟩
    exact Statement.separate_of_ne (by simp) (by simp)
  | bodyCall hname hassign hif hbrace hxs hroom =>
    refine ⟨h.push _ (fun last _ body => ?_) fun _ hbody => hbody, trivial, hnone⟩
    exact Statement.separate_of_ne (by simp [finish]) (by simp [finish])
  | condition hname hids hbrace hx hroom =>
    refine ⟨h.push _ (fun last _ body => ?_) fun _ hbody => ⟨hbody, trivial⟩, trivial, hnone⟩
    exact Statement.separate_of_ne (by simp [finish]) (by simp [finish])

end Decompile

/-- Where no assignment to a local is in front of a block or of a label `else`, no statement of the
tree runs into the next. -/
theorem apart_of_decompile {rules : Option ExternalizeRules} {strings : Option StringTable}
    {program : Program} {tree : List Statement}
    (h : (decompile rules strings program).result = .ok tree)
    (hjoins : program.joinsNothing program.instructions = true) : Statement.ApartList tree := by
  have hmove {p q : Decompile.Point} (hmove : Decompile.Move rules program p q)
      (hp : program.joinsNothing p.rest = true ∧ p.Apart program) :
      program.joinsNothing q.rest = true ∧ q.Apart program :=
    ⟨hmove.joinsNothing hp.1, hmove.apart hp.1 hp.2⟩
  obtain ⟨end_, st, -, hend⟩ :=
    Decompile.invariant_of_decompile hmove h ⟨hjoins, by simp, trivial, by simp⟩
  exact hend.current

end NovelScript
