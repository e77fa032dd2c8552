import NovelScript.Proofs.Script.Calls
import NovelScript.Proofs.Script.Checking
import NovelScript.Script.Printing

/-!
# Decompiled trees are in order

Whatever program or file a tree comes from, its chains are whole, no label stands where a value is
read, its flags are in range and its blocks are at most 64 deep, so it can be printed
(`wellMade_of_decompile`).

## Shape of the proof

What is read from an element or a chain is an operand (`Expression.RebuiltOperand`), and waits as
such in a local.  Statements are made of operands (`Statement.Rebuilt`), and no move of the walk
makes any other (`Decompile.Move.rebuilt`).  Without rules texts are in place as well, which is what
compiling such a tree again needs to know.
-/

namespace NovelScript

/-! ## Trees in order -/

namespace Expression

mutual

/-- Chains in the expression have an operator between each two operands, and one at least; no label
is among the operands; and flags are in range. -/
def Proper : Expression → Prop
  | operation operands operators =>
    operators ≠ [] ∧ operands.length = operators.length + 1
      ∧ (∀ name ∈ operators, isOperator name = true) ∧ ProperOperands operands
  | call _ arguments => ProperList arguments
  | var which => which.Compilable
  | flagPointer kind id => kind.inRange id = true
  | integer _ | pointer _ | text _ | labelRef _ => True

/-- The expressions are in order. -/
def ProperList : List Expression → Prop
  | [] => True
  | x :: xs => Proper x ∧ ProperList xs

/-- The expressions are in order, and none is a label. -/
def ProperOperands : List Expression → Prop
  | [] => True
  | x :: xs => (x.isLabelRef = false ∧ Proper x) ∧ ProperOperands xs

end

/-- The expression is in order and no label. -/
def ProperOperand (e : Expression) : Prop := e.isLabelRef = false ∧ e.Proper

mutual

/-- An expression that is in order can be printed. -/
theorem complete_of_proper (e : Expression) (h : e.Proper) : e.complete = true := by
  match e with
  | operation operands operators =>
    obtain ⟨-, hlength, -, hoperands⟩ := h
    simp [complete, hlength, completeList_of_properOperands operands hoperands]
  | call _ arguments => exact completeList_of_properList arguments h
  | integer _ | pointer _ | text _ | var _ | flagPointer .. | labelRef _ => simp only [complete]

theorem completeList_of_properList (xs : List Expression) (h : ProperList xs) :
    completeList xs = true := by
  match xs with
  | [] => rfl
  | x :: xs =>
    rw [completeList, complete_of_proper x h.1, completeList_of_properList xs h.2, Bool.and_self]

theorem completeList_of_properOperands (xs : List Expression) (h : ProperOperands xs) :
    completeList xs = true := by
  match xs with
  | [] => rfl
  | x :: xs =>
    rw [completeList, complete_of_proper x h.1.2, completeList_of_properOperands xs h.2,
      Bool.and_self]

end
end Expression

namespace Statement

mutual

/-- The expressions in the statement are in order, and no label is a condition or is assigned.  The
assignment is called by assignments only, and an `if` has a condition. -/
def Proper : Statement → Prop
  | block body => ProperList body
  | assignment target value => target.Compilable ∧ value.ProperOperand
  | call function arguments => function ≠ assignFunction ∧ Expression.ProperList arguments
  | bodyCall function arguments body =>
    function ≠ ifFunction ∧ function ≠ assignFunction ∧ Expression.ProperList arguments
      ∧ ProperList body
  | conditional condition body otherwise =>
    condition.ProperOperand ∧ ProperList body ∧ ProperOption otherwise
  | label _ => True

/-- The statements are in order. -/
def ProperList : List Statement → Prop
  | [] => True
  | s :: rest => Proper s ∧ ProperList rest

/-- The alternative is in order. -/
def ProperOption : Option (List Statement) → Prop
  | none => True
  | some body => ProperList body

end

mutual

/-- A statement that is in order can be printed. -/
theorem complete_of_proper (s : Statement) (h : s.Proper) : s.complete = true := by
  match s with
  | block body => exact completeList_of_properList body h
  | assignment _ value => exact value.complete_of_proper h.2.2
  | call _ arguments => exact Expression.completeList_of_properList arguments h.2
  | bodyCall _ arguments body =>
    obtain ⟨-, -, harguments, hbody⟩ := h
    rw [complete, Expression.completeList_of_properList arguments harguments,
      completeList_of_properList body hbody, Bool.and_self]
  | conditional condition body otherwise =>
    obtain ⟨⟨-, hcondition⟩, hbody, hother⟩ := h
    rw [complete, condition.complete_of_proper hcondition, completeList_of_properList body hbody,
      completeOption_of_properOption otherwise hother, Bool.and_self, Bool.and_self]
  | label _ => rfl

theorem completeList_of_properList (tree : List Statement) (h : ProperList tree) :
    completeList tree = true := by
  match tree with
  | [] => rfl
  | s :: rest =>
    rw [completeList, complete_of_proper s h.1, completeList_of_properList rest h.2,
      Bool.and_self]

theorem completeOption_of_properOption (otherwise : Option (List Statement))
    (h : ProperOption otherwise) : completeOption otherwise = true := by
  match otherwise with
  | none => rfl
  | some body => exact completeList_of_properList body h

end
end Statement

/-! ## What the decompiler makes -/

variable {rules : Option ExternalizeRules}

namespace Expression

/-- The expression is in order, and without rules its texts are in place. -/
structure Rebuilt (rules : Option ExternalizeRules) (x : Expression) : Prop where
  proper : x.Proper
  plain : rules = none → x.isPlain = true

/-- The same of an operand. -/
structure RebuiltOperand (rules : Option ExternalizeRules) (x : Expression) : Prop
    extends Rebuilt rules x where
  operand : x.isLabelRef = false

theorem properList_of_rebuilt {xs : List Expression} (h : ∀ x ∈ xs, x.Rebuilt rules) :
    ProperList xs ∧ (rules = none → isPlainList xs = true) := by
  induction xs with
  | nil => exact ⟨trivial, fun _ => rfl⟩
  | cons x xs ih =>
    obtain ⟨hx, hxs⟩ := List.forall_mem_cons.mp h
    obtain ⟨hproper, hplain⟩ := ih hxs
    exact ⟨⟨hx.proper, hproper⟩, fun hrules => by
      rw [isPlainList, hx.plain hrules, hplain hrules, Bool.and_self]⟩

theorem properOperands_of_rebuilt {xs : List Expression} (h : ∀ x ∈ xs, x.RebuiltOperand rules) :
    ProperOperands xs := by
  induction xs with
  | nil => trivial
  | cons x xs ih =>
    obtain ⟨hx, hxs⟩ := List.forall_mem_cons.mp h
    exact ⟨⟨hx.operand, hx.proper⟩, ih hxs⟩

/-- A chain of operands with an operator between each two. -/
theorem rebuilt_operation {operands : List Expression} {operators : List String}
    (hne : operators ≠ []) (hlength : operands.length = operators.length + 1)
    (hoperators : ∀ name ∈ operators, isOperator name = true)
    (h : ∀ x ∈ operands, x.RebuiltOperand rules) :
    (operation operands operators).RebuiltOperand rules where
  proper := ⟨hne, hlength, hoperators, properOperands_of_rebuilt h⟩
  plain := (properList_of_rebuilt fun x hx => (h x hx).toRebuilt).2
  operand := rfl

theorem rebuilt_call {function : String} {arguments : List Expression}
    (h : ∀ x ∈ arguments, x.Rebuilt rules) : (call function arguments).RebuiltOperand rules where
  proper := (properList_of_rebuilt h).1
  plain := (properList_of_rebuilt h).2
  operand := rfl

end Expression

/-- The values that locals hold are operands that the decompiler has made. -/
def HeldLocals.Rebuilt (rules : Option ExternalizeRules) (held : HeldLocals) : Prop :=
  ∀ (r : Nat) (x : Expression), held.get? r = some (some x) → x.RebuiltOperand rules

theorem HeldLocals.Rebuilt.set {held : HeldLocals} (h : held.Rebuilt rules) (r : Nat)
    {x : Expression} (hx : x.RebuiltOperand rules) : (held.set r (some x)).Rebuilt rules := by
  intro r' y hy
  rw [HeldLocals.get?_set] at hy
  split at hy
  · obtain rfl := Option.some.inj (Option.some.inj hy)
    exact hx
  · exact h r' y hy

theorem HeldLocals.Rebuilt.takeAll {held : HeldLocals} (h : held.Rebuilt rules) (rs : List Nat) :
    (held.takeAll rs).Rebuilt rules := by
  intro r x hx
  rw [HeldLocals.get?_takeAll] at hx
  split at hx
  · cases Option.some.inj hx
  · exact h r x hx

namespace Statement

/-- The statement is in order, and without rules its texts are in place. -/
structure Rebuilt (rules : Option ExternalizeRules) (s : Statement) : Prop where
  proper : s.Proper
  plain : rules = none → s.isPlain = true

theorem properList_of_rebuilt {tree : List Statement} (h : ∀ s ∈ tree, s.Rebuilt rules) :
    ProperList tree ∧ (rules = none → isPlainList tree = true) := by
  induction tree with
  | nil => exact ⟨trivial, fun _ => rfl⟩
  | cons s rest ih =>
    obtain ⟨hs, hrest⟩ := List.forall_mem_cons.mp h
    obtain ⟨hproper, hplain⟩ := ih hrest
    exact ⟨⟨hs.proper, hproper⟩, fun hrules => by
      rw [isPlainList, hs.plain hrules, hplain hrules, Bool.and_self]⟩

end Statement

namespace Decompile

variable {program : Program} {st t : DecompileState}

/-! ## Values -/

theorem Took.rebuilt {rs : List Nat} {calls : List String} (h : Took st t rs calls)
    (hheld : st.locals.Rebuilt rules) : t.locals.Rebuilt rules := by
  rw [h.state]
  exact hheld.takeAll rs

theorem compilable_target {element : Element} {dest : Target} (h : target element = .ok dest) :
    dest.Compilable := by
  have hflag (kindName : String) (id : ScriptInt) (isInt : Bool)
      (h : target.flagTarget element kindName id isInt = .ok dest) : dest.Compilable := by
    unfold target.flagTarget at h
    cases hkind : FlagKind.ofName? kindName with
    | none => simp [hkind] at h
    | some kind =>
      simp only [hkind] at h
      split at h
      · cases h
      · split at h
        · cases h
        · next hrange =>
          have hrange : kind.inRange id.value = true := by simpa using hrange
          split at h
          all_goals
            obtain rfl := Except.ok.inj h
            exact hrange
  cases element with
  | intFlag kind id | textFlag kind id => exact hflag _ _ _ h
  | special name =>
    obtain rfl := Except.ok.inj h
    trivial
  | integer n =>
    rw [target] at h
    split at h
    · obtain rfl := Except.ok.inj h
      trivial
    · cases h
  | function _ | marker _ | text _ | localVar _ => cases h

theorem rebuilt_value {element : Element} {x : Expression} (h : Answers (value element) st x t)
    (hheld : st.locals.Rebuilt rules) : x.RebuiltOperand rules := by
  cases element with
  | localVar r => exact hheld r x (answers_takeLocal h).1
  | function _ | marker _ => exact absurd h answers_corrupt
  | integer n =>
    rw [value] at h
    split at h
    all_goals
      obtain ⟨rfl, -⟩ := answers_pure.mp h
      exact ⟨⟨trivial, fun _ => rfl⟩, rfl⟩
  | text _ | special _ =>
    obtain ⟨rfl, -⟩ := answers_pure.mp h
    exact ⟨⟨trivial, fun _ => rfl⟩, rfl⟩
  | intFlag _ _ | textFlag _ _ =>
    rw [value] at h
    split at h
    · next dest hdest =>
      have hdest := compilable_target hdest
      obtain ⟨rfl, -⟩ := answers_pure.mp h
      cases dest <;> exact ⟨⟨hdest, fun _ => rfl⟩, rfl⟩
    · exact absurd h answers_corrupt

/-- A text is in place, or there are rules by which it was moved. -/
theorem rebuilt_textArgument {function text : String} {x : Expression}
    (h : Answers (textArgument rules function text) st x t) (hheld : st.locals.Rebuilt rules) :
    x.Rebuilt rules ∧ t.locals.Rebuilt rules := by
  rw [textArgument] at h
  obtain ⟨_, _, hget, h⟩ := answers_bind.mp h
  obtain ⟨rfl, rfl⟩ := answers_get.mp hget
  cases rules with
  | none =>
    obtain ⟨rfl, rfl⟩ := answers_pure.mp h
    exact ⟨⟨trivial, fun _ => rfl⟩, hheld⟩
  | some rules =>
    cases hstrings : st.strings with
    | none =>
      simp only [hstrings] at h
      obtain ⟨rfl, rfl⟩ := answers_pure.mp h
      exact ⟨⟨trivial, fun _ => rfl⟩, hheld⟩
    | some strings =>
      simp only [hstrings] at h
      by_cases hwants : rules.wants function text = true
      · rw [if_pos hwants] at h
        obtain ⟨_, _, hset, h⟩ := answers_bind.mp h
        obtain rfl := answers_set.mp hset
        obtain ⟨rfl, rfl⟩ := answers_pure.mp h
        exact ⟨⟨trivial, fun hnone => absurd hnone (Option.some_ne_none rules)⟩, hheld⟩
      · rw [if_neg hwants] at h
        obtain ⟨rfl, rfl⟩ := answers_pure.mp h
        exact ⟨⟨trivial, fun _ => rfl⟩, hheld⟩

theorem rebuilt_argument {function : String} {id : ElementId} {x : Expression}
    (h : Answers (argument rules program function id) st x t) (hheld : st.locals.Rebuilt rules) :
    x.Rebuilt rules ∧ t.locals.Rebuilt rules := by
  rw [argument] at h
  obtain ⟨element, _, he, h⟩ := answers_bind.mp h
  obtain ⟨-, rfl⟩ := answers_expect.mp he
  cases element with
  | marker m =>
    simp only at h
    split at h
    · exact absurd h answers_corrupt
    · obtain ⟨rfl, rfl⟩ := answers_pure.mp h
      exact ⟨⟨trivial, fun _ => rfl⟩, hheld⟩
  | text text => exact rebuilt_textArgument h hheld
  | _ => exact ⟨(rebuilt_value h hheld).toRebuilt, (took_value h).rebuilt hheld⟩

theorem rebuilt_arguments {function : String} {ids : List ElementId} {xs : List Expression}
    (h : Answers (arguments rules program function ids) st xs t)
    (hheld : st.locals.Rebuilt rules) : (∀ x ∈ xs, x.Rebuilt rules) ∧ t.locals.Rebuilt rules := by
  induction ids generalizing st xs with
  | nil =>
    obtain ⟨rfl, rfl⟩ := answers_pure.mp h
    exact ⟨by simp, hheld⟩
  | cons id ids ih =>
    rw [arguments] at h
    obtain ⟨x, _, hx, h⟩ := answers_bind.mp h
    obtain ⟨rest, _, hrest, h⟩ := answers_bind.mp h
    obtain ⟨rfl, rfl⟩ := answers_pure.mp h
    obtain ⟨hx, hheld⟩ := rebuilt_argument hx hheld
    obtain ⟨hrest, hheld⟩ := ih hrest hheld
    exact ⟨List.forall_mem_cons.mpr ⟨hx, hrest⟩, hheld⟩

/-! ## Chains -/

theorem rebuilt_operand {id : ElementId} {x : Expression} (h : Answers (operand program id) st x t)
    (hheld : st.locals.Rebuilt rules) : x.RebuiltOperand rules := by
  rw [operand] at h
  obtain ⟨element, _, he, h⟩ := answers_bind.mp h
  obtain ⟨-, rfl⟩ := answers_expect.mp he
  cases element with
  | marker m => exact absurd h answers_corrupt
  | _ => exact rebuilt_value h hheld

/-- A chain of operands, with an operator between each two. -/
structure RebuiltChain (rules : Option ExternalizeRules) (r : List Expression × List String) :
    Prop where
  length : r.1.length = r.2.length + 1
  operators : ∀ name ∈ r.2, isOperator name = true
  operands : ∀ x ∈ r.1, x.RebuiltOperand rules

theorem isOperator_of_operator? {element : Element} {name : String}
    (h : operator? element = some name) : isOperator name = true := by
  cases element with
  | marker m =>
    rw [operator?] at h
    split at h
    · next hop => exact Option.some.inj h ▸ hop
    · cases h
  | _ => simp [operator?] at h

/-- A sign stands between zero and its operand. -/
theorem rebuilt_sign {sign : String} {x : Expression} (hsign : isOperator sign = true)
    (hx : x.RebuiltOperand rules) :
    (Expression.binary (.integer 0) sign x).RebuiltOperand rules := by
  have hzero : (Expression.integer 0).RebuiltOperand rules := ⟨⟨trivial, fun _ => rfl⟩, rfl⟩
  exact Expression.rebuilt_operation (by simp) rfl (by simpa using hsign) (by simp [hzero, hx])

mutual

theorem rebuilt_chainFrom (ids : List ElementId) {st t : DecompileState}
    {r : List Expression × List String} (h : Answers (chainFrom program ids) st r t)
    (hheld : st.locals.Rebuilt rules) : RebuiltChain rules r := by
  match ids with
  | [] => exact absurd h answers_corrupt
  | [id] =>
    rw [chainFrom] at h
    obtain ⟨element, _, he, h⟩ := answers_bind.mp h
    obtain ⟨-, rfl⟩ := answers_expect.mp he
    split at h
    · exact absurd h answers_corrupt
    · obtain ⟨x, _, hx, h⟩ := answers_bind.mp h
      obtain ⟨_, -, htook⟩ := took_operand hx
      exact rebuilt_chainBehind [] h (rebuilt_operand hx hheld) (htook.rebuilt hheld)
  | id :: next :: rest =>
    rw [chainFrom] at h
    obtain ⟨element, _, he, h⟩ := answers_bind.mp h
    obtain ⟨-, rfl⟩ := answers_expect.mp he
    split at h
    · next sign hsign =>
      obtain ⟨x, _, hx, h⟩ := answers_bind.mp h
      obtain ⟨_, -, htook⟩ := took_operand hx
      have hsigned := rebuilt_sign (isOperator_of_operator? hsign) (rebuilt_operand hx hheld)
      exact rebuilt_chainBehind rest h hsigned (htook.rebuilt hheld)
    · obtain ⟨x, _, hx, h⟩ := answers_bind.mp h
      obtain ⟨_, -, htook⟩ := took_operand hx
      exact rebuilt_chainBehind (next :: rest) h (rebuilt_operand hx hheld) (htook.rebuilt hheld)

theorem rebuilt_chainBehind (ids : List ElementId) {st t : DecompileState} {x : Expression}
    {r : List Expression × List String} (h : Answers (chainBehind program x ids) st r t)
    (hx : x.RebuiltOperand rules) (hheld : st.locals.Rebuilt rules) : RebuiltChain rules r := by
  match ids with
  | [] =>
    rw [chainBehind] at h
    obtain ⟨rfl, -⟩ := answers_pure.mp h
    exact ⟨rfl, by simp, by simpa using hx⟩
  | id :: rest =>
    rw [chainBehind] at h
    obtain ⟨element, _, he, h⟩ := answers_bind.mp h
    obtain ⟨-, rfl⟩ := answers_expect.mp he
    split at h
    · next name hname =>
      obtain ⟨r, _, hr, h⟩ := answers_bind.mp h
      obtain ⟨rfl, -⟩ := answers_pure.mp h
      obtain ⟨hlength, hoperators, hoperands⟩ := rebuilt_chainFrom rest hr hheld
      exact ⟨congrArg (· + 1) hlength,
        List.forall_mem_cons.mpr ⟨isOperator_of_operator? hname, hoperators⟩,
        List.forall_mem_cons.mpr ⟨hx, hoperands⟩⟩
    · exact absurd h answers_corrupt

end

theorem rebuilt_chain {ids : List ElementId} {x : Expression}
    (h : Answers (chain program ids) st x t) (hheld : st.locals.Rebuilt rules) :
    x.RebuiltOperand rules := by
  rw [chain] at h
  obtain ⟨r, _, hr, h⟩ := answers_bind.mp h
  obtain ⟨hlength, hoperators, hoperands⟩ := rebuilt_chainFrom ids hr hheld
  split at h
  · obtain ⟨rfl, -⟩ := answers_pure.mp h
    exact hoperands _ (by simp)
  · next operands operators hmore =>
    obtain ⟨rfl, -⟩ := answers_pure.mp h
    refine Expression.rebuilt_operation ?_ hlength hoperators hoperands
    -- without operators there would be a single operand, which stands for itself
    rintro rfl
    obtain ⟨x, rfl⟩ := List.length_eq_one_iff.mp hlength
    exact hmore x rfl rfl

/-! ## Statements -/

theorem rebuilt_store {at_ : Nat} {element : Element} {x : Expression} {made : List Statement}
    (h : Answers (store program at_ element x) st made t) (hx : x.RebuiltOperand rules)
    (hheld : st.locals.Rebuilt rules) : (∀ s ∈ made, s.Rebuilt rules) ∧ t.locals.Rebuilt rules := by
  obtain ⟨r, -, -, rfl, rfl⟩ | ⟨-, dest, hdest, rfl, rfl⟩ := store_cases h
  · exact ⟨by simp, hheld.set r hx⟩
  · have hassignment : (Statement.assignment dest x).Rebuilt rules :=
      ⟨⟨compilable_target hdest, hx.operand, hx.proper⟩, hx.plain⟩
    exact ⟨by simpa using hassignment, hheld⟩

/-- What a block becomes is rebuilt if its body is. -/
def Opener.Rebuilt (rules : Option ExternalizeRules) : Opener → Prop
  | .block => True
  | .call function arguments =>
    function ≠ ifFunction ∧ function ≠ assignFunction ∧ ∀ x ∈ arguments, x.Rebuilt rules
  | .condition condition => condition.RebuiltOperand rules
  | .otherwise condition body => condition.RebuiltOperand rules ∧ ∀ s ∈ body, s.Rebuilt rules

theorem rebuilt_conditional {condition : Expression} {body : List Statement}
    {otherwise : Option (List Statement)} (hcondition : condition.RebuiltOperand rules)
    (hbody : ∀ s ∈ body, s.Rebuilt rules) (hother : ∀ other, otherwise = some other →
      ∀ s ∈ other, s.Rebuilt rules) :
    (Statement.conditional condition body otherwise).Rebuilt rules := by
  obtain ⟨hproper, hplain⟩ := Statement.properList_of_rebuilt hbody
  cases otherwise with
  | none =>
    refine ⟨⟨⟨hcondition.operand, hcondition.proper⟩, hproper, trivial⟩, fun hrules => ?_⟩
    simp [Statement.isPlain, Statement.isPlainOption, hcondition.plain hrules, hplain hrules]
  | some other =>
    obtain ⟨hproper', hplain'⟩ := Statement.properList_of_rebuilt (hother other rfl)
    refine ⟨⟨⟨hcondition.operand, hcondition.proper⟩, hproper, hproper'⟩, fun hrules => ?_⟩
    simp [Statement.isPlain, Statement.isPlainOption, hcondition.plain hrules, hplain hrules,
      hplain' hrules]

theorem rebuilt_finish {opener : Opener} {body : List Statement}
    (hopener : Opener.Rebuilt rules opener) (hbody : ∀ s ∈ body, s.Rebuilt rules) :
    (finish opener body).Rebuilt rules := by
  obtain ⟨hproper, hplain⟩ := Statement.properList_of_rebuilt hbody
  cases opener with
  | block => exact ⟨hproper, hplain⟩
  | call function arguments =>
    obtain ⟨hif, hassign, harguments⟩ := hopener
    obtain ⟨hproper', hplain'⟩ := Expression.properList_of_rebuilt harguments
    refine ⟨⟨hif, hassign, hproper', hproper⟩, fun hrules => ?_⟩
    simp [finish, Statement.isPlain, hplain hrules, hplain' hrules]
  | condition condition => exact rebuilt_conditional hopener hbody (by simp)
  | otherwise condition others =>
    exact rebuilt_conditional hopener.1 hopener.2 fun _ hother => Option.some.inj hother ▸ hbody

/-! ## Moves -/

/-- Everything that the walk has made so far is rebuilt. -/
structure Point.Rebuilt (rules : Option ExternalizeRules) (p : Point) : Prop where
  frames : ∀ f ∈ p.frames, Opener.Rebuilt rules f.opener ∧ ∀ s ∈ f.before, s.Rebuilt rules
  current : ∀ s ∈ p.current, s.Rebuilt rules
  held : p.state.locals.Rebuilt rules

theorem Move.rebuilt {p q : Point} (hmove : Move rules program p q) (h : p.Rebuilt rules) :
    q.Rebuilt rules := by
  obtain ⟨hframes, hcurrent, hheld⟩ := h
  have hmade {current made : List Statement} (hcurrent : ∀ s ∈ current, s.Rebuilt rules)
      (hmade : ∀ s ∈ made, s.Rebuilt rules) : ∀ s ∈ current ++ made, s.Rebuilt rules :=
    List.forall_mem_append.mpr ⟨hcurrent, hmade⟩
  cases hmove with
  | label hname hopen hclose =>
    have hlabel {name : String} : (Statement.label name).Rebuilt rules := ⟨trivial, fun _ => rfl⟩
    exact ⟨hframes, hmade hcurrent (by simpa using hlabel), hheld⟩
  | opens hname hroom =>
    exact ⟨List.forall_mem_cons.mpr ⟨⟨trivial, hcurrent⟩, hframes⟩, by simp, hheld⟩
  | closes hname hopener =>
    obtain ⟨⟨hopener, hbefore⟩, hframes⟩ := List.forall_mem_cons.mp hframes
    exact ⟨hframes, hmade hbefore (by simpa using rebuilt_finish hopener hcurrent), hheld⟩
  | otherwise hname helse hbrace hroom =>
    obtain ⟨⟨hcondition, hbefore⟩, hframes⟩ := List.forall_mem_cons.mp hframes
    exact ⟨List.forall_mem_cons.mpr ⟨⟨⟨hcondition, hcurrent⟩, hbefore⟩, hframes⟩, by simp, hheld⟩
  | bodyless hname helse hbrace =>
    obtain ⟨⟨hcondition, hbefore⟩, hframes⟩ := List.forall_mem_cons.mp hframes
    have hconditional : (Statement.conditional _ _ (some [])).Rebuilt rules :=
      rebuilt_conditional hcondition hcurrent (by simp)
    exact ⟨hframes, hmade hbefore (by simpa using hconditional), hheld⟩
  | assign hassign hids helement hx hstore =>
    obtain ⟨hnew, hheld⟩ :=
      rebuilt_store hstore (rebuilt_chain hx hheld) ((took_chain hx).rebuilt hheld)
    exact ⟨hframes, hmade hcurrent hnew, hheld⟩
  | capture hassign helement hname hxs hstore =>
    obtain ⟨harguments, hheld⟩ := rebuilt_arguments hxs hheld
    obtain ⟨hnew, hheld⟩ := rebuilt_store hstore (Expression.rebuilt_call harguments) hheld
    exact ⟨hframes, hmade hcurrent hnew, hheld⟩
  | call hname hassign hbrace hxs =>
    obtain ⟨harguments, hheld⟩ := rebuilt_arguments hxs hheld
    obtain ⟨hproper, hplain⟩ := Expression.properList_of_rebuilt harguments
    have hcall : (Statement.call _ _).Rebuilt rules := ⟨⟨hassign, hproper⟩, hplain⟩
    exact ⟨hframes, hmade hcurrent (by simpa using hcall), hheld⟩
  | bodyCall hname hassign hif hbrace hxs hroom =>
    obtain ⟨harguments, hheld⟩ := rebuilt_arguments hxs hheld
    have hopener := And.intro hif (And.intro hassign harguments)
    exact ⟨List.forall_mem_cons.mpr ⟨⟨hopener, hcurrent⟩, hframes⟩, by simp, hheld⟩
  | condition hname hids hbrace hx hroom =>
    exact ⟨List.forall_mem_cons.mpr ⟨⟨rebuilt_chain hx hheld, hcurrent⟩, hframes⟩, by simp,
      (took_chain hx).rebuilt hheld⟩

end Decompile

theorem rebuilt_of_decompile {strings : Option StringTable} {program : Program}
    {tree : List Statement} (h : (decompile rules strings program).result = .ok tree) :
    ∀ s ∈ tree, s.Rebuilt rules := by
  have hstart : HeldLocals.Rebuilt rules {} := by
    intro r x hx
    simp [HeldLocals.get?] at hx
  obtain ⟨end_, st, hend⟩ :=
    Decompile.invariant_of_decompile Decompile.Move.rebuilt h ⟨by simp, by simp, hstart⟩
  exact hend.current

/-! ## Decompiled trees -/

/-- The tree is in order, its blocks are at most 64 deep, and it can be printed. -/
structure WellMade (tree : List Statement) : Prop where
  proper : Statement.ProperList tree
  depthList_le : Statement.depthList tree ≤ 64
  printed : printStatements tree = some (Statement.renderAll 0 tree)

theorem wellMade_of_decompile {strings : Option StringTable} {program : Program}
    {tree : List Statement} (h : (decompile rules strings program).result = .ok tree) :
    WellMade tree := by
  have hproper := (Statement.properList_of_rebuilt (rebuilt_of_decompile h)).1
  refine ⟨hproper, Decompile.depthList_of_decompile h, ?_⟩
  rw [printStatements, Statement.completeList_of_properList tree hproper, if_pos rfl]

/-- **Decompiled trees are well made, whatever they come from**: any program under any rules, and
any file under any settings. -/
theorem wellMade_of_read :
    (∀ rules strings program tree, (decompile rules strings program).result = .ok tree →
        WellMade tree)
      ∧ ∀ input settings script, (Script.ofBytes input settings).result = .ok script →
        WellMade script.statements := by
  refine ⟨fun _ _ _ _ => wellMade_of_decompile, fun input settings script h => ?_⟩
  obtain ⟨source, rules, -, -, htree, -⟩ := Script.decompile_of_ofBytes h
  exact wellMade_of_decompile htree

/-- A chain with a sign in front, held by a local until it is an operand of the next one. -/
def parked : Program where
  elements := #[.localVar 0, .function assignFunction, .marker ⟨"-", none, 0, 0⟩,
    .integer ⟨1, false⟩, .marker ⟨"+", none, 1, 0⟩, .intFlag "Flag" ⟨2, false⟩, .special "sum"]
  instructions := [.target 0, .call 1 [2, 3, 4, 5], .target 6, .call 1 [2, 0, 4, 3]]
  maxLocals := 1

theorem wellMade_of_read_parked : ∃ tree bytes script,
    (decompile none none parked).result = .ok tree ∧ WellMade tree
      ∧ parked.assemble {} = .ok bytes ∧ (Script.ofBytes bytes {}).result = .ok script
      ∧ WellMade script.statements := by
  obtain ⟨tree, htree, -⟩ := exists_ok_of_any (r := (decompile none none parked).result)
    (p := fun _ => true) (by decide +kernel)
  obtain ⟨bytes, hbytes, hok⟩ := exists_ok_of_any (r := parked.assemble {})
    (p := fun bytes => (Script.ofBytes bytes {}).result.toOption.any fun _ => true)
    (by decide +kernel)
  obtain ⟨script, hscript, -⟩ := exists_ok_of_any hok
  obtain ⟨hdecompile, hread⟩ := wellMade_of_read
  exact ⟨tree, bytes, script, htree, hdecompile _ _ _ _ htree, hbytes, hscript,
    hread _ _ _ hscript⟩

end NovelScript
