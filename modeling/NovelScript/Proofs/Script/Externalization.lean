import NovelScript.Proofs.Script.Keys
import NovelScript.Proofs.Script.Walk

/-!
# Moving texts out only relabels them

A program is decompiled twice: once as it is, and once with rules under which texts move into a
string table.  Both runs fail for the same reason, or the second answers the tree of the first with
keys in place of texts (`decompile_externalizes`).

## Shape of the proof

The runs go side by side (`Alike`).  At each point the second holds what the first holds, once the
texts are put back (`Beside`), and this stays so whatever the table becomes, because a table only
grows at its end.  A key is made for one place.  It is never copied, only moved along, overwritten
or dropped: so what is at hand and what the locals hold have, of each key, at most as many as the
entries that have been added.
-/

namespace NovelScript

/-! ## Open blocks -/

namespace Opener

/-- The keys in what a block becomes. -/
def keys : Opener → List String
  | block => []
  | call _ arguments => Expression.keysList arguments
  | condition e => e.keys
  | otherwise e body => e.keys ++ Statement.keysList body

/-- What a block becomes, with the texts put back. -/
def resolve (strings : StringTable) : Opener → Opener
  | block => block
  | call function arguments => call function (Expression.resolveList strings arguments)
  | condition e => condition (e.resolve strings)
  | otherwise e body => otherwise (e.resolve strings) (Statement.resolveList strings body)

end Opener

/-- The keys in an open block and in front of it. -/
def Frame.keys (frame : Frame) : List String :=
  frame.opener.keys ++ Statement.keysList frame.before

/-- An open block with the texts put back. -/
def Frame.resolve (strings : StringTable) (frame : Frame) : Frame :=
  ⟨frame.opener.resolve strings, Statement.resolveList strings frame.before⟩

namespace Decompile

theorem resolve_finish (strings : StringTable) (opener : Opener) (body : List Statement) :
    (finish opener body).resolve strings
      = finish (opener.resolve strings) (Statement.resolveList strings body) := by
  cases opener <;> simp [finish, Opener.resolve, Statement.resolve, Statement.resolveOption]

theorem count_keys_finish (opener : Opener) (body : List Statement) (key : String) :
    (finish opener body).keys.count key
      = opener.keys.count key + (Statement.keysList body).count key := by
  cases opener <;> simp [finish, Opener.keys, Statement.keys, Statement.keysOption, Nat.add_assoc]

/-! ## Two runs -/

/-- The second run has moved texts out into entries behind those of `table`.  Among the keys at hand
and in its locals none is more often than among those of the new entries.  Whatever the table
becomes later, its locals with their texts put back are those of the first run, and `Back` holds. -/
structure Beside (table : StringTable) (atHand : List String) (Back : StringTable → Prop)
    (s s' : DecompileState) : Prop where
  warnings : s'.warnings = s.warnings
  moved : ∃ now added, s'.strings = some now ∧ table.Appends added now
    ∧ (∀ key, atHand.count key + s'.locals.keys.count key ≤ (added.map (·.key)).count key)
    ∧ ∀ later : StringTable, now.entries <+: later.entries →
      s'.locals.resolve later = s.locals ∧ Back later

variable {table : StringTable} {atHand atHand' : List String} {Back Back' : StringTable → Prop}
  {s s' : DecompileState} {program : Program} {rules : ExternalizeRules}

/-- Keys may be dropped. -/
theorem Beside.weaken (h : Beside table atHand Back s s')
    (hkeys : ∀ key, atHand'.count key ≤ atHand.count key)
    (hback : ∀ later, Back later → Back' later) : Beside table atHand' Back' s s' := by
  obtain ⟨now, added, hnow, hadded, hcount, hlater⟩ := h.moved
  refine ⟨h.warnings, now, added, hnow, hadded, fun key => ?_, fun later hgrown => ?_⟩
  · exact Nat.le_trans (Nat.add_le_add_right (hkeys key) _) (hcount key)
  · exact ⟨(hlater later hgrown).1, hback later (hlater later hgrown).2⟩

/-- What holds of any later table holds of the one that there is. -/
theorem Beside.now (h : Beside table atHand Back s s') :
    ∃ now : StringTable, s'.locals.resolve now = s.locals ∧ Back now := by
  obtain ⟨now, _, _, _, _, hlater⟩ := h.moved
  exact ⟨now, hlater now (List.prefix_refl _)⟩

/-- The second run holds something with these keys besides, which with its texts put back is `x`. -/
def Holds {α : Type} (table : StringTable) (atHand : List String) (Back : StringTable → Prop)
    (keys : List String) (back : StringTable → α) (x : α) (s s' : DecompileState) : Prop :=
  Beside table (keys ++ atHand) (fun later => back later = x ∧ Back later) s s'

/-- What is made of something held is held in place of it. -/
theorem Holds.map {α β : Type} {keys keys' : List String} {back : StringTable → α}
    {back' : StringTable → β} {x : α} (f : α → β)
    (h : Holds table atHand Back keys back x s s')
    (hkeys : ∀ key, keys'.count key ≤ keys.count key)
    (hback : ∀ later, back' later = f (back later)) :
    Holds table atHand Back keys' back' (f x) s s' := by
  refine h.weaken (fun key => ?_) ?_
  · rw [List.count_append, List.count_append]
    exact Nat.add_le_add_right (hkeys key) _
  · rintro later ⟨rfl, hrest⟩
    exact ⟨hback later, hrest⟩

/-- Something without keys is the same in both runs. -/
theorem Beside.holds {α : Type} (h : Beside table atHand Back s s') {back : StringTable → α} {x : α}
    (hback : ∀ later, back later = x) : Holds table atHand Back [] back x s s' :=
  h.weaken (fun _ => Nat.le_refl _) fun later hrest => ⟨hback later, hrest⟩

/-- The second run holds `x'` and the first `x`. -/
def Gives (table : StringTable) (atHand : List String) (Back : StringTable → Prop)
    (x x' : Expression) : DecompileState → DecompileState → Prop :=
  Holds table atHand Back x'.keys (x'.resolve ·) x

/-- The second run holds `xs'` and the first `xs`. -/
def GivesAll (table : StringTable) (atHand : List String) (Back : StringTable → Prop)
    (xs xs' : List Expression) : DecompileState → DecompileState → Prop :=
  Holds table atHand Back (Expression.keysList xs') (Expression.resolveList · xs') xs

/-- The second run has made the statements `made'` and the first `made`. -/
def Makes (table : StringTable) (atHand : List String) (Back : StringTable → Prop)
    (made made' : List Statement) : DecompileState → DecompileState → Prop :=
  Holds table atHand Back (Statement.keysList made') (Statement.resolveList · made') made

/-! ## Values -/

theorem alike_expect_bind {α : Type} {id : ElementId} {f f' : Element → Decompile α}
    {R : α → α → DecompileState → DecompileState → Prop}
    (h : ∀ element, Alike (f element) (f' element) s s' R) :
    Alike (expect program id >>= f) (expect program id >>= f') s s' R :=
  alike_mk_bind fun element _ => h element

/-- A local that is read hands its keys over. -/
theorem alike_takeLocal (h : Beside table atHand Back s s') (id : Nat) :
    Alike (takeLocal id) (takeLocal id) s s' (Gives table atHand Back) := by
  obtain ⟨now, added, hnow, hadded, hcount, hlater⟩ := h.moved
  have hget (later : StringTable) (hgrown : now.entries <+: later.entries) :
      s.locals.get? id = (s'.locals.get? id).map (Option.map (·.resolve later)) := by
    rw [← (hlater later hgrown).1, HeldLocals.get?_resolve]
  have hgetNow := hget now (List.prefix_refl _)
  rw [takeLocal]
  refine alike_get_bind ?_
  rcases hlocal : s'.locals.get? id with _ | _ | x'
  all_goals rw [hlocal] at hget hgetNow
  · simp only [hgetNow]
    exact alike_throw
  · simp only [hgetNow]
    exact alike_throw
  · simp only [hgetNow]
    refine ⟨h.warnings, now, added, hnow, hadded, fun key => ?_, fun later hgrown => ?_⟩
    · have hset := s'.locals.count_keys_set id none key
      have hkey := hcount key
      rw [hlocal] at hset
      simp only [HeldLocals.stateKeys, Option.join_some, Option.elim_some, Option.elim_none,
        List.count_nil, List.count_append] at hset ⊢
      omega
    · have hx : x'.resolve later = x'.resolve now := by
        have hsame := (hget later hgrown).symm.trans hgetNow
        exact Option.some.inj (Option.some.inj hsame)
      refine ⟨?_, hx, (hlater later hgrown).2⟩
      rw [HeldLocals.resolve_set, (hlater later hgrown).1, Option.map_none]

theorem alike_value (h : Beside table atHand Back s s') (element : Element) :
    Alike (value element) (value element) s s' (Gives table atHand Back) := by
  cases element with
  | integer n =>
    rw [value]
    split <;> exact alike_pure (h.holds fun _ => rfl)
  | text text => exact alike_pure (h.holds fun _ => rfl)
  | special name => exact alike_pure (h.holds fun _ => rfl)
  | localVar id => exact alike_takeLocal h id
  | function _ | marker _ => exact alike_throw
  | intFlag _ _ | textFlag _ _ =>
    rw [value]
    split
    · next which _ => cases which <;> exact alike_pure (h.holds fun _ => rfl)
    · exact alike_throw

/-- A text that is moved out leaves a key of its own in its place. -/
theorem alike_textArgument (h : Beside table atHand Back s s') (function text : String) :
    Alike (textArgument none function text) (textArgument (some rules) function text) s s'
      (Gives table atHand Back) := by
  obtain ⟨now, added, hnow, hadded, hcount, hlater⟩ := h.moved
  rw [textArgument, textArgument]
  refine alike_get_bind ?_
  simp only [hnow]
  by_cases hwants : rules.wants function text = true
  · rw [if_pos hwants]
    refine ⟨h.warnings, _, _, rfl, hadded.insert rules.keyHead text, fun key => ?_,
      fun later hgrown => ?_⟩
    · have hkey := hcount key
      simp only [Expression.keys, TextLiteral.keys, List.map_append, List.map_singleton,
        List.count_append] at hkey ⊢
      omega
    · have hbefore : now.entries <+: later.entries :=
        List.IsPrefix.trans ⟨_, (now.entries_insert rules.keyHead text).symm⟩ hgrown
      refine ⟨(hlater later hbefore).1, ?_, (hlater later hbefore).2⟩
      show Expression.text (.plain _) = .text (.plain text)
      rw [TextLiteral.said, StringTable.get?_of_prefix_insert hgrown, Option.getD_some]
  · rw [if_neg hwants]
    exact alike_pure (h.holds fun _ => rfl)

theorem alike_argument (h : Beside table atHand Back s s') (function : String) (id : ElementId) :
    Alike (argument none program function id) (argument (some rules) program function id) s s'
      (Gives table atHand Back) := by
  rw [argument, argument]
  refine alike_expect_bind fun element => ?_
  cases element with
  | marker m =>
    by_cases hm : isOperator m.name = true
    · simp only [hm, if_true]
      exact alike_throw
    · simp only [hm]
      exact alike_pure (h.holds fun _ => rfl)
  | text text => exact alike_textArgument h function text
  | integer _ | special _ | function _ | intFlag _ _ | textFlag _ _ | localVar _ =>
    exact alike_value h _

theorem alike_arguments (h : Beside table atHand Back s s') (function : String)
    (ids : List ElementId) :
    Alike (arguments none program function ids) (arguments (some rules) program function ids) s s'
      (GivesAll table atHand Back) := by
  induction ids generalizing atHand Back s s' with
  | nil => exact alike_pure (h.holds fun _ => rfl)
  | cons id ids ih =>
    rw [arguments, arguments]
    refine (alike_argument h function id).bind fun x x' t t' hx => ?_
    refine (ih hx).bind fun xs xs' u u' hxs => alike_pure (hxs.weaken (fun key => ?_) ?_)
    · simp only [Expression.keysList, List.count_append]
      omega
    · rintro later ⟨rfl, rfl, hback⟩
      exact ⟨rfl, hback⟩

theorem GivesAll.call {xs xs' : List Expression} (h : GivesAll table atHand Back xs xs' s s')
    (name : String) : Gives table atHand Back (.call name xs) (.call name xs') s s' :=
  h.map (Expression.call name) (fun _ => Nat.le_refl _) fun _ => rfl

/-! ## Chains -/

theorem alike_operand (h : Beside table atHand Back s s') (id : ElementId) :
    Alike (operand program id) (operand program id) s s' (Gives table atHand Back) := by
  rw [operand]
  refine alike_expect_bind fun element => ?_
  cases element with
  | marker m => exact alike_throw
  | text _ | integer _ | special _ | function _ | intFlag _ _ | textFlag _ _ | localVar _ =>
    exact alike_value h _

/-- The operands of a chain, and the operators, which are the same in both runs. -/
def GivesChain (table : StringTable) (atHand : List String) (Back : StringTable → Prop)
    (r r' : List Expression × List String) (s s' : DecompileState) : Prop :=
  r'.2 = r.2 ∧ GivesAll table atHand Back r.1 r'.1 s s'

theorem Gives.signed {x x' : Expression} (h : Gives table atHand Back x x' s s') (sign : String) :
    Gives table atHand Back (.binary (.integer 0) sign x) (.binary (.integer 0) sign x') s s' :=
  h.map (Expression.binary (.integer 0) sign)
    (fun key => by simp [Expression.binary, Expression.keys, Expression.keysList]) fun _ => rfl

mutual

theorem alike_chainFrom (ids : List ElementId) {atHand : List String} {Back : StringTable → Prop}
    {s s' : DecompileState} (h : Beside table atHand Back s s') :
    Alike (chainFrom program ids) (chainFrom program ids) s s' (GivesChain table atHand Back) := by
  match ids with
  | [] => exact alike_throw
  | [id] =>
    rw [chainFrom]
    refine alike_expect_bind fun element => ?_
    cases operator? element with
    | some sign => exact alike_throw
    | none => exact (alike_operand h id).bind fun x x' t t' hx => alike_chainBehind [] hx
  | id :: next :: rest =>
    rw [chainFrom]
    refine alike_expect_bind fun element => ?_
    cases operator? element with
    | some sign =>
      exact (alike_operand h next).bind fun x x' t t' hx => alike_chainBehind rest (hx.signed sign)
    | none =>
      exact (alike_operand h id).bind fun x x' t t' hx => alike_chainBehind (next :: rest) hx

theorem alike_chainBehind (ids : List ElementId) {atHand : List String}
    {Back : StringTable → Prop} {s s' : DecompileState} {x x' : Expression}
    (h : Gives table atHand Back x x' s s') :
    Alike (chainBehind program x ids) (chainBehind program x' ids) s s'
      (GivesChain table atHand Back) := by
  match ids with
  | [] =>
    exact alike_pure ⟨rfl, h.map (fun x => [x]) (fun key => by simp [Expression.keysList])
      fun _ => rfl⟩
  | id :: rest =>
    rw [chainBehind, chainBehind]
    refine alike_expect_bind fun element => ?_
    cases operator? element with
    | none => exact alike_throw
    | some name =>
      refine (alike_chainFrom rest h).bind fun r r' t t' hr => ?_
      obtain ⟨hnames, hxs⟩ := hr
      refine alike_pure ⟨by rw [hnames], hxs.weaken (fun key => ?_) ?_⟩
      · simp only [Expression.keysList, List.count_append]
        omega
      · rintro later ⟨hrest, rfl, hback⟩
        exact ⟨congrArg (List.cons _) hrest, hback⟩

end

/-- A chain of one operand is that operand in both runs. -/
theorem alike_chain (h : Beside table atHand Back s s') (ids : List ElementId) :
    Alike (chain program ids) (chain program ids) s s' (Gives table atHand Back) := by
  rw [chain]
  refine (alike_chainFrom ids h).bind fun r r' t t' hr => ?_
  obtain ⟨operands, operators⟩ := r
  obtain ⟨operands', operators'⟩ := r'
  obtain ⟨rfl, hxs⟩ := hr
  obtain ⟨now, -, rfl, -⟩ := hxs.now
  have hoperation : Gives table atHand Back
      (.operation (Expression.resolveList now operands') operators')
      (.operation operands' operators') t t' :=
    hxs.map (Expression.operation · operators') (fun _ => Nat.le_refl _) fun _ => rfl
  rcases operands' with _ | ⟨x', _ | ⟨y', more⟩⟩
  · exact alike_pure hoperation
  · cases operators' with
    | nil =>
      refine alike_pure (hxs.weaken (fun key => ?_) ?_)
      · simp [Expression.keysList]
      · rintro later ⟨hrest, hback⟩
        exact ⟨List.head_eq_of_cons_eq hrest, hback⟩
    | cons _ _ => exact alike_pure hoperation
  · exact alike_pure hoperation

/-! ## Statements -/

theorem alike_functionName_bind {α : Type} {id : ElementId} {f f' : String → Decompile α}
    {R : α → α → DecompileState → DecompileState → Prop}
    (h : ∀ name, Alike (f name) (f' name) s s' R) :
    Alike (functionName program id >>= f) (functionName program id >>= f') s s' R := by
  rw [functionName, bind_assoc, bind_assoc]
  refine alike_expect_bind fun element => ?_
  cases element with
  | function name => exact h name
  | _ => exact alike_throw

theorem alike_warn (h : Beside table atHand Back s s') (warning : DecompileWarning) :
    Alike (warn warning) (warn warning) s s' fun _ _ t t' => Beside table atHand Back t t' :=
  alike_modify ⟨by simp only [h.warnings], h.moved⟩

/-- A local that receives a value drops the keys of what it held. -/
theorem Gives.set {x x' : Expression} (h : Gives table atHand Back x x' s s') (id : Nat) :
    Beside table atHand Back { s with locals := s.locals.set id (some x) }
      { s' with locals := s'.locals.set id (some x') } := by
  obtain ⟨now, added, hnow, hadded, hcount, hlater⟩ := h.moved
  refine ⟨h.warnings, now, added, hnow, hadded, fun key => ?_, fun later hgrown => ?_⟩
  · have hset := s'.locals.count_keys_set id (some x') key
    have hkey := hcount key
    simp only [HeldLocals.stateKeys, Option.elim_some, List.count_append] at hset hkey ⊢
    omega
  · obtain ⟨hlocals, rfl, hback⟩ := hlater later hgrown
    refine ⟨?_, hback⟩
    rw [HeldLocals.resolve_set, hlocals, Option.map_some]

theorem alike_store_local {x x' : Expression} (h : Gives table atHand Back x x' s s')
    (at_ id : Nat) :
    Alike (store program at_ (.localVar id) x) (store program at_ (.localVar id) x') s s'
      (Makes table atHand Back) := by
  have hset {t t' : DecompileState} (ht : Gives table atHand Back x x' t t') :
      Alike (do modify fun state => { state with locals := state.locals.set id (some x) }
                return [] : Decompile (List Statement))
        (do modify fun state => { state with locals := state.locals.set id (some x') }
            return []) t t' (Makes table atHand Back) :=
    (alike_modify (R := fun _ _ => Beside table atHand Back) (ht.set id)).bind
      fun _ _ _ _ hdone => alike_pure (hdone.holds fun _ => rfl)
  obtain ⟨now, hlocals, -⟩ := h.now
  rw [store, store]
  by_cases hhigh : program.maxLocals ≤ id
  · rw [if_pos hhigh, if_pos hhigh]
    exact alike_throw
  · rw [if_neg hhigh, if_neg hhigh]
    refine alike_get_bind ?_
    have hsame : (s.locals.get? id).any (·.isSome) = (s'.locals.get? id).any (·.isSome) := by
      rw [← hlocals, HeldLocals.get?_resolve]
      rcases s'.locals.get? id with _ | _ | _ <;> rfl
    simp only [hsame]
    split
    · exact (alike_warn h _).bind fun _ _ t t' ht => hset ht
    · exact hset h

/-- A value that is stored hands its keys over to the local or to the statement that is made. -/
theorem alike_store {x x' : Expression} (h : Gives table atHand Back x x' s s') (at_ : Nat)
    (element : Element) :
    Alike (store program at_ element x) (store program at_ element x') s s'
      (Makes table atHand Back) := by
  by_cases hlocal : ∃ id, element = .localVar id
  · obtain ⟨id, rfl⟩ := hlocal
    exact alike_store_local h at_ id
  · have hother (id : Nat) (hid : element = .localVar id) : False := hlocal ⟨id, hid⟩
    rw [store, store]
    · cases target element with
      | error fault => exact alike_throw
      | ok dest =>
        refine alike_pure (h.map (fun x => [Statement.assignment dest x]) (fun key => ?_)
          fun _ => rfl)
        simp [Statement.keysList, Statement.keys]
    all_goals exact hother

/-! ## Inside blocks -/

/-- The keys in open blocks and in the statements inside them. -/
def keysInside (frames : List Frame) (current : List Statement) : List String :=
  frames.flatMap Frame.keys ++ Statement.keysList current

/-- The blocks `frames'` and the statements `current'` inside them, with their texts put back. -/
def BackInside (frames frames' : List Frame) (current current' : List Statement)
    (later : StringTable) : Prop :=
  frames'.map (Frame.resolve later) = frames ∧ Statement.resolveList later current' = current

/-- The second run is inside the blocks `frames'` behind the statements `current'`, the first inside
`frames` behind `current`. -/
def Amid (table : StringTable) (frames frames' : List Frame) (current current' : List Statement)
    (s s' : DecompileState) : Prop :=
  Beside table (keysInside frames' current') (BackInside frames frames' current current') s s'

variable {frames frames' : List Frame} {current current' : List Statement}

/-- Statements that are made go behind those in front. -/
theorem Makes.amid {made made' : List Statement}
    (h : Makes table (keysInside frames' current') (BackInside frames frames' current current')
      made made' s s') :
    Amid table frames frames' (current ++ made) (current' ++ made') s s' := by
  refine h.weaken (fun key => ?_) ?_
  · simp only [keysInside, Statement.keysList_append, List.count_append]
    omega
  · rintro later ⟨rfl, rfl, rfl⟩
    exact ⟨rfl, Statement.resolveList_append _ _ _⟩

theorem Amid.label (h : Amid table frames frames' current current' s s') (name : String) :
    Amid table frames frames' (current ++ [.label name]) (current' ++ [.label name]) s s' :=
  Makes.amid (h.holds fun _ => rfl)

theorem GivesAll.amid_call {xs xs' : List Expression}
    (h : GivesAll table (keysInside frames' current') (BackInside frames frames' current current')
      xs xs' s s') (name : String) :
    Amid table frames frames' (current ++ [.call name xs]) (current' ++ [.call name xs']) s s' := by
  refine Makes.amid (h.map (fun xs => [Statement.call name xs]) (fun key => ?_) fun _ => rfl)
  simp [Statement.keysList, Statement.keys]

/-- A block opens behind the statements in front, which it keeps with what it will become. -/
theorem alike_push {opener opener' : Opener}
    (h : Holds table (keysInside frames' current') (BackInside frames frames' current current')
      opener'.keys (opener'.resolve ·) opener s s') (at_ : Nat) :
    Alike (push at_ opener current frames) (push at_ opener' current' frames') s s'
      fun inside inside' => Amid table inside inside' [] [] := by
  obtain ⟨now, -, -, hframes, -⟩ := h.now
  have hlength : frames.length = frames'.length := by rw [← hframes, List.length_map]
  rw [push, push, hlength]
  split
  · exact alike_throw
  · refine alike_pure (h.weaken (fun key => ?_) ?_)
    · simp only [keysInside, List.flatMap_cons, Frame.keys, Statement.keysList, List.count_append,
        List.count_nil]
      omega
    · rintro later ⟨rfl, rfl, rfl⟩
      exact ⟨rfl, rfl⟩

theorem Gives.push_condition {x x' : Expression}
    (h : Gives table (keysInside frames' current') (BackInside frames frames' current current')
      x x' s s') (at_ : Nat) :
    Alike (push at_ (.condition x) current frames) (push at_ (.condition x') current' frames') s s'
      fun inside inside' => Amid table inside inside' [] [] :=
  alike_push (h.map Opener.condition (fun _ => Nat.le_refl _) fun _ => rfl) at_

theorem GivesAll.push_call {xs xs' : List Expression}
    (h : GivesAll table (keysInside frames' current') (BackInside frames frames' current current')
      xs xs' s s') (name : String) (at_ : Nat) :
    Alike (push at_ (.call name xs) current frames) (push at_ (.call name xs') current' frames')
      s s' fun inside inside' => Amid table inside inside' [] [] :=
  alike_push (h.map (Opener.call name) (fun _ => Nat.le_refl _) fun _ => rfl) at_

theorem Amid.push_block (h : Amid table frames frames' current current' s s') (at_ : Nat) :
    Alike (push at_ .block current frames) (push at_ .block current' frames') s s'
      fun inside inside' => Amid table inside inside' [] [] :=
  alike_push (h.holds fun _ => rfl) at_

/-- An `else` keeps the body of the condition that it goes on with. -/
theorem Amid.push_otherwise {e e' : Expression} {before before' : List Statement}
    (h : Amid table (⟨.condition e, before⟩ :: frames) (⟨.condition e', before'⟩ :: frames')
      current current' s s') (at_ : Nat) :
    Alike (push at_ (.otherwise e current) before frames)
      (push at_ (.otherwise e' current') before' frames') s s'
      fun inside inside' => Amid table inside inside' [] [] := by
  refine alike_push (h.weaken (fun key => ?_) ?_) at_
  · simp only [keysInside, List.flatMap_cons, Frame.keys, Opener.keys, List.count_append]
    omega
  · rintro later ⟨hframes, rfl⟩
    simp only [List.map_cons, Frame.resolve, Opener.resolve, List.cons.injEq, Frame.mk.injEq,
      Opener.condition.injEq] at hframes
    obtain ⟨⟨rfl, rfl⟩, rfl⟩ := hframes
    exact ⟨rfl, rfl, rfl⟩

/-- A block closes and becomes a statement of what it held, behind those in front of it. -/
theorem Amid.close {frame frame' : Frame} {made made' : Statement}
    (h : Amid table (frame :: frames) (frame' :: frames') current current' s s')
    (hkeys : ∀ key, made'.keys.count key
      ≤ frame'.opener.keys.count key + (Statement.keysList current').count key)
    (hback : ∀ later, frame'.opener.resolve later = frame.opener →
      Statement.resolveList later current' = current → made'.resolve later = made) :
    Amid table frames frames' (frame.before ++ [made]) (frame'.before ++ [made']) s s' := by
  refine h.weaken (fun key => ?_) ?_
  · have hkey := hkeys key
    simp only [keysInside, List.flatMap_cons, Frame.keys, Statement.keysList_append,
      Statement.keysList, List.count_append, List.count_nil]
    omega
  · rintro later ⟨hframes, hcurrent⟩
    obtain ⟨rfl, hrest⟩ := List.cons.inj hframes
    refine ⟨hrest, ?_⟩
    rw [Statement.resolveList_append, Statement.resolveList, Statement.resolveList,
      hback later rfl hcurrent]
    rfl

theorem Amid.close_finish {frame frame' : Frame}
    (h : Amid table (frame :: frames) (frame' :: frames') current current' s s') :
    Amid table frames frames' (frame.before ++ [finish frame.opener current])
      (frame'.before ++ [finish frame'.opener current']) s s' := by
  refine h.close (fun key => Nat.le_of_eq (count_keys_finish _ _ key)) ?_
  rintro later hopener rfl
  rw [resolve_finish, hopener]

/-- A condition closes with an `else` that nothing follows. -/
theorem Amid.close_empty {e e' : Expression} {before before' : List Statement}
    (h : Amid table (⟨.condition e, before⟩ :: frames) (⟨.condition e', before'⟩ :: frames')
      current current' s s') :
    Amid table frames frames' (before ++ [.conditional e current (some [])])
      (before' ++ [.conditional e' current' (some [])]) s s' := by
  refine h.close (fun key => ?_) ?_
  · simp [Statement.keys, Statement.keysOption, Statement.keysList, Opener.keys]
  · rintro later hopener rfl
    obtain rfl := Opener.condition.inj hopener
    rfl

/-! ## The walk -/

/-- From any such point on, both runs make of the instructions the same statements, up to texts
moved out, or fail with the same error. -/
def WalksAlike (table : StringTable) (rules : ExternalizeRules) (program : Program)
    (rest : List Instruction) : Prop :=
  ∀ (at_ : Nat) ⦃frames frames' : List Frame⦄ ⦃current current' : List Statement⦄
    ⦃s s' : DecompileState⦄, Amid table frames frames' current current' s s' →
    Alike (walk none program at_ frames current rest)
      (walk (some rules) program at_ frames' current' rest) s s'
      (Makes table [] fun _ => True)

theorem walksAlike_nil : WalksAlike table rules program [] := by
  intro at_ frames frames' current current' s s' h
  obtain ⟨now, -, hframes, -⟩ := h.now
  rw [walk, walk, ← hframes, List.isEmpty_map]
  split
  · refine alike_pure (h.weaken (fun key => ?_) fun later hback => ⟨hback.2, trivial⟩)
    simp [keysInside]
  · exact alike_throw

variable {rest : List Instruction}

theorem walksAlike_target {id : ElementId}
    (hrest : ∀ later, later <:+ rest → WalksAlike table rules program later) :
    WalksAlike table rules program (.target id :: rest) := by
  intro at_ frames frames' current current' s s' h
  rw [walk.eq_def none, walk.eq_def (some rules)]
  refine alike_expect_bind fun element => ?_
  cases rest with
  | nil => exact alike_throw
  | cons next rest =>
    cases next with
    | label _ | target _ => exact alike_throw
    | call assign ids =>
      simp only
      split
      · exact alike_throw
      split
      · cases rest with
        | nil => exact alike_throw
        | cons next rest =>
          cases next with
          | label _ | target _ => exact alike_throw
          | call function ids =>
            refine alike_functionName_bind fun name => ?_
            refine (alike_arguments h name ids).bind fun xs xs' t t' hxs => ?_
            refine (alike_store (hxs.call name) at_ element).bind fun made made' u u' hmade => ?_
            exact hrest rest ⟨[_, _], rfl⟩ _ hmade.amid
      · refine (alike_chain h ids).bind fun x x' t t' hx => ?_
        refine (alike_store hx at_ element).bind fun made made' u u' hmade => ?_
        exact hrest rest ⟨[_], rfl⟩ _ hmade.amid

theorem walksAlike_call {function : ElementId} {ids : List ElementId}
    (hrest : ∀ later, later <:+ rest → WalksAlike table rules program later) :
    WalksAlike table rules program (.call function ids :: rest) := by
  intro at_ frames frames' current current' s s' h
  rw [walk.eq_def none, walk.eq_def (some rules)]
  refine alike_functionName_bind fun name => ?_
  by_cases hassign : name = assignFunction
  · rw [if_pos hassign, if_pos hassign]
    exact alike_throw
  rw [if_neg hassign, if_neg hassign]
  have harguments : Alike (arguments none program name ids)
      (arguments (some rules) program name ids) s s' (GivesAll table _ _) :=
    alike_arguments h name ids
  cases rest with
  | nil =>
    exact harguments.bind fun xs xs' t t' hxs =>
      hrest _ (List.suffix_refl _) _ (hxs.amid_call name)
  | cons brace inside =>
    simp only
    split
    · exact harguments.bind fun xs xs' t t' hxs =>
        hrest _ (List.suffix_refl _) _ (hxs.amid_call name)
    split
    · split
      · exact alike_throw
      · refine (alike_chain h ids).bind fun x x' t t' hx => ?_
        refine (hx.push_condition (at_ + 1)).bind fun _ _ u u' hinside => ?_
        exact hrest inside ⟨[_], rfl⟩ _ hinside
    · refine harguments.bind fun xs xs' t t' hxs => ?_
      refine (hxs.push_call name (at_ + 1)).bind fun _ _ u u' hinside => ?_
      exact hrest inside ⟨[_], rfl⟩ _ hinside

/-- A brace that closes a condition may be followed by an `else`, with a block or without. -/
theorem walksAlike_close {id : ElementId} {marker : Marker} (hm : program.marker? id = some marker)
    (hclose : marker.name = blockClose)
    (hrest : ∀ later, later <:+ rest → WalksAlike table rules program later) :
    WalksAlike table rules program (.label id :: rest) := by
  intro at_ frames frames' current current' s s' h
  obtain ⟨now, -, rfl, -⟩ := h.now
  rw [walk.eq_def none, walk.eq_def (some rules)]
  simp only [hm, hclose, if_true]
  cases frames' with
  | nil => exact alike_throw
  | cons frame' frames' =>
    obtain ⟨opener', before'⟩ := frame'
    have hfinish := h.close_finish
    cases opener' with
    | block | call _ _ | otherwise _ _ => exact hrest rest (List.suffix_refl _) _ hfinish
    | condition condition' =>
      cases rest with
      | nil => exact hrest [] (List.suffix_refl _) _ hfinish
      | cons next others =>
        simp only [List.map_cons, Frame.resolve, Opener.resolve]
        split
        · cases others with
          | nil =>
            refine (alike_warn h _).bind fun _ _ t t' ht => ?_
            exact hrest [] ⟨[_], rfl⟩ _ (Amid.close_empty ht)
          | cons brace inside =>
            simp only
            split
            · refine (h.push_otherwise (at_ + 2)).bind fun _ _ t t' hinside => ?_
              exact hrest inside ⟨[_, _], rfl⟩ _ hinside
            · refine (alike_warn h _).bind fun _ _ t t' ht => ?_
              exact hrest _ ⟨[_], rfl⟩ _ (Amid.close_empty ht)
        · exact hrest _ (List.suffix_refl _) _ hfinish

theorem walksAlike_label {id : ElementId} {marker : Marker} (hm : program.marker? id = some marker)
    (hclose : marker.name ≠ blockClose)
    (hrest : ∀ later, later <:+ rest → WalksAlike table rules program later) :
    WalksAlike table rules program (.label id :: rest) := by
  intro at_ frames frames' current current' s s' h
  rw [walk.eq_def none, walk.eq_def (some rules)]
  simp only [hm, hclose, if_false]
  split
  · refine (h.push_block at_).bind fun _ _ t t' hinside => ?_
    exact hrest rest (List.suffix_refl _) _ hinside
  · exact hrest rest (List.suffix_refl _) _ (h.label _)

theorem walksAlike (table : StringTable) (rules : ExternalizeRules) (program : Program)
    (instructions : List Instruction) : WalksAlike table rules program instructions := by
  -- an instruction is read with those behind it that belong to the same statement
  suffices hall : ∀ later, later <:+ instructions → WalksAlike table rules program later from
    hall instructions (List.suffix_refl _)
  induction instructions with
  | nil =>
    intro later hlater
    rw [List.suffix_nil.mp hlater]
    exact walksAlike_nil
  | cons i rest ih =>
    intro later hlater
    rcases List.suffix_cons_iff.mp hlater with rfl | hlater
    · cases i with
      | target id => exact walksAlike_target ih
      | call function ids => exact walksAlike_call ih
      | label id =>
        cases hm : program.marker? id with
        | none =>
          intro at_ frames frames' current current' s s' h
          rw [walk.eq_def none, walk.eq_def (some rules)]
          simp only [hm]
          exact alike_throw
        | some marker =>
          by_cases hclose : marker.name = blockClose
          · exact walksAlike_close hm hclose ih
          · exact walksAlike_label hm hclose ih
    · exact ih later hlater

theorem alike_statements (table : StringTable) (rules : ExternalizeRules)
    (strings : Option StringTable) (program : Program) :
    Alike (statements none program) (statements (some rules) program) { strings }
      { strings := some table } (Makes table [] fun _ => True) := by
  have hstart : Amid table [] [] [] [] { strings } { strings := some table } :=
    ⟨rfl, table, [], rfl, .refl table, fun _ => Nat.le_refl _, fun _ _ => ⟨rfl, rfl, rfl⟩⟩
  rw [statements, statements]
  refine alike_get_bind ?_
  rw [if_neg (by simp), if_neg (by simp)]
  refine (walksAlike table rules program _ 0 hstart).bind fun tree tree' t t' htree => ?_
  obtain ⟨now, hlocals, -⟩ := htree.now
  refine alike_get_bind ?_
  simp only [← hlocals, HeldLocals.unused_resolve]
  split
  · exact (alike_warn htree _).bind fun _ _ u u' hdone => alike_pure hdone
  · exact alike_pure htree

end Decompile

/-- The tree `moved` is `plain` with texts moved out into entries behind those of `table`, which
with them is `later`.  Each key in the tree is that of one such entry, and of no other place. -/
structure MovesOut (table later : StringTable) (plain moved : List Statement) : Prop where
  appends : ∃ added, table.Appends added later
    ∧ ∀ key ∈ Statement.keysList moved, key ∈ added.map (·.key)
  distinct : (Statement.keysList moved).Nodup
  said : ∀ key ∈ Statement.keysList moved, ∃ text, later.get? key = some text
  resolve : Statement.resolveList later moved = plain

theorem Decompile.Makes.movesOut {table : StringTable} {plain moved : List Statement}
    {s s' : DecompileState} (h : Makes table [] (fun _ => True) plain moved s s') :
    ∃ later, s'.strings = some later ∧ MovesOut table later plain moved := by
  obtain ⟨later, added, hstrings, hadded, hcount, hlater⟩ := h.moved
  have hkeys (key : String) :
      (Statement.keysList moved).count key ≤ (added.map (·.key)).count key := by
    have hkey := hcount key
    rw [List.append_nil] at hkey
    omega
  have hnew : ∀ key ∈ Statement.keysList moved, key ∈ added.map (·.key) := by
    intro key hkey
    exact List.count_pos_iff.mp (Nat.lt_of_lt_of_le (List.count_pos_iff.mpr hkey) (hkeys key))
  refine ⟨later, hstrings, ⟨added, hadded, hnew⟩, ?_, ?_, ?_⟩
  · refine List.nodup_iff_count_le_one.mpr fun key => Nat.le_trans (hkeys key) ?_
    exact List.nodup_iff_count_le_one.mp hadded.distinct key
  · exact fun key hkey => hadded.get?_isSome (hnew key hkey)
  · exact (hlater later (List.prefix_refl _)).2.1

/-- Decompiling a program with rules fails exactly as decompiling it without them, or both answer
and the rules have moved texts out and done nothing else. -/
theorem decompile_externalizes (rules : ExternalizeRules) (table : StringTable)
    (strings : Option StringTable) (program : Program) :
    (∃ fault, (decompile none strings program).result = .error fault
      ∧ (decompile (some rules) (some table) program).result = .error fault)
    ∨ ∃ plain moved later, (decompile none strings program).result = .ok plain
      ∧ (decompile (some rules) (some table) program).result = .ok moved
      ∧ (decompile (some rules) (some table) program).strings = some later
      ∧ (decompile (some rules) (some table) program).warnings
        = (decompile none strings program).warnings
      ∧ MovesOut table later plain moved := by
  rcases (Decompile.alike_statements table rules strings program).cases with
    ⟨plain, t, moved, t', hrun, hrun', h⟩ | ⟨fault, t, t', hrun, hrun'⟩
  · obtain ⟨later, hstrings, hmoves⟩ := h.movesOut
    refine .inr ⟨plain, moved, later, ?_⟩
    rw [decompile, decompile, hrun, hrun']
    exact ⟨rfl, rfl, hstrings, h.warnings, hmoves⟩
  · refine .inl ⟨fault, ?_⟩
    rw [decompile, decompile, hrun, hrun']
    exact ⟨rfl, rfl⟩

/-- The text of a local that is overwritten keeps its entry, and a key that is taken is left out. -/
example :
    let program : Program :=
      { elements := #[.localVar 0, .function assignFunction, .function "Say", .text "a", .text "b"]
        instructions := [.target 0, .call 1 [], .call 2 [3], .target 0, .call 1 [], .call 2 [4],
          .call 2 [0]]
        maxLocals := 1 }
    let moved := decompile (some ⟨fun _ _ => true, "T"⟩) (some (.ofEntries [⟨"T0", "c"⟩])) program
    moved.strings.map (·.entries) = some [⟨"T0", "c"⟩, ⟨"T1", "a"⟩, ⟨"T2", "b"⟩]
      ∧ moved.result.toOption = some [.call "Say" [.call "Say" [.text (.external "T2")]]] := by
  decide +kernel

end NovelScript
