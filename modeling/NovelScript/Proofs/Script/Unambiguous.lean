import NovelScript.Proofs.Script.Legibility

/-!
# Printed trees are told apart

Behind its indentation a statement is told by its first characters (`leadOf_body`), and a line that
closes a body by its brace, which begins no statement (`Closes`).  So two lists of statements that
stand in front of such lines, or at the end, are equal if they are printed alike
(`Statement.spelledList_append_inj`), and with it whole trees
(`printStatements_unambiguous`).
-/

namespace NovelScript

/-! ## Targets -/

namespace Target

/-- The expression that reads what a target is. -/
def asExpression : Target → Expression
  | var which => .var which
  | flagPointer kind id => .flagPointer kind id
  | pointer value => .pointer value

theorem asExpression_injective {target other : Target}
    (h : target.asExpression = other.asExpression) : target = other := by
  cases target <;> cases other <;> simp_all [asExpression]

theorem asExpression_wellFormed (target : Target) :
    target.asExpression.wellFormed = target.wellFormed := by
  cases target <;> rfl

/-- A target is printed as an operand. -/
theorem toList_render (target : Target) :
    target.render.toList = target.asExpression.spelledOperand := by
  cases target <;> rfl

/-- Targets are told apart by what stands in front of a space. -/
theorem render_append_inj {target other : Target} {r s : List Char}
    (h : target.wellFormed = true) (h' : other.wellFormed = true)
    (htext : target.render.toList ++ ' ' :: r = other.render.toList ++ ' ' :: s) :
    target = other ∧ r = s := by
  rw [toList_render, toList_render] at htext
  have hstop (text : List Char) : Expression.Stopped (' ' :: text) :=
    ⟨' ', List.mem_cons_self, text, rfl⟩
  obtain ⟨htarget, hrest⟩ :=
    (Expression.legible _ (target.asExpression_wellFormed.trans h)).operand
      (other.asExpression_wellFormed.trans h') (hstop r) (hstop s) htext
  exact ⟨asExpression_injective htarget, (List.cons.inj hrest).2⟩

end Target

namespace Statement

/-! ## Trees with plain names -/

mutual

/-- Whether all names in a statement are words, and its chains are well-formed. -/
def wellFormed : Statement → Bool
  | block body => wellFormedList body
  | assignment target value => target.wellFormed && value.wellFormed
  | call function arguments => isWord function && Expression.wellFormedList arguments
  | bodyCall function arguments body =>
    isWord function && Expression.wellFormedList arguments && wellFormedList body
  | conditional condition body otherwise =>
    condition.wellFormed && wellFormedList body && wellFormedOption otherwise
  | label name => isWord name

/-- Whether all statements are well-formed. -/
def wellFormedList : List Statement → Bool
  | [] => true
  | s :: rest => wellFormed s && wellFormedList rest

/-- Whether all statements of an alternative are well-formed. -/
def wellFormedOption : Option (List Statement) → Bool
  | none => true
  | some body => wellFormedList body

end

mutual

/-- A well-formed statement can be printed. -/
theorem complete_of_wellFormed (s : Statement) (h : s.wellFormed = true) : s.complete = true := by
  match s with
  | block body => exact completeList_of_wellFormedList body h
  | assignment _ value =>
    simp only [wellFormed, Bool.and_eq_true] at h
    exact value.complete_of_wellFormed h.2
  | call _ arguments =>
    simp only [wellFormed, Bool.and_eq_true] at h
    exact Expression.completeList_of_wellFormedList arguments h.2
  | bodyCall _ arguments body =>
    simp only [wellFormed, Bool.and_eq_true] at h
    rw [complete, Expression.completeList_of_wellFormedList arguments h.1.2,
      completeList_of_wellFormedList body h.2]
    rfl
  | conditional condition body otherwise =>
    simp only [wellFormed, Bool.and_eq_true] at h
    rw [complete, condition.complete_of_wellFormed h.1.1,
      completeList_of_wellFormedList body h.1.2,
      completeOption_of_wellFormedOption otherwise h.2]
    rfl
  | label _ => rfl

/-- Well-formed statements can be printed. -/
theorem completeList_of_wellFormedList (tree : List Statement) (h : wellFormedList tree = true) :
    completeList tree = true := by
  match tree with
  | [] => rfl
  | s :: rest =>
    simp only [wellFormedList, Bool.and_eq_true] at h
    rw [completeList, complete_of_wellFormed s h.1, completeList_of_wellFormedList rest h.2]
    rfl

/-- A well-formed alternative can be printed. -/
theorem completeOption_of_wellFormedOption (otherwise : Option (List Statement))
    (h : wellFormedOption otherwise = true) : completeOption otherwise = true := by
  match otherwise with
  | none => rfl
  | some body => exact completeList_of_wellFormedList body h

end

/-! ## Statements in characters -/

/-- The spaces in front of a line. -/
def indentation (depth : Nat) : List Char := (String.join (List.replicate depth "    ")).toList

theorem eq_space_of_mem_indentation {depth : Nat} {c : Char} (h : c ∈ indentation depth) :
    c = ' ' := by
  induction depth with
  | zero => simp [indentation] at h
  | succ depth ih =>
    simp only [indentation, String.toList_join, List.replicate_succ, List.flatMap_cons,
      List.mem_append] at h
    obtain h | h := h
    · simpa using h
    · exact ih (by rwa [indentation, String.toList_join])

theorem toList_line (depth : Nat) (text : String) :
    (line depth text).toList = indentation depth ++ (text.toList ++ ['\n']) := by
  simp only [line, String.toList_append, indentation, List.append_assoc]
  rfl

/-- The characters of a statement. -/
def spelled (depth : Nat) (s : Statement) : List Char := (render depth s).toList

/-- The characters of statements one after the other. -/
def spelledList (depth : Nat) (tree : List Statement) : List Char := (renderAll depth tree).toList

/-- The characters that end a body. -/
def closing (depth : Nat) : List Char := indentation depth ++ ['\x7d', '\n']

/-- The characters that end a conditional. -/
def spelledOtherwise (depth : Nat) (otherwise : Option (List Statement)) : List Char :=
  (renderOtherwise depth otherwise).toList

/-- The characters of a body in braces. -/
def spelledBody (depth : Nat) (body : List Statement) : List Char :=
  '\x7b' :: '\n' :: (spelledList (depth + 1) body ++ closing depth)

/-- The characters of a statement behind its indentation. -/
def unindented (depth : Nat) : Statement → List Char
  | block body => spelledBody depth body
  | assignment target value =>
    target.render.toList ++ ' ' :: '=' :: ' ' :: (value.spelled ++ [';', '\n'])
  | call function arguments =>
    function.toList ++ '(' :: (Expression.spelledArguments arguments ++ ')' :: [';', '\n'])
  | bodyCall function arguments body =>
    function.toList ++ '(' :: (Expression.spelledArguments arguments
      ++ ')' :: ' ' :: spelledBody depth body)
  | conditional condition body otherwise =>
    "if".toList ++ ' ' :: '(' :: (condition.spelled
      ++ ')' :: ' ' :: '\x7b' :: '\n'
        :: (spelledList (depth + 1) body ++ spelledOtherwise depth otherwise))
  | label name => ':' :: (name.toList ++ ['\n'])

theorem spelled_eq (depth : Nat) (s : Statement) :
    spelled depth s = indentation depth ++ unindented depth s := by
  cases s <;>
    simp [spelled, render, toList_line, unindented, spelledBody, closing, spelledList,
      spelledOtherwise, Expression.toList_renderCall, Expression.spelled]

/-! ## What the first characters tell -/

/-- What a statement is, as far as its first characters tell. -/
inductive Lead where
  | block
  | assignment
  | call
  | conditional
  | label
deriving DecidableEq

/-- What a statement begins with. -/
def lead : Statement → Lead
  | block _ => .block
  | assignment .. => .assignment
  | call .. | bodyCall .. => .call
  | conditional .. => .conditional
  | label _ => .label

/-- What begins with a character that is in no word. -/
def leadOfSign : Char → Option Lead
  | '\x7b' => some .block
  | '$' | '&' => some .assignment
  | ':' => some .label
  | _ => none

/-- What begins with a word, by the characters behind it. -/
def leadBehindWord : List Char → Lead
  | '(' :: _ => .call
  | ' ' :: _ => .conditional
  | _ => .assignment

/-- What statement a text begins with. -/
def leadOf : List Char → Option Lead := beginning leadOfSign leadBehindWord

theorem leadOf_target {target : Target} (h : target.wellFormed = true) (rest : List Char) :
    leadOf (target.render.toList ++ rest) = some .assignment := by
  have hkind (kind : FlagKind) (more : List Char) :
      leadOf (kind.name.toList ++ ':' :: more) = some .assignment :=
    beginning_word (isWord_flagKind kind) (by decide) more
  rw [target.toList_render]
  match target with
  | .var (.special name) =>
    rw [Target.asExpression, Expression.spelledOperand_special]
    exact beginning_sign (by decide) _
  | .var (.flag kind id) =>
    rw [Target.asExpression, Expression.spelledOperand_flag, List.append_assoc]
    exact hkind kind _
  | .flagPointer kind id =>
    rw [Target.asExpression, Expression.spelledOperand_flagPointer, List.append_assoc]
    exact hkind kind _
  | .pointer value =>
    rw [Target.asExpression, Expression.spelledOperand_pointer]
    exact beginning_sign (by decide) _

/-- The first characters behind the indentation tell what a statement is. -/
theorem leadOf_unindented {s : Statement} (hs : s.wellFormed = true) (depth : Nat)
    (rest : List Char) : leadOf (s.unindented depth ++ rest) = some s.lead := by
  match s with
  | block body => exact beginning_sign (c := '\x7b') (by decide) _
  | assignment target value =>
    simp only [wellFormed, Bool.and_eq_true] at hs
    rw [unindented, List.append_assoc]
    exact leadOf_target hs.1 _
  | call function arguments =>
    simp only [wellFormed, Bool.and_eq_true] at hs
    rw [unindented, List.append_assoc]
    exact beginning_word hs.1 (by decide) _
  | bodyCall function arguments body =>
    simp only [wellFormed, Bool.and_eq_true] at hs
    rw [unindented, List.append_assoc]
    exact beginning_word hs.1.1 (by decide) _
  | conditional condition body otherwise =>
    rw [unindented, List.append_assoc]
    exact beginning_word (by decide) (by decide) _
  | label name => exact beginning_sign (c := ':') (by decide) _

/-! ## Lines that close a body -/

/-- The text ends, or goes on with a closing brace. -/
def Closes (text : List Char) : Prop := ∀ c ∈ (text.dropWhile (· == ' ')).head?, c = '\x7d'

theorem closes_nil : Closes [] := by simp [Closes]

theorem dropWhile_indentation (depth : Nat) (rest : List Char) :
    (indentation depth ++ rest).dropWhile (· == ' ') = rest.dropWhile (· == ' ') :=
  List.dropWhile_append_of_pos fun c hc => by simp [eq_space_of_mem_indentation hc]

theorem closes_brace (depth : Nat) (rest : List Char) :
    Closes (indentation depth ++ '\x7d' :: rest) := by
  intro c hc
  rw [dropWhile_indentation] at hc
  simpa using hc.symm

/-- No statement closes a body. -/
theorem not_closes_spelled {s : Statement} (hs : s.wellFormed = true) (depth : Nat)
    (rest : List Char) : ¬ Closes (spelled depth s ++ rest) := by
  intro h
  have hlead := leadOf_unindented hs depth rest
  rw [spelled_eq, List.append_assoc, Closes, dropWhile_indentation] at h
  cases htext : s.unindented depth ++ rest with
  | nil => simp [htext, leadOf, beginning] at hlead
  | cons c more =>
    rw [htext] at hlead h
    by_cases hspace : c = ' '
    · subst hspace
      rw [leadOf, beginning_sign (by decide)] at hlead
      exact absurd hlead (by simp [leadOfSign])
    · obtain rfl : c = '\x7d' := h c (by simp [hspace])
      rw [leadOf, beginning_sign (by decide)] at hlead
      exact absurd hlead (by simp [leadOfSign])

/-! ## Statements are told apart -/

/-- In front of what closes a body, no other statements are spelled like these. -/
def LegibleList (depth : Nat) (tree : List Statement) : Prop :=
  ∀ {others : List Statement} {r s : List Char}, wellFormedList others = true → Closes r →
    Closes s → spelledList depth tree ++ r = spelledList depth others ++ s → tree = others ∧ r = s

theorem body_append_inj {depth : Nat} {body others : List Statement} {r s : List Char}
    (h : LegibleList (depth + 1) body) (hothers : wellFormedList others = true)
    (htext : spelledBody depth body ++ r = spelledBody depth others ++ s) :
    body = others ∧ r = s := by
  simp only [spelledBody, closing, List.cons_append, List.append_assoc, List.cons.injEq,
    true_and] at htext
  obtain ⟨hbody, hrest⟩ := h hothers (closes_brace depth _) (closes_brace depth _) htext
  exact ⟨hbody, by simpa using hrest⟩

theorem spelledOtherwise_none (depth : Nat) : spelledOtherwise depth none = closing depth := by
  simp [spelledOtherwise, renderOtherwise, toList_line, closing]

theorem spelledOtherwise_some (depth : Nat) (body : List Statement) :
    spelledOtherwise depth (some body)
      = indentation depth ++ '\x7d' :: (" else ".toList ++ spelledBody depth body) := by
  simp [spelledOtherwise, renderOtherwise, toList_line, spelledBody, closing, spelledList]

theorem spelledList_nil (depth : Nat) : spelledList depth [] = [] := rfl

theorem spelledList_cons (depth : Nat) (s : Statement) (rest : List Statement) :
    spelledList depth (s :: rest) = spelled depth s ++ spelledList depth rest := by
  rw [spelledList, renderAll, String.toList_append, spelled, spelledList]

theorem closes_otherwise (depth : Nat) (otherwise : Option (List Statement)) (rest : List Char) :
    Closes (spelledOtherwise depth otherwise ++ rest) := by
  cases otherwise with
  | none =>
    rw [spelledOtherwise_none, closing, List.append_assoc]
    exact closes_brace depth _
  | some body =>
    rw [spelledOtherwise_some, List.append_assoc]
    exact closes_brace depth _

mutual

/-- No two well-formed statements are printed alike. -/
theorem spelled_append_inj (depth : Nat) (x : Statement) (hx : x.wellFormed = true)
    {y : Statement} {r s : List Char} (hy : y.wellFormed = true)
    (h : spelled depth x ++ r = spelled depth y ++ s) : x = y ∧ r = s := by
  rw [spelled_eq, spelled_eq, List.append_assoc, List.append_assoc, List.append_cancel_left_eq] at h
  have hlead : y.lead = x.lead := by
    have hlead := leadOf_unindented hx depth r
    rw [h, leadOf_unindented hy depth s] at hlead
    exact Option.some.inj hlead
  match x with
  | block body =>
    unfold lead at hlead
    split at hlead <;> cases hlead
    obtain ⟨rfl, hrest⟩ := body_append_inj (spelledList_append_inj (depth + 1) body hx) hy h
    exact ⟨rfl, hrest⟩
  | assignment target value =>
    unfold lead at hlead
    split at hlead <;> cases hlead
    simp only [wellFormed, Bool.and_eq_true] at hx hy
    simp only [unindented, List.append_assoc, List.cons_append, List.nil_append] at h
    obtain ⟨rfl, hvalue⟩ := Target.render_append_inj hx.1 hy.1 h
    have hend (rest : List Char) : Expression.Ended (';' :: '\n' :: rest) :=
      ⟨';', by simp [Expression.ends], _, rfl⟩
    obtain ⟨rfl, hrest⟩ :=
      (value.legible hx.2).whole hy.2 (hend r) (hend s) (List.cons.inj (List.cons.inj hvalue).2).2
    exact ⟨rfl, by simpa using hrest⟩
  | call function arguments =>
    simp only [wellFormed, Bool.and_eq_true, Expression.wellFormedList_iff] at hx
    have hlegible := Expression.legibleList arguments hx.2
    unfold lead at hlead
    split at hlead <;> cases hlead <;>
      simp only [wellFormed, Bool.and_eq_true, Expression.wellFormedList_iff] at hy <;>
      simp only [unindented, List.append_assoc, List.cons_append, List.nil_append] at h
    · obtain ⟨rfl, rfl, hrest⟩ := Expression.call_append_inj hx.1 hy.1 hlegible hx.2 hy.2 h
      exact ⟨rfl, by simpa using hrest⟩
    · -- what stands behind the arguments tells whether a body follows
      obtain ⟨-, -, hrest⟩ := Expression.call_append_inj hx.1 hy.1.1 hlegible hx.2 hy.1.2 h
      exact absurd (List.cons.inj hrest).1 (by decide)
  | bodyCall function arguments body =>
    simp only [wellFormed, Bool.and_eq_true, Expression.wellFormedList_iff] at hx
    have hlegible := Expression.legibleList arguments hx.1.2
    unfold lead at hlead
    split at hlead <;> cases hlead <;>
      simp only [wellFormed, Bool.and_eq_true, Expression.wellFormedList_iff] at hy <;>
      simp only [unindented, List.append_assoc, List.cons_append, List.nil_append] at h
    · obtain ⟨-, -, hrest⟩ := Expression.call_append_inj hx.1.1 hy.1 hlegible hx.1.2 hy.2 h
      exact absurd (List.cons.inj hrest).1 (by decide)
    · obtain ⟨rfl, rfl, hbody⟩ :=
        Expression.call_append_inj hx.1.1 hy.1.1 hlegible hx.1.2 hy.1.2 h
      obtain ⟨rfl, hrest⟩ := body_append_inj (spelledList_append_inj (depth + 1) body hx.2) hy.2
        (List.cons.inj hbody).2
      exact ⟨rfl, hrest⟩
  | conditional condition body otherwise =>
    unfold lead at hlead
    split at hlead <;> cases hlead
    simp only [wellFormed, Bool.and_eq_true] at hx hy
    simp only [unindented, List.append_assoc, List.cons_append, List.append_cancel_left_eq,
      List.cons.injEq, true_and] at h
    have hend (rest : List Char) : Expression.Ended (')' :: rest) :=
      ⟨')', by simp [Expression.ends], _, rfl⟩
    obtain ⟨rfl, hbody⟩ := (condition.legible hx.1.1).whole hy.1.1 (hend _) (hend _) h
    simp only [List.cons.injEq, true_and] at hbody
    obtain ⟨rfl, hotherwise⟩ := spelledList_append_inj (depth + 1) body hx.1.2 hy.1.2
      (closes_otherwise depth _ _) (closes_otherwise depth _ _) hbody
    obtain ⟨rfl, hrest⟩ := spelledOtherwise_append_inj depth otherwise hx.2 hy.2 hotherwise
    exact ⟨rfl, hrest⟩
  | label name =>
    unfold lead at hlead
    split at hlead <;> cases hlead
    simp only [unindented, List.append_assoc, List.cons_append, List.nil_append] at h
    obtain ⟨rfl, hrest⟩ := word_append_inj hx hy (by decide) (by decide) (List.cons.inj h).2
    exact ⟨rfl, (List.cons.inj hrest).2⟩

/-- No two lists of well-formed statements are printed alike. -/
theorem spelledList_append_inj (depth : Nat) (tree : List Statement)
    (htree : wellFormedList tree = true) : LegibleList depth tree := by
  intro others r s hothers hr hs h
  match tree, others with
  | [], [] => exact ⟨rfl, h⟩
  | [], y :: ys =>
    simp only [wellFormedList, Bool.and_eq_true] at hothers
    rw [spelledList_nil, spelledList_cons, List.nil_append, List.append_assoc] at h
    exact absurd (h ▸ hr) (not_closes_spelled hothers.1 depth _)
  | x :: xs, [] =>
    simp only [wellFormedList, Bool.and_eq_true] at htree
    rw [spelledList_nil, spelledList_cons, List.nil_append, List.append_assoc] at h
    exact absurd (h ▸ hs) (not_closes_spelled htree.1 depth _)
  | x :: xs, y :: ys =>
    simp only [wellFormedList, Bool.and_eq_true] at htree hothers
    rw [spelledList_cons, spelledList_cons, List.append_assoc, List.append_assoc] at h
    obtain ⟨rfl, hmore⟩ := spelled_append_inj depth x htree.1 hothers.1 h
    obtain ⟨rfl, hrest⟩ := spelledList_append_inj depth xs htree.2 hothers.2 hr hs hmore
    exact ⟨rfl, hrest⟩

/-- No two alternatives are printed alike. -/
theorem spelledOtherwise_append_inj (depth : Nat) (otherwise : Option (List Statement))
    (hotherwise : wellFormedOption otherwise = true) {other : Option (List Statement)}
    {r s : List Char} (hother : wellFormedOption other = true)
    (h : spelledOtherwise depth otherwise ++ r = spelledOtherwise depth other ++ s) :
    otherwise = other ∧ r = s := by
  match otherwise, other with
  | none, none =>
    rw [spelledOtherwise_none, List.append_cancel_left_eq] at h
    exact ⟨rfl, h⟩
  | none, some body =>
    simp only [spelledOtherwise_none, spelledOtherwise_some, closing, List.append_assoc,
      List.cons_append, List.append_cancel_left_eq, List.cons.injEq, true_and] at h
    exact absurd (congrArg List.head? h) (by simp)
  | some body, none =>
    simp only [spelledOtherwise_none, spelledOtherwise_some, closing, List.append_assoc,
      List.cons_append, List.append_cancel_left_eq, List.cons.injEq, true_and] at h
    exact absurd (congrArg List.head? h) (by simp)
  | some body, some others =>
    simp only [spelledOtherwise_some, List.append_assoc, List.cons_append,
      List.append_cancel_left_eq, List.cons.injEq, true_and] at h
    obtain ⟨rfl, hrest⟩ :=
      body_append_inj (spelledList_append_inj (depth + 1) body hotherwise) hother h
    exact ⟨rfl, hrest⟩

end

end Statement

/-- Trees whose names are words and whose chains lack nothing are printed, and no two of them
alike. -/
theorem printStatements_unambiguous {tree other : List Statement}
    (htree : Statement.wellFormedList tree = true)
    (hother : Statement.wellFormedList other = true) :
    ∃ text text', printStatements tree = some text ∧ printStatements other = some text'
      ∧ (text = text' ↔ tree = other) := by
  have hprinted {tree : List Statement} (h : Statement.wellFormedList tree = true) :
      printStatements tree = some (Statement.renderAll 0 tree) :=
    if_pos (Statement.completeList_of_wellFormedList tree h)
  refine ⟨_, _, hprinted htree, hprinted hother, fun htext => ?_, fun h => h ▸ rfl⟩
  have hspelled : Statement.spelledList 0 tree ++ [] = Statement.spelledList 0 other ++ [] := by
    rw [Statement.spelledList, htext, Statement.spelledList]
  exact (Statement.spelledList_append_inj 0 tree htree hother Statement.closes_nil
    Statement.closes_nil hspelled).1

/-- A call in front of a block. -/
def callThenBlock : List Statement :=
  [.call "f" [.operation [.integer 1, .integer (-2), .var (.flag .flag 3)] ["-", "*"]],
    .block [.label "top"]]

/-- A call with a body, and one chain inside the other. -/
def callWithBody : List Statement :=
  [.bodyCall "f" [.operation [.integer 1, .operation [.integer (-2), .var (.flag .flag 3)] ["*"]]
    ["-"]] [.label "top"]]

theorem printStatements_unambiguous_callThenBlock :
    ∃ text text', printStatements callThenBlock = some text
      ∧ printStatements callWithBody = some text' ∧ text ≠ text' := by
  have htree : Statement.wellFormedList callThenBlock = true := by decide
  have hother : Statement.wellFormedList callWithBody = true := by decide
  obtain ⟨text, text', htext, htext', hiff⟩ := printStatements_unambiguous htree hother
  exact ⟨text, text', htext, htext', fun h => absurd (hiff.mp h) (by decide)⟩

end NovelScript
