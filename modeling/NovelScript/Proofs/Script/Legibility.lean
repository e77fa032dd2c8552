import NovelScript.Proofs.Script.Spelling

/-!
# Printed expressions are told apart

In a printed text an operand can be told from its first characters (`leadOf_spelledOperand`): names
and numbers are words, and any other part begins with a sign that it alone begins with.  Where an
operand ends is then given by what it is, or by the character behind its last name or number.  So
two operands that stand in front of the same text are equal (`Expression.Legible.operand`), and so
are two expressions (`Expression.Legible.whole`), by induction over the tree
(`Expression.legible`).
-/

namespace NovelScript

/-! ## What the first characters tell -/

/-- What a text begins with, told by its first character, or by what stands behind a first word. -/
def beginning {α : Type} (sign : Char → Option α) (behindWord : List Char → α)
    (text : List Char) : Option α :=
  if (text.takeWhile isWordChar).isEmpty then text.head?.bind sign
  else some (behindWord (text.dropWhile isWordChar))

section

variable {α : Type} {sign : Char → Option α} {behindWord : List Char → α}

theorem beginning_sign {c : Char} (h : isWordChar c = false) (rest : List Char) :
    beginning sign behindWord (c :: rest) = sign c := by
  simp [beginning, h]

theorem beginning_word {name : String} {c : Char} (h : isWord name = true)
    (hc : isWordChar c = false) (rest : List Char) :
    beginning sign behindWord (name.toList ++ c :: rest) = some (behindWord (c :: rest)) := by
  rw [beginning, List.takeWhile_append_of_pos (wordChars_of_isWord h),
    List.dropWhile_append_of_pos (wordChars_of_isWord h)]
  simp [hc, toList_ne_nil_of_isWord h]

end

namespace Expression

/-- What an operand is, as far as its first characters tell. -/
inductive Lead where
  | number
  | pointer
  | quotation
  | key
  | special
  | flag
  | flagPointer
  | chain
  | call
  | label
deriving DecidableEq

/-- What an operand begins with. -/
def lead : Expression → Lead
  | integer _ => .number
  | pointer _ => .pointer
  | text (.plain _) => .quotation
  | text (.external _) => .key
  | var (.special _) => .special
  | var (.flag ..) => .flag
  | flagPointer .. => .flagPointer
  | operation .. => .chain
  | call .. => .call
  | labelRef _ => .label

/-- What begins with a character that is in no word. -/
def leadOfSign : Char → Option Lead
  | '-' => some .number
  | '&' => some .pointer
  | '"' => some .quotation
  | '@' => some .key
  | '$' => some .special
  | '(' => some .chain
  | ':' => some .label
  | _ => none

/-- What begins with a word, by the characters behind it. -/
def leadBehindWord : List Char → Lead
  | '(' :: _ => .call
  | ':' :: '&' :: _ => .flagPointer
  | ':' :: _ => .flag
  | _ => .number

/-- What operand a text begins with. -/
def leadOf : List Char → Option Lead := beginning leadOfSign leadBehindWord

theorem leadBehindWord_colon {rest : List Char} (h : ∀ more, rest ≠ '&' :: more) :
    leadBehindWord (':' :: rest) = .flag := by
  unfold leadBehindWord
  split <;> simp_all

/-- What stands behind an expression. -/
def ends : List Char := [',', ')', ';']

/-- The text goes on behind an expression. -/
def Ended (text : List Char) : Prop := ∃ c ∈ ends, ∃ rest, text = c :: rest

/-- The text goes on behind an operand or a name. -/
def Stopped (text : List Char) : Prop := ∃ c ∈ ' ' :: '\n' :: ends, ∃ rest, text = c :: rest

theorem Ended.stopped {text : List Char} (h : Ended text) : Stopped text := by
  obtain ⟨c, hc, hrest⟩ := h
  exact ⟨c, List.mem_cons_of_mem _ (List.mem_cons_of_mem _ hc), hrest⟩

theorem stop_spec {c : Char} (h : c ∈ ' ' :: '\n' :: ends) :
    isWordChar c = false ∧ isNumberChar c = false
      ∧ ∀ rest, leadBehindWord (c :: rest) = .number := by
  simp only [ends, List.mem_cons, List.not_mem_nil, or_false] at h
  obtain rfl | rfl | rfl | rfl | rfl := h <;> exact ⟨by decide, by decide, fun _ => rfl⟩

/-- The first characters tell what an operand is. -/
theorem leadOf_spelledOperand {e : Expression} (he : e.wellFormed = true) {rest : List Char}
    (hrest : Stopped rest) : leadOf (e.spelledOperand ++ rest) = some e.lead := by
  obtain ⟨c, hc, rest, rfl⟩ := hrest
  obtain ⟨hword, -, hlead⟩ := stop_spec hc
  match e with
  | integer v =>
    rw [spelledOperand_integer]
    obtain ⟨n, hn⟩ | ⟨n, hn⟩ := toList_toString_int32 v <;> rw [hn]
    · rw [leadOf, beginning_word (isWord_repr n) hword, hlead, lead]
    · exact beginning_sign (c := '-') (by decide) _
  | pointer v =>
    rw [spelledOperand_pointer]
    exact beginning_sign (by decide) _
  | text (.plain t) =>
    rw [spelledOperand_plain]
    exact beginning_sign (c := '"') (by decide) _
  | text (.external key) =>
    rw [spelledOperand_external]
    exact beginning_sign (by decide) _
  | var (.special name) =>
    rw [spelledOperand_special]
    exact beginning_sign (by decide) _
  | var (.flag kind id) =>
    rw [spelledOperand_flag, List.append_assoc, List.cons_append, leadOf,
      beginning_word (isWord_flagKind kind) (by decide),
      leadBehindWord_colon (toString_append_ne_amp id _), lead]
  | flagPointer kind id =>
    rw [spelledOperand_flagPointer, List.append_assoc, List.cons_append, leadOf,
      beginning_word (isWord_flagKind kind) (by decide)]
    rfl
  | operation .. =>
    exact beginning_sign (c := '(') (by decide) _
  | call function arguments =>
    simp only [wellFormed, Bool.and_eq_true] at he
    rw [spelledOperand_call, List.append_assoc, List.cons_append, leadOf,
      beginning_word he.1 (by decide)]
    rfl
  | labelRef name =>
    rw [spelledOperand_labelRef]
    exact beginning_sign (by decide) _

/-! ## Operands are told apart -/

/-- In front of the same text, no other operand is spelled like this one. -/
def LegibleOperand (e : Expression) : Prop :=
  ∀ {f : Expression} {r s : List Char}, f.wellFormed = true → Stopped r → Stopped s →
    e.spelledOperand ++ r = f.spelledOperand ++ s → e = f ∧ r = s

/-- In front of the same text, no other expression is spelled like this one, be it as an operand or
as a whole. -/
structure Legible (e : Expression) : Prop where
  operand : e.LegibleOperand
  whole : ∀ {f : Expression} {r s : List Char}, f.wellFormed = true → Ended r → Ended s →
    e.spelled ++ r = f.spelled ++ s → e = f ∧ r = s

theorem stopped_later (later : List (String × Expression)) {r : List Char} (hr : Ended r) :
    Stopped (spelledLater later ++ r) := by
  cases later with
  | nil => exact hr.stopped
  | cons link later => exact ⟨' ', List.mem_cons_self, _, rfl⟩

/-- Operators are told apart, since there is no space in them. -/
theorem operator_append_inj {operator other : String} {r s : List Char}
    (ho : isOperator operator = true) (ho' : isOperator other = true)
    (h : operator.toList ++ ' ' :: r = other.toList ++ ' ' :: s) : operator = other ∧ r = s := by
  have hspace : ∀ o ∈ operators, ∀ c ∈ o.toList, (c != ' ') = true := by
    simp [operators]
  obtain ⟨htext, hrest⟩ := run_append_inj (hspace _ (List.contains_iff_mem.mp ho))
    (hspace _ (List.contains_iff_mem.mp ho')) rfl rfl h
  exact ⟨String.toList_inj.mp htext, (List.cons.inj hrest).2⟩

theorem later_append_inj {later others : List (String × Expression)} {r s : List Char}
    (h : ∀ link ∈ later, isOperator link.1 = true ∧ link.2.LegibleOperand)
    (h' : ∀ link ∈ others, isOperator link.1 = true ∧ link.2.wellFormed = true)
    (hr : Ended r) (hs : Ended s) (htext : spelledLater later ++ r = spelledLater others ++ s) :
    later = others ∧ r = s := by
  have hspace {r s : List Char} (hr : Ended r) : r ≠ ' ' :: s := by
    obtain ⟨c, hc, rest, rfl⟩ := hr
    rintro h
    rw [(List.cons.inj h).1] at hc
    exact absurd hc (by decide)
  induction later generalizing others with
  | nil =>
    cases others with
    | nil => exact ⟨rfl, htext⟩
    | cons _ _ => exact absurd htext (hspace hr)
  | cons link later ih =>
    cases others with
    | nil => exact absurd htext.symm (hspace hs)
    | cons other others =>
      obtain ⟨⟨ho, hlegible⟩, hlater⟩ := List.forall_mem_cons.mp h
      obtain ⟨⟨ho', hwell⟩, hothers⟩ := List.forall_mem_cons.mp h'
      simp only [spelledLater, List.flatMap_cons, List.cons_append, List.append_assoc,
        List.cons.injEq, true_and] at htext
      obtain ⟨hoperator, htext⟩ := operator_append_inj ho ho' htext
      obtain ⟨hoperand, htext⟩ := hlegible hwell (stopped_later _ hr) (stopped_later _ hs) htext
      obtain ⟨rfl, hrest⟩ := ih hlater hothers htext
      exact ⟨by rw [Prod.ext hoperator hoperand], hrest⟩

/-- An expression is told apart if its operands are. -/
theorem whole_of_operands {e f : Expression} {r s : List Char} (he : e.wellFormed = true)
    (hfirst : e.first.LegibleOperand) (hlater : ∀ link ∈ e.later, link.2.LegibleOperand)
    (hf : f.wellFormed = true) (hr : Ended r) (hs : Ended s)
    (h : e.spelled ++ r = f.spelled ++ s) : e = f ∧ r = s := by
  rw [spelled_eq_first_later he, spelled_eq_first_later hf, List.append_assoc,
    List.append_assoc] at h
  obtain ⟨hfirsts, h⟩ := hfirst (first_wellFormed hf) (stopped_later _ hr) (stopped_later _ hs) h
  obtain ⟨hlaters, hrest⟩ := later_append_inj
    (fun link hlink => ⟨(later_wellFormed he hlink).1, hlater link hlink⟩)
    (fun link hlink => later_wellFormed hf hlink) hr hs h
  exact ⟨eq_of_first_later he hf hfirsts hlaters, hrest⟩

/-- Operands that are spelled alike begin alike. -/
theorem lead_eq {e f : Expression} {r s : List Char} (he : e.wellFormed = true)
    (hf : f.wellFormed = true) (hr : Stopped r) (hs : Stopped s)
    (h : e.spelledOperand ++ r = f.spelledOperand ++ s) : f.lead = e.lead := by
  have hlead := leadOf_spelledOperand he hr
  rw [h, leadOf_spelledOperand hf hs] at hlead
  exact Option.some.inj hlead

/-- No text of an expression begins with what closes a call. -/
theorem spelled_append_ne_close {e : Expression} {r s : List Char} (he : e.wellFormed = true)
    (hr : Ended r) : e.spelled ++ r ≠ ')' :: s := by
  intro h
  rw [spelled_eq_first_later he, List.append_assoc] at h
  have hlead := leadOf_spelledOperand (first_wellFormed he) (stopped_later e.later hr)
  rw [h, leadOf, beginning_sign (by decide)] at hlead
  exact absurd hlead (by simp [leadOfSign])

/-! ### Calls -/

theorem ended_more (arguments : List Expression) (r : List Char) :
    Ended (spelledMore arguments ++ ')' :: r) := by
  cases arguments with
  | nil => exact ⟨')', by simp [ends], _, rfl⟩
  | cons x rest => exact ⟨',', List.mem_cons_self, _, rfl⟩

theorem more_append_inj {xs ys : List Expression} {r s : List Char} (hxs : ∀ x ∈ xs, x.Legible)
    (hys : ∀ y ∈ ys, y.wellFormed = true)
    (h : spelledMore xs ++ ')' :: r = spelledMore ys ++ ')' :: s) : xs = ys ∧ r = s := by
  induction xs generalizing ys with
  | nil =>
    cases ys with
    | nil => exact ⟨rfl, (List.cons.inj h).2⟩
    | cons _ _ => exact absurd (List.cons.inj h).1 (by decide)
  | cons x xs ih =>
    cases ys with
    | nil => exact absurd (List.cons.inj h).1 (by decide)
    | cons y ys =>
      obtain ⟨hx, hmore⟩ := List.forall_mem_cons.mp hxs
      obtain ⟨hy, hmore'⟩ := List.forall_mem_cons.mp hys
      simp only [spelledMore, List.flatMap_cons, List.cons_append, List.append_assoc,
        List.cons.injEq, true_and] at h
      obtain ⟨rfl, hrest⟩ := hx.whole hy (ended_more xs r) (ended_more ys s) h
      obtain ⟨rfl, hend⟩ := ih hmore hmore' hrest
      exact ⟨rfl, hend⟩

theorem arguments_append_inj {xs ys : List Expression} {r s : List Char}
    (hxs : ∀ x ∈ xs, x.Legible) (hwell : ∀ x ∈ xs, x.wellFormed = true)
    (hys : ∀ y ∈ ys, y.wellFormed = true)
    (h : spelledArguments xs ++ ')' :: r = spelledArguments ys ++ ')' :: s) : xs = ys ∧ r = s := by
  match xs, ys with
  | [], [] => exact ⟨rfl, (List.cons.inj h).2⟩
  | [], y :: ys =>
    rw [spelledArguments, spelledArguments, List.append_assoc] at h
    exact absurd h.symm (spelled_append_ne_close (hys y List.mem_cons_self) (ended_more ys s))
  | x :: xs, [] =>
    rw [spelledArguments, spelledArguments, List.append_assoc] at h
    exact absurd h (spelled_append_ne_close (hwell x List.mem_cons_self) (ended_more xs r))
  | x :: xs, y :: ys =>
    obtain ⟨hx, hmore⟩ := List.forall_mem_cons.mp hxs
    obtain ⟨hy, hmore'⟩ := List.forall_mem_cons.mp hys
    rw [spelledArguments, spelledArguments, List.append_assoc, List.append_assoc] at h
    obtain ⟨rfl, hrest⟩ := hx.whole hy (ended_more xs r) (ended_more ys s) h
    obtain ⟨rfl, hend⟩ := more_append_inj hmore hmore' hrest
    exact ⟨rfl, hend⟩

/-- Calls with legible arguments are told apart. -/
theorem call_append_inj {function other : String} {xs ys : List Expression} {r s : List Char}
    (hfunction : isWord function = true) (hother : isWord other = true)
    (hxs : ∀ x ∈ xs, x.Legible) (hwell : ∀ x ∈ xs, x.wellFormed = true)
    (hys : ∀ y ∈ ys, y.wellFormed = true)
    (h : function.toList ++ '(' :: (spelledArguments xs ++ ')' :: r)
      = other.toList ++ '(' :: (spelledArguments ys ++ ')' :: s)) :
    function = other ∧ xs = ys ∧ r = s := by
  obtain ⟨rfl, hrest⟩ := word_append_inj hfunction hother (by decide) (by decide) h
  exact ⟨rfl, arguments_append_inj hxs hwell hys (List.cons.inj hrest).2⟩

/-! ### All expressions -/

theorem legibleOperand_of_lead {e : Expression} (he : e.wellFormed = true)
    (hcall : e.lead ≠ .call) (hchain : e.lead ≠ .chain) : e.LegibleOperand := by
  intro f r s hf hr hs h
  have hlead := lead_eq he hf hr hs h
  obtain ⟨c, hc, r, rfl⟩ := hr
  obtain ⟨d, hd, s, rfl⟩ := hs
  obtain ⟨hcword, hcnumber, -⟩ := stop_spec hc
  obtain ⟨hdword, hdnumber, -⟩ := stop_spec hd
  cases e with
  | integer v =>
    unfold lead at hlead
    split at hlead <;> cases hlead
    obtain ⟨rfl, hrest⟩ := int32_append_inj hcnumber hdnumber h
    exact ⟨rfl, hrest⟩
  | pointer v =>
    unfold lead at hlead
    split at hlead <;> cases hlead
    rw [spelledOperand_pointer, spelledOperand_pointer] at h
    obtain ⟨rfl, hrest⟩ := int32_append_inj hcnumber hdnumber (List.cons.inj h).2
    exact ⟨rfl, hrest⟩
  | text literal =>
    cases literal with
    | plain t =>
      unfold lead at hlead
      split at hlead <;> cases hlead
      simp only [spelledOperand_plain, List.cons_append, List.append_assoc, List.nil_append] at h
      obtain ⟨htext, hrest⟩ := printedChars_append_inj (List.cons.inj h).2
      exact ⟨by rw [String.toList_inj.mp htext], hrest⟩
    | external key =>
      unfold lead at hlead
      split at hlead <;> cases hlead
      rw [spelledOperand_external, spelledOperand_external] at h
      obtain ⟨rfl, hrest⟩ := word_append_inj he hf hcword hdword (List.cons.inj h).2
      exact ⟨rfl, hrest⟩
  | var which =>
    cases which with
    | special name =>
      unfold lead at hlead
      split at hlead <;> cases hlead
      rw [spelledOperand_special, spelledOperand_special] at h
      obtain ⟨rfl, hrest⟩ := word_append_inj he hf hcword hdword (List.cons.inj h).2
      exact ⟨rfl, hrest⟩
    | flag kind id =>
      unfold lead at hlead
      split at hlead <;> cases hlead
      simp only [spelledOperand_flag, List.cons_append, List.append_assoc] at h
      obtain ⟨hkind, h⟩ := word_append_inj (isWord_flagKind kind) (isWord_flagKind _) (by decide)
        (by decide) h
      obtain ⟨rfl, hrest⟩ := int32_append_inj hcnumber hdnumber (List.cons.inj h).2
      exact ⟨by rw [flagKind_name_inj hkind], hrest⟩
  | flagPointer kind id =>
    unfold lead at hlead
    split at hlead <;> cases hlead
    simp only [spelledOperand_flagPointer, List.cons_append, List.append_assoc] at h
    obtain ⟨hkind, h⟩ := word_append_inj (isWord_flagKind kind) (isWord_flagKind _) (by decide)
      (by decide) h
    obtain ⟨rfl, hrest⟩ :=
      int32_append_inj hcnumber hdnumber (List.cons.inj (List.cons.inj h).2).2
    exact ⟨by rw [flagKind_name_inj hkind], hrest⟩
  | operation _ _ => exact absurd rfl hchain
  | call _ _ => exact absurd rfl hcall
  | labelRef name =>
    unfold lead at hlead
    split at hlead <;> cases hlead
    rw [spelledOperand_labelRef, spelledOperand_labelRef] at h
    obtain ⟨rfl, hrest⟩ := word_append_inj he hf hcword hdword (List.cons.inj h).2
    exact ⟨rfl, hrest⟩

/-- A single element or a call is told apart as a whole if it is as an operand. -/
theorem legible_of_operand {e : Expression} (h : e.LegibleOperand) (he : e.wellFormed = true)
    (hchain : e.isOperation = false) : e.Legible where
  operand := h
  whole := whole_of_operands he ((first_eq_self hchain).symm ▸ h)
    (by simp [(later_eq_nil_iff he).mpr hchain])

mutual

/-- No two well-formed expressions are printed alike. -/
theorem legible (e : Expression) (he : e.wellFormed = true) : e.Legible := by
  match e with
  | operation [] _ => simp [wellFormed_operation_iff] at he
  | operation (x :: rest) operators =>
    obtain ⟨-, -, -, hwell⟩ := wellFormed_operation_iff.mp he
    have hoperands := legibleList (x :: rest) hwell
    have hfirst : x.LegibleOperand := (hoperands x List.mem_cons_self).operand
    have hlater (link : String × Expression) (hlink : link ∈ operators.zip rest) :
        link.2.LegibleOperand :=
      (hoperands link.2 (List.mem_cons_of_mem x (List.of_mem_zip hlink).2)).operand
    refine ⟨fun {f r s} hf hr hs h => ?_, whole_of_operands he hfirst hlater⟩
    -- in parentheses a chain is a whole expression again
    have hlead := lead_eq he hf hr hs h
    unfold lead at hlead
    split at hlead <;> cases hlead
    simp only [spelledOperand, isOperation, if_true, List.cons_append, List.append_assoc,
      List.cons.injEq, true_and, List.nil_append] at h
    have hend (rest : List Char) : Ended (')' :: rest) := ⟨')', by simp [ends], rest, rfl⟩
    obtain ⟨heq, hrest⟩ := whole_of_operands he hfirst hlater hf (hend r) (hend s) h
    exact ⟨heq, (List.cons.inj hrest).2⟩
  | call function arguments =>
    refine legible_of_operand (fun {f r s} hf hr hs h => ?_) he rfl
    have hlead := lead_eq he hf hr hs h
    unfold lead at hlead
    split at hlead <;> cases hlead
    simp only [wellFormed, Bool.and_eq_true, wellFormedList_iff] at he hf
    simp only [spelledOperand_call, List.append_assoc, List.cons_append, List.nil_append] at h
    obtain ⟨rfl, rfl, hrest⟩ :=
      call_append_inj he.1 hf.1 (legibleList arguments he.2) he.2 hf.2 h
    exact ⟨rfl, hrest⟩
  | integer _ | pointer _ | text (.plain _) | text (.external _) | var (.special _)
  | var (.flag ..) | flagPointer .. | labelRef _ =>
    exact legible_of_operand (legibleOperand_of_lead he (by simp [lead]) (by simp [lead])) he rfl

/-- No two of well-formed expressions are printed alike. -/
theorem legibleList (xs : List Expression) (hxs : ∀ x ∈ xs, x.wellFormed = true) :
    ∀ x ∈ xs, x.Legible := by
  match xs with
  | [] => simp
  | y :: ys =>
    exact List.forall_mem_cons.mpr
      ⟨legible y (hxs y List.mem_cons_self),
        legibleList ys fun x hx => hxs x (List.mem_cons_of_mem y hx)⟩

end

end Expression
end NovelScript
