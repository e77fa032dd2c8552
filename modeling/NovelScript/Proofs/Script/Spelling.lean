import Mathlib
import NovelScript.Script.Printing

/-!
# How expressions are spelled

Names and numbers are printed as runs of characters of one kind, which end at the first character of
another kind (`run_append_inj`), and quotations escape the quote that would end them
(`printedChars_append_inj`).  An expression is spelled as its operands with the operators between
them (`Expression.spelled_eq_first_later`), and a chain is given by these
(`Expression.eq_of_first_later`).

All of this is for trees whose names are words and whose chains lack no operand or operator
(`Expression.wellFormed`).
-/

namespace NovelScript

/-- A character of names and numbers: a letter, a digit or an underscore. -/
def isWordChar (c : Char) : Bool := c.isAlphanum || c == '_'

/-- Whether a name is made of letters, digits and underscores. -/
def isWord (name : String) : Bool := !name.toList.isEmpty && name.toList.all isWordChar

/-! ## Trees with plain names -/

/-- Whether the key of a moved text is a word. -/
def TextLiteral.wellFormed : TextLiteral → Bool
  | plain _ => true
  | external key => isWord key

/-- Whether the name of a variable is a word. -/
def Variable.wellFormed : Variable → Bool
  | special name => isWord name
  | flag .. => true

/-- Whether the name in a target is a word. -/
def Target.wellFormed : Target → Bool
  | var which => which.wellFormed
  | flagPointer .. | pointer _ => true

namespace Expression

mutual

/-- Whether names are words, and chains have operators, each between two operands. -/
def wellFormed : Expression → Bool
  | text literal => literal.wellFormed
  | var which => which.wellFormed
  | operation operands operators =>
    !operators.isEmpty && operators.all isOperator && operands.length == operators.length + 1
      && wellFormedList operands
  | call function arguments => isWord function && wellFormedList arguments
  | labelRef name => isWord name
  | integer _ | pointer _ | flagPointer .. => true

/-- Whether all expressions are well-formed. -/
def wellFormedList : List Expression → Bool
  | [] => true
  | x :: xs => wellFormed x && wellFormedList xs

end

theorem wellFormedList_iff (xs : List Expression) :
    wellFormedList xs = true ↔ ∀ x ∈ xs, x.wellFormed = true := by
  induction xs with
  | nil => simp [wellFormedList]
  | cons x xs ih => simp [wellFormedList, ih]

theorem wellFormed_operation_iff {operands : List Expression} {operators : List String} :
    (operation operands operators).wellFormed = true
      ↔ operators ≠ [] ∧ (∀ o ∈ operators, isOperator o = true)
        ∧ operands.length = operators.length + 1 ∧ ∀ x ∈ operands, x.wellFormed = true := by
  simp [wellFormed, wellFormedList_iff, and_assoc]

mutual

/-- A well-formed expression can be printed. -/
theorem complete_of_wellFormed (e : Expression) (h : e.wellFormed = true) : e.complete = true := by
  match e with
  | operation operands operators =>
    simp only [wellFormed, Bool.and_eq_true, beq_iff_eq] at h
    simp [complete, h.1.2, completeList_of_wellFormedList operands h.2]
  | call _ arguments =>
    simp only [wellFormed, Bool.and_eq_true] at h
    rw [complete, completeList_of_wellFormedList arguments h.2]
  | integer _ | pointer _ | text _ | var _ | flagPointer .. | labelRef _ => simp only [complete]

/-- Well-formed expressions can be printed. -/
theorem completeList_of_wellFormedList (xs : List Expression) (h : wellFormedList xs = true) :
    completeList xs = true := by
  match xs with
  | [] => rfl
  | x :: xs =>
    simp only [wellFormedList, Bool.and_eq_true] at h
    rw [completeList, complete_of_wellFormed x h.1, completeList_of_wellFormedList xs h.2]
    rfl

end
end Expression

/-! ## Runs of characters -/

/-- A run ends at the first character that is none of its kind. -/
theorem run_append_inj {p : Char → Bool} {v w r s : List Char} {c d : Char}
    (hv : ∀ x ∈ v, p x = true) (hw : ∀ x ∈ w, p x = true) (hc : p c = false) (hd : p d = false)
    (h : v ++ c :: r = w ++ d :: s) : v = w ∧ c :: r = d :: s := by
  have hrun := congrArg (List.takeWhile p) h
  rw [List.takeWhile_append_of_pos hv, List.takeWhile_append_of_pos hw] at hrun
  obtain rfl : v = w := by simpa [hc, hd] using hrun
  exact ⟨rfl, List.append_cancel_left h⟩

theorem wordChars_of_isWord {name : String} (h : isWord name = true) :
    ∀ c ∈ name.toList, isWordChar c = true := by
  simp only [isWord, Bool.and_eq_true, List.all_eq_true] at h
  exact h.2

theorem toList_ne_nil_of_isWord {name : String} (h : isWord name = true) : name.toList ≠ [] := by
  intro hnil
  simp [isWord, hnil] at h

theorem word_append_inj {v w : String} {r s : List Char} {c d : Char} (hv : isWord v = true)
    (hw : isWord w = true) (hc : isWordChar c = false) (hd : isWordChar d = false)
    (h : v.toList ++ c :: r = w.toList ++ d :: s) : v = w ∧ c :: r = d :: s :=
  (run_append_inj (wordChars_of_isWord hv) (wordChars_of_isWord hw) hc hd h).imp_left
    String.toList_inj.mp

theorem isWord_flagKind (kind : FlagKind) : isWord kind.name = true := by
  cases kind <;> decide

theorem flagKind_name_inj {kind other : FlagKind} (h : kind.name = other.name) : kind = other := by
  cases kind <;> cases other <;> first | rfl | exact absurd h (by decide)

/-- A character of a number: a digit or the minus sign. -/
def isNumberChar (c : Char) : Bool := c.isDigit || c == '-'

theorem isDigit_of_mem_repr {n : Nat} {c : Char} (h : c ∈ (Nat.repr n).toList) :
    c.isDigit = true := by
  rw [Nat.repr_eq_ofList_toDigits, String.toList_ofList] at h
  exact Nat.isDigit_of_mem_toDigits (by decide) (by decide) h

theorem repr_ne_nil (n : Nat) : (Nat.repr n).toList ≠ [] := by
  rw [Nat.repr_eq_ofList_toDigits, String.toList_ofList]
  exact Nat.toDigits_ne_nil

theorem isWord_repr (n : Nat) : isWord (Nat.repr n) = true := by
  simp only [isWord, Bool.and_eq_true, Bool.not_eq_true', List.isEmpty_eq_false_iff,
    List.all_eq_true]
  exact ⟨repr_ne_nil n, fun c hc => by
    simp [isWordChar, Char.isAlphanum, isDigit_of_mem_repr hc]⟩

/-- A number is printed as digits, or as a minus sign and digits. -/
theorem toList_toString_int32 (v : Int32) :
    (∃ n, (toString v).toList = (Nat.repr n).toList)
      ∨ ∃ n, (toString v).toList = '-' :: (Nat.repr n).toList := by
  have htext : toString v = Int.repr v.toInt := rfl
  rw [htext]
  cases v.toInt with
  | ofNat n => exact .inl ⟨n, rfl⟩
  | negSucc n => exact .inr ⟨n + 1, by simp [Int.repr]⟩

theorem numberChars_toString (v : Int32) : ∀ c ∈ (toString v).toList, isNumberChar c = true := by
  intro c hc
  obtain ⟨n, hn⟩ | ⟨n, hn⟩ := toList_toString_int32 v
  · simp [isNumberChar, isDigit_of_mem_repr (hn ▸ hc)]
  · rw [hn, List.mem_cons] at hc
    obtain rfl | hc := hc
    · rfl
    · simp [isNumberChar, isDigit_of_mem_repr hc]

theorem int32_append_inj {v w : Int32} {r s : List Char} {c d : Char}
    (hc : isNumberChar c = false) (hd : isNumberChar d = false)
    (h : (toString v).toList ++ c :: r = (toString w).toList ++ d :: s) :
    v = w ∧ c :: r = d :: s := by
  obtain ⟨htext, hrest⟩ :=
    run_append_inj (numberChars_toString v) (numberChars_toString w) hc hd h
  exact ⟨Int32.toInt_inj.mp (Int.repr_inj.mp (String.toList_inj.mp htext)), hrest⟩

/-- No number begins with the sign of a pointer. -/
theorem toString_append_ne_amp (v : Int32) (rest more : List Char) :
    (toString v).toList ++ rest ≠ '&' :: more := by
  intro h
  obtain ⟨x, digits, hdigits⟩ : ∃ x digits, (toString v).toList = x :: digits := by
    obtain ⟨n, hn⟩ | ⟨n, hn⟩ := toList_toString_int32 v
    · exact hn ▸ List.exists_cons_of_ne_nil (repr_ne_nil n)
    · exact ⟨_, _, hn⟩
  have hx := numberChars_toString v x (hdigits ▸ List.mem_cons_self)
  rw [hdigits, List.cons_append] at h
  rw [(List.cons.inj h).1] at hx
  exact absurd hx (by decide)

/-! ## Quoted texts -/

/-- The character that is meant by one behind a backslash. -/
def escaped : Char → Char
  | 'n' => '\n'
  | 't' => '\t'
  | c => c

/-- A character stands for itself, or a backslash and another character stand for it. -/
theorem printedChar_cases (c : Char) :
    (printedChar c = [c] ∧ c ≠ '\\' ∧ c ≠ '"')
      ∨ ∃ k, printedChar c = ['\\', k] ∧ escaped k = c := by
  unfold printedChar
  split_ifs with hslash hquote hline htab
  · exact .inr ⟨'\\', rfl, hslash.symm⟩
  · exact .inr ⟨'"', rfl, hquote.symm⟩
  · exact .inr ⟨'n', rfl, hline.symm⟩
  · exact .inr ⟨'t', rfl, htab.symm⟩
  · exact .inl ⟨rfl, hslash, hquote⟩

theorem printedChar_append_inj {c d : Char} {r s : List Char}
    (h : printedChar c ++ r = printedChar d ++ s) : c = d ∧ r = s := by
  obtain ⟨hc, hslash, -⟩ | ⟨k, hc, rfl⟩ := printedChar_cases c <;>
    obtain ⟨hd, hslash', -⟩ | ⟨l, hd, rfl⟩ := printedChar_cases d <;>
    simp only [hc, hd, List.cons_append, List.nil_append, List.cons.injEq] at h
  · exact h
  · exact absurd h.1 hslash
  · exact absurd h.1.symm hslash'
  · exact ⟨congrArg escaped h.2.1, h.2.2⟩

theorem printedChar_append_ne_quote (c : Char) (r s : List Char) :
    printedChar c ++ r ≠ '"' :: s := by
  obtain ⟨hc, -, hquote⟩ | ⟨k, hc, -⟩ := printedChar_cases c <;> rw [hc]
  · exact fun h => hquote (List.cons.inj h).1
  · exact fun h => absurd (List.cons.inj h).1 (by decide)

theorem printedChars_append_inj {v w r s : List Char}
    (h : v.flatMap printedChar ++ '"' :: r = w.flatMap printedChar ++ '"' :: s) :
    v = w ∧ r = s := by
  induction v generalizing w with
  | nil =>
    cases w with
    | nil => simpa using h
    | cons d w =>
      rw [List.flatMap_cons, List.append_assoc] at h
      exact absurd h.symm (printedChar_append_ne_quote d _ _)
  | cons c v ih =>
    cases w with
    | nil =>
      rw [List.flatMap_cons, List.append_assoc] at h
      exact absurd h (printedChar_append_ne_quote c _ _)
    | cons d w =>
      rw [List.flatMap_cons, List.append_assoc, List.flatMap_cons, List.append_assoc] at h
      obtain ⟨rfl, hrest⟩ := printedChar_append_inj h
      exact (ih hrest).imp_left (congrArg _)

theorem toList_printedText (t : String) :
    (printedText t).toList = '"' :: (t.toList.flatMap printedChar ++ ['"']) := by
  simp [printedText]

/-! ## Expressions in characters -/

namespace Expression

/-- The characters of an expression. -/
def spelled (e : Expression) : List Char := e.render.toList

/-- The characters of an operand: a chain stands in parentheses. -/
def spelledOperand (e : Expression) : List Char :=
  if e.isOperation then '(' :: (e.spelled ++ [')']) else e.spelled

/-- The characters of the operands of a chain from the second on, each behind its operator. -/
def spelledLater (later : List (String × Expression)) : List Char :=
  later.flatMap fun link => ' ' :: (link.1.toList ++ ' ' :: link.2.spelledOperand)

/-- The characters of the arguments of a call from the second on. -/
def spelledMore (arguments : List Expression) : List Char :=
  arguments.flatMap fun x => ',' :: ' ' :: x.spelled

/-- The characters of the arguments of a call. -/
def spelledArguments : List Expression → List Char
  | [] => []
  | x :: rest => x.spelled ++ spelledMore rest

/-! ### Single elements -/

theorem spelledOperand_integer (v : Int32) :
    (integer v).spelledOperand = (toString v).toList := rfl

theorem spelledOperand_pointer (v : Int32) :
    (pointer v).spelledOperand = '&' :: (toString v).toList := by
  simp only [spelledOperand, isOperation, spelled, render, String.toList_append]
  rfl

theorem spelledOperand_plain (t : String) :
    (text (.plain t)).spelledOperand = '"' :: (t.toList.flatMap printedChar ++ ['"']) := by
  rw [← toList_printedText]
  rfl

theorem spelledOperand_external (key : String) :
    (text (.external key)).spelledOperand = '@' :: key.toList := by
  simp only [spelledOperand, isOperation, spelled, render, TextLiteral.render,
    String.toList_append]
  rfl

theorem spelledOperand_special (name : String) :
    (var (.special name)).spelledOperand = '$' :: name.toList := by
  simp only [spelledOperand, isOperation, spelled, render, Variable.render, String.toList_append,
    List.append_assoc]
  rfl

theorem spelledOperand_flag (kind : FlagKind) (id : Int32) :
    (var (.flag kind id)).spelledOperand = kind.name.toList ++ ':' :: (toString id).toList := by
  simp only [spelledOperand, isOperation, spelled, render, Variable.render, String.toList_append,
    List.append_assoc]
  rfl

theorem spelledOperand_flagPointer (kind : FlagKind) (id : Int32) :
    (flagPointer kind id).spelledOperand
      = kind.name.toList ++ ':' :: '&' :: (toString id).toList := by
  simp only [spelledOperand, isOperation, spelled, render, String.toList_append, List.append_assoc]
  rfl

theorem spelledOperand_labelRef (name : String) :
    (labelRef name).spelledOperand = ':' :: name.toList := by
  simp only [spelledOperand, isOperation, spelled, render, String.toList_append, List.append_assoc]
  rfl

/-! ### Calls and chains -/

theorem renderAll_eq_map (xs : List Expression) : renderAll xs = xs.map render := by
  induction xs with
  | nil => rfl
  | cons x xs ih => rw [renderAll, ih, List.map_cons]

theorem toList_intercalate_renderAll (arguments : List Expression) :
    (", ".intercalate (renderAll arguments)).toList = spelledArguments arguments := by
  cases arguments with
  | nil => rfl
  | cons x rest =>
    rw [renderAll_eq_map, String.toList_intercalate, spelledArguments]
    induction rest generalizing x with
    | nil => simp [spelled, spelledMore]
    | cons y rest ih =>
      have hrest := ih y
      simp only [List.map_cons] at hrest ⊢
      rw [List.intercalate_cons_cons, hrest]
      simp [spelled, spelledMore]

/-- The characters of a call. -/
theorem toList_renderCall (function : String) (arguments : List Expression) :
    (renderCall function (renderAll arguments)).toList
      = function.toList ++ '(' :: (spelledArguments arguments ++ [')']) := by
  simp only [renderCall, String.toList_append, toList_intercalate_renderAll, List.append_assoc]
  rfl

theorem spelled_call (function : String) (arguments : List Expression) :
    (call function arguments).spelled
      = function.toList ++ '(' :: (spelledArguments arguments ++ [')']) := by
  rw [spelled, render, toList_renderCall]

theorem spelledOperand_call (function : String) (arguments : List Expression) :
    (call function arguments).spelledOperand
      = function.toList ++ '(' :: (spelledArguments arguments ++ [')']) := by
  rw [← spelled_call]
  rfl

theorem renderOperands_eq_map (xs : List Expression) :
    (renderOperands xs).map String.toList = xs.map spelledOperand := by
  induction xs with
  | nil => rfl
  | cons x xs ih =>
    rw [renderOperands, List.map_cons, ih, List.map_cons]
    congr 1
    rw [spelledOperand, spelled]
    split <;> simp

theorem spelled_operation (x : Expression) (rest : List Expression) (operators : List String) :
    (operation (x :: rest) operators).spelled
      = x.spelledOperand ++ spelledLater (operators.zip rest) := by
  have hlater (texts : List String) (h : texts.map String.toList = rest.map spelledOperand) :
      (String.join (List.zipWith (fun operator y => " " ++ operator ++ " " ++ y) operators
        texts)).toList = spelledLater (operators.zip rest) := by
    rw [String.toList_join, spelledLater]
    induction operators generalizing rest texts with
    | nil => rfl
    | cons operator operators ih =>
      cases rest with
      | nil =>
        obtain rfl : texts = [] := by simpa using h
        rfl
      | cons y rest =>
        obtain ⟨text, texts, rfl, htext, htexts⟩ := List.map_eq_cons_iff.mp h
        rw [List.zipWith_cons_cons, List.flatMap_cons, ih rest texts htexts, List.zip_cons_cons,
          List.flatMap_cons]
        simp [htext]
  have hoperands := renderOperands_eq_map (x :: rest)
  rw [renderOperands, List.map_cons, List.map_cons] at hoperands
  obtain ⟨hfirst, hrest⟩ := List.cons.inj hoperands
  rw [spelled, render, renderOperands, renderChain, String.toList_append, hlater _ hrest, hfirst]

/-! ## Chains -/

/-- The first operand of a chain; any other expression is its own. -/
def first : Expression → Expression
  | operation (x :: _) _ => x
  | e => e

/-- The operands of a chain from the second on, each with the operator in front of it. -/
def later : Expression → List (String × Expression)
  | operation (_ :: rest) operators => operators.zip rest
  | _ => []

/-- A chain is spelled as its operands and operators. -/
theorem spelled_eq_first_later {e : Expression} (he : e.wellFormed = true) :
    e.spelled = e.first.spelledOperand ++ spelledLater e.later := by
  match e with
  | operation [] _ => simp [wellFormed_operation_iff] at he
  | operation (x :: rest) operators => exact spelled_operation x rest operators
  | integer _ | pointer _ | text _ | var _ | flagPointer .. | call .. | labelRef _ =>
    simp [first, later, spelledOperand, isOperation, spelledLater]

theorem first_wellFormed {e : Expression} (he : e.wellFormed = true) :
    e.first.wellFormed = true := by
  match e with
  | operation [] _ => simp [wellFormed_operation_iff] at he
  | operation (x :: rest) operators =>
    exact (wellFormed_operation_iff.mp he).2.2.2 x List.mem_cons_self
  | integer _ | pointer _ | text _ | var _ | flagPointer .. | call .. | labelRef _ => exact he

theorem later_wellFormed {e : Expression} (he : e.wellFormed = true) {link : String × Expression}
    (h : link ∈ e.later) : isOperator link.1 = true ∧ link.2.wellFormed = true := by
  match e with
  | operation [] _ => simp [later] at h
  | operation (x :: rest) operators =>
    obtain ⟨-, hoperators, -, hoperands⟩ := wellFormed_operation_iff.mp he
    obtain ⟨hoperator, hoperand⟩ := List.of_mem_zip h
    exact ⟨hoperators _ hoperator, hoperands _ (List.mem_cons_of_mem x hoperand)⟩
  | integer _ | pointer _ | text _ | var _ | flagPointer .. | call .. | labelRef _ =>
    simp [later] at h

/-- Only a chain has an operand behind the first. -/
theorem later_eq_nil_iff {e : Expression} (he : e.wellFormed = true) :
    e.later = [] ↔ e.isOperation = false := by
  match e with
  | operation [] _ => simp [wellFormed_operation_iff] at he
  | operation (x :: rest) operators =>
    obtain ⟨hne, -, hlength, -⟩ := wellFormed_operation_iff.mp he
    have hrest : rest ≠ [] := by
      rintro rfl
      exact hne (List.length_eq_zero_iff.mp (Nat.succ.inj hlength).symm)
    simp [later, isOperation, hne, hrest]
  | integer _ | pointer _ | text _ | var _ | flagPointer .. | call .. | labelRef _ =>
    simp [later, isOperation]

theorem first_eq_self {e : Expression} (h : e.isOperation = false) : e.first = e := by
  cases e <;> first | rfl | simp [isOperation] at h

/-- A chain has a first operand, and an operator for each later one. -/
theorem exists_eq_operation {e : Expression} (he : e.wellFormed = true)
    (h : e.isOperation = true) : ∃ x rest operators,
      e = operation (x :: rest) operators ∧ operators.length = rest.length := by
  match e with
  | operation [] _ => simp [wellFormed_operation_iff] at he
  | operation (x :: rest) operators =>
    obtain ⟨-, -, hlength, -⟩ := wellFormed_operation_iff.mp he
    exact ⟨x, rest, operators, rfl, (Nat.succ.inj hlength).symm⟩
  | integer _ | pointer _ | text _ | var _ | flagPointer .. | call .. | labelRef _ =>
    simp [isOperation] at h

/-- A chain is given by its operands and operators. -/
theorem eq_of_first_later {e f : Expression} (he : e.wellFormed = true) (hf : f.wellFormed = true)
    (hfirst : e.first = f.first) (hlater : e.later = f.later) : e = f := by
  cases hchain : e.isOperation with
  | false =>
    have hchain' := (later_eq_nil_iff hf).mp (hlater ▸ (later_eq_nil_iff he).mpr hchain)
    rwa [first_eq_self hchain, first_eq_self hchain'] at hfirst
  | true =>
    have hchain' : f.isOperation = true := by
      rw [← Bool.not_eq_false, ← later_eq_nil_iff hf, ← hlater, later_eq_nil_iff he, hchain]
      decide
    obtain ⟨x, rest, operators, rfl, hlength⟩ := exists_eq_operation he hchain
    obtain ⟨y, others, operators', rfl, hlength'⟩ := exists_eq_operation hf hchain'
    have hunzip := congrArg List.unzip hlater
    rw [later, later, List.unzip_zip hlength, List.unzip_zip hlength', Prod.mk.injEq] at hunzip
    rw [hunzip.1, hunzip.2, show x = y from hfirst]

end Expression
end NovelScript
