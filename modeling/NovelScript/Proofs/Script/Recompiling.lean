import NovelScript.Proofs.Script.Acceptance
import NovelScript.Proofs.Script.Neighbours
import NovelScript.Proofs.Script.Proper

/-!
# Which decompiled trees are compiled again

A tree that comes of a program is compilable but for two things that the decompiler takes as they
are: names (`Statement.NamedList`) and neighbours (`Statement.ApartList`).  In a tree that is in
order (`Statement.ProperList`), chains, targets, conditions and bodies are always such as the
compiler takes (`Statement.compilableList_of_properList`).
-/

namespace NovelScript

/-! ## Names -/

namespace Expression

mutual

/-- The compiler takes the names in the expression: those of labels, and of functions whose answers
are captured. -/
def Named : Expression → Prop
  | operation operands _ => NamedList operands
  | call function arguments => function ≠ assignFunction ∧ NamedList arguments
  | labelRef name => isLabelName name = true
  | _ => True

/-- The compiler takes the names in the expressions. -/
def NamedList : List Expression → Prop
  | [] => True
  | x :: xs => Named x ∧ NamedList xs

end
end Expression

namespace Statement

mutual

/-- The compiler takes the names of labels in the statement, and those of functions whose answers
are captured. -/
def Named : Statement → Prop
  | block body => NamedList body
  | assignment _ value => value.Named
  | call _ arguments => Expression.NamedList arguments
  | bodyCall _ arguments body => Expression.NamedList arguments ∧ NamedList body
  | conditional condition body otherwise =>
    condition.Named ∧ NamedList body ∧ NamedOption otherwise
  | label name => isLabelName name = true

/-- The compiler takes the names in the statements. -/
def NamedList : List Statement → Prop
  | [] => True
  | s :: rest => Named s ∧ NamedList rest

/-- The compiler takes the names in the alternative. -/
def NamedOption : Option (List Statement) → Prop
  | none => True
  | some body => NamedList body

end

end Statement

/-! ## What the compiler asks of a tree in order -/

namespace Expression

mutual

/-- Of an expression that is in order, only the names matter. -/
theorem compilable_of_proper (x : Expression) (h : x.Proper) (hnamed : x.Named) :
    x.Compilable := by
  match x with
  | operation operands _ =>
    obtain ⟨hne, hlength, hoperators, hoperands⟩ := h
    exact ⟨hne, hlength, hoperators, compilableOperands_of_proper operands hoperands hnamed⟩
  | call _ arguments => exact ⟨hnamed.1, compilableList_of_properList arguments h hnamed.2⟩
  | var _ | flagPointer _ _ => exact h
  | labelRef _ => exact hnamed
  | integer _ | pointer _ | text _ => trivial

theorem compilableList_of_properList (xs : List Expression) (h : ProperList xs)
    (hnamed : NamedList xs) : CompilableList xs := by
  match xs with
  | [] => trivial
  | x :: xs =>
    exact ⟨compilable_of_proper x h.1 hnamed.1, compilableList_of_properList xs h.2 hnamed.2⟩

theorem compilableOperands_of_proper (xs : List Expression) (h : ProperOperands xs)
    (hnamed : NamedList xs) : CompilableOperands xs := by
  match xs with
  | [] => trivial
  | x :: xs =>
    exact ⟨⟨h.1.1, compilable_of_proper x h.1.2 hnamed.1⟩,
      compilableOperands_of_proper xs h.2 hnamed.2⟩

end
end Expression

namespace Statement

mutual

/-- Of a statement that is in order, only names and neighbours matter. -/
theorem compilable_of_proper (s : Statement) (h : s.Proper) (hnamed : s.Named) (hapart : s.Apart) :
    s.Compilable := by
  match s with
  | block body => exact compilableList_of_properList body h hnamed hapart
  | assignment _ value =>
    obtain ⟨htarget, hvalue, hproper⟩ := h
    exact ⟨htarget, hvalue, value.compilable_of_proper hproper hnamed⟩
  | call _ arguments =>
    exact ⟨h.1, Expression.compilableList_of_properList arguments h.2 hnamed⟩
  | bodyCall _ arguments body =>
    obtain ⟨hif, hassign, harguments, hbody⟩ := h
    exact ⟨hif, hassign, Expression.compilableList_of_properList arguments harguments hnamed.1,
      compilableList_of_properList body hbody hnamed.2 hapart⟩
  | conditional condition body otherwise =>
    obtain ⟨⟨hcondition, hproper⟩, hbody, hother⟩ := h
    exact ⟨⟨hcondition, condition.compilable_of_proper hproper hnamed.1⟩,
      compilableList_of_properList body hbody hnamed.2.1 hapart.1,
      compilableOption_of_properOption otherwise hother hnamed.2.2 hapart.2⟩
  | label _ => exact hnamed

theorem compilableList_of_properList (tree : List Statement) (h : ProperList tree)
    (hnamed : NamedList tree) (hapart : ApartList tree) : CompilableList tree := by
  match tree with
  | [] => trivial
  | s :: rest =>
    exact ⟨hapart.1, compilable_of_proper s h.1 hnamed.1 hapart.2.1,
      compilableList_of_properList rest h.2 hnamed.2 hapart.2.2⟩

theorem compilableOption_of_properOption (otherwise : Option (List Statement))
    (h : ProperOption otherwise) (hnamed : NamedOption otherwise) (hapart : ApartOption otherwise) :
    CompilableOption otherwise := by
  match otherwise with
  | none => trivial
  | some body => exact compilableList_of_properList body h hnamed hapart

end

/-- What is decompiled without rules is compiled again, if its names and neighbours are such. -/
theorem rebuilt_list {tree : List Statement} (h : ∀ s ∈ tree, s.Rebuilt none) :
    isPlainList tree = true ∧ (NamedList tree → ApartList tree → CompilableList tree) := by
  obtain ⟨hproper, hplain⟩ := properList_of_rebuilt h
  exact ⟨hplain rfl, compilableList_of_properList tree hproper⟩

end Statement

/-! ## Compiling what was decompiled -/

section

variable {program : Program} {tree : List Statement}

/-- A decompiled tree whose names the compiler takes is compiled again if no statement in it runs
into the next, and only then.  That is so wherever the program does not assign to a local in front
of a block or of a label `else`. -/
theorem recompiles_iff_apart (h : (decompile none none program).result = .ok tree)
    (hnamed : Statement.NamedList tree) :
    ((∃ compiled, (compile none tree).result = .ok compiled) ↔ Statement.ApartList tree)
      ∧ (program.joinsNothing program.instructions = true → Statement.ApartList tree) := by
  obtain ⟨hplain, hcompilable⟩ := Statement.rebuilt_list (rebuilt_of_decompile h)
  refine ⟨⟨?_, fun hapart => ?_⟩, apart_of_decompile h⟩
  · rintro ⟨compiled, hcompiled⟩
    obtain ⟨-, -, htree⟩ := spells_of_compile hcompiled
    exact htree.apart
  · exact exists_compile (hcompilable hnamed hapart) fun _ => hplain

theorem recompiles_iff_apart_retrying :
    ∃ tree, (decompile none none retrying).result = .ok tree ∧ Statement.NamedList tree
      ∧ ∃ compiled, (compile none tree).result = .ok compiled := by
  have hresult : (decompile none none retrying).result.toOption
      = some [.label "again", .conditional (.call "ask" [.labelRef "again"])
          [.assignment (.var (.special "answer")) (.integer 1)] (some []), .label "again"] := by
    decide +kernel
  cases htree : (decompile none none retrying).result with
  | error e => simp [htree, Except.toOption] at hresult
  | ok tree =>
    obtain rfl : tree = _ := Option.some.inj (htree ▸ hresult)
    have hnamed : Statement.NamedList [.label "again", .conditional
        (.call "ask" [.labelRef "again"])
        [.assignment (.var (.special "answer")) (.integer 1)] (some []), .label "again"] := by
      simp [Statement.NamedList, Statement.Named, Statement.NamedOption, Expression.Named,
        Expression.NamedList, isLabelName, assignFunction, blockOpen, blockClose]
      decide
    obtain ⟨hiff, hjoins⟩ := recompiles_iff_apart htree hnamed
    exact ⟨_, rfl, hnamed, hiff.mpr (hjoins (by decide +kernel))⟩

end

/-- Programs whose trees the compiler refuses.  In the first two, a local is assigned in front of a
block and of a label `else`.  The others bring a label named by an operator, a brace as an argument,
and an answer of the assignment function. -/
def refusedAgain : List Program :=
  [{ elements := #[.function "wait", .function assignFunction, .localVar 0, .integer ⟨1, false⟩,
      .marker ⟨blockOpen, none, 0, 0⟩, .marker ⟨blockClose, none, 1, 0⟩, .function "show"]
     instructions := [.call 0 [], .target 2, .call 1 [3], .label 4, .call 6 [2], .label 5]
     maxLocals := 1 },
   { elements := #[.function ifFunction, .function assignFunction, .localVar 0,
      .integer ⟨1, false⟩, .marker ⟨blockOpen, none, 0, 0⟩, .marker ⟨blockClose, none, 1, 0⟩,
      .marker ⟨elseLabel, none, 2, 0⟩, .function "show"]
     instructions := [.call 0 [3], .label 4, .label 5, .target 2, .call 1 [3], .label 6,
      .call 7 [2]]
     maxLocals := 1 },
   { elements := #[.marker ⟨"+", none, 0, 0⟩]
     instructions := [.label 0]
     maxLocals := 0 },
   { elements := #[.function "show", .marker ⟨blockOpen, none, 0, 0⟩]
     instructions := [.call 0 [1]]
     maxLocals := 0 },
   { elements := #[.special "answer", .function assignFunction]
     instructions := [.target 0, .call 1 [], .call 1 []]
     maxLocals := 0 }]

theorem not_recompiles_refusedAgain :
    refusedAgain.Forall fun program => ∃ tree, (decompile none none program).result = .ok tree
      ∧ ∀ compiled, (compile none tree).result ≠ .ok compiled := by
  have hrefused : ∀ program ∈ refusedAgain,
      (decompile none none program).result.toOption.map
        (fun tree => (compile none tree).result.toOption.isSome) = some false := by
    decide +kernel
  refine List.forall_iff_forall_mem.mpr fun program hprogram => ?_
  have hrefused := hrefused program hprogram
  cases htree : (decompile none none program).result with
  | error e => simp [htree, Except.toOption] at hrefused
  | ok tree =>
    refine ⟨tree, rfl, fun compiled hcompiled => ?_⟩
    simp [htree, hcompiled, Except.toOption] at hrefused

end NovelScript
