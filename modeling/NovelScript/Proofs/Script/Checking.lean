import NovelScript.Proofs.Script.Externalization
import NovelScript.Proofs.Script.Moves
import NovelScript.Proofs.Script.RoundTrip
import NovelScript.Script.RoundTrip

/-!
# What the check of a recompiled script reports

A script that was read, compiled and read again comes back with its texts put back and moved out
afresh, in the order in which the compiled code names them (`Script.ofBytes_recompiled`).  So the
check answers, and its answer is whether the keys were in that order already
(`Script.checkRoundTrip_recompiled`).  From then on they are.

## Shape of the proof

The way through the compiler is `decompile_moves_of_spells`, for trees whose blocks are at most 64
deep.  The decompiler makes no others: `Point.reach` is how deep the blocks would be if all that are
open closed, and no move takes it beyond the bound.
-/

namespace NovelScript

/-! ## How deep the blocks are -/

theorem Statement.depthList_append (xs ys : List Statement) :
    depthList (xs ++ ys) = max (depthList xs) (depthList ys) := by
  induction xs with
  | nil => simp [depthList]
  | cons s xs ih => simp only [List.cons_append, depthList, ih, Nat.max_assoc]

namespace Decompile

/-- How deep the blocks are that an open block has already put behind it. -/
def Opener.depth : Opener → Nat
  | .block | .call .. | .condition _ => 0
  | .otherwise _ body => Statement.depthList body

theorem depth_finish (opener : Opener) (body : List Statement) :
    (finish opener body).depth = max (Opener.depth opener) (Statement.depthList body) + 1 := by
  cases opener <;> simp [finish, Opener.depth, Statement.depth, Statement.depthOption]

/-- How deep the blocks reach that are open, and those in front of them. -/
def reach : List Frame → Nat
  | [] => 0
  | frame :: frames =>
    max (max (frames.length + Statement.depthList frame.before)
      (frames.length + 1 + Opener.depth frame.opener)) (reach frames)

/-- How deep the blocks reach that have been read up to a point. -/
def Point.reach (p : Point) : Nat :=
  max (Decompile.reach p.frames) (p.frames.length + Statement.depthList p.current)

variable {rules : Option ExternalizeRules} {program : Program}

theorem depthList_store {at_ : Nat} {element : Element} {x : Expression} {made : List Statement}
    {st t : DecompileState} (h : Answers (store program at_ element x) st made t) :
    Statement.depthList made = 0 := by
  rcases store_cases h with ⟨_, -, -, rfl, -⟩ | ⟨-, _, -, rfl, -⟩ <;> rfl

/-- A move adds statements without blocks, opens a block where there is room, or closes one. -/
theorem Move.reach_le {p q : Point} (h : Move rules program p q)
    (hp : p.reach ≤ maxBlockDepth) : q.reach ≤ maxBlockDepth := by
  cases h with
  | assign _ _ _ _ hstore | capture _ _ _ _ hstore =>
    simp only [Point.reach, Statement.depthList_append, depthList_store hstore] at hp ⊢
    omega
  | _ =>
    simp only [Point.reach, Decompile.reach, Opener.depth, depth_finish, Statement.depthList_append,
      Statement.depthList, Statement.depth, Statement.depthOption, List.length_cons] at hp ⊢
    omega

/-- The blocks of a tree that a program decompiles to are not nested too deep to be read again. -/
theorem depthList_of_decompile {strings : Option StringTable} {tree : List Statement}
    (h : (decompile rules strings program).result = .ok tree) :
    Statement.depthList tree ≤ maxBlockDepth := by
  obtain ⟨end_, st, hmoves, -⟩ := moves_of_decompile h
  suffices hreach : ∀ q, Relation.ReflTransGen (Move rules program) _ q → q.reach ≤ maxBlockDepth by
    simpa [Point.reach, Decompile.reach] using hreach _ hmoves
  intro q hq
  induction hq with
  | refl => simp [Point.reach, Decompile.reach, Statement.depthList]
  | tail _ hmove ih => exact hmove.reach_le ih

end Decompile

/-! ## Trees with their texts put back -/

/-- Put back into its tree, the texts that a program was decompiled with give the tree that it is
decompiled to without rules. -/
theorem decompile_puts_back {rules : Option ExternalizeRules} {program : Program}
    {tree : List Statement}
    (h : (decompile rules (some .empty) program).result = .ok tree) :
    (decompile none (some .empty) program).result = .ok (Statement.resolveList
      ((decompile rules (some .empty) program).strings.getD .empty) tree) := by
  cases rules with
  | some rules =>
    rcases decompile_externalizes rules .empty (some .empty) program with
      ⟨_, -, hfault⟩ | ⟨plain, moved, later, hplain, hmoved, hlater, -, hmoves⟩
    · rw [hfault] at h
      cases h
    · obtain rfl := Except.ok.inj (hmoved.symm.trans h)
      rw [hplain, hlater, Option.getD_some, hmoves.resolve]
  | none =>
    -- with rules that want nothing moved, the same tree has its texts put back
    rcases decompile_externalizes ⟨fun _ _ => false, ""⟩ .empty (some .empty) program with
      ⟨_, hfault, -⟩ | ⟨plain, moved, later, hplain, -, -, -, hmoves⟩
    · rw [hfault] at h
      cases h
    · obtain rfl := Except.ok.inj (hplain.symm.trans h)
      rw [h, Statement.resolveList_of_isPlainList _
        (hmoves.resolve ▸ Statement.isPlainList_resolveList later moved)]

namespace Script

/-- The statements with their texts put back. -/
def plain (script : Script) : List Statement :=
  Statement.resolveList script.strings script.statements

theorem texts_plain (script : Script) :
    Statement.textsList .empty script.plain
      = Statement.textsList script.strings script.statements :=
  Statement.textsList_resolveList ..

/-- The script with its texts put back and moved out afresh, as far as the rules ask for it. -/
def movedAfresh (rules : Option ExternalizeRules) (script : Script) : Script :=
  let moved := Statement.moveOutList rules script.plain (some .empty)
  ⟨moved.1, moved.2.getD .empty⟩

/-! ## The check -/

section

variable {script : Script} {settings : Settings} {input bytes : Bytes}
  (hread : (ofBytes input settings).result = .ok script)
  (hwritten : (script.toBytes settings).result = .ok bytes) (hlength : bytes.length < 4294967296)
  (htexts : ∀ t ∈ Statement.textsList script.strings script.statements,
    settings.encoding.Survives t)

include hread hwritten hlength htexts

/-- The program that a script compiles to is decompiled under any rules to the tree of the script
with its texts moved out afresh. -/
theorem decompile_recompiled :
    ∃ rebuilt, Program.disassemble bytes settings = .ok rebuilt
      ∧ ∀ rules, NovelScript.decompile rules (some .empty) rebuilt
        = ⟨.ok (Statement.moveOutList rules script.plain (some .empty)).1,
          (Statement.moveOutList rules script.plain (some .empty)).2, []⟩ := by
  obtain ⟨source, rules, -, -, htree, -⟩ := decompile_of_ofBytes hread
  obtain ⟨rebuilt, hrebuilt, hspell, hroom, hc⟩ := spells_of_toBytes hwritten hlength htexts
  exact ⟨rebuilt, hrebuilt, fun rules => decompile_moves_of_spells rebuilt (fun _ => rfl) hspell
    hroom hc (Decompile.depthList_of_decompile htree)⟩

/-- A script that was read, and is compiled and read again, comes back with its texts moved out
afresh. -/
theorem ofBytes_recompiled {rules : Option ExternalizeRules} (hrules : settings.rules = .ok rules) :
    ofBytes bytes settings = { result := .ok (script.movedAfresh rules) } := by
  obtain ⟨rebuilt, hrebuilt, hback⟩ := decompile_recompiled hread hwritten hlength htexts
  simp only [ofBytes, hrebuilt, hrules, hback]
  rfl

/-- The script that comes back says what the script said. -/
theorem plain_movedAfresh (rules : Option ExternalizeRules) :
    (script.movedAfresh rules).plain = script.plain := by
  obtain ⟨rebuilt, -, hback⟩ := decompile_recompiled hread hwritten hlength htexts
  have hputs := decompile_puts_back (congrArg Decompilation.result (hback rules))
  rw [hback none, hback rules, Statement.moveOutList_none] at hputs
  exact (Except.ok.inj hputs).symm

/-- The check answers whether the script comes back as it is. -/
theorem checkRoundTrip_eq {rules : Option ExternalizeRules} (hrules : settings.rules = .ok rules) :
    script.checkRoundTrip input settings
      = if script.statements = (script.movedAfresh rules).statements then .ok ()
        else .error .different := by
  obtain ⟨source, rules', hsource, hrules', htree, -⟩ := decompile_of_ofBytes hread
  obtain rfl := Except.ok.inj (hrules.symm.trans hrules')
  obtain ⟨rebuilt, hrebuilt, hback⟩ := decompile_recompiled hread hwritten hlength htexts
  have hboth : script.bothStatements input settings
      = .ok (script.statements, (script.movedAfresh rules).statements) := by
    have hagain : freshStatements rules rebuilt = .ok (script.movedAfresh rules).statements := by
      rw [freshStatements, hback]
      rfl
    simp only [bothStatements, bind_eq_ok_iff]
    exact ⟨_, hwritten, _, hsource, _, hrebuilt, _, hrules, _, htree, _, hagain, rfl⟩
  rw [checkRoundTrip, hboth]

end

section

variable {script : Script} {settings : Settings} {input bytes : Bytes}

theorem movedAfresh_movedAfresh {rules : Option ExternalizeRules}
    (h : (script.movedAfresh rules).plain = script.plain) :
    (script.movedAfresh rules).movedAfresh rules = script.movedAfresh rules := by
  rw [movedAfresh, h]
  rfl

/-- The check of a script that was read either passes or reports a difference, and tells whether
the script has its texts moved out in the order of its code.  It passes if no texts are moved out,
and it passes for the file that the script compiles to. -/
theorem checkRoundTrip_recompiled (hread : (ofBytes input settings).result = .ok script)
    (hwritten : (script.toBytes settings).result = .ok bytes) (hlength : bytes.length < 4294967296)
    (htexts : ∀ t ∈ Statement.textsList script.strings script.statements,
      settings.encoding.Survives t) :
    ∃ rules again, settings.rules = .ok rules ∧ again = script.movedAfresh rules
      ∧ ofBytes bytes settings = { result := .ok again } ∧ again.plain = script.plain
      ∧ script.checkRoundTrip input settings
        = (if script.statements = again.statements then .ok () else .error .different)
      ∧ (settings.externalize = none → script.checkRoundTrip input settings = .ok ())
      ∧ ∀ rebuilt, (again.toBytes settings).result = .ok rebuilt → rebuilt.length < 4294967296 →
        again.checkRoundTrip bytes settings = .ok () := by
  obtain ⟨source, rules, -, hrules, htree, hstrings, -⟩ := decompile_of_ofBytes hread
  have hback := ofBytes_recompiled hread hwritten hlength htexts hrules
  have hplain := plain_movedAfresh hread hwritten hlength htexts rules
  have hcheck := checkRoundTrip_eq hread hwritten hlength htexts hrules
  refine ⟨rules, _, hrules, rfl, hback, hplain, hcheck, fun hnone => ?_,
    fun rebuilt hagain hshort => ?_⟩
  · obtain rfl : rules = none := by
      rw [Settings.rules, hnone] at hrules
      exact (Except.ok.inj hrules).symm
    have hsame : script.statements = script.plain := by
      have hputs := decompile_puts_back htree
      rw [htree, hstrings] at hputs
      exact Except.ok.inj hputs
    rw [hcheck, movedAfresh, Statement.moveOutList_none, ← hsame, if_pos rfl]
  · -- the texts are the same ones, so they survive again
    have htexts' : ∀ t ∈ Statement.textsList (script.movedAfresh rules).strings
        (script.movedAfresh rules).statements, settings.encoding.Survives t := by
      rw [← texts_plain, hplain, texts_plain]
      exact htexts
    rw [checkRoundTrip_eq (congrArg Outcome.result hback) hagain hshort htexts' hrules,
      movedAfresh_movedAfresh hplain, if_pos rfl]

end

/-- The answers of two questions are held, and told in the other order. -/
def swapping : Program where
  elements := #[.localVar 0, .localVar 1, .function assignFunction, .function "Ask",
    .function "Tell", .text "a", .text "b"]
  instructions := [.target 0, .call 2 [], .call 3 [5], .target 1, .call 2 [], .call 3 [6],
    .call 4 [1, 0]]
  maxLocals := 2

/-- Rules under which the texts of the questions are moved out. -/
def asking : Settings := { externalize := some { functions := "Ask", exclude := none } }

/-- Compiled again, the second question comes first, so that its text has the first key. -/
theorem exists_recompiled_swapping :
    ∃ (input bytes : Bytes) (script : Script), (ofBytes input asking).result = .ok script
      ∧ (script.toBytes asking).result = .ok bytes ∧ bytes.length < 4294967296
      ∧ (∀ t ∈ Statement.textsList script.strings script.statements, asking.encoding.Survives t)
      ∧ script.checkRoundTrip input asking = .error .different := by
  have hall : (recompiled asking swapping).toOption.any (fun (input, script, bytes) =>
      decide (bytes.length < 4294967296)
      && (Statement.textsList script.strings script.statements).all Encoding.isAscii
      && decide (script.checkRoundTrip input asking = .error .different)) = true := by
    decide +kernel
  cases hresult : recompiled asking swapping with
  | error e => simp [hresult, Except.toOption] at hall
  | ok result =>
    obtain ⟨input, script, bytes⟩ := result
    obtain ⟨-, hread, hwritten⟩ := recompiled_eq_ok_iff.mp hresult
    simp only [hresult, Except.toOption, Option.any_some, Bool.and_eq_true, decide_eq_true_eq]
      at hall
    obtain ⟨⟨hlength, htexts⟩, hcheck⟩ := hall
    exact ⟨input, bytes, script, hread, hwritten, hlength,
      fun t ht => Encoding.survives_of_isAscii (List.all_eq_true.mp htexts t ht), hcheck⟩

theorem not_checkRoundTrip_recompiled :
    ¬ ∀ (settings : Settings) (input bytes : Bytes) (script : Script),
      (ofBytes input settings).result = .ok script →
      (script.toBytes settings).result = .ok bytes →
      (∀ t ∈ Statement.textsList script.strings script.statements,
        settings.encoding.Survives t) →
      script.checkRoundTrip input settings = .ok () := by
  intro hall
  obtain ⟨input, bytes, script, hread, hwritten, -, htexts, hcheck⟩ := exists_recompiled_swapping
  rw [hall asking input bytes script hread hwritten htexts] at hcheck
  cases hcheck

theorem checkRoundTrip_recompiled_swapping :
    ∃ (input bytes : Bytes) (script again : Script), (ofBytes input asking).result = .ok script
      ∧ script.checkRoundTrip input asking = .error .different
      ∧ (ofBytes bytes asking).result = .ok again ∧ again.plain = script.plain
      ∧ script.statements ≠ again.statements := by
  obtain ⟨input, bytes, script, hread, hwritten, hlength, htexts, hcheck⟩ :=
    exists_recompiled_swapping
  obtain ⟨_, again, -, -, hback, hplain, heq, -, -⟩ :=
    checkRoundTrip_recompiled hread hwritten hlength htexts
  refine ⟨input, bytes, script, again, hread, hcheck, congrArg Outcome.result hback, hplain,
    fun hsame => ?_⟩
  rw [heq, if_pos hsame] at hcheck
  cases hcheck

end Script
end NovelScript
