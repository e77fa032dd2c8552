import NovelScript.Proofs.Script.Applications
import NovelScript.Proofs.Script.CallOrder

/-!
# The code of a tree calls in the order of the tree

The calls of compiled code are those of the tree in post-order (`applications_of_spells`), so their
functions are called in the order of the tree (`calls_of_spells`).

With `callsIn_of_decompile` this gives the order of calls in a script that has been decompiled and
compiled again (`Script.calls_recompiled`).
-/

namespace NovelScript

/-- A program that spells the code of a tree calls in the order of the tree. -/
theorem calls_of_spells {program : Program} {strings : StringTable} {tree : List Statement}
    (h : SpellsAll program.elements program.instructions (Symbolic.statements strings {} tree).1)
    (hc : Statement.CompilableList tree) : program.calls = Statement.callsIn tree := by
  rw [Program.calls, ← Program.filterMap_fst_applicationsBehind, ← Program.applications,
    applications_of_spells h hc, Statement.callsIn, ← Statement.map_fst_applicationsList,
    List.filterMap_map]
  exact congrFun List.filterMap_eq_map _

namespace Script

/-- Recompiling a script that was decompiled without rules keeps its calls, and makes each held one
where its local is read.  Unless a value is lost, none is lost; and where values are read in the
order in which they were stored, all calls stay in order. -/
theorem calls_recompiled {script : Script} {settings : Settings} {input bytes : Bytes}
    (hrules : settings.externalize = none) (hread : (ofBytes input settings).result = .ok script)
    (hkept : ∀ w ∈ (ofBytes input settings).warnings, w.isLoss = false)
    (hwritten : (script.toBytes settings).result = .ok bytes)
    (hlength : bytes.length < 4294967296)
    (htexts : ∀ t ∈ Statement.textsList script.strings script.statements,
      settings.encoding.Survives t) :
    ∃ source rebuilt, Program.disassemble input settings = .ok source
      ∧ Program.disassemble bytes settings = .ok rebuilt
      ∧ rebuilt.calls = source.deferredCalls ∧ rebuilt.calls.Perm source.calls
      ∧ (source.readsInOrder = true → rebuilt.calls = source.calls) := by
  obtain ⟨source, rules, hsource, hsettings, htree, -, hwarnings⟩ := decompile_of_ofBytes hread
  obtain rfl : rules = none := by
    rw [Settings.rules, hrules] at hsettings
    exact (Except.ok.inj hsettings).symm
  obtain ⟨rebuilt, hrebuilt, hspell, -, hc⟩ := spells_of_toBytes hwritten hlength htexts
  have hcalls := calls_of_spells hspell hc
  have hdeferred := callsIn_of_decompile htree
  obtain ⟨_, -, -, -, haccounts⟩ := decompile_accounts htree (hwarnings ▸ hkept)
  exact ⟨source, rebuilt, hsource, hrebuilt, hcalls.trans hdeferred, hcalls ▸ haccounts.calls,
    fun horder => by rw [hcalls, hdeferred, deferredCalls_of_readsInOrder htree horder]⟩

/-- The answer of a call is held while another call is made. -/
def reordering : Program where
  elements := #[.localVar 0, .function assignFunction, .function "f", .function "g", .function "h"]
  instructions := [.target 0, .call 1 [], .call 2 [], .call 3 [], .call 4 [0]]
  maxLocals := 1

/-- Decompiled without a warning and compiled again, `f(); g()` becomes `g(); f()`. -/
theorem exists_recompiled_reordering :
    ∃ (input bytes : Bytes) (script : Script), (ofBytes input {}).result = .ok script
      ∧ (ofBytes input {}).warnings = [] ∧ (script.toBytes {}).result = .ok bytes
      ∧ bytes.length < 4294967296
      ∧ (∀ t ∈ Statement.textsList script.strings script.statements,
        Encoding.shiftJis.Survives t)
      ∧ (Program.disassemble input {}).toOption.map Program.calls = some ["f", "g", "h"]
      ∧ (Program.disassemble bytes {}).toOption.map Program.calls = some ["g", "f", "h"] := by
  have hall : (recompiled {} reordering).toOption.any (fun (input, script, bytes) =>
      (ofBytes input {}).warnings == [] && decide (bytes.length < 4294967296)
      && (Statement.textsList script.strings script.statements).all Encoding.isAscii
      && (Program.disassemble input {}).toOption.map Program.calls == some ["f", "g", "h"]
      && (Program.disassemble bytes {}).toOption.map Program.calls == some ["g", "f", "h"])
      = true := by decide +kernel
  cases hresult : recompiled {} reordering with
  | error e => simp [hresult, Except.toOption] at hall
  | ok result =>
    obtain ⟨input, script, bytes⟩ := result
    obtain ⟨-, hread, hwritten⟩ := recompiled_eq_ok_iff.mp hresult
    simp only [hresult, Except.toOption, Option.any_some, Bool.and_eq_true, beq_iff_eq,
      decide_eq_true_eq] at hall
    obtain ⟨⟨⟨⟨hwarnings, hlength⟩, htexts⟩, hsource⟩, hrebuilt⟩ := hall
    exact ⟨input, bytes, script, hread, hwarnings, hwritten, hlength,
      fun t ht => Encoding.survives_of_isAscii (List.all_eq_true.mp htexts t ht), hsource,
      hrebuilt⟩

theorem not_calls_recompiled :
    ¬ ∀ (settings : Settings) (input bytes : Bytes) (script : Script) (source rebuilt : Program),
      settings.externalize = none → (ofBytes input settings).result = .ok script →
      (∀ w ∈ (ofBytes input settings).warnings, w.isLoss = false) →
      (script.toBytes settings).result = .ok bytes →
      (∀ t ∈ Statement.textsList script.strings script.statements,
        settings.encoding.Survives t) →
      Program.disassemble input settings = .ok source →
      Program.disassemble bytes settings = .ok rebuilt → rebuilt.calls = source.calls := by
  intro hall
  obtain ⟨input, bytes, script, hread, hwarnings, hwritten, -, htexts, hsource, hrebuilt⟩ :=
    exists_recompiled_reordering
  cases hfirst : Program.disassemble input {} with
  | error e => simp [hfirst, Except.toOption] at hsource
  | ok source =>
    cases hsecond : Program.disassemble bytes {} with
    | error e => simp [hsecond, Except.toOption] at hrebuilt
    | ok rebuilt =>
      simp only [hfirst, hsecond, Except.toOption, Option.map_some, Option.some.injEq]
        at hsource hrebuilt
      have hsame := hall {} input bytes script source rebuilt rfl hread (by simp [hwarnings])
        hwritten htexts hfirst hsecond
      rw [hsource, hrebuilt] at hsame
      exact absurd hsame (by decide)

theorem calls_recompiled_reordering :
    ∃ (input bytes : Bytes) (script : Script) (source rebuilt : Program),
      (ofBytes input {}).result = .ok script ∧ (script.toBytes {}).result = .ok bytes
      ∧ Program.disassemble input {} = .ok source ∧ Program.disassemble bytes {} = .ok rebuilt
      ∧ rebuilt.calls = source.deferredCalls ∧ rebuilt.calls.Perm source.calls
      ∧ source.calls = ["f", "g", "h"] ∧ rebuilt.calls = ["g", "f", "h"] := by
  obtain ⟨input, bytes, script, hread, hwarnings, hwritten, hlength, htexts, hcalls, hcalls'⟩ :=
    exists_recompiled_reordering
  obtain ⟨source, rebuilt, hsource, hrebuilt, hdeferred, hperm, -⟩ :=
    calls_recompiled rfl hread (by simp [hwarnings]) hwritten hlength htexts
  simp only [hsource, hrebuilt, Except.toOption, Option.map_some, Option.some.injEq]
    at hcalls hcalls'
  exact ⟨input, bytes, script, source, rebuilt, hread, hwritten, hsource, hrebuilt, hdeferred,
    hperm, hcalls, hcalls'⟩

end Script
end NovelScript
