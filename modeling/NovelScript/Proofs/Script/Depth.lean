import NovelScript.Proofs.Bytecode.Sizes
import NovelScript.Proofs.Script.Acceptance
import NovelScript.Proofs.Script.Checking
import NovelScript.Proofs.Script.Drafts
import NovelScript.Proofs.Script.Oversized

/-!
# Which compiled scripts are read back

The compiler nests blocks as deep as the tree has them, and the decompiler opens at most 64.  This
is the one thing that the reader refuses and the writer does not (`Script.isOk_ofBytes_iff`), as
long as the offsets of the file fit their words (`Script.not_isOk_ofBytes`).

The code of a deep tree is read until a block opens for which there is no room.  Where that is need
not be known: the walk makes the tree or fails for want of room (`Decompile.ends_statements`), and
it makes no tree as deep as this one (`Decompile.depthList_of_decompile`).
-/

namespace NovelScript

namespace Statement

mutual

theorem depth_resolve (strings : StringTable) (s : Statement) :
    (s.resolve strings).depth = s.depth := by
  match s with
  | assignment .. | call .. | label _ => rfl
  | block body => rw [resolve, depth, depth, depthList_resolveList strings body]
  | bodyCall _ _ body => rw [resolve, depth, depth, depthList_resolveList strings body]
  | conditional _ body otherwise =>
    rw [resolve, depth, depth, depthList_resolveList strings body,
      depthOption_resolveOption strings otherwise]

/-- With its texts put back, a tree is as deep as before. -/
theorem depthList_resolveList (strings : StringTable) (tree : List Statement) :
    depthList (resolveList strings tree) = depthList tree := by
  match tree with
  | [] => rfl
  | s :: rest =>
    rw [resolveList, depthList, depthList, depth_resolve strings s,
      depthList_resolveList strings rest]

theorem depthOption_resolveOption (strings : StringTable) (otherwise : Option (List Statement)) :
    depthOption (resolveOption strings otherwise) = depthOption otherwise := by
  match otherwise with
  | none => rfl
  | some body => rw [resolveOption, depthOption, depthOption, depthList_resolveList strings body]

end
end Statement

/-- The code of a tree whose blocks are nested too deep is refused for want of room. -/
theorem decompile_of_deep (program : Program) {strings : StringTable} {tree : List Statement}
    (table : Option StringTable)
    (hspell : SpellsAll program.elements program.instructions
      (Symbolic.statements strings {} tree).1)
    (hroom : (Symbolic.statements strings {} tree).2.highWater ≤ program.maxLocals)
    (htree : Statement.CompilableList tree)
    (hdepth : maxBlockDepth < Statement.depthList tree) :
    ∃ at_, (decompile none table program).result
      = .error (.corrupt (.nestedTooDeep maxBlockDepth at_)) := by
  let full (e : ScriptError) (_ : DecompileState) : Prop :=
    ∃ at_, e = .corrupt (.nestedTooDeep maxBlockDepth at_)
  have hends : Ends (Decompile.statements none program) { strings := table } _ full :=
    Decompile.ends_statements program (by simp) hspell hroom htree (.inr fun at_ _ => ⟨at_, rfl⟩)
  rcases hrun : ((Decompile.statements none program).run.run { strings := table } :
    Except ScriptError (List Statement) × DecompileState) with ⟨r, st⟩
  have hresult : (decompile none table program).result = r := by rw [decompile, hrun]
  cases r with
  | error e =>
    obtain ⟨at_, rfl⟩ := (hends.of_run hrun).2 e rfl
    exact ⟨at_, hresult⟩
  | ok made =>
    -- what is read would be the tree, which is deeper than any tree that is read
    obtain ⟨rfl, -⟩ := (hends.of_run hrun).1 made rfl
    have hshallow := Decompile.depthList_of_decompile hresult
    rw [Statement.moveOutList_none, Statement.depthList_resolveList] at hshallow
    omega

namespace Script

section

variable {script : Script} {settings : Settings} {bytes : Bytes}
  (h : (script.toBytes settings).result = .ok bytes) (hlength : bytes.length < 4294967296)
  (hsettings : settings.externalize = none)
  (htexts : ∀ t ∈ Statement.textsList script.strings script.statements,
    settings.encoding.Survives t)

include h hlength hsettings htexts

theorem ofBytes_of_shallow (hdepth : Statement.depthList script.statements ≤ 64) :
    ∃ back, (ofBytes bytes settings).result = .ok back := by
  obtain ⟨program, hread, hspell, hroom, htree⟩ := spells_of_toBytes h hlength htexts
  have hrules : settings.rules = .ok none := by rw [Settings.rules, hsettings]
  simp only [ofBytes, hread, hrules,
    decompile_of_spells program (some .empty) hspell hroom htree hdepth]
  exact ⟨_, rfl⟩

theorem ofBytes_of_deep (hdepth : 64 < Statement.depthList script.statements) :
    ∃ at_, (ofBytes bytes settings).result = .error (.corrupt (.nestedTooDeep 64 at_)) := by
  obtain ⟨program, hread, hspell, hroom, htree⟩ := spells_of_toBytes h hlength htexts
  have hrules : settings.rules = .ok none := by rw [Settings.rules, hsettings]
  obtain ⟨at_, hdeep⟩ := decompile_of_deep program (some .empty) hspell hroom htree hdepth
  refine ⟨at_, ?_⟩
  simp only [ofBytes, hread, hrules, hdeep]
  rfl

/-- A compiled script whose names and texts survive the encoding is read back exactly if its blocks
are at most 64 deep, and it is refused for no other reason. -/
theorem isOk_ofBytes_iff :
    ((∃ back, (ofBytes bytes settings).result = .ok back)
        ↔ Statement.depthList script.statements ≤ 64)
      ∧ ∀ e, (ofBytes bytes settings).result = .error e →
        ∃ at_, e = .corrupt (.nestedTooDeep 64 at_) := by
  by_cases hdepth : Statement.depthList script.statements ≤ 64
  · obtain ⟨back, hback⟩ := ofBytes_of_shallow h hlength hsettings htexts hdepth
    rw [hback]
    exact ⟨⟨fun _ => hdepth, fun _ => ⟨back, rfl⟩⟩, fun e he => nomatch he⟩
  · obtain ⟨at_, hdeep⟩ := ofBytes_of_deep h hlength hsettings htexts (Nat.lt_of_not_le hdepth)
    rw [hdeep]
    refine ⟨⟨?_, fun hshallow => absurd hshallow hdepth⟩, fun e he =>
      ⟨at_, (Except.error.inj he).symm⟩⟩
    rintro ⟨back, hok⟩
    cases hok

end

/-- A block behind a label. -/
def waiting : Script := ⟨[.label "wait", .block [.call "Pause" [.labelRef "wait"]]], .empty⟩

theorem isOk_ofBytes_waiting :
    ∃ bytes, (waiting.toBytes {}).result = .ok bytes
      ∧ ∃ back, (ofBytes bytes {}).result = .ok back := by
  obtain ⟨bytes, hbytes, hlength⟩ := exists_ok_of_any (r := (waiting.toBytes {}).result)
    (p := (·.length < 4294967296)) (by decide +kernel)
  have htexts : ∀ t ∈ Statement.textsList waiting.strings waiting.statements,
      Encoding.shiftJis.Survives t := fun t ht =>
    Encoding.survives_of_isAscii (List.all_eq_true.mp (by decide +kernel) t ht)
  exact ⟨bytes, hbytes, (isOk_ofBytes_iff hbytes (of_decide_eq_true hlength) rfl htexts).1.mpr
    (by decide)⟩

/-! ## Two scripts that are not read back -/

/-- Blocks inside each other. -/
def nested : Nat → List Statement
  | 0 => []
  | depth + 1 => [.block (nested depth)]

theorem compilableList_nested (n : Nat) : Statement.CompilableList (nested n) := by
  induction n with
  | zero => trivial
  | succ n ih => exact ⟨trivial, ih, trivial⟩

theorem statements_nested (n : Nat) : Symbolic.statements .empty {} (nested n)
    = (List.replicate n (.label (markerFace blockOpen))
        ++ List.replicate n (.label (markerFace blockClose)), {}) := by
  induction n with
  | zero => rfl
  | succ n ih =>
    simp only [nested, Symbolic.statements, Symbolic.statement, Symbolic.braced, ih,
      List.append_nil]
    rw [List.replicate_succ, List.replicate_succ' (a := SymbolicInstruction.label _)]
    simp only [List.cons_append, List.append_assoc]

theorem length_encodeTerminated_brace {brace : String}
    (h : brace = blockOpen ∨ brace = blockClose) :
    ∃ octets, Encoding.shiftJis.encodeTerminated brace = .ok octets ∧ octets.length ≤ 2 := by
  rcases h with rfl | rfl
  · exact ⟨[0x7B, 0], by decide +kernel, Nat.le_refl 2⟩
  · exact ⟨[0x7D, 0], by decide +kernel, Nat.le_refl 2⟩

/-- The instruction places a brace. -/
def IsBrace (program : Program) (i : Instruction) : Prop :=
  ∃ id brace, i = .label id ∧ (brace = blockOpen ∨ brace = blockClose)
    ∧ faceAt program.elements id = some (markerFace brace)

theorem isBrace_of_spellsAll {program : Program} {n : Nat}
    (h : SpellsAll program.elements program.instructions
      (Symbolic.statements .empty {} (nested n)).1)
    {i : Instruction} (hi : i ∈ program.instructions) : IsBrace program i := by
  rw [statements_nested] at h
  obtain ⟨at_, hat⟩ := List.getElem?_of_mem hi
  obtain ⟨s, hs, hspells⟩ := Program.forall₂_getElem? h hat
  obtain ⟨brace, hbrace, rfl⟩ : ∃ brace, (brace = blockOpen ∨ brace = blockClose)
      ∧ s = .label (markerFace brace) :=
    (List.mem_append.mp (List.mem_of_getElem? hs)).elim
      (fun hs => ⟨_, .inl rfl, List.eq_of_mem_replicate hs⟩)
      (fun hs => ⟨_, .inr rfl, List.eq_of_mem_replicate hs⟩)
  cases i with
  | label id => exact ⟨id, brace, rfl, hbrace, hspells⟩
  | call | target => exact hspells.elim

theorem IsBrace.checked {program : Program} {i : Instruction} (h : IsBrace program i) :
    program.Checked i := by
  obtain ⟨id, brace, rfl, -, hface⟩ := h
  obtain ⟨m, hm, -⟩ := getElem?_of_markerFace hface
  exact ⟨m, hm⟩

/-- Nested blocks are written however deep they are. -/
theorem toBytes_nested (n : Nat) : ∃ bytes, (toBytes ⟨nested n, .empty⟩ {}).result = .ok bytes
    ∧ bytes.length ≤ 48 + 52 * n := by
  obtain ⟨program, hcompile⟩ : ∃ program,
      (compile (some .empty) (nested n)).result = .ok program :=
    exists_compile (compilableList_nested n) fun h => nomatch h
  obtain ⟨hspell, hlocals, -⟩ := spells_of_compile hcompile
  rw [Option.getD_some] at hspell hlocals
  have hbraces : ∀ i ∈ program.instructions, IsBrace program i :=
    fun _ => isBrace_of_spellsAll hspell
  rw [statements_nested] at hspell hlocals
  have hcount : program.instructions.length = 2 * n := by
    rw [hspell.length_eq, List.length_append, List.length_replicate, List.length_replicate]
    omega
  have hlength : ∀ {α : Type} (f : Instruction → List α), (∀ id, (f (.label id)).length = 1) →
      (program.instructions.flatMap f).length = 2 * n := by
    intro α f hf
    have hone : ∀ i ∈ program.instructions, (f i).length = 1 := fun i hi => by
      obtain ⟨id, _, rfl, -⟩ := hbraces i hi
      exact hf id
    rw [List.length_flatMap, List.map_eq_replicate_iff.mpr hone, List.sum_replicate_nat, hcount,
      Nat.mul_one]
  have hcode : program.code.length = 2 * n := hlength _ fun _ => rfl
  have hreferences : program.references.length = 2 * n := hlength _ fun _ => rfl
  have hnone : program.maxLocals = 0 := hlocals
  have htexts : ∀ id ∈ program.references, ∀ e, program.elements[id]? = some e → ∀ t ∈ e.texts,
      ∃ octets, Encoding.shiftJis.encodeTerminated t = .ok octets ∧ octets.length ≤ 2 := by
    intro id hid e he t ht
    obtain ⟨i, hi, hid⟩ := List.mem_flatMap.mp hid
    obtain ⟨_, brace, rfl, hbrace, hface⟩ := hbraces i hi
    obtain rfl := List.mem_singleton.mp hid
    obtain ⟨m, hm, rfl⟩ := getElem?_of_markerFace hface
    obtain rfl := Option.some.inj (hm.symm.trans he)
    obtain rfl := List.mem_singleton.mp ht
    exact length_encodeTerminated_brace hbrace
  obtain ⟨bytes, hbytes, hsize⟩ := @Program.exists_assemble_le program {} 2 (by omega)
    (fun _ _ => register_lt_of_compile hcompile) (fun i hi => (hbraces i hi).checked) htexts
  exact ⟨bytes, bind_eq_ok_iff.mpr ⟨program, hcompile, hbytes⟩, by omega⟩

/-- Blocks that are 65 deep are written and not read back.  Neither is a call whose name takes up
4 GiB. -/
theorem not_isOk_ofBytes :
    (∃ bytes, (toBytes ⟨nested 65, .empty⟩ {}).result = .ok bytes
      ∧ (∀ t ∈ Statement.textsList .empty (nested 65), Encoding.shiftJis.Survives t)
      ∧ ∃ at_, (ofBytes bytes {}).result = .error (.corrupt (.nestedTooDeep 64 at_)))
    ∧ ∃ bytes, ((calling (longName 4294967295)).toBytes {}).result = .ok bytes
      ∧ (∀ t ∈ Statement.textsList .empty (calling (longName 4294967295)).statements,
        Encoding.shiftJis.Survives t)
      ∧ Statement.depthList (calling (longName 4294967295)).statements ≤ 64
      ∧ (ofBytes bytes {}).result = .error (.outOfRange 0 0) := by
  constructor
  · obtain ⟨bytes, hbytes, hlength⟩ := toBytes_nested 65
    have htexts : ∀ t ∈ Statement.textsList .empty (nested 65), Encoding.shiftJis.Survives t := by
      have hnone : Statement.textsList .empty (nested 65) = [] := by decide +kernel
      simp [hnone]
    exact ⟨bytes, hbytes, htexts, ofBytes_of_deep hbytes (by omega) rfl htexts
      (by decide +kernel)⟩
  · obtain ⟨octets, hoctets, hlength⟩ := encodeTerminated_longName 4294967295
    refine ⟨_, toBytes_calling (longName_ne _) hoctets, ?_, depthList_calling _, ?_⟩
    · simp only [textsList_calling, List.forall_mem_singleton, survives_longName]
    · rw [ofBytes, disassemble_callOf hlength]

end Script
end NovelScript
