import NovelScript.Proofs.Bytecode.Inversion
import NovelScript.Proofs.Script.Emission
import NovelScript.Proofs.Script.Walk
import NovelScript.Script.Basic

/-!
# Scripts survive compilation

Decompiling a compiled tree gives the tree back (`decompile_compile`), and so does the way through a
compiled script, with texts from the string table in place of their keys
(`Script.ofBytes_toBytes`).

Both rest on `decompile_of_spells`: the compiler emits instructions that spell the symbolic code of
the tree, and a compiled script is read as a program that spells the same code.
-/

namespace NovelScript

/-! ## Programs -/

/-- Compiling refuses a tree or gives a program that decompiles to it. -/
theorem decompile_of_compile {strings : Option StringTable} {tree : List Statement}
    {program : Program} (table : Option StringTable)
    (h : (compile strings tree).result = .ok program)
    (hdepth : Statement.depthList tree ≤ maxBlockDepth) :
    decompile none table program
      = ⟨.ok (Statement.resolveList (strings.getD .empty) tree), table, []⟩ := by
  obtain ⟨hspell, hlocals, htree⟩ := spells_of_compile h
  exact decompile_of_spells program table hspell (Nat.le_of_eq hlocals.symm) htree hdepth

/-- The decompiler inverts the compiler: a compiled tree of plain texts, with blocks at most 64
deep, is read back as it is, without a warning. -/
theorem decompile_compile {strings : Option StringTable} {tree : List Statement}
    {program : Program} (h : (compile strings tree).result = .ok program)
    (hplain : Statement.isPlainList tree = true) (hdepth : Statement.depthList tree ≤ 64) :
    decompile none none program = ⟨.ok tree, none, []⟩ := by
  rw [decompile_of_compile none h hdepth, Statement.resolveList_of_isPlainList tree hplain]

/-- A conditional over a chain with a sign, with a block of a call and a captured call. -/
def branchingTree : List Statement := [.conditional
  (.operation [.integer 1, .operation [.integer 0, .call "rnd" [.integer 6]] ["-"]] ["<"])
  [.bodyCall "menu" [.text (.plain "start")] [.label "again"]]
  (some [.assignment (.var (.flag .flag 3)) (.call "ask" [.labelRef "again"])])]

theorem decompile_compile_branchingTree :
    ∃ program, (compile none branchingTree).result = .ok program
      ∧ decompile none none program = ⟨.ok branchingTree, none, []⟩ := by
  have hok : (compile none branchingTree).result.isOk = true := by decide +kernel
  cases hresult : (compile none branchingTree).result with
  | error e => simp [hresult, Except.isOk, Except.toBool] at hok
  | ok program => exact ⟨program, rfl, decompile_compile hresult rfl (by decide)⟩

/-! ## Compiled scripts -/

theorem texts_face (e : Element) : e.face.texts = e.texts := by
  cases e <;> rfl

theorem spells_renamed {elements table : Array Element} {f : ElementId → ElementId}
    {instructions : List Instruction} {code : SymbolicCode}
    (h : SpellsAll elements instructions code)
    (hf : ∀ i ∈ instructions, ∀ id ∈ i.references, faceAt table (f id) = faceAt elements id) :
    SpellsAll table (instructions.map (Instruction.renamed f)) code := by
  induction h with
  | nil => exact .nil
  | @cons i s instructions code hi _ ih =>
    rw [List.forall_mem_cons] at hf
    refine .cons ?_ (ih hf.2)
    cases i with
    | call function arguments =>
      cases s with
      | call face faces =>
        obtain ⟨hfunction, harguments⟩ := List.forall_mem_cons.mp hf.1
        refine ⟨hfunction.trans hi.1, ?_⟩
        rw [List.map_map, ← hi.2]
        exact List.map_congr_left harguments
      | label _ | target _ => exact hi.elim
    | label id | target id =>
      cases s <;> first
        | exact hi.elim
        | exact (hf.1 id List.mem_cons_self).trans hi

theorem exists_face_of_spells {elements : Array Element} {i : Instruction}
    {s : SymbolicInstruction} (h : i.Spells elements s) {id : ElementId}
    (hid : id ∈ i.references) : ∃ face ∈ s.faces, faceAt elements id = some face := by
  cases i with
  | call function arguments =>
    cases s with
    | call face faces =>
      rcases List.mem_cons.mp hid with rfl | hid
      · exact ⟨face, List.mem_cons_self, h.1⟩
      · have hmem : faceAt elements id ∈ faces.map some := h.2 ▸ List.mem_map_of_mem hid
        obtain ⟨face', hface', heq⟩ := List.mem_map.mp hmem
        exact ⟨face', List.mem_cons_of_mem _ hface', heq.symm⟩
    | label _ | target _ => exact h.elim
  | label marker | target element =>
    obtain rfl := List.mem_singleton.mp hid
    cases s <;> first
      | exact h.elim
      | exact ⟨_, List.mem_cons_self, h⟩

/-- The elements that instructions refer to say what the code that they spell says. -/
theorem exists_face_of_spellsAll {elements : Array Element} {instructions : List Instruction}
    {code : SymbolicCode} (h : SpellsAll elements instructions code) {id : ElementId}
    (hid : id ∈ instructions.flatMap Instruction.references) :
    ∃ face ∈ code.flatMap SymbolicInstruction.faces, faceAt elements id = some face := by
  induction h with
  | nil => simp at hid
  | @cons i s instructions code hi _ ih =>
    rw [List.flatMap_cons, List.mem_append] at hid
    simp only [List.flatMap_cons, List.mem_append]
    rcases hid with hid | hid
    · obtain ⟨face, hface, hat⟩ := exists_face_of_spells hi hid
      exact ⟨face, .inl hface, hat⟩
    · obtain ⟨face, hface, hat⟩ := ih hid
      exact ⟨face, .inr hface, hat⟩

namespace Script

/-- A script that is read has been decompiled from a program. -/
theorem decompile_of_ofBytes {script : Script} {settings : Settings} {input : Bytes}
    (h : (ofBytes input settings).result = .ok script) :
    ∃ source rules, Program.disassemble input settings = .ok source ∧ settings.rules = .ok rules
      ∧ (NovelScript.decompile rules (some .empty) source).result = .ok script.statements
      ∧ (NovelScript.decompile rules (some .empty) source).strings.getD .empty = script.strings
      ∧ (NovelScript.decompile rules (some .empty) source).warnings
        = (ofBytes input settings).warnings := by
  rw [ofBytes] at h ⊢
  cases hsource : Program.disassemble input settings with
  | error e => simp [hsource] at h
  | ok source =>
    cases hrules : settings.rules with
    | error e => simp [hsource, hrules] at h
    | ok rules =>
      simp only [hsource, hrules] at h ⊢
      cases htree : (NovelScript.decompile rules (some .empty) source).result with
      | error e => simp [htree, Except.map] at h
      | ok tree =>
        rw [htree] at h
        obtain rfl := Except.ok.inj h
        exact ⟨source, rules, rfl, rfl, htree, rfl, rfl⟩

/-- A compiled script is read as a program that spells the code of its tree, with room for the
registers, if the names and texts of the script survive the encoding. -/
theorem spells_of_toBytes {script : Script} {settings : Settings} {bytes : Bytes}
    (h : (script.toBytes settings).result = .ok bytes) (hlength : bytes.length < 4294967296)
    (htexts : ∀ t ∈ Statement.textsList script.strings script.statements,
      settings.encoding.Survives t) :
    ∃ program, Program.disassemble bytes settings = .ok program
      ∧ SpellsAll program.elements program.instructions
          (Symbolic.statements script.strings {} script.statements).1
      ∧ (Symbolic.statements script.strings {} script.statements).2.highWater ≤ program.maxLocals
      ∧ Statement.CompilableList script.statements := by
  obtain ⟨program, hcompile, hassemble⟩ := bind_eq_ok_iff.mp h
  obtain ⟨hspell, hlocals, htree⟩ := spells_of_compile hcompile
  -- names that the compiler adds are spelled in letters that every encoding has
  have hreserved : ∀ t ∈ reservedNames, settings.encoding.Survives t := fun t ht =>
    Encoding.survives_of_isAscii (List.all_eq_true.mp (by decide +kernel) t ht)
  have hcode := Symbolic.statements_texts hreserved script.strings {} script.statements htree htexts
  obtain ⟨table, hread, hm⟩ := Program.disassemble_assemble hassemble hlength
    fun id hid e he t ht => by
      obtain ⟨face, hface, hat⟩ := exists_face_of_spellsAll hspell hid
      simp only [faceAt, he, Option.map_some, Option.some.injEq] at hat
      exact hcode face hface t (hat ▸ (texts_face e).symm ▸ ht)
  -- the table that is read says in every slot what the program says there
  exact ⟨_, hread, spells_renamed hspell fun i hi id hid =>
    hm id (List.mem_flatMap.mpr ⟨i, hi, hid⟩), Nat.le_of_eq hlocals.symm, htree⟩

/-- A script comes back from its compiled form with the texts of its table in their places, if its
blocks are at most 64 deep and its names and texts survive the encoding. -/
theorem ofBytes_toBytes {script : Script} {settings : Settings} {bytes : Bytes}
    (h : (script.toBytes settings).result = .ok bytes) (hlength : bytes.length < 2147483648)
    (hsettings : settings.externalize = none)
    (hdepth : Statement.depthList script.statements ≤ 64)
    (htexts : ∀ t ∈ Statement.textsList script.strings script.statements,
      settings.encoding.Survives t) :
    (Script.ofBytes bytes settings).result
      = .ok ⟨Statement.resolveList script.strings script.statements, .empty⟩ := by
  obtain ⟨program, hread, hspell, hroom, htree⟩ := spells_of_toBytes h (by omega) htexts
  have hback := decompile_of_spells program (some .empty) hspell hroom htree hdepth
  have hrules : settings.rules = .ok none := by rw [Settings.rules, hsettings]
  simp only [ofBytes, hread, hrules, hback]
  rfl

/-- A program in stored form, the script read from it, and what that compiles to. -/
def recompiled (settings : Settings) (program : Program) :
    Except ScriptError (Bytes × Script × Bytes) := do
  let input ← program.assemble settings
  let script ← (ofBytes input settings).result
  let bytes ← (script.toBytes settings).result
  return (input, script, bytes)

theorem recompiled_eq_ok_iff {settings : Settings} {program : Program} {input bytes : Bytes}
    {script : Script} :
    recompiled settings program = .ok (input, script, bytes)
      ↔ program.assemble settings = .ok input ∧ (ofBytes input settings).result = .ok script
        ∧ (script.toBytes settings).result = .ok bytes := by
  simp only [recompiled, bind_eq_ok_iff]
  constructor
  · rintro ⟨_, hstored, _, hread, _, hwritten, hpure⟩
    cases hpure
    exact ⟨hstored, hread, hwritten⟩
  · rintro ⟨hstored, hread, hwritten⟩
    exact ⟨_, hstored, _, hread, _, hwritten, rfl⟩

/-- A script with a text in its table and a key that the table lacks. -/
def greeting : Script where
  statements := [.conditional (.var (.special "rune"))
    [.call "Say" [.text (.external "T0"), .text (.external "T1")]] none]
  strings := .ofEntries [⟨"T0", "hello"⟩]

theorem ofBytes_toBytes_greeting :
    ∃ bytes, (greeting.toBytes {}).result = .ok bytes ∧ (Script.ofBytes bytes {}).result
      = .ok ⟨[.conditional (.var (.special "rune"))
          [.call "Say" [.text (.plain "hello"), .text (.plain "T1")]] none], .empty⟩ := by
  have hok : (greeting.toBytes {}).result.toOption.any (·.length < 2147483648) = true := by
    decide +kernel
  have htexts : ∀ t ∈ Statement.textsList greeting.strings greeting.statements,
      Encoding.shiftJis.Survives t := fun t ht =>
    Encoding.survives_of_isAscii (List.all_eq_true.mp (by decide +kernel) t ht)
  cases hresult : (greeting.toBytes {}).result with
  | error e => simp [hresult, Except.toOption] at hok
  | ok bytes =>
    have hlength : bytes.length < 2147483648 := by simpa [hresult, Except.toOption] using hok
    exact ⟨bytes, rfl, ofBytes_toBytes hresult hlength rfl (by decide) htexts⟩

end Script
end NovelScript
