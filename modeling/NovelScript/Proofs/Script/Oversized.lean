import NovelScript.Proofs.Bytecode.Inversion
import NovelScript.Proofs.Script.Emission
import NovelScript.Script.Codec

/-!
# A compiled script of 4 GiB

Offsets and lengths in a compiled script are words of 32 bits, and the assembler writes what is left
of them.  A script that calls one function is assembled however long the name is, and with a name of
4 GiB the file says that its data sector is empty (`Script.disassemble_callOf`).
-/

namespace NovelScript

namespace Script

/-- A script that calls one function. -/
def calling (name : String) : Script := ⟨[.call name []], .empty⟩

theorem textsList_calling (name : String) :
    Statement.textsList .empty (calling name).statements = [name] := rfl

theorem depthList_calling (name : String) : Statement.depthList (calling name).statements ≤ 64 :=
  Nat.zero_le _

/-- The program of a script that calls one function. -/
def callOf (name : String) : Program := ⟨#[.function name], [.call 0 []], 0⟩

/-- The data sector of a script that calls one function. -/
def nameSector (name : String) (octets : Bytes) : DataSector := ⟨.shiftJis, [(.text name, octets)]⟩

/-- The record of the function. -/
def nameRecord : ElementRecord := ⟨0, 0, 0, 0⟩

section

variable {name : String} {octets : Bytes}

theorem compile_calling (hname : name ≠ assignFunction) :
    (compile (some .empty) (calling name).statements).result = .ok (callOf name) := by
  have hends : Ends (Compile.statements (some .empty) [.call name []]) {} (fun code draft =>
      code = [.call 0 []] ∧ draft.elements = #[.function name] ∧ draft.locals.highWater = 0)
      noFailure := by
    simp [Compile.statements, Compile.statement, Compile.callWith, Compile.argumentsOf,
      Compile.release, Compile.function, Compile.intern, Compile.checkReleased,
      Compile.checkNeighbours, hname, LocalPool.liveCount, LocalPool.highWater]
    exact ⟨rfl, rfl, rfl⟩
  obtain ⟨code, draft, hrun, rfl, helements, hlocals⟩ := hends.run_eq
  simp only [calling, compile, hrun, Except.map, helements, hlocals, callOf]

theorem assemble_callOf (h : Encoding.shiftJis.encodeTerminated name = .ok octets) :
    (callOf name).assemble {}
      = .ok ((callOf name).image {} [nameRecord] (nameSector name octets)) := by
  have hrecords : (callOf name).writeRecords [0] (.empty .shiftJis)
      = .ok ([nameRecord], nameSector name octets) := by
    simp [Program.writeRecords, Program.expect, bind, Except.bind, ElementRecord.ofElement,
      DataSector.writeText, DataSector.offset?, DataSector.offsetIn, DataSector.empty, h,
      DataSector.append, pure, Except.pure, DataSector.size, Element.tag, Program.lastCall,
      Program.callsSlot, positioned, Program.sameSlot, callOf, nameRecord, nameSector]
  refine bind_eq_ok_iff.mpr ⟨⟨⟩, rfl, ?_⟩
  refine bind_eq_ok_iff.mpr ⟨_, hrecords, ?_⟩
  simp only [Program.image, List.append_assoc]
  rfl

theorem toBytes_calling (hname : name ≠ assignFunction)
    (h : Encoding.shiftJis.encodeTerminated name = .ok octets) :
    ((calling name).toBytes {}).result
      = .ok ((callOf name).image {} [nameRecord] (nameSector name octets)) :=
  bind_eq_ok_iff.mpr ⟨_, compile_calling hname, assemble_callOf h⟩

/-- A name of 4 GiB has a data sector whose length does not fit its word. -/
theorem disassemble_callOf (hlength : octets.length = 4294967296) :
    Program.disassemble ((callOf name).image {} [nameRecord] (nameSector name octets)) {}
      = .error (.outOfRange 0 0) := by
  have hsize : (nameSector name octets).size = 4294967296 := by
    simp [nameSector, DataSector.size, hlength]
  have hcode : (callOf name).code = [0, 0] := by
    simp [callOf, Program.code, Program.slots, Program.firstUses, Instruction.references,
      Program.instructionWords, Program.slotIn, Program.sameSlot]
  generalize nameSector name octets = sector at hsize ⊢
  generalize hinput : (callOf name).image {} [nameRecord] sector = input
  have hread : ScriptHeader.read input = .ok ⟨1, 48, 0, 48, 2, 56, 1, 72, 0, 0, 0⟩ := by
    rw [← hinput, Program.read_image, Program.header, hcode, hsize]
    rfl
  rw [Program.image, hcode] at hinput
  have hcodeSection : Program.section_ input 48 ((2 : UInt32).toNat * 4)
      = .ok [0, 0, 0, 0, 0, 0, 0, 0] := by
    rw [← hinput]
    refine Program.section_append ?_ ?_
    · rw [ScriptHeader.length_write]; rfl
    · rfl
  have hindexSection : Program.section_ input 56 ((1 : UInt32).toNat * ElementRecord.size)
      = .ok nameRecord.write := by
    rw [← hinput, ← List.append_assoc]
    refine Program.section_append ?_ ?_
    · rw [List.length_append, ScriptHeader.length_write]; rfl
    · rfl
  have hdataSection : Program.section_ input 72 (0 : UInt32).toNat = .ok [] := by
    rw [← hinput, ← List.append_assoc, ← List.append_assoc]
    refine @Program.section_append _ [] _ _ _ ?_ rfl
    rw [List.length_append, List.length_append, ScriptHeader.length_write]
    rfl
  simp only [Program.disassemble, hread, bind, Except.bind, hcodeSection, hindexSection,
    hdataSection]
  rfl

end

/-- A name of `n` letters. -/
def longName (n : Nat) : String := .ofList (List.replicate n 'a')

theorem eq_of_mem_longName {n : Nat} {c : Char} (h : c ∈ (longName n).toList) : c = 'a' := by
  rw [longName, String.toList_ofList] at h
  exact List.eq_of_mem_replicate h

theorem longName_ne (n : Nat) : longName n ≠ assignFunction := by
  intro h
  have hmem : '=' ∈ (longName n).toList := by
    rw [h]
    decide
  exact absurd (eq_of_mem_longName hmem) (by decide)

theorem survives_longName (n : Nat) : Encoding.shiftJis.Survives (longName n) := by
  refine Encoding.survives_of_isAscii (List.all_eq_true.mpr fun c hc => ?_)
  rw [eq_of_mem_longName hc]
  decide

theorem encodeTerminated_longName (n : Nat) :
    ∃ octets, Encoding.shiftJis.encodeTerminated (longName n) = .ok octets
      ∧ octets.length = n + 1 := by
  have hascii : ∀ c ∈ (longName n).toList, c.toNat < 0x80 := fun c hc => by
    rw [eq_of_mem_longName hc]
    decide
  have hencode : Encoding.shiftJis.encode (longName n) = .ok _ :=
    Encoding.encode_eq_ok_iff.mpr ⟨_, Encoding.mapM_ascii hascii, rfl⟩
  rw [Encoding.encodeTerminated, hencode]
  exact ⟨_, rfl, by simp [longName]⟩

/-- There are texts of any length that survive. -/
theorem exists_survives (n : Nat) : ∃ text octets, Encoding.shiftJis.Survives text
    ∧ Encoding.shiftJis.encodeTerminated text = .ok octets ∧ octets.length = n + 1
    ∧ ∀ c ∈ text.toList, c = 'a' := by
  obtain ⟨octets, hoctets, hlength⟩ := encodeTerminated_longName n
  exact ⟨longName n, octets, survives_longName n, hoctets, hlength, fun _ => eq_of_mem_longName⟩

end Script
end NovelScript
