import NovelScript.Proofs.Bytecode.Renumbering
import Mathlib.Data.List.Find

/-!
# Assembling again

A program that `Restates` another one under other positions is assembled to the same octets: the
slots are the same, in the same order, and so are the code, the words of labels and calls, and what
is stored for each slot.  A disassembled program restates the one that was assembled, and so does a
program whose labels assembling has placed.
-/

namespace NovelScript
namespace Program

variable {program other : Program} {number : ElementId → ElementId}

/-! ## Checked programs -/

theorem forM_ok {α ε : Type} {f : α → Except ε Unit} {xs : List α}
    (h : ∀ x ∈ xs, f x = .ok ⟨⟩) : xs.forM f = .ok ⟨⟩ := by
  induction xs with
  | nil => rfl
  | cons x xs ih =>
    obtain ⟨hx, hxs⟩ := List.forall_mem_cons.mp h
    exact bind_eq_ok_iff.mpr ⟨⟨⟩, hx, ih hxs⟩

theorem checkInstruction_of_checked {i : Instruction} (h : program.Checked i) :
    program.checkInstruction i = .ok ⟨⟩ := by
  cases i with
  | call function arguments =>
    obtain ⟨⟨name, hname⟩, harguments⟩ := h
    have hall : arguments.forM (fun argument => discard (program.expect argument)) = .ok ⟨⟩ := by
      refine forM_ok fun id hid => ?_
      obtain ⟨e, he⟩ := harguments id hid
      rw [expect_eq_ok_iff.mpr he]
      rfl
    rw [checkInstruction, expect_eq_ok_iff.mpr hname]
    exact hall
  | label id =>
    obtain ⟨m, hm⟩ := h
    have hsome : (program.marker? id).isSome = true := by
      rw [marker?, hm]
      rfl
    rw [checkInstruction, if_pos hsome]
  | target id =>
    obtain ⟨e, he, hassign⟩ := h
    rw [checkInstruction, expect_eq_ok_iff.mpr he]
    simp only [bind, Except.bind, hassign]
    rfl

/-- A program that is in order passes the checks. -/
theorem check_of_checked (hlocals : program.maxLocals < 4294967296)
    (hregisters : ∀ (id : ElementId) (r : Nat), program.elements[id]? = some (.localVar r) →
      r < program.maxLocals)
    (hchecked : ∀ i ∈ program.instructions, program.Checked i) : program.check = .ok ⟨⟩ := by
  have hfree : program.elements.toList.findSome? program.excessLocal? = none := by
    refine List.findSome?_eq_none_iff.mpr fun e he => ?_
    obtain ⟨id, hid⟩ := List.mem_iff_getElem?.mp he
    cases e with
    | localVar r =>
      have hlt := hregisters id r (by rw [← Array.getElem?_toList, hid])
      exact if_neg (by omega)
    | _ => rfl
  have hlocalsOk : program.checkLocals = .ok ⟨⟩ := by
    rw [checkLocals, hfree]
    exact if_pos hlocals
  have hinstructions : program.instructions.forM program.checkInstruction = .ok ⟨⟩ :=
    forM_ok fun i hi => checkInstruction_of_checked (hchecked i hi)
  exact bind_eq_ok_iff.mpr ⟨⟨⟩, hlocalsOk, hinstructions⟩

/-- What instructions refer to is in the table. -/
theorem exists_element (hchecked : ∀ i ∈ program.instructions, program.Checked i) {id : ElementId}
    (hid : id ∈ program.references) : ∃ e, program.elements[id]? = some e := by
  obtain ⟨i, hi, hid⟩ := List.mem_flatMap.mp hid
  have hcheck := hchecked i hi
  cases i with
  | call function arguments =>
    obtain ⟨⟨name, hname⟩, harguments⟩ := hcheck
    rcases List.mem_cons.mp hid with rfl | hid
    · exact ⟨_, hname⟩
    · exact harguments id hid
  | label marker =>
    obtain ⟨m, hm⟩ := hcheck
    rw [List.mem_singleton.mp hid]
    exact ⟨_, hm⟩
  | target element =>
    obtain ⟨e, he, -⟩ := hcheck
    rw [List.mem_singleton.mp hid]
    exact ⟨e, he⟩

/-- It is a marker, or an element that is stored in the same way under any position. -/
theorem plain_or_marker (hchecked : ∀ i ∈ program.instructions, program.Checked i)
    {id : ElementId} (hid : id ∈ program.references) :
    (∃ e, program.elements[id]? = some e ∧ e.marker? = none)
      ∨ ∃ m, program.elements[id]? = some (.marker m) := by
  obtain ⟨e, he⟩ := exists_element hchecked hid
  cases hmarker : e.marker? with
  | none => exact .inl ⟨e, he, hmarker⟩
  | some m =>
    rw [Element.eq_of_marker? hmarker] at he
    exact .inr ⟨m, he⟩

/-! ## Other positions -/

/-- With other positions, instructions stand at the same words. -/
theorem positioned_renamed (start : Nat) (instructions : List Instruction) :
    positioned start (instructions.map (Instruction.renamed number))
      = (positioned start instructions).map fun entry => (entry.1, entry.2.renamed number) := by
  induction instructions generalizing start with
  | nil => rfl
  | cons i rest ih =>
    have hwidth : (i.renamed number).width = i.width := by
      cases i with
      | call function arguments =>
        simp only [Instruction.renamed, Instruction.width, List.length_map]
      | label id => rfl
      | target id => rfl
    rw [List.map_cons, positioned, positioned, List.map_cons, hwidth, ih]

theorem references_renamed (i : Instruction) :
    (i.renamed number).references = i.references.map number := by
  cases i with
  | call function arguments => rfl
  | label id => rfl
  | target id => rfl

/-- The other program has the same instructions under other positions, and these have elements that
are stored in the same way. -/
structure Restates (program other : Program) (number : ElementId → ElementId) : Prop where
  maxLocals_eq : other.maxLocals = program.maxLocals
  instructions_eq : other.instructions = program.instructions.map (Instruction.renamed number)
  apart : ∀ a ∈ program.references, ∀ b ∈ program.references, number a = number b →
    program.sameSlot a b = true
  plain : ∀ id ∈ program.references, ∀ e, program.elements[id]? = some e → e.marker? = none →
    other.elements[number id]? = some e
  marker : ∀ id ∈ program.references, ∀ m, program.elements[id]? = some (.marker m) →
    ∃ m', other.elements[number id]? = some (.marker m') ∧ m'.name = m.name
      ∧ (program.labelWord? id = none → m'.labelOffset = m.labelOffset)
      ∧ m'.link.bind other.labelWord? = m.link.bind program.labelWord?

namespace Restates

variable (h : program.Restates other number)
  (hchecked : ∀ i ∈ program.instructions, program.Checked i)

include h

theorem references_eq : other.references = program.references.map number := by
  rw [references, references, h.instructions_eq, List.flatMap_map, List.map_flatMap]
  exact List.flatMap_congr fun i _ => references_renamed i

include hchecked

/-- The other program passes the same checks. -/
theorem checked : ∀ i ∈ other.instructions, other.Checked i := by
  rw [h.instructions_eq]
  intro i' hi'
  obtain ⟨i, hi, rfl⟩ := List.mem_map.mp hi'
  have hrefs : ∀ id ∈ i.references, id ∈ program.references := fun id => mem_references hi
  have hcheck := hchecked i hi
  cases i with
  | call function arguments =>
    obtain ⟨hfunction, hids⟩ := List.forall_mem_cons.mp hrefs
    obtain ⟨⟨name, hname⟩, -⟩ := hcheck
    refine ⟨⟨name, h.plain function hfunction _ hname rfl⟩, fun id' hid' => ?_⟩
    obtain ⟨id, hid, rfl⟩ := List.mem_map.mp hid'
    rcases plain_or_marker hchecked (hids id hid) with ⟨e, he, hplain⟩ | ⟨m, hm⟩
    · exact ⟨e, h.plain id (hids id hid) e he hplain⟩
    · obtain ⟨m', hm', -⟩ := h.marker id (hids id hid) m hm
      exact ⟨_, hm'⟩
  | label id =>
    obtain ⟨m, hm⟩ := hcheck
    obtain ⟨m', hm', -⟩ := h.marker id (hrefs id (List.mem_singleton.mpr rfl)) m hm
    exact ⟨m', hm'⟩
  | target id =>
    obtain ⟨e, he, hassign⟩ := hcheck
    have hplain : e.marker? = none := by
      cases e with
      | marker m => cases hassign
      | _ => rfl
    exact ⟨e, h.plain id (hrefs id (List.mem_singleton.mpr rfl)) e he hplain, hassign⟩

/-! ## Slots and code -/

theorem sameSlot_eq {a b : ElementId} (ha : a ∈ program.references) (hb : b ∈ program.references) :
    other.sameSlot (number a) (number b) = program.sameSlot a b := by
  rw [Bool.eq_iff_iff]
  constructor
  · intro hsame
    rcases sameSlot_iff.mp hsame with heq | ⟨e, hplain, hea, heb⟩
    · exact h.apart a ha b hb heq
    · -- what is no marker there is none here either
      have hback : ∀ id ∈ program.references, other.elements[number id]? = some e →
          program.elements[id]? = some e := by
        intro id hid hsome
        rcases plain_or_marker hchecked hid with ⟨e', he', hplain'⟩ | ⟨m, hm⟩
        · rw [h.plain id hid e' he' hplain'] at hsome
          rw [he', hsome]
        · obtain ⟨m', hm', -⟩ := h.marker id hid m hm
          rw [hm'] at hsome
          obtain rfl := Option.some.inj hsome
          cases hplain
      exact sameSlot_iff.mpr (.inr ⟨e, hplain, hback a ha hea, hback b hb heb⟩)
  · intro hsame
    rcases sameSlot_iff.mp hsame with rfl | ⟨e, hplain, hea, heb⟩
    · exact sameSlot_self _
    · exact sameSlot_iff.mpr
        (.inr ⟨e, hplain, h.plain a ha e hea hplain, h.plain b hb e heb hplain⟩)

theorem any_sameSlot_eq {seen : List ElementId} {id : ElementId}
    (hseen : ∀ a ∈ seen, a ∈ program.references) (hid : id ∈ program.references) :
    (seen.map number).any (other.sameSlot (number id)) = seen.any (program.sameSlot id) := by
  rw [Bool.eq_iff_iff, List.any_map, List.any_eq_true, List.any_eq_true]
  refine exists_congr fun a => and_congr_right fun ha => ?_
  rw [Function.comp_apply, h.sameSlot_eq hchecked hid (hseen a ha)]

theorem firstUses_eq {seen refs : List ElementId} (hseen : ∀ a ∈ seen, a ∈ program.references)
    (hrefs : ∀ a ∈ refs, a ∈ program.references) :
    other.firstUses (seen.map number) (refs.map number)
      = (program.firstUses seen refs).map number := by
  induction refs generalizing seen with
  | nil => rfl
  | cons id refs ih =>
    obtain ⟨hid, hrefs⟩ := List.forall_mem_cons.mp hrefs
    rw [List.map_cons, firstUses, firstUses, h.any_sameSlot_eq hchecked hseen hid]
    split
    · exact ih hseen hrefs
    · have hseen' : ∀ a ∈ seen ++ [id], a ∈ program.references :=
        List.forall_mem_append.mpr ⟨hseen, List.forall_mem_singleton.mpr hid⟩
      have hopened := ih hseen' hrefs
      rwa [List.map_append, List.map_singleton] at hopened

theorem slots_eq : other.slots = program.slots.map number := by
  have hrefs := h.references_eq
  rw [references, references] at hrefs
  rw [slots, slots, hrefs]
  exact h.firstUses_eq hchecked (List.forall_mem_nil _) fun a ha => ha

theorem slotIn_eq {id : ElementId} (hid : id ∈ program.references) :
    other.slotIn other.slots (number id) = program.slotIn program.slots id := by
  have hmem : ∀ a ∈ program.slots, a ∈ program.references :=
    fun a ha => mem_references_of_mem_slots ha
  rw [h.slots_eq hchecked, slotIn, slotIn, List.findIdx_map]
  generalize program.slots = slots at hmem
  induction slots with
  | nil => rfl
  | cons first rest ih =>
    obtain ⟨hfirst, hrest⟩ := List.forall_mem_cons.mp hmem
    rw [List.findIdx_cons, List.findIdx_cons, ih hrest, Function.comp_apply,
      h.sameSlot_eq hchecked hid hfirst]

theorem code_eq : other.code = program.code := by
  rw [code, code, h.instructions_eq, List.flatMap_map]
  refine List.flatMap_congr fun i hi => ?_
  have hrefs : ∀ id ∈ i.references, id ∈ program.references := fun id => mem_references hi
  cases i with
  | call function arguments =>
    obtain ⟨hfunction, hids⟩ := List.forall_mem_cons.mp hrefs
    have hwords : (arguments.map number).map
          (fun argument => UInt32.ofNat (other.slotIn other.slots argument))
        = arguments.map fun argument => UInt32.ofNat (program.slotIn program.slots argument) := by
      rw [List.map_map]
      refine List.map_congr_left fun id hid => ?_
      rw [Function.comp_apply, h.slotIn_eq hchecked (hids id hid)]
    rw [Instruction.renamed, instructionWords, instructionWords, hwords, List.length_map,
      h.slotIn_eq hchecked hfunction]
  | label id =>
    rw [Instruction.renamed, instructionWords, instructionWords,
      h.slotIn_eq hchecked (hrefs id (List.mem_singleton.mpr rfl))]
  | target id =>
    rw [Instruction.renamed, instructionWords, instructionWords,
      h.slotIn_eq hchecked (hrefs id (List.mem_singleton.mpr rfl))]

/-! ## What is stored for a slot -/

theorem lastCall_eq {id : ElementId} (hid : id ∈ program.references) :
    other.lastCall (number id) = program.lastCall id := by
  have hcalls : ∀ entry ∈ (positioned 0 program.instructions).reverse,
      ((fun entry => other.callsSlot (number id) entry.2)
        ∘ fun entry : Nat × Instruction => (entry.1, entry.2.renamed number)) entry
        = program.callsSlot id entry.2 := by
    intro entry hentry
    have hmem := mem_of_mem_positioned (List.mem_reverse.mp hentry)
    rw [Function.comp_apply]
    generalize entry.2 = i at hmem
    cases i with
    | call function arguments =>
      have href : function ∈ program.references := mem_references hmem List.mem_cons_self
      exact h.sameSlot_eq hchecked hid href
    | label id => rfl
    | target id => rfl
  rw [lastCall, lastCall, h.instructions_eq, positioned_renamed, ← List.map_reverse,
    List.find?_map, List.find?_congr hcalls, Option.map_map]
  rfl

end Restates

/-- Placing labels leaves markers markers and every other element as it is. -/
theorem getElem?_placed_iff {id : ElementId} {e : Element} (hplain : e.marker? = none) :
    program.placed.elements[id]? = some e ↔ program.elements[id]? = some e := by
  rw [getElem?_placed]
  cases hold : program.elements[id]? with
  | none => rfl
  | some old =>
    rw [Option.map_some, Option.some.injEq, Option.some.injEq]
    cases old with
    | marker m =>
      rw [placeElement_marker]
      refine iff_of_false ?_ ?_
      · rintro rfl
        cases hplain
      · rintro rfl
        cases hplain
    | _ => rfl

/-- Placing labels does not change which elements share a slot. -/
theorem sameSlot_placed (a b : ElementId) : program.placed.sameSlot a b = program.sameSlot a b := by
  rw [Bool.eq_iff_iff, sameSlot_iff, sameSlot_iff]
  refine or_congr_right (exists_congr fun e => and_congr_right fun hplain => ?_)
  rw [getElem?_placed_iff hplain, getElem?_placed_iff hplain]

theorem lastCall_placed (id : ElementId) : program.placed.lastCall id = program.lastCall id := by
  have hcalls : program.placed.callsSlot id = program.callsSlot id := by
    funext i
    cases i with
    | call function arguments => exact sameSlot_placed id function
    | label id => rfl
    | target id => rfl
  rw [lastCall, lastCall, hcalls]
  rfl

/-- Of a marker only its name and the place of its label are stored. -/
theorem ofElement_marker {name : String} {link' : Option ElementId} {number' lastCall : Nat}
    {labelOffset : UInt32} {linkWord : Option Nat} {sector : DataSector} (link : Option ElementId)
    (number : Nat) :
    ElementRecord.ofElement (.marker ⟨name, link', number', labelOffset⟩) lastCall linkWord sector
      = ElementRecord.ofElement (.marker ⟨name, link, number, labelOffset⟩) lastCall linkWord
        sector :=
  rfl

/-- A label is placed at the same word under any positions that keep markers apart. -/
theorem labelWord?_renamed (hinstructions : other.instructions
      = program.instructions.map (Instruction.renamed number))
    (hapart : ∀ a ∈ program.references, ∀ b ∈ program.references, number a = number b →
      program.sameSlot a b = true)
    (hchecked : ∀ i ∈ program.instructions, program.Checked i) {id : ElementId}
    (hid : id ∈ program.references) :
    other.labelWord? (number id) = program.labelWord? id := by
  have hlabels : ∀ entry ∈ positioned 0 program.instructions,
      ((fun entry => entry.2 == .label (number id))
        ∘ fun entry : Nat × Instruction => (entry.1, entry.2.renamed number)) entry
        = (entry.2 == .label id) := by
    intro entry hentry
    have hmem := mem_of_mem_positioned hentry
    rw [Function.comp_apply]
    generalize entry.2 = i at hmem
    cases i with
    | call function arguments => rfl
    | target id => rfl
    | label marker =>
      have href : marker ∈ program.references := mem_references hmem List.mem_cons_self
      obtain ⟨m, hm⟩ := hchecked _ hmem
      rw [Bool.eq_iff_iff, beq_iff_eq, beq_iff_eq, Instruction.renamed, Instruction.label.injEq,
        Instruction.label.injEq]
      exact ⟨fun heq => eq_of_sameSlot_marker hm (hapart marker href id hid heq), congrArg number⟩
  rw [labelWord?, labelWord?, hinstructions, positioned_renamed, List.find?_map,
    List.find?_congr hlabels, Option.map_map]
  rfl

/-- A program that passes the checks, and whose elements can be stored, is laid out. -/
theorem assemble_eq_image {settings : Settings} {records : List ElementRecord}
    {sector : DataSector} (hcheck : program.check = .ok ⟨⟩)
    (hrecords : program.placed.writeRecords program.slots (.empty settings.encoding)
      = .ok (records, sector)) :
    program.assemble settings = .ok (program.image settings records sector) := by
  refine bind_eq_ok_iff.mpr ⟨⟨⟩, hcheck, bind_eq_ok_iff.mpr ⟨_, hrecords, ?_⟩⟩
  rw [image, ← List.append_assoc, ← List.append_assoc]
  rfl

namespace Restates

variable (h : program.Restates other number)
  (hchecked : ∀ i ∈ program.instructions, program.Checked i)

include h hchecked

theorem writeRecords_eq {ids : List ElementId} (hids : ∀ id ∈ ids, id ∈ program.references)
    (sector : DataSector) :
    other.placed.writeRecords (ids.map number) sector
      = program.placed.writeRecords ids sector := by
  induction ids generalizing sector with
  | nil => rfl
  | cons id rest ih =>
    obtain ⟨hid, hrest⟩ := List.forall_mem_cons.mp hids
    have hcall : other.placed.lastCall (number id) = program.placed.lastCall id := by
      rw [lastCall_placed, lastCall_placed, h.lastCall_eq hchecked hid]
    rw [List.map_cons, writeRecords, writeRecords]
    rcases plain_or_marker hchecked hid with ⟨e, he, hplain⟩ | ⟨m, hm⟩
    · have he' := h.plain id hid e he hplain
      rw [expect_eq_ok_iff.mpr ((getElem?_placed_iff hplain).mpr he),
        expect_eq_ok_iff.mpr ((getElem?_placed_iff hplain).mpr he')]
      simp only [bind, Except.bind, hplain, hcall, Option.bind_none, ih hrest]
    · obtain ⟨m', hm', hname, hoffset, hlink⟩ := h.marker id hid m hm
      have hword := labelWord?_renamed h.instructions_eq h.apart hchecked hid
      have hplaced := getElem?_placed program id
      have hplaced' := getElem?_placed other (number id)
      rw [hm, Option.map_some, placeElement_marker] at hplaced
      rw [hm', Option.map_some, placeElement_marker, hword] at hplaced'
      -- both labels are placed at the word, or both stay where they were
      have hsame : ((program.labelWord? id).map UInt32.ofNat).getD m'.labelOffset
          = ((program.labelWord? id).map UInt32.ofNat).getD m.labelOffset := by
        cases hnone : program.labelWord? id with
        | none => exact hoffset hnone
        | some word => rfl
      have hlinkWord :
          m'.link.bind other.placed.labelWord? = m.link.bind program.placed.labelWord? := hlink
      rw [expect_eq_ok_iff.mpr hplaced, expect_eq_ok_iff.mpr hplaced', hsame]
      simp only [bind, Except.bind, Element.marker?, Option.bind_some]
      rw [hlinkWord, hcall, hname, ofElement_marker m.link m.number]
      simp only [ih hrest]

/-- A program that restates another one is assembled to the same octets. -/
theorem assemble_eq_ok {settings : Settings} {bytes : Bytes}
    (hassemble : program.assemble settings = .ok bytes) (hother : other.check = .ok ⟨⟩) :
    other.assemble settings = .ok bytes := by
  obtain ⟨-, records, sector, hrecords, rfl⟩ := exists_image_of_assemble hassemble
  have hrecords' : other.placed.writeRecords other.slots (.empty settings.encoding)
      = .ok (records, sector) := by
    rw [h.slots_eq hchecked, h.writeRecords_eq hchecked
      (fun _ hid => mem_references_of_mem_slots hid), hrecords]
  have himage : other.image settings records sector = program.image settings records sector := by
    have hmaxLocals : other.placed.maxLocals = program.placed.maxLocals := h.maxLocals_eq
    rw [image, image, h.code_eq hchecked, header, header, hmaxLocals]
  rw [← himage]
  exact assemble_eq_image hother hrecords'

end Restates

/-! ## Programs that restate another one -/

/-- A program whose labels have been placed is the same otherwise. -/
theorem restates_placed (program : Program) : program.Restates program.placed id where
  maxLocals_eq := rfl
  instructions_eq := by
    have hsame : ∀ i : Instruction, i.renamed id = i := by
      intro i
      cases i with
      | call function arguments => rw [Instruction.renamed, List.map_id, id_eq]
      | label marker => rfl
      | target element => rfl
    exact ((List.map_congr_left fun i _ => hsame i).trans (List.map_id _)).symm
  apart a _ b _ heq := by
    obtain rfl : a = b := heq
    exact sameSlot_self a
  plain id _ e he hplain := (getElem?_placed_iff hplain).mpr he
  marker id _ m hm := by
    have hplaced : program.placed.elements[id]? = some (program.placeElement id (.marker m)) := by
      rw [getElem?_placed, hm, Option.map_some]
    rw [placeElement_marker] at hplaced
    refine ⟨_, hplaced, rfl, fun hnone => ?_, rfl⟩
    simp only [hnone, Option.map_none, Option.getD_none]

/-- A program that was read restates the one that it renumbers. -/
theorem Renumbers.restates {read : Program} (h : program.Renumbers read number)
    (hchecked : ∀ i ∈ program.instructions, program.Checked i) :
    program.Restates read number := by
  have hapart : ∀ a ∈ program.references, ∀ b ∈ program.references, number a = number b →
      program.sameSlot a b = true :=
    fun a ha b hb heq => sameSlot_iff.mpr ((h.identifies a ha b hb).mp heq)
  refine ⟨h.maxLocals_eq, h.instructions_eq, hapart, h.plain, fun id hid m hm => ?_⟩
  obtain ⟨m', hm', hname, -, hoffset, hlink⟩ := h.marker id hid m hm
  refine ⟨m', hm', hname, hoffset, ?_⟩
  rw [hlink, Option.bind_assoc]
  refine congrArg m.link.bind (funext fun target => ?_)
  by_cases hlabel : .label target ∈ program.instructions
  · have href : target ∈ program.references := mem_references hlabel List.mem_cons_self
    rw [if_pos hlabel, Option.bind_some,
      labelWord?_renamed h.instructions_eq hapart hchecked href]
  · rw [if_neg hlabel, Option.bind_none, labelWord?_eq_none hlabel]

/-- Renumbered positions are all taken, so a program that was read has no other locals. -/
theorem Renumbers.check {read : Program} (h : program.Renumbers read number)
    (hcheck : program.check = .ok ⟨⟩) : read.check = .ok ⟨⟩ := by
  obtain ⟨hlocals, hregisters, hchecked⟩ := of_check hcheck
  refine check_of_checked (h.maxLocals_eq ▸ hlocals) (fun n r hn => ?_)
    ((h.restates hchecked).checked hchecked)
  have hlt : n < read.elements.size := (Array.getElem?_eq_some_iff.mp hn).1
  have hmem : n ∈ program.references.map number := by
    rw [← List.mem_eraseDups, h.numbered]
    exact List.mem_range.mpr hlt
  obtain ⟨id, hid, rfl⟩ := List.mem_map.mp hmem
  rw [h.maxLocals_eq]
  rcases plain_or_marker hchecked hid with ⟨e, he, hplain⟩ | ⟨m, hm⟩
  · rw [h.plain id hid e he hplain] at hn
    obtain rfl := Option.some.inj hn
    exact hregisters id r he
  · obtain ⟨m', hm', -⟩ := h.marker id hid m hm
    rw [hm'] at hn
    cases hn

theorem check_placed (hcheck : program.check = .ok ⟨⟩) : program.placed.check = .ok ⟨⟩ := by
  obtain ⟨hlocals, hregisters, hchecked⟩ := of_check hcheck
  refine check_of_checked hlocals (fun id r hid => ?_)
    (program.restates_placed.checked hchecked)
  exact hregisters id r ((getElem?_placed_iff rfl).mp hid)

/-- **Assembling again gives the same octets.**  If a program is assembled to less than 4 GiB, and
the texts of all that its instructions refer to survive the encoding, the compiled script is read as
a program that is assembled to the very same octets.  So is the program itself after its labels have
been placed. -/
theorem assemble_disassemble {settings : Settings} {bytes : Bytes}
    (h : program.assemble settings = .ok bytes) (hlength : bytes.length < 4294967296)
    (htexts : ∀ id ∈ program.references, ∀ e, program.elements[id]? = some e →
      ∀ t ∈ e.texts, settings.encoding.Survives t) :
    (∃ read, disassemble bytes settings = .ok read ∧ read.assemble settings = .ok bytes)
      ∧ program.afterAssembly.assemble settings = .ok bytes := by
  obtain ⟨hcheck, -⟩ := exists_image_of_assemble h
  obtain ⟨-, -, hchecked⟩ := of_check hcheck
  obtain ⟨read, number, hread, hrenumbers⟩ := disassemble_renumbers h hlength htexts
  refine ⟨⟨read, hread, ?_⟩, ?_⟩
  · exact (hrenumbers.restates hchecked).assemble_eq_ok hchecked h (hrenumbers.check hcheck)
  · rw [afterAssembly, hcheck]
    exact program.restates_placed.assemble_eq_ok hchecked h (check_placed hcheck)

/-- The program with a label, a shared value and an element that is not referred to. -/
theorem assemble_disassemble_looping : ∃ bytes, looping.assemble {} = .ok bytes
    ∧ (∃ read, disassemble bytes {} = .ok read ∧ read.assemble {} = .ok bytes)
    ∧ looping.afterAssembly.assemble {} = .ok bytes := by
  obtain ⟨bytes, hassemble, hlength⟩ := assemble_looping
  obtain ⟨hread, hagain⟩ := assemble_disassemble hassemble hlength
    fun id _ e he => survives_of_all_isAscii (by decide +kernel) he
  exact ⟨bytes, hassemble, hread, hagain⟩

end Program
end NovelScript
