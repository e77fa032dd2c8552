import NovelScript.Proofs.Bytecode.Inversion
import Mathlib.Data.List.Induction

/-!
# A disassembled program is the assembled one, renumbered

Disassembling gives every element that the instructions refer to its slot for a position, and slots
are numbered by first use (`Program.eraseDups_map_slot`).  Apart from that numbering the program is
the one that was assembled (`Program.Renumbers`): labels have moved to where they are placed first,
links that lead to no label are gone, and so is what no instruction refers to.
-/

namespace NovelScript
namespace Program

variable {program : Program}

/-! ## Numbering by first use -/

theorem firstUses_append (seen refs refs' : List ElementId) :
    program.firstUses seen (refs ++ refs')
      = program.firstUses (program.firstUses seen refs) refs' := by
  induction refs generalizing seen with
  | nil => rfl
  | cons ref refs ih =>
    rw [List.cons_append, firstUses, firstUses]
    split
    · exact ih seen
    · exact ih (seen ++ [ref])

/-- Slots that are open stay where they are. -/
theorem isPrefix_firstUses (seen refs : List ElementId) :
    seen <+: program.firstUses seen refs := by
  induction refs generalizing seen with
  | nil => exact List.prefix_refl seen
  | cons ref refs ih =>
    rw [firstUses]
    split
    · exact ih seen
    · exact (List.prefix_append seen [ref]).trans (ih (seen ++ [ref]))

/-- What shares no open slot comes behind them. -/
theorem slotIn_append {seen rest : List ElementId} {id : ElementId}
    (h : seen.any (program.sameSlot id) = false) :
    program.slotIn (seen ++ [id] ++ rest) id = seen.length := by
  have hnone : seen.findIdx (program.sameSlot id) = seen.length := by
    refine List.findIdx_eq_length.mpr fun a ha => ?_
    rw [List.any_eq_false] at h
    simpa using h a ha
  rw [slotIn, List.append_assoc, List.findIdx_append, hnone, if_neg (Nat.lt_irrefl _),
    List.singleton_append, List.findIdx_cons, sameSlot_self, cond_true, Nat.zero_add]

/-- Without repetitions, a list grows by what it lacks. -/
theorem eraseDups_concat (xs : List Nat) (x : Nat) :
    (xs ++ [x]).eraseDups = if x ∈ xs then xs.eraseDups else xs.eraseDups ++ [x] := by
  rw [List.eraseDups_append, List.removeAll, List.filter_singleton]
  split
  · next h =>
    rw [List.elem_eq_true_of_mem h]
    exact List.append_nil _
  · next h =>
    have hnew : List.elem x xs = false := by simpa using h
    rw [hnew]
    rfl

/-- The slots of references, without repetitions, count up from zero. -/
theorem eraseDups_map_slot (program : Program) :
    (program.references.map program.slot).eraseDups = List.range program.slots.length := by
  -- by the references from the front on, so that the slots open so far are known
  have hprefix : ∀ refs rest, refs ++ rest = program.references →
      (refs.map program.slot).eraseDups = List.range (program.firstUses [] refs).length := by
    intro refs
    induction refs using List.reverseRecOn with
    | nil =>
      intro rest _
      rfl
    | append_singleton refs id ih =>
      intro rest hrest
      rw [List.append_assoc] at hrest
      have hbefore := ih ([id] ++ rest) hrest
      have hmem : ∀ ref ∈ refs, ref ∈ program.references :=
        fun ref href => hrest ▸ List.mem_append_left _ href
      have hid : id ∈ program.references := hrest ▸ List.mem_append_right _ (by simp)
      rw [List.map_append, List.map_singleton, eraseDups_concat, hbefore, firstUses_append,
        firstUses]
      by_cases hseen : (program.firstUses [] refs).any (program.sameSlot id) = true
      · rw [if_pos hseen, firstUses]
        -- an element that shares an open slot has been referred to before
        obtain ⟨first, hfirst, hsame⟩ := List.any_eq_true.mp hseen
        have hfirst := (mem_of_mem_firstUses hfirst).resolve_left List.not_mem_nil
        have hold : program.slot id ∈ refs.map program.slot := by
          rw [(slot_eq_iff hid (hmem first hfirst)).mpr hsame]
          exact List.mem_map_of_mem hfirst
        rw [if_pos hold]
      · rw [if_neg hseen, firstUses]
        have hslot : program.slot id = (program.firstUses [] refs).length := by
          obtain ⟨rest', hrest'⟩ :=
            program.isPrefix_firstUses (program.firstUses [] refs ++ [id]) rest
          have hslots : program.slots = program.firstUses [] refs ++ [id] ++ rest' := by
            have hrefs : program.slots = program.firstUses [] (refs ++ ([id] ++ rest)) := by
              rw [hrest]
              rfl
            rw [hrefs, firstUses_append, List.singleton_append, firstUses, if_neg hseen, hrest']
          rw [slot, hslots]
          exact slotIn_append (by simpa using hseen)
        have hnew : program.slot id ∉ refs.map program.slot := by
          rw [← List.mem_eraseDups, hbefore, hslot]
          exact List.not_mem_range_self
        rw [if_neg hnew, hslot, List.length_append, List.length_singleton, List.range_succ]
  exact hprefix program.references [] (List.append_nil _)

/-! ## Renumbered programs -/

/-- The program that is read is another one with its positions renumbered by first use.  A label has
moved to where it is placed first, and a link is kept only if it leads to a label. -/
structure Renumbers (program read : Program) (number : ElementId → ElementId) : Prop where
  maxLocals_eq : read.maxLocals = program.maxLocals
  instructions_eq : read.instructions = program.instructions.map (Instruction.renamed number)
  numbered : (program.references.map number).eraseDups = List.range read.elements.size
  identifies : ∀ a ∈ program.references, ∀ b ∈ program.references, number a = number b ↔
    a = b ∨ ∃ e, e.marker? = none ∧ program.elements[a]? = some e ∧ program.elements[b]? = some e
  plain : ∀ id ∈ program.references, ∀ e, program.elements[id]? = some e → e.marker? = none →
    read.elements[number id]? = some e
  marker : ∀ id ∈ program.references, ∀ m, program.elements[id]? = some (.marker m) →
    ∃ m', read.elements[number id]? = some (.marker m') ∧ m'.name = m.name
      ∧ (∀ word, program.labelWord? id = some word → m'.labelOffset.toNat = word)
      ∧ (program.labelWord? id = none → m'.labelOffset = m.labelOffset)
      ∧ m'.link = m.link.bind fun target =>
          if .label target ∈ program.instructions then some (number target) else none

theorem placeElement_plain {id : ElementId} {e : Element} (h : e.marker? = none) :
    program.placeElement id e = e := by
  cases e with
  | marker m => cases h
  | _ => rfl

theorem placeElement_marker (id : ElementId) (m : Marker) :
    program.placeElement id (.marker m) = .marker { m with
      labelOffset := ((program.labelWord? id).map UInt32.ofNat).getD m.labelOffset } := by
  rw [placeElement.eq_def]
  cases program.labelWord? id with
  | none => rfl
  | some word => rfl

/-- A table of relinked slots renumbers the program. -/
theorem Relinks.renumbers {table : Array Element} (h : program.Relinks id table)
    (hcode : program.code.length < 4294967296) :
    program.Renumbers
      ⟨table, program.instructions.map (Instruction.renamed program.slot), program.maxLocals⟩
      program.slot where
  maxLocals_eq := rfl
  instructions_eq := rfl
  numbered := by
    rw [eraseDups_map_slot, h.size_eq]
  identifies a ha b hb := (slot_eq_iff ha hb).trans sameSlot_iff
  plain id hid e he hplain := by
    obtain ⟨first, hfirst, hsame⟩ := exists_slot hid
    -- the element that has opened the slot is the same one
    have hsome : program.elements[first]? = some e := by
      rcases sameSlot_iff.mp hsame with rfl | ⟨e', -, hid', hfirst'⟩
      · exact he
      · rw [hfirst', ← hid', he]
    obtain ⟨e', number, he', htable⟩ := h.element _ first hfirst
    rw [getElem?_placed, hsome, Option.map_some, placeElement_plain hplain] at he'
    obtain rfl := Option.some.inj he'
    rw [htable]
    cases e with
    | marker m => cases hplain
    | _ => rfl
  marker id hid m hm := by
    obtain ⟨first, hfirst, hsame⟩ := exists_slot hid
    -- a marker opens a slot of its own
    obtain rfl := eq_of_sameSlot_marker hm hsame
    obtain ⟨e, number, he, htable⟩ := h.element _ id hfirst
    rw [getElem?_placed, hm, Option.map_some, placeElement_marker] at he
    obtain rfl := Option.some.inj he
    refine ⟨_, htable, rfl, fun word hword => ?_, fun hnone => ?_, ?_⟩
    · have hlt := (List.getElem?_eq_some_iff.mp (labelWord?_eq_some hword).2).1
      simp only [hword, Option.map_some, Option.getD_some]
      exact UInt32.toNat_ofNat_of_lt' (Nat.lt_trans hlt hcode)
    · simp only [hnone, Option.map_none, Option.getD_none]
    · refine congrArg m.link.bind (funext fun target => ?_)
      by_cases hlabel : .label target ∈ program.instructions
      · obtain ⟨word, hword⟩ := Option.isSome_iff_exists.mp (labelWord?_isSome.mpr hlabel)
        rw [if_pos hlabel, hword, Option.map_some]
      · rw [if_neg hlabel, labelWord?_eq_none hlabel, Option.map_none]

/-- **Disassembling recovers what was assembled, up to renumbering.**  If a program is assembled to
less than 4 GiB, and the texts of all that its instructions refer to survive the encoding, the
compiled script is read as that program with its positions renumbered by first use. -/
theorem disassemble_renumbers {settings : Settings} {bytes : Bytes}
    (h : program.assemble settings = .ok bytes) (hlength : bytes.length < 4294967296)
    (htexts : ∀ id ∈ program.references, ∀ e, program.elements[id]? = some e →
      ∀ t ∈ e.texts, settings.encoding.Survives t) :
    ∃ read number, disassemble bytes settings = .ok read ∧ program.Renumbers read number := by
  obtain ⟨table, hread, htable⟩ := exists_table_of_assemble h hlength htexts
  obtain ⟨-, records, sector, -, rfl⟩ := exists_image_of_assemble h
  have hsize := length_image program settings records sector
  exact ⟨_, _, hread, htable.renumbers (by omega)⟩

/-- Texts in ASCII survive every encoding. -/
theorem survives_of_all_isAscii {encoding : Encoding}
    (h : program.elements.toList.all (fun e => e.texts.all Encoding.isAscii) = true)
    {id : ElementId} {e : Element} (he : program.elements[id]? = some e) :
    ∀ t ∈ e.texts, encoding.Survives t := by
  intro t ht
  have hmem : e ∈ program.elements.toList := Array.mem_toList_iff.mpr (Array.mem_of_getElem? he)
  have hall := List.all_eq_true.mp h e hmem
  exact Encoding.survives_of_isAscii (List.all_eq_true.mp hall t ht)

/-- A label that belongs with itself, a call with one value in two positions, and an element that no
instruction refers to. -/
def looping : Program where
  elements := #[.text "unused", .integer ⟨3, false⟩, .marker ⟨"again", some 2, 5, 0⟩,
    .function "Say", .integer ⟨3, false⟩]
  instructions := [.call 3 [4, 1], .label 2, .call 3 [2]]
  maxLocals := 0

theorem assemble_looping :
    ∃ bytes, looping.assemble {} = .ok bytes ∧ bytes.length < 4294967296 := by
  have hok : (looping.assemble {}).toOption.any (·.length < 4294967296) = true := by
    decide +kernel
  cases hresult : looping.assemble {} with
  | error e => simp [hresult, Except.toOption] at hok
  | ok bytes => exact ⟨bytes, rfl, by simpa [hresult, Except.toOption] using hok⟩

theorem disassemble_renumbers_looping : ∃ bytes read number,
    looping.assemble {} = .ok bytes ∧ disassemble bytes {} = .ok read
      ∧ looping.Renumbers read number := by
  obtain ⟨bytes, hassemble, hlength⟩ := assemble_looping
  obtain ⟨read, number, hread, hrenumbers⟩ := disassemble_renumbers hassemble hlength
    fun id _ e he => survives_of_all_isAscii (by decide +kernel) he
  exact ⟨bytes, read, number, hassemble, hread, hrenumbers⟩

end Program
end NovelScript
