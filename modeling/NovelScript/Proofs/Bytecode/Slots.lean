import NovelScript.Bytecode.Assembly
import NovelScript.Bytecode.Disassembly
import NovelScript.Proofs.Bytecode.Sector
import NovelScript.Proofs.Script.Denotation

/-!
# Slots and the code stream

Every element that the instructions refer to has a slot, and the element in that slot says the same
(`Program.exists_slot`).  So code words lead back to the instructions with slots in place of
positions (`Program.readCode_instructionWords`), whatever else differs in the table that is read.
-/

namespace NovelScript

namespace Instruction

/-- The instruction with other positions. -/
def renamed (f : ElementId → ElementId) : Instruction → Instruction
  | call function arguments => call (f function) (arguments.map f)
  | label marker => label (f marker)
  | target element => target (f element)

end Instruction

namespace Element

/-! ## Kinds of elements -/

theorem exists_function {e : Element} {name : String} (h : e.tag = (function name).tag) :
    ∃ name', e = function name' := by
  cases e with
  | function name' => exact ⟨name', rfl⟩
  | _ => exact absurd h (by simp [tag])

theorem exists_marker {e : Element} {m : Marker} (h : e.tag = (marker m).tag) :
    ∃ m', e = marker m' := by
  cases e with
  | marker m' => exact ⟨m', rfl⟩
  | _ => exact absurd h (by simp [tag])

/-- Whether an element can be assigned to depends on its kind only. -/
theorem isAssignable_eq {e e' : Element} (h : e.tag = e'.tag) :
    e.isAssignable = e'.isAssignable := by
  cases e <;> cases e' <;> first | rfl | exact absurd h (by simp [tag])

end Element

theorem Element.eq_of_marker? {e : Element} {m : Marker} (h : e.marker? = some m) :
    e = .marker m := by
  cases e with
  | marker m' => rw [Option.some.inj h]
  | _ => cases h

namespace Program

variable {program : Program}

/-! ## Slots -/

/-- Positions share a slot if they are the same or have the same element, which is no marker. -/
theorem sameSlot_iff {a b : ElementId} :
    program.sameSlot a b = true ↔
      a = b ∨ ∃ e, e.marker? = none ∧ program.elements[a]? = some e
        ∧ program.elements[b]? = some e := by
  rw [sameSlot, Bool.or_eq_true, beq_iff_eq]
  refine or_congr_right ?_
  split
  · next m hm =>
    rw [hm]
    simp [Element.marker?]
  · next e e' hmarker he he' =>
    rw [he, he', beq_iff_eq]
    constructor
    · rintro rfl
      cases e with
      | marker m => exact (hmarker m rfl).elim
      | _ => exact ⟨_, rfl, rfl, rfl⟩
    · rintro ⟨_, -, h, h'⟩
      exact Option.some.inj (h.trans h'.symm)
  · next hnone =>
    refine iff_of_false (by simp) ?_
    rintro ⟨e, -, he, he'⟩
    exact hnone e e he he'

theorem sameSlot_self (id : ElementId) : program.sameSlot id id = true := by
  simp [sameSlot]

theorem sameSlot_symm {a b : ElementId} (h : program.sameSlot a b = true) :
    program.sameSlot b a = true := by
  rcases sameSlot_iff.mp h with rfl | ⟨e, hmarker, ha, hb⟩
  · exact sameSlot_self a
  · exact sameSlot_iff.mpr (.inr ⟨e, hmarker, hb, ha⟩)

theorem sameSlot_trans {a b c : ElementId} (h : program.sameSlot a b = true)
    (h' : program.sameSlot b c = true) : program.sameSlot a c = true := by
  rcases sameSlot_iff.mp h with rfl | ⟨e, hmarker, ha, hb⟩
  · exact h'
  · rcases sameSlot_iff.mp h' with rfl | ⟨e', -, hb', hc⟩
    · exact h
    · obtain rfl := Option.some.inj (hb.symm.trans hb')
      exact sameSlot_iff.mpr (.inr ⟨e, hmarker, ha, hc⟩)

/-- A marker shares its slot with no other element. -/
theorem eq_of_sameSlot_marker {a b : ElementId} {m : Marker}
    (hm : program.elements[a]? = some (.marker m)) (h : program.sameSlot a b = true) : a = b := by
  rcases sameSlot_iff.mp h with heq | ⟨e, hplain, he, -⟩
  · exact heq
  · rw [hm] at he
    obtain rfl := Option.some.inj he
    cases hplain

/-- Positions that share a slot have elements that say the same. -/
theorem faceAt_of_sameSlot {a b : ElementId} (h : program.sameSlot a b = true) :
    faceAt program.elements a = faceAt program.elements b := by
  rcases sameSlot_iff.mp h with rfl | ⟨e, -, ha, hb⟩
  · rfl
  · rw [faceAt, faceAt, ha, hb]

/-- Positions that share a slot have elements of one kind. -/
theorem tag_of_sameSlot {a b : ElementId} (h : program.sameSlot a b = true) :
    program.elements[a]?.map Element.tag = program.elements[b]?.map Element.tag := by
  rcases sameSlot_iff.mp h with rfl | ⟨e, -, ha, hb⟩
  · rfl
  · rw [ha, hb]

theorem mem_firstUses_of_seen {seen refs : List ElementId} {id : ElementId} (h : id ∈ seen) :
    id ∈ program.firstUses seen refs := by
  induction refs generalizing seen with
  | nil => exact h
  | cons ref refs ih =>
    rw [firstUses]
    split
    · exact ih h
    · exact ih (List.mem_append_left _ h)

/-- Every reference shares a slot with one that opens it. -/
theorem exists_firstUses {seen refs : List ElementId} {id : ElementId} (h : id ∈ refs) :
    ∃ first ∈ program.firstUses seen refs, program.sameSlot id first = true := by
  -- the slots that are open already grow from one reference to the next
  induction refs generalizing seen with
  | nil => simp at h
  | cons ref refs ih =>
    rw [firstUses]
    rcases List.mem_cons.mp h with rfl | h
    · split
      · rename_i hseen
        obtain ⟨first, hfirst, hsame⟩ := List.any_eq_true.mp hseen
        exact ⟨first, mem_firstUses_of_seen hfirst, hsame⟩
      · exact ⟨id, mem_firstUses_of_seen (by simp), sameSlot_self id⟩
    · split
      · exact ih h
      · exact ih h

theorem mem_of_mem_firstUses {seen refs : List ElementId} {id : ElementId}
    (h : id ∈ program.firstUses seen refs) : id ∈ seen ∨ id ∈ refs := by
  induction refs generalizing seen with
  | nil => exact .inl h
  | cons ref refs ih =>
    rw [firstUses] at h
    split at h
    · exact (ih h).imp_right (List.mem_cons_of_mem _)
    · rcases ih h with h | h
      · rcases List.mem_append.mp h with h | h
        · exact .inl h
        · exact .inr (List.mem_singleton.mp h ▸ List.mem_cons_self)
      · exact .inr (List.mem_cons_of_mem _ h)

/-- The elements that the instructions refer to. -/
def references (program : Program) : List ElementId :=
  program.instructions.flatMap Instruction.references

/-- Slots are opened by references. -/
theorem mem_references_of_mem_slots {id : ElementId} (h : id ∈ program.slots) :
    id ∈ program.references :=
  (mem_of_mem_firstUses h).resolve_left List.not_mem_nil

/-- The slot of an element that the instructions refer to. -/
def slot (program : Program) (id : ElementId) : Nat := program.slotIn program.slots id

/-- An element that the instructions refer to has a slot, which it shares with the element in it. -/
theorem exists_slot {id : ElementId} (h : id ∈ program.references) :
    ∃ first, program.slots[program.slot id]? = some first
      ∧ program.sameSlot id first = true := by
  obtain ⟨first, hfirst, hsame⟩ : ∃ first ∈ program.slots, program.sameSlot id first = true :=
    exists_firstUses h
  have hlt : program.slot id < program.slots.length :=
    List.findIdx_lt_length_of_exists ⟨first, hfirst, hsame⟩
  refine ⟨program.slots[program.slot id], List.getElem?_eq_getElem hlt, ?_⟩
  exact List.findIdx_getElem (w := hlt)

theorem slot_lt {id : ElementId} (h : id ∈ program.references) :
    program.slot id < program.slots.length := by
  obtain ⟨first, hfirst, -⟩ := exists_slot h
  exact (List.getElem?_eq_some_iff.mp hfirst).1

/-- Elements have one slot if they share it, and only then. -/
theorem slot_eq_iff {a b : ElementId} (ha : a ∈ program.references)
    (hb : b ∈ program.references) :
    program.slot a = program.slot b ↔ program.sameSlot a b = true := by
  constructor
  · intro h
    obtain ⟨first, hfirst, hsame⟩ := exists_slot ha
    obtain ⟨first', hfirst', hsame'⟩ := exists_slot hb
    rw [h] at hfirst
    obtain rfl := Option.some.inj (hfirst.symm.trans hfirst')
    exact sameSlot_trans hsame (sameSlot_symm hsame')
  · intro h
    have hpredicate : program.sameSlot a = program.sameSlot b := by
      funext c
      rw [Bool.eq_iff_iff]
      exact ⟨sameSlot_trans (sameSlot_symm h), sameSlot_trans h⟩
    rw [slot, slot, slotIn, slotIn, hpredicate]

/-! ## What has been checked -/

/-- The instruction refers to elements of the right kinds. -/
def Checked (program : Program) : Instruction → Prop
  | .call function arguments =>
    (∃ name, program.elements[function]? = some (.function name))
      ∧ ∀ id ∈ arguments, ∃ e, program.elements[id]? = some e
  | .label id => ∃ m, program.elements[id]? = some (.marker m)
  | .target id => ∃ e, program.elements[id]? = some e ∧ e.isAssignable = true

theorem getElem?_of_expect {id : ElementId} {e : Element} (h : program.expect id = .ok e) :
    program.elements[id]? = some e := by
  unfold expect at h
  split at h
  · rename_i x hx
    rw [hx, Except.ok.inj h]
  · simp at h

theorem forM_eq_ok {α ε : Type} {f : α → Except ε Unit} {xs : List α} (h : xs.forM f = .ok ()) :
    ∀ x ∈ xs, f x = .ok () := by
  induction xs with
  | nil => simp
  | cons x xs ih =>
    obtain ⟨_, hx, hxs⟩ := bind_eq_ok_iff.mp h
    exact List.forall_mem_cons.mpr ⟨hx, ih hxs⟩

theorem checked_of_checkInstruction {i : Instruction} (h : program.checkInstruction i = .ok ()) :
    program.Checked i := by
  cases i with
  | call function arguments =>
    obtain ⟨e, he, h⟩ := bind_eq_ok_iff.mp h
    cases e with
    | function name =>
      refine ⟨⟨name, getElem?_of_expect he⟩, fun id hid => ?_⟩
      have harguments : arguments.forM (fun argument => discard (program.expect argument))
          = .ok () := h
      have hok := forM_eq_ok harguments id hid
      rcases hx : program.expect id with e | x
      · rw [hx] at hok
        simp [discard, Functor.discard, Functor.mapConst, Except.map] at hok
      · exact ⟨x, getElem?_of_expect hx⟩
    | _ =>
      simp [Element.functionName?, throw, throwThe, MonadExceptOf.throw, bind, Except.bind] at h
  | label id =>
    simp only [checkInstruction] at h
    split at h
    · rename_i hm
      obtain ⟨m, hm⟩ := Option.isSome_iff_exists.mp hm
      obtain ⟨e, he, hmarker⟩ := Option.bind_eq_some_iff.mp hm
      cases e with
      | marker m' => exact ⟨m', he⟩
      | _ => simp [Element.marker?] at hmarker
    · simp at h
  | target id =>
    obtain ⟨e, he, h⟩ := bind_eq_ok_iff.mp h
    refine ⟨e, getElem?_of_expect he, ?_⟩
    cases hassign : e.isAssignable with
    | true => rfl
    | false => simp [hassign, throw, throwThe, MonadExceptOf.throw] at h

/-- What assembling checks first. -/
theorem of_check (h : program.check = .ok ()) :
    program.maxLocals < 4294967296
      ∧ (∀ (id : ElementId) (r : Nat), program.elements[id]? = some (.localVar r) →
        r < program.maxLocals)
      ∧ ∀ i ∈ program.instructions, program.Checked i := by
  obtain ⟨⟨⟩, hlocals, hinstructions⟩ := bind_eq_ok_iff.mp h
  refine ⟨?_, fun id r hid => ?_, fun i hi =>
    checked_of_checkInstruction (forM_eq_ok hinstructions i hi)⟩
  all_goals
    unfold checkLocals at hlocals
    split at hlocals
    · simp at hlocals
    split at hlocals
  · assumption
  · simp at hlocals
  · rename_i hnone _
    have hmem : Element.localVar r ∈ program.elements.toList :=
      Array.mem_toList_iff.mpr (Array.mem_of_getElem? hid)
    have hfree := List.findSome?_eq_none_iff.mp hnone _ hmem
    simp only [excessLocal?] at hfree
    split at hfree
    · simp at hfree
    · omega
  · simp at hlocals

/-! ## The code stream -/

/-- The table says in every slot what the program says there. -/
def Mirrors (program : Program) (table : Array Element) : Prop :=
  ∀ id ∈ program.references, faceAt table (program.slot id) = faceAt program.elements id

/-- The table has in every slot an element of the kind that the program has there. -/
def Matches (program : Program) (table : Array Element) : Prop :=
  ∀ id ∈ program.references, table[program.slot id]?.map Element.tag
    = program.elements[id]?.map Element.tag

section

variable {table : Array Element}

theorem Matches.getElem? (h : program.Matches table) {id : ElementId}
    (hid : id ∈ program.references) {e : Element} (he : program.elements[id]? = some e) :
    ∃ e', table[program.slot id]? = some e' ∧ e'.tag = e.tag := by
  have htag := h id hid
  rw [he, Option.map_some] at htag
  exact Option.map_eq_some_iff.mp htag

theorem Matches.slot_lt (h : program.Matches table) {id : ElementId}
    (hid : id ∈ program.references) {e : Element} (he : program.elements[id]? = some e) :
    program.slot id < table.size := by
  obtain ⟨e', he', -⟩ := h.getElem? hid he
  exact (Array.getElem?_eq_some_iff.mp he').1

/-- A slot fits in a code word. -/
theorem toNat_slot {id : ElementId} (hsize : program.slots.length < 4294967296)
    (hid : id ∈ program.references) :
    (UInt32.ofNat (program.slot id)).toNat = program.slot id := by
  have hlt := program.slot_lt hid
  exact UInt32.toNat_ofNat_of_lt' (Nat.lt_trans hlt hsize)

theorem readArguments_slots (hm : program.Matches table)
    (hsize : program.slots.length < 4294967296) {arguments : List ElementId}
    (hrefs : ∀ id ∈ arguments, id ∈ program.references)
    (he : ∀ id ∈ arguments, ∃ e, program.elements[id]? = some e) (word : Nat) :
    readArguments table word (arguments.map fun id => UInt32.ofNat (program.slot id))
      = .ok (arguments.map program.slot) := by
  induction arguments generalizing word with
  | nil => rfl
  | cons id arguments ih =>
    rw [List.forall_mem_cons] at hrefs he
    obtain ⟨e, hid⟩ := he.1
    have hlt := hm.slot_lt hrefs.1 hid
    rw [List.map_cons, readArguments, toNat_slot hsize hrefs.1, if_pos hlt, ih hrefs.2 he.2]
    rfl

/-- The words of instructions are gathered into those instructions. -/
theorem readCode_instructionWords (hm : program.Matches table)
    (hsize : program.slots.length < 4294967296) {instructions : List Instruction}
    (hchecked : ∀ i ∈ instructions, program.Checked i)
    (hrefs : ∀ i ∈ instructions, ∀ id ∈ i.references, id ∈ program.references)
    (hlength : (instructions.flatMap (program.instructionWords program.slots)).length < 4294967296)
    (word : Nat) :
    readCode table word (instructions.flatMap (program.instructionWords program.slots))
      = .ok (instructions.map (Instruction.renamed program.slot)) := by
  induction instructions generalizing word with
  | nil => simp [readCode]
  | cons i instructions ih =>
    rw [List.forall_mem_cons] at hchecked hrefs
    rw [List.flatMap_cons, List.length_append] at hlength
    have hrest := ih hchecked.2 hrefs.2 (by omega)
    rw [List.flatMap_cons]
    cases i with
    | call function arguments =>
      obtain ⟨⟨name, hname⟩, harguments⟩ := hchecked.1
      obtain ⟨hfunction, hids⟩ := List.forall_mem_cons.mp hrefs.1
      obtain ⟨e, he, htag⟩ := hm.getElem? hfunction hname
      obtain ⟨name', rfl⟩ := Element.exists_function htag
      have hcount : (UInt32.ofNat arguments.length).toNat = arguments.length := by
        refine UInt32.toNat_ofNat_of_lt' (show arguments.length < 4294967296 from ?_)
        simp only [instructionWords, List.length_cons, List.length_map] at hlength
        omega
      -- the argument count is the number of words that follow
      have hlong : ¬ (arguments.map (fun id => UInt32.ofNat (program.slot id)) ++
          instructions.flatMap (program.instructionWords program.slots)).length
            < arguments.length := by
        simp
      have harguments' := readArguments_slots hm hsize hids harguments (word + 2)
      have hrest' := ih hchecked.2 hrefs.2 (by omega) (word + 2 + arguments.length)
      show readCode table word (UInt32.ofNat (program.slot function)
        :: UInt32.ofNat arguments.length
        :: (arguments.map (fun id => UInt32.ofNat (program.slot id)) ++
          instructions.flatMap (program.instructionWords program.slots))) = _
      rw [readCode]
      simp only [toNat_slot hsize hfunction, he, hcount, hlong, if_false]
      rw [List.take_left' (by simp), List.drop_left' (by simp), harguments', hrest']
      rfl
    | label id =>
      obtain ⟨m, hid⟩ := hchecked.1
      obtain ⟨href, -⟩ := List.forall_mem_cons.mp hrefs.1
      obtain ⟨e, he, htag⟩ := hm.getElem? href hid
      -- another marker is a label as well
      obtain ⟨m', rfl⟩ := Element.exists_marker htag
      have hrest' := ih hchecked.2 hrefs.2 (by omega) (word + 1)
      show readCode table word (UInt32.ofNat (program.slot id)
        :: instructions.flatMap (program.instructionWords program.slots)) = _
      rw [readCode.eq_def]
      simp only [toNat_slot hsize href, he, hrest']
      rfl
    | target id =>
      obtain ⟨e, hid, hassign⟩ := hchecked.1
      obtain ⟨href, -⟩ := List.forall_mem_cons.mp hrefs.1
      obtain ⟨e', he, htag⟩ := hm.getElem? href hid
      rw [← Element.isAssignable_eq htag] at hassign
      have hrest' := ih hchecked.2 hrefs.2 (by omega) (word + 1)
      show readCode table word (UInt32.ofNat (program.slot id)
        :: instructions.flatMap (program.instructionWords program.slots)) = _
      rw [readCode.eq_def]
      simp only [toNat_slot hsize href, he, hrest']
      cases e' <;> first | rfl | simp [Element.isAssignable] at hassign

end

/-! ## Where labels are placed -/

theorem length_instructionWords (slots : List ElementId) (i : Instruction) :
    (program.instructionWords slots i).length = i.width := by
  cases i with
  | call function arguments =>
    simp only [instructionWords, Instruction.width, List.length_cons, List.length_map]
    omega
  | label id => rfl
  | target id => rfl

/-- The word of a label names its marker. -/
theorem getElem?_of_mem_positioned {slots : List ElementId} {instructions : List Instruction}
    {start word : Nat} {id : ElementId} (h : (word, .label id) ∈ positioned start instructions) :
    ∃ n, word = start + n ∧ (instructions.flatMap (program.instructionWords slots))[n]?
      = some (.ofNat (program.slotIn slots id)) := by
  induction instructions generalizing start with
  | nil => cases h
  | cons i rest ih =>
    rw [List.flatMap_cons]
    rcases List.mem_cons.mp h with heq | h
    · obtain ⟨rfl, rfl⟩ := Prod.mk.inj heq
      exact ⟨0, rfl, rfl⟩
    · -- behind an instruction, words count from its end
      obtain ⟨n, rfl, hword⟩ := ih h
      refine ⟨i.width + n, Nat.add_assoc _ _ _, ?_⟩
      rw [List.getElem?_append_right (by rw [length_instructionWords]; omega),
        length_instructionWords, Nat.add_sub_cancel_left]
      exact hword

theorem mem_of_mem_positioned {instructions : List Instruction} {start : Nat}
    {entry : Nat × Instruction} (h : entry ∈ positioned start instructions) :
    entry.2 ∈ instructions := by
  induction instructions generalizing start with
  | nil => cases h
  | cons i rest ih =>
    rcases List.mem_cons.mp h with rfl | h
    · exact List.mem_cons_self
    · exact List.mem_cons_of_mem _ (ih h)

theorem exists_mem_positioned {instructions : List Instruction} {i : Instruction}
    (h : i ∈ instructions) (start : Nat) : ∃ word, (word, i) ∈ positioned start instructions := by
  induction instructions generalizing start with
  | nil => cases h
  | cons first rest ih =>
    rcases List.mem_cons.mp h with rfl | h
    · exact ⟨start, List.mem_cons_self⟩
    · obtain ⟨word, hword⟩ := ih h (start + first.width)
      exact ⟨word, List.mem_cons_of_mem _ hword⟩

/-- A marker is placed where the code names it as a label. -/
theorem labelWord?_eq_some {id : ElementId} {word : Nat} (h : program.labelWord? id = some word) :
    .label id ∈ program.instructions
      ∧ program.code[word]? = some (.ofNat (program.slot id)) := by
  obtain ⟨⟨word', i⟩, hfind, rfl⟩ := Option.map_eq_some_iff.mp h
  have hmem := List.mem_of_find?_eq_some hfind
  obtain rfl : i = .label id := by simpa using List.find?_some hfind
  refine ⟨mem_of_mem_positioned hmem, ?_⟩
  obtain ⟨n, rfl, hword⟩ := getElem?_of_mem_positioned hmem
  rw [Nat.zero_add]
  exact hword

/-- A marker is placed if and only if an instruction does so. -/
theorem labelWord?_isSome {id : ElementId} :
    (program.labelWord? id).isSome = true ↔ .label id ∈ program.instructions := by
  rw [labelWord?, Option.isSome_map, List.find?_isSome]
  constructor
  · rintro ⟨entry, hentry, heq⟩
    exact beq_iff_eq.mp heq ▸ mem_of_mem_positioned hentry
  · intro h
    obtain ⟨word, hword⟩ := exists_mem_positioned h 0
    exact ⟨_, hword, beq_self_eq_true _⟩

theorem labelWord?_eq_none {id : ElementId} (h : .label id ∉ program.instructions) :
    program.labelWord? id = none :=
  Option.not_isSome_iff_eq_none.mp fun hsome => h (labelWord?_isSome.mp hsome)

/-- What an instruction refers to, its program refers to. -/
theorem mem_references {i : Instruction} {id : ElementId} (hi : i ∈ program.instructions)
    (hid : id ∈ i.references) : id ∈ program.references :=
  List.mem_flatMap.mpr ⟨i, hi, hid⟩

end Program
end NovelScript
