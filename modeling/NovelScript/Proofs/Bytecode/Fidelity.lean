import NovelScript.Proofs.Bytecode.Reassembly

/-!
# A disassembled program is true to its file

Nothing is known of a file that is read: offsets, counts, links and tags may be anything.  If the
disassembler accepts it all the same, the instructions are the code words of the file and nothing
else (`Program.readCode_spec`), and the elements are those of its records, numbered markers and
links included (`Program.Reflects`).

Such a program is in order but for its locals and texts, which are all that the assembler can refuse
it for (`Program.reflects_of_disassemble`).
-/

namespace NovelScript

/-! ## Words -/

/-- The words of an instruction in the code stream. -/
def Instruction.words : Instruction → List Nat
  | .call function arguments => function :: arguments.length :: arguments
  | .label marker => [marker]
  | .target element => [element]

/-- The number of a marker. -/
def Element.number? (e : Element) : Option Nat := e.marker?.map Marker.number

theorem Word.length_words32 (input : Bytes) : (Word.words32 input).length = input.length / 4 := by
  match input with
  | [] | [_] | [_, _] | [_, _, _] => simp [Word.words32]
  | a :: b :: c :: d :: rest =>
    simp only [Word.words32, List.length_cons, length_words32 rest]
    omega

theorem ElementRecord.length_ofWords (words : List UInt32) :
    (ElementRecord.ofWords words).length = words.length / 4 := by
  match words with
  | [] | [_] | [_, _] | [_, _, _] => simp [ElementRecord.ofWords]
  | tag :: field1 :: field2 :: field3 :: rest =>
    simp only [ElementRecord.ofWords, List.length_cons, length_ofWords rest]
    omega

namespace Program

/-- The words of the code stream. -/
def words (program : Program) : List Nat := program.instructions.flatMap Instruction.words

/-! ## Instructions -/

theorem readArguments_spec {elements : Array Element} {word : Nat} {arguments : List UInt32}
    {ids : List ElementId} (h : readArguments elements word arguments = .ok ids) :
    ids = arguments.map UInt32.toNat ∧ ∀ id ∈ ids, ∃ e, elements[id]? = some e := by
  induction arguments generalizing word ids with
  | nil =>
    obtain rfl := Except.ok.inj h
    simp
  | cons argument rest ih =>
    rw [readArguments] at h
    by_cases hlt : argument.toNat < elements.size
    · simp only [hlt, if_true] at h
      obtain ⟨others, hothers, h⟩ := bind_eq_ok_iff.mp h
      obtain rfl := Except.ok.inj h
      obtain ⟨rfl, hin⟩ := ih hothers
      exact ⟨rfl, List.forall_mem_cons.mpr ⟨⟨_, Array.getElem?_eq_getElem hlt⟩, hin⟩⟩
    · simp [hlt, throw, throwThe, MonadExceptOf.throw, bind, Except.bind] at h

/-- Instructions are gathered from all the words, and refer to elements of the right kinds. -/
theorem readCode_spec {program : Program} {word : Nat} {code : List UInt32}
    {instructions : List Instruction}
    (h : readCode program.elements word code = .ok instructions) :
    instructions.flatMap Instruction.words = code.map UInt32.toNat
      ∧ ∀ i ∈ instructions, program.Checked i := by
  fun_induction readCode program.elements word code generalizing instructions with
  | case1 =>
    obtain rfl := Except.ok.inj h
    simp
  | case2 | case3 | case4 | case8 => cases h
  | case5 word head name hhead count rest hlong ih =>
    obtain ⟨arguments, harguments, h⟩ := bind_eq_ok_iff.mp h
    obtain ⟨others, hothers, h⟩ := bind_eq_ok_iff.mp h
    obtain rfl := Except.ok.inj h
    obtain ⟨rfl, hin⟩ := readArguments_spec harguments
    obtain ⟨hwords, hchecked⟩ := ih hothers
    -- as many words are left as the count says
    have hcount : (rest.take count.toNat).length = count.toNat := by
      rw [List.length_take]
      omega
    refine ⟨?_, List.forall_mem_cons.mpr ⟨⟨⟨name, hhead⟩, hin⟩, hchecked⟩⟩
    simp only [List.flatMap_cons, Instruction.words, hwords, List.length_map, hcount,
      List.cons_append, ← List.map_append, List.take_append_drop, List.map_cons]
  | case6 word head rest m hhead ih =>
    obtain ⟨others, hothers, h⟩ := bind_eq_ok_iff.mp h
    obtain rfl := Except.ok.inj h
    obtain ⟨hwords, hchecked⟩ := ih hothers
    refine ⟨?_, List.forall_mem_cons.mpr ⟨⟨m, hhead⟩, hchecked⟩⟩
    rw [List.flatMap_cons, hwords]
    rfl
  | case7 word head rest e _ _ hhead hassign ih =>
    obtain ⟨others, hothers, h⟩ := bind_eq_ok_iff.mp h
    obtain rfl := Except.ok.inj h
    obtain ⟨hwords, hchecked⟩ := ih hothers
    refine ⟨?_, List.forall_mem_cons.mpr ⟨⟨e, hhead, hassign⟩, hchecked⟩⟩
    rw [List.flatMap_cons, hwords]
    rfl

/-! ## Elements -/

/-- A marker that is read carries the number of the markers in front of it. -/
theorem number?_of_element {record : ElementRecord} {index markers : Nat} {view : SectorView}
    {e : Element} (h : record.element index markers view = .ok e) :
    e.number? = if e.marker?.isSome then some markers else none := by
  unfold ElementRecord.element at h
  split at h
  case h_6 | h_7 =>
    obtain ⟨kind, -, h⟩ := bind_eq_ok_iff.mp h
    obtain ⟨id, -, h⟩ := bind_eq_ok_iff.mp h
    obtain rfl := Except.ok.inj h
    rfl
  case h_8 =>
    obtain rfl := Except.ok.inj h
    rfl
  case h_9 => cases h
  all_goals
    obtain ⟨field, -, h⟩ := bind_eq_ok_iff.mp h
    obtain rfl := Except.ok.inj h
    rfl

/-- There is an element for every record, and markers are numbered in the order of the records. -/
theorem readElements_numbers {view : SectorView} {index markers : Nat}
    {records : List ElementRecord} {es : List Element}
    (h : readElements view index markers records = .ok es) :
    es.length = records.length ∧
      es.filterMap Element.number? = List.range' markers (es.countP (·.marker?.isSome)) := by
  induction records generalizing index markers es with
  | nil =>
    obtain rfl := Except.ok.inj h
    simp
  | cons record records ih =>
    obtain ⟨e, he, h⟩ := bind_eq_ok_iff.mp h
    obtain ⟨others, hothers, h⟩ := bind_eq_ok_iff.mp h
    obtain rfl := Except.ok.inj h
    obtain ⟨hlength, hnumbers⟩ := ih hothers
    refine ⟨by rw [List.length_cons, hlength, List.length_cons], ?_⟩
    rw [List.filterMap_cons, number?_of_element he, List.countP_cons]
    cases hmarker : e.marker?.isSome with
    | true => simpa [hmarker, List.range'_succ] using hnumbers
    | false => simpa [hmarker] using hnumbers

/-! ## Links -/

/-- A link leads to a marker that is a word of the code. -/
theorem storedLink?_eq_some {elements : Array Element} {code : Array UInt32} {view : SectorView}
    {record : ElementRecord} {link : ElementId}
    (h : storedLink? elements code view record = some link) :
    (∃ m, elements[link]? = some (.marker m)) ∧ link ∈ code.toList.map UInt32.toNat := by
  unfold storedLink? at h
  split at h
  · cases h
  split at h
  · cases h
  split at h
  · cases h
  obtain ⟨hslot, hmarker⟩ := Option.filter_eq_some_iff.mp h
  obtain ⟨slot, hcode, rfl⟩ := Option.map_eq_some_iff.mp hslot
  obtain ⟨m, hm⟩ := Option.isSome_iff_exists.mp hmarker
  obtain ⟨e, he, hm⟩ := Option.bind_eq_some_iff.mp hm
  refine ⟨⟨m, Element.eq_of_marker? hm ▸ he⟩, List.mem_map_of_mem ?_⟩
  exact Array.mem_toList_iff.mpr (Array.mem_of_getElem? hcode)

/-- Looking links up keeps what does not depend on them. -/
theorem map_zipWith_linkElement {α : Type} {elements : Array Element} {code : Array UInt32}
    {view : SectorView} {f : Element → α}
    (hf : ∀ e record, f (linkElement elements code view e record) = f e) {es : List Element}
    {records : List ElementRecord} (h : es.length = records.length) :
    (es.zipWith (linkElement elements code view) records).map f = es.map f := by
  induction es generalizing records with
  | nil => rfl
  | cons e es ih =>
    cases records with
    | nil => cases h
    | cons record records =>
      rw [List.zipWith_cons_cons, List.map_cons, List.map_cons, hf, ih (Nat.succ.inj h)]

/-! ## The whole file -/

theorem section_eq_ok {input bytes : Bytes} {offset : UInt32} {length : Nat}
    (h : section_ input offset length = .ok bytes) :
    bytes = (input.drop offset.toNat).take length ∧ bytes.length = length := by
  unfold section_ at h
  split at h
  · obtain rfl := Except.ok.inj h
    simp only [List.length_take, List.length_drop, true_and]
    omega
  · cases h

/-- The code words of a file with this header. -/
def codeOf (header : ScriptHeader) (input : Bytes) : List UInt32 :=
  Word.words32 ((input.drop header.codeOffset.toNat).take (header.codeCount.toNat * 4))

/-- What a file is read as comes of its code words and of as many records as the header says. -/
theorem exists_parts_of_disassemble {input : Bytes} {settings : Settings} {program : Program}
    (h : disassemble input settings = .ok program) :
    ∃ header records view es, ScriptHeader.read input = .ok header
      ∧ (codeOf header input).length = header.codeCount.toNat
      ∧ records.length = header.indexCount.toNat
      ∧ readElements view 0 0 records = .ok es
      ∧ program.elements = (es.zipWith
          (linkElement es.toArray (codeOf header input).toArray view) records).toArray
      ∧ readCode program.elements 0 (codeOf header input) = .ok program.instructions
      ∧ program.maxLocals = header.maxLocals.toNat := by
  obtain ⟨header, hheader, h⟩ := bind_eq_ok_iff.mp h
  obtain ⟨codeBytes, hcode, h⟩ := bind_eq_ok_iff.mp h
  obtain ⟨indexBytes, hindex, h⟩ := bind_eq_ok_iff.mp h
  obtain ⟨dataBytes, -, h⟩ := bind_eq_ok_iff.mp h
  obtain ⟨es, hes, h⟩ := bind_eq_ok_iff.mp h
  obtain ⟨instructions, hinstructions, h⟩ := bind_eq_ok_iff.mp h
  obtain rfl := Except.ok.inj h
  obtain ⟨rfl, hcodeLength⟩ := section_eq_ok hcode
  obtain ⟨-, hindexLength⟩ := section_eq_ok hindex
  refine ⟨header, _, _, es, hheader, ?_, ?_, hes, List.zipWith_toArray _ _ _, hinstructions, rfl⟩
  · rw [codeOf, Word.length_words32, hcodeLength]
    omega
  · rw [ElementRecord.length_ofWords, Word.length_words32, hindexLength, ElementRecord.size]
    omega

/-- The program says what the file with this header does: its instructions are the code words of
the file, its elements the records, links lead to markers in the code, and markers are numbered from
zero. -/
structure Reflects (program : Program) (input : Bytes) (header : ScriptHeader) : Prop where
  words_eq : program.words = (codeOf header input).map UInt32.toNat
  length_words : program.words.length = header.codeCount.toNat
  size_elements : program.elements.size = header.indexCount.toNat
  checked : ∀ i ∈ program.instructions, program.Checked i
  links : ∀ (id : ElementId) (m : Marker) (link : ElementId),
    program.elements[id]? = some (.marker m) → m.link = some link →
    (∃ m', program.elements[link]? = some (.marker m')) ∧ link ∈ program.words
  numbers : program.elements.toList.filterMap Element.number?
    = List.range (program.elements.toList.countP (·.marker?.isSome))

/-- A program that is read from a file reflects the file. -/
theorem exists_reflects {input : Bytes} {settings : Settings} {program : Program}
    (h : disassemble input settings = .ok program) :
    ∃ header, ScriptHeader.read input = .ok header ∧ program.Reflects input header
      ∧ program.maxLocals = header.maxLocals.toNat := by
  obtain ⟨header, records, view, es, hheader, hcode, hrecords, hes, helements, hinstructions,
    hlocals⟩ := exists_parts_of_disassemble h
  obtain ⟨hwords, hchecked⟩ := readCode_spec hinstructions
  obtain ⟨hlength, hnumbers⟩ := readElements_numbers hes
  have hkeeps {α : Type} {f : Element → α}
      (hf : ∀ e record, f (linkElement es.toArray (codeOf header input).toArray view e record)
        = f e) : program.elements.toList.map f = es.map f := by
    rw [helements]
    exact map_zipWith_linkElement hf hlength
  have hnumber : program.elements.toList.map Element.number? = es.map Element.number? :=
    hkeeps fun e _ => by cases e <;> rfl
  have hmarker : program.elements.toList.map (·.marker?.isSome) = es.map (·.marker?.isSome) :=
    hkeeps fun e _ => by cases e <;> rfl
  refine ⟨header, hheader, ⟨hwords, ?_, ?_, hchecked, ?_, ?_⟩, hlocals⟩
  · rw [words, hwords, List.length_map, hcode]
  · rw [helements, List.size_toArray, List.length_zipWith, hlength, Nat.min_self, hrecords]
  · intro id m link hid hlink
    rw [helements, List.getElem?_toArray, List.getElem?_zipWith_eq_some] at hid
    obtain ⟨e, record, he, -, hmarked⟩ := hid
    cases e with
    | marker m₀ =>
      obtain rfl := Element.marker.inj hmarked
      obtain ⟨⟨m', hm'⟩, hword⟩ := storedLink?_eq_some hlink
      -- what was a marker before links were looked up is one afterwards
      have hplace : (program.elements.toList.map (·.marker?.isSome))[link]? = some true := by
        rw [hmarker, List.getElem?_map, ← List.getElem?_toArray, hm']
        rfl
      rw [List.getElem?_map, Array.getElem?_toList, Option.map_eq_some_iff] at hplace
      obtain ⟨e, he, hsome⟩ := hplace
      obtain ⟨m'', hm''⟩ := Option.isSome_iff_exists.mp hsome
      exact ⟨⟨m'', Element.eq_of_marker? hm'' ▸ he⟩, by rwa [words, hwords]⟩
    | _ => cases hmarked
  · have hnumbered := congrArg (List.filterMap id) hnumber
    have hcounted := congrArg (List.countP id) hmarker
    simp only [List.filterMap_map, List.countP_map, Function.id_comp] at hnumbered hcounted
    rw [hnumbered, hnumbers, List.range_eq_range', ← hcounted]

/-! ## Assembling -/

/-- Whether an encoding has all characters of a text. -/
def Accepts (encoding : Encoding) (t : String) : Prop :=
  ∃ octets, encoding.encodeTerminated t = .ok octets

/-- What is done with an answer decides nothing if it cannot fail. -/
theorem exists_bind_iff {ε α β : Type} {r : Except ε α} {f : α → Except ε β}
    (hf : ∀ a, ∃ b, f a = .ok b) : (∃ b, r >>= f = .ok b) ↔ ∃ a, r = .ok a := by
  constructor
  · rintro ⟨b, h⟩
    obtain ⟨a, ha, -⟩ := bind_eq_ok_iff.mp h
    exact ⟨a, ha⟩
  · rintro ⟨a, ha⟩
    obtain ⟨b, hb⟩ := hf a
    exact ⟨b, bind_eq_ok_iff.mpr ⟨a, ha, hb⟩⟩

section

variable {sector : DataSector} (hs : sector.Sound)

include hs

theorem exists_writeText_iff {t : String} :
    (∃ r, sector.writeText t = .ok r) ↔ Accepts sector.encoding t := by
  constructor
  · rintro ⟨⟨offset, sector'⟩, hwrite⟩
    obtain ⟨-, octets, hencode, -⟩ := DataSector.writeText_spec hs hwrite
    exact ⟨octets, hencode⟩
  · rintro ⟨octets, hencode⟩
    rw [DataSector.writeText]
    split
    · exact ⟨_, rfl⟩
    · rw [hencode]
      exact ⟨_, rfl⟩

/-- An element is stored if its texts are. -/
theorem exists_ofElement_iff {e : Element} {lastCall : Nat} {linkWord : Option Nat} :
    (∃ r, ElementRecord.ofElement e lastCall linkWord sector = .ok r)
      ↔ ∀ t ∈ e.texts, Accepts sector.encoding t := by
  cases e with
  | integer _ | localVar _ => exact iff_of_true ⟨_, rfl⟩ (by simp [Element.texts])
  | marker m =>
    simp only [Element.texts, List.forall_mem_singleton, ← exists_writeText_iff hs]
    cases linkWord <;> exact exists_bind_iff fun _ => ⟨_, rfl⟩
  | _ =>
    simp only [Element.texts, List.forall_mem_singleton, ← exists_writeText_iff hs]
    exact exists_bind_iff fun _ => ⟨_, rfl⟩

/-- Elements are stored one after the other if all their texts are. -/
theorem exists_writeRecords_iff (program : Program) (ids : List ElementId) :
    (∃ r, program.writeRecords ids sector = .ok r)
      ↔ ∀ id ∈ ids, ∃ e, program.elements[id]? = some e
        ∧ ∀ t ∈ e.texts, Accepts sector.encoding t := by
  induction ids generalizing sector with
  | nil => exact iff_of_true ⟨_, rfl⟩ (by simp)
  | cons id ids ih =>
    -- the encoding is the same for all records
    have hgrows {e : Element} {lastCall : Nat} {linkWord : Option Nat}
        {r : ElementRecord × DataSector}
        (h : ElementRecord.ofElement e lastCall linkWord sector = .ok r) : sector.Grows r.2 :=
      (ElementRecord.restores_ofElement ⟨sector.encoding, []⟩ hs h).1
    rw [List.forall_mem_cons]
    constructor
    · rintro ⟨r, h⟩
      obtain ⟨e, he, h⟩ := bind_eq_ok_iff.mp h
      obtain ⟨first, hfirst, h⟩ := bind_eq_ok_iff.mp h
      obtain ⟨others, hothers, -⟩ := bind_eq_ok_iff.mp h
      have hgrown := hgrows hfirst
      refine ⟨⟨e, getElem?_of_expect he, (exists_ofElement_iff hs).mp ⟨first, hfirst⟩⟩, ?_⟩
      rw [← hgrown.encoding]
      exact (ih (hgrown.sound hs)).mp ⟨others, hothers⟩
    · rintro ⟨⟨e, he, htexts⟩, hids⟩
      obtain ⟨first, hfirst⟩ := (exists_ofElement_iff hs).mpr htexts
      have hgrown := hgrows hfirst
      rw [← hgrown.encoding] at hids
      obtain ⟨others, hothers⟩ := (ih (hgrown.sound hs)).mpr hids
      exact ⟨_, bind_eq_ok_iff.mpr ⟨e, expect_eq_ok_iff.mpr he, bind_eq_ok_iff.mpr
        ⟨first, hfirst, bind_eq_ok_iff.mpr ⟨others, hothers, rfl⟩⟩⟩⟩

end

variable {program : Program}

/-- Placing labels does not change texts. -/
theorem texts_placed {id : ElementId} {K : String → Prop} :
    (∃ e, program.placed.elements[id]? = some e ∧ ∀ t ∈ e.texts, K t)
      ↔ ∃ e, program.elements[id]? = some e ∧ ∀ t ∈ e.texts, K t := by
  rw [getElem?_placed]
  cases he : program.elements[id]? with
  | none => simp
  | some e => simp

/-- A program that is in order is assembled if its locals are provided for and the texts that its
instructions refer to can be encoded, and only then. -/
theorem exists_assemble_iff {settings : Settings} (hlocals : program.maxLocals < 4294967296)
    (hchecked : ∀ i ∈ program.instructions, program.Checked i) :
    (∃ bytes, program.assemble settings = .ok bytes)
      ↔ (∀ (id : ElementId) (r : Nat), program.elements[id]? = some (.localVar r) →
          r < program.maxLocals)
        ∧ ∀ id ∈ program.references, ∀ e, program.elements[id]? = some e →
          ∀ t ∈ e.texts, Accepts settings.encoding t := by
  have hrecords := exists_writeRecords_iff (DataSector.sound_empty settings.encoding)
    program.placed program.slots
  constructor
  · rintro ⟨bytes, h⟩
    obtain ⟨hcheck, records, sector, hwritten, -⟩ := exists_image_of_assemble h
    refine ⟨(of_check hcheck).2.1, fun id hid e he => ?_⟩
    -- the texts are those of the element in the slot
    obtain ⟨first, hfirst, hsame⟩ := exists_slot hid
    obtain ⟨e', he', htexts⟩ := texts_placed.mp (hrecords.mp ⟨_, hwritten⟩ first
      (List.mem_of_getElem? hfirst))
    rcases sameSlot_iff.mp hsame with rfl | ⟨_, -, hid', hfirst'⟩
    · exact Option.some.inj (he.symm.trans he') ▸ htexts
    · obtain rfl := Option.some.inj (he.symm.trans hid')
      exact Option.some.inj (hfirst'.symm.trans he') ▸ htexts
  · rintro ⟨hregisters, htexts⟩
    have hcheck := check_of_checked hlocals hregisters hchecked
    obtain ⟨⟨records, sector⟩, hwritten⟩ := hrecords.mpr fun id hid => by
      have href := mem_references_of_mem_slots hid
      obtain ⟨e, he⟩ := exists_element hchecked href
      exact texts_placed.mpr ⟨e, he, htexts id href e he⟩
    exact ⟨_, assemble_eq_image hcheck hwritten⟩

/-- **What is read of any file is true to it and in order.**  A program that the disassembler reads
reflects the file, and it can be assembled under any settings if its locals are provided for and its
texts can be encoded, and only then. -/
theorem reflects_of_disassemble {input : Bytes} {settings : Settings} {program : Program}
    (h : disassemble input settings = .ok program) :
    (∃ header, ScriptHeader.read input = .ok header ∧ program.Reflects input header)
      ∧ ∀ target : Settings, (∃ bytes, program.assemble target = .ok bytes)
        ↔ (∀ (id : ElementId) (r : Nat), program.elements[id]? = some (.localVar r) →
            r < program.maxLocals)
          ∧ ∀ id ∈ program.references, ∀ e, program.elements[id]? = some e →
            ∀ t ∈ e.texts, Accepts target.encoding t := by
  obtain ⟨header, hheader, hreflects, hmax⟩ := exists_reflects h
  have hlocals : program.maxLocals < 4294967296 := hmax ▸ header.maxLocals.toNat_lt
  exact ⟨⟨header, hheader, hreflects⟩, fun _ => exists_assemble_iff hlocals hreflects.checked⟩

/-- A marker whose link leads to the argument count of a call, which is the number of that marker
as well. -/
def strayLink : Bytes :=
  ScriptHeader.write
    { encryption := 0, headerLength := 48, unknown1 := 7, codeOffset := 48, codeCount := 3,
      indexOffset := 60, indexCount := 2, dataOffset := 92, dataLength := 8, maxLocals := 0,
      unknown2 := 0 }
    ++ [0, 1, 1].flatMap Word.octets32
    ++ [ElementRecord.mk 0 0 0 0, ElementRecord.mk 1 2 4 9].flatMap ElementRecord.write
    ++ ([0x66, 0, 0x6D, 0] ++ Word.octets32 1)

/-- What it is read as. -/
def strayLinkRead : Program where
  elements := #[.function "f", .marker ⟨"m", some 1, 0, 9⟩]
  instructions := [.call 0 [1]]
  maxLocals := 0

theorem reflects_of_disassemble_strayLink : disassemble strayLink {} = .ok strayLinkRead
    ∧ (∃ header, ScriptHeader.read strayLink = .ok header
      ∧ strayLinkRead.Reflects strayLink header)
    ∧ ∃ bytes, strayLinkRead.assemble {} = .ok bytes := by
  have hread : disassemble strayLink {} = .ok strayLinkRead := by decide +kernel
  obtain ⟨hreflects, hassemble⟩ := reflects_of_disassemble hread
  have helements {id : ElementId} {e : Element} (he : strayLinkRead.elements[id]? = some e) :
      e = .function "f" ∨ e = .marker ⟨"m", some 1, 0, 9⟩ := by
    simpa [strayLinkRead] using Array.mem_of_getElem? he
  refine ⟨hread, hreflects, (hassemble {}).mpr ⟨fun id r hid => ?_, fun id _ e he => ?_⟩⟩
  · simpa using helements hid
  · rcases helements he with rfl | rfl <;>
      simp only [Element.texts, List.forall_mem_singleton] <;> exact ⟨_, rfl⟩

end Program
end NovelScript
