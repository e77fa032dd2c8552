import NovelScript.Proofs.Bytecode.Slots

/-!
# Disassembling undoes assembling

A compiled script is read back as the program that it was made of, with slots in place of positions
(`Program.disassemble_assemble`): the instructions are the same, and so is what the elements say,
if their texts survive the encoding.  Markers are renumbered and their links looked up anew; what
they say does not depend on that.  Texts that do not survive change neither the instructions nor the
kinds and links of elements (`Program.exists_table_of_assemble_respelled`).
-/

namespace NovelScript

namespace ScriptHeader

/-! ## The header -/

/-- A written header is read back, whatever follows it. -/
theorem read_write (header : ScriptHeader) (hlength : header.headerLength = 48)
    (hflag : header.encryption = 0 ∨ header.encryption = 1) (rest : Bytes) :
    read (header.write ++ rest) = .ok header := by
  have hlong : ¬ (header.write ++ rest).length < size := by simp
  have hsignature : (header.write ++ rest).take signature.length = signature := by
    simp only [write, List.append_assoc, List.take_left]
  have hencryption : ¬ (header.encryption ≠ 0 ∧ header.encryption ≠ 1) := by
    rcases hflag with h | h <;> simp [h]
  simp only [read, hlong, if_false, hsignature, ne_eq, not_true_eq_false, fields_write, hlength]
  rw [if_neg hencryption]

end ScriptHeader

namespace Program

variable {program : Program} {spell : String → String}

/-! ## Sections -/

theorem section_append {before mid after : Bytes} {offset : UInt32} {length : Nat}
    (hoffset : offset.toNat = before.length) (hlength : length = mid.length) :
    section_ (before ++ (mid ++ after)) offset length = .ok mid := by
  subst hlength
  rw [section_, hoffset, if_pos (by simp), List.drop_left, List.take_left]

theorem length_flatMap_octets32 (words : List UInt32) :
    (words.flatMap Word.octets32).length = 4 * words.length := by
  induction words with
  | nil => rfl
  | cons word words ih =>
    rw [List.flatMap_cons, List.length_append, ih, Word.length_octets32, List.length_cons]
    omega

theorem length_flatMap_write (records : List ElementRecord) :
    (records.flatMap ElementRecord.write).length = ElementRecord.size * records.length := by
  induction records with
  | nil => rfl
  | cons record records ih =>
    rw [List.flatMap_cons, List.length_append, ih, ElementRecord.length_write, List.length_cons,
      Nat.mul_succ, Nat.add_comm]

/-! ## Records -/

theorem getElem?_placed (program : Program) (id : ElementId) :
    program.placed.elements[id]? = program.elements[id]?.map (program.placeElement id) := by
  rw [placed, Array.getElem?_mapIdx]

section

variable (program) (id : ElementId) (e : Element)

@[simp] theorem face_placeElement : (program.placeElement id e).face = e.face := by
  unfold placeElement
  split <;> rfl

@[simp] theorem tag_placeElement : (program.placeElement id e).tag = e.tag := by
  unfold placeElement
  split <;> rfl

@[simp] theorem texts_placeElement : (program.placeElement id e).texts = e.texts := by
  unfold placeElement
  split <;> rfl

@[simp] theorem register?_placeElement : (program.placeElement id e).register? = e.register? := by
  unfold placeElement
  split <;> rfl

end

/-- Placing labels does not change what elements say. -/
theorem faceAt_placed (id : ElementId) :
    faceAt program.placed.elements id = faceAt program.elements id := by
  simp [faceAt, getElem?_placed, Function.comp_def]

/-- Placing labels does not change the kinds of elements. -/
theorem tag_placed (id : ElementId) :
    program.placed.elements[id]?.map Element.tag = program.elements[id]?.map Element.tag := by
  simp [getElem?_placed, Function.comp_def]

/-- What is related one by one is related at every position. -/
theorem forall₂_getElem? {α β : Type} {R : α → β → Prop} {xs : List α} {ys : List β}
    (h : List.Forall₂ R xs ys) {n : Nat} {x : α} (hx : xs[n]? = some x) :
    ∃ y, ys[n]? = some y ∧ R x y := by
  obtain ⟨hn, rfl⟩ := List.getElem?_eq_some_iff.mp hx
  have hn' : n < ys.length := h.length_eq ▸ hn
  exact ⟨ys[n], List.getElem?_eq_getElem hn', h.get hn hn'⟩

/-- The record restores the element at a position, but for the spelling of texts, and leads to where
its link is placed. -/
def Restored (program : Program) (view : SectorView) (spell : String → String) (id : ElementId)
    (record : ElementRecord) : Prop :=
  ∃ e, program.elements[id]? = some e ∧ ElementRecord.Restores view record (e.respelled spell)
    ∧ ∀ m, e = .marker m → record.LinksTo view (m.link.bind program.labelWord?)

/-- The records of slots restore their elements. -/
theorem writeRecords_spec (view : SectorView) {ids : List ElementId}
    {sector sector' : DataSector} {records : List ElementRecord} (hs : sector.Sound)
    (h : program.writeRecords ids sector = .ok (records, sector')) :
    sector.Grows sector' ∧ (view.Continues sector' →
      (∀ id ∈ ids, ∀ e, program.elements[id]? = some e → ElementRecord.Storable e) →
      List.Forall₂ (program.Restored view sector.encoding.readBack) ids records) := by
  induction ids generalizing sector records with
  | nil =>
    obtain ⟨rfl, rfl⟩ := Prod.mk.inj (Except.ok.inj h)
    exact ⟨.refl _, fun _ _ => .nil⟩
  | cons id ids ih =>
    obtain ⟨e, he, h⟩ := bind_eq_ok_iff.mp h
    obtain ⟨⟨record, sector₁⟩, hrecord, h⟩ := bind_eq_ok_iff.mp h
    obtain ⟨⟨others, sector₂⟩, hothers, h⟩ := bind_eq_ok_iff.mp h
    obtain ⟨rfl, rfl⟩ := Prod.mk.inj (Except.ok.inj h)
    obtain ⟨hgrows₁, hrestores⟩ := ElementRecord.restores_ofElement view hs hrecord
    obtain ⟨hgrows₂, hlater⟩ := ih (hgrows₁.sound hs) hothers
    refine ⟨hgrows₁.trans hgrows₂, fun hview hstorable => ?_⟩
    rw [List.forall_mem_cons] at hstorable
    have hid := getElem?_of_expect he
    have hview₁ := hview.of_grows hgrows₂
    refine .cons ⟨e, hid, hrestores hview₁ (hstorable.1 e hid), ?_⟩ ?_
    · rintro m rfl
      exact ElementRecord.linksTo_ofElement hs hrecord hview₁
    · rw [← hgrows₁.encoding]
      exact hlater hview hstorable.2

/-- The element is that of a position, as it is read before links are looked up. -/
def Reread (program : Program) (spell : String → String) (id : ElementId) (e' : Element) : Prop :=
  ∃ e number, program.elements[id]? = some e ∧ e' = (e.respelled spell).unlinked number

theorem Reread.tag_eq {id : ElementId} {e' : Element} (h : program.Reread spell id e') :
    some e'.tag = program.elements[id]?.map Element.tag := by
  obtain ⟨e, number, he, rfl⟩ := h
  rw [he, Element.tag_unlinked, Element.tag_respelled]
  rfl

/-- Records that restore elements are read as these, one by one. -/
theorem readElements_spec {view : SectorView} {ids : List ElementId}
    {records : List ElementRecord} (h : List.Forall₂ (program.Restored view spell) ids records)
    (index markers : Nat) :
    ∃ es, readElements view index markers records = .ok es
      ∧ List.Forall₂ (program.Reread spell) ids es := by
  induction h generalizing index markers with
  | nil => exact ⟨[], rfl, .nil⟩
  | @cons id record ids records hrecord _ ih =>
    obtain ⟨e, he, hrestores, -⟩ := hrecord
    have helement := hrestores index markers
    obtain ⟨es, hes, hreread⟩ := ih (index + 1)
      (if ((e.respelled spell).unlinked markers).marker?.isSome then markers + 1 else markers)
    refine ⟨(e.respelled spell).unlinked markers :: es, ?_, .cons ⟨e, markers, he, rfl⟩ hreread⟩
    rw [readElements, helement]
    simp only [bind, Except.bind, hes]
    rfl

/-! ## Links -/

/-- The element as it is in a compiled script: a marker belongs with a slot, if that is placed. -/
def relinked (program : Program) (number : Nat) : Element → Element
  | .marker m => .marker { m with
      number
      link := m.link.bind fun t => (program.labelWord? t).map fun _ => program.slot t }
  | e => e

theorem face_relinked (number : Nat) (e : Element) : (program.relinked number e).face = e.face := by
  cases e <;> rfl

theorem tag_relinked (number : Nat) (e : Element) : (program.relinked number e).tag = e.tag := by
  cases e <;> rfl

/-- The table has the elements of the slots, but for the spelling of texts, with labels placed and
links looked up anew. -/
structure Relinks (program : Program) (spell : String → String) (table : Array Element) : Prop where
  size_eq : table.size = program.slots.length
  element : ∀ (n : Nat) (id : ElementId), program.slots[n]? = some id →
    ∃ e number, program.placed.elements[id]? = some e
      ∧ table[n]? = some (program.relinked number (e.respelled spell))

section

variable {table : Array Element}

/-- Links and numbers are no part of what elements say. -/
theorem Relinks.mirrors (h : program.Relinks id table) : program.Mirrors table := by
  intro id hid
  obtain ⟨first, hfirst, hsame⟩ := exists_slot hid
  obtain ⟨e, number, he, htable⟩ := h.element _ first hfirst
  rw [Element.respelled_id] at htable
  rw [faceAt_of_sameSlot hsame, ← faceAt_placed, faceAt, faceAt, htable, he, Option.map_some,
    Option.map_some, face_relinked]

/-- Whatever its texts have become, an element is of the same kind. -/
theorem Relinks.matches (h : program.Relinks spell table) : program.Matches table := by
  intro id hid
  obtain ⟨first, hfirst, hsame⟩ := exists_slot hid
  obtain ⟨e, number, he, htable⟩ := h.element _ first hfirst
  rw [tag_of_sameSlot hsame, ← tag_placed, htable, he, Option.map_some, Option.map_some,
    tag_relinked, Element.tag_respelled]

/-- Where texts survive, the elements are the same. -/
theorem Relinks.survive (h : program.Relinks spell table)
    (htexts : ∀ id ∈ program.references, ∀ e, program.elements[id]? = some e →
      ∀ t ∈ e.texts, spell t = t) : program.Relinks id table where
  size_eq := h.size_eq
  element n ref href := by
    obtain ⟨e, number, he, htable⟩ := h.element n ref href
    refine ⟨e, number, he, ?_⟩
    rw [getElem?_placed] at he
    obtain ⟨old, hold, rfl⟩ := Option.map_eq_some_iff.mp he
    rw [Element.respelled_id, htable, Element.respelled_eq]
    rw [texts_placeElement]
    exact htexts ref (mem_references_of_mem_slots (List.mem_of_getElem? href)) old hold

end

theorem toInt_word {word : Nat} (h : word < 2147483648) :
    (UInt32.ofNat word).toInt32.toInt = word := by
  rw [UInt32.toInt32_ofNat', Int32.toInt_ofNat_of_lt h]

/-- A stored link leads to the slot of the marker that is placed there. -/
theorem storedLink?_eq {view : SectorView} {es : List Element} {record : ElementRecord}
    {link : Option ElementId} (hchecked : ∀ i ∈ program.instructions, program.Checked i)
    (hes : List.Forall₂ (program.placed.Reread spell) program.slots es)
    (hslots : program.slots.length < 4294967296) (hcode : program.code.length < 2147483648)
    (h : record.LinksTo view (link.bind program.labelWord?)) :
    storedLink? es.toArray program.code.toArray view record
      = link.bind fun t => (program.labelWord? t).map fun _ => program.slot t := by
  rw [storedLink?]
  cases link with
  | none => exact if_pos h
  | some t =>
    rw [Option.bind_some] at h ⊢
    cases hword : program.labelWord? t with
    | none =>
      rw [hword] at h
      exact if_pos h
    | some word =>
      rw [hword] at h
      obtain ⟨hnone, hoperator, hinteger⟩ := h
      obtain ⟨hlabel, hcodeWord⟩ := labelWord?_eq_some hword
      have href : t ∈ program.references := mem_references hlabel (List.mem_singleton.mpr rfl)
      have hlt : word < program.code.length := (List.getElem?_eq_some_iff.mp hcodeWord).1
      have hint := toInt_word (Nat.lt_trans hlt hcode)
      rw [if_neg (not_or.mpr ⟨hnone, hoperator⟩), hinteger]
      dsimp only
      rw [hint, if_neg (by omega), Int.toNat_natCast, List.getElem?_toArray, hcodeWord,
        Option.map_some, Option.map_some, toNat_slot hslots href]
      -- the word is that of a label, and its slot holds the marker itself
      obtain ⟨m, hm⟩ := hchecked _ hlabel
      obtain ⟨first, hfirst, hsame⟩ := exists_slot href
      obtain ⟨e', he', hreread⟩ := forall₂_getElem? hes hfirst
      have htag := hreread.tag_eq
      rw [tag_placed, ← tag_of_sameSlot hsame, hm] at htag
      obtain ⟨m', rfl⟩ := Element.exists_marker (Option.some.inj htag)
      refine Option.filter_eq_some_iff.mpr ⟨rfl, ?_⟩
      rw [holdsMarker, List.getElem?_toArray, he']
      rfl

/-- The table that is read has the elements of the slots. -/
theorem relinks_table {view : SectorView} {es : List Element} {records : List ElementRecord}
    (hchecked : ∀ i ∈ program.instructions, program.Checked i)
    (hrecords : List.Forall₂ (program.placed.Restored view spell) program.slots records)
    (hes : List.Forall₂ (program.placed.Reread spell) program.slots es)
    (hslots : program.slots.length < 4294967296) (hcode : program.code.length < 2147483648) :
    program.Relinks spell (es.toArray.zipWith (linkElement es.toArray program.code.toArray view)
      records.toArray) where
  size_eq := by
    simp [← hrecords.length_eq, ← hes.length_eq]
  element n id hid := by
    obtain ⟨record, hrecord, e, he, -, hlinks⟩ := forall₂_getElem? hrecords hid
    obtain ⟨e', he', e₁, number, he₁, rfl⟩ := forall₂_getElem? hes hid
    obtain rfl := Option.some.inj (he.symm.trans he₁)
    refine ⟨e, number, he, ?_⟩
    rw [Array.getElem?_zipWith, List.getElem?_toArray, List.getElem?_toArray, he', hrecord]
    cases e with
    | marker m =>
      have hlink := storedLink?_eq hchecked hes hslots hcode (hlinks m rfl)
      simp only [Element.respelled, Element.unlinked, linkElement, relinked, hlink]
    | _ => rfl

/-! ## The whole script -/

/-- The key octet of the settings, if data sectors are to be scrambled. -/
def sectorKey (settings : Settings) : Option UInt8 :=
  if settings.encrypt then some settings.scriptKey else none

theorem isEncrypted_header (program : Program) (settings : Settings) (code : List UInt32)
    (records : List ElementRecord) (sector : DataSector) :
    (if (program.header settings code records sector).isEncrypted then some settings.scriptKey
      else none) = sectorKey settings := by
  unfold sectorKey header ScriptHeader.isEncrypted
  cases settings.encrypt <;> rfl

/-- The octets of the compiled script with these records and this data sector. -/
def image (program : Program) (settings : Settings) (records : List ElementRecord)
    (sector : DataSector) : Bytes :=
  (program.placed.header settings program.code records sector).write
    ++ (program.code.flatMap Word.octets32 ++ (records.flatMap ElementRecord.write
      ++ scramble (sectorKey settings) sector.bytes))

/-- Assembling checks the program, stores its elements and lays out the sections. -/
theorem exists_image_of_assemble {settings : Settings} {bytes : Bytes}
    (h : program.assemble settings = .ok bytes) :
    program.check = .ok ⟨⟩ ∧ ∃ records sector,
      program.placed.writeRecords program.slots (.empty settings.encoding) = .ok (records, sector)
      ∧ program.image settings records sector = bytes := by
  obtain ⟨⟨⟩, hcheck, h⟩ := bind_eq_ok_iff.mp h
  obtain ⟨⟨records, sector⟩, hrecords, h⟩ := bind_eq_ok_iff.mp h
  refine ⟨hcheck, records, sector, hrecords, ?_⟩
  rw [image, ← List.append_assoc, ← List.append_assoc]
  exact Except.ok.inj h

section

variable (program) (settings : Settings) (records : List ElementRecord) (sector : DataSector)

theorem length_image :
    (program.image settings records sector).length
      = 48 + (4 * program.code.length + (16 * records.length + sector.size)) := by
  simp only [image, List.length_append, ScriptHeader.length_write, length_flatMap_octets32,
    length_flatMap_write, length_scramble, DataSector.length_bytes]
  rfl

theorem read_image :
    ScriptHeader.read (program.image settings records sector)
      = .ok (program.placed.header settings program.code records sector) :=
  ScriptHeader.read_write _ rfl (by unfold header; cases settings.encrypt <;> simp) _

variable {program settings records sector}
  (hfits : (program.image settings records sector).length < UInt32.size)

include hfits

theorem section_code :
    section_ (program.image settings records sector) (.ofNat ScriptHeader.size)
        ((UInt32.ofNat program.code.length).toNat * 4)
      = .ok (program.code.flatMap Word.octets32) := by
  have hsize := length_image program settings records sector
  refine section_append rfl ?_
  rw [UInt32.toNat_ofNat_of_lt' (by omega), length_flatMap_octets32, Nat.mul_comm]

theorem section_index :
    section_ (program.image settings records sector)
        (.ofNat (ScriptHeader.size + 4 * program.code.length))
        ((UInt32.ofNat records.length).toNat * ElementRecord.size)
      = .ok (records.flatMap ElementRecord.write) := by
  have hsize := length_image program settings records sector
  rw [image, ← List.append_assoc]
  refine section_append ?_ ?_
  · rw [UInt32.toNat_ofNat_of_lt' (by simp only [ScriptHeader.size]; omega), List.length_append,
      ScriptHeader.length_write, length_flatMap_octets32]
  · rw [UInt32.toNat_ofNat_of_lt' (by omega), length_flatMap_write, Nat.mul_comm]

theorem section_data :
    section_ (program.image settings records sector)
        (.ofNat (ScriptHeader.size + 4 * program.code.length
          + ElementRecord.size * records.length)) (UInt32.ofNat sector.size).toNat
      = .ok (scramble (sectorKey settings) sector.bytes) := by
  have hsize := length_image program settings records sector
  -- nothing stands behind the data sector
  rw [image, ← List.append_assoc, ← List.append_assoc,
    ← List.append_nil (_ ++ scramble (sectorKey settings) sector.bytes), List.append_assoc]
  refine section_append ?_ ?_
  · rw [UInt32.toNat_ofNat_of_lt' (by simp only [ScriptHeader.size, ElementRecord.size]; omega),
      List.length_append, List.length_append, ScriptHeader.length_write,
      length_flatMap_octets32, length_flatMap_write]
  · rw [UInt32.toNat_ofNat_of_lt' (by omega), length_scramble, DataSector.length_bytes]

end

/-- The stored records of the slots are read as elements that say what those of the program say, but
for the spelling of texts. -/
theorem readElements_writeRecords {settings : Settings} {records : List ElementRecord}
    {sector : DataSector} (hcheck : program.check = .ok ⟨⟩)
    (hrecords : program.placed.writeRecords program.slots (.empty settings.encoding)
      = .ok (records, sector)) (hroom : sector.size < 4294967296) :
    List.Forall₂ (program.placed.Restored ⟨settings.encoding, sector.bytes⟩
        settings.encoding.readBack) program.slots records
      ∧ ∃ es, readElements ⟨settings.encoding, sector.bytes⟩ 0 0 records = .ok es
        ∧ List.Forall₂ (program.placed.Reread settings.encoding.readBack) program.slots es := by
  obtain ⟨hlocals, hregisters, -⟩ := of_check hcheck
  obtain ⟨hgrows, hrestores⟩ := writeRecords_spec ⟨settings.encoding, sector.bytes⟩
    (DataSector.sound_empty settings.encoding) hrecords
  -- the finished sector continues the one under construction
  have hview : SectorView.Continues ⟨settings.encoding, sector.bytes⟩ sector :=
    ⟨hgrows.encoding.symm, List.prefix_refl _, by rw [DataSector.length_bytes]; omega⟩
  have hstorable : ∀ id ∈ program.slots, ∀ e, program.placed.elements[id]? = some e →
      ElementRecord.Storable e := by
    intro id hid e he r hr
    rw [getElem?_placed] at he
    obtain ⟨old, hold, rfl⟩ := Option.map_eq_some_iff.mp he
    rw [register?_placeElement] at hr
    have hlocal : old = .localVar r := by
      cases old <;> simp_all [Element.register?]
    have := hregisters id r (hlocal ▸ hold)
    omega
  have hread := hrestores hview hstorable
  exact ⟨hread, readElements_spec hread 0 0⟩

/-- A compiled script is read as the program with slots in place of positions, and its table has
the elements of the slots, their texts as the encoding has them. -/
theorem exists_table_of_assemble_respelled {settings : Settings} {bytes : Bytes}
    (h : program.assemble settings = .ok bytes) (hlength : bytes.length < 4294967296) :
    ∃ table, disassemble bytes settings
        = .ok ⟨table, program.instructions.map (Instruction.renamed program.slot),
            program.maxLocals⟩
      ∧ program.Relinks settings.encoding.readBack table := by
  obtain ⟨hcheck, records, sector, hrecords, rfl⟩ := exists_image_of_assemble h
  obtain ⟨hlocals, -, hchecked⟩ := of_check hcheck
  have hsize := length_image program settings records sector
  obtain ⟨hrestored, es, hes, hreread⟩ := readElements_writeRecords hcheck hrecords (by omega)
  have hrecordsLength := hrestored.length_eq
  have hwords : Word.words32 (program.code.flatMap Word.octets32) = program.code :=
    Word.words32_flatMap_octets32 _
  have hview : SectorView.open_ settings.encoding (sectorKey settings)
      (scramble (sectorKey settings) sector.bytes) = ⟨settings.encoding, sector.bytes⟩ := by
    rw [SectorView.open_, scramble_scramble]
  -- the table has elements of the same kinds, so the code leads back to its instructions
  have htable := relinks_table hchecked hrestored hreread (by omega) (by omega)
  have hinstructions := readCode_instructionWords htable.matches (by omega) hchecked
    (fun _ hi _ => mem_references hi)
    (show program.code.length < 4294967296 by omega) 0
  have hmax : (UInt32.ofNat program.maxLocals).toNat = program.maxLocals :=
    UInt32.toNat_ofNat_of_lt' hlocals
  have hcipher := isEncrypted_header program.placed settings program.code records sector
  refine ⟨_, ?_, htable⟩
  refine bind_eq_ok_iff.mpr ⟨_, read_image program settings records sector, ?_⟩
  refine bind_eq_ok_iff.mpr ⟨_, section_code hlength, ?_⟩
  refine bind_eq_ok_iff.mpr ⟨_, section_index hlength, ?_⟩
  refine bind_eq_ok_iff.mpr ⟨_, section_data hlength, ?_⟩
  simp only [hcipher, hview, hwords, ElementRecord.ofWords_words32_write]
  refine bind_eq_ok_iff.mpr ⟨es, hes, ?_⟩
  refine bind_eq_ok_iff.mpr ⟨_, hinstructions, ?_⟩
  exact congrArg (fun n => Except.ok (Program.mk _ _ n)) hmax

/-- If texts survive the encoding, the table that is read has the elements of the slots. -/
theorem exists_table_of_assemble {settings : Settings} {bytes : Bytes}
    (h : program.assemble settings = .ok bytes) (hlength : bytes.length < 4294967296)
    (htexts : ∀ id ∈ program.references, ∀ e, program.elements[id]? = some e →
      ∀ t ∈ e.texts, settings.encoding.Survives t) :
    ∃ table, disassemble bytes settings
        = .ok ⟨table, program.instructions.map (Instruction.renamed program.slot),
            program.maxLocals⟩
      ∧ program.Relinks id table := by
  obtain ⟨table, hread, htable⟩ := exists_table_of_assemble_respelled h hlength
  refine ⟨table, hread, htable.survive fun id hid e he t ht => ?_⟩
  exact (htexts id hid e he t ht).readBack

/-- A compiled script is read as the program with slots in place of positions. -/
theorem disassemble_assemble {settings : Settings} {bytes : Bytes}
    (h : program.assemble settings = .ok bytes) (hlength : bytes.length < 4294967296)
    (htexts : ∀ id ∈ program.references, ∀ e, program.elements[id]? = some e →
      ∀ t ∈ e.texts, settings.encoding.Survives t) :
    ∃ table, disassemble bytes settings
        = .ok ⟨table, program.instructions.map (Instruction.renamed program.slot),
            program.maxLocals⟩
      ∧ program.Mirrors table := by
  obtain ⟨table, hread, htable⟩ := exists_table_of_assemble h hlength htexts
  exact ⟨table, hread, htable.mirrors⟩

end Program
end NovelScript
