import NovelScript.Bytecode.Record
import NovelScript.Proofs.Script.Names
import NovelScript.Proofs.Steps
import NovelScript.Proofs.Text.Survival

/-!
# What the data sector stores is read back

A sector under construction only grows, so what has been stored at an offset stays there
(`Holds.grow`).  A finished sector that begins with it is read at that offset: integers come back,
and of a text what the encoding makes of it, the text itself if it survives.  A record that stores
an element therefore restores the element, with its texts read back
(`ElementRecord.restores_ofElement`).
-/

namespace NovelScript

/-- The octets lie at an offset of the input. -/
def Holds (input : Bytes) (offset : Nat) (octets : Bytes) : Prop :=
  ∃ before after, input = before ++ (octets ++ after) ∧ before.length = offset

theorem Holds.drop {input : Bytes} {offset : Nat} {octets : Bytes}
    (h : Holds input offset octets) : ∃ after, input.drop offset = octets ++ after := by
  obtain ⟨before, after, rfl, rfl⟩ := h
  exact ⟨after, List.drop_left⟩

theorem Holds.grow {input more : Bytes} {offset : Nat} {octets : Bytes}
    (h : Holds input offset octets) (hmore : input <+: more) : Holds more offset octets := by
  obtain ⟨before, after, rfl, rfl⟩ := h
  obtain ⟨rest, rfl⟩ := hmore
  exact ⟨before, after ++ rest, by simp, rfl⟩

theorem Holds.le {input : Bytes} {offset : Nat} {octets : Bytes} (h : Holds input offset octets) :
    offset + octets.length ≤ input.length := by
  obtain ⟨before, after, rfl, rfl⟩ := h
  simp only [List.length_append]
  omega

namespace DataSector

/-- The octets of a datum, if the encoding has them. -/
def Stores (encoding : Encoding) : Datum → Bytes → Prop
  | .integer value, octets => octets = integerOctets value
  | .text value, octets => encoding.encodeTerminated value = .ok octets

/-- Every datum of the sector lies there with its octets. -/
def Sound (sector : DataSector) : Prop :=
  ∀ chunk ∈ sector.chunks, Stores sector.encoding chunk.1 chunk.2

/-- A later sector begins with the octets of an earlier one. -/
structure Grows (sector sector' : DataSector) : Prop where
  encoding : sector'.encoding = sector.encoding
  sound : sector.Sound → sector'.Sound
  bytes : sector.bytes <+: sector'.bytes

theorem Grows.refl (sector : DataSector) : sector.Grows sector :=
  ⟨rfl, id, List.prefix_refl _⟩

theorem Grows.trans {sector sector' sector'' : DataSector} (h₁ : sector.Grows sector')
    (h₂ : sector'.Grows sector'') : sector.Grows sector'' :=
  ⟨h₂.encoding.trans h₁.encoding, fun h => h₂.sound (h₁.sound h), h₁.bytes.trans h₂.bytes⟩

theorem sound_empty (encoding : Encoding) : (empty encoding).Sound := by
  simp [Sound, empty]

theorem grows_append {sector : DataSector} {datum : Datum} {octets : Bytes}
    (h : Stores sector.encoding datum octets) : sector.Grows (sector.append datum octets) where
  encoding := rfl
  sound hs := by
    simp only [Sound, append, List.forall_mem_append, List.forall_mem_singleton]
    exact ⟨hs, h⟩
  bytes := by simp [bytes, append, List.flatMap_append]

theorem holds_append (sector : DataSector) (datum : Datum) (octets : Bytes) :
    Holds (sector.append datum octets).bytes sector.size octets :=
  ⟨sector.bytes, [], by simp [bytes, append], sector.length_bytes⟩

/-- A datum that a sector holds lies at its offset. -/
theorem holds_of_offset? {sector : DataSector} {datum : Datum} {offset : Nat}
    (hs : sector.Sound) (h : sector.offset? datum = some offset) :
    ∃ octets, Stores sector.encoding datum octets ∧ Holds sector.bytes offset octets := by
  obtain ⟨encoding, chunks⟩ := sector
  simp only [offset?, bytes, Sound] at h hs ⊢
  -- the offset counts the octets of the chunks in front
  induction chunks generalizing offset with
  | nil => simp [offsetIn] at h
  | cons chunk chunks ih =>
    rw [List.forall_mem_cons] at hs
    rw [offsetIn] at h
    split at h
    · rename_i hdatum
      obtain rfl := Option.some.inj h
      exact ⟨chunk.2, hdatum ▸ hs.1, [], chunks.flatMap (·.2), by simp [List.flatMap_cons], rfl⟩
    · obtain ⟨n, hn, rfl⟩ := Option.map_eq_some_iff.mp h
      obtain ⟨octets, hstores, before, after, hbytes, rfl⟩ := ih hs.2 hn
      refine ⟨octets, hstores, chunk.2 ++ before, after, ?_, by simp⟩
      rw [List.flatMap_cons, hbytes, List.append_assoc]

theorem writeInteger_spec {sector sector' : DataSector} {value : Int32} {offset : Nat}
    (hs : sector.Sound) (h : sector.writeInteger value = (offset, sector')) :
    sector.Grows sector' ∧ Holds sector'.bytes offset (integerOctets value) := by
  unfold writeInteger at h
  split at h
  · rename_i n hn
    obtain ⟨rfl, rfl⟩ := Prod.mk.inj h
    obtain ⟨octets, rfl, hholds⟩ := holds_of_offset? hs hn
    exact ⟨.refl _, hholds⟩
  · obtain ⟨rfl, rfl⟩ := Prod.mk.inj h
    exact ⟨grows_append rfl, holds_append _ _ _⟩

theorem writeText_spec {sector sector' : DataSector} {value : String} {offset : Nat}
    (hs : sector.Sound) (h : sector.writeText value = .ok (offset, sector')) :
    sector.Grows sector' ∧ ∃ octets, sector.encoding.encodeTerminated value = .ok octets
      ∧ Holds sector'.bytes offset octets := by
  unfold writeText at h
  split at h
  · rename_i n hn
    obtain ⟨rfl, rfl⟩ := Prod.mk.inj (Except.ok.inj h)
    obtain ⟨octets, hstores, hholds⟩ := holds_of_offset? hs hn
    exact ⟨.refl _, octets, hstores, hholds⟩
  · split at h
    · rename_i octets hencode
      obtain ⟨rfl, rfl⟩ := Prod.mk.inj (Except.ok.inj h)
      exact ⟨grows_append hencode, octets, hencode, holds_append _ _ _⟩
    · simp at h

end DataSector

namespace SectorView

/-! ## Reading -/

/-- A finished sector begins with one under construction, and its offsets fit in a field. -/
structure Continues (view : SectorView) (sector : DataSector) : Prop where
  encoding : view.encoding = sector.encoding
  bytes : sector.bytes <+: view.bytes
  room : view.bytes.length < 4294967296

variable {view : SectorView} {sector sector' : DataSector} {offset : Nat}

theorem Continues.of_grows (h : view.Continues sector') (hg : sector.Grows sector') :
    view.Continues sector :=
  ⟨h.encoding.trans hg.encoding, hg.bytes.trans h.bytes, h.room⟩

theorem Continues.toNat_offset {octets : Bytes} (h : view.Continues sector)
    (hholds : Holds sector.bytes offset octets) : (UInt32.ofNat offset).toNat = offset := by
  have hlt : offset < 4294967296 := by
    have := hholds.le
    have := h.bytes.length_le
    have := h.room
    omega
  exact UInt32.toNat_ofNat_of_lt' hlt

/-- A stored integer is read back. -/
theorem Continues.integerAt {value : Int32} (h : view.Continues sector)
    (hholds : Holds sector.bytes offset (DataSector.integerOctets value)) :
    view.integerAt offset = .ok value := by
  obtain ⟨after, hdrop⟩ := (hholds.grow h.bytes).drop
  rw [SectorView.integerAt, hdrop, DataSector.integerOctets, Word.take32_octets32]
  exact congrArg Except.ok (Int32.toInt32_toUInt32 value)

/-- A stored text is read back, as the encoding has it. -/
theorem Continues.textAt {value : String} {octets : Bytes} (h : view.Continues sector)
    (hencode : sector.encoding.encodeTerminated value = .ok octets)
    (hholds : Holds sector.bytes offset octets) :
    view.textAt offset = .ok (sector.encoding.readBack value) := by
  have hzero := Encoding.zero_mem_of_encodeTerminated hencode
  have hpos : 0 < octets.length := List.length_pos_of_mem hzero
  have hview := hholds.grow h.bytes
  have hlt : ¬ view.bytes.length ≤ offset := by
    have := hview.le
    omega
  obtain ⟨after, hdrop⟩ := hview.drop
  simp only [SectorView.textAt, hlt, if_false, hdrop, List.mem_append, hzero, true_or, if_true]
  rw [h.encoding, Encoding.decodeTerminated_stored hencode]

end SectorView

/-! ## Records -/

namespace Element

/-- The element with other texts. -/
def respelled (f : String → String) : Element → Element
  | function name => function (f name)
  | marker m => marker { m with name := f m.name }
  | text value => text (f value)
  | special name => special (f name)
  | intFlag kind id => intFlag (f kind) id
  | textFlag kind id => textFlag (f kind) id
  | integer number => integer number
  | localVar id => localVar id

@[simp] theorem tag_respelled (f : String → String) (e : Element) :
    (e.respelled f).tag = e.tag := by
  cases e <;> rfl

theorem respelled_eq {f : String → String} {e : Element} (h : ∀ t ∈ e.texts, f t = t) :
    e.respelled f = e := by
  cases e <;> simp_all [respelled, texts]

@[simp] theorem respelled_id (e : Element) : e.respelled id = e := respelled_eq fun _ _ => rfl

end Element

/-- The element as it is read from its record: a marker without its link, and with its number. -/
def Element.unlinked (number : Nat) : Element → Element
  | .marker m => .marker { m with link := none, number }
  | e => e

theorem Element.tag_unlinked (e : Element) (number : Nat) : (e.unlinked number).tag = e.tag := by
  cases e <;> rfl

namespace ElementRecord

/-- Read with a finished sector, the record gives the element without its link. -/
def Restores (view : SectorView) (record : ElementRecord) (e : Element) : Prop :=
  ∀ index markers, record.element index markers view = .ok (e.unlinked markers)

/-- The link field of the record leads to this code word, or nowhere. -/
def LinksTo (view : SectorView) (record : ElementRecord) : Option Nat → Prop
  | none => record.field2 = linkNone ∨ record.field2 = linkOperator
  | some word => record.field2 ≠ linkNone ∧ record.field2 ≠ linkOperator
      ∧ view.integerAt record.field2.toNat = .ok (UInt32.ofNat word).toInt32

variable {view : SectorView} {sector sector' : DataSector}

/-- An element comes back from its record if its register fits in a field. -/
def Storable (e : Element) : Prop := ∀ id, e.register? = some id → id < 4294967296

theorem pointerField_ne_zero (number : ScriptInt) :
    (⟨number.value, decide (pointerField number ≠ 0)⟩ : ScriptInt) = number := by
  obtain ⟨value, pointer⟩ := number
  cases pointer <;> simp [pointerField]

/-- A written text is read back. -/
theorem textAt_of_writeText {value : String} {offset : Nat} (hs : sector.Sound)
    (h : sector.writeText value = .ok (offset, sector')) (hview : view.Continues sector') :
    view.textAt (UInt32.ofNat offset).toNat = .ok (sector.encoding.readBack value) := by
  obtain ⟨hgrows, octets, hencode, hholds⟩ := DataSector.writeText_spec hs h
  rw [hview.toNat_offset hholds]
  rw [← hgrows.encoding] at hencode ⊢
  exact hview.textAt hencode hholds

/-- A written integer is read back. -/
theorem integerAt_of_writeInteger {value : Int32} {offset : Nat} (hs : sector.Sound)
    (h : sector.writeInteger value = (offset, sector')) (hview : view.Continues sector') :
    view.integerAt (UInt32.ofNat offset).toNat = .ok value := by
  obtain ⟨-, hholds⟩ := DataSector.writeInteger_spec hs h
  rw [hview.toNat_offset hholds, hview.integerAt hholds]

/-- The two fields of a flag, a text and an integer written after it, are read back. -/
theorem flag_of_write {sector₁ : DataSector} {kind : String} {value : Int32}
    {kindOffset idOffset : Nat} (hs : sector.Sound)
    (hkind : sector.writeText kind = .ok (kindOffset, sector₁))
    (hid : sector₁.writeInteger value = (idOffset, sector')) :
    sector.Grows sector' ∧ (view.Continues sector' →
      view.textAt (UInt32.ofNat kindOffset).toNat = .ok (sector.encoding.readBack kind)
      ∧ view.integerAt (UInt32.ofNat idOffset).toNat = .ok value) := by
  have hgrows₁ := (DataSector.writeText_spec hs hkind).1
  have hs₁ := hgrows₁.sound hs
  have hgrows₂ := (DataSector.writeInteger_spec hs₁ hid).1
  refine ⟨hgrows₁.trans hgrows₂, fun hview => ⟨?_, ?_⟩⟩
  · exact textAt_of_writeText hs hkind (hview.of_grows hgrows₂)
  · exact integerAt_of_writeInteger hs₁ hid hview

/-- The record of an element restores it, with its texts read back. -/
theorem restores_ofElement (view : SectorView) {e : Element} {lastCall : Nat}
    {linkWord : Option Nat} {record : ElementRecord} (hs : sector.Sound)
    (h : ofElement e lastCall linkWord sector = .ok (record, sector')) :
    sector.Grows sector' ∧
      (view.Continues sector' → Storable e →
        Restores view record (e.respelled sector.encoding.readBack)) := by
  -- one record per kind of element; its fields point to what was written for it
  cases e with
  | function name | special name | text name =>
    obtain ⟨⟨offset, sector₁⟩, hwrite, h⟩ := bind_eq_ok_iff.mp h
    obtain ⟨rfl, rfl⟩ := Prod.mk.inj (Except.ok.inj h)
    refine ⟨(DataSector.writeText_spec hs hwrite).1, fun hview he index markers => ?_⟩
    have htext := textAt_of_writeText hs hwrite hview
    simp only [element, Element.tag, htext]
    rfl
  | integer number =>
    rcases hwrite : sector.writeInteger number.value with ⟨offset, sector₁⟩
    rw [ofElement, hwrite] at h
    obtain ⟨rfl, rfl⟩ := Prod.mk.inj (Except.ok.inj h)
    refine ⟨(DataSector.writeInteger_spec hs hwrite).1, fun hview he index markers => ?_⟩
    have hnumber := integerAt_of_writeInteger hs hwrite hview
    simp only [element, Element.tag, hnumber]
    exact congrArg (fun n => Except.ok (Element.integer n)) (pointerField_ne_zero number)
  | intFlag kind id | textFlag kind id =>
    obtain ⟨⟨kindOffset, sector₁⟩, hkind, h⟩ := bind_eq_ok_iff.mp h
    rcases hid : sector₁.writeInteger id.value with ⟨idOffset, sector₂⟩
    simp only [hid] at h
    obtain ⟨rfl, rfl⟩ := Prod.mk.inj (Except.ok.inj h)
    obtain ⟨hgrows, hflag⟩ := flag_of_write hs hkind hid
    refine ⟨hgrows, fun hview he index markers => ?_⟩
    obtain ⟨htext, hnumber⟩ := hflag hview
    simp only [element, Element.tag, htext, hnumber, bind, Except.bind, pure, Except.pure,
      pointerField_ne_zero]
    rfl
  | localVar id =>
    obtain ⟨rfl, rfl⟩ := Prod.mk.inj (Except.ok.inj h)
    refine ⟨.refl _, fun hview he index markers => ?_⟩
    have hid := UInt32.toNat_ofNat_of_lt' (he id rfl)
    simp only [element, Element.tag, hid]
    rfl
  | marker m =>
    obtain ⟨⟨offset, sector₁⟩, hwrite, h⟩ := bind_eq_ok_iff.mp h
    have hgrows₁ := (DataSector.writeText_spec hs hwrite).1
    have hs₁ := hgrows₁.sound hs
    cases linkWord with
    | none =>
      obtain ⟨rfl, rfl⟩ := Prod.mk.inj (Except.ok.inj h)
      refine ⟨hgrows₁, fun hview he index markers => ?_⟩
      have htext := textAt_of_writeText hs hwrite hview
      simp only [element, Element.tag, htext]
      rfl
    | some word =>
      rcases hlink : sector₁.writeInteger (UInt32.ofNat word).toInt32 with ⟨link, sector₂⟩
      simp only [hlink] at h
      obtain ⟨rfl, rfl⟩ := Prod.mk.inj (Except.ok.inj h)
      have hgrows₂ := (DataSector.writeInteger_spec hs₁ hlink).1
      refine ⟨hgrows₁.trans hgrows₂, fun hview he index markers => ?_⟩
      have htext := textAt_of_writeText hs hwrite (hview.of_grows hgrows₂)
      simp only [element, Element.tag, htext]
      rfl

/-- The record of a marker leads to where its link is placed. -/
theorem linksTo_ofElement {m : Marker} {lastCall : Nat} {linkWord : Option Nat}
    {record : ElementRecord} (hs : sector.Sound)
    (h : ofElement (.marker m) lastCall linkWord sector = .ok (record, sector'))
    (hview : view.Continues sector') : record.LinksTo view linkWord := by
  obtain ⟨⟨offset, sector₁⟩, hwrite, h⟩ := bind_eq_ok_iff.mp h
  cases linkWord with
  | none =>
    obtain ⟨rfl, rfl⟩ := Prod.mk.inj (Except.ok.inj h)
    show (if isOperator m.name then linkOperator else linkNone) = linkNone
      ∨ (if isOperator m.name then linkOperator else linkNone) = linkOperator
    split
    · exact .inr rfl
    · exact .inl rfl
  | some word =>
    have hs₁ := (DataSector.writeText_spec hs hwrite).1.sound hs
    rcases hlink : sector₁.writeInteger (UInt32.ofNat word).toInt32 with ⟨link, sector₂⟩
    simp only [hlink] at h
    obtain ⟨rfl, rfl⟩ := Prod.mk.inj (Except.ok.inj h)
    have hinteger := integerAt_of_writeInteger hs₁ hlink hview
    obtain ⟨-, hholds⟩ := DataSector.writeInteger_spec hs₁ hlink
    -- four octets behind the offset keep it below the words that say there is no link
    have hbound : link + 4 ≤ view.bytes.length := Nat.le_trans hholds.le hview.bytes.length_le
    have hoffset := hview.toNat_offset hholds
    have hroom := hview.room
    refine ⟨?_, ?_, hinteger⟩
    · intro hnone
      have hvalue : link = linkNone.toNat := hoffset.symm.trans (congrArg UInt32.toNat hnone)
      have hbig : linkNone.toNat = 4294967295 := rfl
      omega
    · intro hoperator
      have hvalue : link = linkOperator.toNat :=
        hoffset.symm.trans (congrArg UInt32.toNat hoperator)
      have hbig : linkOperator.toNat = 4294967294 := rfl
      omega

end ElementRecord
end NovelScript
