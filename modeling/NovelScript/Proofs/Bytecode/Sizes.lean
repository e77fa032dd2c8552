import NovelScript.Proofs.Bytecode.Fidelity

/-!
# How long an assembled script is

A compiled script has no lengths but those of its sections: a header, a word for each part of an
instruction, a record for each slot, and the data sector.  An element adds an integer and its text
to the sector at most (`ElementRecord.size_ofElement_le`), and there are no more slots than
references, so a program whose texts are short is assembled into few octets
(`Program.exists_assemble_le`).
-/

namespace NovelScript

namespace DataSector

theorem size_append (sector : DataSector) (datum : Datum) (octets : Bytes) :
    (sector.append datum octets).size = sector.size + octets.length := by
  rw [← length_bytes, ← length_bytes, bytes, bytes, append, List.flatMap_append, List.length_append,
    List.flatMap_singleton]

theorem size_writeInteger_le {sector sector' : DataSector} {value : Int32} {offset : Nat}
    (h : sector.writeInteger value = (offset, sector')) : sector'.size ≤ sector.size + 4 := by
  unfold writeInteger at h
  split at h
  · obtain ⟨rfl, rfl⟩ := Prod.mk.inj h
    exact Nat.le_add_right _ 4
  · obtain ⟨rfl, rfl⟩ := Prod.mk.inj h
    rw [size_append]
    rfl

theorem size_writeText_le {sector sector' : DataSector} {value : String} {offset n : Nat}
    (h : sector.writeText value = .ok (offset, sector'))
    (hvalue : ∀ octets, sector.encoding.encodeTerminated value = .ok octets → octets.length ≤ n) :
    sector'.size ≤ sector.size + n := by
  unfold writeText at h
  split at h
  · obtain ⟨rfl, rfl⟩ := Prod.mk.inj (Except.ok.inj h)
    exact Nat.le_add_right _ n
  · split at h
    · next octets hencode =>
      obtain ⟨rfl, rfl⟩ := Prod.mk.inj (Except.ok.inj h)
      rw [size_append]
      exact Nat.add_le_add_left (hvalue octets hencode) _
    · simp at h

end DataSector

/-- An element adds its text and an integer to the sector at most. -/
theorem ElementRecord.size_ofElement_le {e : Element} {lastCall n : Nat} {linkWord : Option Nat}
    {record : ElementRecord} {sector sector' : DataSector}
    (h : ofElement e lastCall linkWord sector = .ok (record, sector'))
    (htexts : ∀ t ∈ e.texts, ∀ octets, sector.encoding.encodeTerminated t = .ok octets →
      octets.length ≤ n) : sector'.size ≤ sector.size + n + 4 := by
  cases e with
  | function t | special t | text t =>
    obtain ⟨⟨offset, sector₁⟩, hwrite, h⟩ := bind_eq_ok_iff.mp h
    obtain ⟨rfl, rfl⟩ := Prod.mk.inj (Except.ok.inj h)
    have htext := DataSector.size_writeText_le hwrite (htexts t (by simp [Element.texts]))
    omega
  | integer number =>
    rcases hwrite : sector.writeInteger number.value with ⟨offset, sector₁⟩
    rw [ofElement, hwrite] at h
    obtain ⟨rfl, rfl⟩ := Prod.mk.inj (Except.ok.inj h)
    have hinteger := DataSector.size_writeInteger_le hwrite
    omega
  | intFlag kind id | textFlag kind id =>
    obtain ⟨⟨kindOffset, sector₁⟩, hkind, h⟩ := bind_eq_ok_iff.mp h
    rcases hid : sector₁.writeInteger id.value with ⟨idOffset, sector₂⟩
    simp only [hid] at h
    obtain ⟨rfl, rfl⟩ := Prod.mk.inj (Except.ok.inj h)
    have htext := DataSector.size_writeText_le hkind (htexts kind (by simp [Element.texts]))
    have hinteger := DataSector.size_writeInteger_le hid
    omega
  | localVar id =>
    obtain ⟨rfl, rfl⟩ := Prod.mk.inj (Except.ok.inj h)
    omega
  | marker m =>
    obtain ⟨⟨offset, sector₁⟩, hwrite, h⟩ := bind_eq_ok_iff.mp h
    have htext := DataSector.size_writeText_le hwrite (htexts m.name (by simp [Element.texts]))
    cases linkWord with
    | none =>
      obtain ⟨rfl, rfl⟩ := Prod.mk.inj (Except.ok.inj h)
      omega
    | some word =>
      rcases hlink : sector₁.writeInteger (UInt32.ofNat word).toInt32 with ⟨link, sector₂⟩
      simp only [hlink] at h
      obtain ⟨rfl, rfl⟩ := Prod.mk.inj (Except.ok.inj h)
      have hinteger := DataSector.size_writeInteger_le hlink
      omega

namespace Program

variable {program : Program}

theorem size_writeRecords_le {ids : List ElementId} {n : Nat} {sector sector' : DataSector}
    {records : List ElementRecord} (hs : sector.Sound)
    (h : program.writeRecords ids sector = .ok (records, sector'))
    (htexts : ∀ id ∈ ids, ∀ e, program.elements[id]? = some e → ∀ t ∈ e.texts, ∀ octets,
      sector.encoding.encodeTerminated t = .ok octets → octets.length ≤ n) :
    records.length = ids.length ∧ sector'.size ≤ sector.size + (n + 4) * ids.length := by
  induction ids generalizing sector records with
  | nil =>
    obtain ⟨rfl, rfl⟩ := Prod.mk.inj (Except.ok.inj h)
    exact ⟨rfl, Nat.le_add_right _ _⟩
  | cons id ids ih =>
    obtain ⟨e, he, h⟩ := bind_eq_ok_iff.mp h
    obtain ⟨⟨record, sector₁⟩, hrecord, h⟩ := bind_eq_ok_iff.mp h
    obtain ⟨⟨others, sector₂⟩, hothers, h⟩ := bind_eq_ok_iff.mp h
    obtain ⟨rfl, rfl⟩ := Prod.mk.inj (Except.ok.inj h)
    rw [List.forall_mem_cons] at htexts
    have hgrows := (ElementRecord.restores_ofElement ⟨sector.encoding, []⟩ hs hrecord).1
    have hfirst := ElementRecord.size_ofElement_le hrecord (htexts.1 e (getElem?_of_expect he))
    obtain ⟨hlength, hrest⟩ := ih (hgrows.sound hs) hothers (hgrows.encoding.symm ▸ htexts.2)
    refine ⟨by rw [List.length_cons, List.length_cons, hlength], ?_⟩
    rw [List.length_cons, Nat.mul_succ]
    omega

theorem length_firstUses_le (seen refs : List ElementId) :
    (program.firstUses seen refs).length ≤ seen.length + refs.length := by
  induction refs generalizing seen with
  | nil => exact Nat.le_refl _
  | cons ref refs ih =>
    rw [firstUses, List.length_cons]
    split
    · exact Nat.le_succ_of_le (ih seen)
    · have hopened := ih (seen ++ [ref])
      rw [List.length_append, List.length_singleton] at hopened
      omega

/-- No more slots are opened than there are references. -/
theorem length_slots_le (program : Program) : program.slots.length ≤ program.references.length :=
  Nat.le_trans (length_firstUses_le [] _) (Nat.le_of_eq (Nat.zero_add _))

/-- A program that is in order and whose texts take up so many octets at most is assembled, and into
how many octets at most. -/
theorem exists_assemble_le {settings : Settings} {n : Nat}
    (hlocals : program.maxLocals < 4294967296)
    (hregisters : ∀ (id : ElementId) (r : Nat), program.elements[id]? = some (.localVar r) →
      r < program.maxLocals)
    (hchecked : ∀ i ∈ program.instructions, program.Checked i)
    (htexts : ∀ id ∈ program.references, ∀ e, program.elements[id]? = some e → ∀ t ∈ e.texts,
      ∃ octets, settings.encoding.encodeTerminated t = .ok octets ∧ octets.length ≤ n) :
    ∃ bytes, program.assemble settings = .ok bytes
      ∧ bytes.length
        ≤ 48 + (4 * program.code.length + (20 + n) * program.references.length) := by
  obtain ⟨bytes, hbytes⟩ := (exists_assemble_iff hlocals hchecked).mpr
    ⟨hregisters, fun id hid e he t ht => (htexts id hid e he t ht).imp fun _ h => h.1⟩
  obtain ⟨-, records, sector, hrecords, himage⟩ := exists_image_of_assemble hbytes
  obtain ⟨hlength, hsize⟩ := size_writeRecords_le (n := n) (DataSector.sound_empty _) hrecords
    fun id hid e he t ht octets hoctets => by
      rw [getElem?_placed] at he
      obtain ⟨old, hold, rfl⟩ := Option.map_eq_some_iff.mp he
      rw [texts_placeElement] at ht
      obtain ⟨octets', hoctets', hle⟩ := htexts id (mem_references_of_mem_slots hid) old hold t ht
      exact Except.ok.inj (hoctets'.symm.trans hoctets) ▸ hle
  have hempty : (DataSector.empty settings.encoding).size = 0 := rfl
  have hslots := Nat.mul_le_mul_left (20 + n) program.length_slots_le
  refine ⟨bytes, hbytes, ?_⟩
  rw [← himage, length_image, hlength]
  rw [hempty, Nat.add_mul] at hsize
  rw [Nat.add_mul] at hslots
  omega

end Program
end NovelScript
