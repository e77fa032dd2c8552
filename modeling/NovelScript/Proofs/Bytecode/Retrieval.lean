import NovelScript.Proofs.Archive.Regions
import NovelScript.Proofs.Bytecode.Sector

/-!
# Data sectors give back what was stored

A datum has its place in a sector from the call that first stores it on: later calls only put octets
behind (`Extends`), so every call for it answers the same offset, and data that differ lie apart
(`apart_of_offset?`).  A finished sector is looked up in any order and as often as one likes; what a
reader remembers of earlier lookups changes no answer (`SectorReader.readAll_eq`).
`DataSector.readsBack` puts the two sides together for every run of calls, whatever the key.
-/

namespace NovelScript

/-! ## Scrambled octets -/

theorem scramble_append (key : Option UInt8) (first second : Bytes) :
    scramble key (first ++ second) = scramble key first ++ scramble key second := by
  cases key <;> simp [scramble]

/-- Octets that lie in the input lie, scrambled, in the scrambled input. -/
theorem Holds.scramble {input octets : Bytes} {offset : Nat} (h : Holds input offset octets)
    (key : Option UInt8) : Holds (scramble key input) offset (scramble key octets) := by
  obtain ⟨before, after, rfl, rfl⟩ := h
  refine ⟨NovelScript.scramble key before, NovelScript.scramble key after, ?_, by simp⟩
  rw [scramble_append, scramble_append]

/-- The places of octets at an offset. -/
def Span.ofOctets (offset : Nat) (octets : Bytes) : Span := ⟨offset, offset + octets.length⟩

/-- Octets that share no place start at different ones, unless there are none. -/
theorem Span.Apart.offset_ne {offset offset' : Nat} {octets octets' : Bytes}
    (h : (ofOctets offset octets).Apart (ofOctets offset' octets')) (hne : octets ≠ [])
    (hne' : octets' ≠ []) : offset ≠ offset' := by
  have hpos := List.length_pos_iff.mpr hne
  have hpos' := List.length_pos_iff.mpr hne'
  simp only [Apart, ofOctets] at h
  omega

namespace DataSector

variable {sector sector' : DataSector} {encoding : Encoding} {datum datum' : Datum}
  {octets octets' : Bytes} {chunks : List (Datum × Bytes)} {offset offset' : Nat}

/-! ## The octets of a datum -/

theorem Stores.unique (h : Stores encoding datum octets) (h' : Stores encoding datum octets') :
    octets = octets' := by
  cases datum with
  | integer value => exact h.trans h'.symm
  | text value => exact Except.ok.inj (h.symm.trans h')

/-- Every datum takes up room: an integer four octets, a text at least its terminator. -/
theorem Stores.ne_nil (h : Stores encoding datum octets) : octets ≠ [] := by
  cases datum with
  | integer value =>
    obtain rfl : octets = integerOctets value := h
    exact List.cons_ne_nil _ _
  | text value => exact List.ne_nil_of_mem (Encoding.zero_mem_of_encodeTerminated h)

/-! ## Places -/

/-- What is put behind a datum leaves it in its place. -/
theorem offsetIn_append (h : offsetIn datum chunks = some offset) (more : List (Datum × Bytes)) :
    offsetIn datum (chunks ++ more) = some offset := by
  induction chunks generalizing offset with
  | nil => cases h
  | cons chunk chunks ih =>
    rw [offsetIn] at h
    rw [List.cons_append, offsetIn]
    split at h
    · next hdatum => rwa [if_pos hdatum]
    · next hdatum =>
      obtain ⟨n, hn, rfl⟩ := Option.map_eq_some_iff.mp h
      rw [if_neg hdatum, ih hn, Option.map_some]

/-- A datum that is new gets its place behind all others. -/
theorem offset?_append_self (h : sector.offset? datum = none) :
    (sector.append datum octets).offset? datum = some sector.size := by
  obtain ⟨encoding, chunks⟩ := sector
  simp only [offset?, append, size] at h ⊢
  induction chunks with
  | nil => simp [offsetIn]
  | cons chunk chunks ih =>
    rw [offsetIn] at h
    split at h
    · cases h
    · next hdatum =>
      rw [List.cons_append, offsetIn, if_neg hdatum, ih (Option.map_eq_none_iff.mp h),
        Option.map_some, List.foldr_cons]

/-- Data that differ share no octet. -/
theorem apart_of_offset? (hs : sector.Sound) (h : sector.offset? datum = some offset)
    (h' : sector.offset? datum' = some offset') (hne : datum ≠ datum')
    (hstores : Stores sector.encoding datum octets)
    (hstores' : Stores sector.encoding datum' octets') :
    (Span.ofOctets offset octets).Apart (Span.ofOctets offset' octets') := by
  obtain ⟨encoding, chunks⟩ := sector
  simp only [offset?, Sound, Span.Apart, Span.ofOctets] at h h' hs hstores hstores' ⊢
  induction chunks generalizing offset offset' with
  | nil => cases h
  | cons chunk chunks ih =>
    rw [List.forall_mem_cons] at hs
    rw [offsetIn] at h h'
    split at h
    · -- the first datum is in front of whatever else is found
      next hdatum =>
      obtain rfl := Option.some.inj h
      rw [if_neg fun heq => hne (hdatum.symm.trans heq)] at h'
      obtain ⟨n, -, rfl⟩ := Option.map_eq_some_iff.mp h'
      have hoctets := hstores.unique (hdatum ▸ hs.1)
      rw [hoctets]
      omega
    · obtain ⟨n, hn, rfl⟩ := Option.map_eq_some_iff.mp h
      split at h'
      · next hdatum' =>
        obtain rfl := Option.some.inj h'
        have hoctets' := hstores'.unique (hdatum' ▸ hs.1)
        rw [hoctets']
        omega
      · obtain ⟨n', hn', rfl⟩ := Option.map_eq_some_iff.mp h'
        have hapart := ih hs.2 hn hn'
        omega

/-! ## One call -/

/-- A later sector begins with the octets of an earlier one and has its data in their places. -/
structure Extends (sector sector' : DataSector) : Prop where
  grows : sector.Grows sector'
  offset? : ∀ datum offset, sector.offset? datum = some offset →
    sector'.offset? datum = some offset

theorem Extends.refl (sector : DataSector) : sector.Extends sector :=
  ⟨.refl sector, fun _ _ h => h⟩

theorem Extends.trans {sector'' : DataSector} (h : sector.Extends sector')
    (h' : sector'.Extends sector'') : sector.Extends sector'' :=
  ⟨h.grows.trans h'.grows, fun _ _ hoffset => h'.offset? _ _ (h.offset? _ _ hoffset)⟩

theorem extends_append (h : Stores sector.encoding datum octets) :
    sector.Extends (sector.append datum octets) :=
  ⟨grows_append h, fun _ _ hoffset => offsetIn_append hoffset _⟩

/-- A call that stores a datum answers its place. -/
theorem write_spec {answer : UInt32} (h : sector.write datum = .ok (answer, sector')) :
    sector.Extends sector' ∧
      ∃ place, sector'.offset? datum = some place ∧ answer = .ofNat place := by
  cases datum with
  | integer value =>
    simp only [write, writeInteger, Except.ok.injEq, Prod.mk.injEq] at h
    obtain ⟨rfl, rfl⟩ := h
    split
    · next place hplace => exact ⟨.refl sector, place, hplace, rfl⟩
    · next hnew => exact ⟨extends_append rfl, sector.size, offset?_append_self hnew, rfl⟩
  | text value =>
    obtain ⟨⟨place, sector₁⟩, hwrite, h⟩ := bind_eq_ok_iff.mp h
    obtain ⟨rfl, rfl⟩ := Prod.mk.inj (Except.ok.inj h)
    unfold writeText at hwrite
    split at hwrite
    · next hplace =>
      obtain ⟨rfl, rfl⟩ := Prod.mk.inj (Except.ok.inj hwrite)
      exact ⟨.refl sector, _, hplace, rfl⟩
    · next hnew =>
      split at hwrite
      · next hencode =>
        obtain ⟨rfl, rfl⟩ := Prod.mk.inj (Except.ok.inj hwrite)
        exact ⟨extends_append hencode, sector.size, offset?_append_self hnew, rfl⟩
      · cases hwrite

/-- Only a text is refused, for a character that the encoding lacks. -/
theorem exists_of_write_eq_error {error : ScriptError} (h : sector.write datum = .error error) :
    ∃ value fault, datum = .text value ∧ sector.encoding.encodeTerminated value = .error fault
      ∧ error = .encoding fault := by
  cases datum with
  | integer value => cases h
  | text value =>
    simp only [write, writeText] at h
    split at h
    · cases h
    · split at h
      · cases h
      · next fault hencode => exact ⟨value, fault, rfl, hencode, (Except.error.inj h).symm⟩

/-- Whether or not a datum is stored, what was there before stays. -/
theorem attempt_extends (sector : DataSector) (datum : Datum) :
    sector.Extends (sector.attempt datum).2 := by
  unfold attempt
  split
  · next hwrite => exact (write_spec hwrite).1
  · exact .refl sector

/-- A datum that is stored is in the place that is answered. -/
theorem place_of_attempt {answer : UInt32} (h : (sector.attempt datum).1 = .ok answer) :
    ∃ place, (sector.attempt datum).2.offset? datum = some place ∧ answer = .ofNat place := by
  unfold attempt at h ⊢
  split at h
  · next hwrite =>
    obtain rfl := Except.ok.inj h
    exact (write_spec hwrite).2
  · cases h

theorem exists_of_attempt_eq_error {error : ScriptError}
    (h : (sector.attempt datum).1 = .error error) :
    ∃ value fault, datum = .text value ∧ sector.encoding.encodeTerminated value = .error fault
      ∧ error = .encoding fault := by
  unfold attempt at h
  split at h
  · cases h
  · next hwrite =>
    obtain rfl := Except.error.inj h
    exact exists_of_write_eq_error hwrite

/-! ## Runs of calls -/

/-- Stores data one after the other and gives the answer for each. -/
def writeAll (sector : DataSector) : List Datum → List (Except ScriptError UInt32) × DataSector
  | [] => ([], sector)
  | datum :: data =>
    let (answer, sector) := sector.attempt datum
    let (answers, sector) := sector.writeAll data
    (answer :: answers, sector)

/-- A call of the run stores the datum and answers the offset. -/
def Answers (sector : DataSector) (data : List Datum) (datum : Datum) (offset : UInt32) : Prop :=
  (datum, .ok offset) ∈ data.zip (sector.writeAll data).1

theorem length_writeAll (sector : DataSector) (data : List Datum) :
    (sector.writeAll data).1.length = data.length := by
  induction data generalizing sector with
  | nil => rfl
  | cons datum data ih => exact congrArg (· + 1) (ih _)

theorem writeAll_extends (sector : DataSector) (data : List Datum) :
    sector.Extends (sector.writeAll data).2 := by
  induction data generalizing sector with
  | nil => exact .refl sector
  | cons datum data ih => exact (sector.attempt_extends datum).trans (ih _)

/-- Each call of a run finds a sector that its run has led to, and leaves one from which the run
leads on. -/
theorem exists_attempt {data : List Datum} {answer : Except ScriptError UInt32}
    (h : (datum, answer) ∈ data.zip (sector.writeAll data).1) :
    ∃ before, sector.Extends before ∧ (before.attempt datum).1 = answer
      ∧ (before.attempt datum).2.Extends (sector.writeAll data).2 := by
  induction data generalizing sector with
  | nil => cases h
  | cons first data ih =>
    -- the call is the first one, with the run of all others behind it, or one of these
    rcases List.mem_cons.mp h with heq | hlater
    · obtain ⟨rfl, rfl⟩ := Prod.mk.inj heq
      exact ⟨sector, .refl sector, rfl, writeAll_extends _ data⟩
    · obtain ⟨before, hbefore, hanswer, hafter⟩ := ih hlater
      exact ⟨before, (sector.attempt_extends first).trans hbefore, hanswer, hafter⟩

/-- After a run each datum that was stored is in the place that its call answered. -/
theorem Answers.place {data : List Datum} {answer : UInt32}
    (h : sector.Answers data datum answer) :
    ∃ place, (sector.writeAll data).2.offset? datum = some place ∧ answer = .ofNat place := by
  obtain ⟨before, -, hanswer, hafter⟩ := exists_attempt h
  obtain ⟨place, hplace, rfl⟩ := place_of_attempt hanswer
  exact ⟨place, hafter.offset? _ _ hplace, rfl⟩

end DataSector

/-! ## Lookups -/

/-- What comes back of a datum: an integer as it is, a text as the encoding has it. -/
def Datum.readBack (encoding : Encoding) : Datum → Datum
  | .integer value => .integer value
  | .text value => .text (encoding.readBack value)

/-- A datum survives if it comes back as it is.  Of integers all do. -/
def Datum.Survives (encoding : Encoding) : Datum → Prop
  | .integer _ => True
  | .text value => encoding.Survives value

/-- The lookup of a datum like this one. -/
def Datum.lookupAt (offset : UInt32) : Datum → Lookup
  | .integer _ => .integer offset
  | .text _ => .text offset

theorem Datum.Survives.readBack {encoding : Encoding} {datum : Datum}
    (h : datum.Survives encoding) : datum.readBack encoding = datum := by
  cases datum with
  | integer value => rfl
  | text value => exact congrArg Datum.text (Encoding.Survives.readBack h)

/-- What a sector holds is read in the finished one. -/
theorem SectorView.Continues.read {view : SectorView} {sector : DataSector} {datum : Datum}
    {octets : Bytes} {offset : UInt32} (h : view.Continues sector)
    (hstores : DataSector.Stores sector.encoding datum octets)
    (hholds : Holds sector.bytes offset.toNat octets) :
    view.read (datum.lookupAt offset) = .ok (datum.readBack sector.encoding) := by
  cases datum with
  | integer value =>
    obtain rfl : octets = DataSector.integerOctets value := hstores
    rw [Datum.lookupAt, SectorView.read, h.integerAt hholds]
    rfl
  | text value =>
    rw [Datum.lookupAt, SectorView.read, h.textAt hstores hholds]
    rfl

namespace SectorReader

/-- However much is read, the sector stays as it is, and each answer is what the sector has. -/
theorem readAll_eq (reader : SectorReader) (lookups : List Lookup) :
    (reader.readAll lookups).1 = lookups.map reader.view.read
      ∧ (reader.readAll lookups).2.view = reader.view := by
  induction lookups generalizing reader with
  | nil => exact ⟨rfl, rfl⟩
  | cons lookup lookups ih =>
    obtain ⟨hanswers, hview⟩ := ih (reader.read lookup).2
    rw [view_read] at hanswers hview
    refine ⟨?_, hview⟩
    rw [List.map_cons, ← read_answer, ← hanswers]
    rfl

end SectorReader

/-! ## The whole run -/

namespace DataSector

variable {encoding : Encoding} {key : Option UInt8} {data : List Datum} {datum datum' : Datum}
  {offset offset' : UInt32}

/-- The sector that a run of calls leaves. -/
def written (encoding : Encoding) (data : List Datum) : DataSector :=
  ((empty encoding).writeAll data).2

/-- A reader of what a run of calls leaves, written out and opened under one key. -/
def reopened (encoding : Encoding) (key : Option UInt8) (data : List Datum) : SectorReader :=
  .open_ encoding key (scramble key (written encoding data).bytes)

/-- What is promised to those who store data one after the other, write the sector out and read it
under the same key. -/
structure ReadsBack (encoding : Encoding) (key : Option UInt8) (data : List Datum) : Prop where
  /-- Every call is answered. -/
  answered : ((empty encoding).writeAll data).1.length = data.length
  /-- No call is refused but for a text that the encoding lacks. -/
  refused : ∀ datum error, (datum, .error error) ∈ data.zip ((empty encoding).writeAll data).1 →
    ∃ value fault, datum = .text value ∧ encoding.encodeTerminated value = .error fault
      ∧ error = .encoding fault
  /-- Calls for one datum answer one offset. -/
  once : ∀ datum offset offset', (empty encoding).Answers data datum offset →
    (empty encoding).Answers data datum offset' → offset = offset'
  /-- Each datum has octets in the output, from the offset on that was answered. -/
  lies : ∀ datum offset, (empty encoding).Answers data datum offset →
    ∃ octets, octets ≠ [] ∧ Stores encoding datum octets
      ∧ Holds (scramble key (written encoding data).bytes) offset.toNat (scramble key octets)
  /-- Data that differ, in kind or in value, are at other offsets and share no octet. -/
  apart : ∀ datum datum' offset offset', (empty encoding).Answers data datum offset →
    (empty encoding).Answers data datum' offset' → datum ≠ datum' → offset ≠ offset'
      ∧ ∀ octets octets', Stores encoding datum octets → Stores encoding datum' octets' →
        (Span.ofOctets offset.toNat octets).Apart (Span.ofOctets offset'.toNat octets')
  /-- Whatever has been looked up before, what was stored is found. -/
  found : ∀ lookups datum offset, (empty encoding).Answers data datum offset →
    datum.Survives encoding →
    (((reopened encoding key data).readAll lookups).2.read (datum.lookupAt offset)).1 = .ok datum
  /-- Each lookup is answered as if it were the first. -/
  unaffected : ∀ lookups, ((reopened encoding key data).readAll lookups).1
    = lookups.map fun lookup => ((reopened encoding key data).read lookup).1

theorem encoding_written (encoding : Encoding) (data : List Datum) :
    (written encoding data).encoding = encoding :=
  (writeAll_extends (empty encoding) data).grows.encoding

theorem sound_written (encoding : Encoding) (data : List Datum) : (written encoding data).Sound :=
  (writeAll_extends (empty encoding) data).grows.sound (sound_empty encoding)

/-- Opened again, the output is the sector that was written. -/
theorem continues_reopened (key : Option UInt8)
    (hroom : (written encoding data).size < 4294967296) :
    (reopened encoding key data).view.Continues (written encoding data) := by
  have hbytes : (reopened encoding key data).view.bytes = (written encoding data).bytes :=
    scramble_scramble key _
  constructor
  · exact (encoding_written encoding data).symm
  · exact hbytes ▸ List.prefix_refl _
  · rw [hbytes, length_bytes]
    exact hroom

/-- A datum that was stored lies at the offset that was answered, if offsets fit in a word. -/
theorem Answers.lies (hroom : (written encoding data).size < 4294967296)
    (h : (empty encoding).Answers data datum offset) :
    (written encoding data).offset? datum = some offset.toNat ∧
      ∃ octets, Stores encoding datum octets ∧
        Holds (written encoding data).bytes offset.toNat octets := by
  obtain ⟨place, hplace, rfl⟩ := h.place
  obtain ⟨octets, hstores, hholds⟩ := holds_of_offset? (sound_written encoding data) hplace
  rw [encoding_written] at hstores
  have hfits := (continues_reopened none hroom).toNat_offset hholds
  rw [hfits]
  exact ⟨hplace, octets, hstores, hholds⟩

/-- Data that differ and were both stored share no octet. -/
theorem Answers.apart (hroom : (written encoding data).size < 4294967296)
    (h : (empty encoding).Answers data datum offset)
    (h' : (empty encoding).Answers data datum' offset') (hne : datum ≠ datum') {octets octets'}
    (hstores : Stores encoding datum octets) (hstores' : Stores encoding datum' octets') :
    (Span.ofOctets offset.toNat octets).Apart (Span.ofOctets offset'.toNat octets') := by
  rw [← encoding_written encoding data] at hstores hstores'
  exact apart_of_offset? (sound_written encoding data) (h.lies hroom).1 (h'.lies hroom).1 hne
    hstores hstores'

/-- **What is stored in a sector is read back.**  This holds of every run of calls whose sector is
so short that offsets fit in a word, of every key and of every run of lookups. -/
theorem readsBack (encoding : Encoding) (key : Option UInt8) (data : List Datum)
    (hroom : (written encoding data).size < 4294967296) : ReadsBack encoding key data where
  answered := length_writeAll _ data
  refused datum error h := by
    obtain ⟨before, hbefore, hanswer, -⟩ := exists_attempt h
    have hrefused := exists_of_attempt_eq_error hanswer
    rwa [hbefore.grows.encoding] at hrefused
  once datum offset offset' h h' := by
    have hplaces := (h.lies hroom).1.symm.trans (h'.lies hroom).1
    exact UInt32.toNat_inj.mp (Option.some.inj hplaces)
  lies datum offset h := by
    obtain ⟨-, octets, hstores, hholds⟩ := h.lies hroom
    exact ⟨octets, hstores.ne_nil, hstores, hholds.scramble key⟩
  apart datum datum' offset offset' h h' hne := by
    obtain ⟨-, octets, hstores, -⟩ := h.lies hroom
    obtain ⟨-, octets', hstores', -⟩ := h'.lies hroom
    have hspans := h.apart hroom h' hne hstores hstores'
    refine ⟨?_, fun _ _ => h.apart hroom h' hne⟩
    intro heq
    exact hspans.offset_ne hstores.ne_nil hstores'.ne_nil (congrArg UInt32.toNat heq)
  found lookups datum offset h hsurvives := by
    obtain ⟨-, octets, hstores, hholds⟩ := h.lies hroom
    have hcontinues := continues_reopened key hroom
    rw [← encoding_written encoding data] at hstores
    rw [SectorReader.read_answer, (SectorReader.readAll_eq _ lookups).2,
      hcontinues.read hstores hholds, encoding_written]
    exact congrArg Except.ok hsurvives.readBack
  unaffected lookups := by
    simp only [SectorReader.read_answer]
    exact (SectorReader.readAll_eq _ lookups).1

/-- An empty text is stored apart from the integers around it, although these are full of zeros, and
is still found after its place has been read as an integer. -/
theorem readsBack_zeros :
    let data : List Datum := [.integer 0, .text "", .integer 256, .text "AB", .text "", .integer 0]
    (written .shiftJis data).size < 4294967296 ∧ ReadsBack .shiftJis (some 0xAA) data
      ∧ (empty .shiftJis).Answers data (.text "") 4 ∧ (Datum.text "").Survives .shiftJis
      ∧ (((reopened .shiftJis (some 0xAA) data).readAll [.integer 4, .text 0, .text 4]).2.read
        (.text 4)).1 = .ok (.text "") := by
  intro data
  have hroom : (written .shiftJis data).size < 4294967296 := by decide +kernel
  have hanswers : (empty .shiftJis).Answers data (.text "") 4 := by
    unfold Answers
    decide +kernel
  have hsurvives : (Datum.text "").Survives .shiftJis :=
    Encoding.survives_of_isAscii (by decide +kernel)
  have hreads := readsBack .shiftJis (some 0xAA) data hroom
  exact ⟨hroom, hreads, hanswers, hsurvives, hreads.found _ (.text "") 4 hanswers hsurvives⟩

end DataSector
end NovelScript
