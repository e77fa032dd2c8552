import NovelScript.Proofs.Archive.Durability
import NovelScript.Proofs.Archive.Undoing
import NovelScript.Proofs.Bytecode.Retrieval
import NovelScript.Proofs.Script.Oversized
import NovelScript.Proofs.Text.Faithful

/-!
# Texts in data sectors and names in archives

Data sectors and archives accept every text that the encoding accepts, and find it again exactly if
it survives: in a sector at the offset that was answered, in an archive as the name that a reader
of the file finds.  `Encoding.restores` says so of all of them.  Nothing is assumed of an archive
that is packed but that its names tell its members apart, so two names that are read as one are no
exception.
-/

namespace NovelScript

variable {encoding : Encoding} {file octets : Bytes} {name : String}

/-! ## Data sectors -/

/-- The sectors that writing leads to from one without data. -/
inductive DataSector.Written (encoding : Encoding) : DataSector → Prop where
  | empty : Written encoding (.empty encoding)
  | write {sector sector' : DataSector} {offset : UInt32} (datum : Datum)
      (h : Written encoding sector) (hwrite : sector.write datum = .ok (offset, sector')) :
      Written encoding sector'

theorem DataSector.Written.grows {sector : DataSector} (h : Written encoding sector) :
    (DataSector.empty encoding).Grows sector := by
  induction h with
  | empty => exact .refl _
  | write datum h hwrite ih => exact ih.trans (write_spec hwrite).1.grows

/-- In a sector below 4 GiB, a text that was written lies at the offset that was answered. -/
theorem DataSector.Written.holds {sector sector' : DataSector} {text : String} {offset : UInt32}
    (h : Written encoding sector) (hwrite : sector.write (.text text) = .ok (offset, sector'))
    (hroom : sector'.size < UInt32.size) :
    ∃ octets, encoding.encodeTerminated text = .ok octets
      ∧ Holds sector'.bytes offset.toNat octets := by
  obtain ⟨hextends, place, hplace, rfl⟩ := write_spec hwrite
  have hgrows := h.grows.trans hextends.grows
  obtain ⟨octets, hstores, hholds⟩ := holds_of_offset? (hgrows.sound (sound_empty encoding)) hplace
  rw [hgrows.encoding] at hstores
  have hle := hholds.le
  rw [length_bytes] at hle
  have hoffset : (UInt32.ofNat place).toNat = place := UInt32.toNat_ofNat_of_lt' (by omega)
  exact ⟨octets, hstores, hoffset.symm ▸ hholds⟩

/-- What is read at the offset of a text is the text exactly if it survives. -/
theorem SectorView.read_text_iff {view : SectorView} {value : String} {offset : UInt32}
    (hstored : view.encoding.encodeTerminated value = .ok octets)
    (hholds : Holds view.bytes offset.toNat octets) :
    view.read (.text offset) = .ok (.text value) ↔ view.encoding.Survives value := by
  have hzero := Encoding.zero_mem_of_encodeTerminated hstored
  have hpos : 0 < octets.length := List.length_pos_of_mem hzero
  have hlt : ¬ view.bytes.length ≤ offset.toNat := by
    have := hholds.le
    omega
  obtain ⟨after, hdrop⟩ := hholds.drop
  simp only [SectorView.read, SectorView.textAt, hlt, if_false, hdrop, List.mem_append, hzero,
    true_or, if_true, Except.map, Except.ok.injEq, Datum.text.injEq]
  exact Encoding.decodeTerminated_eq_iff hstored after

/-! ## Names of archives -/

/-- What an entry is read as is the name that was stored exactly if that survives. -/
theorem Archive.nameOf_eq_iff {entry : IndexEntry} {stored : Bytes}
    (hstored : Change.storedName encoding name = .ok stored)
    (hregion : region file entry.nameOffset.toNat entry.nameLength.toNat = .ok stored) :
    Archive.nameOf encoding file entry = name ↔ encoding.Survives name := by
  have htake : (file.drop entry.nameOffset.toNat).take entry.nameLength.toNat = stored := by
    simp only [region] at hregion
    split at hregion
    · exact Except.ok.inj hregion
    · cases hregion
  rw [Archive.nameOf, htake, ← List.append_nil stored]
  exact Encoding.decodeTerminated_eq_iff (IndexEntry.storedName_eq_ok_iff.mp hstored) []

/-- The names that are read are those of the entries in order, but for entries whose name comes
a second time. -/
theorem Archive.readMembers_sublist {members read : List Member} {warnings : List ArchiveWarning}
    {entries : List IndexEntry}
    (h : (readMembers encoding file members warnings entries).result = .ok read) :
    ∃ names, names.Sublist (entries.map (nameOf encoding file))
      ∧ read.map (·.name) = members.map (·.name) ++ names := by
  induction entries generalizing members warnings with
  | nil =>
    obtain rfl := Except.ok.inj h
    exact ⟨[], List.Sublist.refl _, (List.append_nil _).symm⟩
  | cons entry rest ih =>
    rw [readMembers] at h
    split at h
    · cases h
    dsimp only at h
    split at h
    · obtain ⟨names, hnames, hread⟩ := ih h
      rw [Member.map_name_change (f := fun m => { m with residence := .stored entry })
        fun _ => rfl] at hread
      exact ⟨names, hnames.cons _, hread⟩
    · obtain ⟨names, hnames, hread⟩ := ih h
      rw [List.map_append, List.append_assoc] at hread
      exact ⟨_, hnames.cons_cons _, hread⟩

theorem Archive.readIndex_sublist {header found : ArchiveHeader} {members read : List Member}
    (hheader : header.write <+: file) (hversion : header.version = 0)
    (hsize : header.headerSize = 24) (hend : header.indexEnd ≤ file.length)
    (hindex : region file header.indexOffset.toNat header.indexLength.toNat
      = .ok (members.flatMap fun m => m.entry.write))
    (h : (readIndex encoding file).result = .ok (found, read)) :
    (read.map (·.name)).Sublist (members.map fun m => nameOf encoding file m.entry) := by
  rw [readIndex_eq hheader hversion hsize hend hindex] at h
  cases hread : (readMembers encoding file [] [] (members.map Member.entry)).result with
  | error e => simp [hread, Except.map] at h
  | ok listed =>
    simp only [hread] at h
    obtain ⟨-, rfl⟩ := Prod.mk.inj (Except.ok.inj h)
    obtain ⟨names, hnames, hlisted⟩ := readMembers_sublist hread
    rw [List.map_map] at hnames
    rwa [hlisted, List.map_nil, List.nil_append]

namespace Packing

variable {unknown : UInt32} {named : List (String × PackedFile)}

/-- A packed file is read as just the names that were packed exactly if all of them survive. -/
theorem map_name_image_iff (hsmall : Fits (image unknown (named.map (·.2))))
    (hstored : ∀ p ∈ named, Change.storedName encoding p.1 = .ok p.2.name)
    (hunique : (named.map (·.1)).Nodup) {header : ArchiveHeader} {read : List Member}
    (h : (Archive.readIndex encoding (image unknown (named.map (·.2)))).result
      = .ok (header, read)) :
    read.map (·.name) = named.map (·.1) ↔ ∀ p ∈ named, encoding.Survives p.1 := by
  constructor
  · intro hnames p hp
    have hsublist := Archive.readIndex_sublist (header_isPrefix_image _) rfl rfl
      (Nat.le_of_eq (indexEnd_header hsmall)) (region_index hsmall) h
    -- no entry is dropped, so every entry is read as the name that was stored
    have hlabels : read.map (·.name)
        = (members ArchiveHeader.size (contentsOffset (named.map (·.2))) named).map (·.name) :=
      hnames.trans map_name_members.symm
    have hread := hsublist.eq_of_length (by rw [hlabels, List.length_map, List.length_map])
    rw [hlabels] at hread
    have hname : p.1 ∈ (members ArchiveHeader.size (contentsOffset (named.map (·.2)))
        named).map (·.name) := by
      rw [map_name_members]
      exact List.mem_map_of_mem hp
    obtain ⟨m, hm, hlabel⟩ := List.mem_map.mp hname
    obtain ⟨q, -, hq, entry, hresidence, hlocates, -⟩ := (stands_image hsmall hstored).locates hm
    obtain ⟨stored, hstored, hregion⟩ := hlocates.name
    have hentry : m.entry = entry := by rw [Member.entry, hresidence]
    have hsame := List.map_inj_left.mp hread m hm
    rw [hentry] at hsame
    rw [← hlabel, hq]
    exact (Archive.nameOf_eq_iff hstored hregion).mp (hsame.symm.trans hq)
  · intro hsurvive
    rw [readIndex_image hsmall hstored hsurvive hunique] at h
    obtain ⟨-, rfl⟩ := Prod.mk.inj (Except.ok.inj h)
    exact map_name_members

end Packing

namespace Change

/-- Whoever reads an appended name finds it exactly if it survives. -/
theorem appendName_nameOf (name : String) (entry : IndexEntry) (store : Store) :
    Ends (appendName name entry) store
      (fun entry' store' => ∀ later, store'.file <+: later →
        (Archive.nameOf store.archive.encoding later entry' = name ↔
          store.archive.encoding.Survives name))
      anyFailure := by
  refine (appendName_spec name entry store).mono ?_ fun _ _ _ => trivial
  rintro _ _ ⟨stored, offset, hstored, hoffset, hsize, rfl, rfl⟩ later ⟨behind, rfl⟩
  refine Archive.nameOf_eq_iff hstored (region_append_append _ _ hoffset ?_)
  exact UInt32.toNat_ofNat_of_lt' (Nat.lt_of_le_of_lt (Nat.le_add_left _ _) hsize)

/-- A packed archive can be read, and what is read has the names of the archive exactly if all of
them survive. -/
theorem repack_names {store : Store} (hencoding : store.archive.encoding = encoding)
    (hunique : (store.archive.members.map (·.name)).Nodup) :
    Ends repack store
      (fun _ store' => Fits store'.file → ∀ path mode, ∃ reopened,
        (Archive.load path mode encoding store'.file).result = .ok reopened
          ∧ (reopened.files.map (·.name) = store.archive.files.map (·.name) ↔
              ∀ m ∈ store.archive.files, encoding.Survives m.name))
      anyFailure := by
  simp only [repack, ends_bind, ends_get, of, ends_mk, ends_modify, update]
  refine ⟨fun named hnamed => ⟨fun _ _ => ⟨fun packed hpacked => ⟨fun _ _ hfits path mode => ?_,
    fun _ _ => trivial⟩, fun _ _ => trivial⟩, fun _ _ => trivial⟩, fun _ _ => trivial⟩
  rw [namedFiles, hencoding] at hnamed
  obtain ⟨labelled, rfl, hnames, hlabelled⟩ := exists_packed hnamed hpacked
  have hstored := fun p hp => (hlabelled p hp).1
  obtain ⟨⟨header, read⟩, hread⟩ := Packing.exists_readIndex_image hfits hstored
  have hfiles : read.filter (!·.isCreated) = read := by
    refine List.filter_eq_self.mpr fun m hm => ?_
    have hunheld := (Archive.readIndex_unheld hread).2 m hm
    simp [(Standing.mk.inj hunheld).2.2]
  have hunique' : (labelled.map (·.1)).Nodup := by
    rw [hnames]
    exact hunique.sublist (List.filter_sublist.map _)
  refine ⟨_, by rw [Archive.load, hread]; rfl, ?_⟩
  rw [Archive.files, hfiles, ← hnames,
    Packing.map_name_image_iff hfits hstored hunique' hread]
  constructor
  · intro hsurvive m hm
    have hname : m.name ∈ labelled.map (·.1) := hnames ▸ List.mem_map_of_mem hm
    obtain ⟨p, hp, heq⟩ := List.mem_map.mp hname
    exact heq ▸ hsurvive p hp
  · intro hsurvive p hp
    obtain ⟨-, m, hm, hname, -⟩ := hlabelled p hp
    exact hname ▸ hsurvive m hm

end Change

/-! ## Names of reachable archives -/

variable {mode : SaveMode} {catalog : Catalog} {session : Session} {archive : Archive}

/-- A flush or a packing that succeeds leaves no changes that the file does not show. -/
theorem Operation.leaves_clean (h : session.Sound mode encoding catalog archive file)
    (hmode : mode ≠ .readOnly) {op : Operation} (hop : op.settles = true) :
    Ends op.work session
      (fun _ after => (∀ file, after.file = some file → Fits file) →
        ∃ archive file, after.Sound mode encoding catalog archive file ∧ archive.dirty = false)
      anyFailure := by
  cases op with
  | flush =>
    simp only [work, ends_bind, ends_pure]
    rw [Work.ends_on h.archive_eq h.file_eq]
    refine (Change.flush_spec h.intact).mono ?_ fun _ _ _ => trivial
    rintro _ store ⟨hleaves, hclean⟩ hfits
    exact ⟨_, _, Session.sound_withStore (hleaves (hfits _ rfl)) h.sorted h.writes, hclean hmode⟩
  | compact =>
    simp only [work, ends_bind, ends_pure]
    rw [Work.ends_on h.archive_eq h.file_eq]
    refine (Change.compact_spec h.intact).mono ?_ fun _ _ _ => trivial
    rintro _ store ⟨hleaves, hclean, -⟩ hfits
    exact ⟨_, _, Session.sound_withStore (hleaves (hfits _ rfl)) h.sorted h.writes, hclean⟩
  | _ => cases hop

/-- Operations are events of a history. -/
theorem Reachable.history (h : Reachable mode encoding session catalog) (hmode : mode.Spares) :
    ∃ saved, History encoding session saved := by
  induction h with
  | create harchive hhandles hencoding hrun =>
    exact ⟨_, .create hmode harchive hhandles hencoding hrun⟩
  | step op _ hleads ih =>
    obtain ⟨saved, hsaved⟩ := ih
    exact ⟨_, hsaved.step (.operate op)
      ⟨hleads.run, by simp, hleads.survives, fun _ => hleads.fits⟩⟩

/-- After a flush or a packing, whoever reads the file finds the names of the open archive in their
order. -/
theorem Reachable.names_reopened {op : Operation} {after : Session} {answer : Bool}
    (h : Reachable mode encoding session catalog) (hmode : mode ≠ .readOnly)
    (hop : op.settles = true) (hleads : op.Leads encoding session (.ok answer) after) :
    ∃ archive file, after.archive = some archive ∧ after.file = some file
      ∧ (archive.files.map (·.name)).Nodup
      ∧ ∀ path mode' reopened, (Archive.load path mode' encoding file).result = .ok reopened →
          reopened.files.map (·.name) = archive.files.map (·.name) := by
  obtain ⟨archive₀, file₀, hsound₀, -⟩ := h.sound
  have hends := (Operation.leaves_clean hsound₀ hmode hop).of_run hleads.run
  obtain ⟨archive, file, hsound, hclean⟩ := hends.1 answer rfl hleads.fits
  refine ⟨archive, file, hsound.archive_eq, hsound.file_eq,
    hsound.intact.laid.unique.sublist (List.filter_sublist.map _), ?_⟩
  intro path mode' reopened hok
  have hlisting : reopened.listing file = archive.listing file := by
    by_cases hflush : mode = .flush
    · subst hflush
      have hlisted := hsound.intact.indexed.listed (by rw [hsound.intact.mode_eq]; decide) hclean
      exact (hsound.intact.files_of_load (by decide) hlisted hok).2
    · -- the other modes spare what the file shows
      have hspares : mode.Spares := by
        cases mode with
        | readOnly => exact absurd rfl hmode
        | explicit => exact .inl rfl
        | flush => exact absurd rfl hflush
        | immediate => exact .inr rfl
      obtain ⟨saved, hsaved⟩ := (h.step op hleads).history hspares
      obtain ⟨file', shown, _, hholds⟩ := hsaved.recalls
      obtain rfl := Option.some.inj (hholds.file_eq.symm.trans hsound.file_eq)
      have hsame := hholds.listing_eq hsound.archive_eq hclean
      rw [Session.listing, hsound.archive_eq, hsound.file_eq] at hsame
      rw [hholds.shows.load_eq path mode'] at hok
      obtain rfl := Except.ok.inj hok
      exact hholds.saved_eq.trans hsame.symm
  have hnames := congrArg (List.map Prod.fst) hlisting
  rw [Archive.listing, Archive.listing, List.map_map, List.map_map] at hnames
  exact hnames

/-! ## All stored texts -/

namespace Encoding

/-- What becomes of the texts that the encoding accepts: those to which it is faithful are decoded
as they were, and those that survive are found again wherever they are stored. -/
structure Restores (encoding : Encoding) : Prop where
  decode : ∀ text octets, encoding.encode text = .ok octets →
    (encoding.decode octets = text ↔ encoding.Faithful text)
  decodeTerminated : ∀ text octets, encoding.encodeTerminated text = .ok octets →
    (encoding.decodeTerminated octets = text ↔
      encoding.Faithful text ∧ '\x00' ∉ text.toList)
  /-- However much is written behind it, and whatever the key, a text is read at the offset that was
  answered.  That is a word of 32 bits, so the sector has to stay below 4 GiB. -/
  textAt : ∀ sector sector' text offset, DataSector.Written encoding sector →
    sector.write (.text text) = .ok (offset, sector') → sector'.size < UInt32.size →
    ∀ finished key, sector'.bytes <+: finished →
      ((SectorView.open_ encoding key (scramble key finished)).read (.text offset)
          = .ok (.text text) ↔ encoding.Survives text)
  /-- However much is written behind it, a name that was appended is found. -/
  appended : ∀ store name entry, store.archive.encoding = encoding →
    Ends (Change.appendName name entry) store
      (fun entry' store' => ∀ later, store'.file <+: later →
        (Archive.nameOf encoding later entry' = name ↔ encoding.Survives name))
      anyFailure
  /-- The names that were packed are found. -/
  packed : ∀ store, store.archive.encoding = encoding →
    (store.archive.members.map (·.name)).Nodup →
    Ends Change.repack store
      (fun _ store' => Fits store'.file → ∀ path mode, ∃ reopened,
        (Archive.load path mode encoding store'.file).result = .ok reopened
          ∧ (reopened.files.map (·.name) = store.archive.files.map (·.name) ↔
              ∀ m ∈ store.archive.files, encoding.Survives m.name))
      anyFailure
  /-- Where all names survive, the names of an archive that was flushed or packed are found. -/
  reopened : ∀ (mode : SaveMode) (session after : Session) (catalog : Catalog) (op : Operation)
    (answer : Bool), Reachable mode encoding session catalog → mode ≠ .readOnly →
    op.settles = true → op.Leads encoding session (.ok answer) after →
    ∃ archive file, after.archive = some archive ∧ after.file = some file
      ∧ (archive.files.map (·.name)).Nodup
      ∧ ∀ path mode' reopened, (Archive.load path mode' encoding file).result = .ok reopened →
          reopened.files.map (·.name) = archive.files.map (·.name)

/-- **Accepted texts come back exactly if they survive.**  A text comes back from its stored form
exactly if the encoding reads each of its characters as itself and no byte order mark is heeded in
front of it; behind a terminator, as texts of data sectors and names of archives are stored, it must
also have no NUL. -/
theorem restores (encoding : Encoding) : encoding.Restores where
  decode _ _ := decode_eq_iff
  decodeTerminated text octets h := by
    have hiff := decodeTerminated_eq_iff h []
    rw [List.append_nil] at hiff
    cases hencode : encoding.encode text with
    | error e => simp [encodeTerminated, hencode, Except.map] at h
    | ok stored => rw [hiff, survives_iff hencode]
  textAt sector sector' text offset hwritten hwrite hroom finished key hfinished := by
    obtain ⟨octets, hstored, hholds⟩ := hwritten.holds hwrite hroom
    rw [SectorView.open_, scramble_scramble]
    exact SectorView.read_text_iff hstored (hholds.grow hfinished)
  appended store name entry hencoding := hencoding ▸ Change.appendName_nameOf name entry store
  packed _ hencoding hunique := Change.repack_names hencoding hunique
  reopened _ _ _ _ _ _ h hmode hop hleads := h.names_reopened hmode hop hleads

section

variable {name : String} {octets : Bytes}

theorem write_nameSector (hoctets : Encoding.shiftJis.encodeTerminated name = .ok octets) :
    (DataSector.empty .shiftJis).write (.text name) = .ok (0, Script.nameSector name octets) := by
  simp only [DataSector.write, DataSector.writeText, DataSector.offset?, DataSector.offsetIn,
    DataSector.empty, hoctets]
  rfl

/-- Behind 4 GiB, the offset of a second text is that of the first, as far as 32 bits can tell. -/
theorem write_behind_nameSector (hne : name ≠ "b") (hlength : octets.length = 4294967296) :
    (Script.nameSector name octets).write (.text "b")
      = .ok (0, (Script.nameSector name octets).append (.text "b") [0x62, 0]) := by
  have hsize : (Script.nameSector name octets).size = 4294967296 := hlength
  have hnew : (Script.nameSector name octets).offset? (.text "b") = none := by
    simp [Script.nameSector, DataSector.offset?, DataSector.offsetIn, hne]
  have hencode : (Script.nameSector name octets).encoding.encodeTerminated "b"
      = .ok [0x62, 0] := rfl
  have hoffset : UInt32.ofNat 4294967296 = 0 := rfl
  simp only [DataSector.write, DataSector.writeText, hnew, hencode, hsize]
  exact bind_eq_ok_iff.mpr ⟨_, rfl, congrArg (fun offset => Except.ok (offset, _)) hoffset⟩

end

/-- Behind a text that takes up 4 GiB, "b" is stored, and that text is read at its offset. -/
theorem exists_read_oversized : ∃ sector sector' found, DataSector.Written .shiftJis sector
    ∧ sector.write (.text "b") = .ok (0, sector')
    ∧ (SectorView.open_ .shiftJis none sector'.bytes).read (.text 0) = .ok (.text found)
    ∧ found ≠ "b" := by
  obtain ⟨name, octets, hsurvives, hoctets, hlength, hletters⟩ :=
    Script.exists_survives 4294967295
  have hne : name ≠ "b" := by
    rintro rfl
    exact absurd (hletters 'b' (by decide)) (by decide)
  have hholds : Holds ((Script.nameSector name octets).append (.text "b") [0x62, 0]).bytes 0
      octets := by
    refine ⟨[], [0x62, 0], ?_, rfl⟩
    simp [Script.nameSector, DataSector.append, DataSector.bytes]
  refine ⟨_, _, name, .write _ .empty (write_nameSector hoctets),
    write_behind_nameSector hne hlength, ?_, hne⟩
  exact (SectorView.read_text_iff hoctets hholds).mpr hsurvives

/-- Shift-JIS stores the yen sign and the backslash in one octet, so two names that it accepts are
read as one.  An offset or a length past 4 GiB is stored as what is left of it, so a text that
survives is not found in a data sector, and neither is a name in a packed archive. -/
theorem not_restores :
    (encode .shiftJis "¥" = .ok [0x5C] ∧ encode .shiftJis "\\" = .ok [0x5C]
      ∧ decode .shiftJis [0x5C] ≠ "¥")
    ∧ (Survives .shiftJis "b" ∧ ∃ sector sector' found, DataSector.Written .shiftJis sector
      ∧ sector.write (.text "b") = .ok (0, sector')
      ∧ (SectorView.open_ .shiftJis none sector'.bytes).read (.text 0) = .ok (.text found)
      ∧ found ≠ "b")
    ∧ (Survives .utf8 "b" ∧ ∃ after : Session,
      (Operation.flush.work.run.run (Session.swollen IndexEntry.forgery) :
        Except SessionError Bool × Session) = (.ok true, after)
      ∧ Ends Work.peek after (fun found _ => found.map (·.1) = ["a"]) noFailure) := by
  refine ⟨by decide +kernel, ⟨survives_of_isAscii (by decide +kernel), exists_read_oversized⟩,
    survives_of_isAscii (by decide +kernel), ?_⟩
  obtain ⟨after, hrun, hencoding, -, hfile, -⟩ :=
    Session.exists_flush_swollen IndexEntry.length_forgery IndexEntry.isPrefix_forgery
  refine ⟨after, hrun, ?_⟩
  refine (Session.ends_peek_swollen IndexEntry.length_forgery IndexEntry.isPrefix_forgery hencoding
    hfile).imp ?_
  rintro found _ rfl
  rfl

end Encoding
end NovelScript
