import NovelScript.Proofs.Archive.Canonical

/-!
# Compaction is canonical

Compacting an archive gives it the canonical form of its files, whatever file it was opened from and
whatever has been done since (`Session.compact_canonical`).  In explicit mode that may be any file
that opens, with places in any order that share octets, and with names that are listed twice; in
flush mode header, index and contents have to be apart from each other when the archive is opened.
The files, their order and contents and the handles on them stay the same, and so does the file when
the archive is compacted again.

`Session.Worked` is every session that operations lead to from such a file, together with the
catalog that they should have given and the words without a known meaning that are left of that
file.
-/

namespace NovelScript

/-! ## Opening -/

namespace Archive

/-- What is read under each name. -/
def catalog (archive : Archive) (file : Bytes) : Catalog :=
  fun name => (archive.readAll file name).toOption

/-- The unknown words of an archive. -/
def words (archive : Archive) : Words where
  header := archive.header.unknown
  file name := (archive.file? name).elim 0 (·.entry.unknown)

/-- The places of the header, of the index and of all contents. -/
def spans (archive : Archive) : List Span :=
  ⟨0, ArchiveHeader.size⟩ :: archive.header.indexSpan :: archive.files.map (·.dataSpan)

variable {archive : Archive} {file : Bytes} {encoding : Encoding} {entries : List IndexEntry}

/-- A span apart from the header is behind it. -/
theorem inside_of_apart {span : Span} {size : Nat}
    (h : Span.Apart ⟨0, ArchiveHeader.size⟩ span) (hle : span.stop ≤ size) : span.Inside size := by
  simp only [Span.Apart, ArchiveHeader.size] at h
  simp only [Span.Inside, ArchiveHeader.size]
  omega

/-- An index that lists files apart from each other, from itself and from the header keeps them
separate. -/
theorem Listed.separate (h : Listed encoding file entries archive.members)
    (hindexes : Indexes file archive.header entries) (hspans : archive.spans.Pairwise Span.Apart) :
    archive.Separate file := by
  obtain ⟨hheader, hspans⟩ := List.pairwise_cons.mp hspans
  obtain ⟨hindex, hdata⟩ := List.pairwise_cons.mp hspans
  have hmember : ∀ m ∈ archive.files, m.residence = .stored m.entry
      ∧ m.dataSpan.stop ≤ file.length := by
    intro m hm
    obtain ⟨entry, hlast, heq⟩ := h.last m (mem_files.mp hm).1
    rw [heq]
    exact ⟨rfl, (hindexes.placed entry (mem_of_lastNamed hlast)).2.1⟩
  refine ⟨?_, fun m hm => ⟨(hmember m hm).1, ?_⟩, fun m hm => ?_, fun a ha b hb hne => ?_⟩
  · exact inside_of_apart (hheader _ List.mem_cons_self) hindexes.inside
  · exact inside_of_apart (hheader _ (List.mem_cons_of_mem _ (List.mem_map_of_mem hm)))
      (hmember m hm).2
  · exact hindex _ (List.mem_map_of_mem hm)
  · exact Member.apart_of_pairwise (List.pairwise_map.mp hdata) ha hb hne

/-- An archive that has just been read is ready for what is read. -/
theorem Listed.ready (h : Listed encoding file entries archive.members)
    (hindexes : Indexes file archive.header entries) (hencoding : archive.encoding = encoding)
    (hspans : archive.mode = .flush → archive.spans.Pairwise Span.Apart) :
    archive.Ready file archive.mode encoding (archive.catalog file) archive.words where
  mode_eq := rfl
  encoding_eq := hencoding
  front := (ArchiveHeader.read_eq_ok_iff.mp hindexes.header_eq).1
  unique := h.unique
  held m hm := by
    obtain ⟨hm, hcreated⟩ := mem_files.mp hm
    obtain ⟨entry, -, heq⟩ := h.last m hm
    obtain ⟨entry, contents, -, -, hread⟩ := h.readAll hindexes archive rfl hm
    have hcontents : m.contents file = .ok contents := by
      rw [← hread, readAll_of_mem h.unique hm hcreated (by rw [heq])]
    refine ⟨contents, ?_, hcontents⟩
    rw [catalog, hread]
    rfl
  headerWord := rfl
  word m hm := by
    obtain ⟨hm, hcreated⟩ := mem_files.mp hm
    simp only [words, file?_of_mem h.unique hm hcreated, Option.elim_some]
  absent name hname := by
    cases hfile : archive.file? name with
    | none =>
      simp only [catalog, Archive.readAll, words, hfile]
      exact ⟨rfl, rfl⟩
    | some m =>
      obtain ⟨hm, rfl, hcreated⟩ := file?_eq_some hfile
      exact absurd (List.mem_map_of_mem (mem_files.mpr ⟨hm, hcreated⟩)) hname
  separate hmode := h.separate hindexes (hspans hmode)

end Archive

/-- In a session, the archive is ready for the catalog and the words. -/
def Session.Ready (session : Session) (mode : SaveMode) (encoding : Encoding) (catalog : Catalog)
    (words : Words) : Prop :=
  ∃ archive file, session.archive = some archive ∧ session.file = some file
    ∧ archive.Ready file mode encoding catalog words

/-- In a session, the archive is ready unless a save in flush mode has made its file too large. -/
def Session.ReadyIfFits (session : Session) (mode : SaveMode) (encoding : Encoding)
    (catalog : Catalog) (words : Words) : Prop :=
  (mode = .flush → ∀ file, session.file = some file → Fits file) →
    session.Ready mode encoding catalog words

theorem Work.openArchive_ready {session : Session} {file : Bytes} {mode : SaveMode}
    (hfile : session.file = some file) :
    Ends (openArchive mode) session
      (fun _ after => after.file = some file ∧ ∀ archive, after.archive = some archive →
        (mode = .flush → archive.spans.Pairwise Span.Apart) →
        archive.Ready file mode session.encoding (archive.catalog file) archive.words)
      anyFailure := by
  simp only [openArchive, load, ends_bind, ends_get, ends_modify]
  refine (leaveAny_spec hfile).mono ?_ fun _ _ _ => trivial
  rintro _ closed ⟨hencoding, hfile, -⟩
  simp only [hfile, ends_bind, ends_modify, ofArchive, ends_mk, Archive.load]
  refine ⟨fun archive hok => ⟨trivial, fun opened hopened hspans => ?_⟩, fun _ _ => trivial⟩
  obtain rfl := Option.some.inj hopened
  cases hindex : (Archive.readIndex closed.encoding file).result with
  | error e =>
    rw [hindex] at hok
    cases hok
  | ok found =>
    obtain ⟨header, members⟩ := found
    rw [hindex] at hok
    obtain rfl := Except.ok.inj hok
    obtain ⟨entries, hindexes, hlisted⟩ := Archive.listed_of_readIndex hindex
    rw [← hencoding]
    exact hlisted.ready hindexes rfl hspans

/-! ## Flushing and packing -/

namespace Change

variable {mode : SaveMode} {encoding : Encoding} {catalog : Catalog} {words : Words}
  {store : Store} (h : store.archive.Ready store.file mode encoding catalog words)

include h

/-- Packing leaves an archive ready, unless names are lost or the file becomes too large. -/
theorem repack_ready :
    Ends repack store
      (fun _ store' => (∀ m ∈ store.archive.files, encoding.Survives m.name) → Fits store'.file →
        store'.archive.Ready store'.file mode encoding catalog words)
      fun _ store' => Fits store'.file →
        store'.archive.Ready store'.file mode encoding catalog words := by
  have hfailed : ∀ store', (Fits store'.file → Untouched store store') → Fits store'.file →
      store'.archive.Ready store'.file mode encoding catalog words := by
    intro store' huntouched hfits
    obtain ⟨hfile, harchive⟩ := huntouched hfits
    rw [hfile, harchive]
    exact h
  by_cases hsurvive : ∀ m ∈ store.archive.files, encoding.Survives m.name
  · refine (repack_packs h hsurvive).mono ?_ fun _ store' hundone => hfailed store' hundone.2
    rintro _ store' ⟨hfile, harchive⟩ - hfits
    rw [hfile] at hfits ⊢
    rw [harchive hfits]
    exact h.repacked hsurvive hfits
  · exact (repack_undone store).mono (fun _ _ _ hnames => absurd hnames hsurvive)
      fun _ store' => hfailed store'

theorem flush_ready (hmode : mode = .explicit ∨ mode = .flush) :
    Ends flush store
      (fun _ store' => (mode = .explicit → store.archive.dirty = true →
          ∀ m ∈ store.archive.files, encoding.Survives m.name) →
        (mode = .flush ∨ store.archive.dirty = true → Fits store'.file) →
        store'.archive.Ready store'.file mode encoding catalog words)
      fun _ store' => (mode = .flush ∨ store.archive.dirty = true → Fits store'.file) →
        store'.archive.Ready store'.file mode encoding catalog words := by
  simp only [flush, ends_bind, ends_get, h.mode_eq]
  split
  · next hdirty =>
    obtain rfl | rfl := hmode
    · refine (repack_ready h).mono ?_ fun _ _ hfailed hfits => hfailed (hfits (.inr hdirty))
      exact fun _ _ hpacked hsurvive hfits =>
        hpacked (hsurvive rfl hdirty) (hfits (.inr hdirty))
    · simp only [ends_bind, update, ends_modify]
      refine (writeIndex_ready h).mono (fun _ _ hwritten _ hfits => ?_) ?_
      · exact hwritten (hfits (.inr hdirty))
      · rintro _ _ rfl _
        exact h
  · exact fun _ _ => h

/-- In explicit and in flush mode, compacting is packing. -/
theorem compact_ends (hmode : mode = .explicit ∨ mode = .flush) {Q : Unit → Store → Prop}
    {E : ArchiveError → Store → Prop} (hrepack : Ends repack store Q E) :
    Ends compact store Q E := by
  have hne : mode ≠ .readOnly ∧ mode ≠ .immediate := by
    obtain rfl | rfl := hmode <;> decide
  simp only [compact, checkWritable, ends_bind, ends_get, h.mode_eq, if_neg hne.1, if_neg hne.2,
    ends_pure]
  exact hrepack

end Change

/-! ## Sessions -/

/-- Whether the operation packs the files of an archive. -/
def Operation.packs (session : Session) : Operation → Bool
  | flush => session.archive.any fun archive => archive.mode == .explicit && archive.dirty
  | compact => true
  | _ => false

/-- The unknown words that are left once the operation has given its answer. -/
def Operation.kept (answer : Except SessionError Bool) (words : Words) : Operation → Words
  | deleteFile name =>
    match answer with
    | .ok true => words.remove name
    | _ => words
  | _ => words

/-- The operation, done in one session, ends in another with this answer.  Where it may write the
file, this stays below 4 GiB, and what has been packed has names that survive. -/
structure Operation.Proceeds (op : Operation) (mode : SaveMode) (encoding : Encoding)
    (session : Session) (answer : Except SessionError Bool) (after : Session) : Prop where
  run : (op.work.run.run session : Except SessionError Bool × Session) = (answer, after)
  fits : mode = .flush ∨ op.packs session = true → ∀ file, after.file = some file → Fits file
  survive : op.packs session = true → answer.isOk = true → ∀ archive,
    session.archive = some archive → ∀ m ∈ archive.files, encoding.Survives m.name

/-- The sessions that operations lead to from a file that opens, with the catalog they should have
and the unknown words that are left of that file.  In flush mode, header, index and contents of the
file are apart from each other. -/
inductive Session.Worked (mode : SaveMode) (encoding : Encoding) :
    Session → Catalog → Words → Prop where
  | load {before session : Session} {archive : Archive} {file : Bytes}
      (hfile : before.file = some file) (hencoding : before.encoding = encoding)
      (hrun : ((Work.openArchive mode).run.run before : Except SessionError Unit × Session)
        = (.ok (), session))
      (harchive : session.archive = some archive)
      (hmode : mode = .explicit ∨ mode = .flush ∧ archive.spans.Pairwise Span.Apart) :
      Worked mode encoding session (archive.catalog file) archive.words
  | readAll {session : Session} {catalog : Catalog} {words : Words} (name : String)
      (h : Worked mode encoding session catalog words) :
      Worked mode encoding ((Work.on (Change.readAll name)).after session) catalog words
  | step {session after : Session} {catalog : Catalog} {words : Words}
      {answer : Except SessionError Bool} (op : Operation)
      (h : Worked mode encoding session catalog words)
      (hproceeds : op.Proceeds mode encoding session answer after) :
      Worked mode encoding after (op.effect session answer catalog) (op.kept answer words)

namespace Session

variable {session after : Session} {mode : SaveMode} {encoding : Encoding} {catalog : Catalog}
  {words : Words} {store : Store}

theorem Ready.retain (h : session.Ready mode encoding catalog words)
    (hretains : session.Retains after) : after.Ready mode encoding catalog words := by
  obtain ⟨archive, file, harchive, hfile, hready⟩ := h
  obtain ⟨archive', harchive', hretains'⟩ := hretains.archive archive harchive
  exact ⟨archive', file, harchive', hretains.file_eq.trans hfile, hready.retain hretains'⟩

theorem readyIfFits_withStore (h : Change.ReadyIfFits mode encoding catalog words store) :
    (session.withStore store).ReadyIfFits mode encoding catalog words :=
  fun hfits => ⟨store.archive, store.file, rfl, rfl, h fun hflush => hfits hflush _ rfl⟩

end Session

theorem Operation.effect_of_retains {session : Session} {answer : Except SessionError Bool}
    {catalog : Catalog} {op : Operation} (h : op.retains = true) :
    op.effect session answer catalog = catalog := by
  cases op with
  | writeAll | closeHandle | deleteFile | flush | compact => cases h
  | _ => rfl

theorem Operation.kept_of_retains {answer : Except SessionError Bool} {words : Words}
    {op : Operation} (h : op.retains = true) : op.kept answer words = words := by
  cases op with
  | writeAll | closeHandle | deleteFile | flush | compact => cases h
  | _ => rfl

/-- After an operation that retains all files, the archive is as ready as before. -/
theorem Operation.ready_of_retains {session : Session} {mode : SaveMode} {encoding : Encoding}
    {catalog : Catalog} {words : Words} (h : session.Ready mode encoding catalog words)
    {op : Operation} (hop : op.retains = true) :
    Ends op.work session
      (fun answer after => after.ReadyIfFits mode encoding
        (op.effect session (.ok answer) catalog) (op.kept (.ok answer) words))
      fun e after => after.ReadyIfFits mode encoding
        (op.effect session (.error e) catalog) (op.kept (.error e) words) := by
  obtain ⟨archive, file, harchive, hfile, hready⟩ := h
  have hself : session.Ready mode encoding catalog words :=
    ⟨archive, file, harchive, hfile, hready⟩
  simp only [effect_of_retains hop, kept_of_retains hop]
  exact (ends_retains harchive hfile hop).mono (fun _ _ hretains _ => hself.retain hretains)
    fun _ _ hretains _ => hself.retain hretains

/-- After an operation that packs nothing, the archive is ready for the catalog that it should have
given, unless a save has made the file too large. -/
theorem Operation.ready_of_not_settles {session : Session} {mode : SaveMode} {encoding : Encoding}
    {catalog : Catalog} {words : Words} (h : session.Ready mode encoding catalog words)
    (hmode : mode = .explicit ∨ mode = .flush) {op : Operation} (hop : op.settles = false) :
    Ends op.work session
      (fun answer after => after.ReadyIfFits mode encoding
        (op.effect session (.ok answer) catalog) (op.kept (.ok answer) words))
      fun e after => after.ReadyIfFits mode encoding
        (op.effect session (.error e) catalog) (op.kept (.error e) words) := by
  obtain ⟨archive, file, harchive, hfile, hready⟩ := h
  have hself : session.Ready mode encoding catalog words :=
    ⟨archive, file, harchive, hfile, hready⟩
  cases op with
  | flush | compact => cases hop
  | writeAll name contents =>
    rw [work, Work.ends_on harchive hfile]
    refine (Change.writeAll_ready hready hmode name contents).mono ?_
      fun _ _ => Session.readyIfFits_withStore
    rintro (_ | _) store hsaved
    · exact Session.readyIfFits_withStore hsaved
    · exact Session.readyIfFits_withStore hsaved
  | deleteFile name =>
    rw [work, Work.ends_on harchive hfile]
    refine (Change.deleteFile_ready hready name).mono ?_ fun _ _ => Session.readyIfFits_withStore
    rintro (_ | _) store hdeleted
    · exact Session.readyIfFits_withStore hdeleted
    · exact Session.readyIfFits_withStore hdeleted
  | closeHandle number =>
    simp only [work, Work.closeHandle, Work.forget, ends_bind, ends_modify, ends_pure]
    refine (Work.handle_spec harchive number).mono ?_ ?_
    · rintro found _ ⟨hsame, hlookup⟩
      rw [hsame]
      simp only [effect, hlookup]
      cases hkind : found.kind with
      | reader =>
        simp only [Handle.closed, hkind]
        exact (Work.release_behind_retains harchive hfile (session.retains_handles _) found).mono
          (fun _ _ hretains _ => hself.retain hretains) fun _ _ hretains _ => hself.retain hretains
      | writer =>
        simp only [Handle.closed, hkind]
        refine Iff.mpr (Work.ends_on harchive hfile) ?_
        exact (Change.commit_ready hready hmode found.name found.cursor.contents).mono
          (fun _ _ => Session.readyIfFits_withStore) fun _ _ => Session.readyIfFits_withStore
    · rintro _ _ rfl _
      exact hself
  | _ => exact ready_of_retains hself rfl

/-- After a flush or a packing, the archive is ready for the catalog that it had, unless names are
lost or the file becomes too large. -/
theorem Operation.ready_of_settles {session : Session} {mode : SaveMode} {encoding : Encoding}
    {catalog : Catalog} {words : Words} {archive : Archive} {file : Bytes}
    (harchive : session.archive = some archive) (hfile : session.file = some file)
    (h : archive.Ready file mode encoding catalog words)
    (hmode : mode = .explicit ∨ mode = .flush) {op : Operation} (hop : op.settles = true) :
    Ends op.work session
      (fun _ after =>
        (op.packs session = true → ∀ m ∈ archive.files, encoding.Survives m.name) →
        (mode = .flush ∨ op.packs session = true → ∀ file, after.file = some file → Fits file) →
        after.Ready mode encoding catalog words)
      fun _ after =>
        (mode = .flush ∨ op.packs session = true → ∀ file, after.file = some file → Fits file) →
        after.Ready mode encoding catalog words := by
  cases op with
  | flush =>
    have hpacks : mode = .explicit → archive.dirty = true → flush.packs session = true := by
      rintro rfl hdirty
      simp [packs, harchive, h.mode_eq, hdirty]
    have hsmall : mode = .flush ∨ archive.dirty = true →
        mode = .flush ∨ flush.packs session = true := by
      rintro (hflush | hdirty)
      · exact .inl hflush
      · exact hmode.symm.imp_right fun hexplicit => hpacks hexplicit hdirty
    simp only [work, ends_bind, ends_pure]
    rw [Work.ends_on harchive hfile]
    refine (Change.flush_ready h hmode).mono ?_ ?_
    · exact fun _ store hflushed hnames hfits => ⟨store.archive, store.file, rfl, rfl,
        hflushed (fun hexplicit hdirty => hnames (hpacks hexplicit hdirty))
          fun hwritten => hfits (hsmall hwritten) _ rfl⟩
    · exact fun _ store hfailed hfits => ⟨store.archive, store.file, rfl, rfl,
        hfailed fun hwritten => hfits (hsmall hwritten) _ rfl⟩
  | compact =>
    simp only [work, ends_bind, ends_pure]
    rw [Work.ends_on harchive hfile]
    refine Change.compact_ends h hmode ((Change.repack_ready h).mono ?_ ?_)
    · exact fun _ store hpacked hnames hfits =>
        ⟨store.archive, store.file, rfl, rfl, hpacked (hnames rfl) (hfits (.inr rfl) _ rfl)⟩
    · exact fun _ store hfailed hfits =>
        ⟨store.archive, store.file, rfl, rfl, hfailed (hfits (.inr rfl) _ rfl)⟩
  | _ => cases hop

/-- After an operation, the archive is ready for the catalog that it should have given. -/
theorem Operation.Proceeds.ready {session after : Session} {mode : SaveMode} {encoding : Encoding}
    {catalog : Catalog} {words : Words} {answer : Except SessionError Bool} {op : Operation}
    (hproceeds : op.Proceeds mode encoding session answer after)
    (h : session.Ready mode encoding catalog words) (hmode : mode = .explicit ∨ mode = .flush) :
    after.Ready mode encoding (op.effect session answer catalog) (op.kept answer words) := by
  obtain ⟨hrun, hfits, hsurvive⟩ := hproceeds
  by_cases hop : op.settles = true
  · have hsame : op.effect session answer catalog = catalog ∧ op.kept answer words = words := by
      cases op with
      | flush | compact => exact ⟨rfl, rfl⟩
      | _ => cases hop
    obtain ⟨archive, file, harchive, hfile, hready⟩ := h
    have hends := (ready_of_settles harchive hfile hready hmode hop).of_run hrun
    rw [hsame.1, hsame.2]
    cases answer with
    | ok a => exact hends.1 a rfl (fun hpacks => hsurvive hpacks rfl archive harchive) hfits
    | error e => exact hends.2 e rfl hfits
  · have hends := (ready_of_not_settles h hmode (by simpa using hop)).of_run hrun
    cases answer with
    | ok a => exact hends.1 a rfl fun hflush => hfits (.inl hflush)
    | error e => exact hends.2 e rfl fun hflush => hfits (.inl hflush)

/-- However a session has come about, its archive is ready for the catalog. -/
theorem Session.Worked.ready {session : Session} {mode : SaveMode} {encoding : Encoding}
    {catalog : Catalog} {words : Words} (h : session.Worked mode encoding catalog words) :
    (mode = .explicit ∨ mode = .flush) ∧ session.Ready mode encoding catalog words := by
  induction h with
  | @load before session archive file hfile hencoding hrun harchive hmode =>
    obtain ⟨hfile', hready⟩ := ((Work.openArchive_ready hfile).of_run hrun).1 () rfl
    have hspans : mode = .flush → archive.spans.Pairwise Span.Apart := by
      rintro rfl
      exact (hmode.resolve_left (by decide)).2
    exact ⟨hmode.imp id And.left, archive, file, harchive, hfile',
      hencoding ▸ hready archive harchive hspans⟩
  | readAll name _ ih =>
    obtain ⟨hmode, archive, file, harchive, hfile, hready⟩ := ih
    rw [Work.after_of_ends (Work.readAll_spec harchive hfile name)]
    exact ⟨hmode, archive, file, harchive, hfile, hready⟩
  | step op _ hproceeds ih => exact ⟨ih.1, hproceeds.ready ih.2 ih.1⟩

/-! ## Compacting -/

/-- What the canonical form of an archive holds, place by place: the header with its old unknown
word, the names, the contents and the index follow each other without gaps, and each entry of the
index has exact places and lengths and the unknown word of its file. -/
structure Archive.Spells (archive : Archive) (catalog : Catalog) (header : ArchiveHeader)
    (entries : List IndexEntry) : Prop where
  packed_eq : archive.packed catalog
    = header.write ++ (archive.packing catalog).flatMap (·.name)
      ++ (archive.packing catalog).flatMap (·.contents) ++ entries.flatMap IndexEntry.write
  header_eq : header = { unknown := archive.header.unknown
                         indexOffset := header.indexOffset, indexLength := header.indexLength }
  indexOffset : header.indexOffset.toNat
    = ArchiveHeader.size + ((archive.packing catalog).map (·.name.length)).sum
      + ((archive.packing catalog).map (·.contents.length)).sum
  indexLength : header.indexLength.toNat = ArchiveHeader.entrySize * archive.size
  length_entries : entries.length = archive.size
  entry : ∀ i m, archive.files[i]? = some m → ∃ entry, entries[i]? = some entry
    ∧ entry.nameOffset.toNat
      = ArchiveHeader.size + (((archive.packing catalog).take i).map (·.name.length)).sum
    ∧ entry.nameLength.toNat = (m.packing archive.encoding catalog).name.length
    ∧ entry.dataOffset.toNat
      = ArchiveHeader.size + ((archive.packing catalog).map (·.name.length)).sum
        + (((archive.packing catalog).take i).map (·.contents.length)).sum
    ∧ entry.dataLength.toNat = (m.packing archive.encoding catalog).contents.length
    ∧ entry.unknown = m.entry.unknown

theorem Archive.exists_spells {archive : Archive} {catalog : Catalog}
    (hfits : Fits (archive.packed catalog)) :
    ∃ header entries, archive.Spells catalog header entries := by
  have hlength := archive.length_packed catalog
  rw [Fits] at hfits
  refine ⟨Packing.header archive.header.unknown (archive.packing catalog),
    Packing.entries ArchiveHeader.size (Packing.contentsOffset (archive.packing catalog))
      (archive.packing catalog), ?_⟩
  constructor
  case packed_eq => rfl
  case header_eq => rfl
  case indexOffset =>
    rw [← Packing.length_names, ← Packing.length_contents] at hlength ⊢
    exact UInt32.toNat_ofNat_of_lt' (by rw [Packing.indexOffset, Packing.contentsOffset]; omega)
  case indexLength =>
    rw [size, ← List.length_map (f := Member.packing archive.encoding catalog), ← packing]
    refine UInt32.toNat_ofNat_of_lt' ?_
    rw [packing, List.length_map, ← size]
    omega
  case length_entries =>
    rw [Packing.length_entries, packing, List.length_map, size]
  case entry =>
    intro i m hm
    have hfile : (archive.packing catalog)[i]? = some (m.packing archive.encoding catalog) := by
      rw [packing, List.getElem?_map, hm]
      rfl
    rw [← Packing.length_names, ← Packing.length_contents] at hlength
    obtain ⟨entry, hentry, hname, hnameLength, hdata, hdataLength, hunknown⟩ :=
      @Packing.entries_exact ArchiveHeader.size (Packing.contentsOffset (archive.packing catalog))
        _ _ i (by omega) (by rw [Packing.contentsOffset]; omega) hfile
    refine ⟨entry, hentry, ?_, hnameLength, ?_, hdataLength, hunknown⟩
    · rw [hname, Packing.length_names]
    · rw [hdata, Packing.contentsOffset, Packing.length_names, Packing.length_contents]

/-- What is packed are the files of the catalog, each under its stored name, with the contents that
are read now and with its old unknown word. -/
structure Archive.Packs (archive : Archive) (file : Bytes) (catalog : Catalog) (words : Words) :
    Prop where
  header : archive.header.write <+: file
  headerWord : archive.header.unknown = words.header
  names : ∀ name, name ∈ archive.files.map (·.name) ↔ (catalog name).isSome = true
  files : ∀ m ∈ archive.files,
    Change.storedName archive.encoding m.name = .ok (m.packing archive.encoding catalog).name
      ∧ catalog m.name = some (m.packing archive.encoding catalog).contents
      ∧ m.contents file = .ok (m.packing archive.encoding catalog).contents
      ∧ m.entry.unknown = words.file m.name

/-- From one session to another, the file has been given the canonical form of its archive.  The
files, their order and contents and the handles are as before. -/
structure Session.Compacted (session : Session) (archive : Archive) (catalog : Catalog)
    (after : Session) : Prop where
  file_eq : after.file = some (archive.packed catalog)
  listing_eq : after.listing = session.listing
  standing_eq : after.archive.map (·.standing) = some archive.standing
  handles_eq : after.handles = session.handles

namespace Session

variable {session : Session} {mode : SaveMode} {encoding : Encoding} {catalog : Catalog}
  {words : Words} {archive : Archive} {file : Bytes}

/-- A ready archive is compacted, unless it has become too large. -/
theorem compact_ready (harchive : session.archive = some archive)
    (hfile : session.file = some file) (hready : archive.Ready file mode encoding catalog words)
    (hmode : mode = .explicit ∨ mode = .flush)
    (hsurvive : ∀ m ∈ archive.files, encoding.Survives m.name)
    (hfits : Fits (archive.packed catalog)) :
    Ends Operation.compact.work session
      (fun answer after => answer = true ∧ after.archive = some (archive.repacked catalog)
        ∧ session.Compacted archive catalog after)
      noFailure := by
  simp only [Operation.work, ends_bind, ends_pure]
  rw [Work.ends_on harchive hfile]
  refine Change.compact_ends hready hmode ((Change.repack_packs hready hsurvive).mono ?_ ?_)
  · rintro _ store ⟨hpacked, hrepacked⟩
    have hstore : store.archive = archive.repacked catalog := hrepacked hfits
    have hpacked : store.file = archive.packed catalog := hpacked
    refine ⟨trivial, congrArg some hstore, congrArg some hpacked, ?_, ?_, rfl⟩
    · have hlisting := (hready.repacked hsurvive hfits).listing_eq
      rw [Archive.map_name_repacked, ← hready.listing_eq] at hlisting
      simpa only [listing, withStore, harchive, hfile, hstore, hpacked, Option.getD_some] using
        hlisting
    · simp only [withStore, Option.map_some, hstore, Archive.standing_repacked_eq hready.unique]
  · rintro _ _ ⟨hlarge, -⟩
    exact hlarge hfits

/-- **Compaction is canonical.**  Whatever file the archive was opened from and whatever has been
done since, compacting it succeeds if the names of its files survive and the result stays below
4 GiB.  The file then has the canonical form of the files that the operations should have given,
with the unknown words that are left of the file it was opened from, and compacting it once more
leaves it as it is. -/
theorem compact_canonical (h : session.Worked mode encoding catalog words)
    (harchive : session.archive = some archive) (hfile : session.file = some file)
    (hsurvive : ∀ m ∈ archive.files, encoding.Survives m.name) :
    archive.Packs file catalog words
      ∧ (archive.packed catalog).length
        = ArchiveHeader.size + ((archive.packing catalog).map (·.name.length)).sum
          + ((archive.packing catalog).map (·.contents.length)).sum
          + ArchiveHeader.entrySize * archive.size
      ∧ (Fits (archive.packed catalog) →
        (∃ header entries, archive.Spells catalog header entries)
        ∧ Ends Operation.compact.work session
          (fun answer after => answer = true ∧ session.Compacted archive catalog after
            ∧ Ends Operation.compact.work after
              (fun answer again => answer = true ∧ session.Compacted archive catalog again)
              noFailure)
          noFailure) := by
  obtain ⟨hmode, archive', file', harchive', hfile', hready⟩ := h.ready
  obtain rfl := Option.some.inj (harchive.symm.trans harchive')
  obtain rfl := Option.some.inj (hfile.symm.trans hfile')
  have hpacks : archive.Packs file catalog words := by
    refine ⟨hready.front, hready.headerWord, fun name => hready.mem_iff, fun m hm => ?_⟩
    obtain ⟨hname, hcatalog, hcontents⟩ := hready.packing_eq hm (hsurvive m hm)
    exact ⟨hname, hcatalog, hcontents, hready.word m hm⟩
  refine ⟨hpacks, archive.length_packed catalog,
    fun hfits => ⟨Archive.exists_spells hfits, ?_⟩⟩
  refine (compact_ready harchive hfile hready hmode hsurvive hfits).imp ?_
  rintro _ after ⟨hanswer, hrepacked, hcompacted⟩
  refine ⟨hanswer, hcompacted, ?_⟩
  -- the compacted archive is ready again, and its canonical form is the same
  have hsurvive' : ∀ m ∈ (archive.repacked catalog).files, encoding.Survives m.name := by
    intro m hm
    have hname : m.name ∈ (archive.repacked catalog).files.map (·.name) := List.mem_map_of_mem hm
    rw [Archive.map_name_repacked] at hname
    obtain ⟨o, ho, honame⟩ := List.mem_map.mp hname
    exact honame ▸ hsurvive o ho
  have hagain := compact_ready hrepacked hcompacted.file_eq
    (hready.repacked hsurvive hfits) hmode hsurvive'
    (by rw [Archive.packed_repacked]; exact hfits)
  refine hagain.imp ?_
  rintro _ again ⟨hanswer, -, hfile, hlisting, hstanding, hhandles⟩
  refine ⟨hanswer, ?_, hlisting.trans hcompacted.listing_eq, ?_,
    hhandles.trans hcompacted.handles_eq⟩
  · rw [hfile, Archive.packed_repacked]
  · rw [hstanding, Archive.standing_repacked_eq hready.unique]

/-- An operation that packs nothing leads on if its file stays below 4 GiB. -/
theorem Worked.next (h : session.Worked mode encoding catalog words) (op : Operation)
    (hpacks : op.packs session = false)
    (hfits : (op.work.after session).file.all (fun file => file.length < UInt32.size) = true) :
    (op.work.after session).Worked mode encoding
      (op.effect session (op.work.answer session) catalog)
      (op.kept (op.work.answer session) words) :=
  .step op h ⟨rfl, fun _ => fits_of_all hfits, fun hop => by rw [hpacks] at hop; cases hop⟩

/-- An archive is compacted whose contents were in each other and in the header, while a file is
being made. -/
theorem compact_canonical_crowded : ∃ (session after again : Session) (archive : Archive)
    (catalog : Catalog), session.archive = some archive
      ∧ archive.members.map (·.name) = ["a", "c", "d"] ∧ archive.files.map (·.name) = ["a", "c"]
      ∧ (archive.packing catalog).map (·.contents) = [[97, 0, 98, 0], [7, 8]]
      ∧ session.Compacted archive catalog after ∧ session.Compacted archive catalog again
      ∧ (Operation.compact.work.run.run session : Except SessionError Bool × Session)
        = (.ok true, after)
      ∧ (Operation.compact.work.run.run after : Except SessionError Bool × Session)
        = (.ok true, again) := by
  let before : Session := { path := "data.ykc", encoding := .utf8, file := some Archive.crowded }
  let opened := (Work.openArchive .explicit).after before
  let loaded := opened.archive.get (by decide +kernel)
  have hok : ((Work.openArchive .explicit).answer before).isOk = true := by decide +kernel
  obtain ⟨_, hopen⟩ := exists_of_isOk hok
  have hloaded : opened.Worked .explicit .utf8 (loaded.catalog Archive.crowded) loaded.words :=
    .load (show before.file = some Archive.crowded from rfl) rfl (Prod.ext hopen rfl)
      (Option.some_get _).symm (.inl rfl)
  have hworked := ((hloaded.next (.writeAll "c" [7, 8]) rfl (by decide +kernel)).next
    (.deleteFile "b") rfl (by decide +kernel)).next (.createFile 1 "d") rfl (by decide +kernel)
  generalize hcatalog : Operation.effect _ _ _ (.createFile 1 "d") = catalog at hworked
  generalize hsession : (Operation.createFile 1 "d").work.after _ = session at hworked
  have hfound : session.archive.any (fun archive =>
      archive.members.map (·.name) == ["a", "c", "d"]
        && archive.files.map (·.name) == ["a", "c"]
        && (archive.packing catalog).map (·.contents) == [[97, 0, 98, 0], [7, 8]]
        && (archive.packed catalog).length < UInt32.size) = true := by
    rw [← hsession, ← hcatalog]
    decide +kernel
  obtain ⟨archive, harchive, hfound⟩ := (Option.any_eq_true _ _).mp hfound
  simp only [Bool.and_eq_true, beq_iff_eq, decide_eq_true_eq] at hfound
  obtain ⟨⟨⟨hmembers, hfiles⟩, hcontents⟩, hfits⟩ := hfound
  have hsurvive : ∀ m ∈ archive.files, Encoding.utf8.Survives m.name := by
    intro m hm
    have hname : m.name ∈ archive.files.map (·.name) := List.mem_map_of_mem hm
    have hascii : ∀ name ∈ ["a", "c"], Encoding.isAscii name = true := by decide +kernel
    exact Encoding.survives_of_isAscii (hascii _ (hfiles ▸ hname))
  obtain ⟨-, _, file, -, hfile, -⟩ := hworked.ready
  obtain ⟨-, -, hcompacts⟩ := compact_canonical hworked harchive hfile hsurvive
  obtain ⟨_, after, hrun, rfl, hcompacted, hagain⟩ := (hcompacts hfits).2.run_eq
  obtain ⟨_, again, hrun', rfl, hcompacted'⟩ := hagain.run_eq
  exact ⟨session, after, again, archive, catalog, harchive, hmembers, hfiles, hcontents, hcompacted,
    hcompacted', hrun, hrun'⟩

end Session
end NovelScript
