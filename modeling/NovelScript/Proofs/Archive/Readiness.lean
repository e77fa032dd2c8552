import NovelScript.Proofs.Archive.Handling

/-!
# Archives that can be packed

An archive opened from an odd file, whose files share octets or lie in its header, still has
contents to each name.  It stays `Archive.Ready` as long as each file is read as what the operations
have given it.  In explicit mode nothing is written before the file is packed, so that is so for any
places; in flush mode a save may cut the file off, so header, index and contents have to be apart
from each other (`Archive.Separate`).  Names are read when the archive is opened and never again, so
their places do not matter in either mode.
-/

namespace NovelScript

/-- Index and contents are stored in the file behind its header, and as far as they are not empty no
two of them share an octet. -/
structure Archive.Separate (archive : Archive) (file : Bytes) : Prop where
  index : archive.header.indexSpan.Inside file.length
  stored : ∀ m ∈ archive.files, m.residence = .stored m.entry ∧ m.dataSpan.Inside file.length
  indexApart : ∀ m ∈ archive.files, archive.header.indexSpan.Apart m.dataSpan
  dataApart : ∀ m ∈ archive.files, ∀ m' ∈ archive.files, m.name ≠ m'.name →
    m.dataSpan.Apart m'.dataSpan

/-- The words of an archive that have no known meaning: that of its header and, by name, those of
its files. -/
structure Words where
  header : UInt32
  file : String → UInt32

/-- The word of a file that is gone is not kept. -/
def Words.remove (words : Words) (name : String) : Words :=
  { words with file := fun other => if other = name then 0 else words.file other }

/-- Over this file, the files of the archive are those of the catalog, and each of them is read.
Header and files have these unknown words. -/
structure Archive.Ready (archive : Archive) (file : Bytes) (mode : SaveMode) (encoding : Encoding)
    (catalog : Catalog) (words : Words) : Prop where
  mode_eq : archive.mode = mode
  encoding_eq : archive.encoding = encoding
  front : archive.header.write <+: file
  unique : (archive.members.map (·.name)).Nodup
  held : ∀ m ∈ archive.files, ∃ octets, catalog m.name = some octets
    ∧ m.contents file = .ok octets
  headerWord : archive.header.unknown = words.header
  word : ∀ m ∈ archive.files, m.entry.unknown = words.file m.name
  absent : ∀ name, name ∉ archive.files.map (·.name) →
    catalog name = none ∧ words.file name = 0
  separate : mode = .flush → archive.Separate file

/-! ## Reading contents -/

/-- A region is read in every longer file. -/
theorem region_of_isPrefix {file file' octets : Bytes} {offset length : Nat}
    (hgrows : file <+: file') (h : region file offset length = .ok octets) :
    region file' offset length = .ok octets := by
  obtain ⟨hlength, heq⟩ := region_eq_ok_iff.mp h
  refine region_eq_ok_iff.mpr ⟨hlength, fun i hi => ?_⟩
  have hi' : i < octets.length := hlength ▸ hi
  have hsome : file[offset + i]? = some octets[i] := by
    rw [heq i hi, List.getElem?_eq_getElem hi']
  obtain ⟨rest, rfl⟩ := hgrows
  rw [List.getElem?_append_left (List.getElem?_eq_some_iff.mp hsome).1, hsome,
    List.getElem?_eq_getElem hi']

namespace Member

variable {m m' : Member} {file file' octets : Bytes} {limit size : Nat}

theorem contents_of_core_eq (h : m.core = m'.core) : m.contents file = m'.contents file := by
  rw [contents, contents, (core_eq_iff.mp h).2]

theorem contents_of_isPrefix (hgrows : file <+: file') (h : m.contents file = .ok octets) :
    m.contents file' = .ok octets := by
  unfold contents at h ⊢
  split
  · next hcreated =>
    rw [hcreated] at h
    exact h
  · next unknown held hbuffered =>
    rw [hbuffered] at h
    exact h
  · next entry hstored =>
    rw [hstored] at h
    exact region_of_isPrefix hgrows h

/-- Contents below a limit are read in every file that is kept up to it. -/
theorem contents_of_keeps (hstored : m.residence = .stored m.entry)
    (hinside : m.dataSpan.Inside size) (hkeeps : Keeps file file' limit)
    (hbelow : m.dataSpan.Below limit) (h : m.contents file = .ok octets) :
    m.contents file' = .ok octets := by
  simp only [dataSpan, hstored, IndexEntry.dataSpan, IndexEntry.dataEnd, Span.Inside,
    Span.Below] at hinside hbelow
  simp only [contents, hstored] at h ⊢
  exact hkeeps.region_eq_ok h (by omega) (by omega)

end Member

namespace Archive

variable {archive archive' : Archive} {file file' octets : Bytes} {mode : SaveMode}
  {encoding : Encoding} {catalog : Catalog} {words : Words} {name : String} {m m' : Member}
  {limit : Nat}

theorem mem_files : m ∈ archive.files ↔ m ∈ archive.members ∧ m.isCreated = false := by
  simp [files]

namespace Ready

theorem size_le (h : archive.Ready file mode encoding catalog words) :
    ArchiveHeader.size ≤ file.length := h.front.length_le

/-- What is listed are the files with what the catalog has for them. -/
theorem listing_eq (h : archive.Ready file mode encoding catalog words) :
    archive.listing file
      = (archive.files.map (·.name)).map fun name => (name, .ok ((catalog name).getD [])) := by
  rw [listing, List.map_map]
  refine List.map_congr_left fun m hm => ?_
  obtain ⟨octets, hcatalog, hcontents⟩ := h.held m hm
  simp only [Function.comp_apply, hcontents, hcatalog, Option.getD_some]

/-- The files are those of the catalog. -/
theorem mem_iff (h : archive.Ready file mode encoding catalog words) :
    name ∈ archive.files.map (·.name) ↔ (catalog name).isSome = true := by
  constructor
  · intro hname
    obtain ⟨m, hm, rfl⟩ := List.mem_map.mp hname
    obtain ⟨octets, hcatalog, -⟩ := h.held m hm
    rw [hcatalog, Option.isSome_some]
  · intro hsome
    by_contra hname
    rw [(h.absent name hname).1] at hsome
    cases hsome

/-- A file that is being made has no word yet. -/
theorem entry_word (h : archive.Ready file mode encoding catalog words) (hm : m ∈ archive.members) :
    m.entry.unknown = words.file m.name := by
  cases hcreated : m.isCreated with
  | false => exact h.word m (mem_files.mpr ⟨hm, hcreated⟩)
  | true =>
    have hname : m.name ∉ archive.files.map (·.name) := by
      intro hname
      obtain ⟨o, ho, honame⟩ := List.mem_map.mp hname
      obtain ⟨ho, hfile⟩ := mem_files.mp ho
      rw [Member.eq_of_name_eq h.unique ho hm honame, hcreated] at hfile
      cases hfile
    have hresidence : m.residence = .created := by simpa [Member.isCreated] using hcreated
    rw [(h.absent m.name hname).2, Member.entry, hresidence]

/-! ## What changes no file -/

theorem retain (h : archive.Ready file mode encoding catalog words)
    (hretains : archive.Retains archive') : archive'.Ready file mode encoding catalog words := by
  have hold : ∀ {m'}, m' ∈ archive'.files → ∃ m ∈ archive.files, m.core = m'.core :=
    fun hm' => Member.exists_of_map_core_eq hretains.files_eq hm'
  refine ⟨hretains.mode_eq.trans h.mode_eq, hretains.encoding_eq.trans h.encoding_eq, ?_,
    hretains.unique h.unique, fun m' hm' => ?_, ?_, fun m' hm' => ?_, fun name hname => ?_,
    fun hmode => ?_⟩
  · rw [hretains.header_eq]
    exact h.front
  · obtain ⟨m, hm, hcore⟩ := hold hm'
    rw [← (Member.core_eq_iff.mp hcore).1, ← Member.contents_of_core_eq hcore]
    exact h.held m hm
  · rw [hretains.header_eq]
    exact h.headerWord
  · obtain ⟨m, hm, hcore⟩ := hold hm'
    rw [← (Member.core_eq_iff.mp hcore).1, ← Member.entry_of_core_eq hcore]
    exact h.word m hm
  · rw [Member.map_name_of_map_core_eq hretains.files_eq] at hname
    exact h.absent name hname
  · have hseparate := h.separate hmode
    constructor
    case index =>
      rw [hretains.header_eq]
      exact hseparate.index
    case stored =>
      intro m' hm'
      obtain ⟨m, hm, hcore⟩ := hold hm'
      rw [← (Member.core_eq_iff.mp hcore).2, ← Member.entry_of_core_eq hcore,
        ← Member.dataSpan_of_core_eq hcore]
      exact hseparate.stored m hm
    case indexApart =>
      intro m' hm'
      obtain ⟨m, hm, hcore⟩ := hold hm'
      rw [hretains.header_eq, ← Member.dataSpan_of_core_eq hcore]
      exact hseparate.indexApart m hm
    case dataApart =>
      intro a' ha' b' hb' hne
      obtain ⟨a, ha, hacore⟩ := hold ha'
      obtain ⟨b, hb, hbcore⟩ := hold hb'
      rw [← (Member.core_eq_iff.mp hacore).1, ← (Member.core_eq_iff.mp hbcore).1] at hne
      rw [← Member.dataSpan_of_core_eq hacore, ← Member.dataSpan_of_core_eq hbcore]
      exact hseparate.dataApart a ha b hb hne

/-- Octets behind the end do no harm. -/
theorem append (h : archive.Ready file mode encoding catalog words) (octets : Bytes) :
    archive.Ready (file ++ octets) mode encoding catalog words where
  mode_eq := h.mode_eq
  encoding_eq := h.encoding_eq
  front := h.front.trans (List.prefix_append file octets)
  unique := h.unique
  held m hm := by
    obtain ⟨held, hcatalog, hcontents⟩ := h.held m hm
    exact ⟨held, hcatalog, Member.contents_of_isPrefix (List.prefix_append file octets) hcontents⟩
  headerWord := h.headerWord
  word := h.word
  absent := h.absent
  separate hmode := by
    have hseparate := h.separate hmode
    have hle : file.length ≤ (file ++ octets).length := by simp
    refine ⟨hseparate.index.of_below hseparate.index.below hle, fun m hm => ?_,
      hseparate.indexApart, hseparate.dataApart⟩
    obtain ⟨hstored, hinside⟩ := hseparate.stored m hm
    exact ⟨hstored, hinside.of_below hinside.below hle⟩

/-! ## Files that go -/

theorem delete (h : archive.Ready file mode encoding catalog words) (name : String) :
    Ready { archive with members := archive.members.eraseP (·.name == name), dirty := true } file
      mode encoding (catalog.remove name) (words.remove name) := by
  generalize harchive : ({ archive with
    members := archive.members.eraseP (·.name == name), dirty := true } : Archive) = archive'
  have hmem : ∀ {m}, m ∈ archive'.files ↔ m ∈ archive.files ∧ m.name ≠ name := by
    intro m
    rw [mem_files, mem_files, ← harchive, Member.mem_eraseP_iff h.unique]
    exact and_right_comm
  have hheader : archive'.header = archive.header := by rw [← harchive]
  constructor
  case mode_eq => rw [← harchive, h.mode_eq]
  case encoding_eq => rw [← harchive, h.encoding_eq]
  case front => exact hheader ▸ h.front
  case unique =>
    rw [← harchive]
    exact h.unique.sublist (List.eraseP_sublist.map _)
  case held =>
    intro m hm
    obtain ⟨hm, hne⟩ := hmem.mp hm
    rw [Catalog.remove_of_ne hne]
    exact h.held m hm
  case headerWord => exact hheader ▸ h.headerWord
  case word =>
    intro m hm
    obtain ⟨hm, hne⟩ := hmem.mp hm
    exact (h.word m hm).trans (if_neg hne).symm
  case absent =>
    intro other hother
    by_cases hname : other = name
    · rw [hname, Catalog.remove_self]
      exact ⟨rfl, if_pos rfl⟩
    · have hword : (words.remove name).file other = words.file other := if_neg hname
      rw [Catalog.remove_of_ne hname, hword]
      refine h.absent other fun hold => hother ?_
      obtain ⟨m, hm, rfl⟩ := List.mem_map.mp hold
      exact List.mem_map_of_mem (hmem.mpr ⟨hm, hname⟩)
  case separate =>
    intro hmode
    have hseparate := h.separate hmode
    exact ⟨hheader ▸ hseparate.index, fun m hm => hseparate.stored m (hmem.mp hm).1,
      fun m hm => hheader ▸ hseparate.indexApart m (hmem.mp hm).1,
      fun a ha b hb => hseparate.dataApart a (hmem.mp ha).1 b (hmem.mp hb).1⟩

/-! ## Files that are saved -/

/-- Once a member is saved, the files are the others and this one. -/
theorem mem_files_save (hunique : (archive.members.map (·.name)).Nodup) (hm : m ∈ archive.members)
    {residence : Residence} (hmade : residence ≠ .created)
    (harchive : archive'.members
      = Member.change m.name (fun o => { o with residence }) archive.members) :
    m' ∈ archive'.files
      ↔ m' ∈ archive.files ∧ m'.name ≠ m.name ∨ m' = { m with residence } := by
  have hsaved : ({ m with residence } : Member).isCreated = false := by
    simpa [Member.isCreated] using hmade
  rw [mem_files, mem_files, harchive, Member.mem_change_iff hunique]
  constructor
  · rintro ⟨⟨hm', hne⟩ | ⟨o, ho, hname, rfl⟩, hfile⟩
    · exact .inl ⟨⟨hm', hfile⟩, hne⟩
    · rw [Member.eq_of_name_eq hunique ho hm hname]
      exact .inr rfl
  · rintro (⟨⟨hm', hfile⟩, hne⟩ | rfl)
    · exact ⟨.inl ⟨hm', hne⟩, hfile⟩
    · exact ⟨.inr ⟨m, hm, rfl, rfl⟩, hsaved⟩

/-- A member is saved where it is read again, and the other files still are. -/
theorem save (h : archive.Ready file mode encoding catalog words) (hm : m ∈ archive.members)
    {residence : Residence} (hmade : residence ≠ .created)
    (hfront : archive.header.write <+: file')
    (hothers : ∀ o ∈ archive.files, o.name ≠ m.name → ∀ held, o.contents file = .ok held →
      o.contents file' = .ok held)
    (hcontents : Member.contents { m with residence } file' = .ok octets)
    (hword : (Member.entry { m with residence }).unknown = m.entry.unknown)
    (harchive : archive' = { archive with
      members := Member.change m.name (fun o => { o with residence }) archive.members
      dirty := true })
    (hseparate : mode = .flush → archive'.Separate file') :
    archive'.Ready file' mode encoding (catalog.put m.name octets) words := by
  have hmembers : archive'.members
      = Member.change m.name (fun o => { o with residence }) archive.members := by rw [harchive]
  have hmem : ∀ m', m' ∈ archive'.files
      ↔ m' ∈ archive.files ∧ m'.name ≠ m.name ∨ m' = { m with residence } :=
    fun _ => mem_files_save h.unique hm hmade hmembers
  constructor
  case mode_eq => rw [harchive, h.mode_eq]
  case encoding_eq => rw [harchive, h.encoding_eq]
  case front =>
    rw [harchive]
    exact hfront
  case unique =>
    rw [hmembers, Member.map_name_change (f := fun o => { o with residence }) fun _ => rfl]
    exact h.unique
  case held =>
    intro m' hm'
    rcases (hmem m').mp hm' with ⟨hm', hne⟩ | rfl
    · obtain ⟨held, hcatalog, hheld⟩ := h.held m' hm'
      rw [Catalog.put_of_ne hne]
      exact ⟨held, hcatalog, hothers m' hm' hne held hheld⟩
    · exact ⟨octets, Catalog.put_self, hcontents⟩
  case headerWord =>
    rw [harchive]
    exact h.headerWord
  case word =>
    intro m' hm'
    rcases (hmem m').mp hm' with ⟨hm', -⟩ | rfl
    · exact h.word m' hm'
    · exact hword.trans (h.entry_word hm)
  case absent =>
    intro name hname
    have hne : name ≠ m.name := by
      rintro rfl
      exact hname (List.mem_map.mpr ⟨_, (hmem _).mpr (.inr rfl), rfl⟩)
    rw [Catalog.put_of_ne hne]
    refine h.absent name fun hold => hname ?_
    obtain ⟨o, ho, rfl⟩ := List.mem_map.mp hold
    exact List.mem_map_of_mem ((hmem o).mpr (.inl ⟨ho, hne⟩))
  case separate => exact hseparate

/-- Contents in memory are no part of the file. -/
theorem buffer (h : archive.Ready file .explicit encoding catalog words) (hm : m ∈ archive.members)
    (octets : Bytes) :
    Ready { archive with
        members := Member.change m.name
          (fun o => { o with residence := .buffered m.entry.unknown octets }) archive.members
        dirty := true }
      file .explicit encoding (catalog.put m.name octets) words := by
  have hmade : Residence.buffered m.entry.unknown octets ≠ .created := by simp
  exact h.save hm hmade h.front (fun _ _ _ _ => id) rfl rfl rfl (by simp)

/-- A file is saved behind a limit, where header, index and all other contents are below it. -/
theorem place (h : archive.Ready file .flush encoding catalog words) (hm : m ∈ archive.members)
    {entry : IndexEntry} (hword : entry.unknown = m.entry.unknown)
    (hkeeps : Keeps file file' limit) (hfront : archive.header.write <+: file')
    (hindex : archive.header.indexSpan.Below limit)
    (hbelow : ∀ o ∈ archive.files, o.name ≠ m.name → o.dataSpan.Below limit)
    (hsize : ArchiveHeader.size ≤ limit) (hlimit : limit ≤ entry.dataOffset.toNat)
    (hregion : region file' entry.dataOffset.toNat entry.dataLength.toNat = .ok octets) :
    Ready { archive with
        members := Member.change m.name (fun o => { o with residence := .stored entry })
          archive.members
        dirty := true }
      file' .flush encoding (catalog.put m.name octets) words := by
  have hseparate := h.separate rfl
  have hinside : entry.dataSpan.Inside file'.length := by
    by_cases hpos : 0 < entry.dataLength.toNat
    · exact .inr ⟨Nat.le_trans hsize hlimit, le_of_region_eq_ok hregion hpos⟩
    · exact .inl (by simp only [IndexEntry.dataSpan, IndexEntry.dataEnd]; omega)
  have habove : entry.dataSpan.Above limit := .inr hlimit
  have hcontents : Member.contents { m with residence := .stored entry } file' = .ok octets :=
    hregion
  refine h.save hm (by simp) hfront (fun o ho hne held hheld => ?_) hcontents hword rfl fun _ => ?_
  · obtain ⟨hstored, hold⟩ := hseparate.stored o ho
    exact Member.contents_of_keeps hstored hold hkeeps (hbelow o ho hne) hheld
  · have hmem := fun m' archive' harchive =>
      @mem_files_save archive archive' m m' h.unique hm (.stored entry) (by simp) harchive
    refine ⟨hseparate.index.of_below hindex hkeeps.le', fun m' hm' => ?_, fun m' hm' => ?_,
      fun a ha b hb hne => ?_⟩
    · rcases (hmem m' _ rfl).mp hm' with ⟨hm', hne⟩ | rfl
      · obtain ⟨hstored, hold⟩ := hseparate.stored m' hm'
        exact ⟨hstored, hold.of_below (hbelow m' hm' hne) hkeeps.le'⟩
      · exact ⟨rfl, hinside⟩
    · rcases (hmem m' _ rfl).mp hm' with ⟨hm', -⟩ | rfl
      · exact hseparate.indexApart m' hm'
      · exact hindex.apart habove
    · rcases (hmem a _ rfl).mp ha with ⟨ha, hane⟩ | rfl
      · rcases (hmem b _ rfl).mp hb with ⟨hb, -⟩ | rfl
        · exact hseparate.dataApart a ha b hb hne
        · exact (hbelow a ha hane).apart habove
      · rcases (hmem b _ rfl).mp hb with ⟨hb, hbne⟩ | rfl
        · exact ((hbelow b hb hbne).apart habove).symm
        · exact absurd rfl hne

/-- Where the contents of a file come last, all else is below them. -/
theorem below_of_last (h : archive.Ready file .flush encoding catalog words)
    (hm : m ∈ archive.files) (hpos : m.dataSpan.start < m.dataSpan.stop)
    (hlast : m.dataSpan.stop = file.length) :
    archive.header.indexSpan.Below m.dataSpan.start
      ∧ ∀ o ∈ archive.files, o.name ≠ m.name → o.dataSpan.Below m.dataSpan.start := by
  have hseparate := h.separate rfl
  refine ⟨(hseparate.indexApart m hm).below_of_last hseparate.index hpos hlast, fun o ho hne => ?_⟩
  exact (hseparate.dataApart o ho m hm hne).below_of_last (hseparate.stored o ho).2 hpos hlast

/-- Everything is below the end of the file. -/
theorem below_length (h : archive.Ready file .flush encoding catalog words) :
    archive.header.indexSpan.Below file.length
      ∧ ∀ o ∈ archive.files, o.dataSpan.Below file.length :=
  ⟨(h.separate rfl).index.below, fun o ho => ((h.separate rfl).stored o ho).2.below⟩

/-! ## The index -/

/-- The index is written behind a limit, where all contents are below it, and the header after
it. -/
theorem reindex (h : archive.Ready file .flush encoding catalog words) {offset : UInt32}
    {header : ArchiveHeader} (hkeeps : Keeps file file' limit)
    (hbelow : ∀ m ∈ archive.files, m.dataSpan.Below limit)
    (hsize : ArchiveHeader.size ≤ limit) (hlimit : limit ≤ offset.toNat)
    (hend : offset.toNat + (Change.indexOctets archive).length = file'.length)
    (hsmall : file'.length < UInt32.size)
    (hheader : header = { archive.header with
      indexOffset := offset
      indexLength := .ofNat (Change.indexOctets archive).length }) :
    Ready { archive with header, dirty := false } (header.write ++ file'.drop ArchiveHeader.size)
      .flush encoding catalog words := by
  have hseparate := h.separate rfl
  have hlength : header.indexLength.toNat = (Change.indexOctets archive).length := by
    rw [hheader]
    exact UInt32.toNat_ofNat_of_lt' (by omega)
  have hspan : header.indexSpan = ⟨offset.toNat, file'.length⟩ := by
    rw [ArchiveHeader.indexSpan, ArchiveHeader.indexEnd, hlength, hheader, hend]
  -- the header is rewritten in place, in front of everything else
  have hwritten : Keeps file' (header.write ++ file'.drop ArchiveHeader.size) file'.length :=
    .header header (by omega)
  have hkept := hkeeps.trans hwritten hkeeps.le'
  refine ⟨h.mode_eq, h.encoding_eq, List.prefix_append _ _, h.unique, fun m hm => ?_,
    (by rw [hheader, ← h.headerWord]), h.word, h.absent,
    fun _ => ⟨?_, fun m hm => ?_, fun m hm => ?_, hseparate.dataApart⟩⟩
  · obtain ⟨octets, hcatalog, hcontents⟩ := h.held m hm
    obtain ⟨hstored, hinside⟩ := hseparate.stored m hm
    exact ⟨octets, hcatalog,
      Member.contents_of_keeps hstored hinside hkept (hbelow m hm) hcontents⟩
  · rw [hspan]
    exact .inr ⟨Nat.le_trans hsize hlimit, hwritten.le'⟩
  · obtain ⟨hstored, hinside⟩ := hseparate.stored m hm
    exact ⟨hstored, hinside.of_below (hbelow m hm) hkept.le'⟩
  · rw [hspan]
    exact ((hbelow m hm).apart (.inr hlimit)).symm

end Ready
end Archive

/-! ## Steps on the archive -/

namespace Change

variable {mode : SaveMode} {encoding : Encoding} {catalog : Catalog} {words : Words}
  {store : Store} {octets : Bytes} {entry : IndexEntry} {name : String} {m member : Member}

/-- The archive is ready for the catalog, unless a save has made its file too large. -/
def ReadyIfFits (mode : SaveMode) (encoding : Encoding) (catalog : Catalog) (words : Words)
    (store : Store) : Prop :=
  (mode = .flush → Fits store.file) → store.archive.Ready store.file mode encoding catalog words

/-- What a save has to leave behind: with the new residence, the archive has the new contents. -/
def Stores (store : Store) (mode : SaveMode) (encoding : Encoding) (catalog : Catalog)
    (words : Words) (m : Member) (octets : Bytes) (residence : Residence) (store' : Store) : Prop :=
  ∃ file, store' = { store with file }
    ∧ ((mode = .flush → Fits file) → Archive.Ready { store.archive with
      members := Member.change m.name (fun o => { o with residence }) store.archive.members
      dirty := true }
    file mode encoding (catalog.put m.name octets) words)

section

variable (h : store.archive.Ready store.file .flush encoding catalog words)
  (hm : m ∈ store.archive.members)

include h hm

/-- Behind the end, contents are apart from all else, whatever stands in front of them. -/
theorem stores_behind {added : Bytes} {file : Bytes} {offset : UInt32}
    (hword : entry.unknown = m.entry.unknown) (hfile : file = store.file ++ added ++ octets)
    (hoffset : offset.toNat = (store.file ++ added).length)
    (hlength : (store.file ++ added).length + octets.length < UInt32.size) :
    Stores store .flush encoding catalog words m octets
      (.stored { entry with dataOffset := offset, dataLength := .ofNat octets.length })
      { store with file } := by
  subst hfile
  refine ⟨_, rfl, fun _ => ?_⟩
  obtain ⟨hindex, hbelow⟩ := h.below_length
  have hkeeps : Keeps store.file (store.file ++ added ++ octets) store.file.length := by
    rw [List.append_assoc]
    exact .append store.file _
  have hfront : store.archive.header.write <+: store.file ++ added ++ octets := by
    rw [List.append_assoc]
    exact h.front.trans (List.prefix_append _ _)
  refine h.place hm hword hkeeps hfront hindex (fun o ho _ => hbelow o ho) h.size_le ?_ ?_
  · show store.file.length ≤ offset.toNat
    rw [hoffset, List.length_append]
    omega
  · exact region_append _ hoffset (UInt32.toNat_ofNat_of_lt' (by omega))

theorem saveNamed_stores :
    Ends (do saveBehind octets (← appendName m.name m.entry)) store
      (Stores store .flush encoding catalog words m octets) fun _ => OnlyAppends store := by
  simp only [ends_bind]
  refine (appendName_spec m.name m.entry store).mono ?_ fun _ store' he => ⟨[], by simp [he]⟩
  rintro entry' store₁ ⟨stored, nameOffset, -, -, -, rfl, rfl⟩
  refine (saveBehind_spec octets _ _).mono ?_ fun _ store' he => ⟨stored, he⟩
  rintro residence store₂ ⟨dataOffset, hdata, hfits, rfl, rfl⟩
  exact stores_behind h hm rfl rfl hdata hfits

theorem saveBehind_stores :
    Ends (saveBehind octets m.entry) store (Stores store .flush encoding catalog words m octets)
      fun _ => OnlyAppends store := by
  refine (saveBehind_spec octets m.entry store).mono ?_ fun _ store' he => ⟨[], by simp [he]⟩
  rintro residence store' ⟨dataOffset, hdata, hfits, rfl, rfl⟩
  rw [← List.append_nil store.file] at hdata hfits
  exact stores_behind h hm rfl (by rw [List.append_nil]) hdata hfits

/-- The last contents in a file are saved over the old ones. -/
theorem overwrite_stores (hcreated : m.isCreated = false) (hpos : 0 < m.entry.dataLength)
    (hlast : m.entry.dataEnd = store.file.length) :
    Stores store .flush encoding catalog words m octets
      (.stored { m.entry with dataLength := .ofNat octets.length })
      { store with file := store.file.take m.entry.dataOffset.toNat ++ octets } := by
  refine ⟨_, rfl, fun hfits => ?_⟩
  have hfits := hfits rfl
  have hfile := Archive.mem_files.mpr ⟨hm, hcreated⟩
  obtain ⟨hstored, hinside⟩ := (h.separate rfl).stored m hfile
  have hspan : m.dataSpan = m.entry.dataSpan := by
    rw [Member.dataSpan, hstored]
  have hnonempty : m.entry.dataSpan.start < m.entry.dataSpan.stop :=
    Nat.lt_add_of_pos_right (UInt32.lt_iff_toNat_lt.mp hpos)
  -- cutting the file where these contents start leaves all else in place
  obtain ⟨hindex, hothers⟩ := h.below_of_last hfile (hspan ▸ hnonempty) (hspan ▸ hlast)
  rw [hspan] at hindex hothers hinside
  simp only [Span.Inside, IndexEntry.dataSpan] at hinside hnonempty
  have hsize : ArchiveHeader.size ≤ m.entry.dataOffset.toNat := by omega
  have hlimit : m.entry.dataOffset.toNat ≤ store.file.length := by omega
  have htake : (store.file.take m.entry.dataOffset.toNat).length = m.entry.dataOffset.toNat := by
    rw [List.length_take, Nat.min_eq_left hlimit]
  have hlength : (UInt32.ofNat octets.length).toNat = octets.length := by
    rw [Fits, List.length_append] at hfits
    exact UInt32.toNat_ofNat_of_lt' (by omega)
  refine h.place hm rfl (.take_append octets hlimit) ?_ hindex hothers hsize (Nat.le_refl _)
    (region_append _ htake.symm hlength)
  exact (List.prefix_take_iff.mpr ⟨h.front, hsize⟩).trans (List.prefix_append _ _)

theorem saveInPlace_stores (hcore : member.core = m.core) :
    Ends (saveInPlace member octets) store (Stores store .flush encoding catalog words m octets)
      fun _ => OnlyAppends store := by
  simp only [saveInPlace, ends_bind, ends_get]
  rw [Member.isCreated_of_core_eq hcore, Member.entry_of_core_eq hcore,
    (Member.core_eq_iff.mp hcore).1]
  split
  · exact saveNamed_stores h hm
  · next hcreated =>
    split
    · next hlast =>
      simp only [setFile, ends_bind, ends_modify, ends_pure]
      exact overwrite_stores h hm (by simpa using hcreated) hlast.1 hlast.2
    · exact saveBehind_stores h hm

end

variable (h : store.archive.Ready store.file mode encoding catalog words)
  (hmode : mode = .explicit ∨ mode = .flush)

include h hmode

/-- Contents are saved as the mode says. -/
theorem save_stores (hm : m ∈ store.archive.members) (hcore : member.core = m.core) :
    Ends (save member octets) store (Stores store mode encoding catalog words m octets)
      fun _ => OnlyAppends store := by
  simp only [save, ends_bind, ends_get]
  rw [h.mode_eq]
  obtain rfl | rfl := hmode
  · rw [Member.entry_of_core_eq hcore]
    exact ⟨store.file, rfl, fun _ => h.buffer hm octets⟩
  · exact saveInPlace_stores h hm hcore

/-- Closing a handle saves its contents, or fails and leaves all files as they were. -/
theorem commit_ready (name : String) (octets : Bytes) :
    Ends (commit name octets) store
      (fun _ => ReadyIfFits mode encoding (catalog.put name octets) words)
      fun _ => ReadyIfFits mode encoding catalog words := by
  simp only [commit, ends_bind, ends_get]
  cases hfind : store.archive.find? name with
  | none => exact fun _ => h
  | some member =>
    obtain ⟨hmember, rfl⟩ := Member.find?_eq_some hfind
    simp only [updateMember, update, ends_bind, ends_modify, ends_tryCatch, forget]
    -- the handle is given back before anything is saved
    generalize hreleased : Member.change member.name (fun m => { m with writer := false })
      store.archive.members = released
    have hretains : store.archive.Retains { store.archive with members := released } :=
      hreleased ▸ .change fun _ => rfl
    have hready := h.retain hretains
    have hfound : Archive.find? { store.archive with members := released } member.name
        = some { member with writer := false } :=
      hreleased ▸ Member.find?_change (fun _ => rfl) hfind
    have hm : { member with writer := false } ∈ released := (Member.find?_eq_some hfound).1
    have hsave : Ends (save member octets)
        { store with archive := { store.archive with members := released } } _ _ :=
      save_stores hready hmode hm rfl
    refine hsave.mono ?_ ?_
    · rintro residence _ ⟨file, rfl, hstored⟩
      exact hstored
    · rintro e _ ⟨rest, rfl⟩
      -- what a failed save has appended lies behind all files
      have hgrown := hready.append rest
      split
      · next hcreated => exact fun _ => hgrown.retain (.forget hfound hcreated)
      · exact fun _ => hgrown

theorem writeAll_ready (name : String) (octets : Bytes) :
    Ends (writeAll name octets) store
      (fun answer => ReadyIfFits mode encoding
        (if answer then catalog.put name octets else catalog) words)
      fun _ => ReadyIfFits mode encoding catalog words := by
  simp only [writeAll, ends_bind]
  refine (createFile_retains name store).mono ?_ ?_
  · rintro (_ | _) store₁ ⟨hfile, hretains⟩
    · exact fun _ => hfile ▸ h.retain hretains
    · rw [if_pos rfl, ends_bind]
      have hready : store₁.archive.Ready store₁.file mode encoding catalog words :=
        hfile ▸ h.retain hretains
      exact commit_ready hready hmode name octets
  · rintro e store₁ ⟨hfile, hretains⟩
    exact fun _ => hfile ▸ h.retain hretains

omit hmode in
theorem deleteFile_ready (name : String) :
    Ends (deleteFile name) store
      (fun answer => ReadyIfFits mode encoding (if answer then catalog.remove name else catalog)
        (if answer then words.remove name else words))
      fun _ => ReadyIfFits mode encoding catalog words := by
  simp only [deleteFile, checkWritable, ends_bind, ends_get]
  split
  · exact fun _ => h
  simp only [ends_pure]
  cases hfind : store.archive.find? name with
  | none => exact fun _ => h
  | some m =>
    dsimp only
    split
    · exact fun _ => h
    · simp only [forget, update, ends_bind, ends_modify, ends_pure]
      exact fun _ => h.delete name

omit h hmode in
/-- The index is written behind all contents, over the old index if that comes last. -/
theorem writeIndex_ready (h : store.archive.Ready store.file .flush encoding catalog words) :
    Ends writeIndex store
      (fun _ store' => Fits store'.file →
        Archive.Ready { store'.archive with dirty := false } store'.file .flush encoding catalog
          words)
      fun _ store' => store' = store := by
  have hseparate := h.separate rfl
  obtain ⟨-, hbelow⟩ := h.below_length
  simp only [writeIndex, placeIndex, ends_bind, ends_get, update, ends_modify, setFile]
  -- the header is written in place, so the file is as large before it
  have hsmall : ∀ {file : Bytes} {header : ArchiveHeader},
      Fits (header.write ++ file.drop ArchiveHeader.size) → file.length < UInt32.size := by
    intro file header hfits
    rw [Fits, List.length_append, ArchiveHeader.length_write, List.length_drop] at hfits
    omega
  split
  · next hlast =>
    obtain ⟨hpos, hlast⟩ := hlast
    simp only [ends_bind, ends_modify, ends_pure]
    intro hfits
    have hnonempty : store.archive.header.indexSpan.start < store.archive.header.indexSpan.stop :=
      Nat.lt_add_of_pos_right (UInt32.lt_iff_toNat_lt.mp hpos)
    have hinside := hseparate.index
    simp only [Span.Inside, ArchiveHeader.indexSpan] at hinside hnonempty
    have hlimit : store.archive.header.indexOffset.toNat ≤ store.file.length := by omega
    refine h.reindex (.take_append _ hlimit) (fun m hm => ?_) (by omega) (Nat.le_refl _) ?_
      (hsmall hfits) rfl
    · exact (hseparate.indexApart m hm).symm.below_of_last (hseparate.stored m hm).2 hnonempty hlast
    · rw [List.length_append, List.length_take, Nat.min_eq_left hlimit]
  · refine (append_spec _ store).imp ?_
    rintro offset _ ⟨hoffset, -, rfl⟩ hfits
    refine h.reindex (.append store.file _) hbelow h.size_le ?_ ?_ (hsmall hfits) rfl
    · exact Nat.le_of_eq hoffset.symm
    · rw [hoffset, List.length_append]

end Change
end NovelScript
