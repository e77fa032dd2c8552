import NovelScript.Proofs.Archive.Exclusion
import NovelScript.Proofs.Archive.Snapshots
import NovelScript.Proofs.Archive.Undoing

/-!
# Opening any file as an archive

A file is an archive if it `Indexes` its files: a header in front, an index inside the file, and
entries that name places inside it.  Places may overlap, and a name may be listed twice.  Just these
files are opened, and what is open then is `Listed`, one member for each name with the last entry of
that name, so that all its files can be read (`Work.openArchive_reads`).

## Shape of the argument

An entry is put behind the members or in the place of an earlier one (`Listed.concat`), and an index
is read entry by entry (`readMembers_listed`).  The bounds that are checked then are those that
reading a file relies on.
-/

namespace NovelScript

/-! ## Words and entries as octets -/

namespace Word

/-- The octets of a word that is taken are those in the input. -/
theorem octets16_join16 (a b : UInt8) : octets16 (join16 a b) = [a, b] := by
  have ha := a.toNat_lt
  have hb := b.toNat_lt
  have hword : (join16 a b).toNat = a.toNat + 256 * b.toNat := UInt16.toNat_ofNat_of_lt' (by
    show _ < 65536
    omega)
  simp only [octets16, hword, List.cons.injEq, and_true]
  refine ⟨?_, ?_⟩ <;> apply UInt8.toNat_inj.mp <;> rw [UInt8.toNat_ofNat'] <;> omega

/-- The octets of a word that is taken are those in the input. -/
theorem octets32_join32 (a b c d : UInt8) : octets32 (join32 a b c d) = [a, b, c, d] := by
  have ha := a.toNat_lt
  have hb := b.toNat_lt
  have hc := c.toNat_lt
  have hd := d.toNat_lt
  have hword : (join32 a b c d).toNat
      = a.toNat + 256 * b.toNat + 65536 * c.toNat + 16777216 * d.toNat :=
    UInt32.toNat_ofNat_of_lt' (by
      show _ < 4294967296
      omega)
  simp only [octets32, hword, List.cons.injEq, and_true]
  refine ⟨?_, ?_, ?_, ?_⟩ <;> apply UInt8.toNat_inj.mp <;> rw [UInt8.toNat_ofNat'] <;> omega

theorem take16_eq_some {input rest : Bytes} {w : UInt16} (h : take16 input = some (w, rest)) :
    input = octets16 w ++ rest := by
  unfold take16 at h
  split at h
  · obtain ⟨rfl, rfl⟩ := Prod.mk.inj (Option.some.inj h)
    rw [octets16_join16]
    rfl
  · cases h

theorem take32_eq_some {input rest : Bytes} {w : UInt32} (h : take32 input = some (w, rest)) :
    input = octets32 w ++ rest := by
  unfold take32 at h
  split at h
  · obtain ⟨rfl, rfl⟩ := Prod.mk.inj (Option.some.inj h)
    rw [octets32_join32]
    rfl
  · cases h

/-- Any four octets are a word. -/
theorem exists_octets32 (input : Bytes) (h : 4 ≤ input.length) :
    ∃ w rest, input = octets32 w ++ rest := by
  match input, h with
  | a :: b :: c :: d :: rest, _ => exact ⟨join32 a b c d, rest, by rw [octets32_join32]; rfl⟩

/-- A reader goes on behind a word. -/
theorem bind_take32_eq_some {α : Type} {next : UInt32 → Reader α} {input : Bytes} {r : α × Bytes}
    (h : (take32 >>= next) input = some r) :
    ∃ w rest, input = octets32 w ++ rest ∧ next w rest = some r := by
  obtain ⟨⟨w, rest⟩, htake, hnext⟩ := Option.bind_eq_some_iff.mp h
  exact ⟨w, rest, take32_eq_some htake, hnext⟩

theorem bind_take16_eq_some {α : Type} {next : UInt16 → Reader α} {input : Bytes} {r : α × Bytes}
    (h : (take16 >>= next) input = some r) :
    ∃ w rest, input = octets16 w ++ rest ∧ next w rest = some r := by
  obtain ⟨⟨w, rest⟩, htake, hnext⟩ := Option.bind_eq_some_iff.mp h
  exact ⟨w, rest, take16_eq_some htake, hnext⟩

end Word

/-- A header is read exactly if it stands in front of the file and its fields are in order. -/
theorem ArchiveHeader.read_eq_ok_iff {header : ArchiveHeader} {file : Bytes} :
    read file = .ok header ↔ header.write <+: file ∧ header.version = 0
      ∧ header.headerSize = 24 ∧ header.indexLength.toNat % entrySize = 0 := by
  refine ⟨fun h => ?_, fun ⟨hfront, hversion, hsize, hlength⟩ =>
    read_of_isPrefix hfront hversion hsize hlength⟩
  unfold read at h
  split at h
  · cases h
  next opening rest hopening =>
  obtain ⟨rfl, rfl⟩ : opening = file.take signature.length ∧ rest = file.drop signature.length := by
    unfold Word.takeOctets at hopening
    split at hopening
    · obtain ⟨rfl, rfl⟩ := Prod.mk.inj (Option.some.inj hopening)
      exact ⟨rfl, rfl⟩
    · cases hopening
  split at h
  · cases h
  next hsignature =>
  split at h
  · cases h
  next found rest hfields =>
  obtain ⟨version, rest₁, hversion, h₁⟩ := Word.bind_take16_eq_some hfields
  obtain ⟨headerSize, rest₂, hheaderSize, h₂⟩ := Word.bind_take32_eq_some h₁
  obtain ⟨unknown, rest₃, hunknown, h₃⟩ := Word.bind_take32_eq_some h₂
  obtain ⟨indexOffset, rest₄, hoffset, h₄⟩ := Word.bind_take32_eq_some h₃
  obtain ⟨indexLength, rest₅, hlength, h₅⟩ := Word.bind_take32_eq_some h₄
  obtain ⟨rfl, -⟩ := Prod.mk.inj (Option.some.inj h₅)
  split at h
  · cases h
  next hzero =>
  split at h
  · cases h
  next hsize =>
  split at h
  · cases h
  next hmod =>
  obtain rfl := Except.ok.inj h
  refine ⟨⟨rest₅, ?_⟩, not_not.mp hzero, not_not.mp hsize, not_not.mp hmod⟩
  rw [← List.take_append_drop signature.length file, hversion, hheaderSize, hunknown, hoffset,
    hlength, not_not.mp hsignature]
  simp only [write, List.append_assoc]

namespace IndexEntry

/-- Any 20 octets are an entry. -/
theorem exists_write (input : Bytes) (h : ArchiveHeader.entrySize ≤ input.length) :
    ∃ entry rest, input = write entry ++ rest := by
  simp only [ArchiveHeader.entrySize] at h
  obtain ⟨nameOffset, rest₁, rfl⟩ := Word.exists_octets32 input (by omega)
  simp only [List.length_append, Word.length_octets32] at h
  obtain ⟨nameLength, rest₂, rfl⟩ := Word.exists_octets32 rest₁ (by omega)
  simp only [List.length_append, Word.length_octets32] at h
  obtain ⟨dataOffset, rest₃, rfl⟩ := Word.exists_octets32 rest₂ (by omega)
  simp only [List.length_append, Word.length_octets32] at h
  obtain ⟨dataLength, rest₄, rfl⟩ := Word.exists_octets32 rest₃ (by omega)
  simp only [List.length_append, Word.length_octets32] at h
  obtain ⟨unknown, rest, rfl⟩ := Word.exists_octets32 rest₄ (by omega)
  refine ⟨{ nameOffset, nameLength, dataOffset, dataLength, unknown }, rest, ?_⟩
  simp only [write, List.append_assoc]

/-- The entries that are taken are those that stand in the input. -/
theorem flatMap_write_takeMany {n : Nat} {input : Bytes}
    (h : ArchiveHeader.entrySize * n ≤ input.length) :
    (takeMany n input).flatMap write = input.take (ArchiveHeader.entrySize * n) := by
  induction n generalizing input with
  | zero => rfl
  | succ n ih =>
    rw [Nat.mul_succ] at h ⊢
    obtain ⟨entry, rest, rfl⟩ := exists_write input (by omega)
    rw [List.length_append, length_write] at h
    rw [takeMany, take_write]
    dsimp only
    rw [List.flatMap_cons, ih (by omega), Nat.add_comm, ← length_write entry,
      List.take_length_add_append]

theorem length_flatMap_write (entries : List IndexEntry) :
    (entries.flatMap write).length = ArchiveHeader.entrySize * entries.length := by
  induction entries with
  | nil => rfl
  | cons entry rest ih =>
    rw [List.flatMap_cons, List.length_append, ih, length_write, List.length_cons, Nat.mul_succ,
      Nat.add_comm]

end IndexEntry

/-- A region inside the file is read. -/
theorem region_of_le {file : Bytes} {offset length : Nat} (h : offset + length ≤ file.length) :
    region file offset length = .ok ((file.drop offset).take length) := by
  have hlength : ((file.drop offset).take length).length = length := by
    rw [List.length_take, List.length_drop]
    omega
  simp only [region, hlength, if_true]

theorem take_of_region_eq_ok {file octets : Bytes} {offset length : Nat}
    (h : region file offset length = .ok octets) : (file.drop offset).take length = octets := by
  simp only [region] at h
  split at h
  · exact Except.ok.inj h
  · cases h

/-! ## What an index lists -/

namespace Archive

variable {encoding : Encoding} {file : Bytes} {entries : List IndexEntry} {entry : IndexEntry}
  {members read : List Member} {warnings : List ArchiveWarning} {header : ArchiveHeader}
  {name : String}

/-- The file has this header and an index of these entries inside it, all of which name places
inside the file. -/
structure Indexes (file : Bytes) (header : ArchiveHeader) (entries : List IndexEntry) : Prop where
  header_eq : ArchiveHeader.read file = .ok header
  inside : header.indexEnd ≤ file.length
  index : region file header.indexOffset.toNat header.indexLength.toNat
    = .ok (entries.flatMap IndexEntry.write)
  placed : ∀ entry ∈ entries, entry.nameEnd ≤ file.length ∧ entry.dataEnd ≤ file.length
    ∧ entry.nameLength ≠ 0

/-- The last entry that is read as this name. -/
def lastNamed (encoding : Encoding) (file : Bytes) (name : String) (entries : List IndexEntry) :
    Option IndexEntry :=
  entries.reverse.find? fun entry => nameOf encoding file entry == name

/-- The members are what the entries list: one for each name, where the name comes first, with the
last entry of the name and without handles. -/
structure Listed (encoding : Encoding) (file : Bytes) (entries : List IndexEntry)
    (members : List Member) : Prop where
  unique : (members.map (·.name)).Nodup
  names : members.map (·.name) = (entries.map (nameOf encoding file)).eraseDups
  last : ∀ m ∈ members, ∃ entry, lastNamed encoding file m.name entries = some entry
    ∧ m = { name := m.name, residence := .stored entry }

theorem isOutside_eq_false_iff :
    isOutside file.length entry = false ↔ entry.nameEnd ≤ file.length
      ∧ entry.dataEnd ≤ file.length ∧ entry.nameLength ≠ 0 := by
  simp [isOutside, and_assoc]

theorem lastNamed_concat :
    lastNamed encoding file name (entries ++ [entry])
      = if nameOf encoding file entry = name then some entry
        else lastNamed encoding file name entries := by
  rw [lastNamed, List.reverse_concat, List.find?_cons]
  by_cases hname : nameOf encoding file entry = name
  · rw [if_pos hname, beq_iff_eq.mpr hname]
  · rw [if_neg hname, beq_false_of_ne hname, lastNamed]

theorem mem_of_lastNamed (h : lastNamed encoding file name entries = some entry) :
    entry ∈ entries :=
  List.mem_reverse.mp (List.mem_of_find?_eq_some h)

theorem listed_nil : Listed encoding file [] [] := ⟨List.nodup_nil, rfl, by simp⟩

/-- A name that comes again keeps its place and gets the entry. -/
theorem Listed.replace (h : Listed encoding file entries members)
    (hlisted : ∃ m ∈ members, m.name = nameOf encoding file entry) :
    Listed encoding file (entries ++ [entry])
      (Member.change (nameOf encoding file entry) (fun m => { m with residence := .stored entry })
        members) where
  unique := by
    rw [Member.map_name_change (f := fun m => { m with residence := .stored entry }) fun _ => rfl]
    exact h.unique
  names := by
    rw [Member.map_name_change (f := fun m => { m with residence := .stored entry }) fun _ => rfl,
      h.names, List.map_append, List.eraseDups_append]
    obtain ⟨m, hm, hname⟩ := hlisted
    have hmem : nameOf encoding file entry ∈ entries.map (nameOf encoding file) := by
      rw [← List.mem_eraseDups, ← h.names, ← hname]
      exact List.mem_map_of_mem hm
    simp [List.removeAll, List.mem_map.mp hmem]
  last := by
    intro m hm
    rw [lastNamed_concat]
    rcases (Member.mem_change_iff h.unique).mp hm with ⟨hm, hne⟩ | ⟨o, ho, hname, rfl⟩
    · rw [if_neg fun heq => hne heq.symm]
      exact h.last m hm
    · obtain ⟨old, -, ho⟩ := h.last o ho
      rw [if_pos hname.symm]
      refine ⟨entry, rfl, ?_⟩
      rw [ho]

/-- A name that comes first goes behind the others. -/
theorem Listed.concat (h : Listed encoding file entries members)
    (hnew : ∀ m ∈ members, m.name ≠ nameOf encoding file entry) :
    Listed encoding file (entries ++ [entry])
      (members ++ [{ name := nameOf encoding file entry, residence := .stored entry }]) where
  unique := by
    rw [List.map_append, List.nodup_append]
    refine ⟨h.unique, by simp, fun a ha b hb => ?_⟩
    obtain ⟨m, hm, rfl⟩ := List.mem_map.mp ha
    obtain rfl := List.mem_singleton.mp hb
    exact hnew m hm
  names := by
    have hmem : nameOf encoding file entry ∉ entries.map (nameOf encoding file) := by
      rw [← List.mem_eraseDups, ← h.names]
      intro hmem
      obtain ⟨m, hm, hname⟩ := List.mem_map.mp hmem
      exact hnew m hm hname
    have hkept : [nameOf encoding file entry].removeAll (entries.map (nameOf encoding file))
        = [nameOf encoding file entry] := by
      rw [List.removeAll, List.filter_cons_of_pos, List.filter_nil]
      simpa using hmem
    rw [List.map_append, List.map_append, List.eraseDups_append, h.names, List.map_singleton,
      List.map_singleton, hkept]
    rfl
  last := by
    intro m hm
    rw [lastNamed_concat]
    rcases List.mem_append.mp hm with hm | hm
    · rw [if_neg fun heq => hnew m hm heq.symm]
      exact h.last m hm
    · obtain rfl := List.mem_singleton.mp hm
      exact ⟨entry, if_pos rfl, rfl⟩

/-- Reading goes through the index entry by entry. -/
theorem readMembers_listed {before : List IndexEntry} (h : Listed encoding file before members)
    (hread : (readMembers encoding file members warnings entries).result = .ok read) :
    Listed encoding file (before ++ entries) read
      ∧ ∀ entry ∈ entries, isOutside file.length entry = false := by
  induction entries generalizing before members warnings with
  | nil =>
    obtain rfl := Except.ok.inj hread
    rw [List.append_nil]
    exact ⟨h, by simp⟩
  | cons entry rest ih =>
    rw [readMembers] at hread
    split at hread
    · cases hread
    next hinside =>
    have hentry : isOutside file.length entry = false := by simpa using hinside
    have hstep : ∀ {members' warnings'}, Listed encoding file (before ++ [entry]) members' →
        (readMembers encoding file members' warnings' rest).result = .ok read →
        Listed encoding file (before ++ entry :: rest) read
          ∧ ∀ other ∈ entry :: rest, isOutside file.length other = false := by
      intro members' warnings' hlisted hread'
      obtain ⟨hall, hrest⟩ := ih hlisted hread'
      rw [List.append_assoc] at hall
      exact ⟨hall, List.forall_mem_cons.mpr ⟨hentry, hrest⟩⟩
    dsimp only at hread
    split at hread
    · next hlisted => exact hstep (h.replace (by simpa using hlisted)) hread
    · next hnew => exact hstep (h.concat (by simpa using hnew)) hread

/-- What is read from an index is what it lists. -/
theorem listed_of_readIndex
    (hread : (readIndex encoding file).result = .ok (header, members)) :
    ∃ entries, Indexes file header entries ∧ Listed encoding file entries members := by
  rw [readIndex] at hread
  split at hread
  · cases hread
  next found hheader =>
  split at hread
  · cases hread
  next hend =>
  have hend : found.indexEnd ≤ file.length := Nat.not_lt.mp hend
  dsimp only at hread
  generalize hentries : IndexEntry.takeMany found.entryCount (file.drop found.indexOffset.toNat)
    = entries at hread
  cases hmembers : (readMembers encoding file [] [] entries).result with
  | error e =>
    rw [hmembers] at hread
    cases hread
  | ok listed =>
    rw [hmembers] at hread
    obtain ⟨rfl, rfl⟩ := Prod.mk.inj (Except.ok.inj hread)
    obtain ⟨hlisted, hinside⟩ := readMembers_listed listed_nil hmembers
    refine ⟨entries, ⟨hheader, hend, ?_, fun entry hentry => ?_⟩, hlisted⟩
    · -- the length of the index is a multiple of the size of an entry
      have hlength : ArchiveHeader.entrySize * found.entryCount = found.indexLength.toNat :=
        Nat.mul_div_cancel'
          (Nat.dvd_of_mod_eq_zero (ArchiveHeader.read_eq_ok_iff.mp hheader).2.2.2)
      have hroom : found.indexLength.toNat ≤ (file.drop found.indexOffset.toNat).length := by
        rw [List.length_drop]
        exact Nat.le_sub_of_add_le (by rwa [Nat.add_comm])
      rw [← hentries, IndexEntry.flatMap_write_takeMany (by rwa [hlength]), hlength]
      exact region_of_le hend
    · exact isOutside_eq_false_iff.mp (hinside entry hentry)

/-- A file that indexes its files is read. -/
theorem Indexes.exists_readIndex (h : Indexes file header entries) (encoding : Encoding) :
    ∃ members, (readIndex encoding file).result = .ok (header, members) := by
  have hlength : ArchiveHeader.entrySize * entries.length = header.indexLength.toNat := by
    rw [← IndexEntry.length_flatMap_write]
    exact (region_eq_ok_iff.mp h.index).1
  have hcount : header.entryCount = entries.length := by
    rw [ArchiveHeader.entryCount, ← hlength]
    exact Nat.mul_div_cancel_left _ (by decide)
  have hdrop : file.drop header.indexOffset.toNat = entries.flatMap IndexEntry.write
      ++ (file.drop header.indexOffset.toNat).drop header.indexLength.toNat := by
    rw [← take_of_region_eq_ok h.index, List.take_append_drop]
  have htake : IndexEntry.takeMany header.entryCount (file.drop header.indexOffset.toNat)
      = entries := by
    rw [hcount, hdrop]
    exact IndexEntry.takeMany_flatMap_write _ _
  obtain ⟨members, hmembers⟩ := exists_readMembers encoding [] [] fun entry hentry =>
    isOutside_eq_false_iff.mpr (h.placed entry hentry)
  refine ⟨members, ?_⟩
  rw [readIndex, h.header_eq]
  dsimp only
  rw [if_neg (Nat.not_lt.mpr h.inside)]
  dsimp only
  rw [htake, hmembers]
  rfl

/-- What an index lists are files without handles. -/
theorem Listed.files_eq (h : Listed encoding file entries members) :
    members.filter (!·.isCreated) = members := by
  refine List.filter_eq_self.mpr fun m hm => ?_
  obtain ⟨entry, -, heq⟩ := h.last m hm
  rw [heq]
  rfl

/-- A listed file is read where its entry says. -/
theorem Listed.readAll (h : Listed encoding file entries members)
    (hindexes : Indexes file header entries) (archive : Archive)
    (hmembers : archive.members = members) {m : Member} (hm : m ∈ members) :
    ∃ entry contents, lastNamed encoding file m.name entries = some entry
      ∧ region file entry.dataOffset.toNat entry.dataLength.toNat = .ok contents
      ∧ archive.readAll file m.name = .ok contents := by
  obtain ⟨entry, hlast, heq⟩ := h.last m hm
  have hend := (hindexes.placed entry (mem_of_lastNamed hlast)).2.1
  have hcreated : m.isCreated = false := by rw [heq]; rfl
  have hwriter : m.writer = false := by rw [heq]
  have hcontents : m.contents file
      = region file entry.dataOffset.toNat entry.dataLength.toNat := by rw [heq]; rfl
  refine ⟨entry, _, hlast, region_of_le hend, ?_⟩
  rw [readAll_of_mem (hmembers ▸ h.unique) (hmembers ▸ hm) hcreated hwriter, hcontents,
    region_of_le hend]

end Archive

/-! ## Opening an archive -/

/-- The session has the file open as these entries say.  Its files are the names of the entries in
the order in which they come first, and each of them is read as the octets that the last entry of
its name locates. -/
structure Session.Reads (session : Session) (mode : SaveMode) (file : Bytes)
    (entries : List IndexEntry) (archive : Archive) : Prop where
  archive_eq : session.archive = some archive
  file_eq : session.file = some file
  mode_eq : archive.mode = mode
  unique : (archive.files.map (·.name)).Nodup
  names : archive.files.map (·.name)
    = (entries.map (Archive.nameOf session.encoding file)).eraseDups
  readAll : ∀ name ∈ archive.files.map (·.name), ∃ entry contents,
    Archive.lastNamed session.encoding file name entries = some entry
    ∧ region file entry.dataOffset.toNat entry.dataLength.toNat = .ok contents
    ∧ Idles (Work.on (Change.readAll name)) session (.ok contents)

namespace Work

variable {session : Session} {file : Bytes}

/-- Leaving an archive, if one is open, writes nothing. -/
theorem leaveAny_spec (hfile : session.file = some file) :
    Ends leaveAny session
      (fun _ after => after.encoding = session.encoding ∧ after.file = some file
        ∧ after.archive = none) noFailure := by
  simp only [leaveAny, ends_bind, ends_get]
  split
  · next hopen =>
    refine (leave_spec hopen hfile).imp ?_
    rintro _ _ ⟨hencoding, hfile, hclosed, -⟩
    exact ⟨hencoding, hfile, hclosed⟩
  · next hclosed => exact ⟨rfl, hfile, by simpa using hclosed⟩

/-- **Any file is opened or refused.**  A file is opened exactly if it indexes its files, in
whatever places these are; otherwise opening it fails and leaves it as it is. -/
theorem openArchive_reads (mode : SaveMode) (hfile : session.file = some file) :
    Ends (openArchive mode) session
      (fun _ after => ∃ entries archive, Archive.Indexes file archive.header entries
        ∧ after.encoding = session.encoding ∧ after.Reads mode file entries archive)
      fun _ after => after.archive = none ∧ after.file = some file
        ∧ ∀ header entries, ¬ Archive.Indexes file header entries := by
  simp only [openArchive, load, ends_bind, ends_get, ends_modify]
  refine (leaveAny_spec hfile).mono ?_ fun _ _ => False.elim
  rintro _ closed ⟨hencoding, hfile, hclosed⟩
  simp only [hfile, ends_bind, ends_modify, ofArchive, ends_mk, Archive.load]
  cases hindex : (Archive.readIndex closed.encoding file).result with
  | error e =>
    refine ⟨fun _ hok => (by cases hok), fun _ _ => ⟨hclosed, trivial, ?_⟩⟩
    intro header entries h
    obtain ⟨members, hmembers⟩ := h.exists_readIndex closed.encoding
    rw [hindex] at hmembers
    cases hmembers
  | ok found =>
    obtain ⟨header, members⟩ := found
    refine ⟨fun archive hok => ?_, fun _ he => (by cases he)⟩
    obtain rfl := Except.ok.inj hok
    obtain ⟨entries, hindexes, hlisted⟩ := Archive.listed_of_readIndex hindex
    refine ⟨entries, _, hindexes, hencoding, rfl, rfl, rfl, ?_, ?_, ?_⟩
    · simp only [Archive.files, hlisted.files_eq]
      exact hlisted.unique
    · simp only [Archive.files, hlisted.files_eq]
      exact hlisted.names
    · intro name hname
      simp only [Archive.files, hlisted.files_eq] at hname
      obtain ⟨m, hm, rfl⟩ := List.mem_map.mp hname
      obtain ⟨entry, contents, hlast, hregion, hread⟩ := hlisted.readAll hindexes
        { path := closed.path, mode, encoding := closed.encoding, header, members } rfl hm
      refine ⟨entry, contents, hlast, hregion, ?_⟩
      refine on_idles (r := .ok contents) rfl rfl ?_
      rw [← hread]
      rfl

end Work

/-- A file that lists one name twice, and contents that share octets with each other and with the
header. -/
def Archive.crowded : Bytes :=
  ArchiveHeader.write { indexOffset := 28, indexLength := 60 } ++ [97, 0, 98, 0]
    ++ [⟨24, 2, 0, 6, 0⟩, ⟨26, 2, 2, 6, 0⟩, ⟨24, 2, 24, 4, 0⟩].flatMap IndexEntry.write

/-- Such a file is opened, and its first name is read as the last entry says. -/
theorem Work.openArchive_reads_crowded : ∃ (after : Session) (entries : List IndexEntry)
    (archive : Archive), Archive.Indexes Archive.crowded archive.header entries
      ∧ after.Reads .immediate Archive.crowded entries archive
      ∧ after.archive.map (fun archive => archive.files.map (·.name)) = some ["a", "b"]
      ∧ ((Work.on (Change.readAll "a")).answer after).toOption = some [97, 0, 98, 0] := by
  let before : Session := { path := "data.ykc", encoding := .utf8, file := some Archive.crowded }
  have hfile : before.file = some Archive.crowded := rfl
  have hok : ((openArchive .immediate).answer before).isOk = true := by decide +kernel
  obtain ⟨_, hrun⟩ := exists_of_isOk hok
  obtain ⟨entries, archive, hindexes, -, hreads⟩ :=
    ((openArchive_reads .immediate hfile).of_run (Prod.ext hrun rfl)).1 () rfl
  exact ⟨_, entries, archive, hindexes, hreads, by decide +kernel, by decide +kernel⟩

end NovelScript
