import NovelScript.Archive.Packing
import NovelScript.Proofs.Archive.Layout

/-!
# Reading an archive again

A file whose index lists members in their places is read as an archive of just these members, in
order and without handles (`Archive.readIndex_of_listed`).  The entry of an empty file may name a
place behind the end, which is the only way in which such a file is refused
(`Archive.readIndex_of_outside`).
-/

namespace NovelScript

/-- A header in front of a file is read back. -/
theorem ArchiveHeader.read_of_isPrefix {header : ArchiveHeader} {file : Bytes}
    (hfront : header.write <+: file) (hversion : header.version = 0)
    (hsize : header.headerSize = 24) (hlength : header.indexLength.toNat % entrySize = 0) :
    read file = .ok header := by
  obtain ⟨rest, rfl⟩ := hfront
  have hopening : (header.write ++ rest).take signature.length = signature := by
    simp only [write, List.append_assoc, List.take_left]
  have htake : Word.takeOctets signature.length (header.write ++ rest)
      = some (signature, (header.write ++ rest).drop signature.length) := by
    rw [Word.takeOctets, if_pos, hopening]
    rw [List.length_append, length_write]
    exact Nat.le_trans (by decide) (Nat.le_add_right size _)
  simp only [read, htake, fields_write, hversion, hsize, hlength, ne_eq, not_true_eq_false,
    if_false]

namespace IndexEntry

variable {entry : IndexEntry} {encoding : Encoding} {file octets : Bytes} {name : String}

theorem storedName_eq_ok_iff :
    Change.storedName encoding name = .ok octets ↔ encoding.encodeTerminated name = .ok octets := by
  unfold Change.storedName
  cases encoding.encodeTerminated name <;> constructor <;> intro h <;> cases h
  · rfl
  · rfl

/-- The name that an entry locates is read from the file. -/
theorem Locates.nameOf (h : entry.Locates encoding file name octets)
    (hsurvives : encoding.Survives name) : Archive.nameOf encoding file entry = name := by
  obtain ⟨stored, hstored, hregion⟩ := h.name
  have htake : (file.drop entry.nameOffset.toNat).take entry.nameLength.toNat = stored := by
    simp only [region] at hregion
    split at hregion
    · exact Except.ok.inj hregion
    · cases hregion
  rw [Archive.nameOf, htake]
  simpa using hsurvives.decodeTerminated (storedName_eq_ok_iff.mp hstored) []

/-- A name takes at least its terminator. -/
theorem Locates.nameLength_pos (h : entry.Locates encoding file name octets) :
    0 < entry.nameLength.toNat := by
  obtain ⟨stored, hstored, hregion⟩ := h.name
  have hmem : 0 ∈ stored :=
    Encoding.zero_mem_of_encodeTerminated (storedName_eq_ok_iff.mp hstored)
  rw [← (region_eq_ok_iff.mp hregion).1]
  exact List.length_pos_of_mem hmem

/-- An entry that locates a file is refused only for the end of its contents. -/
theorem Locates.isOutside_eq (h : entry.Locates encoding file name octets) :
    Archive.isOutside file.length entry = decide (file.length < entry.dataEnd) := by
  have hpos := h.nameLength_pos
  obtain ⟨stored, -, hregion⟩ := h.name
  have hle : ¬ file.length < entry.nameEnd := Nat.not_lt.mpr (le_of_region_eq_ok hregion hpos)
  have hne : entry.nameLength ≠ 0 := by
    intro hzero
    rw [hzero] at hpos
    exact absurd hpos (by decide)
  simp [Archive.isOutside, hle, hne]

end IndexEntry

/-- The member as it is read from an index: without handles. -/
def Member.fresh (m : Member) : Member := { name := m.name, residence := m.residence }

/-- The members are in the file, under names that are read back. -/
def Located (encoding : Encoding) (file : Bytes) (members : List Member) : Prop :=
  ∀ m ∈ members, encoding.Survives m.name ∧ m.residence = .stored m.entry
    ∧ ∃ octets, m.entry.Locates encoding file m.name octets

namespace Archive

variable {encoding : Encoding} {file : Bytes} {members listed : List Member}
  {warnings : List ArchiveWarning} {header : ArchiveHeader}

/-- The entries of members in their places are read as these members. -/
theorem readMembers_of_located (hlocated : Located encoding file members)
    (hinside : ∀ m ∈ members, m.entry.dataEnd ≤ file.length)
    (hunique : ((listed ++ members).map (·.name)).Nodup) :
    readMembers encoding file listed warnings (members.map Member.entry)
      = { result := .ok (listed ++ members.map Member.fresh), warnings } := by
  induction members generalizing listed with
  | nil => simp [readMembers]
  | cons m rest ih =>
    obtain ⟨⟨hsurvives, hstored, octets, hlocates⟩, hrest⟩ := List.forall_mem_cons.mp hlocated
    obtain ⟨hdata, hinside⟩ := List.forall_mem_cons.mp hinside
    -- names are unique, so no entry is dropped as a duplicate
    have hnew : listed.any (·.name == m.name) = false := by
      rw [List.map_append, List.nodup_append] at hunique
      have hne := hunique.2.2
      simp only [List.any_eq_false, beq_iff_eq]
      intro o ho
      exact hne o.name (List.mem_map_of_mem ho) m.name (by simp)
    have hunique' : (((listed ++ [m.fresh]) ++ rest).map (·.name)).Nodup := by
      simpa [Member.fresh] using hunique
    rw [List.map_cons, readMembers, hlocates.isOutside_eq, if_neg (by simpa using hdata)]
    simp only [hlocates.nameOf hsurvives, hnew, Bool.false_eq_true, if_false, ← hstored]
    rw [← Member.fresh, ih hrest hinside hunique', List.append_assoc, List.map_cons]
    rfl

/-- An entry that points outside the file is refused. -/
theorem readMembers_of_isOutside {entries : List IndexEntry}
    (h : ∃ entry ∈ entries, isOutside file.length entry = true) :
    ∃ offset, (readMembers encoding file listed warnings entries).result
      = .error (.corrupt (.entryOutside offset)) := by
  induction entries generalizing listed warnings with
  | nil => simp at h
  | cons entry rest ih =>
    by_cases hentry : isOutside file.length entry = true
    · exact ⟨entry.nameOffset, by rw [readMembers, if_pos hentry]⟩
    · have hrest : ∃ entry ∈ rest, isOutside file.length entry = true := by
        obtain ⟨found, hfound, houtside⟩ := h
        rcases List.mem_cons.mp hfound with rfl | hfound
        · exact absurd houtside hentry
        · exact ⟨found, hfound, houtside⟩
      -- a duplicate is skipped with a warning, any other entry is listed
      rw [readMembers, if_neg hentry]
      dsimp only
      split
      · exact ih hrest
      · exact ih hrest

theorem length_flatMap_entry (members : List Member) :
    (members.flatMap fun m => m.entry.write).length = ArchiveHeader.entrySize * members.length := by
  induction members with
  | nil => rfl
  | cons m rest ih => simp [List.flatMap_cons, ih, Nat.mul_succ, Nat.add_comm]

/-- Header and index are read before the members are. -/
theorem readIndex_eq (hheader : header.write <+: file) (hversion : header.version = 0)
    (hsize : header.headerSize = 24) (hend : header.indexEnd ≤ file.length)
    (hindex : region file header.indexOffset.toNat header.indexLength.toNat
      = .ok (members.flatMap fun m => m.entry.write)) :
    readIndex encoding file =
      { result := (readMembers encoding file [] [] (members.map Member.entry)).result.map
          fun members => (header, members)
        warnings := (readMembers encoding file [] [] (members.map Member.entry)).warnings } := by
  have hlength : ArchiveHeader.entrySize * members.length = header.indexLength.toNat := by
    rw [← length_flatMap_entry]
    exact (region_eq_ok_iff.mp hindex).1
  -- the length of the index gives the number of its entries
  have hcount : header.entryCount = members.length := by
    rw [ArchiveHeader.entryCount, ← hlength]
    exact Nat.mul_div_cancel_left _ (by decide)
  have hdrop : file.drop header.indexOffset.toNat
      = (members.map Member.entry).flatMap IndexEntry.write
        ++ (file.drop header.indexOffset.toNat).drop header.indexLength.toNat := by
    simp only [region] at hindex
    split at hindex
    · rw [List.flatMap_map, ← Except.ok.inj hindex, List.take_append_drop]
    · cases hindex
  have htake : IndexEntry.takeMany header.entryCount (file.drop header.indexOffset.toNat)
      = members.map Member.entry := by
    rw [hcount, hdrop, ← List.length_map (f := Member.entry)]
    exact IndexEntry.takeMany_flatMap_write _ _
  rw [readIndex, ArchiveHeader.read_of_isPrefix hheader hversion hsize
    (by rw [← hlength, Nat.mul_mod_right])]
  simp only [if_neg (Nat.not_lt.mpr hend), htake]

/-- A file that lists members in their places is read as an archive of these members. -/
theorem readIndex_of_listed (hheader : header.write <+: file) (hversion : header.version = 0)
    (hsize : header.headerSize = 24) (hend : header.indexEnd ≤ file.length)
    (hindex : region file header.indexOffset.toNat header.indexLength.toNat
      = .ok (members.flatMap fun m => m.entry.write))
    (hlocated : Located encoding file members) (hunique : (members.map (·.name)).Nodup)
    (hinside : ∀ m ∈ members, m.entry.dataEnd ≤ file.length) :
    readIndex encoding file = { result := .ok (header, members.map Member.fresh) } := by
  rw [readIndex_eq hheader hversion hsize hend hindex,
    readMembers_of_located hlocated hinside (by simpa using hunique)]
  rfl

/-- A file that lists a member behind its end is refused. -/
theorem readIndex_of_outside (hheader : header.write <+: file) (hversion : header.version = 0)
    (hsize : header.headerSize = 24) (hend : header.indexEnd ≤ file.length)
    (hindex : region file header.indexOffset.toNat header.indexLength.toNat
      = .ok (members.flatMap fun m => m.entry.write))
    (hlocated : Located encoding file members)
    (houtside : ∃ m ∈ members, file.length < m.entry.dataEnd) :
    ∃ offset, (readIndex encoding file).result = .error (.corrupt (.entryOutside offset)) := by
  obtain ⟨m, hm, hlt⟩ := houtside
  obtain ⟨-, -, octets, hlocates⟩ := hlocated m hm
  have hentry : isOutside file.length m.entry = true := by
    rw [hlocates.isOutside_eq]
    exact decide_eq_true hlt
  have hrefused : ∃ offset, (readMembers encoding file [] [] (members.map Member.entry)).result
      = .error (.corrupt (.entryOutside offset)) :=
    readMembers_of_isOutside ⟨m.entry, List.mem_map_of_mem hm, hentry⟩
  obtain ⟨offset, hresult⟩ := hrefused
  refine ⟨offset, ?_⟩
  rw [readIndex_eq hheader hversion hsize hend hindex, hresult]
  rfl

end Archive
end NovelScript
