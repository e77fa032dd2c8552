import NovelScript.Proofs.Archive.Repacking

/-!
# Saving, listing and packing keep an archive intact

Every step of an open archive leaves it intact for the catalog that the step is meant to give, or
for the old one if it fails.  Only the size of the file is left open: its offsets are words of 32
bits, so the file has to stay below 4 GiB (`Fits`).
-/

namespace NovelScript

/-- Every place in the file has an offset of 32 bits. -/
def Fits (file : Bytes) : Prop := file.length < UInt32.size

/-! ## Listing a member under another place -/

namespace Archive

variable {archive archive' : Archive} {m : Member}

/-- The archive with a member that is in the file under another place for its name. -/
def relisted (archive : Archive) (m : Member) (nameOffset : UInt32) (stored : Bytes) : Archive :=
  let entry := { m.entry with nameOffset, nameLength := .ofNat stored.length }
  { archive with members := Member.change m.name (Member.relist entry) archive.members }

/-- Only the place of the name of a member may have changed. -/
def Relisted (archive : Archive) (m : Member) (archive' : Archive) : Prop :=
  archive' = archive ∨ ∃ nameOffset stored, archive' = archive.relisted m nameOffset stored

theorem Relisted.refl (archive : Archive) (m : Member) : archive.Relisted m archive := .inl rfl

theorem relisted_relisted (archive : Archive) (m : Member) (nameOffset : UInt32) (stored : Bytes) :
    archive.Relisted m (archive.relisted m nameOffset stored) := .inr ⟨nameOffset, stored, rfl⟩

theorem Relisted.mode_eq (h : archive.Relisted m archive') : archive'.mode = archive.mode := by
  rcases h with rfl | ⟨_, _, rfl⟩ <;> rfl

theorem Relisted.encoding_eq (h : archive.Relisted m archive') :
    archive'.encoding = archive.encoding := by
  rcases h with rfl | ⟨_, _, rfl⟩ <;> rfl

/-- Neither the standing of a member nor its order among the others has to do with its place. -/
theorem Relisted.map_bearing (h : archive.Relisted m archive') :
    archive'.members.map Member.bearing = archive.members.map Member.bearing := by
  rcases h with rfl | ⟨_, _, rfl⟩
  · rfl
  · exact Member.map_change (Member.bearing_relist _)

/-- Once the member is saved, the entry it had before is of no account. -/
theorem Relisted.saved_eq (h : archive.Relisted m archive') (residence : Residence) :
    { archive' with
        members := Member.change m.name (fun o => { o with residence }) archive'.members
        dirty := true }
      = { archive with
        members := Member.change m.name (fun o => { o with residence }) archive.members
        dirty := true } := by
  rcases h with rfl | ⟨_, _, rfl⟩
  · rfl
  · simp only [relisted, Member.change_change (Member.name_relist _), Member.residence_relist]

/-- A member is found under its name wherever that stands. -/
theorem Relisted.find? {o : Member} (h : archive.Relisted m archive')
    (hfind : archive.find? m.name = some o) :
    ∃ o', archive'.find? m.name = some o' ∧ o'.bearing = o.bearing := by
  rcases h with rfl | ⟨_, _, rfl⟩
  · exact ⟨o, hfind, rfl⟩
  · exact ⟨_, Member.find?_change (Member.name_relist _) hfind, Member.bearing_relist _ o⟩

/-- The place of its name is all that a member changes. -/
theorem map_gist_relisted {o : Member} (hfind : archive.find? m.name = some o)
    (hcore : m.core = o.core) (nameOffset : UInt32) (stored : Bytes) :
    (archive.relisted m nameOffset stored).members.map Member.gist
      = archive.members.map Member.gist := by
  have hentry := Member.entry_of_core_eq hcore
  refine Member.map_change_of_find? hfind (Member.gist_relist ?_ ?_ ?_)
  all_goals simp only [hentry]

theorem Relisted.eraseP (h : archive.Relisted m archive') :
    archive'.members.eraseP (·.name == m.name) = archive.members.eraseP (·.name == m.name) := by
  rcases h with rfl | ⟨_, _, rfl⟩
  · rfl
  · exact Member.eraseP_change (Member.name_relist _)

end Archive

namespace Change

variable {mode : SaveMode} {encoding : Encoding} {catalog : Catalog} {store : Store}
  {octets : Bytes} {entry : IndexEntry} {name : String} {m member : Member}

/-! ## Writing behind the end -/

theorem fit_eq_ok_iff {n : Nat} {offset : UInt32} :
    fit n = .ok offset ↔ n < UInt32.size ∧ offset = .ofNat n := by
  unfold fit
  split
  · next h => simp [h, UInt32.size, eq_comm]
  · next h => simp [h, UInt32.size]

theorem append_spec (octets : Bytes) (store : Store) :
    Ends (append octets) store
      (fun offset store' => offset.toNat = store.file.length
        ∧ store.file.length + octets.length < UInt32.size
        ∧ store' = { store with file := store.file ++ octets })
      fun _ store' => store' = store := by
  simp only [append, ends_bind, ends_get, ends_discard, of, ends_mk, setFile, ends_modify]
  refine ⟨fun offset hfit => ⟨fun offset' hfit' => ?_, fun e he => ?_⟩, fun _ _ => trivial⟩
  · obtain ⟨hsize, -⟩ := fit_eq_ok_iff.mp hfit
    obtain ⟨hlt, rfl⟩ := fit_eq_ok_iff.mp hfit'
    exact ⟨UInt32.toNat_ofNat_of_lt' hlt, hsize, trivial⟩
  · obtain ⟨hsize, -⟩ := fit_eq_ok_iff.mp hfit
    have hfits : fit store.file.length = .ok (.ofNat store.file.length) :=
      fit_eq_ok_iff.mpr ⟨by omega, rfl⟩
    rw [hfits] at he
    cases he

theorem appendName_spec (name : String) (entry : IndexEntry) (store : Store) :
    Ends (appendName name entry) store
      (fun entry' store' => ∃ stored offset, storedName store.archive.encoding name = .ok stored
        ∧ offset.toNat = store.file.length ∧ store.file.length + stored.length < UInt32.size
        ∧ entry' = { entry with nameOffset := offset, nameLength := .ofNat stored.length }
        ∧ store' = { store with file := store.file ++ stored })
      fun _ store' => store' = store := by
  simp only [appendName, ends_bind, ends_get, of, ends_mk, ends_pure]
  refine ⟨fun stored hstored => (append_spec stored store).imp ?_, fun _ _ => trivial⟩
  rintro offset store' ⟨hoffset, hsize, rfl⟩
  exact ⟨stored, offset, hstored, hoffset, hsize, rfl, rfl⟩

theorem saveBehind_spec (octets : Bytes) (entry : IndexEntry) (store : Store) :
    Ends (saveBehind octets entry) store
      (fun residence store' => ∃ offset, offset.toNat = store.file.length
        ∧ store.file.length + octets.length < UInt32.size
        ∧ residence = .stored { entry with
            dataOffset := offset
            dataLength := .ofNat octets.length }
        ∧ store' = { store with file := store.file ++ octets })
      fun _ store' => store' = store := by
  simp only [saveBehind, ends_bind, ends_pure]
  refine (append_spec octets store).imp ?_
  rintro offset store' ⟨hoffset, hsize, rfl⟩
  exact ⟨offset, hoffset, hsize, rfl, rfl⟩

/-- A member that is saved anew has its name behind the end, its contents behind that, and is listed
under both places.  Where there is no room for the contents, it is listed under the first alone. -/
theorem saveAnew_spec (octets : Bytes) (store : Store) :
    Ends (saveAnew member octets) store
      (fun residence store' => ∃ stored nameOffset dataOffset,
        storedName store.archive.encoding member.name = .ok stored
        ∧ nameOffset.toNat = store.file.length
        ∧ dataOffset.toNat = (store.file ++ stored).length
        ∧ (store.file ++ stored).length + octets.length < UInt32.size
        ∧ residence = .stored { member.entry with
            nameOffset, dataOffset
            nameLength := .ofNat stored.length
            dataLength := .ofNat octets.length }
        ∧ store' = { store with
            file := store.file ++ stored ++ octets
            archive := store.archive.relisted member nameOffset stored })
      fun _ store' => store' = store ∨ ∃ stored nameOffset,
        storedName store.archive.encoding member.name = .ok stored
        ∧ nameOffset.toNat = store.file.length
        ∧ store.file.length + stored.length < UInt32.size
        ∧ store' = { store with
            file := store.file ++ stored
            archive := store.archive.relisted member nameOffset stored } := by
  simp only [saveAnew, updateMember, update, ends_bind, ends_modify]
  refine (appendName_spec member.name member.entry store).mono ?_ fun _ _ => .inl
  rintro _ _ ⟨stored, nameOffset, hstored, hname, hsize, rfl, rfl⟩
  refine (saveBehind_spec octets _ _).mono ?_ fun _ _ he => .inr ?_
  · rintro _ _ ⟨dataOffset, hdata, hfits, rfl, rfl⟩
    exact ⟨stored, nameOffset, dataOffset, hstored, hname, hdata, hfits, rfl, rfl⟩
  · exact ⟨stored, nameOffset, hstored, hname, hsize, he⟩

/-! ## Where contents are saved -/

/-- Name and contents behind the end are a place for any member. -/
theorem savedAs_named {file stored : Bytes} {nameOffset dataOffset : UInt32}
    (hstored : storedName encoding m.name = .ok stored) (hsize : ArchiveHeader.size ≤ file.length)
    (hname : nameOffset.toNat = file.length) (hdata : dataOffset.toNat = (file ++ stored).length)
    (hfits : (file ++ stored).length + octets.length < UInt32.size) :
    m.SavedAs (.stored { entry with
        nameOffset, dataOffset
        nameLength := .ofNat stored.length
        dataLength := .ofNat octets.length })
      encoding (file ++ stored ++ octets) octets file.length := by
  rw [List.length_append] at hdata hfits
  have hnameLength : (UInt32.ofNat stored.length).toNat = stored.length :=
    UInt32.toNat_ofNat_of_lt' (by omega)
  have hdataLength : (UInt32.ofNat octets.length).toNat = octets.length :=
    UInt32.toNat_ofNat_of_lt' (by omega)
  refine ⟨fun catalog hcatalog => ⟨octets, hcatalog, ⟨⟨stored, hstored, ?_⟩, ?_, ?_, .inl ?_⟩⟩,
    .inl (.inr ?_), .inl (.inr ?_), ?_⟩
  · exact region_append_append _ _ hname hnameLength
  · exact region_append _ (by rw [hdata, List.length_append]) hdataLength
  · show ArchiveHeader.size ≤ nameOffset.toNat
    omega
  · show ArchiveHeader.size ≤ dataOffset.toNat
    omega
  · simp only [Member.dataSpan, IndexEntry.dataSpan]
    omega
  · simp only [Member.nameSpan, IndexEntry.nameSpan]
    omega
  · simp only [Span.Apart, Member.dataSpan, Member.nameSpan, IndexEntry.dataSpan,
      IndexEntry.nameSpan, IndexEntry.nameEnd, hnameLength]
    omega

/-- Contents behind the name of a member are a place for it. -/
theorem savedAs_data {file : Bytes} {limit : Nat} {dataOffset : UInt32}
    (hheld : m.Held encoding file catalog) (hm : m.residence = .stored entry)
    (hlimit : limit ≤ file.length) (hsize : ArchiveHeader.size ≤ limit)
    (hbelow : entry.nameSpan.Below limit) (hdata : dataOffset.toNat = limit)
    (hfits : octets.length < UInt32.size) :
    m.SavedAs (.stored { entry with dataOffset, dataLength := .ofNat octets.length }) encoding
      (file.take limit ++ octets) octets limit := by
  have hdataLength : (UInt32.ofNat octets.length).toNat = octets.length :=
    UInt32.toNat_ofNat_of_lt' hfits
  simp only [Member.Held, hm] at hheld
  obtain ⟨_, -, ⟨stored, hstored, hregion⟩, -, hbehind, -⟩ := hheld
  refine ⟨fun catalog hcatalog => ⟨octets, hcatalog, ⟨⟨stored, hstored, ?_⟩, ?_, hbehind, .inl ?_⟩⟩,
    .inl (.inr ?_), .inr ?_, ?_⟩
  · -- the name is below the limit, or empty
    refine (Keeps.take_append octets hlimit).region_eq_ok hregion (.inl hbehind) ?_
    simp only [Span.Below, IndexEntry.nameSpan, IndexEntry.nameEnd] at hbelow
    show entry.nameOffset.toNat + entry.nameLength.toNat ≤ limit ∨ entry.nameLength.toNat = 0
    omega
  · refine region_append _ ?_ hdataLength
    rw [hdata, List.length_take, Nat.min_eq_left hlimit]
  · show ArchiveHeader.size ≤ dataOffset.toNat
    omega
  · simp only [Member.dataSpan, IndexEntry.dataSpan]
    omega
  · simp only [Member.nameSpan, hm]
    rfl
  · refine (Span.Below.apart hbelow (.inr ?_)).symm
    simp only [Member.dataSpan, IndexEntry.dataSpan]
    omega

/-- A name behind the end is a place for a member that keeps its contents where they are. -/
theorem savedAs_relisted {file stored : Bytes} {nameOffset : UInt32}
    (hheld : m.Held encoding file catalog) (hm : m.residence = .stored entry)
    (hstored : storedName encoding m.name = .ok stored) (hsize : ArchiveHeader.size ≤ file.length)
    (hname : nameOffset.toNat = file.length) (hfits : file.length + stored.length < UInt32.size) :
    ∃ octets, catalog m.name = some octets
      ∧ m.SavedAs (.stored { entry with nameOffset, nameLength := .ofNat stored.length }) encoding
        (file ++ stored) octets file.length := by
  have hnameLength : (UInt32.ofNat stored.length).toNat = stored.length :=
    UInt32.toNat_ofNat_of_lt' (by omega)
  have hbelow := hheld.inside.2.below
  simp only [Member.Held, hm] at hheld
  simp only [Member.dataSpan, hm] at hbelow
  obtain ⟨octets, hcatalog, hlocates⟩ := hheld
  have hbehind : ArchiveHeader.size ≤ nameOffset.toNat := by omega
  refine ⟨octets, hcatalog, fun catalog hcatalog => ⟨octets, hcatalog,
    ⟨⟨stored, hstored, region_append _ hname hnameLength⟩, ?_, hbehind, hlocates.dataBehind⟩⟩,
    .inr ?_, .inl (.inr ?_), ?_⟩
  · refine (Keeps.append file stored).region_eq_ok hlocates.data hlocates.dataBehind ?_
    simp only [Span.Below, IndexEntry.dataSpan, IndexEntry.dataEnd] at hbelow
    show entry.dataOffset.toNat + entry.dataLength.toNat ≤ file.length ∨ entry.dataLength.toNat = 0
    omega
  · simp only [Member.dataSpan, hm]
    rfl
  · simp only [Member.nameSpan, IndexEntry.nameSpan]
    omega
  · refine Span.Below.apart hbelow (.inr ?_)
    simp only [Member.nameSpan, IndexEntry.nameSpan]
    omega

/-! ## Saving contents -/

/-- What a save has to leave behind: with the new residence, the archive has the new contents. -/
structure Saves (store : Store) (mode : SaveMode) (encoding : Encoding) (catalog : Catalog)
    (m : Member) (octets : Bytes) (residence : Residence) (store' : Store) : Prop where
  relisted : store.archive.Relisted m store'.archive
  intact : Fits store'.file → Archive.Intact { store.archive with
      members := Member.change m.name (fun o => { o with residence }) store.archive.members
      dirty := true }
    store'.file mode encoding (catalog.put m.name octets)

/-- What a save that fails has to leave behind: the archive has what it had. -/
structure Retains (store : Store) (mode : SaveMode) (encoding : Encoding) (catalog : Catalog)
    (m : Member) (store' : Store) : Prop where
  relisted : store.archive.Relisted m store'.archive
  intact : store'.archive.Intact store'.file mode encoding catalog

/-- A save that fails has at most written behind the end. -/
def OnlyAppends (store store' : Store) : Prop :=
  ∃ rest, store' = { store with file := store.file ++ rest }

variable (h : store.archive.Intact store.file mode encoding catalog)
  (hm : m ∈ store.archive.members)

include h

theorem OnlyAppends.retains {store' : Store} (happends : OnlyAppends store store') :
    Retains store mode encoding catalog m store' := by
  obtain ⟨rest, rfl⟩ := happends
  exact ⟨.refl _ _, h.append rest⟩

include hm

/-- With name and contents behind the end, the archive has the new contents. -/
theorem intact_named {stored : Bytes} {nameOffset dataOffset : UInt32}
    (hstored : storedName store.archive.encoding m.name = .ok stored)
    (hname : nameOffset.toNat = store.file.length)
    (hdata : dataOffset.toNat = (store.file ++ stored).length)
    (hfits : (store.file ++ stored).length + octets.length < UInt32.size) :
    Archive.Intact { store.archive with
        members := Member.change m.name (fun o => { o with residence := .stored { entry with
          nameOffset, dataOffset
          nameLength := .ofNat stored.length
          dataLength := .ofNat octets.length } }) store.archive.members
        dirty := true }
      (store.file ++ stored ++ octets) mode encoding (catalog.put m.name octets) := by
  rw [h.encoding_eq] at hstored
  have hbelow := h.laid.below
  refine h.save hm (.trans (.append store.file stored) (.append _ octets) (by simp)) ?_
    h.indexed.inside.below (fun o ho _ => hbelow o ho)
    (savedAs_named hstored h.size_le hname hdata hfits) (by simp) fun _ => rfl
  exact h.indexed.header.trans ((List.prefix_append _ _).trans (List.prefix_append _ _))

theorem saveNamed_spec :
    Ends (do saveBehind octets (← appendName m.name entry)) store
      (Saves store mode encoding catalog m octets) fun _ => OnlyAppends store := by
  simp only [ends_bind]
  refine (appendName_spec m.name entry store).mono ?_ fun _ store' he => ⟨[], by simp [he]⟩
  rintro entry' store₁ ⟨stored, nameOffset, hstored, hname, -, rfl, rfl⟩
  refine (saveBehind_spec octets _ _).mono ?_ fun _ store' he => ⟨stored, he⟩
  rintro residence store₂ ⟨dataOffset, hdata, hfits, rfl, rfl⟩
  exact ⟨.refl _ _, fun _ => intact_named h hm hstored hname hdata hfits⟩

/-- Without being last in the file, contents are saved behind the end. -/
theorem saveBehind_saves (hstored : m.residence = .stored entry) :
    Ends (saveBehind octets entry) store (Saves store mode encoding catalog m octets)
      fun _ => OnlyAppends store := by
  refine (saveBehind_spec octets entry store).mono ?_ fun _ store' he => ⟨[], by simp [he]⟩
  rintro residence store' ⟨dataOffset, hdata, hfits, rfl, rfl⟩
  refine ⟨.refl _ _, fun _ => ?_⟩
  have hbelow := h.laid.below
  have hname : entry.nameSpan.Below store.file.length := by
    simpa only [Member.nameSpan, hstored] using (hbelow m hm).1
  have hsaved : m.SavedAs
      (.stored { entry with dataOffset, dataLength := .ofNat octets.length }) encoding
      (store.file.take store.file.length ++ octets) octets store.file.length :=
    savedAs_data (h.laid.held m hm) hstored (Nat.le_refl _) h.size_le hname hdata (by omega)
  rw [List.take_length] at hsaved
  exact h.save hm (.append store.file octets) (h.indexed.header.trans (List.prefix_append _ _))
    h.indexed.inside.below (fun o ho _ => hbelow o ho) hsaved (by simp) fun _ => rfl

/-- The last contents in a file are saved over the old ones. -/
theorem overwrite_saves (hstored : m.residence = .stored entry) (hpos : 0 < entry.dataLength)
    (hlast : entry.dataEnd = store.file.length) :
    Saves store mode encoding catalog m octets
      (.stored { entry with dataLength := .ofNat octets.length })
      { store with file := store.file.take entry.dataOffset.toNat ++ octets } := by
  refine ⟨.refl _ _, fun hfits => ?_⟩
  have hspan : m.dataSpan = entry.dataSpan := by simp only [Member.dataSpan, hstored]
  have hnameSpan : m.nameSpan = entry.nameSpan := by simp only [Member.nameSpan, hstored]
  have hnonempty : m.dataSpan.start < m.dataSpan.stop := by
    rw [hspan]
    have := UInt32.lt_iff_toNat_lt.mp hpos
    simp only [IndexEntry.dataSpan, IndexEntry.dataEnd]
    exact Nat.lt_add_of_pos_right this
  -- cutting the file where these contents start leaves all else in place
  obtain ⟨hindex, hname, hothers⟩ := h.below_of_last hm hnonempty (hspan ▸ hlast)
  have hinside := (h.laid.held m hm).inside.2
  rw [hspan] at hindex hname hothers hinside hnonempty
  simp only [Span.Inside, IndexEntry.dataSpan] at hinside hnonempty
  have hsize : ArchiveHeader.size ≤ entry.dataOffset.toNat := by omega
  have hlimit : entry.dataOffset.toNat ≤ store.file.length := by omega
  have hlength : (store.file.take entry.dataOffset.toNat ++ octets).length
      = entry.dataOffset.toNat + octets.length := by
    rw [List.length_append, List.length_take, Nat.min_eq_left hlimit]
  refine h.save hm (.take_append octets hlimit) ?_ hindex hothers
    (savedAs_data (h.laid.held m hm) hstored hlimit hsize (hnameSpan ▸ hname) rfl ?_) (by simp)
    fun _ => rfl
  · refine List.IsPrefix.trans ?_ (List.prefix_append _ _)
    exact List.prefix_take_iff.mpr ⟨h.indexed.header, hsize⟩
  · rw [Fits, hlength] at hfits
    omega

/-- Contents in memory are no part of the file. -/
theorem buffer_saves (hmode : mode = .explicit) (unknown : UInt32) :
    Saves store mode encoding catalog m octets (.buffered unknown octets) store := by
  refine ⟨.refl _ _, fun _ => ?_⟩
  have hbelow := h.laid.below
  have hsaved : m.SavedAs (.buffered unknown octets) encoding store.file octets store.file.length :=
    ⟨fun _ hcatalog => hcatalog, .inl (.inl (Nat.le_refl 0)), .inl (.inl (Nat.le_refl 0)),
      .inl (Nat.le_refl 0)⟩
  exact h.save hm (.refl store.file) h.indexed.header h.indexed.inside.below
    (fun o ho _ => hbelow o ho) hsaved (fun hne => absurd hmode hne) fun _ => rfl

theorem saveInPlace_spec (hmode : mode ≠ .explicit) (hcore : member.core = m.core) :
    Ends (saveInPlace member octets) store (Saves store mode encoding catalog m octets)
      fun _ => OnlyAppends store := by
  simp only [saveInPlace, ends_bind, ends_get]
  rw [Member.isCreated_of_core_eq hcore, Member.entry_of_core_eq hcore,
    (Member.core_eq_iff.mp hcore).1]
  split
  · exact saveNamed_spec h hm
  · next hcreated =>
    -- outside explicit mode nothing is kept in memory
    have hstored : m.residence = .stored m.entry := by
      cases hresidence : m.residence with
      | created => simp [Member.isCreated, hresidence] at hcreated
      | buffered unknown octets => exact absurd hresidence (h.unbuffered hmode m hm _ _)
      | stored entry => rw [Member.entry, hresidence]
    split
    · next hlast =>
      simp only [setFile, ends_bind, ends_modify, ends_pure]
      exact overwrite_saves h hm hstored hlast.1 hlast.2
    · exact saveBehind_saves h hm hstored

/-- In immediate mode, a name behind the end may be remembered without the contents. -/
theorem intact_relisted (hmode : mode = .immediate) {stored : Bytes} {nameOffset : UInt32}
    (hstored : storedName store.archive.encoding m.name = .ok stored)
    (hname : nameOffset.toNat = store.file.length)
    (hfits : store.file.length + stored.length < UInt32.size) :
    (store.archive.relisted m nameOffset stored).Intact (store.file ++ stored) mode encoding
      catalog := by
  have hfind := Member.find?_of_mem h.laid.unique hm
  have hbelow := h.laid.below
  rw [h.encoding_eq] at hstored
  rw [Archive.relisted]
  cases hresidence : m.residence with
  | buffered unknown octets =>
    exact absurd hresidence (h.unbuffered (by simp [hmode]) m hm _ _)
  | created =>
    -- what is being made has no entry yet
    rw [Member.change_eq_self hfind (by simp only [Member.relist, hresidence])]
    exact h.append stored
  | stored entry =>
    obtain ⟨octets, hcatalog, hsaved⟩ :=
      savedAs_relisted (h.laid.held m hm) hresidence hstored h.size_le hname hfits
    have hchange : Member.change m.name
          (Member.relist { m.entry with nameOffset, nameLength := .ofNat stored.length })
          store.archive.members
        = Member.change m.name (fun o => { o with
            residence := .stored { entry with nameOffset, nameLength := .ofNat stored.length } })
          store.archive.members := by
      refine Member.change_congr hfind ?_
      simp only [Member.relist, Member.entry, hresidence]
    rw [hchange, ← Catalog.put_eq_self hcatalog]
    exact h.save hm (.append store.file stored) (h.indexed.header.trans (List.prefix_append _ _))
      h.indexed.inside.below (fun o ho _ => hbelow o ho) hsaved (by simp)
      fun himmediate => absurd hmode himmediate

theorem saveAnew_saves (hmode : mode = .immediate) (hcore : member.core = m.core) :
    Ends (saveAnew member octets) store (Saves store mode encoding catalog m octets)
      fun _ => Retains store mode encoding catalog m := by
  have hentry := Member.entry_of_core_eq hcore
  have hlabel := (Member.core_eq_iff.mp hcore).1
  have hrelisted : ∀ nameOffset stored, store.archive.relisted member nameOffset stored
      = store.archive.relisted m nameOffset stored := by
    intro nameOffset stored
    rw [Archive.relisted, hentry, hlabel]
    rfl
  refine (saveAnew_spec octets store).mono ?_ ?_
  · rintro _ _ ⟨stored, nameOffset, dataOffset, hstored, hname, hdata, hfits, rfl, rfl⟩
    rw [hlabel] at hstored
    exact ⟨hrelisted _ _ ▸ store.archive.relisted_relisted m nameOffset stored,
      fun _ => intact_named h hm hstored hname hdata hfits⟩
  · rintro _ _ (rfl | ⟨stored, nameOffset, hstored, hname, hfits, rfl⟩)
    · exact ⟨.refl _ _, h⟩
    · rw [hlabel] at hstored
      refine ⟨hrelisted _ _ ▸ store.archive.relisted_relisted m nameOffset stored, ?_⟩
      rw [hrelisted]
      exact intact_relisted h hm hmode hstored hname hfits

/-- Contents are saved as the mode says. -/
theorem save_spec (hcore : member.core = m.core) :
    Ends (save member octets) store (Saves store mode encoding catalog m octets)
      fun _ => Retains store mode encoding catalog m := by
  simp only [save, ends_bind, ends_get]
  rw [h.mode_eq]
  cases mode with
  | readOnly => exact ⟨.refl _ _, h⟩
  | explicit => exact buffer_saves h hm rfl _
  | flush =>
    exact (saveInPlace_spec h hm (by decide) hcore).mono (fun _ _ => id)
      fun _ _ happends => happends.retains h
  | immediate => exact saveAnew_saves h hm rfl hcore

end Change
end NovelScript
