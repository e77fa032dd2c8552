import NovelScript.Proofs.Archive.Integrity
import NovelScript.Proofs.Archive.Reloading
import NovelScript.Proofs.Steps

/-!
# Packing an archive anew

A packed file is read as the members that were packed (`Packing.readIndex_image`), each in a place
of its own, and the handles on the old members are handed over to them.  So packing leaves an
archive intact for the same catalog (`Archive.Intact.repack`).
-/

namespace NovelScript

namespace Packing

/-- The members that a packed file lists, under the names that they had. -/
def members (nameOffset dataOffset : Nat) : List (String × PackedFile) → List Member
  | [] => []
  | (name, file) :: rest =>
    { name
      residence := .stored {
        nameOffset := .ofNat nameOffset
        nameLength := .ofNat file.name.length
        dataOffset := .ofNat dataOffset
        dataLength := .ofNat file.contents.length
        unknown := file.unknown } }
      :: members (nameOffset + file.name.length) (dataOffset + file.contents.length) rest

variable {nameOffset dataOffset : Nat} {named : List (String × PackedFile)}

theorem map_entry_members :
    (members nameOffset dataOffset named).map Member.entry
      = entries nameOffset dataOffset (named.map (·.2)) := by
  induction named generalizing nameOffset dataOffset with
  | nil => rfl
  | cons file rest ih =>
    rw [members, List.map_cons, ih]
    rfl

theorem map_name_members :
    (members nameOffset dataOffset named).map (·.name) = named.map (·.1) := by
  induction named generalizing nameOffset dataOffset with
  | nil => rfl
  | cons file rest ih => rw [members, List.map_cons, ih, List.map_cons]

theorem members_fresh :
    (members nameOffset dataOffset named).map Member.fresh
      = members nameOffset dataOffset named := by
  induction named generalizing nameOffset dataOffset with
  | nil => rfl
  | cons file rest ih =>
    rw [members, List.map_cons, ih]
    rfl

/-- What a packed file lists are files. -/
theorem filter_members :
    (members nameOffset dataOffset named).filter (!·.isCreated)
      = members nameOffset dataOffset named := by
  induction named generalizing nameOffset dataOffset with
  | nil => rfl
  | cons file rest ih =>
    rw [members, List.filter_cons_of_pos (by rfl), ih]

theorem names_cons (file : PackedFile) (files : List PackedFile) :
    names (file :: files) = file.name ++ names files := rfl

theorem contents_cons (file : PackedFile) (files : List PackedFile) :
    contents (file :: files) = file.contents ++ contents files := rfl

variable {encoding : Encoding} {file : Bytes} {unknown : UInt32} {first : String × PackedFile}

/-- The names of files stand in the file from one place on, and their contents from another. -/
structure Stands (encoding : Encoding) (file : Bytes) (nameOffset dataOffset : Nat)
    (named : List (String × PackedFile)) : Prop where
  small : file.length < UInt32.size
  stored : ∀ p ∈ named, Change.storedName encoding p.1 = .ok p.2.name
  names : region file nameOffset (names (named.map (·.2))).length = .ok (names (named.map (·.2)))
  contents : region file dataOffset (contents (named.map (·.2))).length
    = .ok (contents (named.map (·.2)))
  namesEnd : nameOffset + (Packing.names (named.map (·.2))).length ≤ file.length
  contentsEnd : dataOffset + (Packing.contents (named.map (·.2))).length ≤ file.length
  namesBehind : ArchiveHeader.size ≤ nameOffset
  contentsBehind : ArchiveHeader.size ≤ dataOffset

/-- The first file stands in front of the others. -/
theorem Stands.cons (h : Stands encoding file nameOffset dataOffset (first :: named)) :
    region file nameOffset first.2.name.length = .ok first.2.name
      ∧ region file dataOffset first.2.contents.length = .ok first.2.contents
      ∧ Stands encoding file (nameOffset + first.2.name.length)
          (dataOffset + first.2.contents.length) named := by
  obtain ⟨hsmall, hstored, hnames, hcontents, hnamesEnd, hcontentsEnd, hnamesBehind,
    hcontentsBehind⟩ := h
  rw [List.map_cons, names_cons] at hnames hnamesEnd
  rw [List.map_cons, contents_cons] at hcontents hcontentsEnd
  obtain ⟨hname, hnames⟩ := region_of_append hnames
  obtain ⟨hdata, hcontents⟩ := region_of_append hcontents
  rw [List.length_append] at hnamesEnd hcontentsEnd
  exact ⟨hname, hdata, hsmall, (List.forall_mem_cons.mp hstored).2, hnames, hcontents,
    by omega, by omega, by omega, by omega⟩

/-- The fields of the first entry are what they were made from. -/
theorem Stands.fields (h : Stands encoding file nameOffset dataOffset (first :: named)) :
    (UInt32.ofNat nameOffset).toNat = nameOffset
      ∧ (UInt32.ofNat first.2.name.length).toNat = first.2.name.length
      ∧ (UInt32.ofNat dataOffset).toNat = dataOffset
      ∧ (UInt32.ofNat first.2.contents.length).toNat = first.2.contents.length := by
  have hnamesEnd := h.namesEnd
  have hcontentsEnd := h.contentsEnd
  have hsmall := h.small
  rw [List.map_cons, names_cons, List.length_append] at hnamesEnd
  rw [List.map_cons, contents_cons, List.length_append] at hcontentsEnd
  refine ⟨?_, ?_, ?_, ?_⟩
  all_goals exact UInt32.toNat_ofNat_of_lt' (by omega)

/-- Each of the files that stand there is where its member says. -/
theorem Stands.locates (h : Stands encoding file nameOffset dataOffset named) {m : Member}
    (hm : m ∈ members nameOffset dataOffset named) :
    ∃ p ∈ named, m.name = p.1 ∧ ∃ entry, m.residence = .stored entry
      ∧ entry.Locates encoding file p.1 p.2.contents
      ∧ entry.nameEnd ≤ nameOffset + (Packing.names (named.map (·.2))).length
      ∧ dataOffset ≤ entry.dataOffset.toNat
      ∧ entry.dataEnd ≤ dataOffset + (Packing.contents (named.map (·.2))).length := by
  -- behind the first file both offsets have moved on, so the bounds are for all offsets
  induction named generalizing nameOffset dataOffset with
  | nil => simp [members] at hm
  | cons first rest ih =>
    obtain ⟨hname, hdata, hrest⟩ := h.cons
    obtain ⟨hnameOffset, hnameLength, hdataOffset, hdataLength⟩ := h.fields
    rw [List.map_cons, names_cons, contents_cons, List.length_append, List.length_append]
    rcases List.mem_cons.mp hm with rfl | hm
    · refine ⟨first, List.mem_cons_self, rfl, _, rfl,
        ⟨⟨first.2.name, ?_, ?_⟩, ?_, ?_, .inl ?_⟩, ?_⟩
      · exact h.stored first List.mem_cons_self
      · rw [hnameOffset, hnameLength]
        exact hname
      · rw [hdataOffset, hdataLength]
        exact hdata
      · rw [hnameOffset]
        exact h.namesBehind
      · rw [hdataOffset]
        exact h.contentsBehind
      · simp only [IndexEntry.nameEnd, IndexEntry.dataEnd, hnameOffset, hnameLength, hdataOffset,
          hdataLength]
        omega
    · obtain ⟨p, hp, hname, entry, hentry, hlocates, hbounds⟩ := ih hrest hm
      exact ⟨p, List.mem_cons_of_mem _ hp, hname, entry, hentry, hlocates, by omega⟩

/-- Contents stand one behind the other. -/
theorem Stands.pairwise (h : Stands encoding file nameOffset dataOffset named) :
    (members nameOffset dataOffset named).Pairwise fun a b => a.dataSpan.Apart b.dataSpan := by
  induction named generalizing nameOffset dataOffset with
  | nil => exact .nil
  | cons first rest ih =>
    obtain ⟨-, -, hrest⟩ := h.cons
    obtain ⟨-, -, hdataOffset, hdataLength⟩ := h.fields
    refine List.pairwise_cons.mpr ⟨fun m hm => ?_, ih hrest⟩
    -- every later member starts where the contents of the first end, or behind
    obtain ⟨p, -, -, entry, hentry, -, -, hstart, -⟩ := hrest.locates hm
    refine .inr (.inr (.inl ?_))
    simp only [Member.dataSpan, hentry, IndexEntry.dataSpan, IndexEntry.dataEnd, hdataOffset,
      hdataLength]
    exact hstart

/-! ## The packed file -/

theorem length_flatMap_entries (nameOffset dataOffset : Nat) (files : List PackedFile) :
    ((entries nameOffset dataOffset files).flatMap IndexEntry.write).length
      = ArchiveHeader.entrySize * files.length := by
  induction files generalizing nameOffset dataOffset with
  | nil => rfl
  | cons file rest ih => simp [entries, List.flatMap_cons, ih, Nat.mul_succ, Nat.add_comm]

/-- In a packed file, names and contents stand where it says. -/
theorem stands_image (hsmall : (image unknown (named.map (·.2))).length < UInt32.size)
    (hstored : ∀ p ∈ named, Change.storedName encoding p.1 = .ok p.2.name) :
    Stands encoding (image unknown (named.map (·.2))) ArchiveHeader.size
      (contentsOffset (named.map (·.2))) named where
  small := hsmall
  stored := hstored
  names := by
    rw [image, List.append_assoc]
    exact region_append_append _ _ rfl rfl
  contents := by
    rw [image]
    exact region_append_append _ _ (by simp [contentsOffset]) rfl
  namesEnd := by
    rw [length_image, indexOffset, contentsOffset]
    omega
  contentsEnd := by
    rw [length_image, indexOffset]
    omega
  namesBehind := Nat.le_refl _
  contentsBehind := Nat.le_add_right _ _

theorem toNat_indexOffset (hsmall : (image unknown (named.map (·.2))).length < UInt32.size) :
    (header unknown (named.map (·.2))).indexOffset.toNat = indexOffset (named.map (·.2)) := by
  rw [length_image] at hsmall
  exact UInt32.toNat_ofNat_of_lt' (by omega)

theorem toNat_indexLength (hsmall : (image unknown (named.map (·.2))).length < UInt32.size) :
    (header unknown (named.map (·.2))).indexLength.toNat
      = ArchiveHeader.entrySize * (named.map (·.2)).length := by
  rw [length_image] at hsmall
  exact UInt32.toNat_ofNat_of_lt' (by omega)

theorem indexEnd_header (hsmall : (image unknown (named.map (·.2))).length < UInt32.size) :
    (header unknown (named.map (·.2))).indexEnd = (image unknown (named.map (·.2))).length := by
  rw [ArchiveHeader.indexEnd, toNat_indexOffset hsmall, toNat_indexLength hsmall, length_image]

theorem header_isPrefix_image (files : List PackedFile) :
    (header unknown files).write <+: image unknown files := by
  rw [image, List.append_assoc, List.append_assoc]
  exact List.prefix_append _ _

/-- The index of a packed file lists the members. -/
theorem region_index (hsmall : (image unknown (named.map (·.2))).length < UInt32.size) :
    region (image unknown (named.map (·.2))) (header unknown (named.map (·.2))).indexOffset.toNat
        (header unknown (named.map (·.2))).indexLength.toNat
      = .ok ((members ArchiveHeader.size (contentsOffset (named.map (·.2))) named).flatMap
          fun m => m.entry.write) := by
  rw [toNat_indexOffset hsmall, toNat_indexLength hsmall,
    ← List.flatMap_map Member.entry IndexEntry.write, map_entry_members]
  refine region_append _ ?_ (length_flatMap_entries _ _ _).symm
  simp [indexOffset, contentsOffset, Nat.add_assoc]

theorem located_members (hsmall : (image unknown (named.map (·.2))).length < UInt32.size)
    (hstored : ∀ p ∈ named, Change.storedName encoding p.1 = .ok p.2.name)
    (hsurvive : ∀ p ∈ named, encoding.Survives p.1) :
    Located encoding (image unknown (named.map (·.2)))
      (members ArchiveHeader.size (contentsOffset (named.map (·.2))) named) := by
  intro m hm
  obtain ⟨p, hp, hname, entry, hentry, hlocates, -⟩ := (stands_image hsmall hstored).locates hm
  have heq : m.entry = entry := by rw [Member.entry, hentry]
  rw [heq, hname]
  exact ⟨hsurvive p hp, hentry, _, hlocates⟩

/-- A packed file is read as the files that were packed, in order. -/
theorem readIndex_image (hsmall : (image unknown (named.map (·.2))).length < UInt32.size)
    (hstored : ∀ p ∈ named, Change.storedName encoding p.1 = .ok p.2.name)
    (hsurvive : ∀ p ∈ named, encoding.Survives p.1) (hunique : (named.map (·.1)).Nodup) :
    Archive.readIndex encoding (image unknown (named.map (·.2)))
      = { result := .ok (header unknown (named.map (·.2)),
            members ArchiveHeader.size (contentsOffset (named.map (·.2))) named) } := by
  rw [Archive.readIndex_of_listed (header_isPrefix_image _) rfl rfl
    (Nat.le_of_eq (indexEnd_header hsmall)) (region_index hsmall)
    (located_members hsmall hstored hsurvive) (by rwa [map_name_members]), members_fresh]
  intro m hm
  have hstands := stands_image hsmall hstored
  obtain ⟨p, -, -, entry, hentry, -, -, -, hend⟩ := hstands.locates hm
  have heq : m.entry = entry := by rw [Member.entry, hentry]
  rw [heq]
  exact Nat.le_trans hend hstands.contentsEnd

end Packing

/-! ## Handing handles over -/

namespace Change

variable {old members : List Member} {m : Member}

/-- Handing handles over changes no residence and keeps what is being made. -/
theorem map_core_handOver :
    (old.foldl handOver members).map Member.core
      = members.map Member.core ++ (old.filter (·.isCreated)).map Member.core := by
  induction old generalizing members with
  | nil => simp
  | cons o rest ih =>
    rw [List.foldl_cons, ih, handOver]
    by_cases hcreated : o.isCreated = true
    · rw [if_pos hcreated, List.filter_cons_of_pos hcreated, List.map_append, List.map_cons,
        List.map_nil, List.map_cons, List.append_assoc, List.singleton_append]
    · have hcore : ∀ m : Member,
          ({ m with readers := o.readers, writer := o.writer } : Member).core = m.core :=
        fun _ => rfl
      rw [if_neg hcreated, List.filter_cons_of_neg hcreated, Member.map_core_change hcore]

/-- Behind handles handed over, the files are those of the packed file. -/
theorem map_core_files_handOver {nameOffset dataOffset : Nat}
    {labelled : List (String × PackedFile)} :
    ((old.foldl handOver (Packing.members nameOffset dataOffset labelled)).filter
        (!·.isCreated)).map Member.core
      = (Packing.members nameOffset dataOffset labelled).map Member.core := by
  have hcore : (old.foldl handOver (Packing.members nameOffset dataOffset labelled)).map Member.core
      = (Packing.members nameOffset dataOffset labelled ++ old.filter (·.isCreated)).map
        Member.core := by
    rw [map_core_handOver, List.map_append]
  rw [Member.map_core_files hcore, List.filter_append, Packing.filter_members, List.filter_filter]
  simp

/-- Only members that were being written are being written afterwards. -/
theorem writer_of_mem_handOver (h : m ∈ old.foldl handOver members) (hm : m.writer = true) :
    (∃ a ∈ members, a.name = m.name ∧ a.writer = true)
      ∨ ∃ o ∈ old, o.name = m.name ∧ o.writer = true := by
  induction old generalizing members with
  | nil => exact .inl ⟨m, h, rfl, hm⟩
  | cons o rest ih =>
    rcases ih h with ⟨a, ha, hname, hwriter⟩ | ⟨a, ha, hname, hwriter⟩
    · rw [handOver] at ha
      split at ha
      · rcases List.mem_append.mp ha with ha | ha
        · exact .inl ⟨a, ha, hname, hwriter⟩
        · obtain rfl : a = o := by simpa using ha
          exact .inr ⟨a, List.mem_cons_self, hname, hwriter⟩
      · rcases Member.mem_of_mem_change ha with ha | ⟨b, hb, hbname, rfl⟩
        · exact .inl ⟨a, ha, hname, hwriter⟩
        · exact .inr ⟨o, List.mem_cons_self, hbname.symm.trans hname, hwriter⟩
    · exact .inr ⟨a, List.mem_cons_of_mem _ ha, hname, hwriter⟩

/-- What is found under the name of a member once its handles have been handed over to `found`. -/
def adopted (found : Option Member) (o : Member) : Option Member :=
  if o.isCreated then found.or (some o)
  else found.map fun m => { m with readers := o.readers, writer := o.writer }

theorem find?_handOver {o : Member} {name : String} :
    (handOver members o).find? (·.name == name)
      = if o.name = name then adopted (members.find? (·.name == name)) o
        else members.find? (·.name == name) := by
  rw [handOver, adopted]
  split
  · rw [List.find?_append, List.find?_singleton]
    split <;> simp_all
  · split
    · next hname =>
      subst hname
      cases hfind : members.find? (·.name == o.name) with
      | some m => exact Member.find?_change (fun _ => rfl) hfind
      | none =>
        rw [Member.change_of_forall_ne (Member.find?_eq_none_iff.mp hfind), hfind, Option.map_none]
    · next hname => exact Member.find?_change_of_ne (fun _ => rfl) fun he => hname he.symm

/-- Where no name comes twice, each member hands its handles over to the member of its name, and
no other does. -/
theorem find?_foldl_handOver (hunique : (old.map (·.name)).Nodup) {name : String} :
    (old.foldl handOver members).find? (·.name == name)
      = (old.find? (·.name == name)).elim (members.find? (·.name == name))
        (adopted (members.find? (·.name == name))) := by
  induction old generalizing members with
  | nil => rfl
  | cons o rest ih =>
    obtain ⟨ho, hrest⟩ := List.nodup_cons.mp hunique
    rw [List.foldl_cons, ih hrest, find?_handOver]
    by_cases hname : o.name = name
    · have hnone : rest.find? (·.name == name) = none :=
        Member.find?_eq_none_iff.mpr fun m hm he =>
          ho (List.mem_map.mpr ⟨m, hm, he.trans hname.symm⟩)
      rw [hnone, if_pos hname, List.find?_cons_of_pos (by simpa using hname)]
      rfl
    · rw [if_neg hname, List.find?_cons_of_neg (by simpa using hname)]

/-! ## The files that are packed -/

/-- What is packed are the files in order, under their stored names and with their contents. -/
theorem exists_packed {encoding : Encoding} {offset : Nat} {file : Bytes} {files : List Member}
    {named : List (Bytes × Member)} {packed : List PackedFile}
    (hnamed : nameFrom encoding offset files = .ok named)
    (hpacked : named.mapM (packedFile file) = .ok packed) :
    ∃ labelled : List (String × PackedFile), labelled.map (·.2) = packed
      ∧ labelled.map (·.1) = files.map (·.name)
      ∧ ∀ p ∈ labelled, storedName encoding p.1 = .ok p.2.name
        ∧ ∃ m ∈ files, m.name = p.1 ∧ m.contents file = .ok p.2.contents := by
  induction files generalizing offset named packed with
  | nil =>
    obtain rfl := Except.ok.inj hnamed
    rw [List.mapM_nil] at hpacked
    obtain rfl := Except.ok.inj hpacked
    exact ⟨[], rfl, rfl, by simp⟩
  | cons m rest ih =>
    rw [nameFrom] at hnamed
    obtain ⟨name, hname, hnamed⟩ := bind_eq_ok_iff.mp hnamed
    obtain ⟨_, -, hnamed⟩ := bind_eq_ok_iff.mp hnamed
    obtain ⟨others, hothers, hnamed⟩ := bind_eq_ok_iff.mp hnamed
    obtain rfl := Except.ok.inj hnamed
    rw [List.mapM_cons] at hpacked
    obtain ⟨file₁, hfile₁, hpacked⟩ := bind_eq_ok_iff.mp hpacked
    obtain ⟨files₁, hfiles₁, hpacked⟩ := bind_eq_ok_iff.mp hpacked
    obtain rfl := Except.ok.inj hpacked
    obtain ⟨labelled, rfl, hnames, hlabelled⟩ := ih hothers hfiles₁
    unfold packedFile at hfile₁
    cases hcontents : m.contents file with
    | error e => simp [hcontents, Except.map] at hfile₁
    | ok contents =>
      obtain rfl : ⟨name, contents, m.entry.unknown⟩ = file₁ := by
        simpa [hcontents, Except.map] using hfile₁
      refine ⟨(m.name, ⟨name, contents, m.entry.unknown⟩) :: labelled, rfl, ?_, ?_⟩
      · rw [List.map_cons, List.map_cons, hnames]
      · refine List.forall_mem_cons.mpr ⟨?_, ?_⟩
        · exact ⟨hname, m, List.mem_cons_self, rfl, hcontents⟩
        · intro p hp
          obtain ⟨hstored, o, ho, hlabel⟩ := hlabelled p hp
          exact ⟨hstored, o, List.mem_cons_of_mem _ ho, hlabel⟩

end Change

/-! ## The archive in the packed file -/

namespace Archive

variable {archive : Archive} {file : Bytes} {mode : SaveMode} {encoding : Encoding}
  {catalog : Catalog} {unknown : UInt32} {labelled : List (String × PackedFile)}

/-- Files and what is being made are all the members. -/
theorem nodup_files_append (hunique : (archive.members.map (·.name)).Nodup) :
    (archive.files.map (·.name)
      ++ (archive.members.filter (·.isCreated)).map (·.name)).Nodup := by
  have hperm : (archive.files ++ archive.members.filter (·.isCreated)).Perm archive.members := by
    simpa [files] using List.filter_append_perm (fun m : Member => !m.isCreated) archive.members
  rw [← List.map_append]
  exact (hperm.map _).nodup_iff.mpr hunique

/-- The members of a packed file are laid in it for the same catalog. -/
theorem Intact.laid_members (h : archive.Intact file mode encoding catalog)
    (hnames : labelled.map (·.1) = archive.files.map (·.name))
    (hlabelled : ∀ p ∈ labelled, Change.storedName encoding p.1 = .ok p.2.name
      ∧ ∃ m ∈ archive.files, m.name = p.1 ∧ m.contents file = .ok p.2.contents)
    (hsmall : (Packing.image unknown (labelled.map (·.2))).length < UInt32.size) :
    Laid encoding (Packing.image unknown (labelled.map (·.2)))
      (Packing.members ArchiveHeader.size (Packing.contentsOffset (labelled.map (·.2))) labelled)
      catalog := by
  have hstands := Packing.stands_image hsmall fun p hp => (hlabelled p hp).1
  refine { unique := ?_, survive := ?_, held := ?_, absent := ?_, dataApart := ?_, nameApart := ?_ }
  · rw [Packing.map_name_members, hnames]
    exact (List.nodup_append.mp (nodup_files_append h.laid.unique)).1
  · intro m hm
    obtain ⟨p, hp, hname, -⟩ := hstands.locates hm
    obtain ⟨-, o, ho, holabel, -⟩ := hlabelled p hp
    rw [hname, ← holabel]
    exact h.laid.survive o (List.mem_filter.mp ho).1
  · -- the old member of that name held what was packed under it
    intro m hm
    obtain ⟨p, hp, hname, entry, hentry, hlocates, -⟩ := hstands.locates hm
    obtain ⟨-, o, ho, holabel, hcontents⟩ := hlabelled p hp
    obtain ⟨ho, hfile⟩ := List.mem_filter.mp ho
    obtain ⟨octets, hcatalog, hoctets⟩ := (h.laid.held o ho).contents (by simpa using hfile)
    obtain rfl := Except.ok.inj (hcontents.symm.trans hoctets)
    simp only [Member.Held, hentry, hname]
    exact ⟨_, holabel ▸ hcatalog, hlocates⟩
  · -- an old member that was not packed is one being made, which the catalog lacks too
    intro name habsent
    have hnone : ∀ m ∈ archive.members, m.name = name → catalog name = none := by
      rintro m hm rfl
      by_cases hcreated : m.isCreated = true
      · exact (h.laid.held m hm).of_isCreated hcreated
      · have hfile : m.name ∈ archive.files.map (·.name) :=
          List.mem_map_of_mem (List.mem_filter.mpr ⟨hm, by simpa using hcreated⟩)
        rw [← hnames, ← Packing.map_name_members, List.mem_map] at hfile
        obtain ⟨m', hm', hname⟩ := hfile
        exact absurd hname (habsent m' hm')
    by_cases hmember : ∃ m ∈ archive.members, m.name = name
    · obtain ⟨m, hm, hname⟩ := hmember
      exact hnone m hm hname
    · exact h.laid.absent name fun m hm hname => hmember ⟨m, hm, hname⟩
  · exact fun a ha b hb hne => Member.apart_of_pairwise hstands.pairwise ha hb hne
  · -- all names stand in front of all contents
    intro a ha b hb
    obtain ⟨-, -, -, entry, hentry, -, -, hstart, -⟩ := hstands.locates ha
    obtain ⟨-, -, -, entry', hentry', -, hend, -⟩ := hstands.locates hb
    simp only [Member.dataSpan, Member.nameSpan, hentry, hentry']
    exact .inr (.inr (.inr (Nat.le_trans hend hstart)))

/-- In a packed file, all files are in front of the index, those without contents as well. -/
theorem placed_of_handOver {members : List Member}
    (hlabelled : ∀ p ∈ labelled, Change.storedName encoding p.1 = .ok p.2.name)
    (hsmall : (Packing.image unknown (labelled.map (·.2))).length < UInt32.size) :
    ∀ m ∈ (members.foldl Change.handOver (Packing.members ArchiveHeader.size
        (Packing.contentsOffset (labelled.map (·.2))) labelled)).filter (!·.isCreated),
      m.residence = .stored m.entry
        ∧ m.entry.dataEnd ≤ (Packing.header unknown (labelled.map (·.2))).indexOffset.toNat := by
  intro m hm
  obtain ⟨o, ho, heq⟩ := Member.exists_of_map_core_eq Change.map_core_files_handOver hm
  obtain ⟨-, -, -, entry, hentry, -, -, -, hend⟩ :=
    (Packing.stands_image hsmall hlabelled).locates ho
  have heq' : m.entry = entry := by rw [← Member.entry_of_core_eq heq, Member.entry, hentry]
  rw [heq', ← (Member.core_eq_iff.mp heq).2]
  refine ⟨hentry, Nat.le_trans hend ?_⟩
  rw [Packing.toNat_indexOffset hsmall]
  exact Nat.le_refl _

/-- Packed anew, an archive has what it had, and its index lists it. -/
theorem Intact.repack (h : archive.Intact file mode encoding catalog)
    (hnames : labelled.map (·.1) = archive.files.map (·.name))
    (hlabelled : ∀ p ∈ labelled, Change.storedName encoding p.1 = .ok p.2.name
      ∧ ∃ m ∈ archive.files, m.name = p.1 ∧ m.contents file = .ok p.2.contents)
    (hsmall : (Packing.image unknown (labelled.map (·.2))).length < UInt32.size) :
    Intact { archive with
        header := Packing.header unknown (labelled.map (·.2))
        members := archive.members.foldl Change.handOver (Packing.members ArchiveHeader.size
          (Packing.contentsOffset (labelled.map (·.2))) labelled)
        dirty := false }
      (Packing.image unknown (labelled.map (·.2))) mode encoding catalog
    ∧ ListedIn { archive with
        header := Packing.header unknown (labelled.map (·.2))
        members := archive.members.foldl Change.handOver (Packing.members ArchiveHeader.size
          (Packing.contentsOffset (labelled.map (·.2))) labelled)
        dirty := false }
      (Packing.image unknown (labelled.map (·.2))) := by
  have hstands := Packing.stands_image hsmall fun p hp => (hlabelled p hp).1
  have hlaid := h.laid_members hnames hlabelled hsmall
  have hend := Packing.indexEnd_header hsmall
  have hregion := Packing.region_index hsmall
  have hoffset : (Packing.header unknown (labelled.map (·.2))).indexOffset.toNat
      = Packing.indexOffset (labelled.map (·.2)) := Packing.toNat_indexOffset hsmall
  -- first without the old handles, which change neither residences nor places
  generalize hreloaded : Packing.members ArchiveHeader.size
    (Packing.contentsOffset (labelled.map (·.2))) labelled = reloaded at hlaid hregion ⊢
  have hstored : ∀ m ∈ reloaded, ∃ entry, m.residence = .stored entry
      ∧ entry.nameEnd ≤ Packing.indexOffset (labelled.map (·.2))
      ∧ entry.dataEnd ≤ Packing.indexOffset (labelled.map (·.2)) := by
    intro m hm
    obtain ⟨-, -, -, entry, hentry, -, hname, -, hdata⟩ := hstands.locates (hreloaded ▸ hm)
    refine ⟨entry, hentry, Nat.le_trans hname ?_, hdata⟩
    rw [Packing.indexOffset, Packing.contentsOffset]
    omega
  have hmade : ∀ m ∈ archive.members.filter (·.isCreated),
      m.residence = .created ∧ encoding.Survives m.name := by
    intro m hm
    obtain ⟨hm, hcreated⟩ := List.mem_filter.mp hm
    exact ⟨by simpa [Member.isCreated] using hcreated, h.laid.survive m hm⟩
  have hfiles : (reloaded ++ archive.members.filter (·.isCreated)).filter (!·.isCreated)
      = reloaded := by
    rw [List.filter_append, ← hreloaded, Packing.filter_members, List.filter_filter]
    simp
  have hunique : ((reloaded ++ archive.members.filter (·.isCreated)).map (·.name)).Nodup := by
    rw [List.map_append, ← hreloaded, Packing.map_name_members, hnames]
    exact nodup_files_append h.laid.unique
  have hlisted : ListedIn { archive with
        header := Packing.header unknown (labelled.map (·.2))
        members := reloaded ++ archive.members.filter (·.isCreated)
        dirty := false }
      (Packing.image unknown (labelled.map (·.2))) := by
    refine ⟨Nat.le_of_eq hend, ?_⟩
    simp only [Change.indexOctets, files, hfiles]
    exact hregion
  have hbase : Intact { archive with
        header := Packing.header unknown (labelled.map (·.2))
        members := reloaded ++ archive.members.filter (·.isCreated)
        dirty := false }
      (Packing.image unknown (labelled.map (·.2))) mode encoding catalog := by
    refine ⟨h.mode_eq, h.encoding_eq, hlaid.append_created hmade hunique,
      ⟨Packing.header_isPrefix_image _, rfl, rfl, ?_, ?_, fun _ _ => hlisted⟩, ?_⟩
    · refine .inr ⟨?_, Nat.le_of_eq hend⟩
      simp only [ArchiveHeader.indexSpan, hoffset, Packing.indexOffset, Packing.contentsOffset]
      omega
    · intro m hm
      simp only [ArchiveHeader.indexSpan, hoffset]
      rcases List.mem_append.mp hm with hm | hm
      · -- names and contents end where the index begins
        obtain ⟨entry, hentry, hname, hdata⟩ := hstored m hm
        simp only [Member.nameSpan, Member.dataSpan, hentry]
        exact ⟨.inr (.inr (.inr hname)), .inr (.inr (.inr hdata))⟩
      · simp only [Member.nameSpan, Member.dataSpan, (hmade m hm).1]
        exact ⟨.inr (.inl (Nat.le_refl 0)), .inr (.inl (Nat.le_refl 0))⟩
    · intro _ m hm unknown octets
      rcases List.mem_append.mp hm with hm | hm
      · obtain ⟨entry, hentry, -⟩ := hstored m hm
        simp [hentry]
      · simp [(hmade m hm).1]
  have hcore : (archive.members.foldl Change.handOver reloaded).map Member.core
      = (reloaded ++ archive.members.filter (·.isCreated)).map Member.core := by
    rw [Change.map_core_handOver, List.map_append]
  exact ⟨hbase.of_map_core_eq hcore, hlisted.of_files rfl
    (Member.flatMap_entry_of_map_core_eq (Member.map_core_files hcore))⟩

end Archive
end NovelScript
