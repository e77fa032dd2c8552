import NovelScript.Proofs.Archive.Members
import NovelScript.Proofs.Archive.Regions
import NovelScript.Proofs.Text.Survival

/-!
# Where an archive keeps its files

A `Catalog` says which files an archive should have, and with what contents.  Members are `Laid` in
a file for a catalog if each is in memory or in the file with what the catalog says of its name, and
no contents share an octet with other contents or with a name.  The archive is `Indexed` if header
and index are apart from all that, and if the index in the file lists the files unless there are
changes.

## Shape of a save

A save changes the file behind a limit.  Whatever lies below the limit stays laid
(`Laid.refile`), and the member that is saved goes behind it (`Laid.save`).
-/

namespace NovelScript

/-- The files that an archive should have, with their contents. -/
abbrev Catalog := String → Option Bytes

namespace Catalog

/-- No files. -/
def empty : Catalog := fun _ => none

/-- A file is there with these contents. -/
def put (catalog : Catalog) (name : String) (octets : Bytes) : Catalog :=
  fun other => if other = name then some octets else catalog other

/-- A file is gone. -/
def remove (catalog : Catalog) (name : String) : Catalog :=
  fun other => if other = name then none else catalog other

variable {catalog : Catalog} {name other : String} {octets : Bytes}

@[simp] theorem put_self : catalog.put name octets name = some octets := if_pos rfl

theorem put_of_ne (h : other ≠ name) : catalog.put name octets other = catalog other := if_neg h

@[simp] theorem remove_self : catalog.remove name name = none := if_pos rfl

theorem remove_of_ne (h : other ≠ name) : catalog.remove name other = catalog other := if_neg h

/-- A file that has these contents is not changed by them. -/
theorem put_eq_self (h : catalog name = some octets) : catalog.put name octets = catalog := by
  funext other
  by_cases hother : other = name
  · rw [hother, put_self, h]
  · exact put_of_ne hother

/-- Nothing is gone where nothing was. -/
theorem remove_eq_self (h : catalog name = none) : catalog.remove name = catalog := by
  funext other
  by_cases hother : other = name
  · rw [hother, remove_self, h]
  · exact remove_of_ne hother

end Catalog

/-! ## What is where -/

/-- The place of the index. -/
def ArchiveHeader.indexSpan (header : ArchiveHeader) : Span :=
  ⟨header.indexOffset.toNat, header.indexEnd⟩

namespace IndexEntry

/-- The place of the name. -/
def nameSpan (entry : IndexEntry) : Span := ⟨entry.nameOffset.toNat, entry.nameEnd⟩

/-- The place of the contents. -/
def dataSpan (entry : IndexEntry) : Span := ⟨entry.dataOffset.toNat, entry.dataEnd⟩

/-- The entry is that of a file in a place of its own: name and contents are read where it says. -/
structure Locates (entry : IndexEntry) (encoding : Encoding) (file : Bytes) (name : String)
    (octets : Bytes) : Prop where
  name : ∃ stored, Change.storedName encoding name = .ok stored
    ∧ region file entry.nameOffset.toNat entry.nameLength.toNat = .ok stored
  data : region file entry.dataOffset.toNat entry.dataLength.toNat = .ok octets
  nameBehind : ArchiveHeader.size ≤ entry.nameOffset.toNat
  dataBehind : ArchiveHeader.size ≤ entry.dataOffset.toNat ∨ entry.dataLength.toNat = 0

variable {entry : IndexEntry} {encoding : Encoding} {file file' octets : Bytes} {name : String}
  {limit : Nat}

theorem Locates.nameInside (h : entry.Locates encoding file name octets) :
    entry.nameSpan.Inside file.length := by
  obtain ⟨stored, -, hregion⟩ := h.name
  have hbehind := h.nameBehind
  by_cases hpos : 0 < entry.nameLength.toNat
  · exact .inr ⟨hbehind, le_of_region_eq_ok hregion hpos⟩
  · exact .inl (by simp only [nameSpan, nameEnd]; omega)

theorem Locates.dataInside (h : entry.Locates encoding file name octets) :
    entry.dataSpan.Inside file.length := by
  by_cases hpos : 0 < entry.dataLength.toNat
  · refine .inr ⟨h.dataBehind.resolve_right (by omega), le_of_region_eq_ok h.data hpos⟩
  · exact .inl (by simp only [dataSpan, dataEnd]; omega)

theorem Locates.refile (h : entry.Locates encoding file name octets)
    (hkeeps : Keeps file file' limit) (hname : entry.nameSpan.Below limit)
    (hdata : entry.dataSpan.Below limit) : entry.Locates encoding file' name octets where
  name := by
    obtain ⟨stored, hstored, hregion⟩ := h.name
    refine ⟨stored, hstored, hkeeps.region_eq_ok hregion (.inl h.nameBehind) ?_⟩
    simp only [Span.Below, nameSpan, nameEnd] at hname
    omega
  data := by
    refine hkeeps.region_eq_ok h.data h.dataBehind ?_
    simp only [Span.Below, dataSpan, dataEnd] at hdata
    omega
  nameBehind := h.nameBehind
  dataBehind := h.dataBehind

end IndexEntry

namespace Member

/-- The place of the name in the file. -/
def nameSpan (m : Member) : Span :=
  match m.residence with
  | .stored entry => entry.nameSpan
  | _ => ⟨0, 0⟩

/-- The place of the contents in the file. -/
def dataSpan (m : Member) : Span :=
  match m.residence with
  | .stored entry => entry.dataSpan
  | _ => ⟨0, 0⟩

/-- The catalog agrees with what the member has, in memory or in the file. -/
def Held (encoding : Encoding) (file : Bytes) (catalog : Catalog) (m : Member) : Prop :=
  match m.residence with
  | .created => catalog m.name = none
  | .buffered _ octets => catalog m.name = some octets
  | .stored entry => ∃ octets, catalog m.name = some octets
      ∧ entry.Locates encoding file m.name octets

variable {encoding : Encoding} {file file' octets : Bytes} {catalog catalog' : Catalog}
  {m m' : Member} {limit : Nat}

theorem nameSpan_of_core_eq (h : m.core = m'.core) : m.nameSpan = m'.nameSpan := by
  rw [nameSpan, nameSpan, (core_eq_iff.mp h).2]

theorem dataSpan_of_core_eq (h : m.core = m'.core) : m.dataSpan = m'.dataSpan := by
  rw [dataSpan, dataSpan, (core_eq_iff.mp h).2]

theorem Held.of_core_eq (hheld : m.Held encoding file catalog) (h : m.core = m'.core) :
    m'.Held encoding file catalog := by
  obtain ⟨hname, hresidence⟩ := core_eq_iff.mp h
  unfold Held at *
  rwa [← hname, ← hresidence]

theorem Held.of_catalog (h : m.Held encoding file catalog)
    (hcatalog : catalog' m.name = catalog m.name) : m.Held encoding file catalog' := by
  unfold Held at *
  rwa [hcatalog]

theorem Held.inside (h : m.Held encoding file catalog) :
    m.nameSpan.Inside file.length ∧ m.dataSpan.Inside file.length := by
  cases hresidence : m.residence with
  | created | buffered _ _ =>
    simp only [nameSpan, dataSpan, hresidence]
    exact ⟨.inl (Nat.le_refl 0), .inl (Nat.le_refl 0)⟩
  | stored entry =>
    simp only [Held, hresidence] at h
    simp only [nameSpan, dataSpan, hresidence]
    obtain ⟨octets, -, hlocates⟩ := h
    exact ⟨hlocates.nameInside, hlocates.dataInside⟩

theorem Held.refile (h : m.Held encoding file catalog) (hkeeps : Keeps file file' limit)
    (hname : m.nameSpan.Below limit) (hdata : m.dataSpan.Below limit) :
    m.Held encoding file' catalog := by
  cases hresidence : m.residence with
  | created | buffered _ _ =>
    simp only [Held, hresidence] at h ⊢
    exact h
  | stored entry =>
    simp only [Held, hresidence] at h ⊢
    simp only [nameSpan, hresidence] at hname
    simp only [dataSpan, hresidence] at hdata
    obtain ⟨octets, hcatalog, hlocates⟩ := h
    exact ⟨octets, hcatalog, hlocates.refile hkeeps hname hdata⟩

/-- A member that counts as a file has the contents that the catalog has for its name. -/
theorem Held.contents (h : m.Held encoding file catalog) (hm : m.isCreated = false) :
    ∃ octets, catalog m.name = some octets ∧ m.contents file = .ok octets := by
  cases hresidence : m.residence with
  | created => simp [isCreated, hresidence] at hm
  | buffered _ octets =>
    simp only [Held, hresidence] at h
    simp only [Member.contents, hresidence]
    exact ⟨octets, h, rfl⟩
  | stored entry =>
    simp only [Held, hresidence] at h
    simp only [Member.contents, hresidence]
    obtain ⟨octets, hcatalog, hlocates⟩ := h
    exact ⟨octets, hcatalog, hlocates.data⟩

theorem Held.of_isCreated (h : m.Held encoding file catalog) (hm : m.isCreated = true) :
    catalog m.name = none := by
  have hresidence : m.residence = .created := by simpa [isCreated] using hm
  unfold Held at h
  rwa [hresidence] at h

/-- Where contents share no octet pair by pair, those of any two names do not. -/
theorem apart_of_pairwise {members : List Member}
    (h : members.Pairwise fun a b => a.dataSpan.Apart b.dataSpan) (hm : m ∈ members)
    (hm' : m' ∈ members) (hne : m.name ≠ m'.name) : m.dataSpan.Apart m'.dataSpan := by
  have hall : ∀ ⦃a⦄, a ∈ members → ∀ ⦃b⦄, b ∈ members → a = b ∨ a.dataSpan.Apart b.dataSpan :=
    List.Pairwise.forall_of_forall_of_flip (fun _ _ => .inl rfl) (h.imp .inr)
      (h.imp fun hapart => .inr hapart.symm)
  exact (hall hm hm').resolve_left fun heq => hne (congrArg Member.name heq)

/-- Saved behind the limit, the member is in this residence with these contents.  Its name or its
contents may stay where they were. -/
structure SavedAs (m : Member) (residence : Residence) (encoding : Encoding) (file octets : Bytes)
    (limit : Nat) : Prop where
  held : ∀ catalog : Catalog, catalog m.name = some octets →
    Held encoding file catalog { m with residence }
  data : (dataSpan { m with residence }).Above limit ∨ dataSpan { m with residence } = m.dataSpan
  name : (nameSpan { m with residence }).Above limit ∨ nameSpan { m with residence } = m.nameSpan
  own : (dataSpan { m with residence }).Apart (nameSpan { m with residence })

/-- What is below the limit and apart from the old contents is apart from the new ones. -/
theorem SavedAs.apart_data {residence : Residence} {span : Span}
    (h : m.SavedAs residence encoding file octets limit) (hbelow : span.Below limit)
    (hapart : span.Apart m.dataSpan) : span.Apart (dataSpan { m with residence }) := by
  rcases h.data with hdata | hdata
  · exact hbelow.apart hdata
  · rwa [hdata]

/-- What is below the limit and apart from the old name is apart from the new one. -/
theorem SavedAs.apart_name {residence : Residence} {span : Span}
    (h : m.SavedAs residence encoding file octets limit) (hbelow : span.Below limit)
    (hapart : span.Apart m.nameSpan) : span.Apart (nameSpan { m with residence }) := by
  rcases h.name with hname | hname
  · exact hbelow.apart hname
  · rwa [hname]

end Member

/-! ## Members in their places -/

/-- The members have the files of the catalog, in places that share no octet. -/
structure Laid (encoding : Encoding) (file : Bytes) (members : List Member) (catalog : Catalog) :
    Prop where
  unique : (members.map (·.name)).Nodup
  survive : ∀ m ∈ members, encoding.Survives m.name
  held : ∀ m ∈ members, m.Held encoding file catalog
  absent : ∀ name, (∀ m ∈ members, m.name ≠ name) → catalog name = none
  dataApart : ∀ m ∈ members, ∀ m' ∈ members, m.name ≠ m'.name → m.dataSpan.Apart m'.dataSpan
  nameApart : ∀ m ∈ members, ∀ m' ∈ members, m.dataSpan.Apart m'.nameSpan

namespace Laid

variable {encoding : Encoding} {file file' octets : Bytes} {members members' : List Member}
  {catalog : Catalog} {m : Member} {name : String} {limit : Nat}

/-- Another file holds the members as well if it keeps what lies below a limit and they do. -/
theorem refile (h : Laid encoding file members catalog) (hkeeps : Keeps file file' limit)
    (hbelow : ∀ m ∈ members, m.nameSpan.Below limit ∧ m.dataSpan.Below limit) :
    Laid encoding file' members catalog where
  unique := h.unique
  survive := h.survive
  held m hm := (h.held m hm).refile hkeeps (hbelow m hm).1 (hbelow m hm).2
  absent := h.absent
  dataApart := h.dataApart
  nameApart := h.nameApart

/-- Every member lies below the end of the file. -/
theorem below (h : Laid encoding file members catalog) :
    ∀ m ∈ members, m.nameSpan.Below file.length ∧ m.dataSpan.Below file.length := by
  intro m hm
  obtain ⟨hname, hdata⟩ := (h.held m hm).inside
  exact ⟨hname.below, hdata.below⟩

/-- Handles are no part of the layout. -/
theorem of_map_core_eq (h : Laid encoding file members catalog)
    (hcore : members'.map Member.core = members.map Member.core) :
    Laid encoding file members' catalog where
  unique := Member.map_name_of_map_core_eq hcore ▸ h.unique
  survive m' hm' := by
    obtain ⟨m, hm, heq⟩ := Member.exists_of_map_core_eq hcore hm'
    exact (Member.core_eq_iff.mp heq).1 ▸ h.survive m hm
  held m' hm' := by
    obtain ⟨m, hm, heq⟩ := Member.exists_of_map_core_eq hcore hm'
    exact (h.held m hm).of_core_eq heq
  absent name hname := by
    refine h.absent name fun m hm => ?_
    obtain ⟨m', hm', heq⟩ := Member.exists_of_map_core_eq hcore.symm hm
    exact (Member.core_eq_iff.mp heq).1 ▸ hname m' hm'
  dataApart a' ha' b' hb' hne := by
    obtain ⟨a, ha, haeq⟩ := Member.exists_of_map_core_eq hcore ha'
    obtain ⟨b, hb, hbeq⟩ := Member.exists_of_map_core_eq hcore hb'
    rw [← (Member.core_eq_iff.mp haeq).1, ← (Member.core_eq_iff.mp hbeq).1] at hne
    rw [← Member.dataSpan_of_core_eq haeq, ← Member.dataSpan_of_core_eq hbeq]
    exact h.dataApart a ha b hb hne
  nameApart a' ha' b' hb' := by
    obtain ⟨a, ha, haeq⟩ := Member.exists_of_map_core_eq hcore ha'
    obtain ⟨b, hb, hbeq⟩ := Member.exists_of_map_core_eq hcore hb'
    rw [← Member.dataSpan_of_core_eq haeq, ← Member.nameSpan_of_core_eq hbeq]
    exact h.nameApart a ha b hb

/-- Without a member, the catalog has lost its file. -/
theorem eraseP (h : Laid encoding file members catalog) (name : String) :
    Laid encoding file (members.eraseP (·.name == name)) (catalog.remove name) := by
  have hmem : ∀ {m}, m ∈ members.eraseP (·.name == name) → m ∈ members ∧ m.name ≠ name :=
    (Member.mem_eraseP_iff h.unique).mp
  refine ⟨?_, ?_, ?_, ?_, ?_, ?_⟩
  · exact h.unique.sublist (List.eraseP_sublist.map _)
  · intro m hm
    exact h.survive m (hmem hm).1
  · intro m hm
    exact (h.held m (hmem hm).1).of_catalog (Catalog.remove_of_ne (hmem hm).2)
  · intro other hother
    by_cases hname : other = name
    · rw [hname, Catalog.remove_self]
    · rw [Catalog.remove_of_ne hname]
      refine h.absent other fun m hm he => ?_
      exact hother m ((Member.mem_eraseP_iff h.unique).mpr ⟨hm, he ▸ hname⟩) he
  · intro m hm m' hm'
    exact h.dataApart m (hmem hm).1 m' (hmem hm').1
  · intro m hm m' hm'
    exact h.nameApart m (hmem hm).1 m' (hmem hm').1

/-- A member that is made has no place in the file yet. -/
theorem concat (h : Laid encoding file members catalog) (hm : m.residence = .created)
    (hname : ∀ m' ∈ members, m'.name ≠ m.name) (hsurvives : encoding.Survives m.name) :
    Laid encoding file (members ++ [m]) catalog := by
  -- an empty span is apart from every other
  have hnone : m.nameSpan = ⟨0, 0⟩ ∧ m.dataSpan = ⟨0, 0⟩ := by
    simp [Member.nameSpan, Member.dataSpan, hm]
  have hmem : ∀ {m'}, m' ∈ members ++ [m] → m' ∈ members ∨ m' = m := by
    intro m' hm'
    simpa using hm'
  refine ⟨?_, ?_, ?_, ?_, ?_, ?_⟩
  · rw [List.map_append, List.nodup_append]
    refine ⟨h.unique, by simp, ?_⟩
    intro a ha b hb
    obtain ⟨m', hm', rfl⟩ := List.mem_map.mp ha
    obtain rfl : b = m.name := by simpa using hb
    exact hname m' hm'
  · intro m' hm'
    rcases hmem hm' with hm' | rfl
    · exact h.survive m' hm'
    · exact hsurvives
  · intro m' hm'
    rcases hmem hm' with hm' | rfl
    · exact h.held m' hm'
    · unfold Member.Held
      rw [hm]
      exact h.absent m'.name hname
  · intro name habsent
    exact h.absent name fun m' hm' => habsent m' (List.mem_append_left _ hm')
  · intro a ha b hb hne
    rcases hmem ha with ha | rfl
    · rcases hmem hb with hb | rfl
      · exact h.dataApart a ha b hb hne
      · rw [hnone.2]
        exact .inr (.inl (Nat.le_refl 0))
    · rw [hnone.2]
      exact .inl (Nat.le_refl 0)
  · intro a ha b hb
    rcases hmem ha with ha | rfl
    · rcases hmem hb with hb | rfl
      · exact h.nameApart a ha b hb
      · rw [hnone.1]
        exact .inr (.inl (Nat.le_refl 0))
    · rw [hnone.2]
      exact .inl (Nat.le_refl 0)

/-- Members that are made have no place in the file yet. -/
theorem append_created {made : List Member} (h : Laid encoding file members catalog)
    (hmade : ∀ m ∈ made, m.residence = .created ∧ encoding.Survives m.name)
    (hunique : ((members ++ made).map (·.name)).Nodup) :
    Laid encoding file (members ++ made) catalog := by
  induction made generalizing members with
  | nil => simpa using h
  | cons m rest ih =>
    obtain ⟨⟨hcreated, hsurvives⟩, hrest⟩ := List.forall_mem_cons.mp hmade
    have hnew : ∀ m' ∈ members, m'.name ≠ m.name := by
      rw [List.map_append, List.nodup_append] at hunique
      intro m' hm'
      exact hunique.2.2 m'.name (List.mem_map_of_mem hm') m.name (by simp)
    rw [← List.singleton_append, ← List.append_assoc] at hunique ⊢
    exact ih (h.concat hcreated hnew hsurvives) hrest hunique

/-- A member is saved behind the limit, where all other members are below it. -/
theorem save (h : Laid encoding file members catalog) (hm : m ∈ members)
    {residence : Residence} (hkeeps : Keeps file file' limit)
    (hbelow : ∀ o ∈ members, o.name ≠ m.name → o.nameSpan.Below limit ∧ o.dataSpan.Below limit)
    (hsaved : m.SavedAs residence encoding file' octets limit) :
    Laid encoding file' (Member.change m.name (fun o => { o with residence }) members)
      (catalog.put m.name octets) := by
  -- every member is an old one of another name or the saved one
  have hmem : ∀ {m'}, m' ∈ Member.change m.name (fun o => { o with residence }) members →
      m' ∈ members ∧ m'.name ≠ m.name ∨ m' = { m with residence } := by
    intro m' hm'
    rcases (Member.mem_change_iff h.unique).mp hm' with hm' | ⟨o, ho, hname, rfl⟩
    · exact .inl hm'
    · exact .inr (by rw [Member.eq_of_name_eq h.unique ho hm hname])
  have hnamed : ∀ o : Member, ({ o with residence } : Member).name = o.name := fun _ => rfl
  refine ⟨?_, ?_, ?_, ?_, ?_, ?_⟩
  · rw [Member.map_name_change hnamed]
    exact h.unique
  · intro m' hm'
    rcases hmem hm' with ⟨hm', -⟩ | rfl
    · exact h.survive m' hm'
    · exact h.survive m hm
  · intro m' hm'
    rcases hmem hm' with ⟨hm', hne⟩ | rfl
    · -- the others lie below the limit, where the file is as it was
      obtain ⟨hname, hdata⟩ := hbelow m' hm' hne
      exact ((h.held m' hm').refile hkeeps hname hdata).of_catalog (Catalog.put_of_ne hne)
    · exact hsaved.held _ Catalog.put_self
  · intro name habsent
    have hne : name ≠ m.name := by
      rintro rfl
      refine habsent { m with residence } ?_ rfl
      exact (Member.mem_change_iff h.unique).mpr (.inr ⟨m, hm, rfl, rfl⟩)
    rw [Catalog.put_of_ne hne]
    refine h.absent name fun o ho => ?_
    by_cases ho' : o.name = m.name
    · exact ho' ▸ hne.symm
    · exact habsent o ((Member.mem_change_iff h.unique).mpr (.inl ⟨ho, ho'⟩))
  · intro a ha b hb hne
    rcases hmem ha with ⟨ha, hane⟩ | rfl
    · rcases hmem hb with ⟨hb, -⟩ | rfl
      · exact h.dataApart a ha b hb hne
      · exact hsaved.apart_data (hbelow a ha hane).2 (h.dataApart a ha m hm hne)
    · rcases hmem hb with ⟨hb, hbne⟩ | rfl
      · exact (hsaved.apart_data (hbelow b hb hbne).2 (h.dataApart b hb m hm hbne)).symm
      · exact absurd rfl hne
  · intro a ha b hb
    rcases hmem ha with ⟨ha, hane⟩ | rfl
    · rcases hmem hb with ⟨hb, -⟩ | rfl
      · exact h.nameApart a ha b hb
      · exact hsaved.apart_name (hbelow a ha hane).2 (h.nameApart a ha m hm)
    · rcases hmem hb with ⟨hb, hbne⟩ | rfl
      · exact (hsaved.apart_data (hbelow b hb hbne).1 (h.nameApart m hm b hb).symm).symm
      · exact hsaved.own

end Laid
end NovelScript
