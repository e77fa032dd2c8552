import NovelScript.Archive.Store

/-!
# Members by name

The members of an archive are found, changed and taken out by name, always the first of a name.
Where no name comes twice, that is the only one: `Member.mem_change_iff` and `Member.mem_eraseP_iff`
say what is a member afterwards.  What a change leaves of the index depends only on names and
residences, the *core* of a member.
-/

namespace NovelScript
namespace Member

variable {name other : String} {f : Member → Member} {m m' : Member}
  {members members' : List Member}

/-- A member without the handles on it. -/
def core (m : Member) : String × Residence := (m.name, m.residence)

theorem core_eq_iff : m.core = m'.core ↔ m.name = m'.name ∧ m.residence = m'.residence := by
  simp [core]

/-! ## Members of a name -/

theorem find?_eq_none_iff :
    members.find? (·.name == name) = none ↔ ∀ m ∈ members, m.name ≠ name := by
  simp [List.find?_eq_none]

theorem find?_eq_some (h : members.find? (·.name == name) = some m) :
    m ∈ members ∧ m.name = name :=
  ⟨List.mem_of_find?_eq_some h, by simpa using List.find?_some h⟩

/-- Where no name comes twice, a member is found by its name. -/
theorem find?_of_mem (hunique : (members.map (·.name)).Nodup) (hm : m ∈ members) :
    members.find? (·.name == m.name) = some m := by
  induction members with
  | nil => simp at hm
  | cons first rest ih =>
    obtain ⟨hfirst, hrest⟩ := List.nodup_cons.mp hunique
    rcases List.mem_cons.mp hm with rfl | hm
    · simp
    · have hne : first.name ≠ m.name := by
        intro he
        exact hfirst (List.mem_map.mpr ⟨m, hm, he.symm⟩)
      rw [List.find?_cons_of_neg (by simpa using hne)]
      exact ih hrest hm

/-- Where no name comes twice, members of one name are the same. -/
theorem eq_of_name_eq (hunique : (members.map (·.name)).Nodup) (hm : m ∈ members)
    (hm' : m' ∈ members) (h : m.name = m'.name) : m = m' := by
  have hfind := find?_of_mem hunique hm
  rw [h, find?_of_mem hunique hm'] at hfind
  exact (Option.some.inj hfind).symm

/-! ## Changing a member -/

/-- A change that leaves something of every member leaves it of all of them in order. -/
theorem map_change {α : Type} {g : Member → α} (hf : ∀ m, g (f m) = g m) :
    (change name f members).map g = members.map g := by
  induction members with
  | nil => rfl
  | cons first rest ih =>
    rw [change]
    split
    · simp [hf]
    · simp [ih]

/-- What is left of the member that is changed is left of all members in order. -/
theorem map_change_of_find? {α : Type} {g : Member → α}
    (hfind : members.find? (·.name == name) = some m) (hf : g (f m) = g m) :
    (change name f members).map g = members.map g := by
  induction members with
  | nil => cases hfind
  | cons first rest ih =>
    by_cases hfirst : first.name = name
    · rw [List.find?_cons_of_pos (by simpa using hfirst)] at hfind
      obtain rfl := Option.some.inj hfind
      rw [change, if_pos hfirst, List.map_cons, List.map_cons, hf]
    · rw [List.find?_cons_of_neg (by simpa using hfirst)] at hfind
      rw [change, if_neg hfirst, List.map_cons, List.map_cons, ih hfind]

/-- Two changes are one if they do the same to the member that is found. -/
theorem change_congr {g : Member → Member}
    (hfind : members.find? (·.name == name) = some m) (h : f m = g m) :
    change name f members = change name g members := by
  induction members with
  | nil => rfl
  | cons first rest ih =>
    by_cases hfirst : first.name = name
    · rw [List.find?_cons_of_pos (by simpa using hfirst)] at hfind
      obtain rfl := Option.some.inj hfind
      rw [change, change, if_pos hfirst, if_pos hfirst, h]
    · rw [List.find?_cons_of_neg (by simpa using hfirst)] at hfind
      rw [change, change, if_neg hfirst, if_neg hfirst, ih hfind]

/-- A change that leaves the member that is found changes nothing. -/
theorem change_eq_self (hfind : members.find? (·.name == name) = some m) (h : f m = m) :
    change name f members = members := by
  have hmap := map_change_of_find? (g := id) hfind h
  rwa [List.map_id, List.map_id] at hmap

theorem map_name_change (hf : ∀ m, (f m).name = m.name) :
    (change name f members).map (·.name) = members.map (·.name) := map_change hf

theorem map_core_change (hf : ∀ m, (f m).core = m.core) :
    (change name f members).map core = members.map core := map_change hf

/-- A member that is changed is found again. -/
theorem find?_change (hf : ∀ m, (f m).name = m.name)
    (h : members.find? (·.name == name) = some m) :
    (change name f members).find? (·.name == name) = some (f m) := by
  induction members with
  | nil => cases h
  | cons first rest ih =>
    rw [change]
    by_cases hfirst : first.name = name
    · rw [List.find?_cons_of_pos (by simpa using hfirst)] at h
      obtain rfl := Option.some.inj h
      rw [if_pos hfirst, List.find?_cons_of_pos (by simpa [hf] using hfirst)]
    · rw [List.find?_cons_of_neg (by simpa using hfirst)] at h
      rw [if_neg hfirst, List.find?_cons_of_neg (by simpa using hfirst)]
      exact ih h

/-- Members of other names are found as before. -/
theorem find?_change_of_ne (hf : ∀ m, (f m).name = m.name) (h : other ≠ name) :
    (change name f members).find? (·.name == other) = members.find? (·.name == other) := by
  induction members with
  | nil => rfl
  | cons first rest ih =>
    rw [change]
    split
    · next hfirst =>
      have hne : first.name ≠ other := fun he => h (he.symm.trans hfirst)
      rw [List.find?_cons_of_neg (by simpa [hf] using hne),
        List.find?_cons_of_neg (by simpa using hne)]
    · rw [List.find?_cons, List.find?_cons, ih]

/-- Two changes of one name are one. -/
theorem change_change {g : Member → Member} (hf : ∀ m, (f m).name = m.name) :
    change name g (change name f members) = change name (fun m => g (f m)) members := by
  induction members with
  | nil => rfl
  | cons first rest ih =>
    by_cases hfirst : first.name = name
    · rw [change, if_pos hfirst, change, if_pos ((hf first).trans hfirst), change, if_pos hfirst]
    · rw [change, if_neg hfirst, change, if_neg hfirst, ih, change, if_neg hfirst]

/-- What is taken out need not be changed first. -/
theorem eraseP_change (hf : ∀ m, (f m).name = m.name) :
    (change name f members).eraseP (·.name == name) = members.eraseP (·.name == name) := by
  induction members with
  | nil => rfl
  | cons first rest ih =>
    by_cases hfirst : first.name = name
    · rw [change, if_pos hfirst, List.eraseP_cons_of_pos (by simpa [hf] using hfirst),
        List.eraseP_cons_of_pos (by simpa using hfirst)]
    · rw [change, if_neg hfirst, List.eraseP_cons_of_neg (by simpa using hfirst),
        List.eraseP_cons_of_neg (by simpa using hfirst), ih]

/-- Members of other names than the changed one are as before. -/
theorem mem_of_mem_change (h : m' ∈ change name f members) :
    m' ∈ members ∨ ∃ m ∈ members, m.name = name ∧ m' = f m := by
  induction members with
  | nil => exact .inl h
  | cons first rest ih =>
    rw [change] at h
    split at h
    · next hname =>
      rcases List.mem_cons.mp h with rfl | h
      · exact .inr ⟨first, List.mem_cons_self, hname, rfl⟩
      · exact .inl (List.mem_cons_of_mem _ h)
    · rcases List.mem_cons.mp h with rfl | h
      · exact .inl List.mem_cons_self
      · rcases ih h with h | ⟨m, hm, hname, rfl⟩
        · exact .inl (List.mem_cons_of_mem _ h)
        · exact .inr ⟨m, List.mem_cons_of_mem _ hm, hname, rfl⟩

/-- A change of a name that is not there changes nothing. -/
theorem change_of_forall_ne (h : ∀ m ∈ members, m.name ≠ name) :
    change name f members = members := by
  induction members with
  | nil => rfl
  | cons first rest ih =>
    obtain ⟨hfirst, hrest⟩ := List.forall_mem_cons.mp h
    rw [change, if_neg hfirst, ih hrest]

/-- Where no name comes twice, a change is done to every member of the name. -/
theorem change_eq_map (hunique : (members.map (·.name)).Nodup) :
    change name f members = members.map fun m => if m.name = name then f m else m := by
  induction members with
  | nil => rfl
  | cons first rest ih =>
    obtain ⟨hfirst, hrest⟩ := List.nodup_cons.mp hunique
    rw [change, List.map_cons]
    split
    · next heq =>
      have hne : ∀ m ∈ rest, m.name ≠ name := by
        rintro m hm rfl
        exact hfirst (List.mem_map.mpr ⟨m, hm, heq.symm⟩)
      rw [← ih hrest, change_of_forall_ne hne]
    · rw [ih hrest]

theorem mem_change_iff (hunique : (members.map (·.name)).Nodup) :
    m' ∈ change name f members ↔
      m' ∈ members ∧ m'.name ≠ name ∨ ∃ m ∈ members, m.name = name ∧ m' = f m := by
  rw [change_eq_map hunique, List.mem_map]
  constructor
  · rintro ⟨m, hm, rfl⟩
    by_cases hname : m.name = name
    · exact .inr ⟨m, hm, hname, if_pos hname⟩
    · rw [if_neg hname]
      exact .inl ⟨hm, hname⟩
  · rintro (⟨hm, hname⟩ | ⟨m, hm, hname, rfl⟩)
    · exact ⟨m', hm, if_neg hname⟩
    · exact ⟨m, hm, if_pos hname⟩

/-- Where no name comes twice, taking out the first member of a name takes out all of them. -/
theorem eraseP_eq_filter (hunique : (members.map (·.name)).Nodup) :
    members.eraseP (·.name == name) = members.filter (·.name ≠ name) := by
  induction members with
  | nil => rfl
  | cons first rest ih =>
    obtain ⟨hfirst, hrest⟩ := List.nodup_cons.mp hunique
    by_cases hname : first.name = name
    · have hne : ∀ m ∈ rest, decide (m.name ≠ name) = true := by
        intro m hm
        simpa using fun he => hfirst (List.mem_map.mpr ⟨m, hm, he.trans hname.symm⟩)
      rw [List.eraseP_cons_of_pos (by simpa using hname),
        List.filter_cons_of_neg (by simpa using hname), List.filter_eq_self.mpr hne]
    · rw [List.eraseP_cons_of_neg (by simpa using hname),
        List.filter_cons_of_pos (by simpa using hname), ih hrest]

theorem mem_eraseP_iff (hunique : (members.map (·.name)).Nodup) :
    m ∈ members.eraseP (·.name == name) ↔ m ∈ members ∧ m.name ≠ name := by
  rw [eraseP_eq_filter hunique, List.mem_filter]
  simp

/-- Only members of the name are not found any more. -/
theorem find?_eraseP (hunique : (members.map (·.name)).Nodup) :
    (members.eraseP (·.name == name)).find? (·.name == other)
      = if other = name then none else members.find? (·.name == other) := by
  split
  · next heq =>
    rw [heq, find?_eq_none_iff]
    exact fun m hm => ((mem_eraseP_iff hunique).mp hm).2
  · next hne =>
    rw [eraseP_eq_filter hunique, List.find?_filter]
    congr 1
    funext m
    by_cases hm : m.name = other
    · simp [hm, hne]
    · simp [hm]

/-! ## What depends on the core alone -/

theorem isCreated_of_core_eq (h : m.core = m'.core) : m.isCreated = m'.isCreated := by
  rw [isCreated, isCreated, (core_eq_iff.mp h).2]

theorem entry_of_core_eq (h : m.core = m'.core) : m.entry = m'.entry := by
  rw [entry, entry, (core_eq_iff.mp h).2]

/-- Members that agree in order are related one by one. -/
theorem exists_of_map_eq {α : Type} {g : Member → α} (h : members'.map g = members.map g)
    (hm : m' ∈ members') : ∃ m ∈ members, g m = g m' := by
  have hmem : g m' ∈ members.map g := h ▸ List.mem_map_of_mem hm
  exact List.mem_map.mp hmem

theorem exists_of_map_core_eq (h : members'.map core = members.map core) (hm : m' ∈ members') :
    ∃ m ∈ members, m.core = m'.core := exists_of_map_eq h hm

theorem map_name_of_map_core_eq (h : members'.map core = members.map core) :
    members'.map (·.name) = members.map (·.name) := by
  simpa [core, Function.comp_def] using congrArg (List.map Prod.fst) h

/-- Members count as files alike if what they agree in says which of them do. -/
theorem map_files {α : Type} {g : Member → α} (hg : ∀ a b, g a = g b → a.isCreated = b.isCreated)
    (h : members'.map g = members.map g) :
    (members'.filter (!·.isCreated)).map g = (members.filter (!·.isCreated)).map g := by
  induction members generalizing members' with
  | nil =>
    obtain rfl := List.map_eq_nil_iff.mp h
    rfl
  | cons first rest ih =>
    obtain ⟨first', rest', rfl, hfirst, hrest⟩ := List.map_eq_cons_iff.mp h
    rw [List.filter_cons, List.filter_cons, hg _ _ hfirst]
    split
    · rw [List.map_cons, List.map_cons, hfirst, ih hrest]
    · exact ih hrest

theorem map_core_files (h : members'.map core = members.map core) :
    (members'.filter (!·.isCreated)).map core = (members.filter (!·.isCreated)).map core :=
  map_files (fun _ _ => isCreated_of_core_eq) h

/-- Members with the same cores are listed with the same octets. -/
theorem flatMap_entry_of_map_core_eq (h : members'.map core = members.map core) :
    (members'.flatMap fun m => m.entry.write) = members.flatMap fun m => m.entry.write := by
  induction members generalizing members' with
  | nil =>
    obtain rfl := List.map_eq_nil_iff.mp h
    rfl
  | cons first rest ih =>
    obtain ⟨first', rest', rfl, hfirst, hrest⟩ := List.map_eq_cons_iff.mp h
    rw [List.flatMap_cons, List.flatMap_cons, entry_of_core_eq hfirst, ih hrest]

/-! ## What does not depend on the place of the name -/

/-- A member without the handles on it, wherever its name stands in the file. -/
def gist (m : Member) : String × Residence :=
  (m.name, match m.residence with
    | .stored entry => .stored { entry with nameOffset := 0, nameLength := 0 }
    | residence => residence)

/-- A gist is its own gist. -/
theorem gist_gist (m : Member) : gist { name := m.gist.1, residence := m.gist.2 } = m.gist := by
  cases hm : m.residence <;> simp only [gist, hm]

theorem name_of_gist_eq (h : m.gist = m'.gist) : m.name = m'.name := congrArg Prod.fst h

/-- A member that agrees with one in the file but for the place of its name is in the file, with its
contents in the same place. -/
theorem stored_of_gist_eq {entry : IndexEntry} (h : m.gist = m'.gist)
    (hm : m.residence = .stored entry) :
    ∃ entry', m'.residence = .stored entry' ∧ entry'.dataOffset = entry.dataOffset
      ∧ entry'.dataLength = entry.dataLength := by
  have hresidence := congrArg Prod.snd h
  simp only [gist, hm] at hresidence
  cases hm' : m'.residence with
  | created | buffered _ _ =>
    rw [hm'] at hresidence
    cases hresidence
  | stored entry' =>
    rw [hm'] at hresidence
    have hentry := Residence.stored.inj hresidence
    simp only [IndexEntry.mk.injEq] at hentry
    exact ⟨entry', rfl, hentry.2.2.1.symm, hentry.2.2.2.1.symm⟩

/-- What is not in the file is not in one either. -/
theorem residence_of_gist_eq (h : m.gist = m'.gist) (hm : ∀ entry, m.residence ≠ .stored entry) :
    m'.residence = m.residence := by
  have hresidence := congrArg Prod.snd h
  simp only [gist] at hresidence
  split at hresidence
  · exact absurd hresidence (hm _)
  · exact hresidence.symm

theorem isCreated_of_gist_eq (h : m.gist = m'.gist) : m.isCreated = m'.isCreated := by
  cases hm : m.residence with
  | created | buffered _ _ =>
    rw [isCreated, isCreated, residence_of_gist_eq h (by simp [hm])]
  | stored entry =>
    obtain ⟨entry', hm', -⟩ := stored_of_gist_eq h hm
    rw [isCreated, isCreated, hm, hm']
    rfl

theorem map_gist_of_map_core_eq (h : members'.map core = members.map core) :
    members'.map gist = members.map gist := by
  have hgist : gist = fun m => gist { name := m.core.1, residence := m.core.2 } := rfl
  have hmap := congrArg (List.map fun c => gist { name := c.1, residence := c.2 }) h
  rwa [List.map_map, List.map_map] at hmap

theorem map_gist_files (h : members'.map gist = members.map gist) :
    (members'.filter (!·.isCreated)).map gist = (members.filter (!·.isCreated)).map gist :=
  map_files (fun _ _ => isCreated_of_gist_eq) h

theorem contents_of_gist_eq (h : m.gist = m'.gist) (file : Bytes) :
    m.contents file = m'.contents file := by
  cases hm : m.residence with
  | created | buffered _ _ => rw [contents, contents, residence_of_gist_eq h (by simp [hm])]
  | stored entry =>
    obtain ⟨entry', hm', hoffset, hlength⟩ := stored_of_gist_eq h hm
    simp only [contents, hm, hm', hoffset, hlength]

/-- Under an entry that differs in the place of the name alone, a member keeps its gist. -/
theorem gist_relist {entry : IndexEntry} (hoffset : entry.dataOffset = m.entry.dataOffset)
    (hlength : entry.dataLength = m.entry.dataLength) (hunknown : entry.unknown = m.entry.unknown) :
    (m.relist entry).gist = m.gist := by
  cases hm : m.residence with
  | created | buffered _ _ => simp only [relist, hm]
  | stored old => simp_all [relist, gist, Member.entry]

@[simp] theorem name_relist (entry : IndexEntry) (m : Member) :
    (m.relist entry).name = m.name := by
  unfold relist
  split <;> rfl

/-- The entry is of no account where the residence is replaced. -/
@[simp] theorem residence_relist (entry : IndexEntry) (residence : Residence) (m : Member) :
    ({ m.relist entry with residence } : Member) = { m with residence } := by
  unfold relist
  split <;> rfl

/-- A member without its place: its name, whether it is a file yet, and the handles on it. -/
def bearing (m : Member) : String × Bool × Nat × Bool := (m.name, m.isCreated, m.readers, m.writer)

/-- Members that bear alike in order are found alike. -/
theorem find?_of_map_bearing (h : members'.map bearing = members.map bearing) :
    (members'.find? (·.name == name)).map bearing
      = (members.find? (·.name == name)).map bearing := by
  have hname : (fun m : Member => m.name == name) = (fun b => b.1 == name) ∘ bearing := rfl
  rw [hname, ← List.find?_map, ← List.find?_map, h]

theorem bearing_relist (entry : IndexEntry) (m : Member) :
    (m.relist entry).bearing = m.bearing := by
  cases hm : m.residence with
  | created | buffered _ _ => simp only [relist, hm]
  | stored _ => rw [relist, hm, bearing, bearing, isCreated, isCreated, hm]; rfl

end Member
end NovelScript
