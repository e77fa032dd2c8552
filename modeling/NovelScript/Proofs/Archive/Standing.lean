import Mathlib.Logic.Function.Basic
import NovelScript.Archive.Session
import NovelScript.Proofs.Archive.Changes

/-!
# Who has the files of an archive

The `Standing` of a file is what its archive knows of the handles on it: how many read it, whether
one writes it, and whether it is only being made.  Handles name their file, so what counts is the
standing of each name (`Archive.standing`).  Every step of an archive changes at most the standing
of its own name, and flushing and packing change none, although packing reads all members anew.
-/

namespace NovelScript

/-- What an archive knows of the handles on a file. -/
structure Standing where
  readers : Nat
  writer : Bool
  /-- Whether the file is made by a handle that is not closed yet. -/
  created : Bool

namespace Standing

/-- How many handles of a kind are counted. -/
def count (st : Standing) : HandleKind → Nat
  | .reader => st.readers
  | .writer => st.writer.toNat

/-- The standing when the handle for writing is dropped; a file that was only being made is gone. -/
def dropped (st : Standing) : Option Standing :=
  if st.created then none else some { st with writer := false }

theorem writer_of_count_pos {st : Standing} (h : 0 < st.count .writer) : st.writer = true := by
  rw [count] at h
  cases hwriter : st.writer with
  | false => simp [hwriter] at h
  | true => rfl

/-- A file that is written is not read, and one that is being made is written. -/
structure Sound (st : Standing) : Prop where
  alone : st.writer = true → st.readers = 0
  made : st.created = true → st.writer = true

theorem Sound.of_idle {st : Standing} (hwriter : ¬ st.writer = true)
    (hcreated : ¬ st.created = true) : st.Sound :=
  ⟨fun h => absurd h hwriter, fun h => absurd h hcreated⟩

end Standing

/-- The standing of a member. -/
def Member.standing (m : Member) : Standing := ⟨m.readers, m.writer, m.isCreated⟩

theorem Member.isBusy_iff {m : Member} :
    m.isBusy = true ↔ m.standing.writer = true ∨ 0 < m.standing.readers := by
  simp [isBusy, standing]

namespace Archive

/-- The standing of the file of a name. -/
def standing (archive : Archive) (name : String) : Option Standing :=
  (archive.find? name).map Member.standing

/-- How many handles of a kind are counted on the file of a name. -/
def count (archive : Archive) (kind : HandleKind) (name : String) : Nat :=
  (archive.standing name).elim 0 (·.count kind)

/-- Members are told apart by names that survive, and no file is held by handles that exclude each
other. -/
structure Orderly (archive : Archive) (mode : SaveMode) (encoding : Encoding) : Prop
    extends archive.Named encoding where
  mode_eq : archive.mode = mode
  sound : ∀ name st, archive.standing name = some st → st.Sound

/-- One more handle is counted on the file of a name. -/
def Gains (kind : HandleKind) (name : String) (archive archive' : Archive) : Prop :=
  ∀ kind' name', archive'.count kind' name'
    = archive.count kind' name' + if kind = kind' ∧ name = name' then 1 else 0

variable {archive archive' : Archive} {members : List Member} {mode : SaveMode}
  {encoding : Encoding} {kind : HandleKind} {name : String} {st : Standing} {m : Member}
  {f : Member → Member}

theorem contains_eq : archive.contains name = (archive.standing name).any (!·.created) := by
  rw [contains, file?, standing]
  cases archive.find? name with
  | none => rfl
  | some m => cases hcreated : m.isCreated <;> simp [Member.standing, hcreated, Option.filter]

theorem contains_of_standing (h : archive.standing name = some st) :
    archive.contains name = !st.created := by
  rw [contains_eq, h, Option.any_some]

theorem standing_of_mem (hunique : (archive.members.map (·.name)).Nodup)
    (hm : m ∈ archive.members) : archive.standing m.name = some m.standing := by
  rw [standing, find?, Member.find?_of_mem hunique hm, Option.map_some]

theorem exists_of_standing (h : archive.standing name = some st) :
    ∃ m ∈ archive.members, m.name = name ∧ m.standing = st ∧ archive.find? name = some m := by
  obtain ⟨m, hfind, rfl⟩ := Option.map_eq_some_iff.mp h
  obtain ⟨hm, hname⟩ := Member.find?_eq_some hfind
  exact ⟨m, hm, hname, rfl, hfind⟩

/-- What is counted on a file has one. -/
theorem exists_of_count_pos (h : 0 < archive.count kind name) :
    ∃ st, archive.standing name = some st ∧ 0 < st.count kind := by
  rw [count] at h
  cases hst : archive.standing name with
  | none => simp [hst] at h
  | some st => exact ⟨st, rfl, by simpa [hst] using h⟩

theorem count_of_update {new : Option Standing} {other : String}
    (h : archive'.standing = Function.update archive.standing name new) :
    archive'.count kind other
      = if other = name then new.elim 0 (·.count kind) else archive.count kind other := by
  rw [count, h, Function.update_apply]
  split
  · rfl
  · rfl

theorem count_of_standing (hst : archive.standing name = some st) :
    archive.count kind name = st.count kind := by
  rw [count, hst, Option.elim_some]

/-- On a file that is not there, no handle is counted. -/
theorem count_of_getD (hst : (archive.standing name).getD ⟨0, false, true⟩ = st) :
    archive.count kind name = st.count kind := by
  rw [count]
  cases hold : archive.standing name with
  | none =>
    rw [hold, Option.getD_none] at hst
    subst hst
    cases kind
    · rfl
    · rfl
  | some old =>
    rw [hold, Option.getD_some] at hst
    rw [Option.elim_some, hst]

/-- A step that changes the standing of one file may count one more handle on it. -/
theorem gains_of_update {new : Option Standing}
    (h : archive'.standing = Function.update archive.standing name new)
    (hnew : ∀ kind', new.elim 0 (·.count kind')
      = archive.count kind' name + if kind = kind' then 1 else 0) :
    Gains kind name archive archive' := by
  intro kind' name'
  rw [count_of_update h]
  by_cases hname : name' = name
  · simp [hname, hnew kind']
  · rw [if_neg hname, if_neg fun heq => hname heq.2.symm, Nat.add_zero]

/-- A file that no handle is on is claimed for writing. -/
theorem gains_of_claim (hst : (archive.standing name).getD ⟨0, false, true⟩ = st)
    (hreaders : st.readers = 0) (hwriter : st.writer = false)
    (h : archive'.standing
      = Function.update archive.standing name (some { st with writer := true })) :
    Gains .writer name archive archive' := by
  refine gains_of_update h fun kind' => ?_
  rw [count_of_getD hst, Option.elim_some]
  cases kind' <;> simp [Standing.count, hreaders, hwriter]

/-- Likewise, it may count one less. -/
theorem loses_of_update {new : Option Standing}
    (h : archive'.standing = Function.update archive.standing name new)
    (hnew : ∀ kind', archive.count kind' name
      = new.elim 0 (·.count kind') + if kind = kind' then 1 else 0) :
    Gains kind name archive' archive := by
  intro kind' name'
  rw [count_of_update h]
  by_cases hname : name' = name
  · simp [hname, hnew kind']
  · rw [if_neg hname, if_neg fun heq => hname heq.2.symm, Nat.add_zero]

/-! ## Changing, forgetting and making members -/

theorem standing_change (hf : ∀ m, (f m).name = m.name) (hfind : archive.find? name = some m) :
    ({ archive with members := Member.change name f archive.members } : Archive).standing
      = Function.update archive.standing name (some (f m).standing) := by
  funext other
  rw [Function.update_apply]
  split
  · next heq =>
    subst heq
    rw [standing, find?, Member.find?_change hf hfind, Option.map_some]
  · next hne => rw [standing, find?, Member.find?_change_of_ne hf hne, standing, find?]

theorem standing_forget (hunique : (archive.members.map (·.name)).Nodup) :
    ({ archive with members := archive.members.eraseP (·.name == name) } : Archive).standing
      = Function.update archive.standing name none := by
  funext other
  rw [Function.update_apply, standing, find?, Member.find?_eraseP hunique]
  split
  · rfl
  · rfl

theorem standing_concat (hnew : archive.find? m.name = none) :
    ({ archive with members := archive.members ++ [m] } : Archive).standing
      = Function.update archive.standing m.name (some m.standing) := by
  rw [find?] at hnew
  funext other
  rw [Function.update_apply, standing, find?, List.find?_append, List.find?_singleton]
  by_cases heq : other = m.name
  · rw [heq, hnew, Option.none_or, if_pos rfl, if_pos (by simp), Option.map_some]
  · rw [if_neg heq, if_neg (by simpa using fun he => heq he.symm), Option.or_none, standing, find?]

/-- With sound standings, an update by a sound one leaves sound ones. -/
theorem sound_update {standing : String → Option Standing} {new : Option Standing}
    (h : ∀ name st, standing name = some st → st.Sound) (hnew : ∀ st, new = some st → st.Sound) :
    ∀ other st, Function.update standing name new other = some st → st.Sound := by
  intro other st hst
  rw [Function.update_apply] at hst
  split at hst
  · exact hnew st hst
  · exact h other st hst

theorem Orderly.change (h : archive.Orderly mode encoding) (hf : ∀ m, (f m).name = m.name)
    (hfind : archive.find? name = some m) (hsound : (f m).standing.Sound) :
    Orderly { archive with members := Member.change name f archive.members } mode encoding where
  encoding_eq := h.encoding_eq
  mode_eq := h.mode_eq
  unique := by
    rw [Member.map_name_change hf]
    exact h.unique
  survive m' hm' := by
    rcases Member.mem_of_mem_change hm' with hm | ⟨m, hm, -, rfl⟩
    · exact h.survive m' hm
    · exact hf m ▸ h.survive m hm
  sound := by
    rw [standing_change hf hfind]
    exact sound_update h.sound fun _ hst => Option.some.inj hst ▸ hsound

theorem Orderly.forget (h : archive.Orderly mode encoding) (name : String) :
    Orderly { archive with members := archive.members.eraseP (·.name == name) } mode encoding where
  encoding_eq := h.encoding_eq
  mode_eq := h.mode_eq
  unique := h.unique.sublist (List.eraseP_sublist.map _)
  survive m hm := h.survive m ((Member.mem_eraseP_iff h.unique).mp hm).1
  sound := by
    rw [standing_forget h.unique]
    exact sound_update h.sound fun _ hst => by cases hst

theorem Orderly.concat (h : archive.Orderly mode encoding) (hnew : archive.find? m.name = none)
    (hsurvives : encoding.Survives m.name) (hsound : m.standing.Sound) :
    Orderly { archive with members := archive.members ++ [m] } mode encoding where
  encoding_eq := h.encoding_eq
  mode_eq := h.mode_eq
  unique := by
    rw [List.map_append, List.nodup_append]
    refine ⟨h.unique, by simp, fun a ha b hb => ?_⟩
    obtain ⟨m', hm', rfl⟩ := List.mem_map.mp ha
    obtain rfl : b = m.name := by simpa using hb
    exact Member.find?_eq_none_iff.mp hnew m' hm'
  survive m' hm' := by
    rcases List.mem_append.mp hm' with hm' | hm'
    · exact h.survive m' hm'
    · exact List.mem_singleton.mp hm' ▸ hsurvives
  sound := by
    rw [standing_concat hnew]
    exact sound_update h.sound fun _ hst => Option.some.inj hst ▸ hsound

/-- Who has the files depends neither on their places nor on what is in them. -/
theorem Orderly.of_map_bearing {archive' : Archive} (h : archive.Orderly mode encoding)
    (hbearing : archive'.members.map Member.bearing = archive.members.map Member.bearing)
    (hmode : archive'.mode = archive.mode) (hencoding : archive'.encoding = archive.encoding) :
    archive'.Orderly mode encoding ∧ archive'.standing = archive.standing := by
  have hstanding : archive'.standing = archive.standing := by
    funext other
    have hfind := congrArg (Option.map fun b => Standing.mk b.2.2.1 b.2.2.2 b.2.1)
      (@Member.find?_of_map_bearing other _ _ hbearing)
    rwa [Option.map_map, Option.map_map] at hfind
  have hnames : archive'.members.map (·.name) = archive.members.map (·.name) := by
    simpa [Member.bearing, Function.comp_def] using congrArg (List.map Prod.fst) hbearing
  refine ⟨⟨⟨hencoding.trans h.encoding_eq, hnames ▸ h.unique, fun m' hm' => ?_⟩,
    hmode.trans h.mode_eq, hstanding ▸ h.sound⟩, hstanding⟩
  obtain ⟨m, hm, hname⟩ := Member.exists_of_map_eq hnames hm'
  exact hname ▸ h.survive m hm

/-! ## Packing -/

variable {labelled : List (String × PackedFile)} {nameOffset dataOffset : Nat}

/-- A name is found in the packed file if it is that of a file. -/
theorem find?_packed_eq_none_iff (hnames : labelled.map (·.1) = archive.files.map (·.name)) :
    (Packing.members nameOffset dataOffset labelled).find? (·.name == name) = none
      ↔ name ∉ archive.files.map (·.name) := by
  rw [← hnames, ← @Packing.map_name_members nameOffset dataOffset, Member.find?_eq_none_iff,
    List.mem_map, not_exists]
  exact forall_congr' fun m => by rw [not_and]

theorem isCreated_of_find?_packed
    (h : (Packing.members nameOffset dataOffset labelled).find? (·.name == name) = some m) :
    m.isCreated = false := by
  have hm := (Member.find?_eq_some h).1
  rw [← Packing.filter_members] at hm
  simpa using (List.mem_filter.mp hm).2

theorem mem_files_of_find? (h : archive.find? name = some m) (hcreated : m.isCreated = false) :
    name ∈ archive.files.map (·.name) := by
  obtain ⟨hm, hname⟩ := Member.find?_eq_some h
  exact List.mem_map.mpr ⟨m, List.mem_filter.mpr ⟨hm, by simp [hcreated]⟩, hname⟩

/-- The member of a file is no other. -/
theorem exists_file_of_mem (hunique : (archive.members.map (·.name)).Nodup)
    (h : name ∈ archive.files.map (·.name)) :
    ∃ m, archive.find? name = some m ∧ m.isCreated = false := by
  obtain ⟨m, hm, rfl⟩ := List.mem_map.mp h
  obtain ⟨hm, hfile⟩ := List.mem_filter.mp hm
  exact ⟨m, Member.find?_of_mem hunique hm, by simpa using hfile⟩

/-- The handles on the files of an archive are found again on the members that were read from the
packed file. -/
theorem standing_repacked (hunique : (archive.members.map (·.name)).Nodup)
    (hnames : labelled.map (·.1) = archive.files.map (·.name)) (name : String) :
    ((archive.members.foldl Change.handOver (Packing.members nameOffset dataOffset labelled)).find?
      (·.name == name)).map Member.standing = archive.standing name := by
  rw [Change.find?_foldl_handOver hunique, standing]
  have hpacked := @find?_packed_eq_none_iff archive name labelled nameOffset dataOffset hnames
  have hnone (h : ∀ m, archive.find? name = some m → m.isCreated = true) :
      (Packing.members nameOffset dataOffset labelled).find? (·.name == name) = none := by
    refine hpacked.mpr fun hname => ?_
    obtain ⟨m, hfind, hcreated⟩ := exists_file_of_mem hunique hname
    exact absurd (h m hfind) (by simp [hcreated])
  rw [← find?]
  cases hold : archive.find? name with
  | none => rw [Option.elim_none, hnone (by simp [hold])]
  | some o =>
    rw [Option.elim_some, Change.adopted, Option.map_some]
    split
    · next hcreated => rw [hnone (by simp [hold, hcreated]), Option.none_or, Option.map_some]
    · next hcreated =>
      have hcreated : o.isCreated = false := by simpa using hcreated
      cases hfind : (Packing.members nameOffset dataOffset labelled).find? (·.name == name) with
      | none => exact absurd (mem_files_of_find? hold hcreated) (hpacked.mp hfind)
      | some found =>
        have hfound := isCreated_of_find?_packed hfind
        rw [Member.isCreated] at hfound
        simp only [Option.map_some, Member.standing, Member.isCreated] at hcreated ⊢
        rw [hfound, hcreated]

theorem Orderly.repack (h : archive.Orderly mode encoding)
    (hnames : labelled.map (·.1) = archive.files.map (·.name)) {header : ArchiveHeader}
    {archive' : Archive} (harchive : archive' = { archive with
      header
      members := archive.members.foldl Change.handOver
        (Packing.members nameOffset dataOffset labelled)
      dirty := false }) :
    archive'.Orderly mode encoding ∧ archive'.standing = archive.standing := by
  subst harchive
  have hstanding := @standing_repacked _ _ nameOffset dataOffset h.unique hnames
  have hmembers : (archive.members.foldl Change.handOver
        (Packing.members nameOffset dataOffset labelled)).map (·.name)
      = archive.files.map (·.name) ++ (archive.members.filter (·.isCreated)).map (·.name) := by
    rw [← hnames, ← Packing.map_name_members, ← List.map_append]
    refine Member.map_name_of_map_core_eq ?_
    rw [Change.map_core_handOver, List.map_append]
  refine ⟨⟨⟨h.encoding_eq, hmembers ▸ nodup_files_append h.unique, fun m hm => ?_⟩, h.mode_eq,
    fun name st hst => ?_⟩, funext hstanding⟩
  · have hname : m.name ∈ (archive.files ++ archive.members.filter (·.isCreated)).map (·.name) := by
      rw [List.map_append, ← hmembers]
      exact List.mem_map_of_mem hm
    obtain ⟨o, ho, honame⟩ := List.mem_map.mp hname
    rw [← honame]
    rcases List.mem_append.mp ho with ho | ho
    · exact h.survive o (List.mem_filter.mp ho).1
    · exact h.survive o (List.mem_filter.mp ho).1
  · exact h.sound name st ((hstanding name).symm.trans hst)

end Archive
end NovelScript
