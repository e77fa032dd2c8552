import NovelScript.Proofs.Script.Accesses

/-!
# Which locals are pending

A local is *pending* from its assignment to the argument that reads it.  Code is a sequence of
transfers, each of which reads locals and may assign one (`Transfer`).  If each transfer reads only
pending locals, each of them once, and assigns none that stays pending (`Flows`), and nothing is
pending in front of the code or behind it, then the code is paired (`Flows.paired`).
-/

namespace NovelScript

/-- Instructions that read the locals among their arguments, and then assign one or none. -/
inductive Transfer : List Access → List (Option Nat) → Option Nat → Prop
  | label : Transfer [.label] [] none
  | call (assigns : Bool) (arguments : List (Option Nat)) :
    Transfer [.call assigns arguments] arguments none
  /-- A value is assigned. -/
  | store (register : Option Nat) (arguments : List (Option Nat)) (h : arguments ≠ []) :
    Transfer [.target register, .call true arguments] arguments register
  /-- The answer of a call is assigned. -/
  | capture (register : Option Nat) (assigns : Bool) (arguments : List (Option Nat)) :
    Transfer [.target register, .call true [], .call assigns arguments] arguments register

namespace Transfer

variable {code rest : List Access} {arguments : List (Option Nat)} {written : Option Nat}
  {r start stop k j : Nat}

theorem length_pos (h : Transfer code arguments written) : 0 < code.length := by
  cases h <;> simp

/-- The local that is assigned is the one target, and is assigned by the last instruction. -/
theorem target_iff (h : Transfer code arguments written) :
    code[start]? = some (.target (some r)) ↔ start = 0 ∧ written = some r := by
  cases h with
  | label => cases start <;> simp
  | call _ _ => cases start <;> simp
  | store register _ _ =>
    match start with
    | 0 => simp
    | 1 => simp
    | start + 2 => simp
  | capture register _ _ =>
    match start with
    | 0 => simp
    | 1 => simp
    | 2 => simp
    | start + 3 => simp

theorem assigns (h : Transfer code arguments (some r)) : Assigns code r 0 (code.length - 1) := by
  cases h with
  | store _ _ hne => exact ⟨rfl, arguments, rfl, .inl ⟨hne, rfl⟩⟩
  | capture _ assigns _ => exact ⟨rfl, [], rfl, .inr ⟨rfl, rfl, assigns, arguments, rfl⟩⟩

theorem assigns_iff (h : Transfer code arguments written) :
    Assigns code r start stop ↔ start = 0 ∧ stop = code.length - 1 ∧ written = some r := by
  constructor
  · intro hassigns
    obtain ⟨rfl, rfl⟩ := h.target_iff.mp hassigns.1
    exact ⟨rfl, h.assigns.stop_eq hassigns, rfl⟩
  · rintro ⟨rfl, rfl, rfl⟩
    exact h.assigns

theorem closed (h : Transfer code arguments written) : Closed code := by
  intro start r htarget
  obtain ⟨rfl, rfl⟩ := h.target_iff.mp htarget
  exact ⟨_, h.assigns⟩

/-- Locals are read by the last instruction. -/
theorem reads_iff (h : Transfer code arguments written) :
    Reads code r k j ↔ k = code.length - 1 ∧ arguments[j]? = some (some r) := by
  cases h with
  | label => cases k <;> simp [Reads]
  | call assigns arguments => cases k <;> simp [Reads]
  | store register arguments _ =>
    match k with
    | 0 => simp [Reads]
    | 1 => simp [Reads]
    | k + 2 => simp [Reads]
  | capture register assigns arguments =>
    match k with
    | 0 => simp [Reads]
    | 1 => simp [Reads]
    | 2 => simp [Reads]
    | k + 3 => simp [Reads]

/-- A local that is read has not been assigned by then. -/
theorem readsFrom_iff (h : Transfer code arguments written) :
    ReadsFrom code r 0 k j ↔ k = code.length - 1 ∧ arguments[j]? = some (some r) := by
  constructor
  · exact fun hread => h.reads_iff.mp hread.reads
  · intro hread
    refine ⟨h.reads_iff.mpr hread, Nat.zero_le k, fun hassigns _ => ?_⟩
    exact Nat.le_of_eq (hread.1.trans (h.assigns_iff.mp hassigns).2.1.symm)

end Transfer

/-- A local that is read once is one argument. -/
theorem existsUnique_argument {arguments : List (Option Nat)} {r : Nat}
    (hnodup : arguments.reduceOption.Nodup) (hr : r ∈ arguments.reduceOption) :
    ∃! j : Nat, arguments[j]? = some (some r) := by
  rw [List.reduceOption_mem_iff] at hr
  obtain ⟨j, hj⟩ := List.mem_iff_getElem?.mp hr
  have hpairwise := List.pairwise_filterMap.mp hnodup
  -- of two arguments one would stand in front of the other
  have hlt {i j : Nat} (hi : arguments[i]? = some (some r)) (hj : arguments[j]? = some (some r)) :
      ¬ i < j := by
    intro h
    obtain ⟨hilt, hi⟩ := List.getElem?_eq_some_iff.mp hi
    obtain ⟨hjlt, hj⟩ := List.getElem?_eq_some_iff.mp hj
    exact List.pairwise_iff_getElem.mp hpairwise i j hilt hjlt h r hi r hj rfl
  exact ⟨j, hj, fun i hi => Nat.le_antisymm (Nat.le_of_not_lt (hlt hj hi))
    (Nat.le_of_not_lt (hlt hi hj))⟩

/-- The transfers of the code read what is pending, `pending` in front of the code and `pending'`
behind it. -/
inductive Flows : (Nat → Prop) → List Access → (Nat → Prop) → Prop
  | nil {pending pending' : Nat → Prop} (h : ∀ r, pending' r ↔ pending r) :
    Flows pending [] pending'
  | cons {pending next pending' : Nat → Prop} {code rest : List Access}
    {arguments : List (Option Nat)} {written : Option Nat}
    (htransfer : Transfer code arguments written)
    (hread : ∀ r ∈ arguments.reduceOption, pending r) (hnodup : arguments.reduceOption.Nodup)
    (hfree : ∀ r, written = some r → pending r → r ∈ arguments.reduceOption)
    (hnext : ∀ r, next r ↔ pending r ∧ r ∉ arguments.reduceOption ∨ written = some r)
    (hrest : Flows next rest pending') : Flows pending (code ++ rest) pending'

theorem Flows.append {pending next pending' : Nat → Prop} {front rest : List Access}
    (h : Flows pending front next) (h' : Flows next rest pending') :
    Flows pending (front ++ rest) pending' := by
  induction h with
  | nil hsame =>
    obtain rfl : _ = _ := funext fun r => propext (hsame r)
    exact h'
  | cons htransfer hread hnodup hfree hnext _ ih =>
    rw [List.append_assoc]
    exact .cons htransfer hread hnodup hfree hnext (ih h')

/-- What is pending in front of code is read in it, and so is what is assigned in it. -/
structure Serves (pending : Nat → Prop) (code : List Access) : Prop where
  closed : Closed code
  read : ∀ {r start stop}, Assigns code r start stop →
    ∃! place : Nat × Nat, ReadsFrom code r (stop + 1) place.1 place.2
  handed : ∀ {r}, pending r → ∃! place : Nat × Nat, ReadsFrom code r 0 place.1 place.2
  origin : ∀ {r k j}, Reads code r k j → pending r ∧ ReadsFrom code r 0 k j
    ∨ ∃ start stop, Assigns code r start stop ∧ ReadsFrom code r (stop + 1) k j

theorem Serves.nil {pending : Nat → Prop} (h : ∀ r, ¬ pending r) : Serves pending [] where
  closed := Paired.nil.closed
  read := Paired.nil.read
  handed hr := absurd hr (h _)
  origin hread := absurd hread.lt (Nat.not_lt_zero _)

section

variable {pending next : Nat → Prop} {code rest : List Access} {arguments : List (Option Nat)}
  {written : Option Nat} {r k j : Nat}

/-- What a transfer assigns is read behind it. -/
theorem Transfer.readsFrom_behind (h : Transfer code arguments written) :
    ReadsFrom (code ++ rest) r (code.length - 1 + 1) k j
      ↔ ∃ i, k = code.length + i ∧ ReadsFrom rest r 0 i j := by
  rw [Nat.sub_add_cancel h.length_pos]
  exact readsFrom_append_right (p := 0) h.closed

/-- What a transfer leaves alone is read behind it. -/
theorem Transfer.readsFrom_of_not_mem (h : Transfer code arguments written)
    (hr : r ∉ arguments.reduceOption) (hwritten : written ≠ some r) :
    ReadsFrom (code ++ rest) r 0 k j ↔ ∃ i, k = code.length + i ∧ ReadsFrom rest r 0 i j := by
  rw [readsFrom_append_left h.closed (Nat.zero_le _), h.readsFrom_iff]
  constructor
  · rintro (⟨-, hj⟩ | ⟨i, hk, -, hread⟩)
    · exact absurd (List.reduceOption_mem_iff.mpr (List.mem_of_getElem? hj)) hr
    · exact ⟨i, hk, hread⟩
  · rintro ⟨i, hk, hread⟩
    exact .inr ⟨i, hk, fun start stop hassigns =>
      absurd (h.assigns_iff.mp hassigns).2.2 hwritten, hread⟩

/-- What a transfer reads is not read behind it, unless it is assigned again. -/
theorem Transfer.readsFrom_of_mem (h : Transfer code arguments written)
    (hrest : Serves next rest) (hnext : ∀ r, next r → r ∈ arguments.reduceOption → written = some r)
    (hr : r ∈ arguments.reduceOption) :
    ReadsFrom (code ++ rest) r 0 k j ↔ k = code.length - 1 ∧ arguments[j]? = some (some r) := by
  rw [readsFrom_append_left h.closed (Nat.zero_le _), h.readsFrom_iff]
  refine or_iff_left ?_
  rintro ⟨i, -, hnone, hread⟩
  obtain ⟨hpending, -⟩ | ⟨start, stop, hassigns, hlater⟩ := hrest.origin hread.reads
  · have hassigns := h.assigns_iff.mpr ⟨rfl, rfl, hnext r hpending hr⟩
    exact absurd (hnone _ _ hassigns) (Nat.not_lt_zero _)
  · have hle := hread.kept hassigns (Nat.zero_le stop)
    have hlt := hlater.later
    omega

/-- A transfer in front of code that is served. -/
theorem Serves.cons (htransfer : Transfer code arguments written)
    (hread : ∀ r ∈ arguments.reduceOption, pending r) (hnodup : arguments.reduceOption.Nodup)
    (hfree : ∀ r, written = some r → pending r → r ∈ arguments.reduceOption)
    (hnext : ∀ r, next r ↔ pending r ∧ r ∉ arguments.reduceOption ∨ written = some r)
    (h : Serves next rest) : Serves pending (code ++ rest) := by
  have hclosed := htransfer.closed
  have hagain (r : Nat) (hr : next r) (hmem : r ∈ arguments.reduceOption) : written = some r :=
    ((hnext r).mp hr).resolve_left fun hkept => hkept.2 hmem
  refine ⟨hclosed.append h.closed, fun {r start stop} hassigns => ?_, fun {r} hr => ?_,
    fun {r k j} hreads => ?_⟩
  · obtain hcode | ⟨s, t, rfl, rfl, hrest⟩ := (assigns_append_iff hclosed).mp hassigns
    · obtain ⟨rfl, rfl, hwritten⟩ := htransfer.assigns_iff.mp hcode
      exact existsUnique_behind (fun k j => htransfer.readsFrom_behind)
        (h.handed ((hnext r).mpr (.inr hwritten)))
    · rw [Nat.add_assoc]
      exact existsUnique_behind (fun k j => readsFrom_append_right hclosed) (h.read hrest)
  · by_cases hmem : r ∈ arguments.reduceOption
    · obtain ⟨j, hj, hunique⟩ := existsUnique_argument hnodup hmem
      refine ⟨(code.length - 1, j), (htransfer.readsFrom_of_mem h hagain hmem).mpr ⟨rfl, hj⟩, ?_⟩
      rintro ⟨k, j'⟩ hk
      obtain ⟨rfl, hj'⟩ := (htransfer.readsFrom_of_mem h hagain hmem).mp hk
      rw [hunique j' hj']
    · have hwritten : written ≠ some r := fun hwritten => hmem (hfree r hwritten hr)
      exact existsUnique_behind (fun k j => htransfer.readsFrom_of_not_mem hmem hwritten)
        (h.handed ((hnext r).mpr (.inl ⟨hr, hmem⟩)))
  · obtain hcode | ⟨i, rfl, hrest⟩ := reads_append_iff.mp hreads
    · have hargument := htransfer.reads_iff.mp hcode
      have hmem : r ∈ arguments.reduceOption :=
        List.reduceOption_mem_iff.mpr (List.mem_of_getElem? hargument.2)
      exact .inl ⟨hread r hmem, (htransfer.readsFrom_of_mem h hagain hmem).mpr hargument⟩
    · obtain ⟨hr, hread⟩ | ⟨s, t, hassigns, hread⟩ := h.origin hrest
      · by_cases hwritten : written = some r
        · exact .inr ⟨0, _, (htransfer.assigns_iff.mpr ⟨rfl, rfl, hwritten⟩).append_left,
            htransfer.readsFrom_behind.mpr ⟨i, rfl, hread⟩⟩
        · obtain ⟨hpending, hmem⟩ := ((hnext r).mp hr).resolve_right hwritten
          exact .inl ⟨hpending, (htransfer.readsFrom_of_not_mem hmem hwritten).mpr ⟨i, rfl, hread⟩⟩
      · refine .inr ⟨_, _, assigns_append_right.mpr hassigns, ?_⟩
        rw [Nat.add_assoc]
        exact (readsFrom_append_right hclosed).mpr ⟨i, rfl, hread⟩

end

theorem Flows.serves {pending pending' : Nat → Prop} {code : List Access}
    (h : Flows pending code pending') (hend : ∀ r, ¬ pending' r) : Serves pending code := by
  induction h with
  | nil hsame => exact .nil fun r hr => hend r ((hsame r).mpr hr)
  | cons htransfer hread hnodup hfree hnext _ ih =>
    exact .cons htransfer hread hnodup hfree hnext (ih hend)

/-- Code in front of which and behind which no local is pending is paired. -/
theorem Flows.paired {pending pending' : Nat → Prop} {code : List Access}
    (h : Flows pending code pending') (hstart : ∀ r, ¬ pending r) (hend : ∀ r, ¬ pending' r) :
    Paired code [(0, code.length)] := by
  have hserves := h.serves hend
  exact {
    closed := hserves.closed
    read := hserves.read
    together := fun {r start stop k j} _ hread =>
      ⟨_, List.mem_singleton_self _, Nat.zero_le start, hread.reads.lt⟩
    origin := fun hreads => (hserves.origin hreads).resolve_left fun h => hstart _ h.1
    within := by simp
    apart := by simp }

end NovelScript
