import Mathlib.Data.List.ReduceOption
import NovelScript.Proofs.Script.Spans

/-!
# Where locals are assigned and read

What an instruction does with locals is its *access*.  A target on a local and the assignment behind
it store a value there; an assignment without arguments stores what the next call answers
(`Assigns`).  An argument reads what the local holds (`Reads`), that is the value of the last
assignment that is complete in front of it (`ReadsFrom`).

In `Paired` code every value is read exactly once, and within the span of code that stored it.  Code
is put together of paired parts (`Paired.append`).
-/

namespace NovelScript

/-- What an instruction does with locals. -/
inductive Access where
  /-- A call, whether it is an assignment, and for each argument the local that it reads. -/
  | call (assigns : Bool) (arguments : List (Option Nat))
  /-- The target of an assignment, if it is a local. -/
  | target (register : Option Nat)
  | label

namespace Program

variable (program : Program)

/-- What an instruction of a program does with locals. -/
def access : Instruction → Access
  | .call function ids =>
    .call (Decompile.isAssign program function)
      (ids.map fun id => program.elements[id]?.bind Element.register?)
  | .target id => .target (program.elements[id]?.bind Element.register?)
  | .label _ => .label

/-- What the instructions of a program do with locals. -/
def accesses : List Access := program.instructions.map program.access

end Program

/-- What a symbolic instruction does with locals. -/
def SymbolicInstruction.access : SymbolicInstruction → Access
  | call function arguments =>
    .call (function.functionName? == some assignFunction) (arguments.map Element.register?)
  | target element => .target element.register?
  | label _ => .label

theorem register?_face (e : Element) : e.face.register? = e.register? := by
  cases e <;> rfl

theorem register?_of_faceAt {elements : Array Element} {id : ElementId} {face : Element}
    (h : faceAt elements id = some face) :
    elements[id]?.bind Element.register? = face.register? := by
  obtain ⟨e, he, rfl⟩ := Option.map_eq_some_iff.mp h
  rw [he, register?_face]
  rfl

theorem map_register?_of_faceAt {elements : Array Element} {ids : List ElementId}
    {faces : List Element} (h : ids.map (faceAt elements) = faces.map some) :
    ids.map (fun id => elements[id]?.bind Element.register?) = faces.map Element.register? := by
  induction ids generalizing faces with
  | nil =>
    obtain rfl : faces = [] := by simpa using h.symm
    rfl
  | cons id ids ih =>
    obtain ⟨face, faces, rfl, hface, hfaces⟩ := List.map_eq_cons_iff.mp h.symm
    rw [List.map_cons, List.map_cons, register?_of_faceAt hface.symm, ih hfaces.symm]

theorem access_of_spells {program : Program} {i : Instruction} {s : SymbolicInstruction}
    (h : i.Spells program.elements s) : program.access i = s.access := by
  cases i with
  | label id =>
    cases s with
    | label face => rfl
    | call _ _ | target _ => exact h.elim
  | target id =>
    cases s with
    | target face => exact congrArg Access.target (register?_of_faceAt h)
    | call _ _ | label _ => exact h.elim
  | call function ids =>
    cases s with
    | label _ | target _ => exact h.elim
    | call face faces =>
      rw [Program.access, SymbolicInstruction.access, isAssign_of_faceAt h.1,
        map_register?_of_faceAt h.2]

/-- Instructions use locals as the code does that they spell. -/
theorem accesses_of_spells {program : Program} {code : SymbolicCode}
    (h : SpellsAll program.elements program.instructions code) :
    program.accesses = code.map SymbolicInstruction.access := by
  rw [Program.accesses]
  exact List.forall₂_eq_eq_eq ▸ List.rel_map (fun _ _ h => access_of_spells h) h

/-! ## Positions -/

variable {code front rest : List Access} {r start stop k j p : Nat}

/-- The local is the target at `start`, and what is stored there is known at `stop`: the assignment
behind the target, or, where that has no arguments, the call behind it. -/
def Assigns (code : List Access) (r start stop : Nat) : Prop :=
  code[start]? = some (.target (some r)) ∧ ∃ arguments,
    code[start + 1]? = some (.call true arguments)
      ∧ (arguments ≠ [] ∧ stop = start + 1
        ∨ arguments = [] ∧ stop = start + 2
          ∧ ∃ assigns others, code[start + 2]? = some (.call assigns others))

/-- An argument of the call at `k` is the local. -/
def Reads (code : List Access) (r k j : Nat) : Prop :=
  ∃ assigns arguments, code[k]? = some (.call assigns arguments)
    ∧ arguments[j]? = some (some r)

/-- An argument reads what the local holds at a position: no assignment to the local is complete in
between. -/
structure ReadsFrom (code : List Access) (r p k j : Nat) : Prop where
  reads : Reads code r k j
  later : p ≤ k
  kept : ∀ {start stop}, Assigns code r start stop → p ≤ stop → k ≤ stop

/-- Every target on a local belongs to an assignment. -/
def Closed (code : List Access) : Prop :=
  ∀ start r, code[start]? = some (.target (some r)) → ∃ stop, Assigns code r start stop

theorem Assigns.lt (h : Assigns code r start stop) : start < stop := by
  obtain ⟨-, _, -, ⟨-, rfl⟩ | ⟨-, rfl, -⟩⟩ := h <;> omega

theorem Assigns.stop_lt (h : Assigns code r start stop) : stop < code.length := by
  obtain ⟨-, _, hcall, ⟨-, rfl⟩ | ⟨-, rfl, _, _, hother⟩⟩ := h
  · exact (List.getElem?_eq_some_iff.mp hcall).1
  · exact (List.getElem?_eq_some_iff.mp hother).1

theorem Assigns.stop_eq {stop' : Nat} (h : Assigns code r start stop)
    (h' : Assigns code r start stop') : stop' = stop := by
  obtain ⟨-, arguments, hcall, hstop⟩ := h
  obtain ⟨-, arguments', hcall', hstop'⟩ := h'
  rw [hcall, Option.some.injEq, Access.call.injEq] at hcall'
  obtain ⟨-, rfl⟩ := hcall'
  obtain ⟨hne, rfl⟩ | ⟨heq, rfl, -⟩ := hstop <;> obtain ⟨hne', rfl⟩ | ⟨heq', rfl, -⟩ := hstop'
  · rfl
  · exact absurd heq' hne
  · exact absurd heq hne'
  · rfl

theorem Reads.lt (h : Reads code r k j) : k < code.length := by
  obtain ⟨_, _, hcall, -⟩ := h
  exact (List.getElem?_eq_some_iff.mp hcall).1

/-! ## Code in two parts -/

theorem getElem?_append_of_eq_some {α : Type} {as bs : List α} {i : Nat} {a : α}
    (h : as[i]? = some a) : (as ++ bs)[i]? = some a := by
  rw [List.getElem?_append_left (List.getElem?_eq_some_iff.mp h).1, h]

theorem Assigns.append_left (h : Assigns front r start stop) :
    Assigns (front ++ rest) r start stop := by
  obtain ⟨htarget, arguments, hcall, hstop⟩ := h
  refine ⟨getElem?_append_of_eq_some htarget, arguments, getElem?_append_of_eq_some hcall,
    hstop.imp id fun ⟨hnil, hstop, assigns, others, hother⟩ => ?_⟩
  exact ⟨hnil, hstop, assigns, others, getElem?_append_of_eq_some hother⟩

theorem getElem?_append_length_add {α : Type} (as bs : List α) (i : Nat) :
    (as ++ bs)[as.length + i]? = bs[i]? := by
  rw [List.getElem?_append_right (by omega), Nat.add_sub_cancel_left]

theorem assigns_append_right :
    Assigns (front ++ rest) r (front.length + start) (front.length + stop)
      ↔ Assigns rest r start stop := by
  simp only [Assigns, Nat.add_assoc, getElem?_append_length_add, Nat.add_left_cancel_iff]

/-- The assignments of two parts are those of the one and those of the other. -/
theorem assigns_append_iff (hfront : Closed front) :
    Assigns (front ++ rest) r start stop ↔ Assigns front r start stop
      ∨ ∃ s t, start = front.length + s ∧ stop = front.length + t ∧ Assigns rest r s t := by
  constructor
  · intro h
    by_cases hstart : start < front.length
    · have htarget := h.1
      rw [List.getElem?_append_left hstart] at htarget
      obtain ⟨stop', hfound⟩ := hfront _ _ htarget
      exact .inl (hfound.append_left.stop_eq h ▸ hfound)
    · obtain ⟨s, rfl⟩ := Nat.exists_eq_add_of_le (Nat.le_of_not_lt hstart)
      obtain ⟨t, rfl⟩ := Nat.exists_eq_add_of_le
        (Nat.le_trans (Nat.le_add_right _ s) (Nat.le_of_lt h.lt))
      exact .inr ⟨s, t, rfl, rfl, assigns_append_right.mp h⟩
  · rintro (h | ⟨s, t, rfl, rfl, h⟩)
    · exact h.append_left
    · exact assigns_append_right.mpr h

theorem reads_append_iff :
    Reads (front ++ rest) r k j ↔ Reads front r k j
      ∨ ∃ i, k = front.length + i ∧ Reads rest r i j := by
  constructor
  · rintro ⟨assigns, arguments, hcall, hargument⟩
    by_cases hk : k < front.length
    · rw [List.getElem?_append_left hk] at hcall
      exact .inl ⟨assigns, arguments, hcall, hargument⟩
    · obtain ⟨i, rfl⟩ := Nat.exists_eq_add_of_le (Nat.le_of_not_lt hk)
      rw [getElem?_append_length_add] at hcall
      exact .inr ⟨i, rfl, assigns, arguments, hcall, hargument⟩
  · rintro (⟨assigns, arguments, hcall, hargument⟩ | ⟨i, rfl, assigns, arguments, hcall, hargument⟩)
    · exact ⟨assigns, arguments, getElem?_append_of_eq_some hcall, hargument⟩
    · exact ⟨assigns, arguments, by rwa [getElem?_append_length_add], hargument⟩

theorem Closed.append (hfront : Closed front) (hrest : Closed rest) : Closed (front ++ rest) := by
  intro start r htarget
  by_cases hstart : start < front.length
  · rw [List.getElem?_append_left hstart] at htarget
    obtain ⟨stop, h⟩ := hfront _ _ htarget
    exact ⟨stop, h.append_left⟩
  · obtain ⟨s, rfl⟩ := Nat.exists_eq_add_of_le (Nat.le_of_not_lt hstart)
    rw [getElem?_append_length_add] at htarget
    obtain ⟨t, h⟩ := hrest _ _ htarget
    exact ⟨front.length + t, assigns_append_right.mpr h⟩

/-- What the local holds somewhere in the second part is read there. -/
theorem readsFrom_append_right (hfront : Closed front) :
    ReadsFrom (front ++ rest) r (front.length + p) k j
      ↔ ∃ i, k = front.length + i ∧ ReadsFrom rest r p i j := by
  constructor
  · rintro ⟨hreads, hlater, hkept⟩
    obtain h | ⟨i, rfl, hi⟩ := reads_append_iff.mp hreads
    · have hlt := h.lt
      omega
    · refine ⟨i, rfl, hi, by omega, fun h hp => ?_⟩
      have hle := hkept (assigns_append_right.mpr h) (by omega)
      omega
  · rintro ⟨i, rfl, h⟩
    refine ⟨reads_append_iff.mpr (.inr ⟨i, rfl, h.reads⟩), by have hlater := h.later; omega, ?_⟩
    intro start stop hassigns hp
    obtain hbefore | ⟨s, t, rfl, rfl, hbehind⟩ := (assigns_append_iff hfront).mp hassigns
    · have hlt := hbefore.stop_lt
      omega
    · have hle := h.kept hbehind (by omega)
      omega

/-- What the local holds somewhere in the first part is read there, or in the second part if it is
not assigned to before. -/
theorem readsFrom_append_left (hfront : Closed front) (hp : p ≤ front.length) :
    ReadsFrom (front ++ rest) r p k j ↔ ReadsFrom front r p k j
      ∨ ∃ i, k = front.length + i ∧ (∀ start stop, Assigns front r start stop → stop < p)
        ∧ ReadsFrom rest r 0 i j := by
  constructor
  · rintro ⟨hreads, hlater, hkept⟩
    obtain h | ⟨i, rfl, hi⟩ := reads_append_iff.mp hreads
    · exact .inl ⟨h, hlater, fun hassigns => hkept hassigns.append_left⟩
    · refine .inr ⟨i, rfl, fun start stop hassigns => ?_, hi, Nat.zero_le i, fun hassigns _ => ?_⟩
      · have hlt := hassigns.stop_lt
        by_contra hle
        have hle' := hkept hassigns.append_left (by omega)
        omega
      · have hle := hkept (assigns_append_right.mpr hassigns) (by omega)
        omega
  · rintro (h | ⟨i, rfl, hnone, h⟩)
    · refine ⟨reads_append_iff.mpr (.inl h.reads), h.later, fun hassigns hp => ?_⟩
      obtain hbefore | ⟨s, t, rfl, rfl, -⟩ := (assigns_append_iff hfront).mp hassigns
      · exact h.kept hbefore hp
      · have hlt := h.reads.lt
        omega
    · refine ⟨reads_append_iff.mpr (.inr ⟨i, rfl, h.reads⟩), by omega, fun hassigns hp' => ?_⟩
      obtain hbefore | ⟨s, t, rfl, rfl, hbehind⟩ := (assigns_append_iff hfront).mp hassigns
      · have hlt := hnone _ _ hbefore
        omega
      · have hle := h.kept hbehind (by omega)
        omega

/-! ## Paired code -/

/-- Each value that a local is assigned is read by exactly one argument, in the span of code in
which it is assigned, and each local that is read holds such a value.  The spans do not overlap. -/
structure Paired (code : List Access) (spans : List (Nat × Nat)) : Prop where
  /-- Every target on a local belongs to an assignment. -/
  closed : Closed code
  /-- Every value is read by one argument. -/
  read : ∀ {r start stop}, Assigns code r start stop →
    ∃! place : Nat × Nat, ReadsFrom code r (stop + 1) place.1 place.2
  /-- That argument belongs to the same span of code. -/
  together : ∀ {r start stop k j}, Assigns code r start stop → ReadsFrom code r (stop + 1) k j →
    ∃ span ∈ spans, span.1 ≤ start ∧ k < span.2
  /-- Every local that is read has been assigned. -/
  origin : ∀ {r k j}, Reads code r k j →
    ∃ start stop, Assigns code r start stop ∧ ReadsFrom code r (stop + 1) k j
  within : ∀ span ∈ spans, span.2 ≤ code.length
  apart : spans.Pairwise fun span other => span.2 ≤ other.1

theorem Paired.nil : Paired [] [] where
  closed := by simp [Closed]
  read h := absurd h.stop_lt (Nat.not_lt_zero _)
  together h := absurd h.stop_lt (Nat.not_lt_zero _)
  origin h := absurd h.lt (Nat.not_lt_zero _)
  within := by simp
  apart := .nil

theorem Paired.label : Paired [.label] [] := by
  have hnot (start r stop : Nat) : ¬ Assigns [.label] r start stop := by
    rintro ⟨htarget, -⟩
    cases start <;> simp at htarget
  have hnoread (r k j : Nat) : ¬ Reads [.label] r k j := by
    rintro ⟨_, _, hcall, -⟩
    cases k <;> simp at hcall
  exact {
    closed := fun start r htarget => by cases start <;> simp at htarget
    read := fun h => absurd h (hnot _ _ _)
    together := fun h => absurd h (hnot _ _ _)
    origin := fun h => absurd h (hnoread _ _ _)
    within := by simp
    apart := .nil }

/-- What is unique behind a part of code is unique in the whole. -/
theorem existsUnique_behind {n : Nat} {P Q : Nat → Nat → Prop}
    (h : ∀ k j, Q k j ↔ ∃ i, k = n + i ∧ P i j) (hP : ∃! place : Nat × Nat, P place.1 place.2) :
    ∃! place : Nat × Nat, Q place.1 place.2 := by
  obtain ⟨⟨i, j⟩, hread, hunique⟩ := hP
  refine ⟨(n + i, j), (h _ _).mpr ⟨i, rfl, hread⟩, ?_⟩
  rintro ⟨k, j'⟩ hk
  obtain ⟨i', rfl, hi'⟩ := (h _ _).mp hk
  have heq := hunique (i', j') hi'
  rw [Prod.mk.injEq] at heq ⊢
  exact ⟨by rw [heq.1], heq.2⟩

/-- Code in two paired parts is paired. -/
theorem Paired.append {spans others : List (Nat × Nat)} (h : Paired front spans)
    (h' : Paired rest others) : Paired (front ++ rest) (spans ++ shifted front.length others) := by
  -- whatever is read in the second part is assigned there, so no value of the first part is
  have hleft {r p k j : Nat} (hp : p ≤ front.length) :
      ReadsFrom (front ++ rest) r p k j ↔ ReadsFrom front r p k j := by
    rw [readsFrom_append_left h.closed hp]
    refine or_iff_left ?_
    rintro ⟨i, -, -, hi⟩
    obtain ⟨start, stop, hassigns, hread⟩ := h'.origin hi.reads
    have hle := hi.kept hassigns (Nat.zero_le stop)
    have hlt := hread.later
    omega
  refine ⟨h.closed.append h'.closed, fun {r start stop} hassigns => ?_,
    fun {r start stop k j} hassigns hread => ?_, fun {r k j} hreads => ?_, fun span hspan => ?_, ?_⟩
  · obtain hfront | ⟨s, t, rfl, rfl, hrest⟩ := (assigns_append_iff h.closed).mp hassigns
    · simpa only [hleft hfront.stop_lt] using h.read hfront
    · rw [Nat.add_assoc]
      exact existsUnique_behind (fun k j => readsFrom_append_right h.closed) (h'.read hrest)
  · obtain hfront | ⟨s, t, rfl, rfl, hrest⟩ := (assigns_append_iff h.closed).mp hassigns
    · obtain ⟨span, hspan, hin⟩ := h.together hfront ((hleft hfront.stop_lt).mp hread)
      exact ⟨span, List.mem_append_left _ hspan, hin⟩
    · rw [Nat.add_assoc] at hread
      obtain ⟨i, rfl, hi⟩ := (readsFrom_append_right h.closed).mp hread
      obtain ⟨span, hspan, hstart, hlt⟩ := h'.together hrest hi
      exact ⟨_, List.mem_append_right _ (List.mem_map_of_mem hspan), Nat.add_le_add_left hstart _,
        Nat.add_lt_add_left hlt _⟩
  · obtain hfront | ⟨i, rfl, hrest⟩ := reads_append_iff.mp hreads
    · obtain ⟨start, stop, hassigns, hread⟩ := h.origin hfront
      exact ⟨start, stop, hassigns.append_left, (hleft hassigns.stop_lt).mpr hread⟩
    · obtain ⟨start, stop, hassigns, hread⟩ := h'.origin hrest
      refine ⟨_, _, assigns_append_right.mpr hassigns, ?_⟩
      rw [Nat.add_assoc]
      exact (readsFrom_append_right h.closed).mpr ⟨i, rfl, hread⟩
  · rw [List.length_append]
    obtain hspan | hspan := List.mem_append.mp hspan
    · exact Nat.le_trans (h.within span hspan) (Nat.le_add_right _ _)
    · obtain ⟨other, hother, rfl⟩ := List.mem_map.mp hspan
      exact Nat.add_le_add_left (h'.within other hother) _
  · rw [List.pairwise_append, shifted, List.pairwise_map]
    refine ⟨h.apart, h'.apart.imp fun hle => Nat.add_le_add_left hle _,
      fun span hspan other hother => ?_⟩
    obtain ⟨moved, -, rfl⟩ := List.mem_map.mp hother
    exact Nat.le_trans (h.within span hspan) (Nat.le_add_right _ _)

end NovelScript
