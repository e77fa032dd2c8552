import Mathlib.Data.List.Basic
import NovelScript.Script.Compilation
import NovelScript.Script.Decompilation

/-!
# Registers of the compiler and locals of the decompiler

The compiler keeps a pool of registers that are *taken*; the decompiler keeps for each local the
value that is *pending* in it.  Taking the lowest free register takes exactly that one
(`taken_alloc`), and both sides give registers back one by one (`taken_freeAll`, `get?_takeAll`).
-/

namespace NovelScript

/-- The register that an element stands for. -/
def Element.register? : Element → Option Nat
  | .localVar id => some id
  | _ => none

/-- The registers among elements. -/
def registers (faces : List Element) : List Nat := faces.filterMap Element.register?

@[simp] theorem registers_nil : registers [] = [] := rfl

@[simp] theorem registers_append (as bs : List Element) :
    registers (as ++ bs) = registers as ++ registers bs :=
  List.filterMap_append

theorem registers_cons (e : Element) (es : List Element) :
    registers (e :: es) = registers [e] ++ registers es :=
  registers_append [e] es

@[simp] theorem registers_localVar (id : Nat) : registers [.localVar id] = [id] := rfl

@[simp] theorem registers_marker (m : Marker) : registers [.marker m] = [] := rfl

namespace LocalPool

/-! ## The pool -/

/-- Whether a register is taken. -/
def Taken (pool : LocalPool) (r : Nat) : Prop := pool.inUse[r]? = some true

theorem takeFrom_lt (inUse : List Bool) : (takeFrom inUse).1 < (takeFrom inUse).2.length := by
  induction inUse with
  | nil => simp [takeFrom]
  | cons b rest ih => cases b <;> simp [takeFrom, ih]

theorem length_le_takeFrom (inUse : List Bool) :
    inUse.length ≤ (takeFrom inUse).2.length := by
  induction inUse with
  | nil => simp [takeFrom]
  | cons b rest ih => cases b <;> simp [takeFrom, ih]

theorem takeFrom_free (inUse : List Bool) : inUse[(takeFrom inUse).1]? ≠ some true := by
  induction inUse with
  | nil => simp [takeFrom]
  | cons b rest ih => cases b <;> simp [takeFrom, ih]

theorem takeFrom_getElem? (inUse : List Bool) (r : Nat) :
    (takeFrom inUse).2[r]? = some true ↔ r = (takeFrom inUse).1 ∨ inUse[r]? = some true := by
  induction inUse generalizing r with
  | nil => cases r <;> simp [takeFrom]
  | cons b rest ih =>
    cases r with
    | zero => cases b <;> simp [takeFrom]
    | succ r => cases b <;> simp [takeFrom, ih]

/-- The register that is taken next was free. -/
theorem not_taken_alloc (pool : LocalPool) : ¬ pool.Taken pool.alloc.1 :=
  takeFrom_free pool.inUse

/-- Taking a register takes that register. -/
@[simp] theorem taken_alloc (pool : LocalPool) (r : Nat) :
    pool.alloc.2.Taken r ↔ r = pool.alloc.1 ∨ pool.Taken r :=
  takeFrom_getElem? pool.inUse r

theorem alloc_lt (pool : LocalPool) : pool.alloc.1 < pool.alloc.2.highWater :=
  takeFrom_lt pool.inUse

theorem highWater_le_alloc (pool : LocalPool) : pool.highWater ≤ pool.alloc.2.highWater :=
  length_le_takeFrom pool.inUse

/-- The pool with registers given back. -/
def freeAll (pool : LocalPool) (rs : List Nat) : LocalPool := rs.foldl free pool

@[simp] theorem taken_free (pool : LocalPool) (id r : Nat) :
    (pool.free id).Taken r ↔ r ≠ id ∧ pool.Taken r := by
  by_cases h : id = r
  · subst h
    simp [Taken, free, List.getElem?_set]
  · simp [Taken, free, h, Ne.symm h]

/-- Giving registers back frees those and no others. -/
@[simp] theorem taken_freeAll (pool : LocalPool) (rs : List Nat) (r : Nat) :
    (pool.freeAll rs).Taken r ↔ r ∉ rs ∧ pool.Taken r := by
  induction rs generalizing pool with
  | nil => simp [freeAll]
  | cons id rs ih =>
    rw [freeAll, List.foldl_cons, ← freeAll, ih, taken_free]
    simp only [List.mem_cons, not_or, ne_eq, and_assoc, and_left_comm]

@[simp] theorem highWater_freeAll (pool : LocalPool) (rs : List Nat) :
    (pool.freeAll rs).highWater = pool.highWater := by
  induction rs generalizing pool with
  | nil => rfl
  | cons id rs ih =>
    rw [freeAll, List.foldl_cons, ← freeAll, ih]
    simp [highWater, free]

end LocalPool

namespace HeldLocals

/-! ## Locals -/

/-- Whether a local holds a value that is still to be read. -/
def Pending (held : HeldLocals) (r : Nat) : Prop := ∃ x, held.get? r = some (some x)

/-- Every local has one entry. -/
def Distinct (held : HeldLocals) : Prop := (held.entries.map (·.1)).Nodup

theorem lookup_entry (k : Nat) (v : Option Expression) (rest : List (Nat × Option Expression))
    (r : Nat) : ((k, v) :: rest).lookup r = if r = k then some v else rest.lookup r := by
  rw [List.lookup_cons]
  cases h : r == k
  · rw [if_neg (by simpa using h)]
  · rw [if_pos (by simpa using h)]

theorem lookup_put (entries : List (Nat × Option Expression)) (id : Nat)
    (state : Option Expression) (r : Nat) :
    (put id state entries).lookup r = if r = id then some state else entries.lookup r := by
  induction entries with
  | nil => rw [put, lookup_entry]
  | cons entry rest ih =>
    obtain ⟨k, v⟩ := entry
    by_cases hk : k = id
    · subst hk
      by_cases hr : r = k <;> simp [put, lookup_entry, hr]
    · by_cases hr : r = k
      · simp [put, hr, hk]
      · simp [put, lookup_entry, hr, hk, ih]

@[simp] theorem get?_set (held : HeldLocals) (id : Nat) (state : Option Expression) (r : Nat) :
    (held.set id state).get? r = if r = id then some state else held.get? r :=
  lookup_put held.entries id state r

theorem mem_keys_put (entries : List (Nat × Option Expression)) (id : Nat)
    (state : Option Expression) (r : Nat) :
    r ∈ (put id state entries).map (·.1) ↔ r = id ∨ r ∈ entries.map (·.1) := by
  induction entries with
  | nil => simp [put]
  | cons entry rest ih =>
    rw [put]
    split
    · simp_all
    · simp only [List.map_cons, List.mem_cons, ih, or_left_comm]

theorem Distinct.set {held : HeldLocals} (h : held.Distinct) (id : Nat)
    (state : Option Expression) : (held.set id state).Distinct := by
  obtain ⟨entries⟩ := held
  simp only [Distinct, HeldLocals.set] at h ⊢
  induction entries with
  | nil => simp [put]
  | cons entry rest ih =>
    rw [List.map_cons, List.nodup_cons] at h
    rw [put]
    split
    · simp_all
    · rw [List.map_cons, List.nodup_cons, mem_keys_put]
      refine ⟨?_, ih h.2⟩
      rintro (rfl | hmem)
      · contradiction
      · exact h.1 hmem

theorem get?_of_mem {held : HeldLocals} (h : held.Distinct) {r : Nat} {state : Option Expression}
    (hmem : (r, state) ∈ held.entries) : held.get? r = some state := by
  obtain ⟨entries⟩ := held
  simp only [Distinct, get?] at h hmem ⊢
  induction entries with
  | nil => simp at hmem
  | cons entry rest ih =>
    rw [List.map_cons, List.nodup_cons] at h
    rcases List.mem_cons.mp hmem with rfl | hmem
    · simp
    · have hne : r ≠ entry.1 := fun e => h.1 (e ▸ List.mem_map_of_mem hmem)
      rw [lookup_entry, if_neg hne, ih h.2 hmem]

/-- Where nothing is pending, nothing is left over. -/
theorem unused_eq_zero {held : HeldLocals} (h : held.Distinct) (hp : ∀ r, ¬ held.Pending r) :
    held.unused = 0 := by
  rw [unused, List.countP_eq_zero]
  rintro ⟨r, state⟩ hmem hsome
  obtain ⟨x, rfl⟩ := Option.isSome_iff_exists.mp hsome
  exact hp r ⟨x, get?_of_mem h hmem⟩

/-- The locals after those of some registers have been read. -/
def takeAll (held : HeldLocals) (rs : List Nat) : HeldLocals :=
  rs.foldl (fun held r => held.set r none) held

@[simp] theorem get?_takeAll (held : HeldLocals) (rs : List Nat) (r : Nat) :
    (held.takeAll rs).get? r = if r ∈ rs then some none else held.get? r := by
  induction rs generalizing held with
  | nil => simp [takeAll]
  | cons id rs ih =>
    rw [takeAll, List.foldl_cons, ← takeAll, ih, get?_set]
    by_cases h : r ∈ rs <;> simp [h]

theorem Distinct.takeAll {held : HeldLocals} (h : held.Distinct) (rs : List Nat) :
    (held.takeAll rs).Distinct := by
  induction rs generalizing held with
  | nil => exact h
  | cons id rs ih => exact ih (h.set id none)

theorem pending_takeAll (held : HeldLocals) (rs : List Nat) (r : Nat) :
    (held.takeAll rs).Pending r ↔ r ∉ rs ∧ held.Pending r := by
  by_cases h : r ∈ rs <;> simp [Pending, h]

/-! ## Collecting from what locals hold -/

section

variable {α : Type} (f : Expression → List α) (held : HeldLocals)

/-- What `f` finds in the value of a local. -/
def gatherAt (r : Nat) : List α := (held.get? r).join.elim [] f

/-- What `f` finds in the values of all locals. -/
def gather : List α := held.entries.flatMap fun entry => entry.2.elim [] f

/-- What a local holds from now on takes the place of what it held. -/
theorem count_gather_set [DecidableEq α] (id : Nat) (state : Option Expression) (a : α) :
    ((held.set id state).gather f).count a + (held.gatherAt f id).count a
      = (held.gather f).count a + (state.elim [] f).count a := by
  obtain ⟨entries⟩ := held
  simp only [set, get?, gather, gatherAt]
  induction entries with
  | nil => simp [put]
  | cons entry rest ih =>
    obtain ⟨k, old⟩ := entry
    rw [put, lookup_entry]
    by_cases hk : k = id
    · subst hk
      simp only [if_true, List.flatMap_cons, List.count_append, Option.join_some]
      omega
    · rw [if_neg hk, if_neg (Ne.symm hk)]
      simp only [List.flatMap_cons, List.count_append]
      omega

/-- The locals that are read hand over what was found in them. -/
theorem count_gather_takeAll [DecidableEq α] {rs : List Nat} (hnodup : rs.Nodup) (a : α) :
    ((held.takeAll rs).gather f).count a + (rs.flatMap (held.gatherAt f)).count a
      = (held.gather f).count a := by
  induction rs generalizing held with
  | nil => simp [takeAll]
  | cons r rs ih =>
    obtain ⟨hr, hnodup⟩ := List.nodup_cons.mp hnodup
    have hothers : rs.flatMap ((held.set r none).gatherAt f) = rs.flatMap (held.gatherAt f) :=
      List.flatMap_congr fun r' hr' => by
        rw [gatherAt, gatherAt, get?_set, if_neg (ne_of_mem_of_not_mem hr' hr)]
    have hset := held.count_gather_set f r none a
    have hrest := ih (held.set r none) hnodup
    rw [hothers] at hrest
    rw [takeAll, List.foldl_cons, ← takeAll, List.flatMap_cons, List.count_append]
    simp only [Option.elim_none, List.count_nil] at hset
    omega

/-- Where no value is left over, there is nothing to be found. -/
theorem gather_eq_nil (h : held.unused = 0) : held.gather f = [] := by
  rw [unused, List.countP_eq_zero] at h
  rw [gather, List.flatMap_eq_nil_iff]
  rintro ⟨r, state⟩ hmem
  cases state with
  | none => rfl
  | some x => exact absurd rfl (h _ hmem)

end

end HeldLocals
end NovelScript
