import Mathlib.Data.List.Induction
import Mathlib.Order.Bounds.Defs
import NovelScript.Proofs.Script.Keys

/-!
# Keys of string tables are the lowest free ones

A text that is inserted gets the lowest number that is free behind its head, although the search for
it begins at a count from earlier ones.  Heads may end in digits or continue each other, so a number
that is counted may have been taken under another head, or by hand; what a count promises is only
that the numbers below it are taken.  `StringTable.keyed` says so of every table, together with
what becomes of the other entries.
-/

namespace NovelScript
namespace StringTable

variable {table : StringTable} {head key text : String} {i m n tries : Nat}

/-- The keys of a table, in order. -/
def keys (table : StringTable) : List String := table.entries.map (·.key)

/-- The search for a free number behind a head: it goes up from one number, past those that are
taken, and ends at the other. -/
inductive Probes (table : StringTable) (head : String) : Nat → Nat → Prop where
  | found {n : Nat} (hfree : numberedKey head n ∉ table.keys) : Probes table head n n
  | next {m n : Nat} (htaken : numberedKey head m ∈ table.keys)
      (hrest : Probes table head (m + 1) n) : Probes table head m n

/-! ## Entries by key -/

/-- Keys tell entries apart. -/
theorem nodup_keys (table : StringTable) : table.keys.Nodup := by
  rw [List.nodup_iff_getElem?_ne_getElem?]
  intro i j hlt hj heq
  rw [keys, List.length_map] at hj
  rw [keys, List.getElem?_map, List.getElem?_map, List.getElem?_eq_getElem hj, Option.map_some]
    at heq
  -- the index has one place for a key
  have hi := (table.isIndex _ i).mpr heq
  have hj' := (table.isIndex (table.entries[j]).key j).mpr (by
    rw [List.getElem?_eq_getElem hj, Option.map_some])
  rw [hi, Option.some.injEq] at hj'
  omega

theorem not_mem_keys_iff : key ∉ table.keys ↔ table.contains key = false := by
  rw [keys, ← contains_iff, Bool.not_eq_true]

/-- A text under a key that is taken replaces the one there. -/
theorem entries_set_of_mem (h : key ∈ table.keys) (text : String) :
    (table.set key text).entries
      = table.entries.map fun entry => if entry.key = key then ⟨key, text⟩ else entry := by
  unfold set
  split
  · next i hi =>
    apply List.ext_getElem?
    intro j
    rw [List.getElem?_modify, List.getElem?_map]
    cases hj : table.entries[j]? with
    | none => rfl
    | some entry =>
      have hkey : entry.key = key ↔ i = j := by
        have hindex := table.isIndex key j
        rw [hi, hj, Option.map_some, Option.some.injEq, Option.some.injEq] at hindex
        exact hindex.symm
      by_cases hij : i = j
      · simp [hij, hkey.mpr hij]
      · simp [hij, mt hkey.mp hij]
  · next hnone =>
    rw [keys, ← contains_iff, contains, hnone] at h
    cases h

/-! ## Loading entries -/

/-- A text that is set is found under its key, and all others are as before. -/
theorem get?_set (table : StringTable) (key text other : String) :
    (table.set key text).get? other = if other = key then some text else table.get? other := by
  unfold set get?
  split
  · next i hi =>
    obtain ⟨entry, hentry, hkey⟩ := Option.map_eq_some_iff.mp ((table.isIndex key i).mp hi)
    by_cases hother : other = key
    · simp [hother, hi, hentry]
    · rw [if_neg hother]
      cases hj : table.index.lookup other with
      | none => rfl
      | some j =>
        -- the entry that is changed is under another key
        have hne : i ≠ j := by
          rintro rfl
          have hsame := (table.isIndex other i).mp hj
          rw [hentry, Option.map_some, Option.some.injEq, hkey] at hsame
          exact hother hsame.symm
        simp [hne]
  · simp only [lookup_cons_eq]
    by_cases hother : other = key
    · simp [hother]
    · rw [if_neg hother, if_neg hother]
      cases hj : table.index.lookup other with
      | none => rfl
      | some j =>
        obtain ⟨entry, hentry, -⟩ := Option.map_eq_some_iff.mp ((table.isIndex other j).mp hj)
        obtain ⟨hlt, -⟩ := List.getElem?_eq_some_iff.mp hentry
        simp only [Option.bind_some]
        rw [List.getElem?_append_left hlt]

theorem keys_set (table : StringTable) (key text : String) :
    (table.set key text).keys = if key ∈ table.keys then table.keys else table.keys ++ [key] := by
  split
  · next hkey =>
    rw [keys, entries_set_of_mem hkey, List.map_map, keys]
    refine List.map_congr_left fun entry _ => ?_
    simp only [Function.comp_apply]
    split
    · next heq => exact heq.symm
    · rfl
  · next hkey =>
    rw [keys, entries_set_of_not_contains (not_mem_keys_iff.mp hkey), List.map_append]
    rfl

theorem ofEntries_concat (entries : List StringEntry) (entry : StringEntry) :
    ofEntries (entries ++ [entry]) = (ofEntries entries).set entry.key entry.text := by
  rw [ofEntries, List.foldl_concat, ofEntries]

/-- A table that is loaded has the keys of the entries, in the order in which they first come. -/
theorem keys_ofEntries (entries : List StringEntry) :
    (ofEntries entries).keys = (entries.map (·.key)).eraseDups := by
  induction entries using List.reverseRecOn with
  | nil => rfl
  | append_singleton entries entry ih =>
    rw [ofEntries_concat, keys_set, ih, List.map_append, List.map_singleton,
      List.eraseDups_append, List.removeAll]
    by_cases hkey : entry.key ∈ entries.map (·.key)
    · simp only [List.mem_eraseDups, hkey, if_true, List.elem_eq_mem, decide_true, Bool.not_true,
        List.filter_cons, Bool.false_eq_true, if_false, List.filter_nil, List.eraseDups_nil,
        List.append_nil]
    · simp only [List.mem_eraseDups, hkey, if_false, List.elem_eq_mem, decide_false, Bool.not_false,
        List.filter_cons, if_true, List.filter_nil]
      rfl

/-- Of entries with one key, the last one that is loaded gives the text. -/
theorem get?_ofEntries (entries : List StringEntry) (key : String) :
    (ofEntries entries).get? key = (entries.reverse.find? (·.key == key)).map (·.text) := by
  induction entries using List.reverseRecOn with
  | nil => rfl
  | append_singleton entries entry ih =>
    rw [ofEntries_concat, get?_set, ih, List.reverse_append, List.reverse_singleton,
      List.singleton_append, List.find?_cons]
    by_cases hkey : key = entry.key
    · rw [if_pos hkey, beq_iff_eq.mpr hkey.symm]
      rfl
    · rw [if_neg hkey, beq_eq_false_iff_ne.mpr (Ne.symm hkey)]

/-! ## Free numbers -/

/-- A search that ends at a free number has passed only taken ones. -/
theorem probes_probe (hfree : numberedKey head (table.probe head n tries) ∉ table.keys) :
    table.Probes head n (table.probe head n tries) := by
  induction tries generalizing n with
  | zero => exact .found hfree
  | succ tries ih =>
    rw [probe] at hfree ⊢
    split at hfree
    · next htaken =>
      rw [if_pos htaken]
      exact .next (contains_iff.mp htaken) (ih hfree)
    · next hopen =>
      rw [if_neg hopen]
      exact .found hfree

/-- What tables promise: keys tell entries apart and give their texts, a text that is set goes
behind the others or in the place of the one under its key, and a text that is inserted goes behind
the others, under the lowest number that is free. -/
structure Keyed (table : StringTable) : Prop where
  distinct : table.keys.Nodup
  get?_iff : ∀ key text, table.get? key = some text ↔ ⟨key, text⟩ ∈ table.entries
  set_taken : ∀ key text, key ∈ table.keys → (table.set key text).entries
    = table.entries.map fun entry => if entry.key = key then ⟨key, text⟩ else entry
  set_new : ∀ key text, key ∉ table.keys →
    (table.set key text).entries = table.entries ++ [⟨key, text⟩]
  insert : ∀ head text, ∃ n, table.Probes head (table.count head) n
    ∧ IsLeast {m | numberedKey head m ∉ table.keys} n
    ∧ (table.insert head text).1 = numberedKey head n
    ∧ (table.insert head text).2.entries = table.entries ++ [⟨numberedKey head n, text⟩]

/-- **Inserted texts get the lowest free keys, and nothing is lost.**  This holds of every table, so
of all that come from loading entries, setting texts and inserting texts in any order.  What a
loaded table holds is said by `keys_ofEntries` and `get?_ofEntries`. -/
theorem keyed (table : StringTable) : table.Keyed where
  distinct := table.nodup_keys
  get?_iff _ _ := get?_eq_some_iff
  set_taken _ text h := entries_set_of_mem h text
  set_new _ text h := entries_set_of_not_contains (not_mem_keys_iff.mp h) text
  insert head text := by
    have hfree : numberedKey head (table.freeNumber head) ∉ table.keys :=
      not_mem_keys_iff.mpr (table.contains_freeNumber head)
    refine ⟨table.freeNumber head, probes_probe hfree, ⟨hfree, fun m hm => ?_⟩, rfl,
      table.entries_insert head text⟩
    by_contra hlt
    exact hm (contains_iff.mp (contains_of_lt_freeNumber (Nat.lt_of_not_le hlt)))

/-- A key that was set by hand is counted under both heads that it continues. -/
example :
    let table := ((ofEntries [⟨"T10", "by hand"⟩]).insert "T" "first").2
    (table.insert "T1" "second").1 = "T11" ∧ (table.insert "T" "second").1 = "T1" := by
  decide +kernel

end StringTable
end NovelScript
