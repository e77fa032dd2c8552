/-!
# String tables

Texts moved out of a script are kept under keys, in the order in which they were added.  A new text
goes under the lowest free number behind a given head (`insert`), and a text stored under a key that
is taken replaces the one there (`set`).

## What a table remembers

A table finds its entries through an index of their keys.  For each head it counts how many numbers
are known to be taken behind it, so that the search for a free one does not begin at zero again.
Only tables whose index and counts are right are a `StringTable`.
-/

namespace NovelScript

/-- A text and its key. -/
structure StringEntry where
  key : String
  text : String
deriving DecidableEq

namespace StringTable

/-- The key with a number. -/
def numberedKey (head : String) (n : Nat) : String := head ++ toString n

/-- The index says of each key where its entry is. -/
def IsIndex (entries : List StringEntry) (index : List (String × Nat)) : Prop :=
  ∀ key i, index.lookup key = some i ↔ (entries[i]?).map (·.key) = some key

/-- Each count of a head is of numbers that are taken behind it, from zero on. -/
def AreTaken (index counts : List (String × Nat)) : Prop :=
  ∀ head n, n < (counts.lookup head).getD 0 → (index.lookup (numberedKey head n)).isSome

end StringTable

/-- Texts by key, in the order of their first addition. -/
structure StringTable where
  entries : List StringEntry
  index : List (String × Nat)
  counts : List (String × Nat)
  isIndex : StringTable.IsIndex entries index
  areTaken : StringTable.AreTaken index counts
deriving DecidableEq

namespace StringTable

/-- Tables with the same entries are alike, whatever they have counted. -/
instance : BEq StringTable := ⟨fun table other => table.entries == other.entries⟩

/-- The table without texts. -/
def empty : StringTable where
  entries := []
  index := []
  counts := []
  isIndex _ _ := by simp
  areTaken _ _ h := absurd h (Nat.not_lt_zero _)

/-- The number of texts. -/
def size (table : StringTable) : Nat := table.entries.length

/-- Whether a key is taken. -/
def contains (table : StringTable) (key : String) : Bool := (table.index.lookup key).isSome

/-- The text under a key. -/
def get? (table : StringTable) (key : String) : Option String :=
  (table.index.lookup key).bind fun i => (table.entries[i]?).map (·.text)

/-! ## Storing texts -/

/-- A text that is replaced keeps its key. -/
theorem IsIndex.modify {entries : List StringEntry} {index : List (String × Nat)}
    (h : IsIndex entries index) (i : Nat) (text : String) :
    IsIndex (entries.modify i fun entry => { entry with text }) index := by
  intro key j
  rw [h key j, List.getElem?_modify]
  cases entries[j]? with
  | none => rfl
  | some entry => by_cases hij : i = j <;> simp [hij]

theorem lookup_cons_eq {index : List (String × Nat)} {key other : String} {i : Nat} :
    ((key, i) :: index).lookup other = if other = key then some i else index.lookup other := by
  rw [List.lookup_cons]
  split
  · next h => rw [if_pos (beq_iff_eq.mp h)]
  · next h => rw [if_neg (beq_eq_false_iff_ne.mp h)]

/-- A new key comes behind all others. -/
theorem IsIndex.concat {entries : List StringEntry} {index : List (String × Nat)} {key : String}
    (h : IsIndex entries index) (hnew : index.lookup key = none) (text : String) :
    IsIndex (entries ++ [⟨key, text⟩]) ((key, entries.length) :: index) := by
  intro other i
  rw [lookup_cons_eq, List.getElem?_append]
  by_cases hi : i < entries.length
  · rw [if_pos hi]
    split
    · next hother =>
      have hnone := h key i
      rw [hnew] at hnone
      simp [hother, ← hnone, Nat.ne_of_gt hi]
    · exact h other i
  · have hnone := h other i
    rw [List.getElem?_eq_none (Nat.le_of_not_lt hi)] at hnone
    rw [if_neg hi, List.getElem?_singleton]
    have hlast : i - entries.length = 0 ↔ entries.length = i := by omega
    by_cases hother : other = key
    · by_cases hi' : entries.length = i <;> simp [hother, hlast, hi']
    · by_cases hi' : entries.length = i <;> simp [hother, Ne.symm hother, hnone, hlast, hi']

/-- A key that is taken stays so. -/
theorem AreTaken.mono {index index' counts : List (String × Nat)} (h : AreTaken index counts)
    (hmono : ∀ key, (index.lookup key).isSome → (index'.lookup key).isSome) :
    AreTaken index' counts :=
  fun head n hn => hmono _ (h head n hn)

/-- Stores a text under a key. -/
def set (table : StringTable) (key text : String) : StringTable :=
  match h : table.index.lookup key with
  | some i =>
    { table with
      entries := table.entries.modify i fun entry => { entry with text }
      isIndex := table.isIndex.modify i text }
  | none =>
    { table with
      entries := table.entries ++ [⟨key, text⟩]
      index := (key, table.entries.length) :: table.index
      isIndex := table.isIndex.concat h text
      areTaken := table.areTaken.mono fun other hother => by
        rw [lookup_cons_eq]
        split
        · rfl
        · exact hother }

/-- The table of a list of entries; of entries with one key the last gives the text. -/
def ofEntries (entries : List StringEntry) : StringTable :=
  entries.foldl (fun table entry => table.set entry.key entry.text) empty

/-! ## Free numbers -/

/-- How many numbers are known to be taken behind a head. -/
def count (table : StringTable) (head : String) : Nat := (table.counts.lookup head).getD 0

/-- Goes up from `n` to a number that is free behind a head, past as many as there are tries. -/
def probe (table : StringTable) (head : String) (n : Nat) : Nat → Nat
  | 0 => n
  | tries + 1 =>
    if table.contains (numberedKey head n) then table.probe head (n + 1) tries else n

/-- The lowest number that is free behind a head.  It is at most as far away as there are texts. -/
def freeNumber (table : StringTable) (head : String) : Nat :=
  table.probe head (table.count head) table.size

/-- Every number that is passed on the way is taken. -/
theorem contains_of_lt_probe {table : StringTable} {head : String} {m n tries : Nat} (hle : n ≤ m)
    (hlt : m < table.probe head n tries) : table.contains (numberedKey head m) = true := by
  induction tries generalizing n with
  | zero => exact absurd hlt (Nat.not_lt.mpr hle)
  | succ tries ih =>
    rw [probe] at hlt
    split at hlt
    · next htaken =>
      rcases Nat.eq_or_lt_of_le hle with rfl | hle
      · exact htaken
      · exact ih hle hlt
    · exact absurd hlt (Nat.not_lt.mpr hle)

/-- Below the number that is found, all are taken. -/
theorem contains_of_lt_freeNumber {table : StringTable} {head : String} {m : Nat}
    (h : m < table.freeNumber head) : table.contains (numberedKey head m) = true := by
  by_cases hcount : m < table.count head
  · exact table.areTaken head m hcount
  · exact contains_of_lt_probe (Nat.le_of_not_lt hcount) h

/-- What is stored takes its key, and no key is given up. -/
theorem contains_set {table : StringTable} {key text other : String} :
    (table.set key text).contains other = (other == key || table.contains other) := by
  unfold set contains
  split
  · next i h =>
    by_cases hother : other = key
    · simp [hother, h]
    · simp [hother]
  · next h =>
    simp only [lookup_cons_eq]
    by_cases hother : other = key
    · simp [hother]
    · simp [hother]

/-- Storing counts nothing. -/
theorem counts_set {table : StringTable} {key text : String} :
    (table.set key text).counts = table.counts := by
  unfold set
  split <;> rfl

/-- Stores a text under the lowest free key with the given head, and answers the key. -/
def insert (table : StringTable) (head text : String) : String × StringTable :=
  let n := table.freeNumber head
  let key := numberedKey head n
  let stored := table.set key text
  (key, { stored with
    counts := (head, n + 1) :: stored.counts
    areTaken := by
      intro other m hm
      show stored.contains (numberedKey other m) = true
      rw [contains_set, Bool.or_eq_true]
      rw [lookup_cons_eq] at hm
      split at hm
      · next hother =>
        subst hother
        rcases Nat.eq_or_lt_of_le (Nat.le_of_lt_succ hm) with rfl | hm
        · exact .inl (beq_self_eq_true _)
        · exact .inr (contains_of_lt_freeNumber hm)
      · rw [counts_set] at hm
        exact .inr (table.areTaken other m hm) })

end StringTable
end NovelScript
