import Mathlib.Data.List.Nodup
import NovelScript.Proofs.Script.Registers
import NovelScript.Proofs.Script.Trees

/-!
# Keys of moved texts

A text that moves out of a script goes behind the entries of the string table.  A table has not as
many keys as numbers are tried, so its key is new (`StringTable.contains_freeNumber`), and however
many texts follow it, the text stays under its key (`StringTable.Appends`).

In trees and locals a key stands for its text.  `Statement.keysList` lists the keys of a tree, one
for each place, as `Statement.resolveList` puts a text back in each.
-/

namespace NovelScript

namespace StringTable

/-! ## Tables that grow -/

theorem numberedKey_injective (head : String) : Function.Injective (numberedKey head) := by
  intro m n h
  rw [numberedKey, numberedKey, String.append_right_inj, Nat.toString_eq_ofList_toDigits,
    Nat.toString_eq_ofList_toDigits, String.ofList_inj] at h
  rw [← Nat.ofDigitChars_toDigits (b := 10) (n := m) (by decide) (by decide), h,
    Nat.ofDigitChars_toDigits (by decide) (by decide)]

theorem contains_iff {table : StringTable} {key : String} :
    table.contains key = true ↔ key ∈ table.entries.map (·.key) := by
  rw [contains, Option.isSome_iff_exists, List.mem_iff_getElem?]
  simp only [table.isIndex key, List.getElem?_map]

/-- A table gives just the texts of its entries. -/
theorem get?_eq_some_iff {table : StringTable} {key text : String} :
    table.get? key = some text ↔ ⟨key, text⟩ ∈ table.entries := by
  rw [get?, Option.bind_eq_some_iff, List.mem_iff_getElem?]
  constructor
  · rintro ⟨i, hi, htext⟩
    obtain ⟨entry, hentry, rfl⟩ := Option.map_eq_some_iff.mp htext
    rw [table.isIndex, hentry, Option.map_some, Option.some.injEq] at hi
    exact ⟨i, by rw [hentry, ← hi]⟩
  · rintro ⟨i, hi⟩
    exact ⟨i, by rw [table.isIndex, hi, Option.map_some], by rw [hi, Option.map_some]⟩

/-- Where the search for a free number gives up, it has used up its tries. -/
theorem probe_eq_of_contains {table : StringTable} {head : String} {n tries : Nat}
    (h : table.contains (numberedKey head (table.probe head n tries)) = true) :
    table.probe head n tries = n + tries := by
  induction tries generalizing n with
  | zero => rfl
  | succ tries ih =>
    rw [probe] at h ⊢
    split at h
    · next htaken => rw [if_pos htaken, ih h, Nat.add_assoc, Nat.add_comm 1]
    · next hfree => exact absurd h hfree

/-- The number that is found is free. -/
theorem contains_freeNumber (table : StringTable) (head : String) :
    table.contains (numberedKey head (table.freeNumber head)) = false := by
  rw [Bool.eq_false_iff]
  intro htaken
  have hfar : table.freeNumber head = table.count head + table.size := probe_eq_of_contains htaken
  -- there would be more keys than entries
  have hsubset : (List.range (table.freeNumber head + 1)).map (numberedKey head)
      ⊆ table.entries.map (·.key) := by
    intro key hkey
    obtain ⟨n, hn, rfl⟩ := List.mem_map.mp hkey
    rw [← contains_iff]
    rcases Nat.eq_or_lt_of_le (Nat.le_of_lt_succ (List.mem_range.mp hn)) with rfl | hn
    · exact htaken
    · exact contains_of_lt_freeNumber hn
  have hdistinct := (List.nodup_range (n := table.freeNumber head + 1)).map
    (numberedKey_injective head)
  have hlength := hdistinct.length_le_of_subset hsubset
  simp only [List.length_map, List.length_range, hfar, size] at hlength
  omega

/-- A text under a new key is stored behind all others. -/
theorem entries_set_of_not_contains {table : StringTable} {key : String}
    (h : table.contains key = false) (text : String) :
    (table.set key text).entries = table.entries ++ [⟨key, text⟩] := by
  rw [contains, Option.isSome_eq_false_iff, Option.isNone_iff_eq_none] at h
  unfold set
  split
  · next i hi => rw [h] at hi; cases hi
  · rfl

/-- A text is stored behind all others, under a key that was free. -/
theorem entries_insert (table : StringTable) (head text : String) :
    (table.insert head text).2.entries
      = table.entries ++ [⟨(table.insert head text).1, text⟩] :=
  entries_set_of_not_contains (table.contains_freeNumber head) text

/-- The table `later` has those entries behind all of `table`, under keys that are all new. -/
structure Appends (table : StringTable) (added : List StringEntry) (later : StringTable) :
    Prop where
  entries : later.entries = table.entries ++ added
  distinct : (added.map (·.key)).Nodup
  fresh : ∀ entry ∈ added, table.contains entry.key = false

theorem Appends.refl (table : StringTable) : table.Appends [] table :=
  ⟨(List.append_nil _).symm, List.nodup_nil, by simp⟩

theorem Appends.insert {table now : StringTable} {added : List StringEntry}
    (h : table.Appends added now) (head text : String) :
    table.Appends (added ++ [⟨(now.insert head text).1, text⟩]) (now.insert head text).2 := by
  have hfree : (now.insert head text).1 ∉ now.entries.map (·.key) := by
    rw [← contains_iff, Bool.not_eq_true]
    exact now.contains_freeNumber head
  rw [h.entries, List.map_append, List.mem_append, not_or] at hfree
  refine ⟨?_, ?_, ?_⟩
  · rw [entries_insert, h.entries, List.append_assoc]
  · rw [List.map_append, List.map_singleton]
    refine List.nodup_append.mpr ⟨h.distinct, List.nodup_singleton _, ?_⟩
    rintro key hkey _ hlast rfl
    rw [List.mem_singleton.mp hlast] at hkey
    exact hfree.2 hkey
  · intro entry hentry
    rcases List.mem_append.mp hentry with hold | hlast
    · exact h.fresh entry hold
    · rw [List.mem_singleton.mp hlast, Bool.eq_false_iff, ne_eq, contains_iff]
      exact hfree.1

/-- An entry under a new key gives its text, whatever stands behind it. -/
theorem get?_of_prefix_insert {now later : StringTable} {head text : String}
    (h : (now.insert head text).2.entries <+: later.entries) :
    later.get? (now.insert head text).1 = some text := by
  rw [get?_eq_some_iff]
  exact h.subset (by rw [entries_insert]; exact List.mem_append_right _ List.mem_cons_self)

theorem Appends.get?_isSome {table later : StringTable} {added : List StringEntry} {key : String}
    (h : table.Appends added later) (hkey : key ∈ added.map (·.key)) :
    ∃ text, later.get? key = some text := by
  obtain ⟨entry, hentry, rfl⟩ := List.mem_map.mp hkey
  refine ⟨entry.text, get?_eq_some_iff.mpr ?_⟩
  rw [h.entries]
  exact List.mem_append_right _ hentry

end StringTable

/-! ## Keys of trees -/

/-- The key of a text that has been moved out. -/
def TextLiteral.keys : TextLiteral → List String
  | plain _ => []
  | external key => [key]

namespace Expression

mutual

/-- The keys in an expression, as often as they stand in it. -/
def keys : Expression → List String
  | text literal => literal.keys
  | operation operands _ => keysList operands
  | call _ arguments => keysList arguments
  | _ => []

/-- The keys in expressions. -/
def keysList : List Expression → List String
  | [] => []
  | x :: xs => keys x ++ keysList xs

end

end Expression

namespace Statement

mutual

/-- The keys in a statement, as often as they stand in it. -/
def keys : Statement → List String
  | block body => keysList body
  | assignment _ value => value.keys
  | call _ arguments => Expression.keysList arguments
  | bodyCall _ arguments body => Expression.keysList arguments ++ keysList body
  | conditional condition body otherwise =>
    condition.keys ++ keysList body ++ keysOption otherwise
  | label _ => []

/-- The keys in statements. -/
def keysList : List Statement → List String
  | [] => []
  | s :: rest => keys s ++ keysList rest

/-- The keys in an alternative. -/
def keysOption : Option (List Statement) → List String
  | none => []
  | some body => keysList body

end

@[simp] theorem keysList_append (tree more : List Statement) :
    keysList (tree ++ more) = keysList tree ++ keysList more := by
  induction tree with
  | nil => rfl
  | cons s rest ih => rw [List.cons_append, keysList, keysList, ih, List.append_assoc]

@[simp] theorem resolveList_append (strings : StringTable) (tree more : List Statement) :
    resolveList strings (tree ++ more) = resolveList strings tree ++ resolveList strings more := by
  induction tree with
  | nil => rfl
  | cons s rest ih => rw [List.cons_append, resolveList, resolveList, ih, List.cons_append]

end Statement

/-! ## Keys of locals -/

namespace HeldLocals

/-- The keys in what a local holds. -/
def stateKeys (state : Option Expression) : List String := state.elim [] Expression.keys

/-- The keys in what the locals hold. -/
def keys (held : HeldLocals) : List String := held.entries.flatMap fun entry => stateKeys entry.2

/-- The locals with the texts put back in what they hold. -/
def resolve (strings : StringTable) (held : HeldLocals) : HeldLocals :=
  ⟨held.entries.map fun entry => (entry.1, entry.2.map (·.resolve strings))⟩

theorem get?_resolve (strings : StringTable) (held : HeldLocals) (id : Nat) :
    (held.resolve strings).get? id = (held.get? id).map (Option.map (·.resolve strings)) := by
  obtain ⟨entries⟩ := held
  simp only [get?, resolve]
  induction entries with
  | nil => rfl
  | cons entry rest ih =>
    obtain ⟨k, state⟩ := entry
    rw [List.map_cons, lookup_entry, lookup_entry, ih]
    by_cases hk : id = k <;> simp [hk]

theorem resolve_set (strings : StringTable) (held : HeldLocals) (id : Nat)
    (state : Option Expression) :
    (held.set id state).resolve strings
      = (held.resolve strings).set id (state.map (·.resolve strings)) := by
  obtain ⟨entries⟩ := held
  simp only [set, resolve, mk.injEq]
  induction entries with
  | nil => rfl
  | cons entry rest ih =>
    by_cases hk : entry.1 = id
    · simp [put, hk]
    · simp [put, hk, ih]

theorem unused_resolve (strings : StringTable) (held : HeldLocals) :
    (held.resolve strings).unused = held.unused := by
  simp [unused, resolve, List.countP_map, Function.comp_def]

/-- What a local holds from now on takes the place of what it held. -/
theorem count_keys_set (held : HeldLocals) (id : Nat) (state : Option Expression) (key : String) :
    (held.set id state).keys.count key + (stateKeys (held.get? id).join).count key
      = held.keys.count key + (stateKeys state).count key :=
  held.count_gather_set Expression.keys id state key

end HeldLocals
end NovelScript
