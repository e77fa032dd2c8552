/-!
# Sets of code points

A property of characters is a list of runs of code points, written as hexadecimal numbers: `41-5A`
is a run and `5F` a run of one.  Such a text is read once into pairs of ends.
-/

namespace NovelScript.Text

/-- A set of code points as runs, each from its first to its last member. -/
structure CodePoints where
  runs : List (Nat × Nat)

namespace CodePoints

/-- The value of a hexadecimal numeral with capital digits. -/
def hexValue (digits : List Char) : Nat :=
  digits.foldl
    (fun n c => 16 * n + if c.isDigit then c.toNat - '0'.toNat else c.toNat - 'A'.toNat + 10) 0

/-- Reads `41-5A` or `5F`. -/
def readRun (text : String) : Nat × Nat :=
  match text.splitOn "-" with
  | [first, last] => (hexValue first.toList, hexValue last.toList)
  | _ => (hexValue text.toList, hexValue text.toList)

/-- Reads lines of runs separated by single spaces. -/
def ofRuns (lines : List String) : CodePoints :=
  ⟨lines.flatMap fun line => (line.splitOn " ").map readRun⟩

/-- Whether the set holds `c`. -/
def contains (set : CodePoints) (c : Char) : Bool :=
  set.runs.any fun run => run.1 ≤ c.toNat && c.toNat ≤ run.2

theorem contains_iff {set : CodePoints} {c : Char} :
    set.contains c ↔ ∃ run ∈ set.runs, run.1 ≤ c.toNat ∧ c.toNat ≤ run.2 := by
  simp [contains]

end CodePoints
end NovelScript.Text
