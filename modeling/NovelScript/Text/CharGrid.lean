/-!
# Character tables in rows

A double-byte character set is a table whose cells are numbered row by row; the number of a cell is
its *pointer*.  A vacant cell holds a full stop, which no such table contains as a character.

The main statement is `char?_of_pointer?`: the cell found for a character holds that character, so a
table read forwards undoes the same table read backwards.
-/

namespace NovelScript.Text

/-- The cells of a character table in the order of their pointers. -/
structure CharGrid where
  cells : Array Char

namespace CharGrid

/-- Marks a cell without a character. -/
def vacant : Char := '.'

/-- Lays out rows of `width` cells; a short row is vacant to its right. -/
def ofRows (width : Nat) (rows : List String) : CharGrid :=
  ⟨(rows.flatMap fun row => row.toList.rightpad width vacant).toArray⟩

/-- Fills vacant cells by a rule on their pointers. -/
def fillVacant (grid : CharGrid) (rule : Nat → Option Char) : CharGrid :=
  ⟨grid.cells.mapIdx fun pointer c => if c = vacant then (rule pointer).getD vacant else c⟩

/-- The character in a cell, if there is one. -/
def char? (grid : CharGrid) (pointer : Nat) : Option Char :=
  grid.cells[pointer]?.filter (· ≠ vacant)

/-- The first cell outside `skipped` that holds `c`. -/
def pointer? (grid : CharGrid) (skipped : Nat → Bool) (c : Char) : Option Nat :=
  (List.range grid.cells.size).find? fun pointer =>
    !skipped pointer && grid.char? pointer == some c

theorem char?_of_pointer? {grid : CharGrid} {skipped : Nat → Bool} {c : Char} {pointer : Nat}
    (h : grid.pointer? skipped c = some pointer) : grid.char? pointer = some c := by
  have := List.find?_some h
  simp_all

theorem pointer?_lt {grid : CharGrid} {skipped : Nat → Bool} {c : Char} {pointer : Nat}
    (h : grid.pointer? skipped c = some pointer) : pointer < grid.cells.size := by
  simpa using List.mem_of_find?_eq_some h

theorem not_skipped_of_pointer? {grid : CharGrid} {skipped : Nat → Bool} {c : Char} {pointer : Nat}
    (h : grid.pointer? skipped c = some pointer) : skipped pointer = false := by
  have := List.find?_some h
  simp_all

end CharGrid
end NovelScript.Text
