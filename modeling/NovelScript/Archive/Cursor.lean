import NovelScript.Archive.Error
import NovelScript.Byte.Word

/-!
# Contents with a position

A handle on a file works on a copy of its contents at a position, which may lie behind their end.
-/

namespace NovelScript

/-- Contents and a position. -/
structure Cursor where
  contents : Bytes
  position : Nat := 0
deriving DecidableEq

/-- What an offset counts from. -/
inductive Whence where
  | start
  | current
  | end_
deriving DecidableEq

namespace Cursor

/-- The size of the contents. -/
def size (cursor : Cursor) : Nat := cursor.contents.length

/-- Reads up to `n` octets and moves behind them. -/
def read (cursor : Cursor) (n : Nat) : Bytes × Cursor :=
  let octets := (cursor.contents.drop cursor.position).take n
  (octets, { cursor with position := cursor.position + octets.length })

/-- Writes over the contents and behind them, and moves behind what was written.  A gap in front of
the position is filled with zeros. -/
def write (cursor : Cursor) (octets : Bytes) : Cursor :=
  let before := cursor.contents.rightpad cursor.position 0
  { contents := before.take cursor.position ++ octets
      ++ before.drop (cursor.position + octets.length)
    position := cursor.position + octets.length }

/-- Cuts the contents off or fills them up with zeros; the position stays inside. -/
def setSize (cursor : Cursor) (size : Nat) : Cursor where
  contents := (cursor.contents.rightpad size 0).take size
  position := min cursor.position size

/-- Moves the position, which must stay a 64-bit number. -/
def seek (cursor : Cursor) (whence : Whence) (offset : Int) : Except FileFault Cursor :=
  let base : Int := match whence with
    | .start => 0
    | .current => cursor.position
    | .end_ => cursor.size
  let position := base + offset
  if 0 ≤ position ∧ position < 18446744073709551616 then
    .ok { cursor with position := position.toNat }
  else .error .badSeek

end Cursor
end NovelScript
