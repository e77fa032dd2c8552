import NovelScript.Yaml.Characters

/-!
# The text of scalars

A scalar is written plain, between quotes, or as a block of lines.  In the first two a break between
lines stands for a blank, and of several breaks the first stands for nothing (`fold`); a block keeps
its breaks, or folds those between lines that do not open with a blank.

Every reader here answers the text and what follows the scalar, or nothing if the scalar is broken
off or badly indented.
-/

namespace NovelScript.Yaml

/-! ## Folding -/

/-- A part of a scalar. -/
inductive Piece where
  | text (c : Char)
  /-- A blank or a break. -/
  | gap (c : Char)
  /-- A break that stands for nothing. -/
  | joint
deriving DecidableEq

/-- A run of blanks and breaks. -/
structure Gap where
  blanks : List Char := []
  /-- The first break, if it stands for anything, and the later ones. -/
  breaks : Option (List Char × List Char) := none

namespace Gap

/-- The run with one more character.  Blanks around breaks do not count. -/
def add (gap : Gap) (c : Char) : Gap :=
  match gap.breaks with
  | none => if isBreak c then ⟨[], some ([c], [])⟩ else ⟨gap.blanks ++ [c], none⟩
  | some (first, later) => if isBreak c then ⟨[], some (first, later ++ [c])⟩ else gap

/-- What a run stands for. -/
def text (gap : Gap) : List Char :=
  match gap.breaks with
  | none => gap.blanks
  | some (['\n'], []) => [' ']
  | some (['\n'], later) => later
  | some (first, later) => first ++ later

end Gap

/-- The text of pieces behind a run of blanks and breaks. -/
def foldFrom (gap : Gap) : List Piece → List Char
  | [] => gap.text
  | .text c :: rest => gap.text ++ c :: foldFrom {} rest
  | .gap c :: rest => foldFrom (gap.add c) rest
  | .joint :: rest => gap.text ++ foldFrom ⟨[], some ([], [])⟩ rest

/-- The text of pieces. -/
def fold (pieces : List Piece) : String := .ofList (foldFrom {} pieces)

/-! ## Marks between documents -/

/-- Whether a mark of a document stands here. -/
def isMark (mark : List Char) (input : List Char) : Bool :=
  mark.isPrefixOf input && endsWord (input.drop 3)

/-- Opens a document. -/
def startMark : List Char := ['-', '-', '-']

/-- Closes a document. -/
def endMark : List Char := ['.', '.', '.']

/-- Whether either mark stands here. -/
def isAnyMark (input : List Char) : Bool := isMark startMark input || isMark endMark input

/-! ## Quotes -/

/-- Reads pieces up to a single quote; two of them stand for one.  No mark of a document may open a
line. -/
def singleQuoted (lineStart : Bool) : List Char → Option (List Piece × List Char)
  | [] => none
  | '\'' :: '\'' :: rest => do
    let (pieces, rest) ← singleQuoted false rest
    return (.text '\'' :: pieces, rest)
  | '\'' :: rest => some ([], rest)
  | c :: rest =>
    if lineStart && isAnyMark (c :: rest) then none
    else do
      let (pieces, after) ← singleQuoted (isBreak c) rest
      return ((if isGap c then .gap c else .text c) :: pieces, after)

/-- What a backslash and this character stand for. -/
def simpleEscape? : Char → Option Char
  | '0' => some '\x00'
  | 'a' => some '\x07'
  | 'b' => some '\x08'
  | 't' | '\t' => some '\t'
  | 'n' => some '\n'
  | 'v' => some '\x0b'
  | 'f' => some '\x0c'
  | 'r' => some '\r'
  | 'e' => some '\x1b'
  | ' ' => some ' '
  | '"' => some '"'
  | '/' => some '/'
  | '\\' => some '\\'
  | 'N' => some '\u0085'
  | '_' => some '\u00a0'
  | 'L' => some '\u2028'
  | 'P' => some '\u2029'
  | _ => none

/-- The value of a hexadecimal digit. -/
def hexValue? (c : Char) : Option Nat :=
  if '0' ≤ c ∧ c ≤ '9' then some (c.toNat - 48)
  else if 'a' ≤ c ∧ c ≤ 'f' then some (c.toNat - 87)
  else if 'A' ≤ c ∧ c ≤ 'F' then some (c.toNat - 55)
  else none

/-- The character whose number these hexadecimal digits give. -/
def hexChar? (digits : List Char) : Option Char := do
  let n := (← digits.mapM hexValue?).foldl (fun n d => 16 * n + d) 0
  if n.isValidChar then some (.ofNat n) else none

/-- Reads pieces up to a double quote.  A backslash at the end of a line joins it to the next. -/
def doubleQuoted (lineStart : Bool) : List Char → Option (List Piece × List Char)
  | [] => none
  | '"' :: rest => some ([], rest)
  | '\\' :: 'x' :: a :: b :: rest => do
    let c ← hexChar? [a, b]
    let (pieces, rest) ← doubleQuoted false rest
    return (.text c :: pieces, rest)
  | '\\' :: 'u' :: a :: b :: c :: d :: rest => do
    let c ← hexChar? [a, b, c, d]
    let (pieces, rest) ← doubleQuoted false rest
    return (.text c :: pieces, rest)
  | '\\' :: 'U' :: a :: b :: c :: d :: e :: f :: g :: h :: rest => do
    let c ← hexChar? [a, b, c, d, e, f, g, h]
    let (pieces, rest) ← doubleQuoted false rest
    return (.text c :: pieces, rest)
  | '\\' :: c :: rest => do
    let piece ← if isBreak c then some .joint else (simpleEscape? c).map .text
    let (pieces, rest) ← doubleQuoted (isBreak c) rest
    return (piece :: pieces, rest)
  | c :: rest =>
    if lineStart && isAnyMark (c :: rest) then none
    else do
      let (pieces, after) ← doubleQuoted (isBreak c) rest
      return ((if isGap c then .gap c else .text c) :: pieces, after)

/-! ## Plain scalars -/

/-- A plain scalar and what follows it. -/
structure PlainScalar where
  pieces : List Piece
  /-- Whether lines end between the scalar and what follows. -/
  brokeLine : Bool
  rest : List Char

/-- Whether a plain scalar ends in front of a character of it. -/
def endsPlain (flow : Bool) (c : Char) (rest : List Char) : Bool :=
  (c == ':' && endsWord rest) || (flow && [',', '[', ']', '\x7b', '\x7d'].contains c)

/-- Whether a colon inside brackets is followed by a bracket or comma, where none may be. -/
def isStrayColon (flow : Bool) (c : Char) (rest : List Char) : Bool :=
  flow && c == ':' && rest.head?.any [',', '?', '[', ']', '\x7b', '\x7d'].contains

/-- Reads a plain scalar from `column` on, behind the blanks and breaks `gap` (the last one first),
among which `broke` says whether a line ends.  Outside brackets (`flow`) later lines must be
indented by `indent` at least. -/
def plainFrom (flow : Bool) (indent : Int) (column : Nat) (gap : List Char) (broke : Bool) :
    List Char → Option PlainScalar
  | [] => some ⟨[], broke, []⟩
  | c :: rest =>
    if isBreak c then plainFrom flow indent 0 (c :: gap) true rest
    else if isBlank c then
      if broke ∧ column < indent ∧ c = '\t' then none
      else plainFrom flow indent (column + 1) (c :: gap) broke rest
    else if ¬ gap.isEmpty ∧ (c = '#' ∨ (broke ∧ ¬ flow ∧ column < indent)
        ∨ (column = 0 ∧ isAnyMark (c :: rest))) then
      some ⟨[], broke, c :: rest⟩
    else if isStrayColon flow c rest then none
    else if endsPlain flow c rest then some ⟨[], broke, c :: rest⟩
    else do
      let scalar ← plainFrom flow indent (column + 1) [] false rest
      return { scalar with pieces := gap.reverse.map .gap ++ .text c :: scalar.pieces }

/-! ## Blocks of lines -/

/-- Empty lines and where they end. -/
structure EmptyLines where
  breaks : List Char
  /-- The most blanks at the front of a line. -/
  widest : Nat
  column : Nat
  rest : List Char

/-- Skips lines without text, and the indentation of the line behind them: all its blanks, or as
many as `limit` says. -/
def emptyLines (limit : Option Nat) (column widest : Nat) : List Char → Option EmptyLines
  | [] => some ⟨[], max widest column, column, []⟩
  | c :: rest =>
    if c = ' ' ∧ limit.all (column < ·) then emptyLines limit (column + 1) widest rest
    else if c = '\t' ∧ limit.all (column < ·) then none
    else if isBreak c then do
      let lines ← emptyLines limit 0 (max widest column) rest
      return { lines with breaks := c :: lines.breaks }
    else some ⟨[], max widest column, column, c :: rest⟩

/-- What becomes of the breaks at the end of a block. -/
inductive Chomping where
  | strip
  | clip
  | keep
deriving DecidableEq

/-- How a block is written. -/
structure BlockHeader where
  chomping : Chomping
  /-- By how much the block is indented, if that is said. -/
  increment : Option Nat

/-- The sign that says what becomes of the last breaks. -/
def chomping? : Char → Option Chomping
  | '+' => some .keep
  | '-' => some .strip
  | _ => none

/-- The digit that says how much the block is indented. -/
def increment? (c : Char) : Option Nat :=
  if '1' ≤ c ∧ c ≤ '9' then some (c.toNat - 48) else none

/-- Reads the signs behind the bar of a block, in either order. -/
def blockSigns (input : List Char) : BlockHeader × List Char :=
  match input with
  | a :: b :: rest =>
    match chomping? a, increment? a, chomping? b, increment? b with
    | some chomping, _, _, some n => (⟨chomping, some n⟩, rest)
    | some chomping, _, _, none => (⟨chomping, none⟩, b :: rest)
    | none, some n, some chomping, _ => (⟨chomping, some n⟩, rest)
    | none, some n, none, _ => (⟨.clip, some n⟩, b :: rest)
    | none, none, _, _ => (⟨.clip, none⟩, input)
  | [a] =>
    match chomping? a, increment? a with
    | some chomping, _ => (⟨chomping, none⟩, [])
    | none, some n => (⟨.clip, some n⟩, [])
    | none, none => (⟨.clip, none⟩, input)
  | [] => (⟨.clip, none⟩, [])

/-- The end of a line that holds nothing but blanks and a comment. -/
def restOfLine (input : List Char) : Option (List Char) :=
  let input := input.dropWhile isBlank
  let input := if input.head? = some '#' then input.dropWhile (!isBreak ·) else input
  match input with
  | [] => some []
  | c :: rest => if isBreak c then some rest else none

/-- A block under construction. -/
structure BlockText where
  /-- The lines so far, the last character first. -/
  text : List Char := []
  /-- The break behind the last line. -/
  lineBreak : List Char := []
  /-- The breaks of the empty lines behind it. -/
  emptyBreaks : List Char
  /-- Whether the last line opens with a blank. -/
  opensBlank : Bool := false
  column : Nat
  rest : List Char

namespace BlockText

/-- What stands between the last line and one that opens with `c`. -/
def joint (folded : Bool) (block : BlockText) (c : Char) : List Char :=
  if folded ∧ block.lineBreak = ['\n'] ∧ ¬ block.opensBlank ∧ ¬ isBlank c then
    if block.emptyBreaks.isEmpty then [' '] else block.emptyBreaks
  else block.lineBreak ++ block.emptyBreaks

/-- Reads lines as long as they are indented, at most as many as the first argument says. -/
def lines (folded : Bool) (indent : Nat) : Nat → BlockText → Option BlockText
  | 0, block => some block
  | n + 1, block =>
    match block.rest with
    | [] => some block
    | c :: _ =>
      if block.column ≠ indent then some block
      else do
        let line := block.rest.takeWhile (!isBreak ·)
        let after := block.rest.dropWhile (!isBreak ·)
        let gap ← emptyLines (some indent) 0 0 (after.drop 1)
        lines folded indent n {
          text := line.reverse ++ (block.joint folded c).reverse ++ block.text
          lineBreak := after.take 1
          emptyBreaks := gap.breaks
          opensBlank := isBlank c
          column := gap.column
          rest := gap.rest }

/-- The text of a block that has ended. -/
def chomped (chomping : Chomping) (block : BlockText) : String :=
  let last := if chomping = .strip then [] else block.lineBreak
  let empty := if chomping = .keep then block.emptyBreaks else []
  .ofList (block.text.reverse ++ last ++ empty)

end BlockText

/-- Reads a block behind its bar.  `outer` is the indentation of what the block stands in, less than
zero outside all else. -/
def blockScalar (folded : Bool) (outer : Int) (input : List Char) :
    Option (String × List Char) := do
  let (header, input) := blockSigns input
  let input ← restOfLine input
  let limit := header.increment.map fun n => outer.toNat + n
  let gap ← emptyLines limit 0 0 input
  let indent := limit.getD (max gap.widest (max (outer + 1).toNat 1))
  let block ← BlockText.lines folded indent (input.length + 1)
    { emptyBreaks := gap.breaks, column := gap.column, rest := gap.rest }
  return (block.chomped header.chomping, block.rest)

end NovelScript.Yaml
