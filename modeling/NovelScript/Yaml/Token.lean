import NovelScript.Yaml.ScalarText

/-!
# Tokens of YAML

Indentation and the places of colons say how the words of a YAML text belong together.
`Token.scan?` makes that explicit: it adds tokens where a block opens or closes and in front of
every key.

## Shape of the scan

A word that may turn out to be a key is kept in mind with its place among the tokens (`SimpleKey`).
The colon behind it puts a token in front of it, and opens a block there if the word is indented
deeper than the block around it.  Outside brackets a key cannot span lines, nor more than 1024
characters; a word in the place of a key that turns out to be none is refused.
-/

namespace NovelScript.Yaml

/-- How a scalar is written. -/
inductive ScalarStyle where
  | plain
  | singleQuoted
  | doubleQuoted
  | literal
  | folded
deriving DecidableEq

/-- A word, sign or boundary of a YAML text. -/
inductive Token where
  | version
  | documentStart
  | documentEnd
  | blockSequenceStart
  | blockMappingStart
  | blockEnd
  | flowSequenceStart
  | flowSequenceEnd
  | flowMappingStart
  | flowMappingEnd
  | blockEntry
  | flowEntry
  | key
  | value
  | alias (name : String)
  | anchor (name : String)
  | tag (name : String)
  | scalar (style : ScalarStyle) (text : String)
deriving DecidableEq

/-- A word that may turn out to be a key. -/
structure SimpleKey where
  /-- Its place among the tokens. -/
  place : Nat
  /-- Whether nothing but a key may stand there. -/
  required : Bool
  line : Nat
  column : Nat
  index : Nat

/-- A text that is being scanned. -/
structure Scan where
  rest : List Char
  line : Nat := 0
  column : Nat := 0
  index : Nat := 0
  tokens : Array Token := #[]
  /-- The indentation of the innermost block, less than zero outside all blocks. -/
  indent : Int := -1
  outerIndents : List Int := []
  /-- Whether a key may stand here. -/
  keyAllowed : Bool := true
  /-- The possible key of the innermost brackets, and of those around them. -/
  keys : List (Option SimpleKey) := [none]

namespace Scan

/-- Whether the text here stands between brackets. -/
def inFlow (scan : Scan) : Bool := 1 < scan.keys.length

/-- Adds a token. -/
def emit (token : Token) (scan : Scan) : Scan := { scan with tokens := scan.tokens.push token }

/-- Moves behind a character. -/
def step (scan : Scan) (c : Char) : Scan :=
  if isBreak c then { scan with line := scan.line + 1, column := 0, index := scan.index + 1 }
  else { scan with column := scan.column + 1, index := scan.index + 1 }

/-- Moves to where only `rest` is left. -/
def moveTo (rest : List Char) (scan : Scan) : Scan :=
  { (scan.rest.take (scan.rest.length - rest.length)).foldl step scan with rest }

/-- Moves behind `n` characters. -/
def skip (n : Nat) (scan : Scan) : Scan := scan.moveTo (scan.rest.drop n)

/-! ## Keys -/

/-- The possible key of the innermost brackets. -/
def possibleKey (scan : Scan) : Option SimpleKey := scan.keys.head?.join

/-- Sets the possible key of the innermost brackets. -/
def setKey (key : Option SimpleKey) (scan : Scan) : Scan :=
  { scan with keys := key :: scan.keys.drop 1 }

/-- Gives up the possible key of the innermost brackets, unless nothing but a key may be there. -/
def dropKey (scan : Scan) : Option Scan :=
  if scan.possibleKey.any (·.required) then none else some (scan.setKey none)

/-- Keeps in mind that a key may start here. -/
def saveKey (scan : Scan) : Option Scan :=
  if scan.keyAllowed then do
    let scan ← scan.dropKey
    return scan.setKey (some {
      place := scan.tokens.size
      required := !scan.inFlow && scan.indent == scan.column
      line := scan.line, column := scan.column, index := scan.index })
  else some scan

/-- Whether a possible key is too far behind to be one. -/
def isStale (scan : Scan) (key : SimpleKey) : Bool :=
  key.line < scan.line || key.index + 1024 < scan.index

/-- Gives up all possible keys that are too far behind. -/
def dropStaleKeys (scan : Scan) : Option Scan := do
  let keys ← scan.keys.mapM fun key =>
    match key with
    | some key =>
      if scan.isStale key then (if key.required then none else some none) else some (some key)
    | none => some none
  return { scan with keys }

/-! ## Blocks -/

/-- Opens a block at a column, unless one is open there.  Its token goes to a place among the
others. -/
def openBlock (column place : Nat) (token : Token) (scan : Scan) : Scan :=
  if scan.inFlow ∨ column ≤ scan.indent then scan
  else
    { scan with
      indent := column
      outerIndents := scan.indent :: scan.outerIndents
      tokens := scan.tokens.insertIdxIfInBounds place token }

/-- Closes blocks that are indented deeper than a column; `outer` are those around the innermost. -/
def closeBlocksFrom (column : Int) (scan : Scan) : List Int → Scan
  | [] => scan
  | indent :: outer =>
    if column < scan.indent then
      closeBlocksFrom column ({ scan with indent, outerIndents := outer }.emit .blockEnd) outer
    else scan

/-- Closes blocks that are indented deeper than a column. -/
def closeBlocks (column : Int) (scan : Scan) : Scan :=
  if scan.inFlow then scan else closeBlocksFrom column scan scan.outerIndents

/-! ## Blanks and comments -/

/-- Skips blanks, breaks and comments.  Answers also whether a key may stand behind them: one may
at the front of a line outside brackets, where tabs are no blanks. -/
def skipGap (flow comment keyAllowed : Bool) : List Char → List Char × Bool
  | [] => ([], keyAllowed)
  | c :: rest =>
    if isBreak c then skipGap flow false (keyAllowed || !flow) rest
    else if comment then skipGap flow true keyAllowed rest
    else if c = ' ' ∨ (c = '\t' ∧ (flow ∨ ¬ keyAllowed)) then skipGap flow false keyAllowed rest
    else if c = '#' then skipGap flow true keyAllowed rest
    else (c :: rest, keyAllowed)

/-- Moves to the next word or sign. -/
def toNext (scan : Scan) : Scan :=
  let (rest, keyAllowed) := skipGap scan.inFlow false scan.keyAllowed scan.rest
  { scan.moveTo rest with keyAllowed }

/-! ## Signs -/

/-- Ends all blocks, as a line does that belongs to no document. -/
def endDocument (scan : Scan) : Option Scan := do
  let scan ← (scan.closeBlocks (-1)).dropKey
  return { scan with keyAllowed := false }

/-- A mark between documents. -/
def mark (token : Token) (scan : Scan) : Option Scan := do
  return (← scan.endDocument).skip 3 |>.emit token

/-- An opening bracket. -/
def openFlow (token : Token) (scan : Scan) : Option Scan := do
  let scan ← scan.saveKey
  return { scan with keys := none :: scan.keys, keyAllowed := true }.skip 1 |>.emit token

/-- A closing bracket. -/
def closeFlow (token : Token) (scan : Scan) : Option Scan := do
  let scan ← scan.dropKey
  let keys := if scan.inFlow then scan.keys.drop 1 else scan.keys
  return { scan with keys, keyAllowed := false }.skip 1 |>.emit token

/-- A comma between brackets. -/
def flowEntry (scan : Scan) : Option Scan := do
  return { (← scan.dropKey) with keyAllowed := true }.skip 1 |>.emit .flowEntry

/-- A dash in front of an entry. -/
def blockEntry (scan : Scan) : Option Scan := do
  if !scan.inFlow && !scan.keyAllowed then none
  let scan ← (scan.openBlock scan.column scan.tokens.size .blockSequenceStart).dropKey
  return { scan with keyAllowed := true }.skip 1 |>.emit .blockEntry

/-- A question mark in front of a key. -/
def explicitKey (scan : Scan) : Option Scan := do
  if !scan.inFlow && !scan.keyAllowed then none
  let scan ← (scan.openBlock scan.column scan.tokens.size .blockMappingStart).dropKey
  return { scan with keyAllowed := !scan.inFlow }.skip 1 |>.emit .key

/-- A colon in front of a value. -/
def value (scan : Scan) : Option Scan :=
  match scan.possibleKey with
  | some key =>
    let scan := { scan with tokens := scan.tokens.insertIdxIfInBounds key.place .key }
    let scan := (scan.openBlock key.column key.place .blockMappingStart).setKey none
    some ({ scan with keyAllowed := false }.skip 1 |>.emit .value)
  | none => do
    if !scan.inFlow && !scan.keyAllowed then none
    let scan := scan.openBlock scan.column scan.tokens.size .blockMappingStart
    return { scan with keyAllowed := !scan.inFlow }.skip 1 |>.emit .value

/-! ## Words -/

/-- Whether the character can be part of a name. -/
def isNameChar (c : Char) : Bool := c.isAlphanum || c == '_' || c == '-'

/-- A name with a sign in front of it. -/
def name (token : String → Token) (scan : Scan) : Option Scan := do
  let scan ← scan.saveKey
  let name := (scan.rest.drop 1).takeWhile isNameChar
  let rest := (scan.rest.drop 1).dropWhile isNameChar
  let ends := endsWord rest
    || rest.head?.any ['?', ':', ',', ']', '\x7d', '%', '@', '\x60'].contains
  if name.isEmpty || !ends then none
  return ({ scan with keyAllowed := false }.moveTo rest).emit (token (.ofList name))

/-- Whether the character can be part of a tag. -/
def isTagChar (c : Char) : Bool :=
  isNameChar c || [';', '/', '?', ':', '@', '&', '=', '+', '$', '.', '!', '~', '*', '\'', '(', ')',
    '%'].contains c

/-- The full name of a tag, given what stands behind its first sign. -/
def tagName? (suffix : List Char) : Option String :=
  match suffix with
  | ['!'] => none
  | '!' :: kind => some ("tag:yaml.org,2002:" ++ .ofList kind)
  | _ =>
    if (suffix.dropWhile isNameChar).head? = some '!' then none
    else some (.ofList ('!' :: suffix))

/-- The name of a tag and what follows it. -/
def tagFrom (input : List Char) : Option (String × List Char) :=
  match input with
  | '<' :: input => do
    let name := input.takeWhile fun c => isTagChar c || [',', '[', ']'].contains c
    let rest := input.drop name.length
    if name.isEmpty || rest.head? != some '>' then none
    return (.ofList name, rest.drop 1)
  | input => do
    let suffix := input.takeWhile isTagChar
    return (← tagName? suffix, input.drop suffix.length)

/-- A tag. -/
def tag (scan : Scan) : Option Scan := do
  let scan ← scan.saveKey
  let (name, rest) ← tagFrom (scan.rest.drop 1)
  if !endsWord rest && !(scan.inFlow && rest.head? == some ',') then none
  return ({ scan with keyAllowed := false }.moveTo rest).emit (.tag name)

/-- A scalar between quotes. -/
def quoted (style : ScalarStyle)
    (read : Bool → List Char → Option (List Piece × List Char)) (scan : Scan) : Option Scan := do
  let scan ← scan.saveKey
  let (pieces, rest) ← read false (scan.rest.drop 1)
  return ({ scan with keyAllowed := false }.moveTo rest).emit (.scalar style (fold pieces))

/-- A plain scalar. -/
def plain (scan : Scan) : Option Scan := do
  let scan ← scan.saveKey
  let found ← plainFrom scan.inFlow (scan.indent + 1) scan.column [] false scan.rest
  return ({ scan with keyAllowed := found.brokeLine }.moveTo found.rest).emit
    (.scalar .plain (fold found.pieces))

/-- A block of lines. -/
def block (style : ScalarStyle) (scan : Scan) : Option Scan := do
  let scan ← scan.dropKey
  let (text, rest) ← blockScalar (style == .folded) scan.indent (scan.rest.drop 1)
  return ({ scan with keyAllowed := true }.moveTo rest).emit (.scalar style text)

/-- The line that says which YAML a document is written in, without the percent sign. -/
def versionLine (input : List Char) : Option (List Char) := do
  if !(['Y', 'A', 'M', 'L', ' '].isPrefixOf input) then none
  match (input.drop 5).dropWhile isBlank with
  | '1' :: '.' :: minor :: rest =>
    if (minor = '1' ∨ minor = '2') ∧ endsWord rest then restOfLine rest else none
  | _ => none

/-- A line about the document that follows. -/
def directive (scan : Scan) : Option Scan := do
  let scan ← scan.endDocument
  return (scan.moveTo (← versionLine (scan.rest.drop 1))).emit .version

/-- Whether a plain scalar can open with this character. -/
def opensPlain (flow : Bool) (c : Char) (rest : List Char) : Bool :=
  !(isGap c || ['-', '?', ':', ',', '[', ']', '\x7b', '\x7d', '#', '&', '*', '!', '|', '>', '\'',
      '"', '%', '@', '\x60'].contains c)
    || (c == '-' && !rest.head?.any isBlank)
    || (!flow && (c == '?' || c == ':') && !endsWord rest)

/-- The token that opens with a character; `rest` is what follows the character. -/
def tokenAt (scan : Scan) (c : Char) (rest : List Char) : Option Scan :=
  if scan.column = 0 ∧ c = '%' then scan.directive
  else if scan.column = 0 ∧ isMark startMark (c :: rest) then scan.mark .documentStart
  else if scan.column = 0 ∧ isMark endMark (c :: rest) then scan.mark .documentEnd
  else if c = '[' then scan.openFlow .flowSequenceStart
  else if c = '\x7b' then scan.openFlow .flowMappingStart
  else if c = ']' then scan.closeFlow .flowSequenceEnd
  else if c = '\x7d' then scan.closeFlow .flowMappingEnd
  else if c = ',' then scan.flowEntry
  else if c = '-' ∧ endsWord rest then scan.blockEntry
  else if c = '?' ∧ (scan.inFlow ∨ endsWord rest) then scan.explicitKey
  else if c = ':' ∧ (scan.inFlow ∨ endsWord rest) then scan.value
  else if c = '*' then scan.name .alias
  else if c = '&' then scan.name .anchor
  else if c = '!' then scan.tag
  else if c = '|' ∧ ¬ scan.inFlow then scan.block .literal
  else if c = '>' ∧ ¬ scan.inFlow then scan.block .folded
  else if c = '\'' then scan.quoted .singleQuoted singleQuoted
  else if c = '"' then scan.quoted .doubleQuoted doubleQuoted
  else if opensPlain scan.inFlow c rest then scan.plain
  else none

/-- Scans on, at most as many tokens as the first argument says; every token takes a character. -/
def run : Nat → Scan → Option (Array Token)
  | 0, _ => none
  | n + 1, scan => do
    let scan ← scan.toNext.dropStaleKeys
    let scan := scan.closeBlocks scan.column
    match scan.rest with
    | [] => return (← scan.endDocument).tokens
    | c :: rest => run n (← scan.tokenAt c rest)

end Scan

/-- The tokens of a text, if it is put together from words and signs as YAML asks. -/
def Token.scan? (text : List Char) : Option (List Token) := do
  if !text.all isAllowed then none
  let text := normalizeBreaks text
  let start : Scan := match text with
    | '\uFEFF' :: rest => { rest, column := 1, index := 1 }
    | rest => { rest }
  return (← start.run (text.length + 1)).toList

end NovelScript.Yaml
