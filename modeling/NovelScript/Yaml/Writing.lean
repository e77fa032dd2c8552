import NovelScript.Yaml.Resolution

/-!
# Writing scalars

A text is written as the first of these forms that reads back as the same text: plain, between
single quotes, between double quotes with escapes.  A text with line feeds is a block of lines if
its lines can stand as they are, else it is double quoted.  Words and numbers that would not read
back as text, there or with older readers, get single quotes.
-/

namespace NovelScript.Yaml

/-! ## What a text allows -/

/-- Words that older readers take for truth values. -/
def switchWords : List String :=
  ["y", "Y", "yes", "Yes", "YES", "n", "N", "no", "No", "NO", "true", "True", "TRUE", "false",
    "False", "FALSE", "on", "On", "ON", "off", "Off", "OFF"]

/-- Whether an adjacent pair of characters is related so. -/
def hasPair (p : Char → Char → Bool) (text : List Char) : Bool :=
  (text.zip (text.drop 1)).any fun (a, b) => p a b

/-- Whether some character cannot be written as it is. -/
def hasSpecial (text : List Char) : Bool := text.any (!isPrintable ·)

/-- Whether a space stands in front of a break. -/
def hasSpaceBreak : List Char → Bool := hasPair fun a b => a == ' ' && isBreak b

/-- Whether a space stands behind a break. -/
def hasBreakSpace : List Char → Bool := hasPair fun a b => isBreak a && b == ' '

/-- Whether a plain scalar of this text would open as something else. -/
def opensOtherwise (text : List Char) : Bool :=
  match text with
  | [] => false
  | c :: rest =>
    ['#', ',', '[', ']', '\x7b', '\x7d', '&', '*', '!', '|', '>', '\'', '"', '%', '@',
      '\x60'].contains c
      || (['?', ':', '-'].contains c && endsWord rest)
      || startMark.isPrefixOf text || endMark.isPrefixOf text

/-- Whether a plain scalar of this text would end early: at a colon or in front of a comment. -/
def endsEarly : List Char → Bool
  | [] => false
  | c :: rest =>
    (c == ':' && endsWord rest) || (isGap c && rest.head? == some '#') || endsEarly rest

/-- Whether a space or break is the first or last character. -/
def hasLooseEnd (text : List Char) : Bool :=
  let loose (c : Char) := c == ' ' || isBreak c
  text.head?.any loose || text.getLast?.any loose

/-- Whether the text can be written plain. -/
def plainAllowed (text : List Char) : Bool :=
  !(hasSpecial text || text.any isBreak || hasLooseEnd text || opensOtherwise text
    || endsEarly text)

/-- Whether the text can be written between single quotes. -/
def singleAllowed (text : List Char) : Bool :=
  !(hasSpecial text || hasSpaceBreak text || hasBreakSpace text)

/-- Whether the text can be written as a block of lines. -/
def blockAllowed (text : List Char) : Bool :=
  !(hasSpecial text || hasSpaceBreak text || text.getLast? == some ' ')

/-- The form in which a text is written. -/
def styleFor (text : String) : ScalarStyle :=
  let chars := text.toList
  if chars.contains '\n' then if blockAllowed chars then .literal else .doubleQuoted
  else if !switchWords.contains text && !text.isEmpty && !nullWords.contains text
      && !looksNumeric text && plainAllowed chars then .plain
  else if singleAllowed chars then .singleQuoted
  else .doubleQuoted

/-! ## Forms -/

/-- The digits of a character's number. -/
def escapeDigits (width : Nat) (c : Char) : List Char :=
  ((Nat.toDigits 16 c.toNat).map Char.toUpper).leftpad width '0'

/-- A character between double quotes. -/
def escaped (c : Char) : List Char :=
  match c with
  | '\x00' => ['\\', '0']
  | '\x07' => ['\\', 'a']
  | '\x08' => ['\\', 'b']
  | '\t' => ['\\', 't']
  | '\n' => ['\\', 'n']
  | '\x0b' => ['\\', 'v']
  | '\x0c' => ['\\', 'f']
  | '\r' => ['\\', 'r']
  | '\x1b' => ['\\', 'e']
  | '"' => ['\\', '"']
  | '\\' => ['\\', '\\']
  | '\u0085' => ['\\', 'N']
  | '\u2028' => ['\\', 'L']
  | '\u2029' => ['\\', 'P']
  | c =>
    if isPrintable c then [c]
    else if c.toNat ≤ 0xFF then '\\' :: 'x' :: escapeDigits 2 c
    else if c.toNat ≤ 0xFFFF then '\\' :: 'u' :: escapeDigits 4 c
    else '\\' :: 'U' :: escapeDigits 8 c

/-- Blanks at the front of a line. -/
def blanks (indent : Nat) : List Char := List.replicate indent ' '

/-- A text with every line but the first indented.  `lineStart` says whether a line starts here. -/
def indented (indent : Nat) (lineStart : Bool) : List Char → List Char
  | [] => []
  | c :: rest =>
    if isBreak c then c :: indented indent true rest
    else (if lineStart then blanks indent else []) ++ c :: indented indent false rest

/-- A text with its single quotes doubled. -/
def doubledQuotes (text : List Char) : List Char :=
  text.flatMap fun c => if c = '\'' then ['\'', '\''] else [c]

/-- A text between single quotes. -/
def singleQuotedText (indent : Nat) (text : List Char) : List Char :=
  let close := if text.getLast?.any isBreak then blanks indent else []
  '\'' :: indented indent false (doubledQuotes text) ++ close ++ ['\'']

/-- The signs behind the bar of a block: how deep it is indented, if its first line does not show
that, and what becomes of the breaks at its end. -/
def blockSignsFor (text : List Char) : List Char :=
  let opening := if text.head?.any fun c => c == ' ' || isBreak c then ['2'] else []
  let ending := match text.reverse with
    | [] => ['-']
    | [c] => if isBreak c then ['+'] else ['-']
    | c :: d :: _ => if !isBreak c then ['-'] else if isBreak d then ['+'] else []
  opening ++ ending

/-- A text as a block of lines. -/
def blockText (indent : Nat) (text : List Char) : List Char :=
  '|' :: blockSignsFor text ++ '\n' :: indented indent true text

/-- A text as a scalar whose later lines are indented. -/
def scalarText (indent : Nat) (text : String) : List Char :=
  let chars := text.toList
  match styleFor text with
  | .plain => chars
  | .singleQuoted => singleQuotedText indent chars
  | .doubleQuoted => '"' :: chars.flatMap escaped ++ ['"']
  | .literal | .folded => blockText indent chars

/-- Ends a line, unless it is ended. -/
def endLine (text : List Char) : List Char :=
  if text.getLast?.any isBreak then text else text ++ ['\n']

/-- A line of a mapping with its key at a column, and the lines that its value takes. -/
def entryLines (column : Nat) (key : String) (text : String) : String :=
  .ofList (endLine (key.toList ++ [':', ' '] ++ scalarText (column + 2) text))

end NovelScript.Yaml
