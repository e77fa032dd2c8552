import NovelScript.Pattern.Regex

/-!
# Reading regular expressions

`Regex.parse?` reads the notation with groups, classes and their set operations, counted
repetitions, flags and look-arounds of width zero.  Back references and look-arounds with a body are
not part of the notation; a text that does not follow it gives `none`.
-/

namespace NovelScript.Pattern

/-- What flags in force say about the notation that follows. -/
structure RegexFlags where
  ignoreCase : Bool := false
  multiLine : Bool := false
  dotAll : Bool := false
  unicode : Bool := true
  spaced : Bool := false

namespace RegexFlags

/-- The characters of words. -/
def isWord (flags : RegexFlags) (c : Char) : Bool :=
  if flags.unicode then wordCharacters.contains c else c.isAlphanum || c == '_'

/-- The decimal digits. -/
def isDigit (flags : RegexFlags) (c : Char) : Bool :=
  if flags.unicode then decimalDigits.contains c else c.isDigit

/-- The white space. -/
def isSpace (flags : RegexFlags) (c : Char) : Bool :=
  if flags.unicode then Text.isBlank c else c == ' ' || (0x09 ≤ c.toNat && c.toNat ≤ 0x0D)

/-- A set of characters, widened to the case variants of its members if case is ignored. -/
def fold (flags : RegexFlags) (accepts : Char → Bool) : Char → Bool :=
  if flags.ignoreCase then fun c => (caseVariants c).any accepts else accepts

/-- A single character. -/
def literal (flags : RegexFlags) (c : Char) : Regex := .char (flags.fold (· == c))

/-- Any character, line ends apart unless flags say otherwise. -/
def anyChar (flags : RegexFlags) : Regex := .char fun c => flags.dotAll || c != '\n'

end RegexFlags

namespace Regex

/-- What an escape stands for. -/
inductive Escape where
  | char (c : Char)
  | set (accepts : Char → Bool)
  | look (condition : Look)

/-- The value of a hexadecimal digit. -/
def hexDigit? (c : Char) : Option Nat :=
  if c.isDigit then some (c.toNat - '0'.toNat)
  else if 'a' ≤ c ∧ c ≤ 'f' then some (c.toNat - 'a'.toNat + 10)
  else if 'A' ≤ c ∧ c ≤ 'F' then some (c.toNat - 'A'.toNat + 10)
  else none

/-- The character of a code point. -/
def charOfNat? (n : Nat) : Option Char :=
  if h : n.isValidChar then some (Char.ofNatAux n h) else none

/-- The character with these hexadecimal digits. -/
def charOfHex? (digits : List Char) : Option Char := do
  let values ← digits.mapM hexDigit?
  if values.isEmpty then none else charOfNat? (values.foldl (16 * · + ·) 0)

/-- Reads the digits behind `\x`, `\u` or `\U`: `count` of them, or any number between braces. -/
def hexEscape? (count : Nat) : List Char → Option (Char × List Char)
  | '\x7b' :: rest =>
    match rest.dropWhile (· ≠ '\x7d') with
    | _ :: after => do return (← charOfHex? (rest.takeWhile (· ≠ '\x7d')), after)
    | [] => none
  | input => do
    if input.length < count then none
    else return (← charOfHex? (input.take count), input.drop count)

/-- Whether a character may follow a backslash to stand for itself. -/
def isEscapable (c : Char) : Bool :=
  c.toNat < 0x80 && !c.isAlphanum && c != '<' && c != '>'

/-- Reads what follows a backslash. -/
def escape? (flags : RegexFlags) : List Char → Option (Escape × List Char)
  | 'd' :: rest => some (.set flags.isDigit, rest)
  | 'D' :: rest => some (.set fun c => !flags.isDigit c, rest)
  | 's' :: rest => some (.set flags.isSpace, rest)
  | 'S' :: rest => some (.set fun c => !flags.isSpace c, rest)
  | 'w' :: rest => some (.set flags.isWord, rest)
  | 'W' :: rest => some (.set fun c => !flags.isWord c, rest)
  | 'a' :: rest => some (.char '\x07', rest)
  | 'f' :: rest => some (.char '\x0c', rest)
  | 't' :: rest => some (.char '\t', rest)
  | 'n' :: rest => some (.char '\n', rest)
  | 'r' :: rest => some (.char '\r', rest)
  | 'v' :: rest => some (.char '\x0b', rest)
  | 'A' :: rest => some (.look .textStart, rest)
  | 'z' :: rest => some (.look .textEnd, rest)
  | 'b' :: '\x7b' :: rest =>
    let name := rest.takeWhile (· ≠ '\x7d')
    let after := (rest.dropWhile (· ≠ '\x7d')).drop 1
    if name = "start".toList then some (.look (.wordStart flags.isWord), after)
    else if name = "end".toList then some (.look (.wordEnd flags.isWord), after)
    else none
  | 'b' :: rest => some (.look (.wordBoundary flags.isWord), rest)
  | 'B' :: rest => some (.look (.notWordBoundary flags.isWord), rest)
  | '<' :: rest => some (.look (.wordStart flags.isWord), rest)
  | '>' :: rest => some (.look (.wordEnd flags.isWord), rest)
  | 'x' :: rest => (hexEscape? 2 rest).map fun (c, rest) => (.char c, rest)
  | 'u' :: rest => (hexEscape? 4 rest).map fun (c, rest) => (.char c, rest)
  | 'U' :: rest => (hexEscape? 8 rest).map fun (c, rest) => (.char c, rest)
  | c :: rest => if isEscapable c then some (.char c, rest) else none
  | [] => none

/-! ## Classes -/

/-- The named classes that may stand between `[:` and `:]`. -/
def namedClass? (name : String) : Option (Char → Bool) :=
  match name with
  | "alnum" => some Char.isAlphanum
  | "alpha" => some Char.isAlpha
  | "ascii" => some fun c => c.toNat < 0x80
  | "blank" => some fun c => c == ' ' || c == '\t'
  | "cntrl" => some fun c => c.toNat < 0x20 || c.toNat == 0x7F
  | "digit" => some Char.isDigit
  | "graph" => some fun c => 0x21 ≤ c.toNat && c.toNat ≤ 0x7E
  | "lower" => some Char.isLower
  | "print" => some fun c => 0x20 ≤ c.toNat && c.toNat ≤ 0x7E
  | "punct" => some fun c => 0x21 ≤ c.toNat && c.toNat ≤ 0x7E && !c.isAlphanum
  | "space" => some fun c => c == ' ' || (0x09 ≤ c.toNat && c.toNat ≤ 0x0D)
  | "upper" => some Char.isUpper
  | "word" => some fun c => c.isAlphanum || c == '_'
  | "xdigit" => some fun c => (hexDigit? c).isSome
  | _ => none

/-- Reads a named class behind its `[:`. -/
def named? (flags : RegexFlags) (input : List Char) : Option ((Char → Bool) × List Char) :=
  let negated := input.head? = some '^'
  let input := if negated then input.drop 1 else input
  let name := input.takeWhile (· ≠ ':')
  match (input.dropWhile (· ≠ ':')) with
  | ':' :: ']' :: rest => do
    let accepts := flags.fold (← namedClass? (.ofList name))
    return (if negated then fun c => !accepts c else accepts, rest)
  | _ => none

/-- How two sets are put together. -/
inductive SetOperation where
  | and
  | minus
  | xor

/-- The set that an operation makes of two. -/
def SetOperation.apply (operation : SetOperation) (a b : Char → Bool) : Char → Bool :=
  match operation with
  | and => fun c => a c && b c
  | minus => fun c => a c && !b c
  | xor => fun c => a c != b c

/-- An open class: what is in it so far, the operation that waits for the set being read, and
whether the class is negated. -/
structure OpenClass where
  negated : Bool
  pending : Option ((Char → Bool) × SetOperation) := none
  members : Char → Bool := fun _ => false

/-- The members read so far combined with the set that waits for them. -/
def OpenClass.total (class_ : OpenClass) (flags : RegexFlags) : Char → Bool :=
  let members := flags.fold class_.members
  match class_.pending with
  | some (left, operation) => operation.apply left members
  | none => members

/-- The set of a finished class. -/
def OpenClass.close (class_ : OpenClass) (flags : RegexFlags) : Char → Bool :=
  let total := class_.total flags
  if class_.negated then fun c => !total c else total

/-- Starts the set behind an operation. -/
def OpenClass.operate (class_ : OpenClass) (flags : RegexFlags) (operation : SetOperation) :
    OpenClass :=
  { negated := class_.negated, pending := some (class_.total flags, operation) }

/-- Adds members. -/
def OpenClass.add (class_ : OpenClass) (accepts : Char → Bool) : OpenClass :=
  { class_ with members := fun c => class_.members c || accepts c }

/-- Adds the leading dashes of a class, and a bracket in front of everything else. -/
def leadingMembers (class_ : OpenClass) : List Char → OpenClass × List Char
  | '-' :: rest =>
    let rest := rest.dropWhile (· == '-')
    (class_.add (· == '-'), rest)
  | ']' :: rest => (class_.add (· == ']'), rest)
  | input => (class_, input)

/-- Opens a class behind its bracket. -/
def openClass : List Char → OpenClass × List Char
  | '^' :: rest => leadingMembers { negated := true } rest
  | input => leadingMembers { negated := false } input

/-- Reads one member of a class, or the end of a range. -/
def classItem? (flags : RegexFlags) : List Char → Option (Escape × List Char)
  | '\\' :: rest => do
    match ← escape? flags rest with
    | (.look _, _) => none
    | item => return item
  | c :: rest => some (.char c, rest)
  | [] => none

/-- Skips white space where flags say that it means nothing. -/
def skipSpace (flags : RegexFlags) (input : List Char) : List Char :=
  if flags.spaced then input.dropWhile Text.isBlank else input

/-- Reads the members of a class and the classes inside it, innermost first. -/
def readClass (flags : RegexFlags) : Nat → OpenClass → List OpenClass → List Char →
    Option ((Char → Bool) × List Char)
  | 0, _, _, _ => none
  | fuel + 1, class_, outer, input =>
    match skipSpace flags input with
    | [] => none
    | ']' :: rest =>
      let set := class_.close flags
      match outer with
      | [] => some (set, rest)
      | parent :: outer => readClass flags fuel (parent.add set) outer rest
    | '[' :: ':' :: rest =>
      match named? flags rest with
      | some (accepts, rest) => readClass flags fuel (class_.add accepts) outer rest
      | none =>
        let (inner, rest) := openClass (':' :: rest)
        readClass flags fuel inner (class_ :: outer) rest
    | '[' :: rest =>
      let (inner, rest) := openClass rest
      readClass flags fuel inner (class_ :: outer) rest
    | '&' :: '&' :: rest => readClass flags fuel (class_.operate flags .and) outer rest
    | '-' :: '-' :: rest => readClass flags fuel (class_.operate flags .minus) outer rest
    | '~' :: '~' :: rest => readClass flags fuel (class_.operate flags .xor) outer rest
    | input => do
      let (first, rest) ← classItem? flags input
      let rest := skipSpace flags rest
      match first, rest with
      | .char low, '-' :: c :: after =>
        if c = ']' ∨ c = '-' then
          readClass flags fuel (class_.add (· == low)) outer ('-' :: c :: after)
        else
          match ← classItem? flags (skipSpace flags (c :: after)) with
          | (.char high, rest) =>
            if high < low then none
            else readClass flags fuel (class_.add fun c => low ≤ c && c ≤ high) outer rest
          | _ => none
      | .char c, rest => readClass flags fuel (class_.add (· == c)) outer rest
      | .set accepts, '-' :: c :: after =>
        if c = ']' ∨ c = '-' then
          readClass flags fuel (class_.add accepts) outer ('-' :: c :: after)
        else none
      | .set accepts, rest => readClass flags fuel (class_.add accepts) outer rest
      | .look _, _ => none

/-! ## Groups and flags -/

/-- Sets one flag. -/
def setFlag? (flags : RegexFlags) (value : Bool) : Char → Option RegexFlags
  | 'i' => some { flags with ignoreCase := value }
  | 'm' => some { flags with multiLine := value }
  | 's' => some { flags with dotAll := value }
  | 'u' => some { flags with unicode := value }
  | 'x' => some { flags with spaced := value }
  | 'U' | 'R' => some flags
  | _ => none

/-- Reads flags up to the `:` or `)` behind them; a dash turns the flags behind it off. -/
def readFlags? (flags : RegexFlags) (value : Bool) (seen : List Char) :
    List Char → Option (RegexFlags × Char × List Char)
  | [] => none
  | '-' :: rest => if value then readFlags? flags false ('-' :: seen) rest else none
  | c :: rest =>
    if c = ':' ∨ c = ')' then
      if seen.head? = some '-' ∨ (seen = [] ∧ c = ')') then none else some (flags, c, rest)
    else if seen.contains c then none
    else do readFlags? (← setFlag? flags value c) value (c :: seen) rest

/-- Whether a name may be given to a group. -/
def isGroupName (name : List Char) : Bool :=
  match name with
  | [] => false
  | c :: rest =>
    (c == '_' || wordCharacters.contains c && !decimalDigits.contains c)
      && rest.all fun c => wordCharacters.contains c || c == '.' || c == '[' || c == ']'

/-- What opens behind a parenthesis. -/
inductive Opening where
  | group (name : Option (List Char)) (inner : RegexFlags)
  | directive (flags : RegexFlags)

/-- Reads a group name up to its closing bracket. -/
def groupName? (flags : RegexFlags) (input : List Char) : Option (Opening × List Char) :=
  let name := input.takeWhile (· ≠ '>')
  match input.dropWhile (· ≠ '>') with
  | _ :: rest => if isGroupName name then some (.group (some name) flags, rest) else none
  | [] => none

/-- Reads what stands between a parenthesis and the body of its group. -/
def opening? (flags : RegexFlags) : List Char → Option (Opening × List Char)
  | '?' :: 'P' :: '<' :: rest => groupName? flags rest
  | '?' :: '<' :: rest => groupName? flags rest
  | '?' :: rest => do
    match ← readFlags? flags true [] rest with
    | (inner, ':', rest) => return (.group none inner, rest)
    | (inner, _, rest) => return (.directive inner, rest)
  | rest => some (.group none flags, rest)

/-! ## Repetitions -/

/-- Reads a decimal number with blanks around it. -/
def bound? (input : List Char) : Option (Nat × List Char) :=
  let input := input.dropWhile Text.isBlank
  let digits := input.takeWhile Char.isDigit
  let rest := (input.dropWhile Char.isDigit).dropWhile Text.isBlank
  match (String.ofList digits).toNat? with
  | some n => if n < 4294967296 then some (n, rest) else none
  | none => none

/-- Reads the bounds of a repetition behind its brace. -/
def bounds? (flags : RegexFlags) (input : List Char) :
    Option ((Nat × Option Nat) × List Char) := do
  let (least, rest) ← bound? input
  match rest with
  | '\x7d' :: rest => return ((least, some least), rest)
  | ',' :: rest =>
    match skipSpace flags rest with
    | '\x7d' :: rest => return ((least, none), rest)
    | rest =>
      match ← bound? rest with
      | (most, '\x7d' :: rest) => if most < least then none else return ((least, some most), rest)
      | _ => none
  | _ => none

/-! ## Expressions -/

/-- An open group: the alternatives before the current one, the parts of the current one in reverse,
and the flags in force.  A part that is no expression cannot be repeated. -/
structure OpenGroup where
  flags : RegexFlags
  alternatives : List Regex := []
  parts : List (Option Regex) := []

/-- The current alternative. -/
def OpenGroup.current (group : OpenGroup) : Regex :=
  group.parts.foldl (fun after part =>
    match part with
    | some regex => .seq regex after
    | none => after) .empty

/-- The expression of a finished group. -/
def OpenGroup.close (group : OpenGroup) : Regex :=
  group.alternatives.foldl (fun right left => .either left right) group.current

/-- Adds a part. -/
def OpenGroup.add (group : OpenGroup) (regex : Regex) : OpenGroup :=
  { group with parts := some regex :: group.parts }

/-- Repeats the last part, if it is an expression. -/
def OpenGroup.repeatLast? (group : OpenGroup) (least : Nat) (most : Option Nat) :
    Option OpenGroup :=
  match group.parts with
  | some regex :: parts => some { group with parts := some (.repeated regex least most) :: parts }
  | _ => none

/-- Skips the mark of a repetition that prefers few. -/
def skipLazyMark : List Char → List Char
  | '?' :: rest => rest
  | rest => rest

/-- Reads the rest of an expression, with groups open outside the current one. -/
def read? : Nat → List (List Char) → OpenGroup → List OpenGroup → List Char → Option Regex
  | 0, _, _, _, _ => none
  | fuel + 1, names, group, outer, input =>
    let flags := group.flags
    match skipSpace flags input with
    | [] => if outer.isEmpty then some group.close else none
    | '(' :: rest => do
      match ← opening? flags rest with
      | (.directive inner, rest) =>
        read? fuel names { group with flags := inner, parts := none :: group.parts } outer rest
      | (.group none inner, rest) => read? fuel names { flags := inner } (group :: outer) rest
      | (.group (some name) inner, rest) =>
        if names.contains name then none
        else read? fuel (name :: names) { flags := inner } (group :: outer) rest
    | ')' :: rest =>
      match outer with
      | [] => none
      | parent :: outer => read? fuel names (parent.add group.close) outer rest
    | '|' :: rest =>
      read? fuel names
        { group with alternatives := group.current :: group.alternatives, parts := [] } outer rest
    | '[' :: rest => do
      let (class_, inside) := openClass rest
      let (accepts, rest) ← readClass flags (inside.length + 1) class_ [] inside
      read? fuel names (group.add (.char accepts)) outer rest
    | '*' :: rest => do
      read? fuel names (← group.repeatLast? 0 none) outer (skipLazyMark rest)
    | '+' :: rest => do
      read? fuel names (← group.repeatLast? 1 none) outer (skipLazyMark rest)
    | '?' :: rest => do
      read? fuel names (← group.repeatLast? 0 (some 1)) outer (skipLazyMark rest)
    | '\x7b' :: rest => do
      let ((least, most), rest) ← bounds? flags rest
      read? fuel names (← group.repeatLast? least most) outer (skipLazyMark rest)
    | '\\' :: rest => do
      match ← escape? flags rest with
      | (.char c, rest) => read? fuel names (group.add (flags.literal c)) outer rest
      | (.set accepts, rest) => read? fuel names (group.add (.char (flags.fold accepts))) outer rest
      | (.look condition, rest) => read? fuel names (group.add (.look condition)) outer rest
    | '.' :: rest => read? fuel names (group.add flags.anyChar) outer rest
    | '^' :: rest =>
      read? fuel names (group.add (.look (if flags.multiLine then .lineStart else .textStart)))
        outer rest
    | '$' :: rest =>
      read? fuel names (group.add (.look (if flags.multiLine then .lineEnd else .textEnd)))
        outer rest
    | c :: rest =>
      if flags.spaced ∧ c = '#' then read? fuel names group outer (rest.dropWhile (· ≠ '\n'))
      else read? fuel names (group.add (flags.literal c)) outer rest

/-- Reads a regular expression. -/
def parse? (text : String) : Option Regex :=
  read? (text.length + 1) [] { flags := {} } [] text.toList

end Regex
end NovelScript.Pattern
