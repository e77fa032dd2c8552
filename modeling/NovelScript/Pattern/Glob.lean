/-!
# File name patterns

A pattern matches a whole name.  `?` stands for a character, `*` for any run of characters, `**` as
a whole path component for any run of components, and brackets for a character inside or outside a
set.  Slashes and leading dots are matched like any other character.
-/

namespace NovelScript.Pattern

/-- One character, or all from a first to a last, inside brackets. -/
inductive CharSpecifier where
  | single (c : Char)
  | range (first last : Char)
deriving DecidableEq

/-- A part of a pattern. -/
inductive GlobToken where
  | char (c : Char)
  | anyChar
  | anySequence
  | anyComponents
  | within (specifiers : List CharSpecifier)
  | except (specifiers : List CharSpecifier)
deriving DecidableEq

/-- Why a text is no pattern. -/
inductive GlobFault where
  | tooManyStars
  | partialComponent
  | invalidRange
deriving DecidableEq

/-- Why a text is no pattern, and near which character. -/
structure GlobError where
  position : Nat
  fault : GlobFault
deriving DecidableEq

/-- The wording of a pattern error. -/
def GlobError.message (error : GlobError) : String :=
  let text := match error.fault with
    | .tooManyStars => "wildcards are either regular `*` or recursive `**`"
    | .partialComponent => "recursive wildcards must form a single path component"
    | .invalidRange => "invalid range pattern"
  s!"Pattern syntax error near position {error.position}: {text}"

/-- A file name pattern. -/
structure Glob where
  tokens : List GlobToken

namespace Glob

/-! ## Reading patterns -/

/-- Reads the inside of brackets. -/
def readSpecifiers : List Char → List CharSpecifier
  | first :: '-' :: last :: rest => .range first last :: readSpecifiers rest
  | c :: rest => .single c :: readSpecifiers rest
  | [] => []

/-- Splits the text behind an opening bracket into the inside and what follows the closing bracket;
the first character is inside even if it is a bracket. -/
def splitBracket? : List Char → Option (List Char × List Char)
  | [] => none
  | first :: rest =>
    match rest.dropWhile (· ≠ ']') with
    | _ :: after => some (first :: rest.takeWhile (· ≠ ']'), after)
    | [] => none

/-- Reads a bracket behind its opening. -/
def readBracket? : List Char → Option (GlobToken × List Char)
  | '!' :: rest =>
    (splitBracket? rest).map fun (inside, after) => (.except (readSpecifiers inside), after)
  | rest =>
    (splitBracket? rest).map fun (inside, after) => (.within (readSpecifiers inside), after)

/-- Adds a component wildcard; two in a row are one. -/
def addComponents (tokens : List GlobToken) : List GlobToken :=
  match tokens with
  | .anyComponents :: _ :: _ => tokens
  | _ => .anyComponents :: tokens

/-- Reads a pattern from a position on, behind the tokens read so far in reverse.  `components` says
whether a path component starts here. -/
def read (position : Nat) (components : Bool) (tokens : List GlobToken) :
    Nat → List Char → Except GlobError (List GlobToken)
  | 0, _ | _, [] => .ok tokens.reverse
  | fuel + 1, c :: rest =>
    if c = '?' then read (position + 1) false (.anyChar :: tokens) fuel rest
    else if c = '*' then
      match rest with
      | '*' :: '*' :: _ => .error ⟨position + 2, .tooManyStars⟩
      | '*' :: rest =>
        if !components then .error ⟨position - 1, .partialComponent⟩
        else
          match rest with
          | [] => .ok (addComponents tokens).reverse
          | '/' :: rest => read (position + 3) true (addComponents tokens) fuel rest
          | _ => .error ⟨position + 2, .partialComponent⟩
      | rest => read (position + 1) false (.anySequence :: tokens) fuel rest
    else if c = '[' then
      match readBracket? rest with
      | some (token, after) =>
        read (position + 1 + (rest.length - after.length)) false (token :: tokens) fuel after
      | none => .error ⟨position, .invalidRange⟩
    else read (position + 1) (c == '/') (.char c :: tokens) fuel rest

/-- Reads a pattern. -/
def parse (text : String) : Except GlobError Glob :=
  (read 0 true [] text.length text.toList).map Glob.mk

/-! ## Matching -/

/-- Whether a set between brackets has a character. -/
def hasChar (specifiers : List CharSpecifier) (c : Char) : Bool :=
  specifiers.any fun
    | .single d => c == d
    | .range first last => first ≤ c && c ≤ last

/-- Tries the rest of a pattern behind every run of characters, or every run of components. -/
def behindRun (components : Bool) (next : List Char → Bool) : List Char → Bool
  | [] => next []
  | c :: name => ((!components || c == '/') && next name) || behindRun components next name

/-- Whether tokens match the whole of a name. -/
def matchTokens : List GlobToken → List Char → Bool
  | [], name => name.isEmpty
  | .anySequence :: rest, name => matchTokens rest name || behindRun false (matchTokens rest) name
  | .anyComponents :: rest, name => matchTokens rest name || behindRun true (matchTokens rest) name
  | _ :: _, [] => false
  | .char d :: rest, c :: name => c == d && matchTokens rest name
  | .anyChar :: rest, _ :: name => matchTokens rest name
  | .within specifiers :: rest, c :: name => hasChar specifiers c && matchTokens rest name
  | .except specifiers :: rest, c :: name => !hasChar specifiers c && matchTokens rest name

/-- Whether the pattern matches a name. -/
def accepts (glob : Glob) (name : String) : Bool := matchTokens glob.tokens name.toList

end Glob
end NovelScript.Pattern
