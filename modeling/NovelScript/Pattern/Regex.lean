import NovelScript.Pattern.Letters
import NovelScript.Text.Blank

/-!
# Regular expressions

A `Regex` is matched by the set of places it can lead to: from a set of places in a text, `reach`
gives the places at which a match that starts in the set can end.  Only whether there is a match is
asked (`Regex.occursIn`), so neither greediness nor the order of alternatives plays a part.
-/

namespace NovelScript.Pattern

/-- A condition on a place in a text. -/
inductive Look where
  | textStart
  | textEnd
  | lineStart
  | lineEnd
  | wordBoundary (isWord : Char → Bool)
  | notWordBoundary (isWord : Char → Bool)
  | wordStart (isWord : Char → Bool)
  | wordEnd (isWord : Char → Bool)

/-- A regular expression. -/
inductive Regex where
  | empty
  | char (accepts : Char → Bool)
  | look (condition : Look)
  | seq (first second : Regex)
  | either (left right : Regex)
  /-- At least `least` times the body, and at most `most` times if there is a limit. -/
  | repeated (body : Regex) (least : Nat) (most : Option Nat)

namespace Look

/-- Whether the condition holds in front of the character at `place`. -/
def holds (text : Array Char) (place : Nat) (condition : Look) : Bool :=
  let before := if place = 0 then none else text[place - 1]?
  let after := text[place]?
  match condition with
  | textStart => place == 0
  | textEnd => place == text.size
  | lineStart => before.all (· == '\n')
  | lineEnd => after.all (· == '\n')
  | wordBoundary isWord => before.any isWord != after.any isWord
  | notWordBoundary isWord => before.any isWord == after.any isWord
  | wordStart isWord => !before.any isWord && after.any isWord
  | wordEnd isWord => before.any isWord && !after.any isWord

end Look

namespace Regex

/-- All places of two sets. -/
def union (a b : List Nat) : List Nat := a ++ b.filter fun place => !a.contains place

/-- The places after doing `step` exactly `n` times. -/
def exactly (step : List Nat → List Nat) : Nat → List Nat → List Nat
  | 0, places => places
  | n + 1, places => if places.isEmpty then [] else exactly step n (step places)

/-- The places after doing `step` at most `n` times. -/
def upTo (step : List Nat → List Nat) : Nat → List Nat → List Nat
  | 0, places => places
  | n + 1, places =>
    let more := (step places).filter fun place => !places.contains place
    if more.isEmpty then places else upTo step n (places ++ more)

/-- Where matches end that start at one of `places`. -/
def reach (text : Array Char) : Regex → List Nat → List Nat
  | empty, places => places
  | char accepts, places => places.filterMap fun place =>
    if text[place]?.any accepts then some (place + 1) else none
  | look condition, places => places.filter fun place => condition.holds text place
  | seq first second, places => reach text second (reach text first places)
  | either left right, places => union (reach text left places) (reach text right places)
  | repeated body least most, places =>
    upTo (reach text body) (min ((most.getD (least + text.size + 1)) - least) (text.size + 1))
      (exactly (reach text body) least places)

/-- Whether the expression matches some part of `text`. -/
def occursIn (regex : Regex) (text : String) : Bool :=
  let chars := text.toList.toArray
  !(regex.reach chars (List.range (chars.size + 1))).isEmpty

end Regex
end NovelScript.Pattern
