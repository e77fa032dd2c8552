import NovelScript.Yaml.Token

/-!
# YAML values

A `Node` is what a YAML document says: a scalar, a sequence or a mapping, with all names of nodes
replaced by what they name.  `Node.parse?` reads a text with one document; a text without any
stands for an empty scalar.
-/

namespace NovelScript.Yaml

/-- A YAML value. -/
inductive Node where
  | scalar (tag : Option String) (style : ScalarStyle) (text : String)
  | sequence (items : List Node)
  /-- Keys with their values, in the order of the text. -/
  | mapping (entries : List (Node × Node))

namespace Node

/-- What stands where nothing is written. -/
def empty : Node := .scalar none .plain ""

/-- Tokens that are left, and the nodes named so far, the last one first. -/
structure ParseState where
  tokens : List Token
  anchors : List (String × Node) := []

/-- A step of the parser. -/
abbrev Parse := StateT ParseState Option

namespace Parse

/-- The next token. -/
def peek : Parse (Option Token) := return (← get).tokens.head?

/-- Moves behind the next token. -/
def advance : Parse Unit := modify fun state => { state with tokens := state.tokens.drop 1 }

/-- Moves behind the next token if it is this one. -/
def accept (token : Token) : Parse Bool := do
  if (← peek) = some token then
    advance
    return true
  else return false

/-- Moves behind the next token, which must be this one. -/
def expect (token : Token) : Parse Unit := do
  if !(← accept token) then failure

/-- Whether the next token is one of these. -/
def nextIs (tokens : List Token) : Parse Bool := return (← peek).any tokens.contains

/-- The name and tag in front of a node, in either order. -/
def properties : Parse (Option String × Option String) := do
  match ← peek with
  | some (.anchor name) => do
    advance
    match ← peek with
    | some (.tag tag) => do
      advance
      return (some name, some tag)
    | _ => return (some name, none)
  | some (.tag tag) => do
    advance
    match ← peek with
    | some (.anchor name) => do
      advance
      return (some name, some tag)
    | _ => return (none, some tag)
  | _ => return (none, none)

/-- The node of a name. -/
def named (name : String) : Parse Node := do
  match (← get).anchors.lookup name with
  | some node => return node
  | none => failure

/-- Gives a node a name. -/
def setName (name : String) (node : Node) : Parse Unit :=
  modify fun state => { state with anchors := (name, node) :: state.anchors }

/-- A node, or an empty one in front of these tokens. -/
def orEmpty (ends : List Token) (node : Parse Node) : Parse Node := do
  if ← nextIs ends then return empty else node

/-- A value behind its colon, empty if there is no colon. -/
def valueOr (ends : List Token) (node : Parse Node) : Parse Node := do
  if ← accept .value then orEmpty ends node else return empty

/-! ## Nodes

The first argument bounds how deep the calls go; of three calls in each other one takes a token. -/

mutual

/-- A node.  Outside brackets (`block`) it may be indented; where it is the value of a key
(`inMapping`), the dashes of a sequence need not be. -/
def node (fuel : Nat) (block inMapping : Bool) : Parse Node :=
  match fuel with
  | 0 => failure
  | fuel + 1 => do
    match ← peek with
    | some (.alias name) => do
      advance
      named name
    | _ => do
      let (name, tag) ← properties
      let found ← content fuel block inMapping (name.isSome || tag.isSome) tag
      name.forM (setName · found)
      return found

/-- A node behind its name and tag.  If it has any (`marked`), nothing more need be there. -/
def content (fuel : Nat) (block inMapping marked : Bool) (tag : Option String) : Parse Node :=
  match fuel with
  | 0 => failure
  | fuel + 1 => do
    match ← peek with
    | some (.scalar style text) => do
      advance
      return .scalar tag style text
    | some .flowSequenceStart => do
      advance
      return .sequence (← flowItems fuel true)
    | some .flowMappingStart => do
      advance
      return .mapping (← flowEntries fuel true)
    | next =>
      if next = some .blockEntry ∧ inMapping then return .sequence (← flatItems fuel)
      else if next = some .blockSequenceStart ∧ block then do
        advance
        return .sequence (← blockItems fuel)
      else if next = some .blockMappingStart ∧ block then do
        advance
        return .mapping (← blockEntries fuel)
      else if marked then return .scalar tag .plain ""
      else failure

/-- The items of an indented sequence. -/
def blockItems (fuel : Nat) : Parse (List Node) :=
  match fuel with
  | 0 => failure
  | fuel + 1 => do
    if ← accept .blockEntry then
      let item ← orEmpty [.blockEntry, .blockEnd] (node fuel true false)
      return item :: (← blockItems fuel)
    else
      expect .blockEnd
      return []

/-- The items of a sequence whose dashes stand below the key. -/
def flatItems (fuel : Nat) : Parse (List Node) :=
  match fuel with
  | 0 => failure
  | fuel + 1 => do
    if ← accept .blockEntry then
      let item ← orEmpty [.blockEntry, .key, .value, .blockEnd] (node fuel true false)
      return item :: (← flatItems fuel)
    else return []

/-- The entries of an indented mapping. -/
def blockEntries (fuel : Nat) : Parse (List (Node × Node)) :=
  match fuel with
  | 0 => failure
  | fuel + 1 => do
    if ← accept .key then
      let ends : List Token := [.key, .value, .blockEnd]
      let key ← orEmpty ends (node fuel true true)
      let value ← valueOr ends (node fuel true true)
      return (key, value) :: (← blockEntries fuel)
    else
      expect .blockEnd
      return []

/-- The items of a sequence between brackets. -/
def flowItems (fuel : Nat) (first : Bool) : Parse (List Node) :=
  match fuel with
  | 0 => failure
  | fuel + 1 => do
    if ← accept .flowSequenceEnd then return []
    if !first then expect .flowEntry
    if ← accept .flowSequenceEnd then return []
    if ← accept .key then
      let ends : List Token := [.flowEntry, .flowSequenceEnd]
      let key ← orEmpty (.value :: ends) (node fuel false false)
      let value ← valueOr ends (node fuel false false)
      return .mapping [(key, value)] :: (← flowItems fuel false)
    else
      let item ← node fuel false false
      return item :: (← flowItems fuel false)

/-- The entries of a mapping between braces. -/
def flowEntries (fuel : Nat) (first : Bool) : Parse (List (Node × Node)) :=
  match fuel with
  | 0 => failure
  | fuel + 1 => do
    if ← accept .flowMappingEnd then return []
    if !first then expect .flowEntry
    if ← accept .flowMappingEnd then return []
    if ← accept .key then
      let ends : List Token := [.flowEntry, .flowMappingEnd]
      let key ← orEmpty (.value :: ends) (node fuel false false)
      let value ← valueOr ends (node fuel false false)
      return (key, value) :: (← flowEntries fuel false)
    else
      let key ← node fuel false false
      return (key, empty) :: (← flowEntries fuel false)

end

/-! ## Documents -/

/-- What may stand in front of a document: one line on the version, and the mark that opens it. -/
def opening : Parse Bool := do
  let versioned ← accept .version
  if versioned then expect .documentStart
  return versioned || (← accept .documentStart)

/-- A text with one document. -/
def document : Parse Node := do
  let fuel := 3 * (← get).tokens.length + 4
  let marked ← opening
  let ends ← nextIs [.version, .documentStart, .documentEnd]
  let bare := (← peek).isNone
  let root ← if bare ∨ (marked ∧ ends) then pure empty else node fuel true false
  modify fun state => { state with tokens := state.tokens.dropWhile (· == .documentEnd) }
  if (← peek).isSome then failure
  return root

end Parse

/-- Reads a YAML text. -/
def parse? (text : String) : Option Node := do
  let tokens ← Token.scan? text.toList
  (Parse.document.run { tokens }).map (·.1)

end Node
end NovelScript.Yaml
