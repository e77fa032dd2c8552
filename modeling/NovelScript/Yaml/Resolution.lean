import NovelScript.Yaml.Node

/-!
# What plain scalars mean

A plain scalar may stand for nothing, a truth value or a number, depending on its text alone.  Any
scalar may be taken as a text.
-/

namespace NovelScript.Yaml

/-! ## Words -/

/-- The words for nothing. -/
def nullWords : List String := ["null", "Null", "NULL", "~"]

/-- The truth value of a word. -/
def boolean? (text : String) : Option Bool :=
  if ["true", "True", "TRUE"].contains text then some true
  else if ["false", "False", "FALSE"].contains text then some false
  else none

/-! ## Numbers -/

/-- The value of a digit below `base`. -/
def digitValue? (base : Nat) (c : Char) : Option Nat := (hexValue? c).filter (· < base)

/-- The number that digits of a base give; there must be one. -/
def natOf? (base : Nat) (digits : List Char) : Option Nat :=
  if digits.isEmpty then none
  else (digits.mapM (digitValue? base)).map fun values => values.foldl (fun n d => base * n + d) 0

/-- Whether a text is a sign, or none, a zero and more digits.  That is no number. -/
def isPaddedNumber (text : List Char) : Bool :=
  let digits := match text with
    | '+' :: rest | '-' :: rest => rest
    | _ => text
  1 < digits.length && digits.head? == some '0' && digits.all Char.isDigit

/-- The number that a text gives without a sign: in another base behind its mark, else decimal. -/
def unsigned? (text : List Char) : Option Nat :=
  match text with
  | '0' :: 'x' :: digits => natOf? 16 digits
  | '0' :: 'o' :: digits => natOf? 8 digits
  | '0' :: 'b' :: digits => natOf? 2 digits
  | _ => if isPaddedNumber text then none else natOf? 10 text

/-- The integer that a text gives. -/
def integer? (text : String) : Option Int :=
  match text.toList with
  | '+' :: rest => (unsigned? rest).map Int.ofNat
  | '-' :: rest => (unsigned? rest).map fun n => -Int.ofNat n
  | rest => (unsigned? rest).map Int.ofNat

/-- A decimal number: `digits · 10 ^ exponent`, its sign apart. -/
structure Decimal where
  digits : Nat
  exponent : Int

/-- The exponent of a decimal number: nothing, or a mark and a number. -/
def exponent? (text : List Char) : Option Int :=
  match text with
  | [] => some 0
  | 'e' :: rest | 'E' :: rest =>
    match rest with
    | '-' :: digits => (natOf? 10 digits).map fun n => -Int.ofNat n
    | '+' :: digits | digits => (natOf? 10 digits).map Int.ofNat
  | _ => none

/-- Reads a decimal number without its sign.  A digit must stand before the exponent. -/
def Decimal.ofChars? (text : List Char) : Option Decimal := do
  let whole := text.takeWhile Char.isDigit
  let rest := text.dropWhile Char.isDigit
  let (fraction, rest) := match rest with
    | '.' :: rest => (rest.takeWhile Char.isDigit, rest.dropWhile Char.isDigit)
    | _ => ([], rest)
  let digits ← natOf? 10 (whole ++ fraction)
  let exponent ← exponent? rest
  return ⟨digits, exponent - fraction.length⟩

/-- Whether rounding a decimal number to 53 bits gives a number below `2 ^ 1024`. -/
def Decimal.isFinite (n : Decimal) : Bool :=
  let size := (toString n.digits).length + n.exponent
  if n.digits = 0 ∨ size ≤ 308 then true
  else if 310 < size then false
  else
    let bound := Nat.pow 2 1024 - Nat.pow 2 970
    if 0 ≤ n.exponent then n.digits * Nat.pow 10 n.exponent.toNat < bound
    else n.digits < bound * Nat.pow 10 (-n.exponent).toNat

/-- Whether a text is a number that need not be whole. -/
def isReal (text : String) : Bool :=
  if [".inf", ".Inf", ".INF", "+.inf", "+.Inf", "+.INF", "-.inf", "-.Inf", "-.INF", ".nan", ".NaN",
      ".NAN"].contains text then true
  else
    let unsigned := match text.toList with
      | '+' :: rest | '-' :: rest => rest
      | rest => rest
    (Decimal.ofChars? unsigned).any Decimal.isFinite

/-- Whether an integer fits in 128 bits, one of them for the sign if it is negative. -/
def fitsWideWord : Int → Bool
  | .ofNat n => n < Nat.pow 2 128
  | .negSucc n => n < Nat.pow 2 127

/-- Whether a plain scalar of this text is a number or nearly one. -/
def looksNumeric (text : String) : Bool :=
  (integer? text).any fitsWideWord || isPaddedNumber text.toList || isReal text

/-! ## Nodes as values -/

namespace Node

/-- The tags of the values that a plain scalar may have. -/
def standardTag (kind : String) : Option String := some ("tag:yaml.org,2002:" ++ kind)

/-- The text of a scalar. -/
def text? : Node → Option String
  | scalar _ _ text => some text
  | _ => none

/-- The text of a scalar that can be a value of a kind other than text: a plain one, or a block with
the tag of the kind. -/
def valueText? (kind : String) : Node → Option String
  | scalar _ .plain text => some text
  | scalar tag .literal text => if tag = standardTag kind then some text else none
  | _ => none

/-- The truth value of a node. -/
def bool? (node : Node) : Option Bool := do boolean? (← node.valueText? "bool")

/-- The integer of a node. -/
def int? (node : Node) : Option Int := do integer? (← node.valueText? "int")

/-- Whether a node stands where nothing is written. -/
def isEmpty : Node → Bool
  | scalar _ .plain text => text.isEmpty
  | _ => false

/-- What a node says that may say nothing.  Nothing is meant by an empty plain scalar or a word for
it; a tag asks for a value, unless it is the tag of nothing. -/
def optional? : Node → Option (Option Node)
  | scalar none .plain text =>
    some (if text.isEmpty || nullWords.contains text then none else some (scalar none .plain text))
  | scalar tag .plain text =>
    if tag = standardTag "null" then
      if nullWords.contains text then some none else none
    else some (some (scalar tag .plain text))
  | node => some (some node)

/-- The items of a sequence; an empty scalar has none. -/
def items? : Node → Option (List Node)
  | sequence items => some items
  | node => if node.isEmpty then some [] else none

/-- The name that a node gives: that of its tag, which nothing may follow, or its text. -/
def name? : Node → Option String
  | scalar none _ text => some text
  | scalar (some tag) .plain text =>
    if text.isEmpty || nullWords.contains text then
      some (.ofList (match tag.toList with
        | '!' :: rest => rest
        | rest => rest))
    else none
  | _ => none

/-- A value for each of some names: the entries of a mapping that have these names as keys, each
once at most, or the items of a sequence in the order of the names.  Entries of other keys do not
count, but every key is a scalar. -/
def fields? (names : List String) : Node → Option (List (String × Node))
  | mapping entries => do
    let named ← entries.mapM fun entry => entry.1.text?.map fun key => (key, entry.2)
    let known := named.filter (names.contains ·.1)
    if (known.map (·.1)).Nodup then some known else none
  | sequence items => if items.length ≤ names.length then some (names.zip items) else none
  | node => if node.isEmpty then some [] else none

end Node
end NovelScript.Yaml
