import NovelScript.Bytecode.DataSector

/-!
# The stored form of an element

An element is stored as four words: a tag that says what it is, and three fields whose meaning
depends on the tag.  Texts and integers are stored in the data sector, and a field holds the offset.

`ofElement` writes an element, given what the code says about it; `element` reads one.
-/

namespace NovelScript

/-- The four words that store an element. -/
structure ElementRecord where
  tag : UInt32
  field1 : UInt32
  field2 : UInt32
  field3 : UInt32
deriving DecidableEq

/-- The tag of a stored element. -/
def Element.tag : Element → UInt32
  | .function _ => 0
  | .marker _ => 1
  | .integer _ => 4
  | .text _ => 5
  | .special _ => 8
  | .intFlag .. => 9
  | .textFlag .. => 10
  | .localVar _ => 11

namespace ElementRecord

/-- The size of a stored element in octets. -/
def size : Nat := 16

/-- The link field of a marker that belongs with no other. -/
def linkNone : UInt32 := 0xFFFFFFFF

/-- The link field of an operator. -/
def linkOperator : UInt32 := 0xFFFFFFFE

/-- Takes a record off the front of the input. -/
def take : Reader ElementRecord := do
  return {
    tag := ← Word.take32
    field1 := ← Word.take32
    field2 := ← Word.take32
    field3 := ← Word.take32 }

/-- The octets of a record. -/
def write (record : ElementRecord) : Bytes :=
  Word.octets32 record.tag ++ Word.octets32 record.field1 ++ Word.octets32 record.field2
    ++ Word.octets32 record.field3

/-- Groups words by four into records. -/
def ofWords : List UInt32 → List ElementRecord
  | tag :: field1 :: field2 :: field3 :: rest => ⟨tag, field1, field2, field3⟩ :: ofWords rest
  | _ => []

@[simp] theorem length_write (record : ElementRecord) : record.write.length = size := rfl

@[simp] theorem take_write (record : ElementRecord) (rest : Bytes) :
    take (record.write ++ rest) = some (record, rest) := by
  simp only [write, List.append_assoc, take, Word.take32_bind]
  rfl

/-- Records written one after the other are read back in order. -/
theorem ofWords_words32_write (records : List ElementRecord) :
    ofWords (Word.words32 (records.flatMap write)) = records := by
  induction records with
  | nil => rfl
  | cons record records ih => simp [List.flatMap_cons, write, ofWords, ih]

/-- A flag or a pointer to one, as a field. -/
def pointerField (number : ScriptInt) : UInt32 := if number.pointer then 1 else 0

/-- Stores an element.  `lastCall` is the word of the last call through a function, and `linkWord`
the word at which the marker that this one belongs with is placed. -/
def ofElement (element : Element) (lastCall : Nat) (linkWord : Option Nat) (sector : DataSector) :
    Except ScriptError (ElementRecord × DataSector) :=
  match element with
  | .function name => do
    let (offset, sector) ← sector.writeText name
    return (⟨element.tag, .ofNat offset, .ofNat lastCall, 0⟩, sector)
  | .marker m => do
    let (offset, sector) ← sector.writeText m.name
    match linkWord with
    | some word =>
      let (link, sector) := sector.writeInteger (UInt32.ofNat word).toInt32
      return (⟨element.tag, .ofNat offset, .ofNat link, m.labelOffset⟩, sector)
    | none =>
      let link := if isOperator m.name then linkOperator else linkNone
      return (⟨element.tag, .ofNat offset, link, m.labelOffset⟩, sector)
  | .integer number =>
    let (offset, sector) := sector.writeInteger number.value
    .ok (⟨element.tag, pointerField number, .ofNat offset, 0⟩, sector)
  | .text value => do
    let (offset, sector) ← sector.writeText value
    return (⟨element.tag, 0, .ofNat offset, 0⟩, sector)
  | .special name => do
    let (offset, sector) ← sector.writeText name
    return (⟨element.tag, .ofNat offset, 0, 0⟩, sector)
  | .intFlag kind id | .textFlag kind id => do
    let (kindOffset, sector) ← sector.writeText kind
    let (idOffset, sector) := sector.writeInteger id.value
    return (⟨element.tag, .ofNat kindOffset, pointerField id, .ofNat idOffset⟩, sector)
  | .localVar id => .ok (⟨element.tag, 0, 0, .ofNat id⟩, sector)

/-- Reads the element at an index of the table; `markers` markers come before it. -/
def element (record : ElementRecord) (index markers : Nat) (view : SectorView) :
    Except ScriptError Element := do
  let text (offset : UInt32) := view.textAt offset.toNat
  let number (offset pointer : UInt32) : Except ScriptError ScriptInt := do
    return ⟨← view.integerAt offset.toNat, pointer ≠ 0⟩
  match record.tag with
  | 0 => return .function (← text record.field1)
  | 1 => return .marker ⟨← text record.field1, none, markers, record.field3⟩
  | 4 => return .integer (← number record.field2 record.field1)
  | 5 => return .text (← text record.field2)
  | 8 => return .special (← text record.field1)
  | 9 => return .intFlag (← text record.field1) (← number record.field3 record.field2)
  | 10 => return .textFlag (← text record.field1) (← number record.field3 record.field2)
  | 11 => return .localVar record.field3.toNat
  | tag => throw (.invalidElementType index tag)

end ElementRecord
end NovelScript
