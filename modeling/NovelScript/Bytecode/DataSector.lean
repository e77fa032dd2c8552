import NovelScript.Script.Error

/-!
# The data sector

Integers and texts that elements refer to lie one after the other in a *data sector*, and elements
name them by offset.  A sector under construction (`DataSector`) is the list of what it holds, so
that a value written twice takes up room once; a finished one (`SectorView`) is read at any offset.
A sector may be scrambled by a key octet.

## What a reader remembers

A `SectorReader` keeps what it has read, integers and texts apart, and answers from memory when it
is asked again.  Its memories hold only what the sector itself says (`Memo.sound`), so those who
need no more than the answers read the `SectorView`.
-/

namespace NovelScript

/-- Combines every octet with a key octet.  Doing so twice changes nothing. -/
def scramble (key : Option UInt8) (input : Bytes) : Bytes :=
  match key with
  | some key => input.map (· ^^^ key)
  | none => input

@[simp] theorem length_scramble (key : Option UInt8) (input : Bytes) :
    (scramble key input).length = input.length := by
  cases key <;> simp [scramble]

theorem scramble_scramble (key : Option UInt8) (input : Bytes) :
    scramble key (scramble key input) = input := by
  cases key with
  | none => rfl
  | some key =>
    simp only [scramble, List.map_map, Function.comp_def, UInt8.xor_assoc, UInt8.xor_self,
      UInt8.xor_zero, List.map_id']

/-- A value that a sector holds. -/
inductive Datum where
  | integer (value : Int32)
  | text (value : String)
deriving DecidableEq

/-- A sector under construction: its data in order, each with the octets that store it. -/
structure DataSector where
  encoding : Encoding
  chunks : List (Datum × Bytes)

namespace DataSector

/-- A sector without data. -/
def empty (encoding : Encoding) : DataSector := ⟨encoding, []⟩

/-- The octets of the sector. -/
def bytes (sector : DataSector) : Bytes := sector.chunks.flatMap (·.2)

/-- The number of octets. -/
def size (sector : DataSector) : Nat :=
  sector.chunks.foldr (fun chunk n => chunk.2.length + n) 0

/-- Whether nothing has been written. -/
def isEmpty (sector : DataSector) : Bool := sector.size == 0

/-- Where a datum starts in a list of data. -/
def offsetIn (datum : Datum) : List (Datum × Bytes) → Option Nat
  | [] => none
  | chunk :: chunks =>
    if chunk.1 = datum then some 0 else (offsetIn datum chunks).map (chunk.2.length + ·)

/-- Where a datum starts, if the sector holds it. -/
def offset? (sector : DataSector) (datum : Datum) : Option Nat := offsetIn datum sector.chunks

/-- The octets of an integer. -/
def integerOctets (value : Int32) : Bytes := Word.octets32 value.toUInt32

/-- Adds a datum at the end. -/
def append (sector : DataSector) (datum : Datum) (octets : Bytes) : DataSector :=
  { sector with chunks := sector.chunks ++ [(datum, octets)] }

/-- Stores an integer and answers its offset. -/
def writeInteger (sector : DataSector) (value : Int32) : Nat × DataSector :=
  match sector.offset? (.integer value) with
  | some offset => (offset, sector)
  | none => (sector.size, sector.append (.integer value) (integerOctets value))

/-- Stores a text with its terminator and answers its offset. -/
def writeText (sector : DataSector) (value : String) : Except ScriptError (Nat × DataSector) :=
  match sector.offset? (.text value) with
  | some offset => .ok (offset, sector)
  | none =>
    match sector.encoding.encodeTerminated value with
    | .ok octets => .ok (sector.size, sector.append (.text value) octets)
    | .error e => .error (.encoding e)

/-- Stores a datum and answers its offset as a 32-bit word. -/
def write (sector : DataSector) : Datum → Except ScriptError (UInt32 × DataSector)
  | .integer value =>
    let (offset, sector) := sector.writeInteger value
    .ok (.ofNat offset, sector)
  | .text value => do
    let (offset, sector) ← sector.writeText value
    return (.ofNat offset, sector)

/-- Stores a datum and gives the answer.  One that is refused leaves the sector as it is. -/
def attempt (sector : DataSector) (datum : Datum) : Except ScriptError UInt32 × DataSector :=
  match sector.write datum with
  | .ok (offset, sector) => (.ok offset, sector)
  | .error e => (.error e, sector)

@[simp] theorem length_bytes (sector : DataSector) : sector.bytes.length = sector.size := by
  obtain ⟨encoding, chunks⟩ := sector
  induction chunks with
  | nil => rfl
  | cons chunk chunks ih =>
    simp only [bytes, size, List.flatMap_cons, List.length_append, List.foldr_cons] at ih ⊢
    rw [ih]

end DataSector

/-- A finished sector, unscrambled. -/
structure SectorView where
  encoding : Encoding
  bytes : Bytes

namespace SectorView

/-- Opens a stored sector. -/
def open_ (encoding : Encoding) (key : Option UInt8) (stored : Bytes) : SectorView :=
  ⟨encoding, scramble key stored⟩

/-- The integer at an offset. -/
def integerAt (view : SectorView) (offset : Nat) : Except ScriptError Int32 :=
  match Word.take32 (view.bytes.drop offset) with
  | some (word, _) => .ok word.toInt32
  | none => .error (.outOfRange offset view.bytes.length)

/-- The text at an offset, up to its terminator. -/
def textAt (view : SectorView) (offset : Nat) : Except ScriptError String :=
  let rest := view.bytes.drop offset
  if view.bytes.length ≤ offset then .error (.outOfRange offset view.bytes.length)
  else if 0 ∈ rest then .ok (view.encoding.decodeTerminated rest)
  else .error (.corrupt (.unterminatedText offset))

end SectorView

/-! ## Reading with a memory -/

/-- What is looked up in a finished sector. -/
inductive Lookup where
  | integer (offset : UInt32)
  | text (offset : UInt32)
deriving DecidableEq

/-- What a finished sector has for a lookup. -/
def SectorView.read (view : SectorView) : Lookup → Except ScriptError Datum
  | .integer offset => (view.integerAt offset.toNat).map .integer
  | .text offset => (view.textAt offset.toNat).map .text

/-- Values by offset that a function has given before.  Failures are not kept. -/
structure Memo {α : Type} (f : UInt32 → Except ScriptError α) where
  entries : List (UInt32 × α)
  sound : ∀ offset value, entries.lookup offset = some value → f offset = .ok value

namespace Memo

variable {α : Type} {f : UInt32 → Except ScriptError α}

/-- A memory of nothing. -/
def empty : Memo f := ⟨[], fun _ _ h => by cases h⟩

/-- Keeps a value that the function gives. -/
def remember (memo : Memo f) (offset : UInt32) (value : α) (h : f offset = .ok value) :
    Memo f where
  entries := (offset, value) :: memo.entries
  sound other found hfound := by
    rw [List.lookup_cons] at hfound
    split at hfound
    · next hsame => rw [beq_iff_eq.mp hsame, h, Option.some.inj hfound]
    · exact memo.sound other found hfound

/-- Answers from memory, or else from the function. -/
def ask (memo : Memo f) (offset : UInt32) : Except ScriptError α × Memo f :=
  match memo.entries.lookup offset with
  | some value => (.ok value, memo)
  | none =>
    match h : f offset with
    | .ok value => (.ok value, memo.remember offset value h)
    | .error e => (.error e, memo)

/-- A memory answers what the function does. -/
theorem ask_answer (memo : Memo f) (offset : UInt32) : (memo.ask offset).1 = f offset := by
  unfold ask
  split
  · next value hvalue => exact (memo.sound offset value hvalue).symm
  · split
    · next value hvalue => exact hvalue.symm
    · next e he => exact he.symm

end Memo

/-- A finished sector and what has been read from it. -/
structure SectorReader where
  view : SectorView
  integers : Memo fun offset => view.integerAt offset.toNat
  texts : Memo fun offset => view.textAt offset.toNat

namespace SectorReader

/-- Opens a stored sector, of which nothing has been read. -/
def open_ (encoding : Encoding) (key : Option UInt8) (stored : Bytes) : SectorReader :=
  ⟨.open_ encoding key stored, .empty, .empty⟩

/-- Reads what is looked up, from memory if it has been read before. -/
def read (reader : SectorReader) : Lookup → Except ScriptError Datum × SectorReader
  | .integer offset =>
    let (answer, integers) := reader.integers.ask offset
    (answer.map .integer, { reader with integers })
  | .text offset =>
    let (answer, texts) := reader.texts.ask offset
    (answer.map .text, { reader with texts })

/-- Reads one thing after the other. -/
def readAll (reader : SectorReader) :
    List Lookup → List (Except ScriptError Datum) × SectorReader
  | [] => ([], reader)
  | lookup :: lookups =>
    let (answer, reader) := reader.read lookup
    let (answers, reader) := reader.readAll lookups
    (answer :: answers, reader)

/-- A reader answers what the sector has. -/
@[simp] theorem read_answer (reader : SectorReader) (lookup : Lookup) :
    (reader.read lookup).1 = reader.view.read lookup := by
  cases lookup with
  | integer offset =>
    exact congrArg (Except.map Datum.integer) (reader.integers.ask_answer offset)
  | text offset => exact congrArg (Except.map Datum.text) (reader.texts.ask_answer offset)

/-- Reading leaves the sector as it is. -/
@[simp] theorem view_read (reader : SectorReader) (lookup : Lookup) :
    (reader.read lookup).2.view = reader.view := by
  cases lookup <;> rfl

end SectorReader
end NovelScript
