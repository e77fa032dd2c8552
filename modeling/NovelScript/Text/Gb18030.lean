import NovelScript.Text.Decoding
import NovelScript.Text.Gb18030Index
import NovelScript.Text.Gb18030Runs

/-!
# GB18030

A character takes one octet (ASCII), two octets naming a cell of `Gb18030Index.grid`, 190 cells to a
lead, or four octets that number the code points without a cell.
-/

namespace NovelScript.Text.Gb18030

/-- Whether `octet` opens a pair or a group of four. -/
def isLead (octet : UInt8) : Bool := 0x81 ≤ octet && octet ≤ 0xFE

/-- Whether `octet` closes a pair. -/
def isTrail (octet : UInt8) : Bool :=
  (0x40 ≤ octet && octet ≤ 0x7E) || (0x80 ≤ octet && octet ≤ 0xFE)

/-- Whether `octet` is the second or fourth of a group of four. -/
def isDigit (octet : UInt8) : Bool := 0x30 ≤ octet && octet ≤ 0x39

/-- The cell that a pair names. -/
def pointer (lead trail : UInt8) : Nat :=
  (lead.toNat - 0x81) * 190 + (trail.toNat - if trail < 0x7F then 0x40 else 0x41)

/-- The pair that names a cell. -/
def pair (pointer : Nat) : Bytes :=
  let trail := pointer % 190
  [UInt8.ofNat (pointer / 190 + 0x81), UInt8.ofNat (trail + if trail < 0x3F then 0x40 else 0x41)]

/-- The number that a group of four stands for. -/
def number (first second third fourth : UInt8) : Nat :=
  (((first.toNat - 0x81) * 10 + (second.toNat - 0x30)) * 126 + (third.toNat - 0x81)) * 10
    + (fourth.toNat - 0x30)

/-- The group of four that stands for a number. -/
def group (number : Nat) : Bytes :=
  [UInt8.ofNat (number / 12600 + 0x81), UInt8.ofNat (number / 1260 % 10 + 0x30),
    UInt8.ofNat (number / 10 % 126 + 0x81), UInt8.ofNat (number % 10 + 0x30)]

/-- The character of a pair.  A trail octet that fits nothing stays in the input if it is an ASCII
character. -/
def scanPair (first second : UInt8) : Char × Nat :=
  match if isTrail second then Gb18030Index.grid.char? (pointer first second) else none with
  | some c => (c, 1)
  | none => (replacement, if second < 0x80 then 0 else 1)

/-- The character of a group of four.  A group cut off by the end of input is one replacement
character; a group broken by another octet gives up its first octet only. -/
def scanGroup (first second : UInt8) (rest : Bytes) : Char × Nat :=
  match rest with
  | [] => (replacement, 1)
  | third :: rest =>
    if isLead third then
      match rest with
      | [] => (replacement, 2)
      | fourth :: _ =>
        if isDigit fourth then
          ((Gb18030Runs.char? (number first second third fourth)).getD replacement, 3)
        else (replacement, 0)
    else (replacement, 0)

/-- The octet `80` alone is the euro sign. -/
def scan : Scanner := fun first rest =>
  if first < 0x80 then (Char.ofNat first.toNat, 0)
  else if first = 0x80 then ('€', 0)
  else if isLead first then
    match rest with
    | [] => (replacement, 0)
    | second :: rest =>
      if isDigit second then scanGroup first second rest else scanPair first second
  else (replacement, 0)

/-- Private-use code points that older editions of the standard assigned to these pairs.  They are
written as before, while the pairs decode to the characters that have since been encoded. -/
def superseded : List (Nat × Bytes) := [
  (0xE78D, [0xA6, 0xD9]), (0xE78E, [0xA6, 0xDA]), (0xE78F, [0xA6, 0xDB]), (0xE790, [0xA6, 0xDC]),
  (0xE791, [0xA6, 0xDD]), (0xE792, [0xA6, 0xDE]), (0xE793, [0xA6, 0xDF]), (0xE794, [0xA6, 0xEC]),
  (0xE795, [0xA6, 0xED]), (0xE796, [0xA6, 0xF3]), (0xE81E, [0xFE, 0x59]), (0xE826, [0xFE, 0x61]),
  (0xE82B, [0xFE, 0x66]), (0xE82C, [0xFE, 0x67]), (0xE832, [0xFE, 0x6D]), (0xE843, [0xFE, 0x7E]),
  (0xE854, [0xFE, 0x90]), (0xE864, [0xFE, 0xA0])]

/-- The octets of a character: the shortest form it has. -/
def encodeChar? (c : Char) : Option Bytes :=
  if c.toNat < 0x80 then some [UInt8.ofNat c.toNat]
  else
    (superseded.lookup c.toNat)
    <|> (Gb18030Index.grid.pointer? (fun _ => false) c).map pair
    <|> (Gb18030Runs.number? c).map group

end NovelScript.Text.Gb18030
