import NovelScript.Text.Decoding
import NovelScript.Text.Jis0208

/-!
# Shift-JIS

One octet is an ASCII character or a half-width katakana; a lead octet and a trail octet name a cell
of `Jis0208.grid`, 188 cells to a lead.  Ten lead octets hold user-defined characters, which decode
to private-use code points and are never written.
-/

namespace NovelScript.Text.ShiftJis

/-- Whether `octet` opens a pair. -/
def isLead (octet : UInt8) : Bool :=
  (0x81 ≤ octet && octet ≤ 0x9F) || (0xE0 ≤ octet && octet ≤ 0xFC)

/-- Whether `octet` closes a pair. -/
def isTrail (octet : UInt8) : Bool :=
  (0x40 ≤ octet && octet ≤ 0x7E) || (0x80 ≤ octet && octet ≤ 0xFC)

/-- The cell that a pair names. -/
def pointer (lead trail : UInt8) : Nat :=
  (lead.toNat - if lead < 0xA0 then 0x81 else 0xC1) * 188
    + (trail.toNat - if trail < 0x7F then 0x40 else 0x41)

/-- The pair that names a cell. -/
def pair (pointer : Nat) : Bytes :=
  let lead := pointer / 188
  let trail := pointer % 188
  [UInt8.ofNat (lead + if lead < 0x1F then 0x81 else 0xC1),
    UInt8.ofNat (trail + if trail < 0x3F then 0x40 else 0x41)]

/-- The character in a cell: the user-defined cells run through the private-use code points. -/
def pairChar? (pointer : Nat) : Option Char :=
  if 8836 ≤ pointer ∧ pointer ≤ 10715 then some (Char.ofNat (0xE000 + (pointer - 8836)))
  else Jis0208.grid.char? pointer

/-- An octet that closes no pair stays in the input if it is an ASCII character. -/
def scan : Scanner := fun first rest =>
  if first ≤ 0x80 then
    (Char.ofNat first.toNat, 0)
  else if 0xA1 ≤ first && first ≤ 0xDF then
    (Char.ofNat (0xFF61 + (first.toNat - 0xA1)), 0)
  else if isLead first then
    match rest with
    | [] => (replacement, 0)
    | second :: _ =>
      match if isTrail second then pairChar? (pointer first second) else none with
      | some c => (c, 1)
      | none => (replacement, if second < 0x80 then 0 else 1)
  else
    (replacement, 0)

/-- Cells that repeat characters of the IBM extensions are never written, nor are the user-defined
ones behind them. -/
def isRepeated (pointer : Nat) : Bool := 8272 ≤ pointer && pointer ≤ 10715

/-- The octets of a character.  The yen sign and the overline share the octets of the backslash and
the tilde, and the minus sign those of its full-width form. -/
def encodeChar? (c : Char) : Option Bytes :=
  if c.toNat ≤ 0x80 then some [UInt8.ofNat c.toNat]
  else if c = '¥' then some [0x5C]
  else if c = '‾' then some [0x7E]
  else if 0xFF61 ≤ c.toNat ∧ c.toNat ≤ 0xFF9F then some [UInt8.ofNat (c.toNat - 0xFF61 + 0xA1)]
  else (Jis0208.grid.pointer? isRepeated (if c = '−' then '－' else c)).map pair

end NovelScript.Text.ShiftJis
