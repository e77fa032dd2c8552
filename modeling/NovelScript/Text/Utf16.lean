import NovelScript.Text.Decoding

/-!
# UTF-16

Text that announces itself by a byte order mark may come as 16-bit units in either order.  A
surrogate without its partner, and an octet without its other half, become replacement characters.
-/

namespace NovelScript.Text.Utf16

/-- Whether `unit` opens a surrogate pair. -/
def isHigh (unit : Nat) : Bool := 0xD800 ≤ unit && unit < 0xDC00

/-- Whether `unit` closes a surrogate pair. -/
def isLow (unit : Nat) : Bool := 0xDC00 ≤ unit && unit < 0xE000

/-- Reads units whose two octets `unit` puts together. -/
def scan (unit : UInt8 → UInt8 → Nat) : Scanner := fun first rest =>
  match rest with
  | [] => (replacement, 0)
  | second :: rest =>
    let high := unit first second
    if isHigh high then
      match rest with
      | third :: fourth :: _ =>
        let low := unit third fourth
        if isLow low then
          (Char.ofNat (0x10000 + (high - 0xD800) * 1024 + (low - 0xDC00)), 3)
        else (replacement, 1)
      | _ => (replacement, 1 + rest.length)
    else if isLow high then (replacement, 1)
    else (Char.ofNat high, 1)

/-- Units with the less significant octet first. -/
def scanLittle : Scanner := scan fun first second => first.toNat + 256 * second.toNat

/-- Units with the more significant octet first. -/
def scanBig : Scanner := scan fun first second => 256 * first.toNat + second.toNat

end NovelScript.Text.Utf16
