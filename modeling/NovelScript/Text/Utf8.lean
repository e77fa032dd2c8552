import NovelScript.Text.Decoding

/-!
# UTF-8

A malformed sequence is replaced as soon as an octet rules the character out: that octet starts
afresh, and the octets before it count as one replacement character.
-/

namespace NovelScript.Text.Utf8

/-- Whether `octet` continues a character. -/
def isTail (octet : UInt8) : Bool := 0x80 ≤ octet && octet ≤ 0xBF

/-- The range of the second octet behind a lead octet: it shuts out overlong forms, surrogates and
code points beyond `10FFFF`. -/
def secondRange (lead : UInt8) : UInt8 × UInt8 :=
  if lead = 0xE0 then (0xA0, 0xBF)
  else if lead = 0xED then (0x80, 0x9F)
  else if lead = 0xF0 then (0x90, 0xBF)
  else if lead = 0xF4 then (0x80, 0x8F)
  else (0x80, 0xBF)

/-- Whether `octet` may come second behind `lead`. -/
def isSecond (lead octet : UInt8) : Bool :=
  (secondRange lead).1 ≤ octet && octet ≤ (secondRange lead).2

/-- The payload of an octet that continues a character. -/
def tailBits (octet : UInt8) : Nat := octet.toNat % 64

/-- The character behind a lead octet of two, three or four. -/
def scan : Scanner := fun lead rest =>
  if lead < 0x80 then
    (Char.ofNat lead.toNat, 0)
  else if 0xC2 ≤ lead && lead ≤ 0xDF then
    match rest with
    | second :: _ =>
      if isTail second then (Char.ofNat (lead.toNat % 32 * 64 + tailBits second), 1)
      else (replacement, 0)
    | [] => (replacement, 0)
  else if 0xE0 ≤ lead && lead ≤ 0xEF then
    match rest with
    | second :: rest =>
      if isSecond lead second then
        match rest with
        | third :: _ =>
          if isTail third then
            (Char.ofNat (lead.toNat % 16 * 4096 + tailBits second * 64 + tailBits third), 2)
          else (replacement, 1)
        | [] => (replacement, 1)
      else (replacement, 0)
    | [] => (replacement, 0)
  else if 0xF0 ≤ lead && lead ≤ 0xF4 then
    match rest with
    | second :: rest =>
      if isSecond lead second then
        match rest with
        | third :: rest =>
          if isTail third then
            match rest with
            | fourth :: _ =>
              if isTail fourth then
                (Char.ofNat (lead.toNat % 8 * 262144 + tailBits second * 4096
                  + tailBits third * 64 + tailBits fourth), 3)
              else (replacement, 2)
            | [] => (replacement, 2)
          else (replacement, 1)
        | [] => (replacement, 1)
      else (replacement, 0)
    | [] => (replacement, 0)
  else
    (replacement, 0)

/-- The octets of a character. -/
def encodeChar (c : Char) : Bytes := String.utf8EncodeChar c

/-- The octets of a text. -/
def encode (text : String) : Bytes := text.toList.flatMap encodeChar

/-- The text of well-formed input. -/
def decode? (input : Bytes) : Option String :=
  let text : String := .ofList (scan.decode input)
  if encode text = input then some text else none

end NovelScript.Text.Utf8
