import NovelScript.Text.Blank
import NovelScript.Text.Gb18030
import NovelScript.Text.Quoted
import NovelScript.Text.ShiftJis
import NovelScript.Text.Utf16
import NovelScript.Text.Utf8

/-!
# The encodings of scripts and archives

An `Encoding` says how the text of a data sector or the names of an archive are stored.  `decode`
always answers a text; `encode` refuses a text with a character that the encoding lacks.  Stored
text may end at a zero octet (`decodeTerminated`, `encodeTerminated`).

Outside UTF-8, input that opens with a byte order mark is decoded as the mark says, without it.
-/

namespace NovelScript

/-- How text is stored.  GBK is read and written as GB18030, which contains it. -/
inductive Encoding where
  | utf8
  | shiftJis
  | gbk
  | gb18030
deriving DecidableEq, Repr, Inhabited

/-- Why an encoding cannot be found or used. -/
inductive EncodingError where
  /-- No encoding goes by this name. -/
  | unknownName (name : String)
  /-- The text has a character that the encoding lacks. -/
  | unrepresentable (encoding : Encoding) (text : String)
deriving DecidableEq

namespace Encoding

/-- The name under which messages speak of an encoding. -/
def label : Encoding → String
  | utf8 => "Utf8"
  | shiftJis => "ShiftJis"
  | gbk => "Gbk"
  | gb18030 => "Gb18030"

/-- Finds an encoding by name, whatever the case of its letters and the blanks around it. -/
def ofName (name : String) : Except EncodingError Encoding :=
  let key := (Text.trim name).toLower
  if key ∈ ["utf8", "utf-8"] then .ok utf8
  else if key ∈ ["sjis", "shiftjis", "shift_jis", "shift-jis"] then .ok shiftJis
  else if key = "gbk" then .ok gbk
  else if key = "gb18030" then .ok gb18030
  else .error (.unknownName key)

/-- How an encoding reads a character. -/
def scan : Encoding → Text.Scanner
  | utf8 => Text.Utf8.scan
  | shiftJis => Text.ShiftJis.scan
  | gbk | gb18030 => Text.Gb18030.scan

/-- The octets of a character, if the encoding has it. -/
def encodeChar? : Encoding → Char → Option Bytes
  | utf8, c => some (Text.Utf8.encodeChar c)
  | shiftJis, c => Text.ShiftJis.encodeChar? c
  | gbk, c | gb18030, c => Text.Gb18030.encodeChar? c

/-- How a byte order mark at the front of `input` says it is stored, and the input behind the
mark. -/
def marked? (input : Bytes) : Option (Text.Scanner × Bytes) :=
  match input with
  | 0xEF :: 0xBB :: 0xBF :: rest => some (Text.Utf8.scan, rest)
  | 0xFF :: 0xFE :: rest => some (Text.Utf16.scanLittle, rest)
  | 0xFE :: 0xFF :: rest => some (Text.Utf16.scanBig, rest)
  | _ => none

/-- The text stored in `input`. -/
def decode (encoding : Encoding) (input : Bytes) : String :=
  match encoding, marked? input with
  | utf8, _ | _, none => .ofList (encoding.scan.decode input)
  | _, some (scanner, rest) => .ofList (scanner.decode rest)

/-- The text stored before the first zero octet of `input`. -/
def decodeTerminated (encoding : Encoding) (input : Bytes) : String :=
  encoding.decode (input.takeWhile (· ≠ 0))

/-- The octets of `text`, unless it has a character that the encoding lacks. -/
def encode (encoding : Encoding) (text : String) : Except EncodingError Bytes :=
  match text.toList.mapM encoding.encodeChar? with
  | some groups => .ok groups.flatten
  | none => .error (.unrepresentable encoding text)

/-- The octets of `text` and a zero octet. -/
def encodeTerminated (encoding : Encoding) (text : String) : Except EncodingError Bytes :=
  (encoding.encode text).map (· ++ [0])

end Encoding

/-- The wording of an encoding error. -/
def EncodingError.message : EncodingError → String
  | unknownName name => s!"unknown encoding: {name}"
  | unrepresentable encoding text =>
    s!"text is not representable in {encoding.label}: {Text.quote text}"

end NovelScript
