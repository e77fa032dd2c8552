import NovelScript.Text.Concealed

/-!
# Quoted text in messages and listings

A quotation stands between double quotes.  Quotes, backslashes and the usual controls are written
with a backslash, and every other character that would not be seen by its code point.
-/

namespace NovelScript.Text

/-- A number in hexadecimal with small letters. -/
def hexDigits (n : Nat) : String := .ofList (Nat.toDigits 16 n)

/-- A number in hexadecimal with capital letters. -/
def capitalHexDigits (n : Nat) : String := (hexDigits n).toUpper

/-- A character inside a quotation. -/
def quoteChar (c : Char) : String :=
  if c = '"' then "\\\""
  else if c = '\\' then "\\\\"
  else if c = '\n' then "\\n"
  else if c = '\r' then "\\r"
  else if c = '\t' then "\\t"
  else if c = '\x00' then "\\0"
  else if c ≠ ' ' && concealed.contains c then "\\u\x7b" ++ hexDigits c.toNat ++ "\x7d"
  else c.toString

/-- `text` as a quotation. -/
def quote (text : String) : String :=
  "\"" ++ String.join (text.toList.map quoteChar) ++ "\""

end NovelScript.Text
