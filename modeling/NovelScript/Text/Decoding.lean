import NovelScript.Byte.Word

/-!
# Decoding text character by character

Every decoder here is a `Scanner`: given an octet and what follows it, it answers the character that
starts there and how many of the following octets belong to it.  Malformed input is not an error: a
scanner answers the replacement character and leaves alone what can start a character of its own.

The main statement is `decode_flatMap`: if a scanner reads each character back from its own octets
whatever follows them, decoding undoes encoding for whole texts.
-/

namespace NovelScript.Text

/-- Stands for input that is not text. -/
def replacement : Char := '\uFFFD'

/-- Finds the character at an octet, and how many octets after it belong to that character. -/
abbrev Scanner := UInt8 → Bytes → Char × Nat

/-- The characters of the whole input. -/
def Scanner.decode (scanner : Scanner) : Bytes → List Char
  | [] => []
  | octet :: rest =>
    (scanner octet rest).1 :: decode scanner (rest.drop (scanner octet rest).2)
termination_by input => input.length
decreasing_by simp only [List.length_drop, List.length_cons]; omega

@[simp] theorem Scanner.decode_nil (scanner : Scanner) : scanner.decode [] = [] := by
  simp [Scanner.decode]

theorem Scanner.decode_cons (scanner : Scanner) (octet : UInt8) (rest : Bytes) :
    scanner.decode (octet :: rest) =
      (scanner octet rest).1 :: scanner.decode (rest.drop (scanner octet rest).2) := by
  rw [Scanner.decode]

/-- `scanner` reads `c` back from `octets`, whatever follows them. -/
def Scanner.Reads (scanner : Scanner) (octets : Bytes) (c : Char) : Prop :=
  ∃ first others, octets = first :: others ∧
    ∀ rest, scanner first (others ++ rest) = (c, others.length)

theorem Scanner.decode_append {scanner : Scanner} {octets : Bytes} {c : Char}
    (h : scanner.Reads octets c) (rest : Bytes) :
    scanner.decode (octets ++ rest) = c :: scanner.decode rest := by
  obtain ⟨first, others, rfl, hread⟩ := h
  rw [List.cons_append, Scanner.decode_cons, hread]
  simp

/-- Decoding undoes encoding when every character is read back from its own octets. -/
theorem Scanner.decode_flatMap {scanner : Scanner} {encode : Char → Bytes} {text : List Char}
    (h : ∀ c ∈ text, scanner.Reads (encode c) c) :
    scanner.decode (text.flatMap encode) = text := by
  induction text with
  | nil => simp
  | cons c text ih =>
    rw [List.flatMap_cons, Scanner.decode_append (h c (by simp)),
      ih fun d hd => h d (by simp [hd])]

end NovelScript.Text
