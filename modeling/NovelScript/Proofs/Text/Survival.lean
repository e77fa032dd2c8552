import NovelScript.Text.Encoding

/-!
# Texts that come back from their stored form

A text *survives* an encoding if it has no NUL character and decoding undoes encoding
(`Encoding.Survives`).  No encoding makes a zero octet of any other character
(`Encoding.zero_not_mem_of_encode`), so a text that survives is found again in front of the octet
that ends it (`Encoding.Survives.decodeTerminated`).  ASCII text survives every encoding.
-/

namespace NovelScript

namespace Text

/-! ## Sizes of the character tables -/

/-- A row given as a literal is as long as the list of its characters. -/
theorem forall_mem_cons_length_le {n : Nat} {row : String} {rows : List String} {cells : List Char}
    (hrow : row = .ofList cells) (hlength : Nat.ble cells.length n = true)
    (hrows : ∀ row ∈ rows, row.toList.length ≤ n) :
    ∀ row' ∈ row :: rows, row'.toList.length ≤ n := by
  refine List.forall_mem_cons.mpr ⟨?_, hrows⟩
  rw [hrow, String.toList_ofList]
  exact Nat.le_of_ble_eq_true hlength

theorem CharGrid.size_ofRows {width : Nat} {rows : List String}
    (h : ∀ row ∈ rows, row.toList.length ≤ width) :
    (CharGrid.ofRows width rows).cells.size = rows.length * width := by
  simp only [ofRows, List.size_toArray, List.length_flatMap]
  rw [List.map_congr_left (g := fun _ => width)]
  · simp [List.map_const']
  · intro row hrow
    rw [List.length_rightpad, Nat.max_eq_left (h row hrow)]

@[simp] theorem CharGrid.size_fillVacant (grid : CharGrid) (rule : Nat → Option Char) :
    (grid.fillVacant rule).cells.size = grid.cells.size := by
  simp [fillVacant]

set_option maxRecDepth 4000 in
theorem Gb18030Index.length_of_mem_rows :
    ∀ row ∈ Gb18030Index.rows, row.toList.length ≤ 95 := by
  unfold Gb18030Index.rows
  repeat apply forall_mem_cons_length_le rfl rfl
  exact List.forall_mem_nil _

theorem Gb18030Index.size_grid : Gb18030Index.grid.cells.size = 23940 := by
  rw [Gb18030Index.grid, CharGrid.size_fillVacant, CharGrid.size_ofRows length_of_mem_rows]
  decide +kernel

set_option maxRecDepth 4000 in
theorem Jis0208.length_of_mem_rows : ∀ row ∈ Jis0208.rows, row.toList.length ≤ 94 := by
  unfold Jis0208.rows
  repeat apply forall_mem_cons_length_le rfl rfl
  exact List.forall_mem_nil _

theorem Jis0208.size_grid : Jis0208.grid.cells.size = 11186 := by
  rw [Jis0208.grid, CharGrid.size_ofRows length_of_mem_rows]
  decide +kernel

/-! ## Zero octets -/

theorem Gb18030Runs.number?_lt {c : Char} {number : Nat}
    (h : Gb18030Runs.number? c = some number) : number < 1237576 := by
  obtain ⟨run, hfind, rfl⟩ := Option.map_eq_some_iff.mp h
  have hruns : ∀ run ∈ Gb18030Runs.runs, run.1 + run.2.2 ≤ 1237576 := by decide +kernel
  have hrun := hruns run (List.mem_of_find?_eq_some hfind)
  have hc := List.find?_some hfind
  simp only [Bool.and_eq_true, decide_eq_true_eq] at hc
  omega

theorem ofNat_ne_zero {n : Nat} (h₀ : 0 < n) (h : n < 256) : UInt8.ofNat n ≠ 0 := by
  intro he
  have htoNat := congrArg UInt8.toNat he
  rw [UInt8.toNat_ofNat', UInt8.toNat_zero, Nat.mod_eq_of_lt (by simpa using h)] at htoNat
  omega

theorem toNat_ne_zero {c : Char} (h : c ≠ '\x00') : 0 < c.toNat := by
  refine Nat.pos_of_ne_zero fun hc => h ?_
  rw [← Char.ofNat_toNat c, hc]

theorem zero_not_mem_cons {n : Nat} {octets : Bytes} (h₀ : 0 < n) (h : n < 256)
    (hrest : 0 ∉ octets) : 0 ∉ UInt8.ofNat n :: octets := by
  rw [List.mem_cons, not_or]
  exact ⟨(ofNat_ne_zero h₀ h).symm, hrest⟩

theorem Utf8.zero_not_mem {c : Char} (hc : c ≠ '\x00') : 0 ∉ Utf8.encodeChar c := by
  have hpos : 0 < c.val.toNat := toNat_ne_zero hc
  simp only [Utf8.encodeChar, String.utf8EncodeChar]
  split
  · exact zero_not_mem_cons hpos (by omega) List.not_mem_nil
  split
  · refine zero_not_mem_cons (by omega) (by omega) ?_
    exact zero_not_mem_cons (by omega) (by omega) List.not_mem_nil
  split
  · refine zero_not_mem_cons (by omega) (by omega) ?_
    refine zero_not_mem_cons (by omega) (by omega) ?_
    exact zero_not_mem_cons (by omega) (by omega) List.not_mem_nil
  · refine zero_not_mem_cons (by omega) (by omega) ?_
    refine zero_not_mem_cons (by omega) (by omega) ?_
    refine zero_not_mem_cons (by omega) (by omega) ?_
    exact zero_not_mem_cons (by omega) (by omega) List.not_mem_nil

theorem ShiftJis.zero_not_mem {c : Char} {octets : Bytes} (hc : c ≠ '\x00')
    (h : ShiftJis.encodeChar? c = some octets) : 0 ∉ octets := by
  have hpos := toNat_ne_zero hc
  unfold ShiftJis.encodeChar? at h
  split at h
  · obtain rfl := Option.some.inj h
    exact zero_not_mem_cons hpos (by omega) List.not_mem_nil
  split at h
  · obtain rfl := Option.some.inj h
    decide
  split at h
  · obtain rfl := Option.some.inj h
    decide
  split at h
  · obtain rfl := Option.some.inj h
    exact zero_not_mem_cons (by omega) (by omega) List.not_mem_nil
  · obtain ⟨pointer, hpointer, rfl⟩ := Option.map_eq_some_iff.mp h
    have hlt := CharGrid.pointer?_lt hpointer
    rw [Jis0208.size_grid] at hlt
    refine zero_not_mem_cons ?_ ?_ (zero_not_mem_cons ?_ ?_ List.not_mem_nil)
    all_goals split <;> omega

theorem Gb18030.zero_not_mem {c : Char} {octets : Bytes} (hc : c ≠ '\x00')
    (h : Gb18030.encodeChar? c = some octets) : 0 ∉ octets := by
  have hpos := toNat_ne_zero hc
  unfold Gb18030.encodeChar? at h
  split at h
  · obtain rfl := Option.some.inj h
    exact zero_not_mem_cons hpos (by omega) List.not_mem_nil
  simp only [Option.orElse_eq_orElse, Option.orElse_eq_or, Option.or_eq_some_iff,
    Option.map_eq_some_iff] at h
  rcases h with hold | ⟨-, ⟨pointer, hpointer, rfl⟩ | ⟨-, number, hnumber, rfl⟩⟩
  · have hmem : ∀ entry ∈ superseded, (0 : UInt8) ∉ entry.2 := by decide
    obtain ⟨_, _, hsplit, -⟩ := List.lookup_eq_some_iff.mp hold
    exact hmem (c.toNat, octets) (by simp [hsplit])
  · have hlt := CharGrid.pointer?_lt hpointer
    rw [Gb18030Index.size_grid] at hlt
    refine zero_not_mem_cons (by omega) (by omega) (zero_not_mem_cons ?_ ?_ List.not_mem_nil)
    all_goals split <;> omega
  · have hlt := Gb18030Runs.number?_lt hnumber
    refine zero_not_mem_cons (by omega) (by omega) ?_
    refine zero_not_mem_cons (by omega) (by omega) ?_
    refine zero_not_mem_cons (by omega) (by omega) ?_
    exact zero_not_mem_cons (by omega) (by omega) List.not_mem_nil

end Text

namespace Encoding

variable {encoding : Encoding} {text : String} {octets : Bytes}

theorem zero_not_mem_of_encodeChar? {c : Char} (hc : c ≠ '\x00')
    (h : encoding.encodeChar? c = some octets) : 0 ∉ octets := by
  cases encoding with
  | utf8 => exact Option.some.inj h ▸ Text.Utf8.zero_not_mem hc
  | shiftJis => exact Text.ShiftJis.zero_not_mem hc h
  | gbk | gb18030 => exact Text.Gb18030.zero_not_mem hc h

theorem encode_eq_ok_iff :
    encoding.encode text = .ok octets ↔
      ∃ groups, text.toList.mapM encoding.encodeChar? = some groups ∧ groups.flatten = octets := by
  unfold encode
  cases text.toList.mapM encoding.encodeChar? <;> simp

theorem exists_of_mem_mapM {chars : List Char} {groups : List Bytes}
    (h : chars.mapM encoding.encodeChar? = some groups) {group : Bytes} (hgroup : group ∈ groups) :
    ∃ c ∈ chars, encoding.encodeChar? c = some group := by
  induction chars generalizing groups with
  | nil =>
    rw [List.mapM_nil] at h
    obtain rfl := Option.some.inj h
    simp at hgroup
  | cons c chars ih =>
    simp only [List.mapM_cons, Option.bind_eq_bind, Option.bind_eq_some_iff, Option.pure_def,
      Option.some.injEq] at h
    obtain ⟨first, hfirst, others, hothers, rfl⟩ := h
    rcases List.mem_cons.mp hgroup with rfl | hgroup
    · exact ⟨c, List.mem_cons_self, hfirst⟩
    · obtain ⟨d, hd, hgroup⟩ := ih hothers hgroup
      exact ⟨d, List.mem_cons_of_mem _ hd, hgroup⟩

/-- A text without NUL is stored without zero octets. -/
theorem zero_not_mem_of_encode (hnul : '\x00' ∉ text.toList)
    (h : encoding.encode text = .ok octets) : 0 ∉ octets := by
  obtain ⟨groups, hgroups, rfl⟩ := encode_eq_ok_iff.mp h
  intro hmem
  obtain ⟨group, hgroup, hzero⟩ := List.mem_flatten.mp hmem
  obtain ⟨c, hc, hchar⟩ := exists_of_mem_mapM hgroups hgroup
  exact zero_not_mem_of_encodeChar? (fun he => hnul (he ▸ hc)) hchar hzero

/-! ## Survival -/

/-- The text has no NUL, the encoding has its characters, and decoding undoes encoding. -/
def Survives (encoding : Encoding) (text : String) : Prop :=
  '\x00' ∉ text.toList ∧ ∃ octets, encoding.encode text = .ok octets
    ∧ encoding.decode octets = text

/-- Reading ends at the first zero octet. -/
theorem decodeTerminated_append (hzero : 0 ∉ octets) (rest : Bytes) :
    encoding.decodeTerminated (octets ++ 0 :: rest) = encoding.decode octets := by
  have htake : ∀ octet ∈ octets, decide (octet ≠ 0) = true := by
    intro octet hmem
    simpa using fun he : octet = 0 => hzero (he ▸ hmem)
  rw [decodeTerminated, List.takeWhile_append_of_pos htake]
  simp

/-- A text that survives is read up to the octet that ends it, whatever comes behind. -/
theorem Survives.decodeTerminated {stored : Bytes} (h : encoding.Survives text)
    (hstored : encoding.encodeTerminated text = .ok stored) (rest : Bytes) :
    encoding.decodeTerminated (stored ++ rest) = text := by
  obtain ⟨hnul, octets, hencode, hdecode⟩ := h
  rw [encodeTerminated, hencode] at hstored
  obtain rfl := Except.ok.inj hstored
  have hzero := zero_not_mem_of_encode hnul hencode
  rw [List.append_assoc, List.singleton_append, decodeTerminated_append hzero, hdecode]

/-- Stored with its terminator, a text ends in a zero octet. -/
theorem zero_mem_of_encodeTerminated (h : encoding.encodeTerminated text = .ok octets) :
    0 ∈ octets := by
  unfold encodeTerminated at h
  cases hencode : encoding.encode text with
  | error e => simp [hencode, Except.map] at h
  | ok stored =>
    rw [hencode] at h
    obtain rfl := Except.ok.inj h
    simp

/-- What comes back of a text that is stored with its terminator. -/
def readBack (encoding : Encoding) (text : String) : String :=
  match encoding.encodeTerminated text with
  | .ok stored => encoding.decodeTerminated stored
  | .error _ => text

/-- A stored text is read up to its first zero octet, whatever comes behind. -/
theorem decodeTerminated_stored {stored : Bytes}
    (hstored : encoding.encodeTerminated text = .ok stored) (rest : Bytes) :
    encoding.decodeTerminated (stored ++ rest) = encoding.readBack text := by
  have hends : (stored.takeWhile (· ≠ 0)).length ≠ stored.length := by
    intro hlength
    have hall : (stored.takeWhile (· ≠ 0)).all (· ≠ 0) = true := List.all_takeWhile
    rw [(List.takeWhile_prefix _).eq_of_length hlength] at hall
    simpa using List.all_eq_true.mp hall 0 (zero_mem_of_encodeTerminated hstored)
  rw [readBack, hstored, decodeTerminated, List.takeWhile_append, if_neg hends]
  rfl

/-- A text that survives comes back. -/
theorem Survives.readBack (h : encoding.Survives text) : encoding.readBack text = text := by
  cases hstored : encoding.encodeTerminated text with
  | error e => rw [Encoding.readBack, hstored]
  | ok stored => rw [← decodeTerminated_stored hstored [], h.decodeTerminated hstored]

/-- Whether a text has characters of ASCII alone, NUL apart. -/
def isAscii (text : String) : Bool := text.toList.all fun c => 0 < c.toNat && c.toNat < 0x80

/-- The octet of an ASCII character. -/
def asciiOctet (c : Char) : UInt8 := UInt8.ofNat c.toNat

theorem asciiOctet_lt {c : Char} (h : c.toNat < 0x80) : asciiOctet c < 0x80 := by
  rw [UInt8.lt_iff_toNat_lt, asciiOctet, UInt8.toNat_ofNat', Nat.mod_eq_of_lt (by omega)]
  exact h

/-- An ASCII character is stored as itself. -/
theorem encodeChar?_ascii {c : Char} (h : c.toNat < 0x80) :
    encoding.encodeChar? c = some [asciiOctet c] := by
  have hval : c.val.toNat ≤ 0x7F := Nat.le_of_lt_succ h
  cases encoding with
  | utf8 =>
    rw [encodeChar?, Text.Utf8.encodeChar, String.utf8EncodeChar]
    simp only [hval, if_true]
    rfl
  | shiftJis => rw [encodeChar?, Text.ShiftJis.encodeChar?, if_pos (Nat.le_of_lt h)]; rfl
  | gbk | gb18030 => rw [encodeChar?, Text.Gb18030.encodeChar?, if_pos h]; rfl

/-- An ASCII character is read back from its octet. -/
theorem reads_ascii {c : Char} (h : c.toNat < 0x80) :
    encoding.scan.Reads [asciiOctet c] c := by
  have hlt := asciiOctet_lt h
  have hback : Char.ofNat (asciiOctet c).toNat = c := by
    rw [asciiOctet, UInt8.toNat_ofNat', Nat.mod_eq_of_lt (by omega), Char.ofNat_toNat]
  refine ⟨asciiOctet c, [], rfl, fun rest => ?_⟩
  cases encoding with
  | utf8 => simp [scan, Text.Utf8.scan, hlt, hback]
  | shiftJis => simp [scan, Text.ShiftJis.scan, UInt8.le_of_lt hlt, hback]
  | gbk | gb18030 => simp [scan, Text.Gb18030.scan, hlt, hback]

theorem mapM_ascii {chars : List Char} (h : ∀ c ∈ chars, c.toNat < 0x80) :
    chars.mapM encoding.encodeChar? = some (chars.map fun c => [asciiOctet c]) := by
  induction chars with
  | nil => simp
  | cons c chars ih =>
    rw [List.mapM_cons, encodeChar?_ascii (h c List.mem_cons_self),
      ih fun d hd => h d (List.mem_cons_of_mem _ hd)]
    rfl

/-- A text of ASCII characters survives every encoding. -/
theorem survives_of_isAscii (h : isAscii text = true) : encoding.Survives text := by
  have hchars : ∀ c ∈ text.toList, 0 < c.toNat ∧ c.toNat < 0x80 := by
    simpa [isAscii] using h
  have hsmall : ∀ c ∈ text.toList, c.toNat < 0x80 := fun c hc => (hchars c hc).2
  refine ⟨fun hnul => by simpa using (hchars _ hnul).1,
    text.toList.flatMap fun c => [asciiOctet c], ?_, ?_⟩
  · rw [encode_eq_ok_iff]
    exact ⟨_, mapM_ascii hsmall, by rw [List.flatMap_def]⟩
  · have hmark : marked? (text.toList.flatMap fun c => [asciiOctet c]) = none := by
      cases hlist : text.toList with
      | nil => rfl
      | cons c chars =>
        have hlt := asciiOctet_lt (hsmall c (hlist ▸ List.mem_cons_self))
        rw [List.flatMap_cons, List.singleton_append]
        unfold marked?
        split <;> simp_all
    have hdecode : encoding.scan.decode (text.toList.flatMap fun c => [asciiOctet c])
        = text.toList :=
      Text.Scanner.decode_flatMap fun c hc => reads_ascii (hsmall c hc)
    cases encoding <;> simp [decode, hmark, hdecode]

end Encoding
end NovelScript
