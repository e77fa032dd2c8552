import NovelScript.Proofs.Text.ReadingBack

/-!
# Which texts survive

An encoding is `Faithful` to a text if it reads every character as itself and the stored form does
not open with a byte order mark that would be heeded.  These are exactly the texts that decoding
gives back (`decode_eq_iff`), and those of them without NUL are exactly the texts that survive with
a terminator (`decodeTerminated_eq_iff`).

That no text with a mark comes back is a matter of length: behind the mark, a text that GB18030
stores in pairs would have to be read from UTF-8 groups that overtake them
(`Gb18030.not_isPrefix_decode`).
-/

namespace NovelScript

namespace Text

theorem toNat_ofNat_le (n : Nat) : (Char.ofNat n).toNat ≤ n := by
  by_cases h : n.isValidChar
  · rw [Char.ofNat, dif_pos h]
    exact Nat.le_of_eq UInt32.toNat_ofNatLT
  · rw [Char.ofNat, dif_neg h]
    exact Nat.zero_le n

/-! ## What UTF-8 takes for a character -/

namespace Utf8

theorem high_of_isTail {octet : UInt8} (h : isTail octet = true) : 0x80 ≤ octet := by
  simp only [isTail, Bool.and_eq_true, decide_eq_true_eq] at h
  exact h.1

theorem high_of_isSecond {lead octet : UInt8} (h : isSecond lead octet = true) :
    0x80 ≤ octet := by
  simp only [isSecond, Bool.and_eq_true, decide_eq_true_eq] at h
  refine UInt8.le_trans ?_ h.1
  unfold secondRange
  split
  · decide
  split
  · decide
  split
  · decide
  split
  · decide
  · decide

/-- What is read as a character outside ASCII has no octet of ASCII, and is more than one octet
unless it is no text. -/
theorem scan_high {lead : UInt8} {rest : Bytes} (h : 0x80 ≤ (scan lead rest).1.toNat) :
    0x80 ≤ lead ∧ (∀ octet ∈ rest.take (scan lead rest).2, 0x80 ≤ octet)
      ∧ ((scan lead rest).1 ≠ replacement → rest.take (scan lead rest).2 ≠ []) := by
  have hlead : ¬ lead < 0x80 := by
    intro hlt
    simp only [scan, hlt, if_true] at h
    exact absurd (Nat.le_trans h (toNat_ofNat_le _))
      (Nat.not_le.mpr (UInt8.lt_iff_toNat_lt.mp hlt))
  refine ⟨UInt8.not_lt.mp hlead, ?_⟩
  simp only [scan, if_neg hlead]
  split
  · split
    · split
      · next htail =>
        simp [high_of_isTail htail]
      · simp
    · simp
  split
  · split
    · split
      · next hsecond =>
        split
        · split
          · next hthird => simp [high_of_isSecond hsecond, high_of_isTail hthird]
          · simp [high_of_isSecond hsecond]
        · simp [high_of_isSecond hsecond]
      · simp
    · simp
  split
  · split
    · split
      · next hsecond =>
        split
        · split
          · next hthird =>
            split
            · split
              · next hfourth =>
                simp [high_of_isSecond hsecond, high_of_isTail hthird, high_of_isTail hfourth]
              · simp [high_of_isSecond hsecond, high_of_isTail hthird]
            · simp [high_of_isSecond hsecond, high_of_isTail hthird]
          · simp [high_of_isSecond hsecond]
        · simp [high_of_isSecond hsecond]
      · simp
    · simp
  · simp

end Utf8

/-! ## Texts behind a mark -/

namespace CharGrid

variable {grid : CharGrid} {rule : Nat → Option Char} {width p : Nat} {rows : List String}
  {c : Char}

/-- A cell was filled before or is filled by the rule. -/
theorem char?_fillVacant (h : (grid.fillVacant rule).char? p = some c) :
    grid.cells[p]? = some c ∨ rule p = some c := by
  rw [char?, fillVacant, Array.getElem?_mapIdx, Option.filter_eq_some_iff,
    Option.map_eq_some_iff] at h
  obtain ⟨⟨old, hold, hfilled⟩, hne⟩ := h
  split at hfilled
  · cases hrule : rule p with
    | none =>
      rw [hrule] at hfilled
      simp [← hfilled] at hne
    | some d =>
      rw [hrule] at hfilled
      exact .inr (congrArg some hfilled)
  · exact .inl (hfilled ▸ hold)

/-- What stands in a cell is a character of a row or fills one up. -/
theorem exists_row_of_getElem? (h : (ofRows width rows).cells[p]? = some c) :
    ∃ row ∈ rows, c ∈ row.toList ∨ c = vacant := by
  rw [ofRows, List.getElem?_toArray] at h
  obtain ⟨row, hrow, hmem⟩ := List.mem_flatMap.mp (List.mem_of_getElem? h)
  refine ⟨row, hrow, ?_⟩
  rcases List.mem_append.mp hmem with hmem | hmem
  · exact .inl hmem
  · exact .inr (List.eq_of_mem_replicate hmem)

end CharGrid

namespace Gb18030Index

/-- The user-defined areas hold characters of the private use area. -/
theorem userDefined_ne_replacement (p : Nat) : userDefined p ≠ some replacement := by
  have hne (n : Nat) (h : n < 0xFFFD) : some (Char.ofNat n) ≠ some replacement := by
    intro he
    have hle := toNat_ofNat_le n
    rw [Option.some.inj he] at hle
    exact absurd hle (Nat.not_le.mpr h)
  unfold userDefined
  dsimp only
  split
  · exact hne _ (by omega)
  split
  · exact hne _ (by omega)
  split
  · exact hne _ (by omega)
  · exact fun he => by cases he

/-- No cell holds the replacement character. -/
theorem char?_ne_replacement (p : Nat) : grid.char? p ≠ some replacement := by
  intro h
  rcases CharGrid.char?_fillVacant h with hcell | hrule
  · obtain ⟨row, hrow, hmem⟩ := CharGrid.exists_row_of_getElem? hcell
    obtain ⟨cells, hrows, hall, -⟩ := Gb18030.exists_cells
    rw [hrows] at hrow
    obtain ⟨chars, hchars, rfl⟩ := List.mem_map.mp hrow
    rw [String.toList_ofList] at hmem
    rcases hmem with hmem | hvacant
    · have hne := List.all_eq_true.mp (List.all_eq_true.mp hall chars hchars) _ hmem
      simp at hne
    · exact absurd hvacant (by decide)
  · exact userDefined_ne_replacement p hrule

end Gb18030Index

namespace Gb18030

/-- A character is one octet of ASCII, or a pair, or a group of four whose second octet is one of
ASCII. -/
theorem shape_of_encodeChar? {c : Char} {octets : Bytes} (h : encodeChar? c = some octets) :
    (∃ octet < 0x80, octets = [octet])
      ∨ 0x80 ≤ c.toNat ∧ ((c ≠ replacement ∧ ∃ lead trail, octets = [lead, trail])
        ∨ ∃ first second third fourth, octets = [first, second, third, fourth]
          ∧ second < 0x80) := by
  by_cases hascii : c.toNat < 0x80
  · rw [encodeChar?, if_pos hascii] at h
    refine .inl ⟨_, ?_, (Option.some.inj h).symm⟩
    rw [UInt8.lt_iff_toNat_lt, toNat_ofNat8 (by omega)]
    exact hascii
  · refine .inr ⟨Nat.not_lt.mp hascii, ?_⟩
    rcases encodeChar?_cases h hascii with ⟨lead, trail, rfl, -, -, hcell⟩ | ⟨n, -, rfl, -⟩
    · refine .inl ⟨?_, lead, trail, rfl⟩
      rintro rfl
      have hself : readAs replacement = replacement := by decide
      exact Gb18030Index.char?_ne_replacement _ (hself ▸ hcell)
    · refine .inr ⟨_, _, _, _, rfl, ?_⟩
      rw [UInt8.lt_iff_toNat_lt, toNat_ofNat8 (by omega)]
      change _ < 0x80
      omega

/-- Read as UTF-8 behind octets outside ASCII, a text cannot keep up with itself: what is read as
its first character is all that is left of the pair of this character and octets of the next one,
so the rest of the text is again read behind octets outside ASCII. -/
theorem not_isPrefix_decode {chars : List Char} {groups : List Bytes} {front rest : Bytes}
    (hgroups : chars.mapM encodeChar? = some groups) (hfront : front ≠ [])
    (hhigh : ∀ octet ∈ front, 0x80 ≤ octet) (hsplit : groups.flatten = front ++ rest) :
    ¬ chars <+: Utf8.scan.decode rest := by
  -- induction on the text; `front` is what has been read ahead of it
  induction chars generalizing groups front rest with
  | nil =>
    rw [List.mapM_nil] at hgroups
    obtain rfl := Option.some.inj hgroups
    exact absurd (List.append_eq_nil_iff.mp hsplit.symm).1 hfront
  | cons c chars ih =>
    simp only [List.mapM_cons, Option.bind_eq_bind, Option.bind_eq_some_iff, Option.pure_def,
      Option.some.injEq] at hgroups
    obtain ⟨group, hgroup, others, hothers, rfl⟩ := hgroups
    rw [List.flatten_cons] at hsplit
    obtain ⟨first, more, rfl⟩ := List.exists_cons_of_ne_nil hfront
    obtain ⟨hfirst, hmore⟩ := List.forall_mem_cons.mp hhigh
    intro hprefix
    cases rest with
    | nil => simp at hprefix
    | cons lead tail =>
      rw [Scanner.decode_cons, List.cons_prefix_cons] at hprefix
      obtain ⟨hc, hprefix⟩ := hprefix
      rcases shape_of_encodeChar? hgroup with ⟨octet, hascii, rfl⟩ | ⟨hwide, hgroup⟩
      · obtain ⟨rfl, -⟩ := List.cons_eq_cons.mp hsplit
        exact absurd hascii (UInt8.not_lt.mpr hfirst)
      obtain ⟨hlead, hread, hlong⟩ := Utf8.scan_high (hc ▸ hwide)
      have htail := (List.take_append_drop (Utf8.scan lead tail).2 tail).symm
      rcases hgroup with ⟨hne, _, trail, rfl⟩ | ⟨_, second, _, _, rfl, hdigit⟩
      · cases more with
        | nil =>
          simp only [List.cons_append, List.nil_append, List.cons.injEq] at hsplit
          exact ih hothers (hlong (hc ▸ hne)) hread (hsplit.2.2.trans htail) hprefix
        | cons next more =>
          simp only [List.cons_append, List.nil_append, List.cons.injEq] at hsplit
          have hahead : more ++ lead :: tail.take (Utf8.scan lead tail).2 ≠ [] := by simp
          refine ih hothers hahead ?_ ?_ hprefix
          · exact List.forall_mem_append.mpr ⟨(List.forall_mem_cons.mp hmore).2,
              List.forall_mem_cons.mpr ⟨hlead, hread⟩⟩
          · rw [List.append_assoc, List.cons_append, ← htail]
            exact hsplit.2.2
      · -- the digit is neither read ahead nor the lead of a character outside ASCII
        cases more with
        | nil =>
          simp only [List.cons_append, List.nil_append, List.cons.injEq] at hsplit
          exact absurd hdigit (UInt8.not_lt.mpr (hsplit.2.1 ▸ hlead))
        | cons next more =>
          simp only [List.cons_append, List.cons.injEq] at hsplit
          exact absurd hdigit (UInt8.not_lt.mpr (hsplit.2.1 ▸ hmore _ List.mem_cons_self))

/-- No character opens with a mark of UTF-16. -/
theorem ne_of_encodeChar? {c : Char} {octets behind rest : Bytes}
    (h : encodeChar? c = some octets) :
    octets ++ behind ≠ 0xFF :: rest ∧ octets ++ behind ≠ 0xFE :: 0xFF :: rest := by
  have hne {m : Nat} {octet : UInt8} (hm : m < octet.toNat) (hoctet : octet.toNat ≤ 255) :
      UInt8.ofNat m ≠ octet := by
    rintro rfl
    rw [toNat_ofNat8 (by omega)] at hm
    exact Nat.lt_irrefl _ hm
  by_cases hascii : c.toNat < 0x80
  · rw [encodeChar?, if_pos hascii] at h
    obtain rfl := Option.some.inj h
    simp only [List.cons_append, ne_eq, List.cons.injEq, not_and]
    exact ⟨fun he => absurd he (hne (Nat.lt_trans hascii (by decide)) (by decide)),
      fun he => absurd he (hne (Nat.lt_trans hascii (by decide)) (by decide))⟩
  rcases encodeChar?_cases h hascii with ⟨lead, trail, rfl, hlead, htrail, -⟩ | ⟨n, hn, rfl, -⟩
  · simp only [List.cons_append, ne_eq, List.cons.injEq, not_and]
    constructor
    · rintro rfl
      exact absurd hlead.2 (by decide)
    · rintro - rfl
      exact absurd htrail (by decide)
  · simp only [group, List.cons_append, ne_eq, List.cons.injEq, not_and]
    exact ⟨fun he => absurd he (hne (show n / 12600 + 0x81 < 0xFF by omega) (by decide)),
      fun he => absurd he (hne (show n / 12600 + 0x81 < 0xFE by omega) (by decide))⟩

end Gb18030
end Text

namespace Encoding

variable {encoding : Encoding} {text : String} {chars : List Char} {groups : List Bytes}
  {octets : Bytes}

/-! ## Texts as they are read -/

/-- The character as which an encoding reads the octets that it stores a character in. -/
def readAs : Encoding → Char → Char
  | utf8, c => c
  | shiftJis, c => Text.ShiftJis.readAs c
  | gbk, c | gb18030, c => Text.Gb18030.readAs c

theorem reads_encodeChar? {c : Char} (h : encoding.encodeChar? c = some octets) :
    encoding.scan.Reads octets (encoding.readAs c) := by
  cases encoding with
  | utf8 => exact Option.some.inj h ▸ Text.Utf8.reads_encodeChar c
  | shiftJis => exact Text.ShiftJis.reads_encodeChar? h
  | gbk | gb18030 => exact Text.Gb18030.reads_encodeChar? h

/-- Where no mark interferes, characters are read one by one. -/
theorem decode_flatten (h : chars.mapM encoding.encodeChar? = some groups) :
    encoding.scan.decode groups.flatten = chars.map encoding.readAs := by
  induction chars generalizing groups with
  | nil =>
    rw [List.mapM_nil] at h
    obtain rfl := Option.some.inj h
    simp
  | cons c chars ih =>
    simp only [List.mapM_cons, Option.bind_eq_bind, Option.bind_eq_some_iff, Option.pure_def,
      Option.some.injEq] at h
    obtain ⟨group, hgroup, others, hothers, rfl⟩ := h
    rw [List.flatten_cons, Text.Scanner.decode_append (reads_encodeChar? hgroup), ih hothers,
      List.map_cons]

/-- The three marks. -/
theorem marked?_cases {input rest : Bytes} {scanner : Text.Scanner}
    (h : marked? input = some (scanner, rest)) :
    (input = 0xEF :: 0xBB :: 0xBF :: rest ∧ scanner = Text.Utf8.scan)
      ∨ input = 0xFF :: 0xFE :: rest ∨ input = 0xFE :: 0xFF :: rest := by
  unfold marked? at h
  split at h
  · obtain ⟨rfl, rfl⟩ := Prod.mk.inj (Option.some.inj h)
    exact .inl ⟨rfl, rfl⟩
  · obtain ⟨-, rfl⟩ := Prod.mk.inj (Option.some.inj h)
    exact .inr (.inl rfl)
  · obtain ⟨-, rfl⟩ := Prod.mk.inj (Option.some.inj h)
    exact .inr (.inr rfl)
  · cases h

/-- What is read behind a mark does not begin with the text whose stored form opens with it. -/
theorem not_isPrefix_of_marked (h : chars.mapM encoding.encodeChar? = some groups)
    (hencoding : encoding ≠ utf8) {scanner : Text.Scanner} {rest : Bytes}
    (hmark : marked? groups.flatten = some (scanner, rest)) :
    ¬ chars <+: scanner.decode rest := by
  cases chars with
  | nil =>
    rw [List.mapM_nil] at h
    obtain rfl := Option.some.inj h
    cases hmark
  | cons c chars =>
    have hgroups := h
    simp only [List.mapM_cons, Option.bind_eq_bind, Option.bind_eq_some_iff, Option.pure_def,
      Option.some.injEq] at h
    obtain ⟨group, hgroup, others, hothers, rfl⟩ := h
    rw [List.flatten_cons] at hmark
    cases encoding with
    | utf8 => exact absurd rfl hencoding
    | shiftJis =>
      -- Shift-JIS has no character that opens with an octet of a mark
      obtain ⟨first, more, rfl, -⟩ := Text.ShiftJis.reads_encodeChar? hgroup
      have hhead := Text.ShiftJis.head_of_encodeChar? hgroup
      rcases marked?_cases hmark with ⟨hoctets, -⟩ | hoctets | hoctets
      all_goals
        obtain ⟨rfl, -⟩ := List.cons_eq_cons.mp hoctets
        exact absurd hhead (by decide)
    | gbk | gb18030 =>
      rcases marked?_cases hmark with ⟨hoctets, rfl⟩ | hoctets | hoctets
      · have hmark : [0xEF, 0xBB, 0xBF] ≠ ([] : Bytes) := by simp
        exact Text.Gb18030.not_isPrefix_decode hgroups hmark (by simp) hoctets
      · exact absurd hoctets (Text.Gb18030.ne_of_encodeChar? hgroup).1
      · exact absurd hoctets (Text.Gb18030.ne_of_encodeChar? hgroup).2

/-- The encoding reads every character of the text as itself, and the stored form does not open
with a byte order mark that is heeded. -/
def Faithful (encoding : Encoding) (text : String) : Prop :=
  (∀ c ∈ text.toList, encoding.readAs c = c)
    ∧ (encoding = utf8 ∨ ∀ octets, encoding.encode text = .ok octets → marked? octets = none)

theorem decode_of_unmarked (h : encoding = utf8 ∨ marked? octets = none) :
    encoding.decode octets = .ofList (encoding.scan.decode octets) := by
  cases encoding with
  | utf8 => rfl
  | shiftJis | gbk | gb18030 =>
    have hnone := h.resolve_left (by decide)
    simp only [decode, hnone]

theorem decode_of_marked (h : encoding ≠ utf8) {scanner : Text.Scanner} {rest : Bytes}
    (hmark : marked? octets = some (scanner, rest)) :
    encoding.decode octets = .ofList (scanner.decode rest) := by
  cases encoding with
  | utf8 => exact absurd rfl h
  | shiftJis | gbk | gb18030 => simp only [decode, hmark]

/-- The stored form of a text comes back as a text that begins with it only if its characters are
read one by one, which gives as many. -/
theorem toList_decode (h : chars.mapM encoding.encodeChar? = some groups)
    (hopens : chars <+: (encoding.decode groups.flatten).toList) :
    (encoding = utf8 ∨ marked? groups.flatten = none)
      ∧ (encoding.decode groups.flatten).toList = chars.map encoding.readAs := by
  have hunmarked : encoding = utf8 ∨ marked? groups.flatten = none := by
    refine Classical.or_iff_not_imp_left.mpr fun hencoding => ?_
    refine Option.eq_none_iff_forall_not_mem.mpr fun ⟨scanner, rest⟩ hmark => ?_
    rw [decode_of_marked hencoding hmark, String.toList_ofList] at hopens
    exact not_isPrefix_of_marked h hencoding hmark hopens
  refine ⟨hunmarked, ?_⟩
  rw [decode_of_unmarked hunmarked, String.toList_ofList, decode_flatten h]

theorem map_readAs_eq_iff :
    chars.map encoding.readAs = chars ↔ ∀ c ∈ chars, encoding.readAs c = c := by
  have hinj := List.map_inj_left (l := chars) (f := encoding.readAs) (g := id)
  rwa [List.map_id] at hinj

/-- Decoding gives back the texts to which the encoding is faithful, and no others. -/
theorem decode_eq_iff (h : encoding.encode text = .ok octets) :
    encoding.decode octets = text ↔ encoding.Faithful text := by
  obtain ⟨groups, hgroups, rfl⟩ := encode_eq_ok_iff.mp h
  constructor
  · intro hdecode
    obtain ⟨hunmarked, hchars⟩ := toList_decode hgroups (hdecode ▸ List.prefix_refl _)
    rw [hdecode] at hchars
    refine ⟨map_readAs_eq_iff.mp hchars.symm, hunmarked.imp_right fun hnone octets hoctets => ?_⟩
    rwa [← Except.ok.inj (h.symm.trans hoctets)]
  · rintro ⟨hchars, hmark⟩
    rw [decode_of_unmarked (hmark.imp_right fun hnone => hnone _ h), decode_flatten hgroups,
      map_readAs_eq_iff.mpr hchars, String.ofList_toList]

/-- The texts that survive are those that are accepted, have no NUL and come back. -/
theorem survives_iff (h : encoding.encode text = .ok octets) :
    encoding.Survives text ↔ encoding.Faithful text ∧ '\x00' ∉ text.toList := by
  rw [← decode_eq_iff h]
  constructor
  · rintro ⟨hnul, octets', hencode, hdecode⟩
    obtain rfl := Except.ok.inj (h.symm.trans hencode)
    exact ⟨hdecode, hnul⟩
  · rintro ⟨hdecode, hnul⟩
    exact ⟨hnul, octets, h, hdecode⟩

/-- Read up to a zero octet, a text with a NUL of its own comes back without what is behind it. -/
theorem nul_not_mem_of_decodeTerminated {rest : Bytes} (h : encoding.encode text = .ok octets)
    (hdecode : encoding.decodeTerminated (octets ++ rest) = text) : '\x00' ∉ text.toList := by
  intro hmem
  obtain ⟨before, after, htext, hbefore⟩ := List.eq_append_cons_of_mem hmem
  obtain ⟨groups, hgroups, rfl⟩ := encode_eq_ok_iff.mp h
  simp only [htext, List.mapM_append, List.mapM_cons, Option.bind_eq_bind,
    Option.bind_eq_some_iff, Option.pure_def, Option.some.injEq] at hgroups
  obtain ⟨front, hfront, _, ⟨nul, hnul, back, -, rfl⟩, rfl⟩ := hgroups
  obtain rfl : nul = [0] := Option.some.inj (hnul.symm.trans (encodeChar?_ascii (by decide)))
  have hencoded : encoding.encode (.ofList before) = .ok front.flatten :=
    encode_eq_ok_iff.mpr ⟨front, by rwa [String.toList_ofList], rfl⟩
  have hzero : 0 ∉ front.flatten :=
    zero_not_mem_of_encode (by rwa [String.toList_ofList]) hencoded
  rw [List.flatten_append, List.flatten_cons, List.append_assoc, List.append_assoc,
    List.singleton_append, decodeTerminated_append hzero] at hdecode
  have hopens : before <+: (encoding.decode front.flatten).toList := by
    rw [hdecode, htext]
    exact List.prefix_append _ _
  have hlength := congrArg List.length (toList_decode hfront hopens).2
  rw [hdecode, htext] at hlength
  simp at hlength

/-- A text that is stored with a terminator is read back exactly if it survives. -/
theorem decodeTerminated_eq_iff {stored : Bytes} (h : encoding.encodeTerminated text = .ok stored)
    (rest : Bytes) :
    encoding.decodeTerminated (stored ++ rest) = text ↔ encoding.Survives text := by
  refine ⟨fun hdecode => ?_, fun hsurvives => hsurvives.decodeTerminated h rest⟩
  cases hencode : encoding.encode text with
  | error e => simp [encodeTerminated, hencode, Except.map] at h
  | ok octets =>
    rw [encodeTerminated, hencode] at h
    obtain rfl := Except.ok.inj h
    rw [List.append_assoc, List.singleton_append] at hdecode
    have hnul := nul_not_mem_of_decodeTerminated hencode hdecode
    rw [decodeTerminated_append (zero_not_mem_of_encode hnul hencode)] at hdecode
    exact ⟨hnul, octets, hencode, hdecode⟩

end Encoding
end NovelScript
