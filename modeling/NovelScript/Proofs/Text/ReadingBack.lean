import Mathlib.Data.List.Chain
import NovelScript.Proofs.Text.Survival

/-!
# Which texts are read back

Every character that an encoding has is read back from its octets, whatever follows them, apart
from a few that share their octets with another one: `Encoding.readAs` says as which.
-/

namespace NovelScript

namespace Text

theorem toNat_ofNat8 {n : Nat} (h : n < 256) : (UInt8.ofNat n).toNat = n := by
  rw [UInt8.toNat_ofNat', Nat.mod_eq_of_lt (by simpa using h)]

/-! ## UTF-8 -/

namespace Utf8

variable {lead second third fourth : UInt8} {n : Nat}

theorem isTail_ofNat (h : n < 64) : isTail (UInt8.ofNat (n + 128)) = true := by
  simp only [isTail, UInt8.le_iff_toNat_le, toNat_ofNat8 (show n + 128 < 256 by omega),
    Bool.and_eq_true, decide_eq_true_eq]
  exact ⟨Nat.le_add_left _ _, Nat.lt_succ_iff.mp (Nat.add_lt_add_right h _)⟩

theorem tailBits_ofNat (h : n < 64) : tailBits (UInt8.ofNat (n + 128)) = n := by
  rw [tailBits, toNat_ofNat8 (by omega)]
  omega

theorem scan_two (hlow : 0xC2 ≤ lead.toNat) (hhigh : lead.toNat ≤ 0xDF) (hsecond : isTail second)
    (rest : Bytes) :
    scan lead (second :: rest)
      = (Char.ofNat (lead.toNat % 32 * 64 + tailBits second), 1) := by
  have hlead : ¬ lead < 0x80 := by
    rw [UInt8.lt_iff_toNat_lt]
    exact Nat.not_lt.mpr (Nat.le_trans (by decide) hlow)
  have hrange : (0xC2 ≤ lead && lead ≤ 0xDF) = true := by
    simp only [UInt8.le_iff_toNat_le, Bool.and_eq_true, decide_eq_true_eq]
    exact ⟨hlow, hhigh⟩
  simp only [scan, hlead, if_false, hrange, if_true, hsecond]

theorem scan_three (hlow : 0xE0 ≤ lead.toNat) (hhigh : lead.toNat ≤ 0xEF)
    (hsecond : isSecond lead second) (hthird : isTail third) (rest : Bytes) :
    scan lead (second :: third :: rest)
      = (Char.ofNat (lead.toNat % 16 * 4096 + tailBits second * 64 + tailBits third), 2) := by
  have hlead : ¬ lead < 0x80 := by
    rw [UInt8.lt_iff_toNat_lt]
    exact Nat.not_lt.mpr (Nat.le_trans (by decide) hlow)
  have hnot : ¬ (0xC2 ≤ lead && lead ≤ 0xDF) = true := by
    simp only [UInt8.le_iff_toNat_le, Bool.and_eq_true, decide_eq_true_eq]
    exact fun h => absurd (Nat.le_trans hlow h.2) (by decide)
  have hrange : (0xE0 ≤ lead && lead ≤ 0xEF) = true := by
    simp only [UInt8.le_iff_toNat_le, Bool.and_eq_true, decide_eq_true_eq]
    exact ⟨hlow, hhigh⟩
  simp only [scan, hlead, if_false, hnot, hrange, if_true, hsecond, hthird, Bool.false_eq_true]

theorem scan_four (hlow : 0xF0 ≤ lead.toNat) (hhigh : lead.toNat ≤ 0xF4)
    (hsecond : isSecond lead second) (hthird : isTail third) (hfourth : isTail fourth)
    (rest : Bytes) :
    scan lead (second :: third :: fourth :: rest)
      = (Char.ofNat (lead.toNat % 8 * 262144 + tailBits second * 4096 + tailBits third * 64
          + tailBits fourth), 3) := by
  have hlead : ¬ lead < 0x80 := by
    rw [UInt8.lt_iff_toNat_lt]
    exact Nat.not_lt.mpr (Nat.le_trans (by decide) hlow)
  have hnot : ¬ (0xC2 ≤ lead && lead ≤ 0xDF) = true := by
    simp only [UInt8.le_iff_toNat_le, Bool.and_eq_true, decide_eq_true_eq]
    exact fun h => absurd (Nat.le_trans hlow h.2) (by decide)
  have hnot' : ¬ (0xE0 ≤ lead && lead ≤ 0xEF) = true := by
    simp only [UInt8.le_iff_toNat_le, Bool.and_eq_true, decide_eq_true_eq]
    exact fun h => absurd (Nat.le_trans hlow h.2) (by decide)
  have hrange : (0xF0 ≤ lead && lead ≤ 0xF4) = true := by
    simp only [UInt8.le_iff_toNat_le, Bool.and_eq_true, decide_eq_true_eq]
    exact ⟨hlow, hhigh⟩
  simp only [scan, hlead, if_false, hnot, hnot', hrange, if_true, hsecond, hthird, hfourth,
    Bool.false_eq_true]

/-- Behind a lead octet stand the octets that make no overlong form, no surrogate and nothing beyond
the last code point. -/
theorem isSecond_ofNat {m : Nat} (hm : m < 256) (hn : n < 64) (hlong : m = 0xE0 → 32 ≤ n)
    (hsurrogate : m = 0xED → n < 32) (hlong' : m = 0xF0 → 16 ≤ n) (hlast : m = 0xF4 → n < 16) :
    isSecond (UInt8.ofNat m) (UInt8.ofNat (n + 128)) = true := by
  have hlead (k : UInt8) : UInt8.ofNat m = k ↔ m = k.toNat := by
    rw [← UInt8.toNat_inj, toNat_ofNat8 hm]
  simp only [isSecond, secondRange, hlead, UInt8.le_iff_toNat_le, Bool.and_eq_true,
    decide_eq_true_eq, toNat_ofNat8 (show n + 128 < 256 by omega)]
  change _ ≤ _ ∧ _ ≤ _
  have h₁ : (0xE0 : UInt8).toNat = 0xE0 := rfl
  have h₂ : (0xED : UInt8).toNat = 0xED := rfl
  have h₃ : (0xF0 : UInt8).toNat = 0xF0 := rfl
  have h₄ : (0xF4 : UInt8).toNat = 0xF4 := rfl
  rw [h₁, h₂, h₃, h₄]
  split
  · exact ⟨show 0xA0 ≤ _ by omega, show _ ≤ 0xBF by omega⟩
  split
  · exact ⟨show 0x80 ≤ _ by omega, show _ ≤ 0x9F by omega⟩
  split
  · exact ⟨show 0x90 ≤ _ by omega, show _ ≤ 0xBF by omega⟩
  split
  · exact ⟨show 0x80 ≤ _ by omega, show _ ≤ 0x8F by omega⟩
  · exact ⟨show 0x80 ≤ _ by omega, show _ ≤ 0xBF by omega⟩

/-- Every character is read back from its octets. -/
theorem reads_encodeChar (c : Char) : scan.Reads (encodeChar c) c := by
  have hvalid := c.valid
  simp only [UInt32.isValidChar, Nat.isValidChar] at hvalid
  have hback : Char.ofNat c.val.toNat = c := Char.ofNat_toNat c
  rw [encodeChar, String.utf8EncodeChar]
  generalize c.val.toNat = n at hvalid hback ⊢
  split
  · next hn =>
    have hlt : UInt8.ofNat n < 0x80 := by
      rw [UInt8.lt_iff_toNat_lt, toNat_ofNat8 (by omega)]
      exact Nat.lt_succ_of_le hn
    refine ⟨_, _, rfl, fun rest => ?_⟩
    simp only [scan, hlt, if_true, toNat_ofNat8 (show n < 256 by omega), hback, List.length_nil]
  split
  · have hlead : (UInt8.ofNat (n / 64 % 32 + 192)).toNat = n / 64 + 192 := by
      rw [toNat_ofNat8 (by omega)]
      omega
    refine ⟨_, _, rfl, fun rest => ?_⟩
    rw [List.cons_append, scan_two (by omega) (by omega) (isTail_ofNat (by omega)), hlead,
      tailBits_ofNat (by omega), show (n / 64 + 192) % 32 * 64 + n % 64 = n by omega, hback]
    rfl
  split
  · have hlead : (UInt8.ofNat (n / 4096 % 16 + 224)).toNat = n / 4096 + 224 := by
      rw [toNat_ofNat8 (by omega)]
      omega
    refine ⟨_, _, rfl, fun rest => ?_⟩
    rw [List.cons_append, List.cons_append, scan_three (by omega) (by omega)
      (isSecond_ofNat (by omega) (by omega) (by omega) (by omega) (by omega) (by omega))
      (isTail_ofNat (by omega)), hlead, tailBits_ofNat (by omega), tailBits_ofNat (by omega),
      show (n / 4096 + 224) % 16 * 4096 + n / 64 % 64 * 64 + n % 64 = n by omega, hback]
    rfl
  · have hlead : (UInt8.ofNat (n / 262144 % 8 + 240)).toNat = n / 262144 + 240 := by
      rw [toNat_ofNat8 (by omega)]
      omega
    refine ⟨_, _, rfl, fun rest => ?_⟩
    rw [List.cons_append, List.cons_append, List.cons_append, scan_four (by omega) (by omega)
      (isSecond_ofNat (by omega) (by omega) (by omega) (by omega) (by omega) (by omega))
      (isTail_ofNat (by omega)) (isTail_ofNat (by omega)), hlead, tailBits_ofNat (by omega),
      tailBits_ofNat (by omega), tailBits_ofNat (by omega),
      show (n / 262144 + 240) % 8 * 262144 + n / 4096 % 64 * 4096 + n / 64 % 64 * 64 + n % 64 = n by
        omega, hback]
    rfl

end Utf8

/-! ## Shift-JIS -/

namespace ShiftJis

/-- The character as which the octets of a character are read. -/
def readAs (c : Char) : Char :=
  if c = '¥' then '\\' else if c = '‾' then '~' else if c = '−' then '－' else c

/-- The lead octet of a cell stands for its row of 188 cells. -/
theorem toNat_lead {row : Nat} (h : row < 60) :
    ∃ lead, UInt8.ofNat (row + if row < 0x1F then 0x81 else 0xC1) = lead
      ∧ (lead.toNat - if lead.toNat < 0xA0 then 0x81 else 0xC1) = row
      ∧ (0x81 ≤ lead.toNat ∧ lead.toNat ≤ 0x9F ∧ lead.toNat = row + 0x81
        ∨ 0xE0 ≤ lead.toNat ∧ lead.toNat ≤ 0xFC ∧ lead.toNat = row + 0xC1) := by
  refine ⟨_, rfl, ?_⟩
  split
  · rw [toNat_ofNat8 (by omega), if_pos (by omega)]
    omega
  · rw [toNat_ofNat8 (by omega), if_neg (by omega)]
    omega

/-- The trail octet of a cell stands for its place in the row. -/
theorem toNat_trail {column : Nat} (h : column < 188) :
    ∃ trail, UInt8.ofNat (column + if column < 0x3F then 0x40 else 0x41) = trail
      ∧ (trail.toNat - if trail.toNat < 0x7F then 0x40 else 0x41) = column
      ∧ (0x40 ≤ trail.toNat ∧ trail.toNat ≤ 0x7E ∨ 0x80 ≤ trail.toNat ∧ trail.toNat ≤ 0xFC) := by
  refine ⟨_, rfl, ?_⟩
  split
  · rw [toNat_ofNat8 (by omega), if_pos (by omega)]
    omega
  · rw [toNat_ofNat8 (by omega), if_neg (by omega)]
    omega

/-- A cell is found again by its pair of octets. -/
theorem scan_pair {p : Nat} (hp : p < 11280) : ∃ lead trail, pair p = [lead, trail]
    ∧ (0x81 ≤ lead.toNat ∧ lead.toNat ≤ 0x9F ∧ lead.toNat = p / 188 + 0x81
      ∨ 0xE0 ≤ lead.toNat ∧ lead.toNat ≤ 0xFC ∧ lead.toNat = p / 188 + 0xC1)
    ∧ ∀ c rest, pairChar? p = some c → scan lead (trail :: rest) = (c, 1) := by
  obtain ⟨lead, hlead, hrow, hrange⟩ := toNat_lead (show p / 188 < 60 by omega)
  obtain ⟨trail, htrail, hcolumn, hplace⟩ := toNat_trail (show p % 188 < 188 by omega)
  refine ⟨lead, trail, by rw [pair, hlead, htrail], hrange, fun c rest hc => ?_⟩
  have hascii : ¬ lead ≤ 0x80 := by
    rw [UInt8.le_iff_toNat_le]
    change ¬ _ ≤ 0x80
    omega
  have hkana : (0xA1 ≤ lead && lead ≤ 0xDF) = false := by
    rw [← Bool.not_eq_true]
    simp only [UInt8.le_iff_toNat_le, Bool.and_eq_true, decide_eq_true_eq]
    change ¬ (0xA1 ≤ _ ∧ _ ≤ 0xDF)
    omega
  have hisLead : isLead lead = true := by
    simp only [isLead, UInt8.le_iff_toNat_le, Bool.and_eq_true, Bool.or_eq_true, decide_eq_true_eq]
    change (0x81 ≤ _ ∧ _ ≤ 0x9F) ∨ 0xE0 ≤ _ ∧ _ ≤ 0xFC
    omega
  have hisTrail : isTrail trail = true := by
    simp only [isTrail, UInt8.le_iff_toNat_le, Bool.and_eq_true, Bool.or_eq_true,
      decide_eq_true_eq]
    exact hplace
  have hpointer : pointer lead trail = p := by
    have hsplit : pointer lead trail = p / 188 * 188 + p % 188 := by
      rw [pointer, ← hrow, ← hcolumn]
      rfl
    rw [hsplit, Nat.div_add_mod']
  simp only [scan, hascii, if_false, hkana, hisLead, if_true, hisTrail, hpointer, hc,
    Bool.false_eq_true]

theorem readAs_of_ne {c : Char} (hyen : c ≠ '¥') (hoverline : c ≠ '‾') (hminus : c ≠ '−') :
    readAs c = c := by
  rw [readAs, if_neg hyen, if_neg hoverline, if_neg hminus]

theorem reads_single {octet : UInt8} {c : Char} (h : ∀ rest, scan octet rest = (c, 0)) :
    scan.Reads [octet] c := ⟨octet, [], rfl, h⟩

/-- The cell in which a character is written is never a user-defined one. -/
theorem pairChar?_of_pointer? {p : Nat} {c : Char}
    (h : Jis0208.grid.pointer? isRepeated c = some p) : pairChar? p = some c := by
  have hskipped := CharGrid.not_skipped_of_pointer? h
  simp only [isRepeated, Bool.and_eq_false_iff, decide_eq_false_iff_not] at hskipped
  rw [pairChar?, if_neg (by omega)]
  exact CharGrid.char?_of_pointer? h

/-- Every character that Shift-JIS has is read back from its octets as `readAs` says. -/
theorem reads_encodeChar? {c : Char} {octets : Bytes} (h : encodeChar? c = some octets) :
    scan.Reads octets (readAs c) := by
  unfold encodeChar? at h
  have hne {d : Char} (hd : 0xA0 < d.toNat ∧ (d.toNat < 0xFF61 ∨ 0xFF9F < d.toNat))
      (hc : c.toNat ≤ 0x80 ∨ 0xFF61 ≤ c.toNat ∧ c.toNat ≤ 0xFF9F) : c ≠ d := by
    rintro rfl
    omega
  split at h
  · next hascii =>
    obtain rfl := Option.some.inj h
    have hoctet : (UInt8.ofNat c.toNat).toNat = c.toNat := toNat_ofNat8 (by omega)
    have hle : UInt8.ofNat c.toNat ≤ 0x80 := by
      rw [UInt8.le_iff_toNat_le, hoctet]
      exact hascii
    rw [readAs_of_ne (hne (by decide) (.inl hascii)) (hne (by decide) (.inl hascii))
      (hne (by decide) (.inl hascii))]
    refine reads_single fun rest => ?_
    simp only [scan, hle, if_true, hoctet, Char.ofNat_toNat]
  split at h
  · next hyen =>
    obtain rfl := Option.some.inj h
    rw [readAs, if_pos hyen]
    exact reads_single fun _ => rfl
  split at h
  · next hyen hoverline =>
    obtain rfl := Option.some.inj h
    rw [readAs, if_neg hyen, if_pos hoverline]
    exact reads_single fun _ => rfl
  split at h
  · next hkana =>
    obtain rfl := Option.some.inj h
    have hoctet : (UInt8.ofNat (c.toNat - 0xFF61 + 0xA1)).toNat = c.toNat - 0xFF61 + 0xA1 :=
      toNat_ofNat8 (by omega)
    rw [readAs_of_ne (hne (by decide) (.inr hkana)) (hne (by decide) (.inr hkana))
      (hne (by decide) (.inr hkana))]
    refine reads_single fun rest => ?_
    have hascii : ¬ UInt8.ofNat (c.toNat - 0xFF61 + 0xA1) ≤ 0x80 := by
      rw [UInt8.le_iff_toNat_le, hoctet]
      change ¬ _ ≤ 0x80
      omega
    have hrange : (0xA1 ≤ UInt8.ofNat (c.toNat - 0xFF61 + 0xA1)
        && UInt8.ofNat (c.toNat - 0xFF61 + 0xA1) ≤ 0xDF) = true := by
      simp only [UInt8.le_iff_toNat_le, hoctet, Bool.and_eq_true, decide_eq_true_eq]
      change 0xA1 ≤ _ ∧ _ ≤ 0xDF
      omega
    simp only [scan, hascii, if_false, hrange, if_true, hoctet,
      show 0xFF61 + (c.toNat - 0xFF61 + 0xA1 - 0xA1) = c.toNat by omega, Char.ofNat_toNat]
  · next hyen hoverline _ =>
    obtain ⟨p, hp, rfl⟩ := Option.map_eq_some_iff.mp h
    have hlt := CharGrid.pointer?_lt hp
    rw [Jis0208.size_grid] at hlt
    obtain ⟨lead, trail, hpair, -, hscan⟩ := scan_pair (p := p) (by omega)
    have hread : readAs c = if c = '−' then '－' else c := by
      rw [readAs, if_neg hyen, if_neg hoverline]
    rw [hpair, hread]
    exact ⟨lead, [trail], rfl, fun rest => hscan _ rest (pairChar?_of_pointer? hp)⟩

/-- No character begins with an octet of a byte order mark: the rows behind `EF` repeat characters
of other rows. -/
theorem head_of_encodeChar? {c : Char} {first : UInt8} {others : Bytes}
    (h : encodeChar? c = some (first :: others)) :
    first.toNat < 0xEF ∨ 0xEF < first.toNat ∧ first.toNat < 0xFE := by
  unfold encodeChar? at h
  split at h
  · obtain ⟨rfl, rfl⟩ := List.cons_eq_cons.mp (Option.some.inj h)
    rw [toNat_ofNat8 (by omega)]
    omega
  split at h
  · obtain ⟨rfl, rfl⟩ := List.cons_eq_cons.mp (Option.some.inj h)
    exact .inl (by decide)
  split at h
  · obtain ⟨rfl, rfl⟩ := List.cons_eq_cons.mp (Option.some.inj h)
    exact .inl (by decide)
  split at h
  · obtain ⟨rfl, rfl⟩ := List.cons_eq_cons.mp (Option.some.inj h)
    rw [toNat_ofNat8 (by omega)]
    omega
  · obtain ⟨p, hp, hpair⟩ := Option.map_eq_some_iff.mp h
    have hlt := CharGrid.pointer?_lt hp
    rw [Jis0208.size_grid] at hlt
    have hskipped := CharGrid.not_skipped_of_pointer? hp
    simp only [isRepeated, Bool.and_eq_false_iff, decide_eq_false_iff_not] at hskipped
    obtain ⟨lead, trail, hoctets, hrange, -⟩ := scan_pair (p := p) (by omega)
    obtain ⟨rfl, -⟩ := List.cons_eq_cons.mp (hoctets.symm.trans hpair)
    omega

end ShiftJis

/-! ## GB18030 -/

/-- The rows of a table, given as literals, are lists of characters. -/
theorem cons_eq_map_ofList {row : String} {rows : List String} {cells : List Char}
    {grid : List (List Char)} (hrow : row = .ofList cells) (hrows : rows = grid.map .ofList) :
    row :: rows = (cells :: grid).map .ofList := by
  rw [hrow, hrows, List.map_cons]

/-- A cell stands where the number of its row says. -/
theorem CharGrid.getElem?_ofRows {width : Nat} {rows : List String}
    (h : ∀ row ∈ rows, row.toList.length ≤ width) {r k : Nat} {row : String} {c : Char}
    (hrow : rows[r]? = some row) (hcell : row.toList[k]? = some c) :
    (CharGrid.ofRows width rows).cells[r * width + k]? = some c := by
  rw [ofRows, List.getElem?_toArray]
  induction rows generalizing r with
  | nil => simp at hrow
  | cons first rest ih =>
    obtain ⟨hfirst, hrest⟩ := List.forall_mem_cons.mp h
    have hlength : (first.toList.rightpad width vacant).length = width := by
      rw [List.length_rightpad, Nat.max_eq_left hfirst]
    rw [List.flatMap_cons]
    cases r with
    | zero =>
      obtain rfl : first = row := by simpa using hrow
      have hk : k < first.toList.length := (List.getElem?_eq_some_iff.mp hcell).1
      rw [Nat.zero_mul, Nat.zero_add, List.getElem?_append_left (by omega), List.rightpad,
        List.getElem?_append_left hk, hcell]
    | succ r =>
      rw [List.getElem?_append_right (by rw [hlength, Nat.succ_mul]; omega), hlength,
        show (r + 1) * width + k - width = r * width + k by rw [Nat.succ_mul]; omega]
      exact ih hrest (by simpa using hrow)

namespace Gb18030Runs

/-- The runs follow one another in the order of their numbers. -/
theorem pairwise_runs : runs.Pairwise fun r s => r.1 + r.2.2 ≤ s.1 := by
  let Before (r s : Nat × Nat × Nat) : Prop := r.1 + r.2.2 ≤ s.1
  have : Trans Before Before Before :=
    ⟨fun h h' => Nat.le_trans h (Nat.le_trans (Nat.le_add_right _ _) h')⟩
  have hchain : runs.IsChain fun r s => r.1 + r.2.2 ≤ s.1 := by decide +kernel
  exact (List.isChain_iff_pairwise (R := Before)).mp hchain

/-- No number belongs to two runs, so a number leads back to its code point. -/
theorem char?_of_number? {c : Char} {number : Nat} (h : number? c = some number) :
    char? number = some c := by
  obtain ⟨run, hfind, rfl⟩ := Option.map_eq_some_iff.mp h
  have hrun := List.mem_of_find?_eq_some hfind
  have hc := List.find?_some hfind
  simp only [Bool.and_eq_true, decide_eq_true_eq] at hc
  have hsome : (runs.find? fun r => r.1 ≤ run.1 + (c.toNat - run.2.1)
      && run.1 + (c.toNat - run.2.1) < r.1 + r.2.2).isSome = true := by
    refine List.find?_isSome.mpr ⟨run, hrun, ?_⟩
    simp only [Bool.and_eq_true, decide_eq_true_eq]
    omega
  obtain ⟨found, hfound⟩ := Option.isSome_iff_exists.mp hsome
  have hin := List.find?_some hfound
  simp only [Bool.and_eq_true, decide_eq_true_eq] at hin
  have hapart : ∀ ⦃r⦄, r ∈ runs → ∀ ⦃s⦄, s ∈ runs →
      r = s ∨ r.1 + r.2.2 ≤ s.1 ∨ s.1 + s.2.2 ≤ r.1 :=
    List.Pairwise.forall_of_forall_of_flip (fun _ _ => .inl rfl)
      (pairwise_runs.imp fun h => .inr (.inl h)) (pairwise_runs.imp fun h => .inr (.inr h))
  rcases hapart (List.mem_of_find?_eq_some hfound) hrun with rfl | hlt
  · rw [char?, hfound, Option.map_some]
    congr 1
    rw [show found.2.1 + (found.1 + (c.toNat - found.2.1) - found.1) = c.toNat by omega,
      Char.ofNat_toNat]
  · omega

end Gb18030Runs

namespace Gb18030

/-- The characters that have taken over the pairs of the superseded code points. -/
def successors : List (Nat × Char) := [
  (0xE78D, '\uFE10'), (0xE78E, '\uFE12'), (0xE78F, '\uFE11'), (0xE790, '\uFE13'),
  (0xE791, '\uFE14'), (0xE792, '\uFE15'), (0xE793, '\uFE16'), (0xE794, '\uFE17'),
  (0xE795, '\uFE18'), (0xE796, '\uFE19'), (0xE81E, '\u9FB4'), (0xE826, '\u9FB5'),
  (0xE82B, '\u9FB6'), (0xE82C, '\u9FB7'), (0xE832, '\u9FB8'), (0xE843, '\u9FB9'),
  (0xE854, '\u9FBA'), (0xE864, '\u9FBB')]

/-- The character as which the octets of a character are read. -/
def readAs (c : Char) : Char := (successors.lookup c.toNat).getD c

set_option maxRecDepth 4000 in
/-- The table, character by character: the replacement character has no cell, and the cells of
superseded code points hold their successors. -/
theorem exists_cells : ∃ cells : List (List Char), Gb18030Index.rows = cells.map .ofList
    ∧ (cells.all fun row => row.all fun c => c.toNat != replacement.toNat) = true
    ∧ (superseded.all fun old =>
        let place := pointer (old.2.getD 0 0) (old.2.getD 1 0)
        (cells[place / 95]?.bind fun row => row[place % 95]?) == successors.lookup old.1)
      = true := by
  apply Exists.intro
  apply And.intro
  · unfold Gb18030Index.rows
    repeat apply cons_eq_map_ofList rfl
    exact List.map_nil.symm
  · exact ⟨by decide +kernel, by decide +kernel⟩

variable {lead trail : UInt8} {c : Char}

/-- A pair is read as the character of its cell. -/
theorem scan_of_char? (hlead : 0x81 ≤ lead.toNat ∧ lead.toNat ≤ 0xFE)
    (htrail : 0x40 ≤ trail.toNat ∧ trail.toNat ≤ 0x7E ∨ 0x80 ≤ trail.toNat ∧ trail.toNat ≤ 0xFE)
    (hc : Gb18030Index.grid.char? (pointer lead trail) = some c) (rest : Bytes) :
    scan lead (trail :: rest) = (c, 1) := by
  have hascii : ¬ lead < 0x80 := by
    rw [UInt8.lt_iff_toNat_lt]
    change ¬ _ < 0x80
    omega
  have heuro : ¬ lead = 0x80 := by
    rintro rfl
    exact absurd hlead.1 (by decide)
  have hisLead : isLead lead = true := by
    simp only [isLead, UInt8.le_iff_toNat_le, Bool.and_eq_true, decide_eq_true_eq]
    exact hlead
  have hdigit : isDigit trail = false := by
    rw [← Bool.not_eq_true]
    simp only [isDigit, UInt8.le_iff_toNat_le, Bool.and_eq_true, decide_eq_true_eq]
    change ¬ (0x30 ≤ _ ∧ _ ≤ 0x39)
    omega
  have hisTrail : isTrail trail = true := by
    simp only [isTrail, UInt8.le_iff_toNat_le, Bool.and_eq_true, Bool.or_eq_true,
      decide_eq_true_eq]
    exact htrail
  simp only [scan, hascii, heuro, if_false, hisLead, if_true, hdigit, Bool.false_eq_true, scanPair,
    hisTrail, hc]

/-- A cell is found again by its pair of octets. -/
theorem scan_pair {p : Nat} (hp : p < 23940) : ∃ lead trail, pair p = [lead, trail]
    ∧ (0x81 ≤ lead.toNat ∧ lead.toNat ≤ 0xFE)
    ∧ (0x40 ≤ trail.toNat ∧ trail.toNat ≤ 0x7E ∨ 0x80 ≤ trail.toNat ∧ trail.toNat ≤ 0xFE)
    ∧ pointer lead trail = p := by
  have hlead := toNat_ofNat8 (n := p / 190 + 0x81) (by omega)
  refine ⟨_, _, rfl, by omega, ?_⟩
  by_cases hlow : p % 190 < 0x3F
  · rw [if_pos hlow]
    have htrail := toNat_ofNat8 (n := p % 190 + 0x40) (by omega)
    have hlt : UInt8.ofNat (p % 190 + 0x40) < 0x7F := by
      rw [UInt8.lt_iff_toNat_lt, htrail]
      change _ < 0x7F
      omega
    rw [pointer, if_pos hlt, hlead, htrail]
    omega
  · rw [if_neg hlow]
    have htrail := toNat_ofNat8 (n := p % 190 + 0x41) (by omega)
    have hlt : ¬ UInt8.ofNat (p % 190 + 0x41) < 0x7F := by
      rw [UInt8.lt_iff_toNat_lt, htrail]
      change ¬ _ < 0x7F
      omega
    rw [pointer, if_neg hlt, hlead, htrail]
    omega

/-- A group of four is read as the character of its number. -/
theorem reads_group {n : Nat} (hn : n < 1237576) (hc : Gb18030Runs.char? n = some c) :
    scan.Reads (group n) c := by
  have h₁ := toNat_ofNat8 (n := n / 12600 + 0x81) (by omega)
  have h₂ := toNat_ofNat8 (n := n / 1260 % 10 + 0x30) (by omega)
  have h₃ := toNat_ofNat8 (n := n / 10 % 126 + 0x81) (by omega)
  have h₄ := toNat_ofNat8 (n := n % 10 + 0x30) (by omega)
  refine ⟨_, _, rfl, fun rest => ?_⟩
  have hascii : ¬ UInt8.ofNat (n / 12600 + 0x81) < 0x80 := by
    rw [UInt8.lt_iff_toNat_lt, h₁]
    change ¬ _ < 0x80
    omega
  have heuro : ¬ UInt8.ofNat (n / 12600 + 0x81) = 0x80 := by
    rw [← UInt8.toNat_inj, h₁]
    change ¬ _ = 0x80
    omega
  have hlead : ∀ m, 0x81 ≤ m → m ≤ 0xFE → isLead (UInt8.ofNat m) = true := by
    intro m hlow hhigh
    simp only [isLead, UInt8.le_iff_toNat_le, Bool.and_eq_true, decide_eq_true_eq,
      toNat_ofNat8 (show m < 256 by omega)]
    exact ⟨hlow, hhigh⟩
  have hdigit : ∀ m < 10, isDigit (UInt8.ofNat (m + 0x30)) = true := by
    intro m hm
    simp only [isDigit, UInt8.le_iff_toNat_le, Bool.and_eq_true, decide_eq_true_eq,
      toNat_ofNat8 (show m + 0x30 < 256 by omega)]
    exact ⟨Nat.le_add_left _ _, Nat.lt_succ_iff.mp (Nat.add_lt_add_right hm _)⟩
  have hnumber : number (UInt8.ofNat (n / 12600 + 0x81)) (UInt8.ofNat (n / 1260 % 10 + 0x30))
      (UInt8.ofNat (n / 10 % 126 + 0x81)) (UInt8.ofNat (n % 10 + 0x30)) = n := by
    rw [number, h₁, h₂, h₃, h₄]
    omega
  simp only [scan, hascii, heuro, if_false, hlead _ (Nat.le_add_left _ _)
    (show n / 12600 + 0x81 ≤ 0xFE by omega), if_true, hdigit _ (Nat.mod_lt _ (by decide)),
    List.cons_append, List.nil_append, scanGroup, hlead _ (Nat.le_add_left _ _)
    (show n / 10 % 126 + 0x81 ≤ 0xFE by omega), hnumber, hc, Option.getD_some]
  rfl

/-- A cell holds what stands at its place in its row. -/
theorem char?_of_cells {cells : List (List Char)}
    (hrows : Gb18030Index.rows = cells.map .ofList) {p : Nat}
    (hcell : (cells[p / 95]?.bind fun row => row[p % 95]?) = some c) (hc : c ≠ CharGrid.vacant) :
    Gb18030Index.grid.char? p = some c := by
  obtain ⟨row, hrow, hplace⟩ := Option.bind_eq_some_iff.mp hcell
  have hrow' : Gb18030Index.rows[p / 95]? = some (.ofList row) := by
    rw [hrows, List.getElem?_map, hrow, Option.map_some]
  have hplace' : (String.ofList row).toList[p % 95]? = some c := by
    rw [String.toList_ofList, hplace]
  have hcells := CharGrid.getElem?_ofRows Gb18030Index.length_of_mem_rows hrow' hplace'
  rw [Nat.div_add_mod'] at hcells
  rw [CharGrid.char?, Gb18030Index.grid, CharGrid.fillVacant, Array.getElem?_mapIdx, hcells,
    Option.map_some, if_neg hc, Option.filter_some, if_pos (by simpa using hc)]

/-- The pair of a superseded code point is read as the successor of this. -/
theorem exists_successor {n : Nat} {octets : Bytes} (h : superseded.lookup n = some octets) :
    ∃ lead trail new, octets = [lead, trail] ∧ successors.lookup n = some new
      ∧ (0x81 ≤ lead.toNat ∧ lead.toNat ≤ 0xFE)
      ∧ (0x40 ≤ trail.toNat ∧ trail.toNat ≤ 0x7E ∨ 0x80 ≤ trail.toNat ∧ trail.toNat ≤ 0xFE)
      ∧ Gb18030Index.grid.char? (pointer lead trail) = some new := by
  obtain ⟨_, _, hsplit, -⟩ := List.lookup_eq_some_iff.mp h
  have hmem : (n, octets) ∈ superseded := by simp [hsplit]
  have hpairs : ∀ old ∈ superseded, old.2 = [old.2.getD 0 0, old.2.getD 1 0]
      ∧ (0x81 ≤ (old.2.getD 0 0).toNat ∧ (old.2.getD 0 0).toNat ≤ 0xFE)
      ∧ (0x40 ≤ (old.2.getD 1 0).toNat ∧ (old.2.getD 1 0).toNat ≤ 0x7E
        ∨ 0x80 ≤ (old.2.getD 1 0).toNat ∧ (old.2.getD 1 0).toNat ≤ 0xFE)
      ∧ (successors.lookup old.1).any (· ≠ CharGrid.vacant) = true := by decide
  obtain ⟨hoctets, hlead, htrail, hnew⟩ := hpairs _ hmem
  obtain ⟨new, hlookup, hvacant⟩ := (Option.any_eq_true _ _).mp hnew
  obtain ⟨cells, hrows, -, hall⟩ := exists_cells
  have hcell := List.all_eq_true.mp hall _ hmem
  rw [hlookup, beq_iff_eq] at hcell
  exact ⟨_, _, new, hoctets, hlookup, hlead, htrail,
    char?_of_cells hrows hcell (by simpa using hvacant)⟩

/-- Only superseded code points have successors. -/
theorem readAs_of_lookup (h : superseded.lookup c.toNat = none) : readAs c = c := by
  have hkeys : successors.map (·.1) = superseded.map (·.1) := by decide
  have hnone : successors.lookup c.toNat = none := by
    rw [List.lookup_eq_none_iff] at h ⊢
    intro p hp
    have hkey : p.1 ∈ superseded.map (·.1) := hkeys ▸ List.mem_map_of_mem hp
    obtain ⟨old, hold, heq⟩ := List.mem_map.mp hkey
    rw [← heq]
    exact h old hold
  rw [readAs, hnone, Option.getD_none]

/-- The octets of a character outside ASCII: a pair, which is that of its cell or of its successor,
or a group of four. -/
theorem encodeChar?_cases {octets : Bytes} (h : encodeChar? c = some octets)
    (hascii : ¬ c.toNat < 0x80) :
    (∃ lead trail, octets = [lead, trail] ∧ (0x81 ≤ lead.toNat ∧ lead.toNat ≤ 0xFE)
      ∧ (0x40 ≤ trail.toNat ∧ trail.toNat ≤ 0x7E ∨ 0x80 ≤ trail.toNat ∧ trail.toNat ≤ 0xFE)
      ∧ Gb18030Index.grid.char? (pointer lead trail) = some (readAs c))
    ∨ ∃ n < 1237576, octets = group n ∧ Gb18030Runs.char? n = some (readAs c) := by
  rw [encodeChar?, if_neg hascii] at h
  simp only [Option.orElse_eq_orElse, Option.orElse_eq_or, Option.or_eq_some_iff,
    Option.map_eq_some_iff] at h
  rcases h with hold | ⟨hold, ⟨p, hp, rfl⟩ | ⟨-, n, hn, rfl⟩⟩
  · obtain ⟨lead, trail, new, hoctets, hlookup, hlead, htrail, hcell⟩ := exists_successor hold
    refine .inl ⟨lead, trail, hoctets, hlead, htrail, ?_⟩
    rw [readAs, hlookup, Option.getD_some, hcell]
  · have hlt := CharGrid.pointer?_lt hp
    rw [Gb18030Index.size_grid] at hlt
    obtain ⟨lead, trail, hpair, hlead, htrail, hpointer⟩ := scan_pair hlt
    refine .inl ⟨lead, trail, hpair, hlead, htrail, ?_⟩
    rw [hpointer, readAs_of_lookup hold, CharGrid.char?_of_pointer? hp]
  · refine .inr ⟨n, Gb18030Runs.number?_lt hn, rfl, ?_⟩
    rw [readAs_of_lookup hold, Gb18030Runs.char?_of_number? hn]

/-- Every character is read back from its octets as `readAs` says. -/
theorem reads_encodeChar? {octets : Bytes} (h : encodeChar? c = some octets) :
    scan.Reads octets (readAs c) := by
  by_cases hascii : c.toNat < 0x80
  · rw [encodeChar?, if_pos hascii] at h
    obtain rfl := Option.some.inj h
    have hnone : superseded.lookup c.toNat = none := by
      have hhigh : ∀ old ∈ superseded, 0x80 ≤ old.1 := by decide
      refine List.lookup_eq_none_iff.mpr fun old hold => ?_
      have hle := hhigh old hold
      exact bne_iff_ne.mpr (by omega)
    have hoctet : (UInt8.ofNat c.toNat).toNat = c.toNat := toNat_ofNat8 (by omega)
    have hlt : UInt8.ofNat c.toNat < 0x80 := by
      rw [UInt8.lt_iff_toNat_lt, hoctet]
      exact hascii
    rw [readAs_of_lookup hnone]
    refine ⟨_, [], rfl, fun rest => ?_⟩
    simp only [scan, hlt, if_true, hoctet, Char.ofNat_toNat, List.length_nil]
  · rcases encodeChar?_cases h hascii with ⟨lead, trail, rfl, hlead, htrail, hcell⟩
      | ⟨n, hn, rfl, hc⟩
    · exact ⟨lead, [trail], rfl, fun rest => scan_of_char? hlead htrail hcell rest⟩
    · exact reads_group hn hc

end Gb18030
end Text
end NovelScript
