import NovelScript.Archive.Basic

/-!
# Regions of the file under an archive

Names, contents and the index are spans of the file behind its header.  `Span.Apart` says that two
spans share no octet, and `Keeps` that a file still has the octets of another one up to a limit.
A save cuts the file off at most where a last span starts, so every span apart from that one lies
below the cut (`Span.Apart.below_of_last`) and is read as before (`Keeps.region_eq_ok`).
-/

namespace NovelScript

/-- The places of a file from one on up to another. -/
structure Span where
  start : Nat
  stop : Nat

namespace Span

variable {a b : Span} {size limit : Nat}

/-- The span is empty, or behind the header and in a file of this size. -/
def Inside (a : Span) (size : Nat) : Prop :=
  a.stop ≤ a.start ∨ ArchiveHeader.size ≤ a.start ∧ a.stop ≤ size

/-- The span is empty or ends at the limit or in front of it. -/
def Below (a : Span) (limit : Nat) : Prop := a.stop ≤ a.start ∨ a.stop ≤ limit

/-- The span is empty or starts at the limit or behind it. -/
def Above (a : Span) (limit : Nat) : Prop := a.stop ≤ a.start ∨ limit ≤ a.start

/-- No place is in both spans. -/
def Apart (a b : Span) : Prop :=
  a.stop ≤ a.start ∨ b.stop ≤ b.start ∨ a.stop ≤ b.start ∨ b.stop ≤ a.start

theorem Apart.symm (h : a.Apart b) : b.Apart a := by
  unfold Apart at *
  omega

theorem Below.apart (ha : a.Below limit) (hb : b.Above limit) : a.Apart b := by
  unfold Below Above Apart at *
  omega

theorem Inside.below (h : a.Inside size) : a.Below size := by
  unfold Inside Below at *
  omega

/-- What is inside a file and below a limit is inside every file that reaches the limit. -/
theorem Inside.of_below {size' : Nat} (h : a.Inside size) (hbelow : a.Below limit)
    (hle : limit ≤ size') : a.Inside size' := by
  unfold Inside Below at *
  omega

/-- A span apart from the last one of a file lies below it. -/
theorem Apart.below_of_last (h : a.Apart b) (ha : a.Inside size) (hb : b.start < b.stop)
    (hlast : b.stop = size) : a.Below b.start := by
  unfold Apart Inside Below at *
  omega

end Span

/-! ## What a region holds -/

variable {file file' octets : Bytes} {limit offset length : Nat}

/-- A region holds octets exactly if these are found place by place. -/
theorem region_eq_ok_iff :
    region file offset length = .ok octets ↔
      octets.length = length ∧ ∀ i < length, file[offset + i]? = octets[i]? := by
  simp only [region]
  constructor
  · intro h
    split at h
    · next hlength =>
      obtain rfl := Except.ok.inj h
      refine ⟨hlength, fun i hi => ?_⟩
      rw [List.getElem?_take_of_lt hi, List.getElem?_drop]
    · cases h
  · rintro ⟨rfl, h⟩
    have heq : (file.drop offset).take octets.length = octets := by
      apply List.ext_getElem?
      intro i
      by_cases hi : i < octets.length
      · rw [List.getElem?_take_of_lt hi, List.getElem?_drop, h i hi]
      · rw [List.getElem?_eq_none (by rw [List.length_take]; omega),
          List.getElem?_eq_none (by omega)]
    rw [heq, if_pos rfl]

/-- A region without octets is read anywhere. -/
theorem region_zero : region file offset 0 = .ok [] :=
  region_eq_ok_iff.mpr ⟨rfl, fun i hi => absurd hi (Nat.not_lt_zero i)⟩

/-- A region with octets lies in the file. -/
theorem le_of_region_eq_ok (h : region file offset length = .ok octets) (hpos : 0 < length) :
    offset + length ≤ file.length := by
  obtain ⟨hlength, h⟩ := region_eq_ok_iff.mp h
  have hlast := h (length - 1) (by omega)
  rw [List.getElem?_eq_getElem (l := octets) (by omega)] at hlast
  obtain ⟨hlt, -⟩ := List.getElem?_eq_some_iff.mp hlast
  omega

/-- What holds two runs of octets holds each of them. -/
theorem region_of_append {first second : Bytes}
    (h : region file offset (first ++ second).length = .ok (first ++ second)) :
    region file offset first.length = .ok first
      ∧ region file (offset + first.length) second.length = .ok second := by
  obtain ⟨-, h⟩ := region_eq_ok_iff.mp h
  rw [List.length_append] at h
  refine ⟨region_eq_ok_iff.mpr ⟨rfl, fun i hi => ?_⟩, region_eq_ok_iff.mpr ⟨rfl, fun i hi => ?_⟩⟩
  · rw [h i (by omega), List.getElem?_append_left hi]
  · rw [Nat.add_assoc, h (first.length + i) (by omega), List.getElem?_append_right (by omega),
      Nat.add_sub_cancel_left]

/-- What stands behind a part of a file is read there. -/
theorem region_append_append (before after : Bytes) (hoffset : offset = before.length)
    (hlength : length = octets.length) :
    region (before ++ octets ++ after) offset length = .ok octets := by
  subst hoffset hlength
  refine region_eq_ok_iff.mpr ⟨rfl, fun i hi => ?_⟩
  rw [List.append_assoc, List.getElem?_append_right (by omega), Nat.add_sub_cancel_left,
    List.getElem?_append_left hi]

/-- What stands at the end of a file is read there. -/
theorem region_append (before : Bytes) (hoffset : offset = before.length)
    (hlength : length = octets.length) : region (before ++ octets) offset length = .ok octets := by
  simpa using region_append_append before [] hoffset hlength

/-! ## Files with the same beginning -/

/-- Behind the header and up to the limit, `file'` has the octets of `file`. -/
structure Keeps (file file' : Bytes) (limit : Nat) : Prop where
  le : limit ≤ file.length
  le' : limit ≤ file'.length
  eq : ∀ i, ArchiveHeader.size ≤ i → i < limit → file'[i]? = file[i]?

namespace Keeps

theorem refl (file : Bytes) : Keeps file file file.length :=
  ⟨Nat.le_refl _, Nat.le_refl _, fun _ _ _ => rfl⟩

theorem append (file octets : Bytes) : Keeps file (file ++ octets) file.length where
  le := Nat.le_refl _
  le' := by simp
  eq i _ hi := List.getElem?_append_left hi

theorem take_append (octets : Bytes) (h : limit ≤ file.length) :
    Keeps file (file.take limit ++ octets) limit where
  le := h
  le' := by rw [List.length_append, List.length_take]; omega
  eq i _ hi := by
    rw [List.getElem?_append_left (by rw [List.length_take]; omega), List.getElem?_take_of_lt hi]

theorem header (header : ArchiveHeader) (h : ArchiveHeader.size ≤ file.length) :
    Keeps file (header.write ++ file.drop ArchiveHeader.size) file.length where
  le := Nat.le_refl _
  le' := by
    rw [List.length_append, List.length_drop, ArchiveHeader.length_write]
    omega
  eq i hi _ := by
    rw [List.getElem?_append_right (by simpa using hi), ArchiveHeader.length_write,
      List.getElem?_drop]
    congr 1
    omega

theorem trans {file'' : Bytes} {limit' : Nat} (h : Keeps file file' limit)
    (h' : Keeps file' file'' limit') (hle : limit ≤ limit') : Keeps file file'' limit where
  le := h.le
  le' := Nat.le_trans hle h'.le'
  eq i hi hlt := by rw [h'.eq i hi (by omega), h.eq i hi hlt]

/-- A region below the limit is read as before. -/
theorem region_eq_ok (h : Keeps file file' limit) (hregion : region file offset length = .ok octets)
    (hbehind : ArchiveHeader.size ≤ offset ∨ length = 0)
    (hbelow : offset + length ≤ limit ∨ length = 0) :
    region file' offset length = .ok octets := by
  obtain ⟨hlength, heq⟩ := region_eq_ok_iff.mp hregion
  refine region_eq_ok_iff.mpr ⟨hlength, fun i hi => ?_⟩
  rw [h.eq _ (by omega) (by omega), heq i hi]

end Keeps
end NovelScript
