/-!
# Words in little-endian order

Scripts and archives are made of 16-bit and 32-bit words, the least significant octet first.
`octets16` and `octets32` write a word; `take16` and `take32` take one off the front of the input
and fail when too little is left.

## Shape of the laws

`take32_octets32` and `take16_octets16` are quantified over the octets that follow, so a record is
read back field by field.
-/

namespace NovelScript

/-- A run of octets. -/
abbrev Bytes := List UInt8

/-- A reader takes a value off the front of its input, or fails. -/
abbrev Reader := StateT Bytes Option

namespace Word

/-- The two octets of a 16-bit word. -/
def octets16 (w : UInt16) : Bytes :=
  [UInt8.ofNat w.toNat, UInt8.ofNat (w.toNat / 256)]

/-- The four octets of a 32-bit word. -/
def octets32 (w : UInt32) : Bytes :=
  [UInt8.ofNat w.toNat, UInt8.ofNat (w.toNat / 256), UInt8.ofNat (w.toNat / 65536),
    UInt8.ofNat (w.toNat / 16777216)]

/-- The 16-bit word with these octets. -/
def join16 (a b : UInt8) : UInt16 :=
  UInt16.ofNat (a.toNat + 256 * b.toNat)

/-- The 32-bit word with these octets. -/
def join32 (a b c d : UInt8) : UInt32 :=
  UInt32.ofNat (a.toNat + 256 * b.toNat + 65536 * c.toNat + 16777216 * d.toNat)

/-- Takes a 16-bit word. -/
def take16 : Reader UInt16
  | a :: b :: rest => some (join16 a b, rest)
  | _ => none

/-- Takes a 32-bit word. -/
def take32 : Reader UInt32
  | a :: b :: c :: d :: rest => some (join32 a b c d, rest)
  | _ => none

/-- Takes exactly `n` octets. -/
def takeOctets (n : Nat) : Reader Bytes := fun input =>
  if n ≤ input.length then some (input.take n, input.drop n) else none

/-- The whole 32-bit words of the input, in order. -/
def words32 : Bytes → List UInt32
  | a :: b :: c :: d :: rest => join32 a b c d :: words32 rest
  | _ => []

@[simp] theorem length_octets16 (w : UInt16) : (octets16 w).length = 2 := rfl

@[simp] theorem length_octets32 (w : UInt32) : (octets32 w).length = 4 := rfl

theorem join16_octets (w : UInt16) :
    join16 (UInt8.ofNat w.toNat) (UInt8.ofNat (w.toNat / 256)) = w := by
  apply UInt16.toNat_inj.mp
  have := w.toNat_lt
  simp only [join16, UInt16.toNat_ofNat', UInt8.toNat_ofNat']
  omega

theorem join32_octets (w : UInt32) :
    join32 (UInt8.ofNat w.toNat) (UInt8.ofNat (w.toNat / 256)) (UInt8.ofNat (w.toNat / 65536))
      (UInt8.ofNat (w.toNat / 16777216)) = w := by
  apply UInt32.toNat_inj.mp
  have := w.toNat_lt
  simp only [join32, UInt32.toNat_ofNat', UInt8.toNat_ofNat']
  omega

/-- A written word is read back, whatever follows it. -/
@[simp] theorem take16_octets16 (w : UInt16) (rest : Bytes) :
    take16 (octets16 w ++ rest) = some (w, rest) := by
  show some (join16 _ _, rest) = _
  rw [join16_octets]

/-- A written word is read back, whatever follows it. -/
@[simp] theorem take32_octets32 (w : UInt32) (rest : Bytes) :
    take32 (octets32 w ++ rest) = some (w, rest) := by
  show some (join32 _ _ _ _, rest) = _
  rw [join32_octets]

/-- Reading on behind a written word. -/
theorem take16_bind {α : Type} (w : UInt16) (rest : Bytes) (next : UInt16 → Reader α) :
    (take16 >>= next) (octets16 w ++ rest) = next w rest := by
  show (take16 (octets16 w ++ rest)).bind (fun r => next r.1 r.2) = _
  rw [take16_octets16]
  rfl

/-- Reading on behind a written word. -/
theorem take32_bind {α : Type} (w : UInt32) (rest : Bytes) (next : UInt32 → Reader α) :
    (take32 >>= next) (octets32 w ++ rest) = next w rest := by
  show (take32 (octets32 w ++ rest)).bind (fun r => next r.1 r.2) = _
  rw [take32_octets32]
  rfl

@[simp] theorem words32_octets32_append (w : UInt32) (rest : Bytes) :
    words32 (octets32 w ++ rest) = w :: words32 rest := by
  show join32 _ _ _ _ :: words32 rest = _
  rw [join32_octets]

/-- Words written one after the other are read back in order. -/
theorem words32_flatMap_octets32 (ws : List UInt32) :
    words32 (ws.flatMap octets32) = ws := by
  induction ws with
  | nil => rfl
  | cons w ws ih => simp [List.flatMap_cons, ih]

end Word
end NovelScript
