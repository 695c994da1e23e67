import Mathlib.Data.BitVec
import SyNetsim.Lib.Memory

/-!
# Bytes

The bytes of 16-bit values in network order, and of 32-bit values as they lie in the memory of
a little-endian host.
-/

/-- A byte. -/
abbrev Byte : Type := BitVec 8

/-- A number that fits into `w` bits is the value of its bits. -/
theorem toNat_ofNat_of_lt {w n : ℕ} (h : n < 2 ^ w) :
  (BitVec.ofNat w n).toNat = n
  := by
  rw [BitVec.toNat_ofNat, Nat.mod_eq_of_lt h]

/-- A list of a given length, by its cells. -/
theorem exists_ofFn {α : Type*} {l : List α} {n : ℕ} (h : l.length = n) :
  ∃ f : Fin n → α, l = List.ofFn f
  := by
  subst h
  exact ⟨l.get, (List.ofFn_get l).symm⟩

/-! ### Two bytes in network order -/

/-- The bytes of a value in network order. -/
def be16 (v : BitVec 16) : List Byte := [v.extractLsb' 8 8, v.extractLsb' 0 8]

/-- The value of two bytes in network order. -/
def ofBe16 (hi lo : Byte) : BitVec 16 := hi ++ lo

@[simp]
theorem length_be16 (v : BitVec 16) :
  (be16 v).length = 2
  := rfl

@[simp]
theorem ofBe16_extract (v : BitVec 16) :
  ofBe16 (v.extractLsb' 8 8) (v.extractLsb' 0 8) = v
  := BitVec.extractLsb'_append_extractLsb'

@[simp]
theorem be16_ofBe16 (hi lo : Byte) :
  be16 (ofBe16 hi lo) = [hi, lo]
  := by
  rw [be16, ofBe16, BitVec.extractLsb'_append_eq_left, BitVec.extractLsb'_append_eq_right]

/-- The value of the two bytes at an offset, in network order. -/
def be16At (bytes : List Byte) (off : ℕ) : Option (BitVec 16) := do
  let hi ← bytes[off]?
  let lo ← bytes[off + 1]?
  return ofBe16 hi lo

/-- Reading back a value that was written after other bytes. -/
theorem be16At_append (front rest : List Byte) (v : BitVec 16) :
  be16At (front ++ (be16 v ++ rest)) front.length = some v
  := by
  have hhi : (front ++ (be16 v ++ rest))[front.length]? = some (v.extractLsb' 8 8) := by
    rw [List.getElem?_append_right (Nat.le_refl _), Nat.sub_self]
    rfl
  have hlo : (front ++ (be16 v ++ rest))[front.length + 1]? = some (v.extractLsb' 0 8) := by
    rw [List.getElem?_append_right (Nat.le_add_right _ 1), Nat.add_sub_cancel_left]
    rfl
  simp only [be16At, hhi, hlo, Option.bind_eq_bind, Option.bind_some, Option.pure_def,
    ofBe16_extract]

/-- What is appended does not change the bytes before. -/
theorem be16At_append_left {bytes : List Byte} {off : ℕ} (h : off + 1 < bytes.length)
    (rest : List Byte) :
  be16At (bytes ++ rest) off = be16At bytes off
  := by
  rw [be16At, List.getElem?_append_left (by omega), List.getElem?_append_left h]
  rfl

theorem exists_be16At {bytes : List Byte} {off : ℕ} :
  (∃ v, be16At bytes off = some v) ↔ off + 1 < bytes.length
  := by
  constructor
  · rintro ⟨v, hv⟩
    simp only [be16At, Option.bind_eq_bind, Option.bind_eq_some_iff] at hv
    obtain ⟨_, -, lo, hlo, -⟩ := hv
    apply (List.getElem?_eq_some_iff.mp hlo).1
  · intro h
    rw [be16At, List.getElem?_eq_getElem (Nat.lt_of_succ_lt h), List.getElem?_eq_getElem h]
    exact ⟨_, rfl⟩

/-! ### Four bytes in memory -/

/-- The bytes of a value in memory, the lowest first. -/
def le32 (v : BitVec 32) : List Byte :=
  [v.extractLsb' 0 8, v.extractLsb' 8 8, v.extractLsb' 16 8, v.extractLsb' 24 8]

/-- The value of four bytes in memory. -/
def ofLe32 (a b c d : Byte) : BitVec 32 := d ++ c ++ b ++ a

@[simp]
theorem length_le32 (v : BitVec 32) :
  (le32 v).length = 4
  := rfl

@[simp]
theorem ofLe32_extract (v : BitVec 32) :
  ofLe32 (v.extractLsb' 0 8) (v.extractLsb' 8 8) (v.extractLsb' 16 8) (v.extractLsb' 24 8) = v
  := by
  have hhigh : v.extractLsb' 24 8 ++ v.extractLsb' 16 8 = v.extractLsb' 16 16 :=
    BitVec.extractLsb'_append_extractLsb'_eq_extractLsb' rfl
  have hhigher : v.extractLsb' 16 16 ++ v.extractLsb' 8 8 = v.extractLsb' 8 24 :=
    BitVec.extractLsb'_append_extractLsb'_eq_extractLsb' rfl
  rw [ofLe32, hhigh, hhigher]
  apply BitVec.extractLsb'_append_extractLsb'

@[simp]
theorem le32_ofLe32 (a b c d : Byte) :
  le32 (ofLe32 a b c d) = [a, b, c, d]
  := by
  have ha : (ofLe32 a b c d).extractLsb' 0 8 = a := BitVec.extractLsb'_append_eq_right
  have hb : (ofLe32 a b c d).extractLsb' 8 8 = (d ++ c ++ b).extractLsb' 0 8 :=
    BitVec.extractLsb'_append_eq_of_le (by decide)
  have hc : (ofLe32 a b c d).extractLsb' 16 8 = (d ++ c).extractLsb' 0 8 := by
    apply (BitVec.extractLsb'_append_eq_of_le (by decide)).trans
    apply BitVec.extractLsb'_append_eq_of_le (by decide)
  have hd : (ofLe32 a b c d).extractLsb' 24 8 = d := by
    apply (BitVec.extractLsb'_append_eq_of_le (by decide)).trans
    apply (BitVec.extractLsb'_append_eq_of_le (by decide)).trans
    apply BitVec.extractLsb'_append_eq_left
  rw [le32, ha, hb, hc, hd, BitVec.extractLsb'_append_eq_right, BitVec.extractLsb'_append_eq_right]

/-- The value of the four bytes at an offset, in the order of the host. -/
def le32At (bytes : List Byte) (off : ℕ) : Option (BitVec 32) := do
  let a ← bytes[off]?
  let b ← bytes[off + 1]?
  let c ← bytes[off + 2]?
  let d ← bytes[off + 3]?
  return ofLe32 a b c d

theorem exists_le32At {bytes : List Byte} {off : ℕ} :
  (∃ v, le32At bytes off = some v) ↔ off + 3 < bytes.length
  := by
  constructor
  · rintro ⟨v, hv⟩
    simp only [le32At, Option.bind_eq_bind, Option.bind_eq_some_iff] at hv
    obtain ⟨_, -, _, -, _, -, d, hd, -⟩ := hv
    apply (List.getElem?_eq_some_iff.mp hd).1
  · intro h
    rw [le32At, List.getElem?_eq_getElem (by omega : off < bytes.length),
      List.getElem?_eq_getElem (by omega : off + 1 < bytes.length),
      List.getElem?_eq_getElem (by omega : off + 2 < bytes.length), List.getElem?_eq_getElem h]
    exact ⟨_, rfl⟩

/-- Reading behind other bytes. -/
theorem le32At_append_right (front bytes : List Byte) (off : ℕ) :
  le32At (front ++ bytes) (front.length + off) = le32At bytes off
  := by
  have hbyte : ∀ i, (front ++ bytes)[front.length + off + i]? = bytes[off + i]? := by
    intro i
    rw [List.getElem?_append_right (by omega), Nat.add_assoc, Nat.add_sub_cancel_left]
  have hbyte₀ := hbyte 0
  rw [Nat.add_zero, Nat.add_zero] at hbyte₀
  rw [le32At, hbyte₀, hbyte 1, hbyte 2, hbyte 3]
  rfl

/-- Reading back a value that was written after other bytes. -/
theorem le32At_append (front rest : List Byte) (v : BitVec 32) :
  le32At (front ++ (le32 v ++ rest)) front.length = some v
  := by
  rw [← Nat.add_zero front.length, le32At_append_right]
  apply congrArg some (ofLe32_extract v)

/-! ### Two bytes in memory -/

/-- The bytes of a value in memory, the lower first. -/
def le16 (v : BitVec 16) : List Byte := [v.extractLsb' 0 8, v.extractLsb' 8 8]

/-- The value of the two bytes at an offset, in the order of the host. -/
def le16At (bytes : List Byte) (off : ℕ) : Option (BitVec 16) := do
  let lo ← bytes[off]?
  let hi ← bytes[off + 1]?
  return hi ++ lo

@[simp]
theorem length_le16 (v : BitVec 16) :
  (le16 v).length = 2
  := rfl

/-- Reading back a value that was written after other bytes. -/
theorem le16At_append (front rest : List Byte) (v : BitVec 16) :
  le16At (front ++ (le16 v ++ rest)) front.length = some v
  := by
  have hlo : (front ++ (le16 v ++ rest))[front.length]? = some (v.extractLsb' 0 8) := by
    rw [List.getElem?_append_right (Nat.le_refl _), Nat.sub_self]
    rfl
  have hhi : (front ++ (le16 v ++ rest))[front.length + 1]? = some (v.extractLsb' 8 8) := by
    rw [List.getElem?_append_right (Nat.le_add_right _ 1), Nat.add_sub_cancel_left]
    rfl
  rw [le16At, hlo, hhi]
  apply congrArg some (ofBe16_extract v)

/-! ### Values in memory -/

/-- The value at an offset of the memory, in network order. -/
def be16In (mem : ℕ → Byte) (off : ℕ) : BitVec 16 := ofBe16 (mem off) (mem (off + 1))

/-- The value at an offset of the memory, in the order of the host. -/
def le32In (mem : ℕ → Byte) (off : ℕ) : BitVec 32 :=
  ofLe32 (mem off) (mem (off + 1)) (mem (off + 2)) (mem (off + 3))

@[simp]
theorem be16In_write (mem : ℕ → Byte) (off : ℕ) (v : BitVec 16) :
  be16In (Memory.write mem off (be16 v)) off = v
  := by
  have hbyte : ∀ i b, (be16 v)[i]? = some b → Memory.write mem off (be16 v) (off + i) = b :=
    fun i b h => Memory.write_add mem off h
  have h0 := hbyte 0 _ rfl
  rw [Nat.add_zero] at h0
  rw [be16In, h0, hbyte 1 _ rfl, ofBe16_extract]

@[simp]
theorem le32In_write (mem : ℕ → Byte) (off : ℕ) (v : BitVec 32) :
  le32In (Memory.write mem off (le32 v)) off = v
  := by
  have hbyte : ∀ i b, (le32 v)[i]? = some b → Memory.write mem off (le32 v) (off + i) = b :=
    fun i b h => Memory.write_add mem off h
  have h0 := hbyte 0 _ rfl
  rw [Nat.add_zero] at h0
  rw [le32In, h0, hbyte 1 _ rfl, hbyte 2 _ rfl, hbyte 3 _ rfl, ofLe32_extract]

/-- A value is determined by its bytes. -/
theorem be16In_congr {mem mem' : ℕ → Byte} {off : ℕ}
    (h : ∀ i, off ≤ i → i < off + 2 → mem' i = mem i) :
  be16In mem' off = be16In mem off
  := by
  rw [be16In, be16In, h off (by omega) (by omega), h (off + 1) (by omega) (by omega)]

theorem le32In_congr {mem mem' : ℕ → Byte} {off : ℕ}
    (h : ∀ i, off ≤ i → i < off + 4 → mem' i = mem i) :
  le32In mem' off = le32In mem off
  := by
  rw [le32In, le32In, h off (by omega) (by omega), h (off + 1) (by omega) (by omega),
    h (off + 2) (by omega) (by omega), h (off + 3) (by omega) (by omega)]
