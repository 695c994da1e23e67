import Mathlib.Algebra.Group.Int.Defs
import Mathlib.Algebra.Group.Nat.Defs
import Mathlib.Data.Int.Init
import Mathlib.Data.List.GetD
import Mathlib.Tactic.Common

/-!
# Blocks of memory and machine integers

A block of memory is a list of cells. Loading from it and storing to it fail (`none`) when a
cell outside of the block would be touched. `Memory.store` is described cell by cell
(`Memory.getElem?_of_store`), and so is `Memory.load`.

`Memory.write` writes to memory that has no end, for code that does not check bounds.

`sizeToInt`, `intToSize` and `sizeSub` are the conversions between a 64-bit unsigned and a
32-bit signed integer and the subtraction of the former, as ℕ and ℤ hold them.
-/

namespace Memory

variable {α : Type*}

/-- The `n` cells from `off` on. -/
def load (mem : List α) (off n : ℕ) : Option (List α) :=
  if off + n ≤ mem.length then some ((mem.drop off).take n) else none

/-- The block with `data` written from `off` on. -/
def store (mem : List α) (off : ℕ) (data : List α) : Option (List α) :=
  if off + data.length ≤ mem.length then
    some (mem.take off ++ data ++ mem.drop (off + data.length))
  else none

/-- Within the block loading succeeds, and gives the cells in their order. -/
theorem load_eq_some {mem xs : List α} {off n : ℕ} (hxs : xs.length = n)
    (h : off + n ≤ mem.length) (hget : ∀ i < n, mem[off + i]? = xs[i]?) :
  load mem off n = some xs
  := by
  rw [load, if_pos h]
  congr 1
  apply List.ext_getElem?
  intro i
  rw [List.getElem?_take, List.getElem?_drop]
  split_ifs with hi
  · apply hget i hi
  · rw [List.getElem?_eq_none (by omega)]

/-- Within the block storing succeeds. -/
theorem exists_store {mem data : List α} {off : ℕ} (h : off + data.length ≤ mem.length) :
  ∃ mem', store mem off data = some mem'
  := by
  rw [store, if_pos h]
  exact ⟨_, rfl⟩

/-- Storing does not change the size of a block. -/
theorem length_of_store {mem mem' data : List α} {off : ℕ} (h : store mem off data = some mem') :
  mem'.length = mem.length
  := by
  rw [store] at h
  split_ifs at h with hle
  obtain rfl := Option.some.inj h
  simp only [List.length_append, List.length_take, List.length_drop]
  omega

/-- The cells after a store: those that were written, and the others as they were. -/
theorem getElem?_of_store {mem mem' data : List α} {off : ℕ}
    (h : store mem off data = some mem') (i : ℕ) :
  mem'[i]? = if off ≤ i ∧ i < off + data.length then data[i - off]? else mem[i]?
  := by
  rw [store] at h
  split_ifs at h with hle
  obtain rfl := Option.some.inj h
  have htake : (mem.take off).length = off := by
    rw [List.length_take]
    omega
  by_cases hlt : i < off
  · rw [if_neg (by omega), List.append_assoc, List.getElem?_append_left (by omega),
      List.getElem?_take, if_pos hlt]
  by_cases hin : i < off + data.length
  · rw [if_pos (by omega), List.append_assoc, List.getElem?_append_right (by omega), htake,
      List.getElem?_append_left (by omega)]
  · rw [if_neg (by omega), List.append_assoc, List.getElem?_append_right (by omega), htake,
      List.getElem?_append_right (by omega), List.getElem?_drop]
    congr 1
    omega

/-- A block can be cut before any of its cells. -/
theorem exists_cut {mem : List α} {n : ℕ} (h : n ≤ mem.length) :
  ∃ front back, mem = front ++ back ∧ front.length = n
  := ⟨mem.take n, mem.drop n, (List.take_append_drop n mem).symm, List.length_take_of_le h⟩

/-- A block can be cut into two parts of given lengths and the rest. -/
theorem exists_cut₂ {mem : List α} {m n : ℕ} (h : m + n ≤ mem.length) :
  ∃ front mid back, mem = front ++ (mid ++ back) ∧ front.length = m ∧ mid.length = n
  := by
  obtain ⟨front, rest, rfl, hfront⟩ := exists_cut (Nat.le_of_add_right_le h)
  rw [List.length_append, hfront] at h
  obtain ⟨mid, back, rfl, hmid⟩ := exists_cut (Nat.le_of_add_le_add_left h)
  exact ⟨front, mid, back, rfl, hfront, hmid⟩

/-- Loading the middle one of three parts. -/
theorem load_append (front mid back : List α) :
  load (front ++ (mid ++ back)) front.length mid.length = some mid
  := by
  have hle : front.length + mid.length ≤ (front ++ (mid ++ back)).length := by
    simp only [List.length_append]
    omega
  rw [load, if_pos hle, List.drop_left, List.take_left]

/-- Storing over the middle one of three parts. -/
theorem store_append {front mid back data : List α} (h : mid.length = data.length) :
  store (front ++ (mid ++ back)) front.length data = some (front ++ (data ++ back))
  := by
  have hle : front.length + data.length ≤ (front ++ (mid ++ back)).length := by
    simp only [List.length_append]
    omega
  rw [store, if_pos hle, List.take_left, ← List.drop_drop, List.drop_left, ← h, List.drop_left,
    List.append_assoc]

/-- Storing in a block that has more cells after it. -/
theorem store_append_left {mem mem' data : List α} {off : ℕ}
    (h : store mem off data = some mem') (back : List α) :
  store (mem ++ back) off data = some (mem' ++ back)
  := by
  rw [store] at h ⊢
  split_ifs at h with hle
  obtain rfl := Option.some.inj h
  have hle' : off + data.length ≤ (mem ++ back).length := by
    rw [List.length_append]
    omega
  rw [if_pos hle', List.take_append_of_le_length (by omega), List.drop_append_of_le_length hle,
    List.append_assoc, List.append_assoc, List.append_assoc]

/-- Storing in a block that has more cells before it. -/
theorem store_append_right {mem mem' data : List α} {off : ℕ}
    (h : store mem off data = some mem') (front : List α) :
  store (front ++ mem) (front.length + off) data = some (front ++ mem')
  := by
  rw [store] at h ⊢
  split_ifs at h with hle
  obtain rfl := Option.some.inj h
  have hle' : front.length + off + data.length ≤ (front ++ mem).length := by
    rw [List.length_append]
    omega
  rw [if_pos hle', Nat.add_assoc, List.take_length_add_append, List.drop_length_add_append,
    List.append_assoc, List.append_assoc, List.append_assoc]

/-! ### Memory without end -/

/-- The memory with `data` written from `off` on. -/
def write (mem : ℕ → α) (off : ℕ) (data : List α) : ℕ → α :=
  fun i => if off ≤ i then (data[i - off]?).getD (mem i) else mem i

/-- The cells before the data are as they were. -/
theorem write_of_lt (mem : ℕ → α) (data : List α) {off i : ℕ} (h : i < off) :
  write mem off data i = mem i
  := if_neg (Nat.not_le_of_gt h)

/-- The cells after the data are as they were. -/
theorem write_of_le (mem : ℕ → α) (data : List α) {off i : ℕ} (h : off + data.length ≤ i) :
  write mem off data i = mem i
  := by
  rw [write, if_pos (by omega), List.getElem?_eq_none (by omega), Option.getD_none]

/-- The cells of the data. -/
theorem write_add (mem : ℕ → α) (off : ℕ) {data : List α} {i : ℕ} {v : α}
    (h : data[i]? = some v) :
  write mem off data (off + i) = v
  := by
  rw [write, if_pos (Nat.le_add_right off i), Nat.add_sub_cancel_left, h, Option.getD_some]

end Memory

/-! ### Machine integers -/

/-- The conversion of a `size_t` to an `int`. -/
def sizeToInt (n : ℕ) : ℤ := (n : ℤ).bmod (2 ^ 32)

/-- The conversion of an `int` to a `size_t`. -/
def intToSize (i : ℤ) : ℕ := (i % 2 ^ 64).toNat

/-- The subtraction of `size_t`. -/
def sizeSub (m n : ℕ) : ℕ := (m + (2 ^ 64 - n)) % 2 ^ 64

theorem sizeToInt_of_lt {n : ℕ} (h : n < 2 ^ 31) :
  sizeToInt n = n
  := by
  unfold sizeToInt
  apply Int.bmod_eq_of_le <;> omega

theorem intToSize_natCast {n : ℕ} (h : n < 2 ^ 64) :
  intToSize n = n
  := by
  rw [intToSize]
  omega

theorem sizeSub_of_le {m n : ℕ} (hle : n ≤ m) (h : m < 2 ^ 64) :
  sizeSub m n = m - n
  := by
  rw [sizeSub]
  omega
