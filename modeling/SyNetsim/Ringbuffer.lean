import SyNetsim.Lib.Bytes
import SyNetsim.Lib.Memory
import SyNetsim.Lib.Queue

/-!
# The ring buffer

`ringbuffer.c`: a byte queue in a block of `size + 1` bytes, with the indices of its first byte
and of the byte after its last one. Every copy from or to the block is checked: a function
gives `none` where the source would touch a byte outside of it. The contents of the block are
arbitrary at first, as `malloc` leaves them.

`RingBuffer.Represents n rb q` relates a buffer to the bytes `q` it holds, and each function has
a lemma that says what it does to them. `RingBuffer.refines_queue` compares whole sequences of
calls with the bounded queue of `Lib.Queue`.
-/

/-- `RingBuffer`, with the block that `buf` points to. -/
structure RingBuffer where
  size : ℕ
  maxOffset : ℕ
  head : ℕ
  tail : ℕ
  buf : List Byte
deriving DecidableEq

namespace RingBuffer

/-- `RB_BUFFER_FULL`. -/
def bufferFull : ℤ := -1

/-- `RB_BUFFER_DATA_NOT_ENOUGH`. -/
def bufferDataNotEnough : ℤ := -2

/-- `RingBuffer_new`, with what the allocated block contains. -/
def new (size : ℕ) (block : Vector Byte (size + 1)) : RingBuffer :=
  { size := size, maxOffset := size, head := 0, tail := 0, buf := block.toList }

/-- `RingBuffer_drop_buffer`. -/
def dropBuffer (rb : RingBuffer) : RingBuffer := { rb with head := 0, tail := 0 }

/-- `RingBuffer_get_remain_bufsize`. -/
def getRemainBufsize (rb : RingBuffer) : ℕ :=
  if rb.head = rb.tail then
    -- The buffer is empty.
    rb.size
  else if rb.head < rb.tail then
    let inUse := sizeToInt (sizeSub rb.tail rb.head)
    sizeSub rb.size (intToSize inUse)
  else
    let diff := sizeToInt (sizeSub rb.head rb.tail)
    intToSize (diff - 1)

/-- `RingBuffer_get_readable_bufsize`. -/
def getReadableBufsize (rb : RingBuffer) : ℕ := sizeSub rb.size rb.getRemainBufsize

/-- `RingBuffer_push`: the buffer afterwards and the returned value. The `len` of the source
is the length of `data`. -/
def push (rb : RingBuffer) (data : List Byte) : Option (RingBuffer × ℤ) :=
  let len : ℤ := data.length
  let remain := sizeToInt rb.getRemainBufsize
  if len > remain then some (rb, bufferFull)
  else
    let contRemain := sizeToInt (sizeSub rb.maxOffset rb.tail + 1)
    if contRemain < len then do
      -- Write through each edge of the buffer.
      let first ← Memory.load data 0 (intToSize contRemain)
      let buf ← Memory.store rb.buf rb.tail first
      let second ← Memory.load data (intToSize contRemain) (intToSize (len - contRemain))
      let buf ← Memory.store buf 0 second
      return ({ rb with tail := intToSize (len - contRemain), buf := buf }, len)
    else do
      let buf ← Memory.store rb.buf rb.tail data
      return ({ rb with tail := (rb.tail + data.length) % (rb.maxOffset + 1), buf := buf }, len)

/-- `RingBuffer_read_internal`: the buffer afterwards, the returned value and the bytes that are
copied to the caller. -/
def readInternal (rb : RingBuffer) (readlen : ℕ) (doPop : Bool) :
    Option (RingBuffer × ℤ × List Byte) :=
  let readable := sizeToInt rb.getReadableBufsize
  if (readlen : ℤ) > readable then some (rb, bufferDataNotEnough, [])
  else
    let contReadable := sizeToInt (sizeSub rb.maxOffset rb.head + 1)
    if contReadable < readlen then do
      -- Read through each edge of the buffer.
      let first ← Memory.load rb.buf rb.head (intToSize contReadable)
      let second ← Memory.load rb.buf 0 (intToSize (readlen - contReadable))
      let rb := if doPop then { rb with head := intToSize (readlen - contReadable) } else rb
      return (rb, readlen, first ++ second)
    else do
      let data ← Memory.load rb.buf rb.head readlen
      let rb := if doPop then { rb with head := (rb.head + readlen) % (rb.maxOffset + 1) } else rb
      return (rb, readlen, data)

/-- `RingBuffer_read`. -/
def read (rb : RingBuffer) (readlen : ℕ) : Option (RingBuffer × ℤ × List Byte) :=
  rb.readInternal readlen false

/-- `RingBuffer_pop`. -/
def pop (rb : RingBuffer) (readlen : ℕ) : Option (RingBuffer × ℤ × List Byte) :=
  rb.readInternal readlen true

/-! ### The bytes of a buffer -/

/-- `Represents n rb q`: a buffer made for `n` bytes holds the bytes `q`. -/
structure Represents (n : ℕ) (rb : RingBuffer) (q : List Byte) : Prop where
  size : rb.size = n
  maxOffset : rb.maxOffset = n
  length_buf : rb.buf.length = n + 1
  head_le : rb.head ≤ n
  length_le : q.length ≤ n
  tail : rb.tail = (rb.head + q.length) % (n + 1)
  get : ∀ i < q.length, rb.buf[(rb.head + i) % (n + 1)]? = q[i]?

/-- An index of the block goes over the edge at most once. -/
theorem index_eq {n head i : ℕ} (hhead : head ≤ n) (hi : i ≤ n + 1) :
  (head + i) % (n + 1) = if head + i ≤ n then head + i else head + i - (n + 1)
  := by
  split_ifs with h
  · apply Nat.mod_eq_of_lt
    omega
  · rw [Nat.mod_eq_sub_mod (by omega)]
    apply Nat.mod_eq_of_lt
    omega

namespace Represents

variable {n : ℕ} {rb : RingBuffer} {q : List Byte}

/-- The index after the last byte, without a remainder. -/
theorem tail_eq (h : Represents n rb q) :
  rb.tail = if rb.head + q.length ≤ n then rb.head + q.length else rb.head + q.length - (n + 1)
  := by
  have hlen := h.length_le
  rw [h.tail, index_eq h.head_le (by omega)]

theorem tail_le (h : Represents n rb q) :
  rb.tail ≤ n
  := by
  rw [h.tail]
  apply Nat.le_of_lt_succ
  apply Nat.mod_lt
  omega

/-- A fresh buffer is empty. -/
theorem new (n : ℕ) (block : Vector Byte (n + 1)) :
  Represents n (RingBuffer.new n block) []
  where
  size := rfl
  maxOffset := rfl
  length_buf := by rw [RingBuffer.new, Vector.length_toList]
  head_le := Nat.zero_le n
  length_le := Nat.zero_le n
  tail := rfl
  get := by
    rintro i hi
    cases hi

/-- Dropping leaves an empty buffer. -/
theorem dropBuffer (h : Represents n rb q) :
  Represents n rb.dropBuffer []
  where
  size := h.size
  maxOffset := h.maxOffset
  length_buf := h.length_buf
  head_le := Nat.zero_le n
  length_le := Nat.zero_le n
  tail := rfl
  get := by
    rintro i hi
    cases hi

/-- A block that has new bytes from the tail on, and the old ones where they were, holds both. -/
theorem append (h : Represents n rb q) {data buf : List Byte} {tail : ℕ}
    (hfit : q.length + data.length ≤ n) (hlength : buf.length = n + 1)
    (htail : tail = (rb.tail + data.length) % (n + 1))
    (hold : ∀ i < q.length, buf[(rb.head + i) % (n + 1)]? = rb.buf[(rb.head + i) % (n + 1)]?)
    (hnew : ∀ i < data.length, buf[(rb.tail + i) % (n + 1)]? = data[i]?) :
  Represents n { rb with tail := tail, buf := buf } (q ++ data)
  where
  size := h.size
  maxOffset := h.maxOffset
  length_buf := hlength
  head_le := h.head_le
  length_le := by
    rw [List.length_append]
    apply hfit
  tail := by
    rw [htail, h.tail, Nat.mod_add_mod, List.length_append, Nat.add_assoc]
  get := by
    intro i hi
    rw [List.length_append] at hi
    by_cases hq : i < q.length
    · rw [List.getElem?_append_left hq, ← h.get i hq]
      apply hold i hq
    · rw [List.getElem?_append_right (by omega), ← hnew (i - q.length) (by omega), h.tail,
        Nat.mod_add_mod]
      have hsum : rb.head + i = rb.head + q.length + (i - q.length) := by omega
      rw [hsum]

variable (hn : n < 2 ^ 31 - 1)
include hn

/-- The remaining size is what the bytes leave of the capacity. -/
theorem getRemainBufsize (h : Represents n rb q) :
  rb.getRemainBufsize = n - q.length
  := by
  have hhead := h.head_le
  have htail := h.tail_eq
  have htail_le := h.tail_le
  have hlen := h.length_le
  rw [RingBuffer.getRemainBufsize, h.size]
  split_ifs with heq hlt
  · split_ifs at htail <;> omega
  · simp only
    rw [sizeSub_of_le hlt.le (by omega), sizeToInt_of_lt (by omega), intToSize_natCast (by omega),
      sizeSub_of_le (by omega) (by omega)]
    split_ifs at htail <;> omega
  · have hdiff : ((rb.head - rb.tail : ℕ) : ℤ) - 1 = (rb.head - rb.tail - 1 : ℕ) := by omega
    simp only
    rw [sizeSub_of_le (by omega) (by omega), sizeToInt_of_lt (by omega), hdiff,
      intToSize_natCast (by omega)]
    split_ifs at htail <;> omega

/-- The readable size is the number of bytes. -/
theorem getReadableBufsize (h : Represents n rb q) :
  rb.getReadableBufsize = q.length
  := by
  have hlen := h.length_le
  rw [RingBuffer.getReadableBufsize, h.getRemainBufsize hn, h.size,
    sizeSub_of_le (by omega) (by omega)]
  omega

/-- A push that does not fit is refused. -/
theorem push_full (h : Represents n rb q) {data : List Byte} (hfull : n < q.length + data.length) :
  rb.push data = some (rb, bufferFull)
  := by
  have hlen := h.length_le
  have hremain : (data.length : ℤ) > sizeToInt rb.getRemainBufsize := by
    rw [h.getRemainBufsize hn, sizeToInt_of_lt (by omega)]
    omega
  simp only [RingBuffer.push, if_pos hremain]

/-- A push that fits appends its bytes. -/
theorem push (h : Represents n rb q) {data : List Byte} (hfit : q.length + data.length ≤ n) :
  ∃ rb', rb.push data = some (rb', (data.length : ℤ)) ∧ Represents n rb' (q ++ data)
  := by
  have hhead := h.head_le
  have htail := h.tail_eq
  have htail_le := h.tail_le
  have hbuf := h.length_buf
  have hroom : ¬ (data.length : ℤ) > sizeToInt rb.getRemainBufsize := by
    rw [h.getRemainBufsize hn, sizeToInt_of_lt (by omega)]
    omega
  have hcont : sizeToInt (sizeSub rb.maxOffset rb.tail + 1) = (n - rb.tail + 1 : ℕ) := by
    rw [h.maxOffset, sizeSub_of_le htail_le (by omega), sizeToInt_of_lt (by omega)]
  simp only [RingBuffer.push, if_neg hroom, hcont]
  split_ifs with hwrap
  · -- The bytes go over the edge of the block.
    set cont := n - rb.tail + 1 with hcont_eq
    have hsplit : (data.length : ℤ) - cont = (data.length - cont : ℕ) := by omega
    have hfirst : Memory.load data 0 cont = some (data.take cont) := by
      rw [Memory.load, if_pos (by omega), List.drop_zero]
    have hsecond : Memory.load data cont (data.length - cont) = some (data.drop cont) := by
      rw [Memory.load, if_pos (by omega), List.take_of_length_le]
      rw [List.length_drop]
    have htake : (data.take cont).length = cont := by
      rw [List.length_take]
      omega
    have hdrop : (data.drop cont).length = data.length - cont := List.length_drop
    obtain ⟨buf₁, hbuf₁⟩ : ∃ buf, Memory.store rb.buf rb.tail (data.take cont) = some buf :=
      Memory.exists_store (by omega)
    have hlen₁ := Memory.length_of_store hbuf₁
    obtain ⟨buf₂, hbuf₂⟩ : ∃ buf, Memory.store buf₁ 0 (data.drop cont) = some buf :=
      Memory.exists_store (by omega)
    refine ⟨{ rb with tail := data.length - cont, buf := buf₂ }, ?_, ?_⟩
    · rw [hsplit, intToSize_natCast (by omega), intToSize_natCast (by omega), hfirst, hsecond]
      simp only [Option.bind_eq_bind, Option.bind_some, hbuf₁, hbuf₂, Option.pure_def]
    · apply h.append hfit
      · rw [Memory.length_of_store hbuf₂, hlen₁, hbuf]
      · rw [index_eq htail_le (by omega), if_neg (by omega)]
        omega
      · intro i hi
        rw [Memory.getElem?_of_store hbuf₂, Memory.getElem?_of_store hbuf₁,
          index_eq hhead (by omega), htake, hdrop]
        split_ifs at htail ⊢ <;> first | rfl | omega
      · intro i hi
        by_cases hi' : i < cont
        · have hidx : (rb.tail + i) % (n + 1) = rb.tail + i := Nat.mod_eq_of_lt (by omega)
          rw [hidx, Memory.getElem?_of_store hbuf₂, if_neg (by omega),
            Memory.getElem?_of_store hbuf₁, if_pos (by omega), Nat.add_sub_cancel_left,
            List.getElem?_take, if_pos hi']
        · have hidx : (rb.tail + i) % (n + 1) = i - cont := by
            rw [index_eq htail_le (by omega), if_neg (by omega)]
            omega
          have hsum : cont + (i - cont - 0) = i := by omega
          rw [hidx, Memory.getElem?_of_store hbuf₂, if_pos (by omega), List.getElem?_drop, hsum]
  · -- The bytes stay below the edge.
    obtain ⟨buf, hbuf'⟩ : ∃ buf, Memory.store rb.buf rb.tail data = some buf :=
      Memory.exists_store (by omega)
    refine ⟨{ rb with tail := (rb.tail + data.length) % (n + 1), buf := buf }, ?_, ?_⟩
    · rw [hbuf', h.maxOffset]
      rfl
    · apply h.append hfit
      · rw [Memory.length_of_store hbuf', hbuf]
      · rfl
      · intro i hi
        rw [Memory.getElem?_of_store hbuf', index_eq hhead (by omega)]
        split_ifs at htail ⊢ <;> first | rfl | omega
      · intro i hi
        have hidx : (rb.tail + i) % (n + 1) = rb.tail + i := Nat.mod_eq_of_lt (by omega)
        rw [hidx, Memory.getElem?_of_store hbuf', if_pos (by omega), Nat.add_sub_cancel_left]

/-- Reading more than there is is refused. -/
theorem readInternal_short (h : Represents n rb q) {readlen : ℕ} (doPop : Bool)
    (hshort : q.length < readlen) :
  rb.readInternal readlen doPop = some (rb, bufferDataNotEnough, [])
  := by
  have hlen := h.length_le
  have hreadable : (readlen : ℤ) > sizeToInt rb.getReadableBufsize := by
    rw [h.getReadableBufsize hn, sizeToInt_of_lt (by omega)]
    omega
  simp only [RingBuffer.readInternal, if_pos hreadable]

/-- Reading gives the first bytes, and the head moves behind them when they are popped. -/
theorem readInternal (h : Represents n rb q) {readlen : ℕ} (doPop : Bool)
    (hle : readlen ≤ q.length) :
  rb.readInternal readlen doPop = some
    (if doPop then { rb with head := (rb.head + readlen) % (n + 1) } else rb, (readlen : ℤ),
      q.take readlen)
  := by
  have hhead := h.head_le
  have hlen := h.length_le
  have hbuf := h.length_buf
  have henough : ¬ (readlen : ℤ) > sizeToInt rb.getReadableBufsize := by
    rw [h.getReadableBufsize hn, sizeToInt_of_lt (by omega)]
    omega
  have hcont : sizeToInt (sizeSub rb.maxOffset rb.head + 1) = (n - rb.head + 1 : ℕ) := by
    rw [h.maxOffset, sizeSub_of_le hhead (by omega), sizeToInt_of_lt (by omega)]
  have htake : (q.take readlen).length = readlen := by
    rw [List.length_take]
    omega
  have hget : ∀ i < readlen, rb.buf[(rb.head + i) % (n + 1)]? = (q.take readlen)[i]? := by
    intro i hi
    rw [List.getElem?_take, if_pos hi]
    apply h.get
    omega
  simp only [RingBuffer.readInternal, if_neg henough, hcont]
  by_cases hwrap : ((n - rb.head + 1 : ℕ) : ℤ) < readlen
  · -- The bytes go over the edge of the block.
    set cont := n - rb.head + 1 with hcont_eq
    have hsplit : (readlen : ℤ) - cont = (readlen - cont : ℕ) := by omega
    have hfirst : Memory.load rb.buf rb.head cont = some ((q.take readlen).take cont) := by
      apply Memory.load_eq_some
      · rw [List.length_take]
        omega
      · omega
      · intro i hi
        have hidx : (rb.head + i) % (n + 1) = rb.head + i := Nat.mod_eq_of_lt (by omega)
        rw [List.getElem?_take, if_pos hi, ← hget i (by omega), hidx]
    have hsecond : Memory.load rb.buf 0 (readlen - cont) = some ((q.take readlen).drop cont) := by
      apply Memory.load_eq_some
      · rw [List.length_drop]
        omega
      · omega
      · intro i hi
        have hidx : (rb.head + (cont + i)) % (n + 1) = 0 + i := by
          rw [index_eq hhead (by omega), if_neg (by omega)]
          omega
        rw [List.getElem?_drop, ← hget (cont + i) (by omega), hidx]
    have hhead' : readlen - cont = (rb.head + readlen) % (n + 1) := by
      rw [index_eq hhead (by omega), if_neg (by omega)]
      omega
    rw [if_pos hwrap, hsplit, intToSize_natCast (by omega), intToSize_natCast (by omega), hfirst,
      hsecond, hhead']
    simp only [Option.bind_eq_bind, Option.bind_some, Option.pure_def, List.take_append_drop]
  · -- The bytes stay below the edge.
    have hload : Memory.load rb.buf rb.head readlen = some (q.take readlen) := by
      apply Memory.load_eq_some htake (by omega)
      intro i hi
      have hidx : (rb.head + i) % (n + 1) = rb.head + i := Nat.mod_eq_of_lt (by omega)
      rw [← hget i hi, hidx]
    rw [if_neg hwrap, hload, h.maxOffset]
    rfl

/-- A read leaves the buffer as it is and gives the first bytes. -/
theorem read (h : Represents n rb q) {readlen : ℕ} (hle : readlen ≤ q.length) :
  rb.read readlen = some (rb, (readlen : ℤ), q.take readlen)
  := h.readInternal hn false hle

/-- A pop takes the first bytes away. -/
theorem pop (h : Represents n rb q) {readlen : ℕ} (hle : readlen ≤ q.length) :
  ∃ rb', rb.pop readlen = some (rb', (readlen : ℤ), q.take readlen) ∧
    Represents n rb' (q.drop readlen)
  := by
  have hlen := h.length_le
  refine ⟨_, h.readInternal hn true hle, h.size, h.maxOffset, h.length_buf, ?_, ?_, ?_, ?_⟩
  · apply Nat.le_of_lt_succ
    apply Nat.mod_lt
    omega
  · rw [List.length_drop]
    omega
  · simp only [if_true]
    rw [h.tail, Nat.mod_add_mod, List.length_drop]
    congr 1
    omega
  · intro i hi
    rw [List.length_drop] at hi
    simp only [if_true]
    rw [Nat.mod_add_mod, Nat.add_assoc, h.get (readlen + i) (by omega), List.getElem?_drop]

end Represents

/-! ### Sequences of calls -/

/-- What a call gives back: the returned value and the bytes copied to the caller. -/
structure Reply where
  ret : ℤ
  data : List Byte
deriving DecidableEq

/-- Perform a call. -/
def exec (rb : RingBuffer) : Queue.Call Byte → Option (RingBuffer × Reply)
  | .push data => do
      let (rb, ret) ← rb.push data
      return (rb, ⟨ret, []⟩)
  | .read len => do
      let (rb, ret, data) ← rb.read len
      return (rb, ⟨ret, data⟩)
  | .pop len => do
      let (rb, ret, data) ← rb.pop len
      return (rb, ⟨ret, data⟩)
  | .drop => some (rb.dropBuffer, ⟨0, []⟩)

/-- Perform calls one after the other. -/
def execAll (rb : RingBuffer) : List (Queue.Call Byte) → Option (RingBuffer × List Reply)
  | [] => some (rb, [])
  | call :: calls => do
      let (rb, reply) ← rb.exec call
      let (rb, replies) ← rb.execAll calls
      return (rb, reply :: replies)

/-- The reply that stands for an answer of a queue: the length when the call was done, and the
error of the call when it was refused. -/
def replyOf (call : Queue.Call Byte) (answer : Queue.Answer Byte) : Reply :=
  match call with
  | .push data => ⟨if answer.done then data.length else bufferFull, answer.data⟩
  | .read len => ⟨if answer.done then len else bufferDataNotEnough, answer.data⟩
  | .pop len => ⟨if answer.done then len else bufferDataNotEnough, answer.data⟩
  | .drop => ⟨0, answer.data⟩

variable {n : ℕ} {rb : RingBuffer}

/-- A call does to a buffer what it does to the queue of its bytes. -/
theorem Represents.exec (hn : n < 2 ^ 31 - 1) {q : Queue Byte n} (h : Represents n rb q.elems)
    (call : Queue.Call Byte) :
  ∃ rb', rb.exec call = some (rb', replyOf call (q.exec call).2) ∧
    Represents n rb' (q.exec call).1.elems ∧ ((q.exec call).2.done = false → rb' = rb)
  := by
  have hlen := h.length_le
  cases call with
  | push data =>
      by_cases hfit : data.length ≤ n - q.elems.length
      · have hle : q.elems.length + data.length ≤ n := by omega
        obtain ⟨rb', hpush, hrep⟩ := h.push hn hle
        refine ⟨rb', ?_, ?_, ?_⟩
        · simp only [RingBuffer.exec, hpush, Queue.exec, dif_pos hfit, replyOf, if_true,
            Option.bind_eq_bind, Option.bind_some, Option.pure_def]
        · simp only [Queue.exec, dif_pos hfit]
          apply hrep
        · intro hdone
          simp [Queue.exec, dif_pos hfit] at hdone
      · have hfull : n < q.elems.length + data.length := by omega
        refine ⟨rb, ?_, ?_, fun _ => rfl⟩
        · simp [RingBuffer.exec, h.push_full hn hfull, Queue.exec, dif_neg hfit, replyOf]
        · simp only [Queue.exec, dif_neg hfit]
          apply h
  | read len =>
      by_cases hle : len ≤ q.elems.length
      · refine ⟨rb, ?_, ?_, fun _ => rfl⟩
        · simp [RingBuffer.exec, h.read hn hle, Queue.exec, if_pos hle, replyOf]
        · simp only [Queue.exec, if_pos hle]
          apply h
      · refine ⟨rb, ?_, ?_, fun _ => rfl⟩
        · simp [RingBuffer.exec, RingBuffer.read, h.readInternal_short hn false (not_le.mp hle),
            Queue.exec, if_neg hle, replyOf]
        · simp only [Queue.exec, if_neg hle]
          apply h
  | pop len =>
      by_cases hle : len ≤ q.elems.length
      · obtain ⟨rb', hpop, hrep⟩ := h.pop hn hle
        refine ⟨rb', ?_, ?_, ?_⟩
        · simp [RingBuffer.exec, hpop, Queue.exec, if_pos hle, replyOf]
        · simp only [Queue.exec, if_pos hle]
          apply hrep
        · intro hdone
          simp [Queue.exec, if_pos hle] at hdone
      · refine ⟨rb, ?_, ?_, fun _ => rfl⟩
        · simp [RingBuffer.exec, RingBuffer.pop, h.readInternal_short hn true (not_le.mp hle),
            Queue.exec, if_neg hle, replyOf]
        · simp only [Queue.exec, if_neg hle]
          apply h
  | drop => exact ⟨rb.dropBuffer, rfl, h.dropBuffer, fun hdone => by cases hdone⟩

/-- Calls one after the other do to a buffer what they do to the queue of its bytes. -/
theorem Represents.execAll (hn : n < 2 ^ 31 - 1) {q : Queue Byte n}
    (h : Represents n rb q.elems) (calls : List (Queue.Call Byte)) :
  ∃ rb', rb.execAll calls = some (rb', List.zipWith replyOf calls (q.execAll calls).2) ∧
    Represents n rb' (q.execAll calls).1.elems
  := by
  induction calls generalizing rb q with
  | nil => exact ⟨rb, rfl, h⟩
  | cons call calls ih =>
      obtain ⟨rb₁, hexec, hrep₁, -⟩ := h.exec hn call
      obtain ⟨rb₂, hexecAll, hrep₂⟩ := ih hrep₁
      refine ⟨rb₂, ?_, hrep₂⟩
      simp only [RingBuffer.execAll, hexec, Option.bind_eq_bind, Option.bind_some, hexecAll,
        Option.pure_def, Queue.execAll, List.zipWith_cons_cons]

/-- A buffer made for `n` bytes behaves as a queue of at most `n` bytes, for every sequence of
calls: all calls are performed without touching a byte outside of the block, and they reply
what the queue answers; the sizes are those of the queue, and so is what the next call does. A
call that is refused leaves the buffer as it is. -/
theorem refines_queue (n : ℕ) (hn : n < 2 ^ 31 - 1) (block : Vector Byte (n + 1))
    (calls : List (Queue.Call Byte)) :
  let q := (Queue.empty.execAll calls : Queue Byte n × List (Queue.Answer Byte))
  ∃ rb, (new n block).execAll calls = some (rb, List.zipWith replyOf calls q.2) ∧
    rb.getReadableBufsize = q.1.elems.length ∧ rb.getRemainBufsize = n - q.1.elems.length ∧
    rb.buf.length = n + 1 ∧
    ∀ call, ∃ rb', rb.exec call = some (rb', replyOf call (q.1.exec call).2) ∧
      ((q.1.exec call).2.done = false → rb' = rb)
  := by
  intro q
  have hempty : Represents n (new n block) (Queue.empty : Queue Byte n).elems :=
    Represents.new n block
  obtain ⟨rb, hrb, hrep⟩ := hempty.execAll hn calls
  refine ⟨rb, hrb, hrep.getReadableBufsize hn, hrep.getRemainBufsize hn, hrep.length_buf, ?_⟩
  intro call
  obtain ⟨rb', hexec, -, hrefused⟩ := hrep.exec hn call
  exact ⟨rb', hexec, hrefused⟩

/-- A buffer of three bytes that is written and read over its edge, and refuses a push. -/
theorem refines_queue_three :
  ∃ rb, (new 3 (Vector.replicate 4 0)).execAll
      [.push [1, 2, 3], .push [9], .pop 2, .push [4, 5], .read 1, .pop 3] =
    some (rb, [⟨3, []⟩, ⟨-1, []⟩, ⟨2, [1, 2]⟩, ⟨2, []⟩, ⟨1, [3]⟩, ⟨3, [3, 4, 5]⟩]) ∧
    rb.getReadableBufsize = 0 ∧ rb.getRemainBufsize = 3
  := by
  obtain ⟨rb, hrb, hreadable, hremain, -⟩ := refines_queue 3 (by decide) (Vector.replicate 4 0)
    [.push [1, 2, 3], .push [9], .pop 2, .push [4, 5], .read 1, .pop 3]
  exact ⟨rb, hrb, hreadable, hremain⟩

end RingBuffer
