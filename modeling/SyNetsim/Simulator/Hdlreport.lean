import SyNetsim.Simulator.Server

/-!
# Reports to the frontend

`send_json_to_front` of `sim_hdlreport.c` and the reply to a `Status` message of
`handle_remote_conf_msg` put a string into the ring buffer `sendq`: its length with one push, its
bytes with another. The thread `do_server` takes bytes out between any two pushes, and drops the
contents when the frontend disconnects.

The results of the pushes are ignored. `SendRun.well_framed` says that the stream to the frontend
is well framed as long as for every string either both pushes fit or none does, and
`SendRun.not_well_framed` that it is not when only the length fits.
-/

/-- A string that is being queued: its length has been pushed, its bytes not yet. -/
structure Pending where
  json : List Byte
  /-- The room that there was for the length. -/
  room : ℕ
deriving DecidableEq

/-- The way out: the buffer, the string that is being queued, the strings queued since the last
drop and the bytes popped since then. -/
structure SendRun where
  sendq : RingBuffer
  pending : Option Pending
  queued : List (List Byte)
  popped : List Byte

/-- The main loop pushes the length of a string or its bytes; `do_server` pops bytes, or drops the
buffer. -/
inductive SendqEvent where
  | pushLen (json : List Byte)
  | pushJson
  | pop
  | drop

namespace SendRun

/-- The start: an empty buffer. -/
def start (block : Vector Byte (tcpBufferSize + 1)) : SendRun where
  sendq := RingBuffer.new tcpBufferSize block
  pending := none
  queued := []
  popped := []

/-- The first push of `send_json_to_front` and of the reply to `Status`. -/
def pushLen (s : SendRun) (json : List Byte) : Option SendRun := do
  let jsonlen := be16 (.ofNat 16 json.length)
  let (sendq, _) ← s.sendq.push jsonlen
  return { s with
    sendq := sendq
    pending := some ⟨json, s.sendq.getRemainBufsize⟩
    queued := s.queued ++ [json] }

/-- The second push. -/
def pushJson (s : SendRun) (json : List Byte) : Option SendRun := do
  let (sendq, _) ← s.sendq.push json
  return { s with sendq := sendq, pending := none }

/-- A round of the sending loop of `do_server`. -/
def pop (s : SendRun) : Option SendRun :=
  let readable := s.sendq.getReadableBufsize
  if readable = 0 then some s
  else do
    let (sendq, _, buf) ← s.sendq.pop (if readable > tcpIoSize then tcpIoSize else readable)
    return { s with sendq := sendq, popped := s.popped ++ buf }

/-- What an event does. The main loop pushes the bytes of a string after its length and before the
length of the next one. -/
def step (s : SendRun) : SendqEvent → Option SendRun
  | .pushLen json =>
      match s.pending with
      | none => s.pushLen json
      | some _ => none
  | .pushJson =>
      match s.pending with
      | none => none
      | some pending => s.pushJson pending.json
  | .pop => s.pop
  | .drop => some { s with sendq := s.sendq.dropBuffer, queued := [], popped := [] }

/-- What was popped since the last drop is a part of a stream of whole frames, of some of the
queued strings in their order. -/
def WellFramed (s : SendRun) : Prop :=
  ∃ jsons, List.Sublist jsons s.queued ∧ (∀ json ∈ jsons, json.length < 2 ^ 16) ∧
    s.popped <+: frames jsons

/-- A frame is queued whole or not at all: there is room for the bytes of a string when there was
room for its length, and only then; the buffer is not dropped between the two pushes, and the
length of the string is a value of two bytes. -/
def Whole (s : SendRun) : SendqEvent → Prop
  | .pushLen json => json.length < 2 ^ 16
  | .pushJson => ∀ pending ∈ s.pending,
      2 ≤ pending.room ↔ pending.json.length ≤ s.sendq.getRemainBufsize
  | .pop => True
  | .drop => s.pending = none

/-- What the string that is being queued has put into the buffer. -/
def header (s : SendRun) : List Byte :=
  match s.pending with
  | none => []
  | some pending =>
      if 2 ≤ pending.room then be16 (.ofNat 16 pending.json.length) else []

/-- The buffer holds `q`. What was popped and what is in the buffer are together the frames of
`jsons` and what has been pushed of the next one. -/
structure Inv (q : List Byte) (jsons : List (List Byte)) (s : SendRun) : Prop where
  represents : RingBuffer.Represents tcpBufferSize s.sendq q
  stream : s.popped ++ q = frames jsons ++ s.header
  lengths : ∀ json ∈ jsons, json.length < 2 ^ 16
  queued : List.Sublist (jsons ++ (s.pending.map Pending.json).toList) s.queued
  pending : ∀ pending ∈ s.pending, pending.json.length < 2 ^ 16

variable {q : List Byte} {jsons : List (List Byte)} {s : SendRun}

theorem Inv.start (block : Vector Byte (tcpBufferSize + 1)) :
  Inv [] [] (SendRun.start block)
  where
  represents := RingBuffer.Represents.new tcpBufferSize block
  stream := rfl
  lengths _ h := by cases h
  queued := List.Sublist.refl []
  pending _ h := by cases h

theorem Inv.wellFramed (h : Inv q jsons s) :
  s.WellFramed
  := by
  have hinitial : s.popped <+: frames jsons ++ s.header := ⟨q, h.stream⟩
  have hqueued := h.queued
  have hlengths := h.pending
  rw [header] at hinitial
  cases hp : s.pending with
  | none =>
      rw [hp, List.append_nil] at hinitial
      rw [hp] at hqueued
      simp only [Option.map_none, Option.toList_none, List.append_nil] at hqueued
      exact ⟨jsons, hqueued, h.lengths, hinitial⟩
  | some pending =>
      rw [hp] at hinitial hqueued hlengths
      simp only [Option.map_some, Option.toList_some] at hinitial hqueued
      split_ifs at hinitial with hroom
      · -- The frame that has begun is counted in.
        refine ⟨jsons ++ [pending.json], hqueued, ?_, ?_⟩
        · rw [List.forall_mem_append, List.forall_mem_singleton]
          exact ⟨h.lengths, hlengths pending rfl⟩
        · apply hinitial.trans
          rw [frames_append, List.prefix_append_right_inj]
          exact ⟨pending.json, by rw [frames_cons, frames_nil, List.append_nil, frame]⟩
      · rw [List.append_nil] at hinitial
        exact ⟨jsons, (List.sublist_append_left _ _).trans hqueued, h.lengths, hinitial⟩

/-! ### Events -/

theorem Inv.pushLen (h : Inv q jsons s) (hp : s.pending = none) {json : List Byte}
    (hjson : json.length < 2 ^ 16) {t : SendRun} (ht : s.pushLen json = some t) :
  ∃ q', Inv q' jsons t
  := by
  have hlen := h.represents.length_le
  have hremain := h.represents.getRemainBufsize (by decide)
  have hstream := h.stream
  have hqueued := h.queued
  simp only [header, hp, List.append_nil] at hstream
  simp only [hp, Option.map_none, Option.toList_none, List.append_nil] at hqueued
  have hpending : ∀ pending ∈ some (Pending.mk json s.sendq.getRemainBufsize),
      pending.json.length < 2 ^ 16 := by
    rintro _ ⟨⟩
    apply hjson
  by_cases hroom : 2 ≤ tcpBufferSize - q.length
  · have hfit : q.length + (be16 (.ofNat 16 json.length)).length ≤ tcpBufferSize := by
      rw [length_be16]
      omega
    obtain ⟨sendq, hpush, hrep⟩ := h.represents.push (by decide) hfit
    rw [SendRun.pushLen] at ht
    simp only [hpush] at ht
    obtain rfl := Option.some.inj ht
    refine ⟨_, hrep, ?_, h.lengths, hqueued.append_right [json], hpending⟩
    simp only [header, hremain, if_pos hroom]
    rw [← List.append_assoc, hstream]
  · have hfull : tcpBufferSize < q.length + (be16 (.ofNat 16 json.length)).length := by
      rw [length_be16]
      omega
    rw [SendRun.pushLen] at ht
    simp only [h.represents.push_full (by decide) hfull] at ht
    obtain rfl := Option.some.inj ht
    refine ⟨q, h.represents, ?_, h.lengths, hqueued.append_right [json], hpending⟩
    simp only [header, hremain, if_neg hroom]
    rw [hstream, List.append_nil]

theorem Inv.pushJson (h : Inv q jsons s) {pending : Pending} (hp : s.pending = some pending)
    (hwhole : 2 ≤ pending.room ↔ pending.json.length ≤ s.sendq.getRemainBufsize) {t : SendRun}
    (ht : s.pushJson pending.json = some t) :
  ∃ q' jsons', Inv q' jsons' t
  := by
  have hlen := h.represents.length_le
  have hstream := h.stream
  have hqueued := h.queued
  have hjson := h.pending pending hp
  simp only [header, hp] at hstream
  simp only [hp, Option.map_some, Option.toList_some] at hqueued
  rw [h.represents.getRemainBufsize (by decide)] at hwhole
  rw [SendRun.pushJson] at ht
  by_cases hroom : pending.json.length ≤ tcpBufferSize - q.length
  · have hfit : q.length + pending.json.length ≤ tcpBufferSize := by omega
    obtain ⟨sendq, hpush, hrep⟩ := h.represents.push (by decide) hfit
    simp only [hpush] at ht
    obtain rfl := Option.some.inj ht
    refine ⟨_, jsons ++ [pending.json], hrep, ?_, ?_, ?_, ?_⟩
    · rw [if_pos (hwhole.mpr hroom)] at hstream
      simp only [header, List.append_nil, frames_append, frames_cons, frames_nil, frame]
      rw [← List.append_assoc, hstream, List.append_assoc]
    · rw [List.forall_mem_append, List.forall_mem_singleton]
      exact ⟨h.lengths, hjson⟩
    · simp only [Option.map_none, Option.toList_none, List.append_nil]
      apply hqueued
    · rintro _ ⟨⟩
  · have hfull : tcpBufferSize < q.length + pending.json.length := by omega
    simp only [h.represents.push_full (by decide) hfull] at ht
    obtain rfl := Option.some.inj ht
    refine ⟨q, jsons, h.represents, ?_, h.lengths, ?_, ?_⟩
    · rw [if_neg (mt hwhole.mp hroom)] at hstream
      apply hstream
    · simp only [Option.map_none, Option.toList_none, List.append_nil]
      apply (List.sublist_append_left _ _).trans hqueued
    · rintro _ ⟨⟩

/-- A round of the sending loop moves the first bytes of the buffer to the frontend. -/
theorem pop_eq (h : RingBuffer.Represents tcpBufferSize s.sendq q) :
  ∃ sendq, s.pop = some { s with
      sendq := sendq
      popped := s.popped ++ q.take tcpIoSize } ∧
    RingBuffer.Represents tcpBufferSize sendq (q.drop tcpIoSize)
  := by
  have hreadable := h.getReadableBufsize (by decide)
  simp only [SendRun.pop, hreadable]
  by_cases hempty : q.length = 0
  · obtain rfl := List.length_eq_zero_iff.mp hempty
    rw [if_pos hempty, List.take_nil, List.append_nil, List.drop_nil]
    exact ⟨s.sendq, rfl, h⟩
  · by_cases hlarge : q.length > tcpIoSize
    · obtain ⟨sendq, hpop, hrep⟩ := h.pop (by decide) (le_of_lt hlarge)
      rw [if_neg hempty, if_pos hlarge, hpop]
      exact ⟨sendq, rfl, hrep⟩
    · obtain ⟨sendq, hpop, hrep⟩ := h.pop (by decide) (Nat.le_refl q.length)
      rw [if_neg hempty, if_neg hlarge, hpop, List.take_of_length_le (not_lt.mp hlarge),
        List.drop_of_length_le (not_lt.mp hlarge)]
      rw [List.take_length]
      rw [List.drop_length] at hrep
      exact ⟨sendq, rfl, hrep⟩

theorem Inv.pop (h : Inv q jsons s) {t : SendRun} (ht : s.pop = some t) :
  Inv (q.drop tcpIoSize) jsons t
  := by
  obtain ⟨sendq, hpop, hrep⟩ := pop_eq h.represents
  obtain rfl := Option.some.inj (hpop.symm.trans ht)
  refine ⟨hrep, ?_, h.lengths, h.queued, h.pending⟩
  rw [List.append_assoc, List.take_append_drop, h.stream]
  rfl

theorem Inv.drop (h : Inv q jsons s) (hp : s.pending = none) :
  Inv [] [] { s with sendq := s.sendq.dropBuffer, queued := [], popped := [] }
  := by
  refine ⟨h.represents.dropBuffer, ?_, ?_, ?_, ?_⟩
  · simp only [header, hp]
    rfl
  · rintro _ ⟨⟩
  · simp only [hp]
    apply List.Sublist.refl
  · simp only [hp]
    rintro _ ⟨⟩

/-- An event that queues frames whole or not at all keeps the invariant. -/
theorem Inv.step (h : Inv q jsons s) {e : SendqEvent} (he : s.Whole e) {t : SendRun}
    (ht : s.step e = some t) :
  ∃ q' jsons', Inv q' jsons' t
  := by
  cases e with
  | pushLen json =>
      cases hp : s.pending with
      | none =>
          simp only [SendRun.step, hp] at ht
          obtain ⟨q', hinv⟩ := h.pushLen hp he ht
          exact ⟨q', jsons, hinv⟩
      | some pending =>
          simp [SendRun.step, hp] at ht
  | pushJson =>
      cases hp : s.pending with
      | none => simp [SendRun.step, hp] at ht
      | some pending =>
          simp only [SendRun.step, hp] at ht
          apply h.pushJson hp (he pending hp) ht
  | pop => exact ⟨_, jsons, h.pop ht⟩
  | drop =>
      obtain rfl := Option.some.inj ht
      exact ⟨[], [], h.drop he⟩

/-- As long as every frame is queued whole or not at all, what the frontend has received since the
last drop is well framed. -/
theorem well_framed (block : Vector Byte (tcpBufferSize + 1))
    (h : Reaches step Whole (start block) s) :
  s.WellFramed
  := by
  have hinv : ∃ q jsons, Inv q jsons s := by
    induction h with
    | refl => exact ⟨[], [], Inv.start block⟩
    | step _ he ht ih =>
        obtain ⟨q, jsons, hs⟩ := ih
        apply hs.step he ht
  obtain ⟨q, jsons, hinv⟩ := hinv
  apply hinv.wellFramed

/-! ### A frame cut in two -/

/-- The reply of `handle_remote_conf_msg` to a `Status` message. -/
def statusReply : List Byte :=
  "\x7b\"type\":\"Status\",\"status\":\"OK\"\x7d".toList.map (fun c => .ofNat 8 c.toNat)

theorem length_statusReply :
  statusReply.length = 31
  := by decide +kernel

/-- Between two strings: the buffer holds `q`, and `queued` and `popped` are as given. -/
structure At (q : List Byte) (queued : List (List Byte)) (popped : List Byte) (s : SendRun) :
    Prop where
  represents : RingBuffer.Represents tcpBufferSize s.sendq q
  pending : s.pending = none
  queued : s.queued = queued
  popped : s.popped = popped

variable {queued : List (List Byte)} {popped : List Byte}

/-- The length of a string is pushed when there is room for it. -/
theorem At.pushLen (h : At q queued popped s) (json : List Byte)
    (hfit : q.length + 2 ≤ tcpBufferSize) :
  ∃ t, s.step (.pushLen json) = some t ∧
    RingBuffer.Represents tcpBufferSize t.sendq (q ++ be16 (.ofNat 16 json.length)) ∧
    t.pending = some ⟨json, tcpBufferSize - q.length⟩ ∧ t.queued = queued ++ [json] ∧
    t.popped = popped
  := by
  have hlen : q.length + (be16 (.ofNat 16 json.length)).length ≤ tcpBufferSize := by
    rw [length_be16]
    apply hfit
  obtain ⟨sendq, hpush, hrep⟩ := h.represents.push (by decide) hlen
  refine ⟨{ s with
    sendq := sendq
    pending := some ⟨json, s.sendq.getRemainBufsize⟩
    queued := s.queued ++ [json] }, ?_, hrep, ?_, ?_, h.popped⟩
  · simp only [step, h.pending, SendRun.pushLen, hpush]
    rfl
  · rw [h.represents.getRemainBufsize (by decide)]
  · rw [h.queued]

/-- A string that fits is queued whole. -/
theorem At.queue (h : At q queued popped s) {json : List Byte} (hjson : json.length < 2 ^ 16)
    (hfit : q.length + (frame json).length ≤ tcpBufferSize) :
  ∃ t, Reaches step Whole s t ∧ At (q ++ frame json) (queued ++ [json]) popped t
  := by
  rw [length_frame] at hfit
  obtain ⟨t, ht, hrep, hpending, hqueued, hpopped⟩ := h.pushLen json (by omega)
  have hlen : (q ++ be16 (.ofNat 16 json.length)).length = q.length + 2 := by
    rw [List.length_append, length_be16]
  have hfit' : (q ++ be16 (.ofNat 16 json.length)).length + json.length ≤ tcpBufferSize := by
    omega
  obtain ⟨sendq, hpush, hrep'⟩ := hrep.push (by decide) hfit'
  have hwhole : t.Whole .pushJson := by
    rw [Whole, hpending]
    rintro _ ⟨⟩
    rw [hrep.getRemainBufsize (by decide), hlen]
    simp only
    omega
  have hstep : t.step .pushJson = some { t with sendq := sendq, pending := none } := by
    simp only [step, hpending, SendRun.pushJson, hpush]
    rfl
  have hlength : s.Whole (.pushLen json) := hjson
  refine ⟨_, (Reaches.refl.step hlength ht).step hwhole hstep, ?_⟩
  refine ⟨?_, rfl, hqueued, hpopped⟩
  rw [frame, ← List.append_assoc]
  apply hrep'

/-- Of a string that does not fit, the length alone is queued. -/
theorem At.queue_half (h : At q queued popped s) {json : List Byte}
    (hfit : q.length + 2 ≤ tcpBufferSize) (hfull : tcpBufferSize < q.length + (frame json).length) :
  ∃ t, Reaches step (fun _ _ => True) s t ∧
    At (q ++ be16 (.ofNat 16 json.length)) (queued ++ [json]) popped t
  := by
  rw [length_frame] at hfull
  obtain ⟨t, ht, hrep, hpending, hqueued, hpopped⟩ := h.pushLen json hfit
  have hpush : t.sendq.push json = some (t.sendq, RingBuffer.bufferFull) := by
    apply hrep.push_full (by decide)
    rw [List.length_append, length_be16]
    omega
  have hstep : t.step .pushJson = some { t with pending := none } := by
    simp only [step, hpending, SendRun.pushJson, hpush]
    rfl
  refine ⟨_, (Reaches.refl.step trivial ht).step trivial hstep, ?_⟩
  exact ⟨hrep, rfl, hqueued, hpopped⟩

/-- The same string is queued again and again. -/
theorem At.queue_replicate (h : At q queued popped s) {json : List Byte}
    (hjson : json.length < 2 ^ 16) (k : ℕ)
    (hfit : q.length + k * (frame json).length ≤ tcpBufferSize) :
  ∃ t, Reaches step Whole s t ∧
    At (q ++ frames (List.replicate k json)) (queued ++ List.replicate k json) popped t
  := by
  induction k generalizing s q queued with
  | zero =>
      refine ⟨s, Reaches.refl, ?_⟩
      rw [List.replicate_zero, frames_nil, List.append_nil, List.append_nil]
      apply h
  | succ k ih =>
      rw [Nat.succ_mul] at hfit
      obtain ⟨t, hst, ht⟩ := h.queue hjson (by omega)
      obtain ⟨u, htu, hu⟩ := ih ht (by rw [List.length_append]; omega)
      refine ⟨u, hst.trans htu, ?_⟩
      rw [List.replicate_succ, frames_cons, ← List.append_assoc]
      rw [List.append_assoc queued, List.singleton_append] at hu
      apply hu

/-- The sending loop of `do_server` goes through `k` rounds. -/
theorem At.pops (h : At q queued popped s) (k : ℕ) :
  ∃ t, Reaches step Whole s t ∧
    At (q.drop (k * tcpIoSize)) queued (popped ++ q.take (k * tcpIoSize)) t
  := by
  induction k generalizing s q popped with
  | zero =>
      refine ⟨s, Reaches.refl, ?_⟩
      rw [Nat.zero_mul, List.drop_zero, List.take_zero, List.append_nil]
      apply h
  | succ k ih =>
      obtain ⟨sendq, hpop, hrep⟩ := pop_eq h.represents
      have ht : At (q.drop tcpIoSize) queued (popped ++ q.take tcpIoSize) { s with
          sendq := sendq
          popped := s.popped ++ q.take tcpIoSize } :=
        ⟨hrep, h.pending, h.queued, by rw [h.popped]⟩
      obtain ⟨u, htu, hu⟩ := ih ht
      have hwhole : s.Whole .pop := trivial
      refine ⟨u, (Reaches.refl.step hwhole hpop).trans htu, ?_⟩
      rw [List.drop_drop, List.append_assoc, ← List.take_add] at hu
      rw [Nat.succ_mul, Nat.add_comm (k * tcpIoSize)]
      apply hu

/-- The bytes that the frontend gets when the length of a reply is queued without the reply. -/
def cutStream : List Byte :=
  frames (List.replicate 24824 statusReply) ++ be16 (.ofNat 16 statusReply.length) ++
    frame statusReply

theorem length_frames_replicate (k : ℕ) (json : List Byte) :
  (frames (List.replicate k json)).length = k * (frame json).length
  := by
  induction k with
  | zero => rw [List.replicate_zero, frames_nil, List.length_nil, Nat.zero_mul]
  | succ k ih =>
      rw [List.replicate_succ, frames_cons, List.length_append, ih, Nat.succ_mul, Nat.add_comm]

/-- There is a run in which the frontend gets `cutStream`, and every string is a status reply. -/
theorem reaches_cutStream (block : Vector Byte (tcpBufferSize + 1)) :
  ∃ s, Reaches step (fun _ _ => True) (start block) s ∧
    s.queued = List.replicate 24826 statusReply ∧ s.popped = cutStream
  := by
  have hjson : statusReply.length < 2 ^ 16 := by
    rw [length_statusReply]
    decide
  have hframe : (frame statusReply).length = 33 := by
    rw [length_frame, length_statusReply]
  set q := frames (List.replicate 24824 statusReply) with hq
  have hqlen : q.length = 24824 * 33 := by
    rw [hq, length_frames_replicate, hframe]
  set q₂ := q ++ be16 (.ofNat 16 statusReply.length) with hq₂
  have hq₂len : q₂.length = 24824 * 33 + 2 := by
    rw [hq₂, List.length_append, length_be16, hqlen]
  have hio : tcpIoSize = 10240 := rfl
  have hbuffer : tcpBufferSize = 819200 := rfl
  have hstart : At [] [] [] (start block) :=
    ⟨RingBuffer.Represents.new tcpBufferSize block, rfl, rfl, rfl⟩
  -- The buffer is filled up to eight bytes, and of the next reply only the length fits.
  have hfit₁ : ([] : List Byte).length + 24824 * (frame statusReply).length ≤ tcpBufferSize := by
    rw [hframe, hbuffer]
    decide
  obtain ⟨s₁, hs₁, hat₁⟩ := hstart.queue_replicate hjson 24824 hfit₁
  rw [List.nil_append, List.nil_append, ← hq] at hat₁
  have hfull : tcpBufferSize < q.length + (frame statusReply).length := by omega
  obtain ⟨s₂, hs₂, hat₂⟩ := hat₁.queue_half (by omega) hfull
  -- A round of the sending loop makes room for another reply.
  obtain ⟨s₃, hs₃, hat₃⟩ := hat₂.pops 1
  rw [← hq₂, Nat.one_mul, List.nil_append] at hat₃
  have hfit₄ : (q₂.drop tcpIoSize).length + (frame statusReply).length ≤ tcpBufferSize := by
    rw [List.length_drop]
    omega
  obtain ⟨s₄, hs₄, hat₄⟩ := hat₃.queue hjson hfit₄
  -- The rest is sent.
  obtain ⟨s₅, hs₅, hat₅⟩ := hat₄.pops 81
  have hall : (q₂.drop tcpIoSize ++ frame statusReply).length ≤ 81 * tcpIoSize := by
    rw [List.length_append, List.length_drop]
    omega
  have htrue : ∀ s e, Whole s e → True := fun _ _ _ => trivial
  refine ⟨s₅, ?_, ?_, ?_⟩
  · apply (hs₁.mono htrue).trans
    apply hs₂.trans
    apply (hs₃.mono htrue).trans
    apply (hs₄.mono htrue).trans (hs₅.mono htrue)
  · rw [hat₅.queued, ← List.replicate_succ', ← List.replicate_succ']
  · rw [hat₅.popped, List.take_of_length_le hall, ← List.append_assoc, List.take_append_drop,
      cutStream]

/-- `cutStream` is not a part of a stream of status replies: two lengths follow each other. -/
theorem not_prefix_cutStream (k : ℕ) :
  ¬ cutStream <+: frames (List.replicate k statusReply)
  := by
  rintro hinitial
  have hlen := hinitial.length_le
  rw [cutStream, List.length_append, List.length_append, length_frames_replicate,
    length_frames_replicate] at hlen
  have hk : 24824 < k := by
    by_contra hle
    have := Nat.mul_le_mul_right (frame statusReply).length (not_lt.mp hle)
    rw [length_be16] at hlen
    omega
  obtain ⟨j, rfl⟩ := Nat.exists_eq_add_of_lt hk
  rw [cutStream, Nat.add_assoc, List.replicate_add, frames_append, List.append_assoc,
    List.prefix_append_right_inj, List.replicate_succ, frames_cons] at hinitial
  -- The third byte is the first of a length on the left, and the first of a reply on the right.
  obtain ⟨t, ht⟩ := hinitial
  have hleft : (be16 (.ofNat 16 statusReply.length) ++ frame statusReply)[2]? = some 0 := by
    decide +kernel
  have hright : (frame statusReply)[2]? = some 123 := by decide +kernel
  have hlen₁ : (frame statusReply).length = 33 := by decide +kernel
  have hthird : (be16 (.ofNat 16 statusReply.length) ++ frame statusReply ++ t)[2]? =
      (frame statusReply ++ frames (List.replicate j statusReply))[2]? := by
    rw [ht]
  rw [List.getElem?_append_left (by rw [List.length_append]; omega), hleft,
    List.getElem?_append_left (by omega), hright] at hthird
  exact absurd hthird (by decide)

/-- There is a run of `Status` messages after which the stream to the frontend is not well framed:
the buffer has no room for a reply, but for its length. -/
theorem not_well_framed :
  ∃ s, Reaches step (fun _ _ => True) (start (Vector.replicate _ 0)) s ∧
    (∀ json ∈ s.queued, json = statusReply) ∧ ¬ s.WellFramed
  := by
  obtain ⟨s, hs, hqueued, hpopped⟩ := reaches_cutStream (Vector.replicate _ 0)
  have hstatus : ∀ json ∈ s.queued, json = statusReply := by
    intro json hmem
    rw [hqueued] at hmem
    apply List.eq_of_mem_replicate hmem
  refine ⟨s, hs, hstatus, ?_⟩
  rintro ⟨jsons, hsub, -, hinitial⟩
  have hjsons := List.eq_replicate_of_mem (fun json hmem => hstatus json (hsub.subset hmem))
  rw [hpopped, hjsons] at hinitial
  apply not_prefix_cutStream jsons.length hinitial

/-- Two replies are queued and sent. -/
theorem well_framed_two :
  ∃ s, Reaches step Whole (start (Vector.replicate _ 0)) s ∧
    s.popped = frames [statusReply, statusReply] ∧ s.WellFramed
  := by
  have hjson : statusReply.length < 2 ^ 16 := by
    rw [length_statusReply]
    decide
  have hstart : At [] [] [] (start (Vector.replicate _ 0)) :=
    ⟨RingBuffer.Represents.new tcpBufferSize _, rfl, rfl, rfl⟩
  obtain ⟨s, hs, hat⟩ := hstart.queue_replicate hjson 2 (by decide +kernel)
  obtain ⟨t, ht, hat'⟩ := hat.pops 1
  refine ⟨t, hs.trans ht, ?_, well_framed _ (hs.trans ht)⟩
  rw [hat'.popped]
  decide +kernel

end SendRun
