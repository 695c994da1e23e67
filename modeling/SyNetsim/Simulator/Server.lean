import SyNetsim.Lib.Framing
import SyNetsim.Lib.Run
import SyNetsim.Ringbuffer

/-!
# The TCP server of the simulator

`sim_server.c`: a thread moves the bytes of the frontend into the ring buffer `recvq` and those
of the ring buffer `sendq` to the frontend, and the main loop takes messages out of the one and
puts messages into the other. Messages are framed by their length in both directions.

`RecvRun.chunking_irrelevant` is about the way in: the messages are found however the stream is
cut. The way out is in `Simulator.Hdlreport`.
-/

/-- `TCP_IO_SIZE`. -/
def tcpIoSize : ℕ := 10240

/-- `TCP_BUFFER_SIZE`. -/
def tcpBufferSize : ℕ := 819200

/-! ### Receiving -/

/-- A round of the loop of `parse_client_json`: the buffer afterwards, and the string for
`handle_remote_conf_msg` or `none` when the loop is left. -/
def parseClientJsonRound (recvq : RingBuffer) : Option (RingBuffer × Option (List Byte)) := do
  let canread := recvq.getReadableBufsize
  if canread ≥ 2 then
    let (recvq, _, header) ← recvq.read 2
    let jsonlen ← be16At header 0
    if canread ≥ 2 + jsonlen.toNat then
      let (recvq, _, _) ← recvq.pop 2
      let (recvq, _, jsonstr) ← recvq.pop jsonlen.toNat
      return (recvq, some jsonstr)
    else return (recvq, none)
  else return (recvq, none)

/-- The loop of `parse_client_json`, for at most `fuel` rounds: the buffer afterwards and the
strings handed to `handle_remote_conf_msg`. -/
def parseClientJsonLoop : ℕ → RingBuffer → Option (RingBuffer × List (List Byte))
  | 0, _ => none
  | fuel + 1, recvq =>
      match parseClientJsonRound recvq with
      | none => none
      | some (recvq, none) => some (recvq, [])
      | some (recvq, some jsonstr) => do
          let (recvq, handed) ← parseClientJsonLoop fuel recvq
          return (recvq, jsonstr :: handed)

/-- `parse_client_json`. A round that does not leave the loop takes bytes out of the buffer. -/
def parseClientJson (recvq : RingBuffer) : Option (RingBuffer × List (List Byte)) :=
  parseClientJsonLoop (recvq.getReadableBufsize + 1) recvq

section

variable {n : ℕ} {recvq : RingBuffer} {q : List Byte}

/-- With less than a header in the buffer the loop is left. -/
theorem RingBuffer.Represents.parseClientJsonRound_short (hn : n < 2 ^ 31 - 1)
    (h : Represents n recvq q) (hq : q.length < 2) :
  parseClientJsonRound recvq = some (recvq, none)
  := by
  have hshort : ¬ q.length ≥ 2 := not_le.mpr hq
  simp only [parseClientJsonRound, h.getReadableBufsize hn, if_neg hshort, Option.pure_def]

/-- With a header in the buffer the message is taken if it is there as a whole. -/
theorem RingBuffer.Represents.parseClientJsonRound_header (hn : n < 2 ^ 31 - 1)
    (h : Represents n recvq q) {jsonlen : ℕ} (hq : 2 ≤ q.length)
    (hjsonlen : (be16At q 0).map BitVec.toNat = some jsonlen) :
  if 2 + jsonlen ≤ q.length then
    ∃ recvq', parseClientJsonRound recvq = some (recvq', some ((q.drop 2).take jsonlen)) ∧
      Represents n recvq' (q.drop (2 + jsonlen))
  else parseClientJsonRound recvq = some (recvq, none)
  := by
  obtain ⟨len, hlen, rfl⟩ := Option.map_eq_some_iff.mp hjsonlen
  have htake : 0 + 1 < (q.take 2).length := by
    rw [List.length_take]
    omega
  have hheader : be16At (q.take 2) 0 = some len := by
    rw [← hlen, ← be16At_append_left htake (q.drop 2), List.take_append_drop]
  have hread := h.read hn hq
  split_ifs with hwhole
  · obtain ⟨recvq₁, hpop₁, hrep₁⟩ := h.pop hn hq
    have hle : len.toNat ≤ (q.drop 2).length := by
      rw [List.length_drop]
      omega
    obtain ⟨recvq₂, hpop₂, hrep₂⟩ := hrep₁.pop hn hle
    refine ⟨recvq₂, ?_, ?_⟩
    · rw [parseClientJsonRound]
      simp only [h.getReadableBufsize hn, ge_iff_le, if_pos hq]
      refine Option.bind_eq_some_iff.mpr ⟨_, hread, Option.bind_eq_some_iff.mpr ⟨_, hheader, ?_⟩⟩
      rw [if_pos hwhole]
      exact Option.bind_eq_some_iff.mpr ⟨_, hpop₁, Option.bind_eq_some_iff.mpr ⟨_, hpop₂, rfl⟩⟩
    · rw [List.drop_drop] at hrep₂
      apply hrep₂
  · rw [parseClientJsonRound]
    simp only [h.getReadableBufsize hn, ge_iff_le, if_pos hq]
    refine Option.bind_eq_some_iff.mpr ⟨_, hread, Option.bind_eq_some_iff.mpr ⟨_, hheader, ?_⟩⟩
    rw [if_neg hwhole]
    rfl

/-- On a part of a stream the loop hands over the whole messages at its start, and leaves the
rest in the buffer. -/
theorem RingBuffer.Represents.parseLoop (hn : n < 2 ^ 31 - 1)
    {msgs : List (List Byte)} (hmsgs : ∀ msg ∈ msgs, msg.length < 2 ^ 16)
    (h : Represents n recvq q) (hq : q <+: frames msgs) {fuel : ℕ} (hfuel : q.length < fuel) :
  ∃ recvq' handed q', parseClientJsonLoop fuel recvq = some (recvq', handed) ∧
    Represents n recvq' q' ∧ handed <+: msgs ∧ q = frames handed ++ q' ∧
    (q = frames msgs → handed = msgs)
  := by
  induction msgs generalizing recvq q fuel with
  | nil =>
      obtain rfl := List.prefix_nil.mp hq
      obtain ⟨fuel, rfl⟩ := Nat.exists_eq_succ_of_ne_zero (Nat.ne_zero_of_lt hfuel)
      refine ⟨recvq, [], [], ?_, h, List.nil_prefix, rfl, fun _ => rfl⟩
      rw [parseClientJsonLoop, h.parseClientJsonRound_short hn Nat.zero_lt_two]
  | cons msg msgs ih =>
      obtain ⟨fuel, rfl⟩ := Nat.exists_eq_succ_of_ne_zero (Nat.ne_zero_of_lt hfuel)
      rw [List.forall_mem_cons] at hmsgs
      rw [frames_cons] at hq
      by_cases htwo : 2 ≤ q.length
      · have hround := h.parseClientJsonRound_header hn htwo (be16At_eq_of_prefixed hq hmsgs.1 htwo)
        split_ifs at hround with hwhole
        · obtain ⟨recvq₁, hround, hrep₁⟩ := hround
          have hlen : (frame msg).length ≤ q.length := by
            rw [length_frame]
            apply hwhole
          obtain ⟨q₁, rfl, hq₁⟩ := exists_of_prefix_append hq hlen
          have hdrop : (frame msg ++ q₁).drop (2 + msg.length) = q₁ :=
            List.drop_left' (length_frame msg)
          have hbody : ((frame msg ++ q₁).drop 2).take msg.length = msg := by
            rw [frame, List.append_assoc, List.drop_left' (length_be16 _), List.take_left]
          rw [List.length_append, length_frame] at hfuel
          rw [hdrop] at hrep₁
          have hfuel₁ : q₁.length < fuel := by omega
          obtain ⟨recvq₂, handed, q₂, hloop, hrep₂, hhanded, hq₁_eq, hall⟩ :=
            ih hmsgs.2 hrep₁ hq₁ hfuel₁
          refine ⟨recvq₂, msg :: handed, q₂, ?_, hrep₂, ?_, ?_, ?_⟩
          · simp only [parseClientJsonLoop, hround, hbody, hloop, Option.bind_eq_bind,
              Option.bind_some, Option.pure_def]
          · apply (List.prefix_cons_inj msg).mpr hhanded
          · rw [hq₁_eq, frames_cons, List.append_assoc]
          · intro hframes
            rw [frames_cons, List.append_cancel_left_eq] at hframes
            rw [hall hframes]
        · refine ⟨recvq, [], q, ?_, h, List.nil_prefix, rfl, ?_⟩
          · rw [parseClientJsonLoop, hround]
          · rintro rfl
            rw [frames_cons, List.length_append, length_frame] at hwhole
            omega
      · refine ⟨recvq, [], q, ?_, h, List.nil_prefix, rfl, ?_⟩
        · rw [parseClientJsonLoop, h.parseClientJsonRound_short hn (not_le.mp htwo)]
        · rintro rfl
          rw [frames_cons, List.length_append, length_frame] at htwo
          omega

end

/-- The way in: the buffer, the bytes pushed into it so far, and the strings handed over so
far. -/
structure RecvRun where
  recvq : RingBuffer
  pushed : List Byte
  handed : List (List Byte)

/-- `do_server` pushes the bytes it received, or the main loop calls `parse_client_json`. -/
inductive RecvEvent where
  | chunk (data : List Byte)
  | parse

namespace RecvRun

/-- The start: an empty buffer. -/
def start (block : Vector Byte (tcpBufferSize + 1)) : RecvRun where
  recvq := RingBuffer.new tcpBufferSize block
  pushed := []
  handed := []

/-- What an event does. -/
def step (s : RecvRun) : RecvEvent → Option RecvRun
  | .chunk data => do
      let (recvq, _) ← s.recvq.push data
      return { s with recvq := recvq, pushed := s.pushed ++ data }
  | .parse => do
      let (recvq, jsons) ← parseClientJson s.recvq
      return { s with recvq := recvq, handed := s.handed ++ jsons }

/-- The chunks are the next bytes of the stream of the messages, and fit into the buffer. -/
def Fits (msgs : List (List Byte)) (s : RecvRun) : RecvEvent → Prop
  | .chunk data => s.pushed ++ data <+: frames msgs ∧ data.length ≤ s.recvq.getRemainBufsize
  | .parse => True

/-- The buffer holds `q`, which is what was pushed behind the messages handed over. -/
structure Inv (msgs : List (List Byte)) (q : List Byte) (s : RecvRun) : Prop where
  represents : RingBuffer.Represents tcpBufferSize s.recvq q
  pushed : s.pushed = frames s.handed ++ q
  pushed_prefix : s.pushed <+: frames msgs
  handed_prefix : s.handed <+: msgs

variable {msgs : List (List Byte)} {q : List Byte} {s : RecvRun}

theorem Inv.start (msgs : List (List Byte)) (block : Vector Byte (tcpBufferSize + 1)) :
  Inv msgs [] (RecvRun.start block)
  where
  represents := RingBuffer.Represents.new tcpBufferSize block
  pushed := rfl
  pushed_prefix := List.nil_prefix
  handed_prefix := List.nil_prefix

theorem Inv.chunk (h : Inv msgs q s) {data : List Byte} (hfits : Fits msgs s (.chunk data)) :
  ∃ recvq, s.step (.chunk data) =
      some { s with recvq := recvq, pushed := s.pushed ++ data } ∧
    Inv msgs (q ++ data) { s with recvq := recvq, pushed := s.pushed ++ data }
  := by
  have hlen := h.represents.length_le
  have hroom := hfits.2
  rw [h.represents.getRemainBufsize (by decide)] at hroom
  have hfit : q.length + data.length ≤ tcpBufferSize := by omega
  obtain ⟨recvq, hpush, hrep⟩ := h.represents.push (by decide) hfit
  refine ⟨recvq, ?_, hrep, ?_, hfits.1, h.handed_prefix⟩
  · rw [step, hpush]
    rfl
  · rw [h.pushed, List.append_assoc]

/-- A call of `parse_client_json` hands over the messages that have arrived as a whole. -/
theorem Inv.parse (hmsgs : ∀ msg ∈ msgs, msg.length < 2 ^ 16) (h : Inv msgs q s) :
  ∃ s' q', s.step .parse = some s' ∧ Inv msgs q' s' ∧ s'.pushed = s.pushed ∧
    (s.pushed = frames msgs → s'.handed = msgs)
  := by
  obtain ⟨rest, rfl⟩ := h.handed_prefix
  have hq := h.pushed_prefix
  rw [h.pushed, frames_append, List.prefix_append_right_inj] at hq
  rw [List.forall_mem_append] at hmsgs
  have hreadable := h.represents.getReadableBufsize (by decide)
  obtain ⟨recvq, jsons, q', hloop, hrep, hjsons, hq_eq, hall⟩ :=
    h.represents.parseLoop (by decide) hmsgs.2 hq (Nat.lt_succ_self q.length)
  refine ⟨{ s with recvq := recvq, handed := s.handed ++ jsons }, q', ?_, ⟨hrep, ?_, ?_, ?_⟩,
    rfl, ?_⟩
  · rw [step, parseClientJson, hreadable, hloop]
    rfl
  · rw [h.pushed, frames_append, hq_eq, List.append_assoc]
  · apply h.pushed_prefix
  · apply (List.prefix_append_right_inj s.handed).mpr hjsons
  · intro hall_pushed
    rw [h.pushed, frames_append, List.append_cancel_left_eq] at hall_pushed
    rw [hall hall_pushed]

/-- An event is always possible, and keeps the invariant. -/
theorem Inv.step (hmsgs : ∀ msg ∈ msgs, msg.length < 2 ^ 16) (h : Inv msgs q s) {e : RecvEvent}
    (he : Fits msgs s e) :
  ∃ s' q', s.step e = some s' ∧ Inv msgs q' s'
  := by
  cases e with
  | chunk data =>
      obtain ⟨recvq, hstep, hinv⟩ := h.chunk he
      exact ⟨_, _, hstep, hinv⟩
  | parse =>
      obtain ⟨s', q', hstep, hinv, -⟩ := h.parse hmsgs
      exact ⟨s', q', hstep, hinv⟩

theorem Inv.of_reaches (hmsgs : ∀ msg ∈ msgs, msg.length < 2 ^ 16)
    {block : Vector Byte (tcpBufferSize + 1)}
    (h : Reaches RecvRun.step (Fits msgs) (RecvRun.start block) s) :
  ∃ q, Inv msgs q s
  := by
  induction h with
  | refl => exact ⟨[], Inv.start msgs block⟩
  | step _ he ht ih =>
      obtain ⟨q, hs⟩ := ih
      obtain ⟨s', q', hs', hinv⟩ := hs.step hmsgs he
      obtain rfl := Option.some.inj (hs'.symm.trans ht)
      exact ⟨q', hinv⟩

/-- However the stream of the messages is cut into chunks, and whenever `parse_client_json` is
called between them: all calls succeed, what has been handed over is at every moment a prefix of
the messages, and once the whole stream has been pushed one more call hands over the rest and
leaves the buffer empty. -/
theorem chunking_irrelevant (hmsgs : ∀ msg ∈ msgs, msg.length < 2 ^ 16)
    (block : Vector Byte (tcpBufferSize + 1))
    (h : Reaches step (Fits msgs) (start block) s) :
  (∀ e, Fits msgs s e → ∃ s', s.step e = some s') ∧ s.handed <+: msgs ∧
    (s.pushed = frames msgs →
      ∃ s', s.step .parse = some s' ∧ s'.handed = msgs ∧ s'.recvq.getReadableBufsize = 0)
  := by
  obtain ⟨q, hinv⟩ := Inv.of_reaches hmsgs h
  refine ⟨?_, hinv.handed_prefix, ?_⟩
  · intro e he
    obtain ⟨s', q', hs', -⟩ := hinv.step hmsgs he
    exact ⟨s', hs'⟩
  · intro hall
    obtain ⟨s', q', hs', hinv', hpushed, hhanded⟩ := hinv.parse hmsgs
    refine ⟨s', hs', hhanded hall, ?_⟩
    rw [hinv'.represents.getReadableBufsize (by decide)]
    have hlen := congrArg List.length hinv'.pushed
    rw [hpushed, hall, hhanded hall, List.length_append] at hlen
    omega

/-- A chunk fits when all that was pushed so far would fit with it. -/
theorem Inv.fits_chunk (h : Inv msgs q s) {data : List Byte}
    (hinitial : s.pushed ++ data <+: frames msgs)
    (hlen : (s.pushed ++ data).length ≤ tcpBufferSize) :
  Fits msgs s (.chunk data)
  := by
  have hpushed := congrArg List.length h.pushed
  refine ⟨hinitial, ?_⟩
  rw [h.represents.getRemainBufsize (by decide)]
  rw [List.length_append] at hlen hpushed
  omega

/-- Two messages, cut within the length of the first and within the length of the second. -/
theorem chunking_irrelevant_two :
  ∃ s, Reaches step (Fits [[1, 2], [3]]) (start (Vector.replicate _ 0)) s ∧
    s.pushed = [0] ++ [2, 1, 2, 0] ++ [1, 3] ∧
    ∃ s', s.step .parse = some s' ∧ s'.handed = [[1, 2], [3]] ∧ s'.recvq.getReadableBufsize = 0
  := by
  have hmsgs : ∀ msg ∈ ([[1, 2], [3]] : List (List Byte)), msg.length < 2 ^ 16 := by decide
  have hinv₀ := Inv.start [[1, 2], [3]] (Vector.replicate _ 0)
  have hfits₁ : Fits [[1, 2], [3]] _ (.chunk [0]) := hinv₀.fits_chunk (by decide) (by decide)
  obtain ⟨recvq₁, hstep₁, hinv₁⟩ := hinv₀.chunk hfits₁
  obtain ⟨s₂, q₂, hstep₂, hinv₂, hpushed₂, -⟩ := hinv₁.parse hmsgs
  have hpushed₂ : s₂.pushed = [0] := hpushed₂
  have hfits₃ : Fits [[1, 2], [3]] s₂ (.chunk [2, 1, 2, 0]) := by
    apply hinv₂.fits_chunk <;> rw [hpushed₂] <;> decide
  obtain ⟨recvq₃, hstep₃, hinv₃⟩ := hinv₂.chunk hfits₃
  have hinitial : s₂.pushed ++ [2, 1, 2, 0] ++ [1, 3] <+: frames [[1, 2], [3]] := by
    rw [hpushed₂]
    decide
  have hlen : (s₂.pushed ++ [2, 1, 2, 0] ++ [1, 3]).length ≤ tcpBufferSize := by
    rw [hpushed₂]
    decide
  have hfits₄ := hinv₃.fits_chunk hinitial hlen
  obtain ⟨recvq₄, hstep₄, -⟩ := hinv₃.chunk hfits₄
  have hfits₂ : ∀ s, Fits [[1, 2], [3]] s .parse := fun _ => trivial
  have hreach := (((Reaches.refl.step hfits₁ hstep₁).step (hfits₂ _) hstep₂).step hfits₃
    hstep₃).step hfits₄ hstep₄
  refine ⟨_, hreach, ?_, (chunking_irrelevant hmsgs _ hreach).2.2 ?_⟩
  · simp only [hpushed₂]
  · simp only [hpushed₂]
    rfl

end RecvRun
