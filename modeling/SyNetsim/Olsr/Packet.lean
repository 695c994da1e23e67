import SyNetsim.Lib.Run
import SyNetsim.Netutil
import SyNetsim.Olsr.Forwarding
import SyNetsim.Ringbuffer

/-!
# Packets as bytes

`olsr_send_from_queue_cb` and `handle_route_pkt` of `olsr_route.c` on the level of bytes: the
messages waiting in the ring buffer `olsr_tx_msgbuf` are put behind the headers of a packet, and
the receiver finds the messages again by their fields `olsr_msgsize`.

`TxRun` is a node that pushes messages and flushes them, together with what it pushed. The
result `TxRun.whole_messages` says that the messages of a packet are those that were accepted
since the previous flush. It is what justifies that the model of a node (`Olsr.Route`) keeps
its queue as a list of messages.
-/

/-! ### Sending -/

/-- The fields of `OlsrContext` that sending uses. -/
structure TxContext where
  ownIp : InAddr
  msgSeq : BitVec 16
  olsrTxMsgbuf : RingBuffer
deriving DecidableEq

/-- `OLSR_PROTO_PORT`. -/
def olsrProtoPort : BitVec 16 := 698

/-- The broadcast address. -/
def broadcastIp : InAddr := makeBe32Ip 255 255 255 255

/-- The packet that `olsr_send_from_queue_cb` makes of the bytes of the queue. -/
def TxContext.packet (ctx : TxContext) (msgs : List Byte) : PacketBuf :=
  let payloadLen := msgs.length + 4
  { hdr := buildIpHdr (28 + payloadLen) 64 ctx.ownIp broadcastIp ipprotoUdp
    rest := (buildUdpHdrNoChecksum olsrProtoPort olsrProtoPort (.ofNat 16 payloadLen)).toBytes ++
      be16 (.ofNat 16 (4 + msgs.length)) ++ be16 ctx.msgSeq ++ msgs }

/-- `olsr_send_from_queue_cb`: the context afterwards and the packet that is sent. It gives
`none` if the packet does not fit into a `PacketBuf`. -/
def TxContext.olsrSendFromQueueCb (ctx : TxContext) : Option (TxContext × Option PacketBuf) :=
  let read := ctx.olsrTxMsgbuf.getReadableBufsize
  if read ≤ 0 then some (ctx, none)
  else do
    let (rb, _, msgs) ← ctx.olsrTxMsgbuf.pop read
    let pkt := ctx.packet msgs
    if packetBufSize < pkt.length then none
    else return ({ ctx with olsrTxMsgbuf := rb, msgSeq := ctx.msgSeq + 1 }, some pkt)

/-! ### Receiving -/

/-- How the loop of `handle_route_pkt` ends: at the end of the packet, with `exit` at a message
of size 0, or at a message that does not end within the packet. -/
inductive WalkEnd where
  | finished
  | exited
  | outside
deriving DecidableEq

/-- The loop of `handle_route_pkt` over the bytes from `offset` on: the messages it hands to
`handle_olsr_msg`. -/
def walkMsgs (rest : List Byte) : List (List Byte) × WalkEnd :=
  if rest.length = 0 then ([], .finished)
  else
    match be16At rest 2 with
    | none => ([], .outside)
    | some msgsize =>
        if msgsize.toNat = 0 then ([], .exited)
        else if rest.length < msgsize.toNat then ([], .outside)
        else
          let (msgs, walkEnd) := walkMsgs (rest.drop msgsize.toNat)
          (rest.take msgsize.toNat :: msgs, walkEnd)
termination_by rest.length
decreasing_by
  rw [List.length_drop]
  omega

/-- `handle_route_pkt`: the messages handed to `handle_olsr_msg`, each with the source address of
the packet. -/
def PacketBuf.handleRoutePkt (pkt : PacketBuf) : List (List Byte × InAddr) × WalkEnd :=
  if pkt.length ≤ 28 then ([], .finished)
  else
    -- The UDP header and the header of the packet are skipped.
    let (msgs, walkEnd) := walkMsgs (pkt.rest.drop (8 + 4))
    (msgs.map (fun msg => (msg, pkt.hdr.saddr)), walkEnd)

/-- A message whose field `olsr_msgsize` is its length, not shorter than its header. -/
structure WellSized (msg : List Byte) : Prop where
  le_length : 12 ≤ msg.length
  msgsize : (be16At msg 2).map BitVec.toNat = some msg.length

instance (msg : List Byte) : Decidable (WellSized msg) :=
  decidable_of_iff (12 ≤ msg.length ∧ (be16At msg 2).map BitVec.toNat = some msg.length)
    ⟨fun h => ⟨h.1, h.2⟩, fun h => ⟨h.le_length, h.msgsize⟩⟩

/-- The loop takes the first message off. -/
theorem walkMsgs_append {msg : List Byte} (h : WellSized msg) (rest : List Byte) :
  walkMsgs (msg ++ rest) = (msg :: (walkMsgs rest).1, (walkMsgs rest).2)
  := by
  have hlen := h.le_length
  obtain ⟨size, hsize, hsize_eq⟩ := Option.map_eq_some_iff.mp h.msgsize
  have hat : be16At (msg ++ rest) 2 = some size := by
    rw [be16At_append_left (by omega), hsize]
  have hnonempty : ¬ (msg ++ rest).length = 0 := by
    rw [List.length_append]
    omega
  have hpos : ¬ msg.length = 0 := by omega
  have hin : ¬ (msg ++ rest).length < msg.length := by
    rw [List.length_append]
    omega
  rw [walkMsgs, if_neg hnonempty, hat]
  simp only [hsize_eq, if_neg hpos, if_neg hin, List.drop_left, List.take_left]

/-- The loop finds the messages that were put one behind the other. -/
theorem walkMsgs_flatten {msgs : List (List Byte)} (h : ∀ msg ∈ msgs, WellSized msg) :
  walkMsgs msgs.flatten = (msgs, .finished)
  := by
  induction msgs with
  | nil =>
      rw [walkMsgs]
      rfl
  | cons msg msgs ih =>
      rw [List.forall_mem_cons] at h
      rw [List.flatten_cons, walkMsgs_append h.1, ih h.2]

/-! ### Runs -/

/-- A flush: the packet that was sent, and the messages accepted since the previous flush. -/
structure Flush where
  pkt : Option PacketBuf
  msgs : List (List Byte)

/-- A node that sends, with the messages accepted since the last flush and the flushes made. -/
structure TxRun where
  ctx : TxContext
  accepted : List (List Byte)
  flushes : List Flush

/-- A message is pushed, or `olsr_send_from_queue_cb` is called. -/
inductive TxEvent where
  | push (msg : List Byte)
  | flush

namespace TxRun

/-- The start of a run: a fresh buffer. -/
def start (ownIp : InAddr) (msgSeq : BitVec 16) (block : Vector Byte (olsrTxMsgbufSize + 1)) :
    TxRun where
  ctx := ⟨ownIp, msgSeq, RingBuffer.new olsrTxMsgbufSize block⟩
  accepted := []
  flushes := []

/-- What an event does. A push is accepted unless `RingBuffer_push` returns an error. -/
def step (s : TxRun) : TxEvent → Option TxRun
  | .push msg => do
      let (rb, ret) ← s.ctx.olsrTxMsgbuf.push msg
      return { s with
        ctx := { s.ctx with olsrTxMsgbuf := rb }
        accepted := if ret < 0 then s.accepted else s.accepted ++ [msg] }
  | .flush => do
      let (ctx, pkt) ← s.ctx.olsrSendFromQueueCb
      return { ctx := ctx, accepted := [], flushes := s.flushes ++ [⟨pkt, s.accepted⟩] }

/-- The messages that are pushed bear their length. -/
def Sized : TxRun → TxEvent → Prop
  | _, .push msg => WellSized msg
  | _, .flush => True

instance (s : TxRun) : (e : TxEvent) → Decidable (s.Sized e)
  | .push msg => inferInstanceAs (Decidable (WellSized msg))
  | .flush => inferInstanceAs (Decidable True)

end TxRun

/-- A packet that fits into a `PacketBuf`, with correct lengths in its IP, UDP and OLSR headers,
in which `handle_route_pkt` finds the messages `msgs`. -/
structure PacketBuf.Carries (pkt : PacketBuf) (src : InAddr) (msgs : List (List Byte)) : Prop where
  length_le : pkt.length ≤ packetBufSize
  ipLen : (be16At pkt.toBytes 2).map BitVec.toNat = some pkt.length
  udpLen : (be16At pkt.toBytes 24).map BitVec.toNat = some (pkt.length - 20)
  olsrLen : (be16At pkt.toBytes 28).map BitVec.toNat = some (pkt.length - 28)
  handleRoutePkt : pkt.handleRoutePkt = (msgs.map (fun msg => (msg, src)), .finished)

/-- Nothing is lost by a flush: its packet carries the messages that were accepted, and it
sends no packet only when there are none. -/
def Flush.Carries (f : Flush) (src : InAddr) : Prop :=
  match f.pkt with
  | none => f.msgs = []
  | some pkt => pkt.Carries src f.msgs

namespace TxContext

variable (ctx : TxContext)

/-- The length of a packet: its headers and the bytes of the messages. -/
theorem length_packet (msgs : List Byte) :
  (ctx.packet msgs).length = 32 + msgs.length
  := by
  simp only [packet, PacketBuf.length, UdpHdr.toBytes, List.length_append, length_be16]
  omega

theorem be16At_packet_ipLen (msgs : List Byte) :
  be16At (ctx.packet msgs).toBytes 2 = some (.ofNat 16 (28 + (msgs.length + 4)))
  := by
  have h := be16At_append (((ctx.packet msgs).toBytes).take 2) ((ctx.packet msgs).toBytes.drop 4)
    (ctx.packet msgs).hdr.totLen
  apply h

theorem be16At_packet_udpLen (msgs : List Byte) :
  be16At (ctx.packet msgs).toBytes 24 = some (8 + .ofNat 16 (msgs.length + 4))
  := by
  have h := be16At_append (((ctx.packet msgs).toBytes).take 24)
    ((ctx.packet msgs).toBytes.drop 26) (8 + .ofNat 16 (msgs.length + 4))
  apply h

theorem be16At_packet_olsrLen (msgs : List Byte) :
  be16At (ctx.packet msgs).toBytes 28 = some (.ofNat 16 (4 + msgs.length))
  := by
  have h := be16At_append (((ctx.packet msgs).toBytes).take 28)
    ((ctx.packet msgs).toBytes.drop 30) (.ofNat 16 (4 + msgs.length))
  apply h

/-- Behind the headers of a packet stand the bytes of the messages. -/
theorem drop_packet (msgs : List Byte) :
  (ctx.packet msgs).rest.drop 12 = msgs
  := List.drop_left' rfl

/-- A packet made of messages carries them. -/
theorem packet_carries {msgs : List (List Byte)} (hmsgs : ∀ msg ∈ msgs, WellSized msg)
    (hlen : msgs.flatten.length ≤ olsrTxMsgbufSize) :
  (ctx.packet msgs.flatten).Carries ctx.ownIp msgs
  := by
  have hlength := ctx.length_packet msgs.flatten
  rw [olsrTxMsgbufSize] at hlen
  apply PacketBuf.Carries.mk
  · rw [hlength, packetBufSize]
    omega
  · rw [be16At_packet_ipLen, Option.map_some, toNat_ofNat_of_lt (by omega)]
    congr 1
    omega
  · rw [be16At_packet_udpLen, Option.map_some, BitVec.toNat_add, BitVec.toNat_ofNat]
    congr 1
    have height : (8 : BitVec 16).toNat = 8 := rfl
    omega
  · rw [be16At_packet_olsrLen, Option.map_some, toNat_ofNat_of_lt (by omega)]
    congr 1
    omega
  · have hlong : ¬ (ctx.packet msgs.flatten).length ≤ 28 := by omega
    rw [PacketBuf.handleRoutePkt, if_neg hlong, drop_packet, walkMsgs_flatten hmsgs]
    rfl

end TxContext

namespace TxRun

/-- The buffer holds the accepted messages one behind the other, and every flush so far carried
its messages. -/
structure Inv (ownIp : InAddr) (s : TxRun) : Prop where
  ownIp : s.ctx.ownIp = ownIp
  represents : RingBuffer.Represents olsrTxMsgbufSize s.ctx.olsrTxMsgbuf s.accepted.flatten
  sized : ∀ msg ∈ s.accepted, WellSized msg
  carries : ∀ f ∈ s.flushes, f.Carries s.ctx.ownIp

variable {ownIp : InAddr} {s : TxRun}

theorem Inv.start (ownIp : InAddr) (msgSeq : BitVec 16)
    (block : Vector Byte (olsrTxMsgbufSize + 1)) :
  Inv ownIp (TxRun.start ownIp msgSeq block)
  where
  ownIp := rfl
  represents := RingBuffer.Represents.new olsrTxMsgbufSize block
  sized _ h := by cases h
  carries _ h := by cases h

/-- A push is accepted whole or refused. -/
theorem Inv.push (h : Inv ownIp s) {msg : List Byte} (hmsg : WellSized msg) :
  ∃ s', s.step (.push msg) = some s' ∧ Inv ownIp s'
  := by
  by_cases hfit : s.accepted.flatten.length + msg.length ≤ olsrTxMsgbufSize
  · obtain ⟨rb, hpush, hrep⟩ := h.represents.push (by decide) hfit
    have hret : ¬ (msg.length : ℤ) < 0 := by omega
    refine ⟨{ s with
      ctx := { s.ctx with olsrTxMsgbuf := rb }
      accepted := s.accepted ++ [msg] }, ?_, h.ownIp, ?_, ?_, h.carries⟩
    · simp only [step, hpush, Option.bind_eq_bind, Option.bind_some, if_neg hret, Option.pure_def]
    · rw [List.flatten_append, List.flatten_singleton]
      apply hrep
    · rw [List.forall_mem_append, List.forall_mem_singleton]
      exact ⟨h.sized, hmsg⟩
  · have hpush := h.represents.push_full (by decide) (not_le.mp hfit)
    refine ⟨s, ?_, h⟩
    rw [step, hpush]
    rfl

/-- Without bytes there are no accepted messages, as every message has a header. -/
theorem Inv.accepted_nil (h : Inv ownIp s) (hempty : s.accepted.flatten.length ≤ 0) :
  s.accepted = []
  := by
  apply List.eq_nil_iff_forall_not_mem.mpr
  intro msg hmem
  have hlen := (h.sized msg hmem).le_length
  have hsub := (List.sublist_flatten_of_mem hmem).length_le
  omega

/-- A flush sends the accepted messages. -/
theorem Inv.flush (h : Inv ownIp s) :
  ∃ s', s.step .flush = some s' ∧ Inv ownIp s'
  := by
  have hread := h.represents.getReadableBufsize (by decide)
  by_cases hempty : s.accepted.flatten.length ≤ 0
  · have hnil := h.accepted_nil hempty
    refine ⟨{ s with accepted := [], flushes := s.flushes ++ [⟨none, s.accepted⟩] }, ?_, h.ownIp,
      ?_, ?_, ?_⟩
    · simp only [step, TxContext.olsrSendFromQueueCb, hread, if_pos hempty, Option.bind_eq_bind,
        Option.bind_some, Option.pure_def]
    · have hrep := h.represents
      rw [hnil] at hrep
      apply hrep
    · intro msg hmsg
      cases hmsg
    · rw [List.forall_mem_append, List.forall_mem_singleton]
      exact ⟨h.carries, hnil⟩
  · obtain ⟨rb, hpop, hrep⟩ := h.represents.pop (by decide) (Nat.le_refl _)
    have hcarries := s.ctx.packet_carries h.sized h.represents.length_le
    rw [List.take_length] at hpop
    rw [List.drop_length] at hrep
    refine ⟨{ ctx := { s.ctx with olsrTxMsgbuf := rb, msgSeq := s.ctx.msgSeq + 1 }
              accepted := []
              flushes := s.flushes ++ [⟨some (s.ctx.packet s.accepted.flatten), s.accepted⟩] },
      ?_, h.ownIp, hrep, ?_, ?_⟩
    · simp only [step, TxContext.olsrSendFromQueueCb, hread, if_neg hempty, hpop,
        Option.bind_eq_bind, Option.bind_some, if_neg (not_lt.mpr hcarries.length_le),
        Option.pure_def]
    · intro msg hmsg
      cases hmsg
    · rw [List.forall_mem_append, List.forall_mem_singleton]
      exact ⟨h.carries, hcarries⟩

/-- An event is always possible, and keeps the invariant. -/
theorem Inv.step (h : Inv ownIp s) {e : TxEvent} (he : s.Sized e) :
  ∃ s', s.step e = some s' ∧ Inv ownIp s'
  := by
  cases e with
  | push msg => apply h.push he
  | flush => apply h.flush

/-- In every run of pushes and flushes from a fresh buffer, no step goes outside of the ring
buffer or of a `PacketBuf`, and every flush carries the messages accepted since the previous
one, whole and in order. -/
theorem whole_messages (ownIp : InAddr) (msgSeq : BitVec 16)
    (block : Vector Byte (olsrTxMsgbufSize + 1)) {s : TxRun}
    (h : Reaches step Sized (start ownIp msgSeq block) s) :
  (∀ e, s.Sized e → ∃ s', s.step e = some s') ∧ ∀ f ∈ s.flushes, f.Carries ownIp
  := by
  have hinv : Inv ownIp s := by
    apply h.invariant _ (Inv.start ownIp msgSeq block)
    intro s e t hs he ht
    obtain ⟨s', hs', hinv⟩ := hs.step he
    obtain rfl := Option.some.inj (hs'.symm.trans ht)
    apply hinv
  constructor
  · intro e he
    obtain ⟨s', hs', -⟩ := hinv.step he
    exact ⟨s', hs'⟩
  · have hcarries := hinv.carries
    rw [hinv.ownIp] at hcarries
    apply hcarries

/-- Two messages are sent in one packet. -/
theorem whole_messages_two :
  let msg : List Byte := [1, 0, 0, 12, 192, 168, 1, 1, 1, 0, 0, 0]
  let msg' : List Byte := [2, 0, 0, 13, 192, 168, 1, 1, 1, 0, 0, 1, 7]
  ∃ s, Reaches step Sized (start (nodeIp 1) 0 (Vector.replicate _ 0)) s ∧
    s.flushes.map Flush.msgs = [[msg, msg']] ∧ ∀ f ∈ s.flushes, f.Carries (nodeIp 1)
  := by
  intro msg msg'
  have hrun : ([.push msg, .push msg', .flush].foldlM
      (fun s e => if decide (Sized s e) then step s e else none)
      (start (nodeIp 1) 0 (Vector.replicate _ 0))).map (fun s => s.flushes.map Flush.msgs) =
      some [[msg, msg']] := by
    decide +kernel
  obtain ⟨s, hs, hmsgs⟩ := Option.map_eq_some_iff.mp hrun
  have hreach := Reaches.of_checked (fun _ _ h => of_decide_eq_true h) hs
  exact ⟨s, hreach, hmsgs, (whole_messages (nodeIp 1) 0 _ hreach).2⟩

end TxRun
