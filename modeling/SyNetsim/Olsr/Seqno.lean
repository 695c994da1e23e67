import SyNetsim.Olsr.Node

/-!
# Sequence numbers

A node numbers its messages with `msg_seq`, which it advances when it sends a packet. A
receiver tells messages apart by originator and number, so a message is taken for a duplicate
if it has the number of another one.

All runs of the callbacks that build and send messages are looked at, in any order
(`SendEvent`). As long as no message is built while another one of the node waits to be sent,
the messages of a node are told apart (`DistinctSeqnos`), and a receiver takes a message for a
duplicate only if it has handled a copy of it before (`FreshAccepted`).
-/

/-! ### Places in a list of packets -/

section Flatten

variable {α : Type*}

/-- In a list of non-empty packets, a message is in a packet no later than its place. -/
theorem exists_packet {packets : List (List α)} (hne : ∀ l ∈ packets, l ≠ []) {i : ℕ} {m : α}
    (hi : packets.flatten[i]? = some m) :
  ∃ (k : ℕ) (l : List α), packets[k]? = some l ∧ m ∈ l ∧ k ≤ i
  := by
  induction packets generalizing i with
  | nil => contradiction
  | cons l packets ih =>
      rw [List.flatten_cons] at hi
      rcases Nat.lt_or_ge i l.length with hlt | hge
      · rw [List.getElem?_append_left hlt] at hi
        exact ⟨0, l, rfl, List.mem_of_getElem? hi, Nat.zero_le i⟩
      · rw [List.getElem?_append_right hge] at hi
        obtain ⟨k, l', hk, hm, hle⟩ := ih (fun l' hl' => hne l' (List.mem_cons_of_mem l hl')) hi
        have hpos := List.length_pos_of_ne_nil (hne l List.mem_cons_self)
        exact ⟨k + 1, l', hk, hm, by omega⟩

/-- Two messages of a list of non-empty packets are in one packet, or in two packets no further
apart than the messages. -/
theorem exists_packets {packets : List (List α)} (hne : ∀ l ∈ packets, l ≠ []) {i j : ℕ}
    {m m' : α} (hij : i < j) (hi : packets.flatten[i]? = some m)
    (hj : packets.flatten[j]? = some m') :
  (∃ (k : ℕ) (l : List α), packets[k]? = some l ∧ ∀ R : α → α → Prop, l.Pairwise R → R m m') ∨
    ∃ (k k' : ℕ) (l l' : List α), packets[k]? = some l ∧ packets[k']? = some l' ∧ m ∈ l ∧ m' ∈ l' ∧
      k < k' ∧ k' ≤ k + (j - i)
  := by
  induction packets generalizing i j with
  | nil => contradiction
  | cons l packets ih =>
      have hne' : ∀ l' ∈ packets, l' ≠ [] := fun l' hl' => hne l' (List.mem_cons_of_mem l hl')
      rw [List.flatten_cons] at hi hj
      rcases Nat.lt_or_ge i l.length with hilt | hige
      · rw [List.getElem?_append_left hilt] at hi
        rcases Nat.lt_or_ge j l.length with hjlt | hjge
        · rw [List.getElem?_append_left hjlt] at hj
          left
          refine ⟨0, l, rfl, ?_⟩
          intro R hR
          obtain ⟨hi', rfl⟩ := List.getElem?_eq_some_iff.mp hi
          obtain ⟨hj', rfl⟩ := List.getElem?_eq_some_iff.mp hj
          apply List.pairwise_iff_getElem.mp hR i j hi' hj' hij
        · rw [List.getElem?_append_right hjge] at hj
          obtain ⟨k, l', hk, hm', hle⟩ := exists_packet hne' hj
          right
          exact ⟨0, k + 1, l, l', rfl, hk, List.mem_of_getElem? hi, hm', Nat.succ_pos k,
            by omega⟩
      · rw [List.getElem?_append_right hige] at hi
        rw [List.getElem?_append_right (by omega)] at hj
        rcases ih hne' (by omega) hi hj with ⟨k, l', hk, hpair⟩ |
          ⟨k, k', l', l'', hk, hk', hm, hm', hlt, hle⟩
        · left
          exact ⟨k + 1, l', hk, hpair⟩
        · right
          exact ⟨k + 1, k' + 1, l', l'', hk, hk', hm, hm', by omega, by omega⟩

end Flatten

/-! ### Queues -/

/-- `msg` is a copy of `orig`, perhaps forwarded. -/
def OlsrMsg.CopyOf (msg orig : OlsrMsg) : Prop :=
  msg = { orig with ttl := msg.ttl, hopcnt := msg.hopcnt }

instance (msg orig : OlsrMsg) : Decidable (msg.CopyOf orig) := inferInstanceAs (Decidable (_ = _))

theorem OlsrMsg.CopyOf.dkey {msg orig : OlsrMsg} (h : msg.CopyOf orig) :
  msg.dkey = orig.dkey
  := by
  rw [CopyOf] at h
  rw [h]
  rfl

theorem OlsrMsg.CopyOf.originator {msg orig : OlsrMsg} (h : msg.CopyOf orig) :
  msg.originator = orig.originator
  := by
  rw [CopyOf] at h
  rw [h]

theorem OlsrMsg.CopyOf.payload {msg orig : OlsrMsg} (h : msg.CopyOf orig) :
  msg.payload = orig.payload
  := by
  rw [CopyOf] at h
  rw [h]

namespace OlsrContext

/-- The messages a node has put into its queue, in order: those sent and those waiting. -/
def queued (ctx : OlsrContext) : List OlsrMsg :=
  ctx.sent.flatMap OlsrPacket.msgs ++ ctx.olsrTxMsgbuf

/-- Any two messages the node has originated, fewer than 65536 messages apart, have different
originators or numbers. -/
def DistinctSeqnos (ctx : OlsrContext) : Prop :=
  ∀ (i j : ℕ) (m m' : OlsrMsg), i < j → j < i + 65536 →
    ctx.queued[i]? = some m → ctx.queued[j]? = some m' →
    m.originator = ctx.ownIp → m'.originator = ctx.ownIp → m.dkey ≠ m'.dkey

/-- A node that has handled, of the messages of `ctx`, only copies of messages from 65536 in a
row takes one of these for a duplicate only if it has handled a copy of it. -/
def FreshAccepted (ctx : OlsrContext) : Prop :=
  ∀ (w : ℕ) (ip : InAddr) (now : Timespec) (start rctx : OlsrContext) (events : List NodeEvent),
    olsrStart ip now = some start → events.foldlM nodeStep start = some rctx →
    (∀ now src m, NodeEvent.recv now src m ∈ events → m.originator = ctx.ownIp →
      ∃ (i : ℕ) (orig : OlsrMsg), w ≤ i ∧ i < w + 65536 ∧ ctx.queued[i]? = some orig ∧
        m.CopyOf orig) →
    ∀ (j : ℕ) (orig msg : OlsrMsg), w ≤ j → j < w + 65536 → ctx.queued[j]? = some orig →
      orig.originator = ctx.ownIp → msg.CopyOf orig → rctx.isAlreadyProcessed msg = true →
      ∃ now src m, NodeEvent.recv now src m ∈ events ∧ m.CopyOf orig

/-- The messages hold at most one of the node, and it has the number `n`. -/
structure OwnOnce (ownIp : InAddr) (n : ℕ) (msgs : List OlsrMsg) : Prop where
  once : msgs.Pairwise (fun m m' => ¬ (m.originator = ownIp ∧ m'.originator = ownIp))
  seqno : ∀ m ∈ msgs, m.originator = ownIp → m.seqno = BitVec.ofNat 16 n

/-- Packets are numbered in order, and each holds at most one message of the node, with its
number. -/
structure Numbered (ctx : OlsrContext) : Prop where
  msgSeq : ctx.msgSeq = BitVec.ofNat 16 ctx.sent.length
  sent : ∀ (k : ℕ) (pkt : OlsrPacket), ctx.sent[k]? = some pkt →
    pkt.msgs ≠ [] ∧ OwnOnce ctx.ownIp k pkt.msgs
  waiting : OwnOnce ctx.ownIp ctx.sent.length ctx.olsrTxMsgbuf

/-- Messages in packets that are numbered in order are told apart. -/
theorem Numbered.distinctSeqnos {ctx : OlsrContext} (h : ctx.Numbered) :
  ctx.DistinctSeqnos
  := by
  intro i j m m' hij hwindow hi hj hm hm' hdkey
  -- The packets, with the one that would be sent now if there is one.
  obtain ⟨packets, hqueued, hne, honce⟩ : ∃ packets : List (List OlsrMsg),
      ctx.queued = packets.flatten ∧ (∀ l ∈ packets, l ≠ []) ∧
      ∀ (k : ℕ) (l : List OlsrMsg), packets[k]? = some l → OwnOnce ctx.ownIp k l := by
    have hsent : ∀ (k : ℕ) (l : List OlsrMsg), (ctx.sent.map OlsrPacket.msgs)[k]? = some l →
        l ≠ [] ∧ OwnOnce ctx.ownIp k l := by
      intro k l hk
      rw [List.getElem?_map, Option.map_eq_some_iff] at hk
      obtain ⟨pkt, hpkt, rfl⟩ := hk
      apply h.sent k pkt hpkt
    have hsent' : ∀ l ∈ ctx.sent.map OlsrPacket.msgs, l ≠ [] := by
      intro l hl
      obtain ⟨k, hk⟩ := List.getElem?_of_mem hl
      apply (hsent k l hk).1
    by_cases hbuf : ctx.olsrTxMsgbuf = []
    · refine ⟨ctx.sent.map OlsrPacket.msgs, ?_, hsent', fun k l hk => (hsent k l hk).2⟩
      rw [queued, hbuf, List.append_nil, List.flatMap_def]
    · refine ⟨ctx.sent.map OlsrPacket.msgs ++ [ctx.olsrTxMsgbuf], ?_, ?_, ?_⟩
      · rw [queued, List.flatten_append, List.flatMap_def, List.flatten_singleton]
      · intro l hl
        rcases List.mem_append.mp hl with hl | hl
        · apply hsent' l hl
        · rw [List.mem_singleton.mp hl]
          apply hbuf
      · intro k l hk
        rcases Nat.lt_or_ge k (ctx.sent.map OlsrPacket.msgs).length with hlt | hge
        · rw [List.getElem?_append_left hlt] at hk
          apply (hsent k l hk).2
        · rw [List.getElem?_append_right hge, List.getElem?_singleton] at hk
          split_ifs at hk with hzero
          rw [List.length_map] at hge hzero
          obtain rfl : k = ctx.sent.length := by omega
          rw [← Option.some.inj hk]
          apply h.waiting
  rw [hqueued] at hi hj
  rcases exists_packets hne hij hi hj with ⟨k, l, hk, hpair⟩ |
    ⟨k, k', l, l', hk, hk', hml, hml', hlt, hle⟩
  · apply hpair _ (honce k l hk).once ⟨hm, hm'⟩
  · have hseq := (honce k l hk).seqno m hml hm
    have hseq' := (honce k' l' hk').seqno m' hml' hm'
    have heq : m.seqno = m'.seqno := congrArg DuplicateSetKey.seq hdkey
    rw [hseq, hseq', ← BitVec.toNat_inj, BitVec.toNat_ofNat, BitVec.toNat_ofNat] at heq
    omega

/-! ### Steps -/

/-- The message that a callback puts into the queue, if it builds one. -/
def builds (ctx : OlsrContext) : Callback → Option OlsrMsg
  | .olsrHelloTimerCb => some ctx.ownHello
  | .olsrTcTimerCb => some ctx.ownTc
  | _ => none

/-- The queue has no room for the message. -/
def Refuses (ctx : OlsrContext) (msg : OlsrMsg) : Prop :=
  msg.msgsize > olsrTxMsgbufSize - (ctx.olsrTxMsgbuf.map OlsrMsg.msgsize).sum

end OlsrContext

/-- What happens to a node: an event, or a callback that runs out of turn. -/
inductive SendEvent where
  | node (e : NodeEvent)
  | callback (c : Callback)

/-- What an event does to a node. -/
def sendStep (ctx : OlsrContext) : SendEvent → Option OlsrContext
  | .node e => nodeStep ctx e
  | .callback c => OlsrContext.runCallback c ctx

namespace OlsrContext

/-- The message that an event puts into the queue, if it builds one. -/
def originates (ctx : OlsrContext) : SendEvent → Option OlsrMsg
  | .node (.recv ..) => none
  | .node (.work _ currtime _) => (ctx.timerqueue.fired currtime).bind ctx.builds
  | .callback c => ctx.builds c

/-- The event builds no message while a message of the node waits to be sent. -/
def SendsApart (ctx : OlsrContext) (e : SendEvent) : Prop :=
  ∀ msg, ctx.originates e = some msg →
    ctx.Refuses msg ∨ ∀ m ∈ ctx.olsrTxMsgbuf, m.originator ≠ ctx.ownIp

/-- From `ctx` to `ctx'` messages have been added to the queue. -/
structure Enqueues (ctx ctx' : OlsrContext) (msgs : List OlsrMsg) : Prop where
  ownIp : ctx'.ownIp = ctx.ownIp
  olsrTxMsgbuf : ctx'.olsrTxMsgbuf = ctx.olsrTxMsgbuf ++ msgs
  msgSeq : ctx'.msgSeq = ctx.msgSeq
  sent : ctx'.sent = ctx.sent

/-- From `ctx` to `ctx'` the queue has been sent as a packet. -/
structure Flushes (ctx ctx' : OlsrContext) : Prop where
  ownIp : ctx'.ownIp = ctx.ownIp
  nonempty : ctx.olsrTxMsgbuf ≠ []
  olsrTxMsgbuf : ctx'.olsrTxMsgbuf = []
  msgSeq : ctx'.msgSeq = ctx.msgSeq + 1
  sent : ctx'.sent = ctx.sent ++ [⟨ctx.ownIp, ctx.msgSeq, ctx.olsrTxMsgbuf⟩]

/-- From `ctx` to `ctx'` the queue is as it was. -/
theorem Enqueues.of_eq {ctx : OlsrContext} {tq : TimerqueueContext Callback}
    {ansn : BitVec 16} {elems : OrdMap ℕ MprSelectorElem} {selectors : OrdMap InAddr ℕ}
    {dup : OrdMap DuplicateSetKey DuplicateSetElem} {clock : Timespec} {nextId : ℕ} :
  Enqueues ctx { ctx with
    timerqueue := tq, ansn := ansn, selectorElems := elems, selectorTree := selectors,
    dupTree := dup, clock := clock, nextId := nextId } []
  := ⟨rfl, (List.append_nil _).symm, rfl, rfl⟩

theorem Enqueues.trans {ctx ctx' ctx'' : OlsrContext} {msgs msgs' : List OlsrMsg}
    (h : Enqueues ctx ctx' msgs) (h' : Enqueues ctx' ctx'' msgs') :
  Enqueues ctx ctx'' (msgs ++ msgs')
  where
  ownIp := h'.ownIp.trans h.ownIp
  olsrTxMsgbuf := by rw [h'.olsrTxMsgbuf, h.olsrTxMsgbuf, List.append_assoc]
  msgSeq := h'.msgSeq.trans h.msgSeq
  sent := h'.sent.trans h.sent

theorem Local.enqueues {ctx ctx' : OlsrContext} (h : ctx.Local ctx') :
  Enqueues ctx ctx' []
  := ⟨h.ownIp, by rw [h.olsrTxMsgbuf, List.append_nil], h.msgSeq, h.sent⟩

/-- The five handlers touch neither the queue nor the duplicate set. -/
theorem Handler.enqueues {ctx ctx' : OlsrContext} (h : ctx.Sound) {handler : Handler}
    (hrun : handler.run ctx = some ctx') :
  Enqueues ctx ctx' [] ∧ ctx'.dupTree = ctx.dupTree
  := by
  have htopology : ∀ {topo}, TopologyChange ctx ctx' topo →
      Enqueues ctx ctx' [] ∧ ctx'.dupTree = ctx.dupTree := by
    rintro topo ⟨tq, nextId, hcore⟩
    refine ⟨⟨?_, ?_, ?_, ?_⟩, ?_⟩
    · have hown := congrArg OlsrContext.ownIp hcore
      apply hown
    · have hbuf := congrArg OlsrContext.olsrTxMsgbuf hcore
      rw [List.append_nil]
      apply hbuf
    · have hseq := congrArg OlsrContext.msgSeq hcore
      apply hseq
    · have hsent := congrArg OlsrContext.sent hcore
      apply hsent
    · have hdup := congrArg OlsrContext.dupTree hcore
      apply hdup
  have hlocal : ctx.Local ctx' → Enqueues ctx ctx' [] ∧ ctx'.dupTree = ctx.dupTree :=
    fun hlocal => ⟨hlocal.enqueues, hlocal.dupTree⟩
  cases handler with
  | hello src orig msg vtime =>
      obtain ⟨ctx₁, -, hlocal₁, hsel⟩ := processOlsrHello_inv h.consistent h.notDuplicated hrun
      apply hlocal (hlocal₁.trans hsel.local)
  | tc src orig msg vtime =>
      obtain ⟨topo, hchange, -⟩ := processOlsrTc_inv hrun h.notDuplicated
      apply htopology hchange
  | link arg =>
      obtain ⟨-, hlocal'⟩ := h.consistent.linkTimerExpire h.notDuplicated hrun
      apply hlocal hlocal'
  | neigh2 arg =>
      obtain ⟨neigh, -, -, hchange⟩ := neigh2ElemExpire_inv h.consistent hrun
      apply hlocal hchange.local
  | topology arg =>
      obtain ⟨topo, hchange, -⟩ := topologyInfoTimerExpireCb_inv hrun h.notDuplicated
      apply htopology hchange

/-- A message for which there is room is put into the queue. -/
theorem pushMsg_enqueues (ctx : OlsrContext) (msg : OlsrMsg) :
  (ctx.Refuses msg ∧ Enqueues ctx (ctx.pushMsg msg) []) ∨
    ¬ ctx.Refuses msg ∧ Enqueues ctx (ctx.pushMsg msg) [msg]
  := by
  rw [pushMsg]
  split_ifs with hroom
  · left
    exact ⟨hroom, Enqueues.of_eq⟩
  · right
    exact ⟨hroom, rfl, rfl, rfl, rfl⟩

theorem pushMsg_dupTree (ctx : OlsrContext) (msg : OlsrMsg) :
  (ctx.pushMsg msg).dupTree = ctx.dupTree
  := by
  obtain ⟨msgs, hpush⟩ := pushMsg_eq ctx msg
  rw [hpush]

/-- A callback puts a message into the queue, sends the queue, or does not touch it. It makes
no duplicate entry. -/
theorem runCallback_queue {ctx ctx' : OlsrContext} {c : Callback} (h : ctx.Sound)
    (hrun : runCallback c ctx = some ctx') :
  (Enqueues ctx ctx' [] ∨
    (∃ msg, ctx.builds c = some msg ∧ ¬ ctx.Refuses msg ∧ Enqueues ctx ctx' [msg]) ∨
    Flushes ctx ctx') ∧
  ∀ d ∈ ctx'.dupTree, ctx'.dupTree.search d = ctx.dupTree.search d
  := by
  have hhandler : ∀ handler : Handler, handler.run ctx = some ctx' →
      (Enqueues ctx ctx' [] ∨
        (∃ msg, ctx.builds c = some msg ∧ ¬ ctx.Refuses msg ∧ Enqueues ctx ctx' [msg]) ∨
        Flushes ctx ctx') ∧
      ∀ d ∈ ctx'.dupTree, ctx'.dupTree.search d = ctx.dupTree.search d := by
    intro handler hrun'
    obtain ⟨henqueues, hdup⟩ := Handler.enqueues h hrun'
    refine ⟨Or.inl henqueues, ?_⟩
    rw [hdup]
    exact fun _ _ => rfl
  cases c with
  | linkTimerExpire arg => apply hhandler (.link arg) hrun
  | neigh2ElemExpire arg => apply hhandler (.neigh2 arg) hrun
  | topologyInfoTimerExpireCb arg => apply hhandler (.topology arg) hrun
  | expireDupEntryCb arg =>
      simp only [runCallback, expireDupEntryCb, Option.bind_eq_bind, Option.bind_eq_some_iff,
        Option.pure_def, Option.some.injEq] at hrun
      obtain ⟨delem, -, tq, -, rfl⟩ := hrun
      refine ⟨Or.inl Enqueues.of_eq, ?_⟩
      intro d hd
      obtain ⟨hne, -⟩ := OrdMap.mem_erase.mp hd
      simp only [OrdMap.search_erase, if_neg hne]
  | mprSelectorExpire arg =>
      simp only [runCallback, mprSelectorExpire, Option.bind_eq_bind, Option.bind_eq_some_iff,
        Option.pure_def, Option.some.injEq] at hrun
      obtain ⟨expElem, -, tq, -, rfl⟩ := hrun
      exact ⟨Or.inl Enqueues.of_eq, fun _ _ => rfl⟩
  | olsrHelloTimerCb =>
      obtain rfl := Option.some.inj hrun
      constructor
      · rcases pushMsg_enqueues ctx ctx.ownHello with ⟨-, hpush⟩ | ⟨hroom, hpush⟩
        · left
          apply hpush
        · right
          left
          exact ⟨ctx.ownHello, rfl, hroom, hpush⟩
      · rw [olsrHelloTimerCb, pushMsg_dupTree]
        exact fun _ _ => rfl
  | olsrTcTimerCb =>
      obtain rfl := Option.some.inj hrun
      constructor
      · rcases pushMsg_enqueues ctx.buildOlsrTc.2 ctx.ownTc with ⟨-, hpush⟩ | ⟨hroom, hpush⟩
        · left
          apply Enqueues.of_eq.trans hpush
        · right
          left
          exact ⟨ctx.ownTc, rfl, hroom, Enqueues.of_eq.trans hpush⟩
      · intro d _
        apply congrArg (OrdMap.search · d) (pushMsg_dupTree ctx.buildOlsrTc.2 ctx.ownTc)
  | olsrSendFromQueueCb =>
      obtain rfl := Option.some.inj hrun
      rw [olsrSendFromQueueCb]
      split_ifs with hempty
      · exact ⟨Or.inl Enqueues.of_eq, fun _ _ => rfl⟩
      · refine ⟨Or.inr (Or.inr ⟨rfl, ?_, rfl, rfl, rfl⟩), fun _ _ => rfl⟩
        intro hnil
        apply hempty
        rw [hnil]
        apply Nat.le_refl
  | dumpDebuginfoCb =>
      obtain rfl := Option.some.inj hrun
      exact ⟨Or.inl Enqueues.of_eq, fun _ _ => rfl⟩

/-- The handler of a message touches neither the queue nor the duplicate set. -/
theorem processOlsrMsg_enqueues {ctx ctx' : OlsrContext} {msg : OlsrMsg} {src : InAddr}
    (h : ctx.Sound) (hrun : ctx.processOlsrMsg msg src = some ctx') :
  Enqueues ctx ctx' [] ∧ ctx'.dupTree = ctx.dupTree
  := by
  rw [processOlsrMsg] at hrun
  split_ifs at hrun
  · obtain rfl := Option.some.inj hrun
    exact ⟨Enqueues.of_eq, rfl⟩
  · cases hpayload : msg.payload with
    | hello hello =>
        simp only [hpayload] at hrun
        have hhandler : Handler.run ctx (.hello src msg.originator hello
          (meToReltime msg.vtime)) = some ctx' := hrun
        apply Handler.enqueues h hhandler
    | tc tc =>
        simp only [hpayload] at hrun
        have hhandler : Handler.run ctx (.tc src msg.originator tc
          (meToReltime msg.vtime)) = some ctx' := hrun
        apply Handler.enqueues h hhandler
    | other msgtype length =>
        simp only [hpayload] at hrun
        obtain rfl := Option.some.inj hrun
        exact ⟨Enqueues.of_eq, rfl⟩

/-- From `ctx` to `ctx'` a copy of the message may have been added to the queue, and its
duplicate entry may have changed. -/
structure Forwards (ctx ctx' : OlsrContext) (msg : OlsrMsg) : Prop where
  queue : Enqueues ctx ctx' [] ∨ ∃ m, m.CopyOf msg ∧ Enqueues ctx ctx' [m]
  dupTree : ∀ d, d ≠ msg.dkey → ctx'.dupTree.search d = ctx.dupTree.search d

/-- A change that does not touch the queue may come before forwarding. -/
theorem Forwards.of_enqueues {ctx ctx₁ ctx₂ : OlsrContext} {msg : OlsrMsg}
    (h : Forwards ctx₁ ctx₂ msg) (henqueues : Enqueues ctx ctx₁ [])
    (hdup : ∀ d, d ≠ msg.dkey → ctx₁.dupTree.search d = ctx.dupTree.search d) :
  Forwards ctx ctx₂ msg
  where
  queue := by
    rcases h.queue with hqueue | ⟨m, hm, hqueue⟩
    · left
      apply henqueues.trans hqueue
    · right
      exact ⟨m, hm, henqueues.trans hqueue⟩
  dupTree d hd := (h.dupTree d hd).trans (hdup d hd)

theorem Forwards.refl (ctx : OlsrContext) (msg : OlsrMsg) :
  Forwards ctx ctx msg
  := ⟨Or.inl Enqueues.of_eq, fun _ _ => rfl⟩

theorem retransmit_forwards (ctx : OlsrContext) (msg : OlsrMsg) (src : InAddr) :
  Forwards ctx (ctx.retransmit msg src) msg
  := by
  have hmodify : ∀ f d, d ≠ msg.dkey →
      (ctx.dupTree.modify msg.dkey f).search d = ctx.dupTree.search d := by
    intro f d hd
    rw [OrdMap.search_modify, if_neg hd]
  rw [retransmit]
  split_ifs
  · dsimp only
    split_ifs
    · exact ⟨Or.inl Enqueues.of_eq, hmodify _⟩
    · constructor
      · rcases pushMsg_enqueues _ _ with ⟨-, hpush⟩ | ⟨-, hpush⟩
        · left
          apply Enqueues.of_eq.trans hpush
        · right
          refine ⟨_, ?_, Enqueues.of_eq.trans hpush⟩
          rw [OlsrMsg.CopyOf]
      · rw [pushMsg_dupTree]
        apply hmodify
  · apply Forwards.refl

theorem olsrMsgForwarding_forwards {ctx ctx' : OlsrContext} {msg : OlsrMsg} {src : InAddr}
    (h : ctx.olsrMsgForwarding msg src = some ctx') :
  Forwards ctx ctx' msg
  := by
  rw [olsrMsgForwarding] at h
  cases hsearch : ctx.dupTree.search msg.dkey with
  | some delem =>
      simp only [hsearch] at h
      split_ifs at h
      · obtain rfl := Option.some.inj h
        apply Forwards.refl
      · obtain rfl := Option.some.inj h
        apply retransmit_forwards
  | none =>
      simp only [hsearch, createDupEntry, Option.bind_eq_bind, Option.bind_eq_some_iff,
        Option.pure_def, Option.some.injEq] at h
      obtain ⟨ctx₁, ⟨⟨timer, tq⟩, -, rfl⟩, rfl⟩ := h
      apply (retransmit_forwards _ msg src).of_enqueues Enqueues.of_eq
      intro d hd
      simp only [OrdMap.search_insert, if_neg hd]

/-- A received message of this node is ignored, and one of another node may be forwarded. -/
theorem handleOlsrMsg_queue {ctx ctx' : OlsrContext} {msg : OlsrMsg} {src : InAddr}
    (h : ctx.Sound) (hrun : ctx.handleOlsrMsg msg src = some ctx') :
  ctx' = ctx ∨ msg.originator ≠ ctx.ownIp ∧ Forwards ctx ctx' msg
  := by
  rw [handleOlsrMsg] at hrun
  by_cases hown : msg.originator = ctx.ownIp
  · rw [if_pos hown] at hrun
    left
    apply (Option.some.inj hrun).symm
  · rw [if_neg hown] at hrun
    obtain ⟨ctx₁, hprocess, hforward⟩ := Option.bind_eq_some_iff.mp hrun
    obtain ⟨henqueues, hdup⟩ := processOlsrMsg_enqueues h hprocess
    right
    refine ⟨hown, Forwards.of_enqueues ?_ henqueues (fun _ _ => by rw [hdup])⟩
    split_ifs at hforward
    · apply olsrMsgForwarding_forwards hforward
    · obtain rfl := Option.some.inj hforward
      apply Forwards.refl

/-- A round of the timer queue sends the queue, adds a message it builds, or does not touch it.
It makes no duplicate entry. -/
theorem workRound_queue {ctx ctx' : OlsrContext} {now currtime : Timespec} {rand : ℕ}
    (h : ctx.Sound) (hstep : nodeStep ctx (.work now currtime rand) = some ctx') :
  (Enqueues ctx ctx' [] ∨
    (∃ m, ctx.originates (.node (.work now currtime rand)) = some m ∧ ¬ ctx.Refuses m ∧
      Enqueues ctx ctx' [m]) ∨
    Flushes ctx ctx') ∧
  ∀ d ∈ ctx'.dupTree, ctx'.dupTree.search d = ctx.dupTree.search d
  := by
  rcases client.workRound_inv hstep with ⟨q, rfl⟩ | ⟨c, q, ctx₂, q', hfired, hrun, rfl⟩
  · exact ⟨Or.inl Enqueues.of_eq, fun _ _ => rfl⟩
  · have hsound : (client.setTq { ctx with clock := now } q).Sound := h.quiet Quiet.of_eq
    have hfired' : ctx.timerqueue.fired currtime = some c := hfired
    have hbefore : Enqueues ctx (client.setTq { ctx with clock := now } q) [] := Enqueues.of_eq
    have hafter : Enqueues ctx₂ (client.setTq ctx₂ q') [] := Enqueues.of_eq
    obtain ⟨hqueue | ⟨m, hbuilds, hroom, hqueue⟩ | hqueue, hdup⟩ := runCallback_queue hsound hrun
    · refine ⟨?_, hdup⟩
      left
      apply hbefore.trans (hqueue.trans hafter)
    · refine ⟨?_, hdup⟩
      right
      left
      refine ⟨m, ?_, hroom, hbefore.trans (hqueue.trans hafter)⟩
      rw [originates, hfired', Option.bind_some, ← hbuilds]
      cases c <;> rfl
    · refine ⟨?_, hdup⟩
      right
      right
      exact ⟨hqueue.ownIp, hqueue.nonempty, hqueue.olsrTxMsgbuf, hqueue.msgSeq, hqueue.sent⟩

/-- What an event does to the queue: it sends it, adds a message it builds or a message of
another node, or does not touch it. -/
theorem sendStep_queue {ctx ctx' : OlsrContext} {e : SendEvent} (h : ctx.Sound)
    (hstep : sendStep ctx e = some ctx') :
  Flushes ctx ctx' ∨ Enqueues ctx ctx' [] ∨
    ∃ m, Enqueues ctx ctx' [m] ∧
      (m.originator ≠ ctx.ownIp ∨ ctx.originates e = some m ∧ ¬ ctx.Refuses m)
  := by
  have hqueue : (Enqueues ctx ctx' [] ∨
      (∃ m, ctx.originates e = some m ∧ ¬ ctx.Refuses m ∧ Enqueues ctx ctx' [m]) ∨
      Flushes ctx ctx') ∨
      ∃ m, m.originator ≠ ctx.ownIp ∧ Enqueues ctx ctx' [m] := by
    cases e with
    | callback c =>
        left
        apply (runCallback_queue h hstep).1
    | node e =>
        cases e with
        | work now currtime rand =>
            left
            apply (workRound_queue h hstep).1
        | recv now src msg =>
            have hclock : OlsrContext.Sound { ctx with clock := now } := h.quiet Quiet.of_eq
            rcases handleOlsrMsg_queue hclock hstep with rfl | ⟨hown, hforward⟩
            · left
              left
              apply Enqueues.of_eq
            · rcases hforward.queue with hqueue | ⟨m, hm, hqueue⟩
              · left
                left
                apply Enqueues.of_eq.trans hqueue
              · right
                refine ⟨m, ?_, Enqueues.of_eq.trans hqueue⟩
                rw [hm]
                apply hown
  rcases hqueue with (hqueue | ⟨m, hm, hroom, hqueue⟩ | hqueue) | ⟨m, hm, hqueue⟩
  · right
    left
    apply hqueue
  · right
    right
    exact ⟨m, hqueue, Or.inr ⟨hm, hroom⟩⟩
  · left
    apply hqueue
  · right
    right
    exact ⟨m, hqueue, Or.inl hm⟩

theorem sendStep_sound {ctx ctx' : OlsrContext} {e : SendEvent} (h : ctx.Sound)
    (hstep : sendStep ctx e = some ctx') :
  ctx'.Sound
  := by
  cases e with
  | node e => apply h.step hstep
  | callback c =>
      rcases runCallback_inv hstep with hquiet | ⟨handler, -, hrun⟩
      · apply h.quiet hquiet
      · apply h.handler hrun

/-! ### Messages of a node are told apart -/

theorem OwnOnce.append {ownIp : InAddr} {n : ℕ} {msgs : List OlsrMsg} {m : OlsrMsg}
    (h : OwnOnce ownIp n msgs)
    (hm : m.originator = ownIp → m.seqno = BitVec.ofNat 16 n ∧ ∀ m' ∈ msgs, m'.originator ≠ ownIp) :
  OwnOnce ownIp n (msgs ++ [m])
  where
  once := by
    rw [List.pairwise_append]
    refine ⟨h.once, List.pairwise_singleton _ _, ?_⟩
    intro m' hm' m'' hm''
    rw [List.mem_singleton.mp hm'']
    rintro ⟨hown', hown⟩
    apply (hm hown).2 m' hm' hown'
  seqno m' hm' hown := by
    rcases List.mem_append.mp hm' with hm' | hm'
    · apply h.seqno m' hm' hown
    · rw [List.mem_singleton.mp hm'] at hown ⊢
      apply (hm hown).1

/-- The messages that callbacks build are of the node and carry the current number. -/
theorem originates_own {ctx : OlsrContext} {e : SendEvent} {m : OlsrMsg}
    (h : ctx.originates e = some m) :
  m.originator = ctx.ownIp ∧ m.seqno = ctx.msgSeq
  := by
  have hbuilds : ∀ c, ctx.builds c = some m → m.originator = ctx.ownIp ∧ m.seqno = ctx.msgSeq := by
    intro c hc
    cases c with
    | olsrHelloTimerCb =>
        obtain rfl := Option.some.inj hc
        exact ⟨rfl, rfl⟩
    | olsrTcTimerCb =>
        obtain rfl := Option.some.inj hc
        exact ⟨rfl, rfl⟩
    | _ => contradiction
  cases e with
  | callback c => apply hbuilds c h
  | node e =>
      cases e with
      | recv now src msg => contradiction
      | work now currtime rand =>
          obtain ⟨c, -, hc⟩ := Option.bind_eq_some_iff.mp h
          apply hbuilds c hc

/-- An event that builds no message while another one waits keeps packets numbered in order. -/
theorem Numbered.step {ctx ctx' : OlsrContext} (h : ctx.Numbered) (hsound : ctx.Sound)
    {e : SendEvent} (hapart : ctx.SendsApart e) (hstep : sendStep ctx e = some ctx') :
  ctx'.Numbered
  := by
  rcases sendStep_queue hsound hstep with hflush | hsame | ⟨m, hadd, hm⟩
  · have hlength : ctx'.sent.length = ctx.sent.length + 1 := by
      rw [hflush.sent, List.length_append, List.length_singleton]
    constructor
    · rw [hflush.msgSeq, h.msgSeq, hlength]
      apply (BitVec.ofNat_add _ _).symm
    · intro k pkt hk
      rw [hflush.ownIp]
      rw [hflush.sent] at hk
      rcases Nat.lt_or_ge k ctx.sent.length with hlt | hge
      · rw [List.getElem?_append_left hlt] at hk
        apply h.sent k pkt hk
      · rw [List.getElem?_append_right hge, List.getElem?_singleton] at hk
        split_ifs at hk with hzero
        obtain rfl : k = ctx.sent.length := by omega
        rw [← Option.some.inj hk]
        exact ⟨hflush.nonempty, h.waiting⟩
    · rw [hflush.olsrTxMsgbuf]
      constructor
      · apply List.Pairwise.nil
      · intro m hm
        contradiction
  · constructor
    · rw [hsame.msgSeq, hsame.sent, h.msgSeq]
    · rw [hsame.sent, hsame.ownIp]
      apply h.sent
    · rw [hsame.olsrTxMsgbuf, hsame.sent, hsame.ownIp, List.append_nil]
      apply h.waiting
  · constructor
    · rw [hadd.msgSeq, hadd.sent, h.msgSeq]
    · rw [hadd.sent, hadd.ownIp]
      apply h.sent
    · rw [hadd.olsrTxMsgbuf, hadd.sent, hadd.ownIp]
      apply h.waiting.append
      intro hown
      rcases hm with hother | ⟨horiginates, hroom⟩
      · contradiction
      · obtain ⟨-, hseqno⟩ := originates_own horiginates
        refine ⟨hseqno.trans h.msgSeq, ?_⟩
        rcases hapart m horiginates with hrefuses | hnone
        · contradiction
        · apply hnone

theorem olsrStart_numbered {ownIp : InAddr} {now : Timespec} {ctx : OlsrContext}
    (h : olsrStart ownIp now = some ctx) :
  ctx.Numbered
  := by
  obtain ⟨tq, rfl⟩ := olsrStart_inv h
  clear h
  constructor
  · rfl
  · intro k pkt hk
    contradiction
  · constructor
    · apply List.Pairwise.nil
    · intro m hm
      contradiction

/-! ### Receivers -/

/-- A duplicate entry is made for a message that is received. -/
theorem nodeStep_dupTree {ctx ctx' : OlsrContext} {e : NodeEvent} (h : ctx.Sound)
    (hstep : nodeStep ctx e = some ctx') {d : DuplicateSetKey} (hd : d ∈ ctx'.dupTree) :
  d ∈ ctx.dupTree ∨ ∃ now src m, e = .recv now src m ∧ m.dkey = d
  := by
  cases e with
  | recv now src msg =>
      have hclock : OlsrContext.Sound { ctx with clock := now } := h.quiet Quiet.of_eq
      rcases handleOlsrMsg_queue hclock hstep with rfl | ⟨-, hforward⟩
      · left
        apply hd
      · by_cases hkey : d = msg.dkey
        · right
          exact ⟨now, src, msg, rfl, hkey.symm⟩
        · left
          rw [OrdMap.mem_iff, hforward.dupTree d hkey] at hd
          apply OrdMap.mem_iff.mpr hd
  | work now currtime rand =>
      left
      have hsearch := (workRound_queue h hstep).2 d hd
      rw [OrdMap.mem_iff, hsearch] at hd
      apply OrdMap.mem_iff.mpr hd

/-- The duplicate set holds keys of messages that have been handled. -/
theorem mem_dupTree_of_run {ip : InAddr} {now : Timespec} {start ctx : OlsrContext}
    (hstart : olsrStart ip now = some start) {events : List NodeEvent}
    (hrun : events.foldlM nodeStep start = some ctx) :
  ctx.Sound ∧ ∀ d ∈ ctx.dupTree, ∃ now src m, NodeEvent.recv now src m ∈ events ∧ m.dkey = d
  := by
  induction events using List.reverseRecOn generalizing ctx with
  | nil =>
      obtain rfl := Option.some.inj hrun
      refine ⟨olsrStart_sound hstart, ?_⟩
      intro d hd
      obtain ⟨tq, rfl⟩ := olsrStart_inv hstart
      apply absurd hd (OrdMap.not_mem_empty d)
  | append_singleton events e ih =>
      rw [List.foldlM_append] at hrun
      obtain ⟨ctx₁, hctx₁, hrun⟩ := Option.bind_eq_some_iff.mp hrun
      rw [List.foldlM_cons] at hrun
      obtain ⟨ctx₂, hstep, hrefl⟩ := Option.bind_eq_some_iff.mp hrun
      obtain rfl := Option.some.inj hrefl
      obtain ⟨hsound, hold⟩ := ih hctx₁
      refine ⟨hsound.step hstep, ?_⟩
      intro d hd
      rcases nodeStep_dupTree hsound hstep hd with hd | ⟨now', src, m, rfl, rfl⟩
      · obtain ⟨now', src, m, hm, hdkey⟩ := hold d hd
        exact ⟨now', src, m, List.mem_append_left _ hm, hdkey⟩
      · exact ⟨now', src, m, List.mem_append_right _ (List.mem_singleton_self _), rfl⟩

/-- If the messages of a node are told apart, none of them is taken for another. -/
theorem DistinctSeqnos.freshAccepted {ctx : OlsrContext} (h : ctx.DistinctSeqnos) :
  ctx.FreshAccepted
  := by
  intro w ip now start rctx events hstart hrun hcopies j orig msg hwj hjw hj hown hcopy hprocessed
  obtain ⟨-, hdup⟩ := mem_dupTree_of_run hstart hrun
  obtain ⟨now', src, m, hm, hdkey⟩ := hdup msg.dkey (of_decide_eq_true hprocessed)
  have hdkey' : m.dkey = orig.dkey := hdkey.trans hcopy.dkey
  have hmown : m.originator = ctx.ownIp := by
    rw [← hown]
    apply congrArg DuplicateSetKey.orig hdkey'
  obtain ⟨i, orig', hwi, hiw, hi, hcopy'⟩ := hcopies now' src m hm hmown
  have horig : orig'.dkey = orig.dkey := hcopy'.dkey.symm.trans hdkey'
  have hown' : orig'.originator = ctx.ownIp := by
    rw [← hown]
    apply congrArg DuplicateSetKey.orig horig
  use now', src, m, hm
  rcases Nat.lt_trichotomy i j with hlt | rfl | hlt
  · apply absurd horig (h i j orig' orig hlt (by omega) hi hj hown' hown)
  · obtain rfl := Option.some.inj (hi.symm.trans hj)
    apply hcopy'
  · apply absurd horig.symm (h j i orig orig' hlt (by omega) hj hi hown hown')

/-- In every run in which no message is built while another one of the node waits to be sent,
the messages of the node are told apart, and a receiver takes none of them for a duplicate of
another. -/
theorem fresh_not_discarded {ownIp : InAddr} {now : Timespec} {start ctx : OlsrContext}
    (hstart : olsrStart ownIp now = some start) (h : Reaches sendStep SendsApart start ctx) :
  ctx.DistinctSeqnos ∧ ctx.FreshAccepted
  := by
  have hinv : ctx.Sound ∧ ctx.Numbered := by
    apply h.invariant _ ⟨olsrStart_sound hstart, olsrStart_numbered hstart⟩
    rintro ctx e ctx' ⟨hsound, hnumbered⟩ hapart hstep
    exact ⟨sendStep_sound hsound hstep, hnumbered.step hsound hapart hstep⟩
  have hdistinct := hinv.2.distinctSeqnos
  exact ⟨hdistinct, hdistinct.freshAccepted⟩

/-- A HELLO and a TC with a packet sent between them are told apart. -/
theorem fresh_not_discarded_two :
  ∃ start ctx, olsrStart (nodeIp 1) ⟨0, 0⟩ = some start ∧
    Reaches sendStep SendsApart start ctx ∧ ctx.queued.map OlsrMsg.seqno = [0, 1] ∧
    ctx.DistinctSeqnos ∧ ctx.FreshAccepted
  := by
  let check : OlsrContext → SendEvent → Bool := fun ctx e =>
    match ctx.originates e with
    | some _ => ctx.olsrTxMsgbuf = []
    | none => true
  have hcheck : ∀ ctx e, check ctx e = true → SendsApart ctx e := by
    intro ctx e h msg hmsg
    simp only [check, hmsg, decide_eq_true_eq] at h
    right
    rw [h]
    intro m hm
    contradiction
  have hrun : (olsrStart (nodeIp 1) ⟨0, 0⟩).bind (fun start =>
      ([SendEvent.callback .olsrHelloTimerCb, .callback .olsrSendFromQueueCb,
        .callback .olsrTcTimerCb].foldlM
        (fun ctx e => if check ctx e then sendStep ctx e else none) start).map
        (fun ctx => ctx.queued.map OlsrMsg.seqno)) = some [0, 1] := by
    decide +kernel
  obtain ⟨start, hstart, hrun⟩ := Option.bind_eq_some_iff.mp hrun
  obtain ⟨ctx, hctx, hseqnos⟩ := Option.map_eq_some_iff.mp hrun
  have hreach := Reaches.of_checked hcheck hctx
  exact ⟨start, ctx, hstart, hreach, hseqnos, fresh_not_discarded hstart hreach⟩

/-- The sixth and the seventh message of `ctx` are its own with one number. The receiver `rctx`
takes the seventh for a duplicate, which none of the first six is a copy of. -/
def takesForDuplicate (ctx rctx : OlsrContext) : Bool :=
  match ctx.queued[5]?, ctx.queued[6]? with
  | some m, some m' => m.originator = ctx.ownIp ∧ m'.originator = ctx.ownIp ∧
      m.dkey = m'.dkey ∧ rctx.isAlreadyProcessed m' ∧ ∀ x ∈ ctx.queued.take 6, ¬ x.CopyOf m'
  | _, _ => false

/-- With its timers as `olsr_start` sets them, after 2.5 seconds a node sends a TC and a HELLO
with one number in one packet. The receiver that handles all messages in order takes the HELLO
for a duplicate. -/
theorem fresh_discarded :
  ∃ start ctx, olsrStart (nodeIp 1) ⟨0, 0⟩ = some start ∧
    Reaches sendStep (fun _ _ => True) start ctx ∧
    ¬ ctx.DistinctSeqnos ∧ ¬ ctx.FreshAccepted
  := by
  let events : List SendEvent := (List.range 58).map (fun i =>
    .node (.work ⟨3, 0⟩ ⟨3, 0⟩ (if i = 26 then 48 else 49)))
  let received : OlsrContext → List NodeEvent := fun ctx =>
    (ctx.queued.take 6).map (fun m => .recv ⟨3, 0⟩ (nodeIp 1) m)
  have hrun : (olsrStart (nodeIp 1) ⟨0, 0⟩).bind (fun start =>
      (events.foldlM (fun ctx e => if true then sendStep ctx e else none) start).bind (fun ctx =>
        (olsrStart (nodeIp 2) ⟨0, 0⟩).bind (fun rstart =>
          ((received ctx).foldlM nodeStep rstart).map ctx.takesForDuplicate))) = some true := by
    decide +kernel
  obtain ⟨start, hstart, hrun⟩ := Option.bind_eq_some_iff.mp hrun
  obtain ⟨ctx, hctx, hrun⟩ := Option.bind_eq_some_iff.mp hrun
  obtain ⟨rstart, hrstart, hrun⟩ := Option.bind_eq_some_iff.mp hrun
  obtain ⟨rctx, hrctx, hrefutes⟩ := Option.map_eq_some_iff.mp hrun
  obtain ⟨m, m', hm, hm', hown, hown', hdkey, hprocessed, hnocopy⟩ : ∃ m m',
      ctx.queued[5]? = some m ∧ ctx.queued[6]? = some m' ∧ m.originator = ctx.ownIp ∧
      m'.originator = ctx.ownIp ∧ m.dkey = m'.dkey ∧ rctx.isAlreadyProcessed m' = true ∧
      ∀ x ∈ ctx.queued.take 6, ¬ x.CopyOf m' := by
    simp only [takesForDuplicate] at hrefutes
    split at hrefutes
    · rename_i m m' hm hm'
      exact ⟨m, m', hm, hm', of_decide_eq_true hrefutes⟩
    · apply absurd hrefutes Bool.false_ne_true
  refine ⟨start, ctx, hstart, Reaches.of_checked (fun _ _ _ => trivial) hctx, ?_, ?_⟩
  · intro hdistinct
    apply hdistinct 5 6 m m' (by decide) (by decide) hm hm' hown hown' hdkey
  · intro hfresh
    obtain ⟨now, src, x, hx, hcopy⟩ := hfresh 0 _ _ rstart rctx (received ctx) hrstart hrctx
      (by
        intro now src x hx _
        obtain ⟨y, hy, heq⟩ := List.mem_map.mp hx
        obtain ⟨-, -, rfl⟩ := NodeEvent.recv.inj heq
        obtain ⟨i, hi⟩ := List.getElem?_of_mem hy
        rw [List.getElem?_take] at hi
        split_ifs at hi with hlt
        exact ⟨i, y, Nat.zero_le i, by omega, hi, rfl⟩)
      6 m' m' (by decide) (by decide) hm' hown' rfl hprocessed
    obtain ⟨y, hy, heq⟩ := List.mem_map.mp hx
    obtain ⟨-, -, rfl⟩ := NodeEvent.recv.inj heq
    apply hnocopy y hy hcopy

end OlsrContext
