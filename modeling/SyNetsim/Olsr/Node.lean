import SyNetsim.Lib.Run
import SyNetsim.Olsr.Route

/-!
# What a node keeps true

Every step of a node either leaves links, neighbours, relays, topology and routing table as
they are (`Quiet`), or is one of five handlers (`nodeStep_inv`). From this follow the
invariants of whole runs, whatever messages are received.

* Links, neighbours and relays agree (`consistent_of_reaches`).
* The routing table is the one `calc_routing_table` would make, as long as no TC arrives that
  makes a topology entry without recalculation (`routingFresh_of_reaches`).
* The relays are symmetric and cover the two-hop neighbours, as long as no link or two-hop
  neighbour expires that the choice of relays rests on (`mprCurrent_of_reaches`).
-/

namespace OlsrContext

/-! ### What a step can do -/

/-- Between `ctx` and `ctx'` links, neighbours, relays, topology and routing table are the
same. -/
structure Quiet (ctx ctx' : OlsrContext) : Prop where
  ownIp : ctx'.ownIp = ctx.ownIp
  localIfaceTree : ctx'.localIfaceTree = ctx.localIfaceTree
  neighborTree : ctx'.neighborTree = ctx.neighborTree
  mprTree : ctx'.mprTree = ctx.mprTree
  topologyTree : ctx'.topologyTree = ctx.topologyTree
  routingTable : ctx'.routingTable = ctx.routingTable

theorem Quiet.trans {ctx ctx' ctx'' : OlsrContext} (h : Quiet ctx ctx') (h' : Quiet ctx' ctx'') :
  Quiet ctx ctx''
  where
  ownIp := h'.ownIp.trans h.ownIp
  localIfaceTree := h'.localIfaceTree.trans h.localIfaceTree
  neighborTree := h'.neighborTree.trans h.neighborTree
  mprTree := h'.mprTree.trans h.mprTree
  topologyTree := h'.topologyTree.trans h.topologyTree
  routingTable := h'.routingTable.trans h.routingTable

/-- A change of queues, counters, selectors, duplicate set and timers is quiet. -/
theorem Quiet.of_eq {ctx : OlsrContext} {tq : TimerqueueContext Callback} {msgs : List OlsrMsg}
    {msgSeq ansn : BitVec 16} {elems : OrdMap ℕ MprSelectorElem} {selectors : OrdMap InAddr ℕ}
    {dup : OrdMap DuplicateSetKey DuplicateSetElem} {clock : Timespec} {nextId : ℕ}
    {sent : List OlsrPacket} :
  Quiet ctx { ctx with
    timerqueue := tq, olsrTxMsgbuf := msgs, msgSeq := msgSeq, ansn := ansn,
    selectorElems := elems, selectorTree := selectors, dupTree := dup, clock := clock,
    nextId := nextId, sent := sent }
  := ⟨rfl, rfl, rfl, rfl, rfl, rfl⟩

theorem pushMsg_quiet (ctx : OlsrContext) (msg : OlsrMsg) :
  Quiet ctx (ctx.pushMsg msg)
  := by
  obtain ⟨msgs, hpush⟩ := pushMsg_eq ctx msg
  rw [hpush]
  apply Quiet.of_eq

theorem retransmit_quiet (ctx : OlsrContext) (msg : OlsrMsg) (src : InAddr) :
  Quiet ctx (ctx.retransmit msg src)
  := by
  rw [retransmit]
  split_ifs
  · dsimp only
    split_ifs
    · apply Quiet.of_eq
    · apply Quiet.trans Quiet.of_eq (pushMsg_quiet _ _)
  · apply Quiet.of_eq

theorem olsrMsgForwarding_quiet {ctx ctx' : OlsrContext} {msg : OlsrMsg} {src : InAddr}
    (h : ctx.olsrMsgForwarding msg src = some ctx') :
  Quiet ctx ctx'
  := by
  rw [olsrMsgForwarding] at h
  cases hsearch : ctx.dupTree.search msg.dkey with
  | some delem =>
      simp only [hsearch] at h
      split_ifs at h
      · obtain rfl := Option.some.inj h
        apply Quiet.of_eq
      · obtain rfl := Option.some.inj h
        apply retransmit_quiet
  | none =>
      simp only [hsearch, createDupEntry, Option.bind_eq_bind, Option.bind_eq_some_iff,
        Option.pure_def, Option.some.injEq] at h
      obtain ⟨ctx₁, ⟨⟨timer, tq⟩, -, rfl⟩, rfl⟩ := h
      apply Quiet.trans Quiet.of_eq (retransmit_quiet _ _ _)

/-- The five handlers that change links, neighbours, relays, topology or routing table. -/
inductive Handler where
  | hello (src orig : InAddr) (msg : HelloMsg) (vtime : ℕ)
  | tc (src orig : InAddr) (msg : TcMsg) (vtime : ℕ)
  | link (arg : Ptr (InAddr × InAddr))
  | neigh2 (arg : Ptr (InAddr × InAddr))
  | topology (arg : Ptr InAddr)

/-- What a handler does. -/
def Handler.run (ctx : OlsrContext) : Handler → Option OlsrContext
  | hello src orig msg vtime => ctx.processOlsrHello src orig msg vtime
  | tc src orig msg vtime => ctx.processOlsrTc msg src orig vtime
  | link arg => ctx.linkTimerExpire arg
  | neigh2 arg => ctx.neigh2ElemExpire arg
  | topology arg => ctx.topologyInfoTimerExpireCb arg

/-- The handler among the five that a received message is given to, if there is one. -/
def msgHandler (ctx : OlsrContext) (src : InAddr) (msg : OlsrMsg) : Option Handler :=
  if msg.originator = ctx.ownIp ∨ ctx.isAlreadyProcessed msg then none
  else
    match msg.payload with
    | .hello hello => some (.hello src msg.originator hello (meToReltime msg.vtime))
    | .tc tc => some (.tc src msg.originator tc (meToReltime msg.vtime))
    | .other _ _ => none

/-- The handler among the five that a callback is, if it is one. -/
def callbackHandler : Callback → Option Handler
  | .linkTimerExpire arg => some (.link arg)
  | .neigh2ElemExpire arg => some (.neigh2 arg)
  | .topologyInfoTimerExpireCb arg => some (.topology arg)
  | _ => none

/-- The handler among the five that an event runs, if there is one. -/
def handlerOf (ctx : OlsrContext) : NodeEvent → Option Handler
  | .recv _ src msg => ctx.msgHandler src msg
  | .work _ currtime _ => (ctx.timerqueue.fired currtime).bind callbackHandler

/-- A callback is one of the five handlers, or quiet. -/
theorem runCallback_inv {ctx ctx' : OlsrContext} {c : Callback}
    (h : runCallback c ctx = some ctx') :
  Quiet ctx ctx' ∨ ∃ handler, callbackHandler c = some handler ∧ handler.run ctx = some ctx'
  := by
  cases c with
  | linkTimerExpire arg =>
      right
      exact ⟨.link arg, rfl, h⟩
  | neigh2ElemExpire arg =>
      right
      exact ⟨.neigh2 arg, rfl, h⟩
  | topologyInfoTimerExpireCb arg =>
      right
      exact ⟨.topology arg, rfl, h⟩
  | expireDupEntryCb arg =>
      simp only [runCallback, expireDupEntryCb, Option.bind_eq_bind, Option.bind_eq_some_iff,
        Option.pure_def, Option.some.injEq] at h
      obtain ⟨delem, -, tq, -, rfl⟩ := h
      left
      apply Quiet.of_eq
  | mprSelectorExpire arg =>
      simp only [runCallback, mprSelectorExpire, Option.bind_eq_bind, Option.bind_eq_some_iff,
        Option.pure_def, Option.some.injEq] at h
      obtain ⟨expElem, -, tq, -, rfl⟩ := h
      left
      apply Quiet.of_eq
  | olsrHelloTimerCb =>
      obtain rfl := Option.some.inj h
      left
      apply pushMsg_quiet
  | olsrTcTimerCb =>
      obtain rfl := Option.some.inj h
      left
      apply Quiet.trans Quiet.of_eq (pushMsg_quiet _ _)
  | olsrSendFromQueueCb =>
      obtain rfl := Option.some.inj h
      left
      rw [olsrSendFromQueueCb]
      split_ifs
      · apply Quiet.of_eq
      · apply Quiet.of_eq
  | dumpDebuginfoCb =>
      obtain rfl := Option.some.inj h
      left
      apply Quiet.of_eq

/-- A received message is given to one of the five handlers, with quiet changes after it, or is
quiet. -/
theorem handleOlsrMsg_inv {ctx ctx' : OlsrContext} {msg : OlsrMsg} {src : InAddr}
    (h : ctx.handleOlsrMsg msg src = some ctx') :
  Quiet ctx ctx' ∨ ∃ handler ctx₁, ctx.msgHandler src msg = some handler ∧
    handler.run ctx = some ctx₁ ∧ Quiet ctx₁ ctx'
  := by
  rw [handleOlsrMsg] at h
  by_cases hown : msg.originator = ctx.ownIp
  · rw [if_pos hown] at h
    obtain rfl := Option.some.inj h
    left
    apply Quiet.of_eq
  · rw [if_neg hown] at h
    obtain ⟨ctx₁, hprocess, h⟩ := Option.bind_eq_some_iff.mp h
    have hforward : Quiet ctx₁ ctx' := by
      split_ifs at h
      · apply olsrMsgForwarding_quiet h
      · obtain rfl := Option.some.inj h
        apply Quiet.of_eq
    rw [processOlsrMsg] at hprocess
    by_cases hdup : ctx.isAlreadyProcessed msg = true
    · rw [if_pos hdup] at hprocess
      obtain rfl := Option.some.inj hprocess
      left
      apply hforward
    · rw [if_neg hdup] at hprocess
      cases hpayload : msg.payload with
      | hello hello =>
          right
          refine ⟨.hello src msg.originator hello (meToReltime msg.vtime), ctx₁, ?_, ?_, hforward⟩
          · simp [msgHandler, hown, hdup, hpayload]
          · simp only [hpayload] at hprocess
            apply hprocess
      | tc tc =>
          right
          refine ⟨.tc src msg.originator tc (meToReltime msg.vtime), ctx₁, ?_, ?_, hforward⟩
          · simp [msgHandler, hown, hdup, hpayload]
          · simp only [hpayload] at hprocess
            apply hprocess
      | other msgtype length =>
          simp only [hpayload] at hprocess
          obtain rfl := Option.some.inj hprocess
          left
          apply hforward

/-- A step is quiet, or runs one of the five handlers with quiet changes before and after. -/
theorem nodeStep_inv {ctx ctx' : OlsrContext} {e : NodeEvent} (h : nodeStep ctx e = some ctx') :
  Quiet ctx ctx' ∨ ∃ handler ctx₁ ctx₂, ctx.handlerOf e = some handler ∧ Quiet ctx ctx₁ ∧
    handler.run ctx₁ = some ctx₂ ∧ Quiet ctx₂ ctx'
  := by
  cases e with
  | recv now src msg =>
      rcases handleOlsrMsg_inv h with hquiet | ⟨handler, ctx₁, hhandler, hrun, hquiet⟩
      · left
        apply Quiet.trans Quiet.of_eq hquiet
      · right
        exact ⟨handler, { ctx with clock := now }, ctx₁, hhandler, Quiet.of_eq, hrun, hquiet⟩
  | work now currtime rand =>
      rcases client.workRound_inv h with ⟨q, rfl⟩ | ⟨c, q, ctx₂, q', hfired, hrun, rfl⟩
      · left
        apply Quiet.of_eq
      · have hfired' : ctx.timerqueue.fired currtime = some c := hfired
        have hbefore : Quiet ctx (client.setTq { ctx with clock := now } q) := Quiet.of_eq
        have hafter : Quiet ctx₂ (client.setTq ctx₂ q') := Quiet.of_eq
        rcases runCallback_inv hrun with hquiet | ⟨handler, hhandler, hrun⟩
        · left
          apply hbefore.trans (hquiet.trans hafter)
        · right
          refine ⟨handler, _, ctx₂, ?_, hbefore, hrun, hafter⟩
          rw [handlerOf, hfired', Option.bind_some, hhandler]

/-! ### Links, neighbours and relays -/

/-- What the other invariants of a node rest on: links, neighbours and relays agree, and the
topology bears no marks. -/
structure Sound (ctx : OlsrContext) : Prop where
  consistent : ctx.Consistent none
  notDuplicated : NotDuplicated ctx.topologyTree

theorem Sound.quiet {ctx ctx' : OlsrContext} (h : ctx.Sound) (hquiet : Quiet ctx ctx') :
  ctx'.Sound
  where
  consistent := h.consistent.of_eq hquiet.localIfaceTree hquiet.neighborTree hquiet.mprTree
  notDuplicated := by
    rw [hquiet.topologyTree]
    apply h.notDuplicated

theorem Sound.topologyChange {ctx ctx' : OlsrContext} {topo : OrdMap InAddr TopologyInfoElem}
    (h : ctx.Sound) (hchange : TopologyChange ctx ctx' topo) (hdup : NotDuplicated topo) :
  ctx'.Sound
  where
  consistent := by
    obtain ⟨tq, nextId, hcore⟩ := hchange
    apply h.consistent.of_eq
    · have hifaces := congrArg OlsrContext.localIfaceTree hcore
      apply hifaces
    · have hneighbors := congrArg OlsrContext.neighborTree hcore
      apply hneighbors
    · have hmprs := congrArg OlsrContext.mprTree hcore
      apply hmprs
  notDuplicated := by
    rw [hchange.topologyTree]
    apply hdup

theorem Sound.local {ctx ctx' : OlsrContext} (h : ctx.Sound) (hlocal : ctx.Local ctx')
    (hconsistent : ctx'.Consistent none) :
  ctx'.Sound
  where
  consistent := hconsistent
  notDuplicated := by
    rw [hlocal.topologyTree]
    apply h.notDuplicated

/-- Every handler keeps links, neighbours and relays in agreement. -/
theorem Sound.handler {ctx ctx' : OlsrContext} (h : ctx.Sound) {handler : Handler}
    (hrun : handler.run ctx = some ctx') :
  ctx'.Sound
  := by
  cases handler with
  | hello src orig msg vtime =>
      obtain ⟨ctx₁, hc, hlocal, hsel⟩ := processOlsrHello_inv h.consistent h.notDuplicated hrun
      apply h.local (hlocal.trans hsel.local) (hc.mprSelected hsel)
  | tc src orig msg vtime =>
      obtain ⟨topo, hchange, hdup, -⟩ := processOlsrTc_inv hrun h.notDuplicated
      apply h.topologyChange hchange hdup
  | link arg =>
      obtain ⟨hc, hlocal⟩ := h.consistent.linkTimerExpire h.notDuplicated hrun
      apply h.local hlocal hc
  | neigh2 arg =>
      obtain ⟨neigh, -, -, hchange⟩ := neigh2ElemExpire_inv h.consistent hrun
      apply h.local hchange.local (h.consistent.neigh2Change hchange)
  | topology arg =>
      obtain ⟨topo, hchange, hdup, -⟩ := topologyInfoTimerExpireCb_inv hrun h.notDuplicated
      apply h.topologyChange hchange hdup

/-- A step keeps links, neighbours and relays in agreement. -/
theorem Sound.step {ctx ctx' : OlsrContext} (h : ctx.Sound) {e : NodeEvent}
    (hstep : nodeStep ctx e = some ctx') :
  ctx'.Sound
  := by
  rcases nodeStep_inv hstep with hquiet | ⟨handler, ctx₁, ctx₂, -, hbefore, hrun, hafter⟩
  · apply h.quiet hquiet
  · apply ((h.quiet hbefore).handler hrun).quiet hafter

/-- Starting a node sets timers only. -/
theorem olsrStart_inv {ownIp : InAddr} {now : Timespec} {ctx : OlsrContext}
    (h : olsrStart ownIp now = some ctx) :
  ∃ tq, ctx = { initOlsrContext ownIp now with timerqueue := tq }
  := by
  have htimer : ∀ {ctx ctx' : OlsrContext} {c : Callback} {i j : ℤ},
      ctx.startPeriodicTimer c i j = some ctx' → ∃ tq, ctx' = { ctx with timerqueue := tq } := by
    intro ctx ctx' c i j h
    simp only [startPeriodicTimer, Option.bind_eq_bind, Option.bind_eq_some_iff, Option.pure_def,
      Option.some.injEq] at h
    obtain ⟨⟨p, tq⟩, -, rfl⟩ := h
    exact ⟨_, rfl⟩
  simp only [olsrStart, olsrStartTimer, Option.bind_eq_bind, Option.bind_eq_some_iff] at h
  obtain ⟨ctx₁, h₁, ctx₂, h₂, ctx₃, h₃, h⟩ := h
  obtain ⟨tq₁, rfl⟩ := htimer h₁
  obtain ⟨tq₂, rfl⟩ := htimer h₂
  obtain ⟨tq₃, rfl⟩ := htimer h₃
  obtain ⟨tq, rfl⟩ := htimer h
  exact ⟨tq, rfl⟩

/-- A node that has started has empty tables. -/
theorem olsrStart_quiet {ownIp : InAddr} {now : Timespec} {ctx : OlsrContext}
    (h : olsrStart ownIp now = some ctx) :
  Quiet (initOlsrContext ownIp now) ctx
  := by
  obtain ⟨tq, rfl⟩ := olsrStart_inv h
  apply Quiet.of_eq

theorem olsrStart_sound {ownIp : InAddr} {now : Timespec} {ctx : OlsrContext}
    (h : olsrStart ownIp now = some ctx) :
  ctx.Sound
  := by
  apply Sound.quiet _ (olsrStart_quiet h)
  constructor
  · apply consistent_empty rfl rfl rfl
  · intro d telem hd
    clear h
    contradiction

/-- Links, neighbours and relays agree in every state a node reaches, whatever it receives. -/
theorem sound_of_reaches {ownIp : InAddr} {now : Timespec} {start ctx : OlsrContext}
    {ok : OlsrContext → NodeEvent → Prop} (hstart : olsrStart ownIp now = some start)
    (h : Reaches nodeStep ok start ctx) :
  ctx.Sound
  := h.invariant (fun _ _ _ hs _ hstep => hs.step hstep) (olsrStart_sound hstart)

/-! ### Messages of concrete runs -/

/-- A HELLO that makes `192.168.2.1` a symmetric neighbour of `192.168.1.1`. -/
def helloOfTwo (n2addrs : List InAddr) : OlsrMsg where
  vtime := 0
  originator := nodeIp 2
  ttl := 1
  hopcnt := 0
  seqno := 0
  payload := .hello ⟨0, willDefault,
    [⟨createLinkCode NeighborStatus.notNeigh.code LinkStatus.asymLink.code, nodeIp 1 :: n2addrs⟩]⟩

/-- A TC of `orig` that lists `neigh`. -/
def tcOf (orig : InAddr) (seqno : BitVec 16) (ttl : BitVec 8) (neigh : List InAddr) : OlsrMsg where
  vtime := 0
  originator := orig
  ttl := ttl
  hopcnt := 0
  seqno := seqno
  payload := .tc ⟨0, neigh⟩

end OlsrContext
