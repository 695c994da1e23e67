import SyNetsim.Olsr.Forwarding
import SyNetsim.Olsr.Tc

/-!
# The node

`olsr_route.c`: the periodic timers that send HELLO and TC messages and flush the queue of
messages to packets, and the handling of received messages. Together with the timer queue
these make the steps of a node (`NodeEvent`, `nodeStep`).
-/

namespace OlsrContext

/-! ### Sending -/

/-- `olsr_send_from_queue_cb`: the messages waiting are sent as one packet. -/
def olsrSendFromQueueCb (ctx : OlsrContext) : OlsrContext :=
  if (ctx.olsrTxMsgbuf.map OlsrMsg.msgsize).sum ≤ 0 then ctx
  else
    { ctx with
      sent := ctx.sent ++ [⟨ctx.ownIp, ctx.msgSeq, ctx.olsrTxMsgbuf⟩]
      olsrTxMsgbuf := []
      msgSeq := ctx.msgSeq + 1 }

/-- The HELLO that `olsr_hello_timer_cb` puts into the queue. -/
def ownHello (ctx : OlsrContext) : OlsrMsg where
  vtime := reltimeToMe defHelloVtime
  originator := ctx.ownIp
  ttl := 1
  hopcnt := 0
  seqno := ctx.msgSeq
  payload := .hello ctx.buildOlsrHello

/-- The TC that `olsr_tc_timer_cb` puts into the queue. -/
def ownTc (ctx : OlsrContext) : OlsrMsg where
  vtime := reltimeToMe defTcVtime
  originator := ctx.ownIp
  ttl := 64
  hopcnt := 0
  seqno := ctx.msgSeq
  payload := .tc ctx.buildOlsrTc.1

/-- `olsr_hello_timer_cb`. -/
def olsrHelloTimerCb (ctx : OlsrContext) : OlsrContext := ctx.pushMsg ctx.ownHello

/-- `olsr_tc_timer_cb`: building the TC advances `ansn`. -/
def olsrTcTimerCb (ctx : OlsrContext) : OlsrContext := ctx.buildOlsrTc.2.pushMsg ctx.ownTc

/-! ### Receiving -/

/-- `is_already_processed`. -/
def isAlreadyProcessed (ctx : OlsrContext) (msg : OlsrMsg) : Bool := msg.dkey ∈ ctx.dupTree

/-- `process_olsr_msg`. -/
def processOlsrMsg (ctx : OlsrContext) (msg : OlsrMsg) (src : InAddr) : Option OlsrContext :=
  if ctx.isAlreadyProcessed msg then some ctx
  else
    let vtime := meToReltime msg.vtime
    match msg.payload with
    | .hello hello => ctx.processOlsrHello src msg.originator hello vtime
    | .tc tc => ctx.processOlsrTc tc src msg.originator vtime
    | .other _ _ => some ctx

/-- `handle_olsr_msg`. -/
def handleOlsrMsg (ctx : OlsrContext) (msg : OlsrMsg) (src : InAddr) : Option OlsrContext :=
  if msg.originator = ctx.ownIp then some ctx
  else do
    let ctx ← ctx.processOlsrMsg msg src
    if msg.ttl > 1 then ctx.olsrMsgForwarding msg src else return ctx

/-- `handle_route_pkt`: the messages of a packet, one after the other. -/
def handleRoutePkt (ctx : OlsrContext) (pkt : OlsrPacket) : Option OlsrContext :=
  pkt.msgs.foldlM (fun ctx msg => ctx.handleOlsrMsg msg pkt.src) ctx

/-! ### Timers -/

/-- Start a periodic timer. Its field `max_jitter` is read when it fires. -/
def startPeriodicTimer (ctx : OlsrContext) (callback : Callback) (intervalUs maxJitter : ℤ) :
    Option OlsrContext := do
  let (p, tq) ← ctx.timerqueue.startTimer ctx.clock callback intervalUs false
  return { ctx with timerqueue := tq.update p (fun e => { e with maxJitter := maxJitter }) }

/-- `olsr_start_timer`. -/
def olsrStartTimer (ctx : OlsrContext) : Option OlsrContext := do
  let ctx ← ctx.startPeriodicTimer .olsrHelloTimerCb (ctx.param.helloIntervalMs * 1000)
    (ctx.param.helloIntervalMs * 1000 / 8)
  let ctx ← ctx.startPeriodicTimer .olsrTcTimerCb (ctx.param.tcIntervalMs * 1000)
    (ctx.param.tcIntervalMs * 1000 / 8)
  let ctx ← ctx.startPeriodicTimer .olsrSendFromQueueCb (50 * 1000) 0
  ctx.startPeriodicTimer .dumpDebuginfoCb (6000 * 1000) (100 * 1000)

/-- `olsr_start`, at the time `now`. -/
def olsrStart (ownIp : InAddr) (now : Timespec) : Option OlsrContext :=
  (initOlsrContext ownIp now).olsrStartTimer

/-- What a callback does. Dumping the state changes nothing. -/
def runCallback : Callback → OlsrContext → Option OlsrContext
  | .linkTimerExpire arg, ctx => ctx.linkTimerExpire arg
  | .neigh2ElemExpire arg, ctx => ctx.neigh2ElemExpire arg
  | .topologyInfoTimerExpireCb arg, ctx => ctx.topologyInfoTimerExpireCb arg
  | .expireDupEntryCb arg, ctx => ctx.expireDupEntryCb arg
  | .mprSelectorExpire arg, ctx => ctx.mprSelectorExpire arg
  | .olsrHelloTimerCb, ctx => some ctx.olsrHelloTimerCb
  | .olsrTcTimerCb, ctx => some ctx.olsrTcTimerCb
  | .olsrSendFromQueueCb, ctx => some ctx.olsrSendFromQueueCb
  | .dumpDebuginfoCb, ctx => some ctx

/-- A node as a program with a timer queue. -/
def client : TqClient OlsrContext Callback where
  tq := OlsrContext.timerqueue
  setTq ctx tq := { ctx with timerqueue := tq }
  callback := runCallback
  tq_setTq _ _ := rfl
  setTq_tq _ := rfl
  setTq_setTq _ _ _ := rfl

end OlsrContext

/-! ### Steps of a node -/

/-- What happens to a node: it receives a message from `src`, or its timer queue goes through
one round of `timerqueue_work` with the time `currtime`, `rand` being what `rand()` gives. The
clock reads `now` during the event. -/
inductive NodeEvent where
  | recv (now : Timespec) (src : InAddr) (msg : OlsrMsg)
  | work (now currtime : Timespec) (rand : ℕ)

/-- What an event does to a node, or `none` if the node uses memory wrongly. -/
def nodeStep (ctx : OlsrContext) : NodeEvent → Option OlsrContext
  | .recv now src msg => { ctx with clock := now }.handleOlsrMsg msg src
  | .work now currtime rand => OlsrContext.client.workRound currtime rand { ctx with clock := now }
