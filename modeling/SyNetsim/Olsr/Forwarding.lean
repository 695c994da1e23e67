import SyNetsim.Olsr.Hello

/-!
# Forwarding of messages

`olsr_forwarding.c`: a message that may travel on is entered in the duplicate set, and
retransmitted once, when it first comes from a node that chose this node as a relay.
-/

/-- `OLSR_TX_MSGBUF_SIZE`. -/
def olsrTxMsgbufSize : ℕ := 2000

/-- The key of a message in the duplicate set. -/
def OlsrMsg.dkey (msg : OlsrMsg) : DuplicateSetKey := ⟨msg.originator, msg.seqno⟩

namespace OlsrContext

/-- `RingBuffer_push` to `olsr_tx_msgbuf`: a message for which there is no room is refused. -/
def pushMsg (ctx : OlsrContext) (msg : OlsrMsg) : OlsrContext :=
  if msg.msgsize > olsrTxMsgbufSize - (ctx.olsrTxMsgbuf.map OlsrMsg.msgsize).sum then ctx
  else { ctx with olsrTxMsgbuf := ctx.olsrTxMsgbuf ++ [msg] }

theorem pushMsg_eq (ctx : OlsrContext) (msg : OlsrMsg) :
  ∃ msgs, ctx.pushMsg msg = { ctx with olsrTxMsgbuf := msgs }
  := by
  rw [pushMsg]
  split_ifs
  · exact ⟨ctx.olsrTxMsgbuf, rfl⟩
  · exact ⟨_, rfl⟩

/-- `is_mpr_selector`. -/
def isMprSelector (ctx : OlsrContext) (addr : InAddr) : Bool := addr ∈ ctx.selectorTree

/-- Follow a pointer to a duplicate entry. -/
def followDup (ctx : OlsrContext) (arg : Ptr DuplicateSetKey) : Option DuplicateSetElem :=
  (ctx.dupTree.search arg.key).filter (fun delem => delem.id = arg.id)

/-- `expire_dup_entry_cb`. -/
def expireDupEntryCb (ctx : OlsrContext) (arg : Ptr DuplicateSetKey) : Option OlsrContext := do
  let delem ← ctx.followDup arg
  let tq ← ctx.timerqueue.timerqueueFreeTimer delem.expireTimer
  return { ctx with timerqueue := tq, dupTree := ctx.dupTree.erase arg.key }

/-- `create_dup_entry`, with the insertion that follows it. -/
def createDupEntry (ctx : OlsrContext) (dkey : DuplicateSetKey) : Option OlsrContext := do
  let (timer, tq) ← ctx.timerqueue.startTimer ctx.clock (.expireDupEntryCb ⟨dkey, ctx.nextId⟩)
    (toInt (defDupHoldTimeMs * 1000)) true
  return { ctx with
    timerqueue := tq
    nextId := ctx.nextId + 1
    dupTree := ctx.dupTree.insert dkey ⟨ctx.nextId, false, [ctx.ownIp], timer⟩ }

/-- The end of `olsr_msg_forwarding`, for a message not yet retransmitted. -/
def retransmit (ctx : OlsrContext) (msg : OlsrMsg) (src : InAddr) : OlsrContext :=
  if ctx.isMprSelector src then
    let ctx := { ctx with
      dupTree := ctx.dupTree.modify msg.dkey (fun delem => { delem with retransmitted := true }) }
    let msg := { msg with ttl := msg.ttl - 1, hopcnt := msg.hopcnt + 1 }
    if msg.ttl = 0 then ctx else ctx.pushMsg msg
  else ctx

/-- `olsr_msg_forwarding`. -/
def olsrMsgForwarding (ctx : OlsrContext) (msg : OlsrMsg) (src : InAddr) : Option OlsrContext :=
  match ctx.dupTree.search msg.dkey with
  | some delem => if delem.retransmitted then some ctx else some (ctx.retransmit msg src)
  | none => do
      let ctx ← ctx.createDupEntry msg.dkey
      return ctx.retransmit msg src

end OlsrContext
