import SyNetsim.Olsr.Flooding

/-!
# Retransmission and the queue

`olsr_msg_forwarding` marks a message as retransmitted before it puts the message into
`olsr_tx_msgbuf`, and does not look whether there was room for it. A message that is refused is
marked without having been queued, and no later copy of it is forwarded.

So a mark stands for a queued message exactly if the queue has room for each message that is marked
(`OlsrContext.marksQueued_iff`).
-/

namespace OlsrContext

/-! ### The duplicate entry -/

/-- A duplicate entry can be made in every state. -/
theorem exists_createDupEntry (ctx : OlsrContext) (dkey : DuplicateSetKey) :
  ∃ timer tq, ctx.createDupEntry dkey = some { ctx with
    timerqueue := tq
    nextId := ctx.nextId + 1
    dupTree := ctx.dupTree.insert dkey ⟨ctx.nextId, false, [ctx.ownIp], timer⟩ }
  := by
  simp only [createDupEntry, TimerqueueContext.startTimer, TimerqueueContext.timerqueueNewTimer,
    TimerqueueContext.timerqueueRegisterTimer, TimerqueueContext.search_update, if_true,
    OrdMap.search_insert, Option.map_some, Option.bind_eq_bind, Option.bind_some, Option.pure_def]
  exact ⟨_, _, rfl⟩

/-- Forwarding leaves alone a message that is marked. -/
theorem olsrMsgForwarding_of_relayed {ctx : OlsrContext} {msg : OlsrMsg}
    (h : ctx.hasRelayed msg.dkey = true) (src : InAddr) :
  ctx.olsrMsgForwarding msg src = some ctx
  := by
  rw [hasRelayed, Option.any_eq_true] at h
  obtain ⟨delem, hdelem, hretransmitted⟩ := h
  simp only [olsrMsgForwarding, hdelem, hretransmitted, if_true]

/-- A message that is not marked is retransmitted by a node that remembers it. -/
theorem olsrMsgForwarding_of_not_relayed {ctx : OlsrContext} {msg : OlsrMsg}
    (h : ctx.hasRelayed msg.dkey = false) (src : InAddr) :
  ∃ ctx₁ : OlsrContext, ctx.olsrMsgForwarding msg src = some (ctx₁.retransmit msg src) ∧
    ctx₁.olsrTxMsgbuf = ctx.olsrTxMsgbuf ∧ ctx₁.selectorTree = ctx.selectorTree ∧
    msg.dkey ∈ ctx₁.dupTree ∧ ctx₁.hasRelayed msg.dkey = false
  := by
  rw [olsrMsgForwarding]
  cases hsearch : ctx.dupTree.search msg.dkey with
  | some delem =>
      have hretransmitted : ¬ delem.retransmitted = true := by
        simpa [hasRelayed, hsearch] using h
      exact ⟨ctx, if_neg hretransmitted, rfl, rfl, OrdMap.mem_of_search hsearch, h⟩
  | none =>
      obtain ⟨timer, tq, hcreate⟩ := ctx.exists_createDupEntry msg.dkey
      rw [hcreate]
      refine ⟨{ ctx with
        timerqueue := tq
        nextId := ctx.nextId + 1
        dupTree := ctx.dupTree.insert msg.dkey ⟨ctx.nextId, false, [ctx.ownIp], timer⟩ }, rfl, rfl,
        rfl, ?_, ?_⟩
      · apply OrdMap.mem_insert.mpr (Or.inl rfl)
      · simp [hasRelayed, OrdMap.search_insert, hsearch]

/-- A message from an MPR selector is marked, and put into the queue if there is room. -/
theorem retransmit_eq {ctx : OlsrContext} {msg : OlsrMsg} {src : InAddr}
    (hsel : src ∈ ctx.selectorTree) (httl : 1 < msg.ttl.toNat) :
  ctx.retransmit msg src = { ctx with
    dupTree := ctx.dupTree.modify msg.dkey (fun delem => { delem with retransmitted := true })
    }.pushMsg (relayedCopy msg)
  := by
  have hpos : ¬ msg.ttl - 1 = 0 := by bv_omega
  rw [retransmit, isMprSelector, if_pos (decide_eq_true hsel)]
  apply if_neg hpos

/-! ### Marks and the queue -/

/-- A later copy of the message from an MPR selector can be forwarded: it is put into the queue,
whatever is waiting there by then, if there is room for it. -/
def CanForward (ctx : OlsrContext) (msg : OlsrMsg) : Prop :=
  ∀ (copy : OlsrMsg) (src : InAddr) (msgs : List OlsrMsg) (selectors : OrdMap InAddr ℕ),
    copy.dkey = msg.dkey → 1 < copy.ttl.toNat → src ∈ selectors →
    ¬ Refuses { ctx with olsrTxMsgbuf := msgs, selectorTree := selectors } copy →
    ∃ ctx', olsrMsgForwarding { ctx with olsrTxMsgbuf := msgs, selectorTree := selectors }
        copy src = some ctx' ∧
      ctx'.olsrTxMsgbuf = msgs ++ [relayedCopy copy]

/-- From `ctx` to `ctx'` the message has been marked as retransmitted only if it has been put into
the queue. Otherwise the queue is as it was, and a later copy can still be forwarded, unless the
message was marked before. -/
def MarksQueued (ctx ctx' : OlsrContext) (msg : OlsrMsg) : Prop :=
  if ctx.hasRelayed msg.dkey = false ∧ ctx'.hasRelayed msg.dkey = true then
    ctx'.olsrTxMsgbuf = ctx.olsrTxMsgbuf ++ [relayedCopy msg]
  else
    ctx'.olsrTxMsgbuf = ctx.olsrTxMsgbuf ∧ (ctx.hasRelayed msg.dkey = false → ctx'.CanForward msg)

/-- A message that is not marked can be forwarded later. -/
theorem canForward_of_not_relayed {ctx : OlsrContext} {msg : OlsrMsg}
    (h : ctx.hasRelayed msg.dkey = false) :
  ctx.CanForward msg
  := by
  intro copy src msgs selectors hdkey httl hsel hroom
  have hnot : hasRelayed { ctx with olsrTxMsgbuf := msgs, selectorTree := selectors }
      copy.dkey = false := by
    rw [hdkey]
    apply h
  obtain ⟨ctx₁, hforward, -⟩ := olsrMsgForwarding_of_not_relayed hnot src
  refine ⟨_, hforward, ?_⟩
  rw [(olsrMsgForwarding_hears httl hroom hforward).queue, if_pos ⟨httl, hsel, hnot⟩]

/-- A message that may travel on is marked only when it is queued exactly if it was marked before,
or does not come from an MPR selector, or there is room for it in the queue. -/
theorem marksQueued_iff (ctx : OlsrContext) {msg : OlsrMsg} (httl : 1 < msg.ttl.toNat)
    (src : InAddr) :
  (∃ ctx', ctx.olsrMsgForwarding msg src = some ctx' ∧ MarksQueued ctx ctx' msg) ↔
    ctx.hasRelayed msg.dkey = true ∨ src ∉ ctx.selectorTree ∨ ¬ ctx.Refuses msg
  := by
  cases hrelayed : ctx.hasRelayed msg.dkey with
  | true =>
      have hmarks : MarksQueued ctx ctx msg := by simp [MarksQueued, hrelayed]
      have hforward := olsrMsgForwarding_of_relayed hrelayed src
      exact iff_of_true ⟨ctx, hforward, hmarks⟩ (Or.inl rfl)
  | false =>
      obtain ⟨ctx₁, hforward, hqueue₁, hsel₁, hmem₁, hrelayed₁⟩ :=
        olsrMsgForwarding_of_not_relayed hrelayed src
      have hrefuses₁ : ctx₁.Refuses msg ↔ ctx.Refuses msg := by rw [Refuses, hqueue₁, Refuses]
      by_cases hsel : src ∈ ctx.selectorTree
      · by_cases hrefuses : ctx.Refuses msg
        · -- The message is marked, and refused.
          have hretransmit : ctx₁.retransmit msg src = { ctx₁ with
              dupTree := ctx₁.dupTree.modify msg.dkey
                (fun delem => { delem with retransmitted := true }) } := by
            rw [retransmit_eq (by rw [hsel₁]; apply hsel) httl, pushMsg]
            apply if_pos (hrefuses₁.mpr hrefuses)
          obtain ⟨delem, hdelem⟩ := OrdMap.mem_iff.mp hmem₁
          apply iff_of_false
          · rintro ⟨ctx', hforward', hmarks⟩
            obtain rfl := Option.some.inj (hforward.symm.trans hforward')
            rw [MarksQueued, hretransmit, if_pos] at hmarks
            · simp [hqueue₁] at hmarks
            · refine ⟨hrelayed, ?_⟩
              simp [hasRelayed, OrdMap.search_modify, hdelem]
          · simp [hsel, hrefuses]
        · -- The message is marked, and queued.
          have hhears : Hears ctx₁ (ctx₁.retransmit msg src) msg src :=
            retransmit_hears hmem₁ hrelayed₁ httl (mt hrefuses₁.mp hrefuses)
          rw [← hsel₁] at hsel
          refine iff_of_true ⟨_, hforward, ?_⟩ (Or.inr (Or.inr hrefuses))
          rw [MarksQueued, if_pos]
          · rw [hhears.queue, if_pos ⟨httl, hsel, hrelayed₁⟩, hqueue₁]
          · simp [hrelayed, hhears.relayed, httl, hsel]
      · have hretransmit : ctx₁.retransmit msg src = ctx₁ := by
          simp [retransmit, isMprSelector, hsel₁, hsel]
        rw [hretransmit] at hforward
        refine iff_of_true ⟨ctx₁, hforward, ?_⟩ (Or.inr (Or.inl hsel))
        rw [MarksQueued, if_neg (by simp [hrelayed₁])]
        exact ⟨hqueue₁, fun _ => canForward_of_not_relayed hrelayed₁⟩

/-- A message of the node `o` of 100 bytes. -/
def exampleMsg (o : InAddr) : OlsrMsg := ⟨0, o, 64, 0, 1, .other 5 88⟩

/-- A node that has just started, with `n` messages of 100 bytes in its queue, that the node 2 has
chosen as a relay. -/
def filledNode (n : ℕ) : OlsrContext :=
  { initOlsrContext (nodeIp 1) ⟨0, 0⟩ with
    olsrTxMsgbuf := List.replicate n (exampleMsg (nodeIp 4))
    selectorTree := OrdMap.empty.insert (nodeIp 2) 0 }

theorem marksQueued_filled :
  1 < (exampleMsg (nodeIp 3)).ttl.toNat ∧
    ∃ ctx', (filledNode 19).olsrMsgForwarding (exampleMsg (nodeIp 3)) (nodeIp 2) = some ctx' ∧
      MarksQueued (filledNode 19) ctx' (exampleMsg (nodeIp 3))
  := by
  have httl : 1 < (exampleMsg (nodeIp 3)).ttl.toNat := by decide
  have hroom : ¬ (filledNode 19).Refuses (exampleMsg (nodeIp 3)) := by
    rw [Refuses]
    decide
  exact ⟨httl, (marksQueued_iff _ httl _).mpr (Or.inr (Or.inr hroom))⟩

/-- With the queue full, a message is marked that is not queued. -/
theorem not_marksQueued :
  ¬ ∀ (ctx : OlsrContext) (msg : OlsrMsg) (src : InAddr), 1 < msg.ttl.toNat →
    ∃ ctx', ctx.olsrMsgForwarding msg src = some ctx' ∧ MarksQueued ctx ctx' msg
  := by
  intro hall
  obtain ⟨ctx', hforward, hmarks⟩ :=
    hall (filledNode 20) (exampleMsg (nodeIp 3)) (nodeIp 2) (by decide)
  have hrun : ((filledNode 20).olsrMsgForwarding (exampleMsg (nodeIp 3)) (nodeIp 2)).map
      (fun ctx' => (ctx'.hasRelayed (exampleMsg (nodeIp 3)).dkey, ctx'.olsrTxMsgbuf)) =
        some (true, (filledNode 20).olsrTxMsgbuf) := by
    decide +kernel
  rw [hforward, Option.map_some, Option.some.injEq, Prod.mk.injEq] at hrun
  have hfresh : (filledNode 20).hasRelayed (exampleMsg (nodeIp 3)).dkey = false := by decide
  rw [MarksQueued, if_pos ⟨hfresh, hrun.1⟩, hrun.2] at hmarks
  simp at hmarks

end OlsrContext
