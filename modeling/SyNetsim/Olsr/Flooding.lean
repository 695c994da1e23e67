import SyNetsim.Lib.Flood
import SyNetsim.Olsr.Lifetime
import SyNetsim.Olsr.Seqno
import SyNetsim.Olsr.ShortestPath

/-!
# Flooding of TC messages

A network of nodes and the messages on their way between them (`Net`). Every node takes steps
of its own, and messages arrive in any order, each at one of the nodes in range of its sender.

Of all this the copies of one TC are looked at (`Net.view`). They behave as a flood by relays
(`Net.Floods.step`), where a node passes the message on if it hears it from one of its MPR
selectors. So every node processes the TC exactly once (`mpr_flooding`).
-/

/-- A copy of a message on its way. -/
structure Flight where
  src : InAddr
  dst : InAddr
  msg : OlsrMsg

/-- A network: the node at each address, and the messages on their way. The last two fields
record which node has processed, and which has sent, a message with which key. -/
structure Net where
  nodes : InAddr → OlsrContext
  air : List Flight
  processed : List (InAddr × DuplicateSetKey)
  transmitted : List (InAddr × DuplicateSetKey)

/-- What happens in a network: a round of the timer queue of the node `u`, or the arrival of
the message at the place `i`. -/
inductive NetEvent where
  | work (u : InAddr) (now currtime : Timespec) (rand : ℕ)
  | deliver (i : ℕ) (now : Timespec)

namespace OlsrContext

/-! ### The arrival of a copy -/

/-- The node has marked the message with the key `d` as retransmitted. -/
def hasRelayed (ctx : OlsrContext) (d : DuplicateSetKey) : Bool :=
  (ctx.dupTree.search d).any DuplicateSetElem.retransmitted

/-- The message as it is retransmitted. -/
def relayedCopy (msg : OlsrMsg) : OlsrMsg :=
  { msg with ttl := msg.ttl - 1, hopcnt := msg.hopcnt + 1 }

/-- From `ctx` to `ctx'` the node has heard the message from `src`: it remembers it if the
message may travel on, and puts it into the queue the first time it hears it from an MPR
selector. -/
structure Hears (ctx ctx' : OlsrContext) (msg : OlsrMsg) (src : InAddr) : Prop where
  ownIp : ctx'.ownIp = ctx.ownIp
  selectorTree : ctx'.selectorTree = ctx.selectorTree
  sent : ctx'.sent = ctx.sent
  seen : msg.dkey ∈ ctx'.dupTree ↔ msg.dkey ∈ ctx.dupTree ∨ 1 < msg.ttl.toNat
  relayed : ctx'.hasRelayed msg.dkey =
    (ctx.hasRelayed msg.dkey || decide (1 < msg.ttl.toNat ∧ src ∈ ctx.selectorTree))
  queue : ctx'.olsrTxMsgbuf = ctx.olsrTxMsgbuf ++
    if 1 < msg.ttl.toNat ∧ src ∈ ctx.selectorTree ∧ ctx.hasRelayed msg.dkey = false then
      [relayedCopy msg]
    else []

/-- Retransmission of a message that the node remembers, with room in the queue. -/
theorem retransmit_hears {ctx : OlsrContext} {msg : OlsrMsg} {src : InAddr}
    (hmem : msg.dkey ∈ ctx.dupTree) (hrelayed : ctx.hasRelayed msg.dkey = false)
    (httl : 1 < msg.ttl.toNat) (hroom : ¬ ctx.Refuses msg) :
  Hears ctx (ctx.retransmit msg src) msg src
  := by
  by_cases hsel : src ∈ ctx.selectorTree
  · have hpos : ¬ msg.ttl - 1 = 0 := by bv_omega
    have hretransmit : ctx.retransmit msg src = { ctx with
        dupTree := ctx.dupTree.modify msg.dkey (fun delem => { delem with retransmitted := true })
        olsrTxMsgbuf := ctx.olsrTxMsgbuf ++ [relayedCopy msg] } := by
      rw [retransmit, isMprSelector, if_pos (decide_eq_true hsel)]
      simp only [if_neg hpos]
      apply if_neg hroom
    rw [hretransmit]
    refine ⟨rfl, rfl, rfl, ?_, ?_, ?_⟩
    · simp [OrdMap.mem_modify, hmem]
    · obtain ⟨delem, hdelem⟩ := OrdMap.mem_iff.mp hmem
      simp [hasRelayed, OrdMap.search_modify, hdelem, httl, hsel]
    · simp [httl, hsel, hrelayed]
  · have hretransmit : ctx.retransmit msg src = ctx := by
      simp [retransmit, isMprSelector, hsel]
    rw [hretransmit]
    refine ⟨rfl, rfl, rfl, ?_, ?_, ?_⟩
    · simp [hmem]
    · simp [hsel]
    · simp [hsel]

/-- Forwarding of a message that may travel on, with room in the queue. -/
theorem olsrMsgForwarding_hears {ctx ctx' : OlsrContext} {msg : OlsrMsg} {src : InAddr}
    (httl : 1 < msg.ttl.toNat) (hroom : ¬ ctx.Refuses msg)
    (h : ctx.olsrMsgForwarding msg src = some ctx') :
  Hears ctx ctx' msg src
  := by
  rw [olsrMsgForwarding] at h
  cases hsearch : ctx.dupTree.search msg.dkey with
  | some delem =>
      have hmem := OrdMap.mem_of_search hsearch
      simp only [hsearch] at h
      split_ifs at h with hretransmitted
      · obtain rfl := Option.some.inj h
        have hrelayed : ctx.hasRelayed msg.dkey = true := by
          simp [hasRelayed, hsearch, hretransmitted]
        refine ⟨rfl, rfl, rfl, ?_, ?_, ?_⟩
        · simp [hmem]
        · simp [hrelayed]
        · simp [hrelayed]
      · obtain rfl := Option.some.inj h
        apply retransmit_hears hmem _ httl hroom
        simp [hasRelayed, hsearch, hretransmitted]
  | none =>
      simp only [hsearch, createDupEntry, Option.bind_eq_bind, Option.bind_eq_some_iff,
        Option.pure_def, Option.some.injEq] at h
      obtain ⟨ctx₁, ⟨⟨timer, tq⟩, -, hctx₁⟩, rfl⟩ := h
      have hmem₁ : msg.dkey ∈ ctx₁.dupTree := by
        rw [← hctx₁]
        apply OrdMap.mem_insert.mpr (Or.inl rfl)
      have hrelayed : ctx.hasRelayed msg.dkey = false := by simp [hasRelayed, hsearch]
      have hrelayed₁ : ctx₁.hasRelayed msg.dkey = false := by
        rw [← hctx₁]
        simp [hasRelayed, OrdMap.search_insert, hsearch]
      have hroom₁ : ¬ ctx₁.Refuses msg := by
        rw [← hctx₁]
        apply hroom
      have hhears : Hears ctx₁ (ctx₁.retransmit msg src) msg src :=
        retransmit_hears hmem₁ hrelayed₁ httl hroom₁
      constructor
      · rw [hhears.ownIp, ← hctx₁]
      · rw [hhears.selectorTree, ← hctx₁]
      · rw [hhears.sent, ← hctx₁]
      · rw [hhears.seen]
        simp [hmem₁, httl]
      · rw [hhears.relayed, hrelayed, hrelayed₁, ← hctx₁]
      · rw [hhears.queue, hrelayed, hrelayed₁, ← hctx₁]

/-- Handling a TC of another node succeeds. The node hears it. -/
theorem handleOlsrMsg_hears {ctx : OlsrContext} (htimed : ctx.Timed none) (hsound : ctx.Sound)
    {msg : OlsrMsg} {src : InAddr} {tc : TcMsg} (hpayload : msg.payload = .tc tc)
    (hown : msg.originator ≠ ctx.ownIp) (hroom : ¬ ctx.Refuses msg) :
  ∃ ctx', ctx.handleOlsrMsg msg src = some ctx' ∧ ctx'.Timed none ∧ Hears ctx ctx' msg src
  := by
  have hsent : ∀ hello, msg.payload = .hello hello →
      msg.originator = src ∧ ¬ ListsAsLost ctx.ownIp hello := by
    intro hello hhello
    rw [hpayload] at hhello
    contradiction
  obtain ⟨ctx', hctx', htimed'⟩ := htimed.handleOlsrMsg hsound msg hsent
  refine ⟨ctx', hctx', htimed', ?_⟩
  rw [handleOlsrMsg, if_neg hown] at hctx'
  obtain ⟨ctx₁, hprocess, hforward⟩ := Option.bind_eq_some_iff.mp hctx'
  -- Processing the TC changes topology, routing table and timers only.
  obtain ⟨henqueues, hdup⟩ := processOlsrMsg_enqueues hsound hprocess
  have hselector : ctx₁.selectorTree = ctx.selectorTree := by
    rw [processOlsrMsg] at hprocess
    split_ifs at hprocess
    · rw [Option.some.inj hprocess]
    · simp only [hpayload] at hprocess
      obtain ⟨topo, ⟨tq, nextId, hcore⟩, -⟩ := processOlsrTc_inv hprocess hsound.notDuplicated
      have hselector := congrArg OlsrContext.selectorTree hcore
      apply hselector
  have hqueue := henqueues.olsrTxMsgbuf
  rw [List.append_nil] at hqueue
  have hrelayed : ∀ d, ctx₁.hasRelayed d = ctx.hasRelayed d := by
    intro d
    rw [hasRelayed, hdup, hasRelayed]
  have hgt : msg.ttl > 1 ↔ 1 < msg.ttl.toNat := BitVec.lt_def
  split_ifs at hforward with httl
  · rw [hgt] at httl
    have hroom₁ : ¬ ctx₁.Refuses msg := by
      rw [Refuses, hqueue]
      apply hroom
    have hhears := olsrMsgForwarding_hears httl hroom₁ hforward
    constructor
    · rw [hhears.ownIp, henqueues.ownIp]
    · rw [hhears.selectorTree, hselector]
    · rw [hhears.sent, henqueues.sent]
    · rw [hhears.seen, hdup]
    · rw [hhears.relayed, hrelayed, hselector]
    · rw [hhears.queue, hrelayed, hselector, hqueue]
  · obtain rfl := Option.some.inj hforward
    rw [hgt] at httl
    refine ⟨henqueues.ownIp, hselector, henqueues.sent, ?_, ?_, ?_⟩
    · simp [hdup, httl]
    · simp [hrelayed, httl]
    · simp [hqueue, httl]

end OlsrContext

namespace Net

/-! ### Steps -/

/-- The messages in packets sent from `ctx` to `ctx'`. -/
def newlySent (ctx ctx' : OlsrContext) : List OlsrMsg :=
  (ctx'.sent.drop ctx.sent.length).flatMap OlsrPacket.msgs

/-- The node `u` gets into the state `ctx`. What it sends is on its way to all nodes in range. -/
def put (range : InAddr → List InAddr) (net : Net) (u : InAddr) (ctx : OlsrContext) : Net :=
  let msgs := newlySent (net.nodes u) ctx
  { net with
    nodes := Function.update net.nodes u ctx
    air := net.air ++ msgs.flatMap (fun m => (range u).map (fun v => ⟨u, v, m⟩))
    transmitted := net.transmitted ++ msgs.map (fun m => (u, m.dkey)) }

/-- The message `f` at the place `i` arrives. It is recorded as processed if it is given to the
handler for its kind. -/
def take (net : Net) (i : ℕ) (f : Flight) : Net :=
  { net with
    air := net.air.eraseIdx i
    processed := net.processed ++
      if ((net.nodes f.dst).msgHandler f.src f.msg).isSome then [(f.dst, f.msg.dkey)] else [] }

/-- What an event does to the network. -/
def step (range : InAddr → List InAddr) (net : Net) : NetEvent → Option Net
  | .work u now currtime rand => do
      let ctx ← nodeStep (net.nodes u) (.work now currtime rand)
      return net.put range u ctx
  | .deliver i now => do
      let f ← net.air[i]?
      let ctx ← nodeStep (net.nodes f.dst) (.recv now f.src f.msg)
      return (net.take i f).put range f.dst ctx

/-- The TC timer of the node `o` fires. The records begin anew. -/
def originate (net : Net) (o : InAddr) : Net where
  nodes := Function.update net.nodes o (net.nodes o).olsrTcTimerCb
  air := net.air
  processed := []
  transmitted := []

/-! ### Assumptions -/

/-- The relays of every node reach all nodes two edges away, and every node knows who has chosen
it as a relay. -/
structure Settled (net : Net) (G : SimpleGraph InAddr) : Prop where
  cover : ∀ u b x, G.Adj u b → G.Adj b x → x ≠ u → ¬ G.Adj u x →
    ∃ m ∈ (net.nodes u).mprTree, G.Adj u m ∧ G.Adj m x
  selector : ∀ u v, v ∈ (net.nodes u).selectorTree ↔ u ∈ (net.nodes v).mprTree

/-- No node knows of a message with the key `d`, and none is on its way. -/
structure Fresh (net : Net) (d : DuplicateSetKey) : Prop where
  dupTree : ∀ u, d ∉ (net.nodes u).dupTree
  waiting : ∀ u, ∀ m ∈ (net.nodes u).olsrTxMsgbuf, m.dkey ≠ d
  air : ∀ f ∈ net.air, f.msg.dkey ≠ d

/-- A copy of a message with the key `d` waits to be sent or is on its way. -/
def InFlight (net : Net) (d : DuplicateSetKey) : Prop :=
  (∃ u, ∃ m ∈ (net.nodes u).olsrTxMsgbuf, m.dkey = d) ∨ ∃ f ∈ net.air, f.msg.dkey = d

/-- From `ctx` to `ctx'` the MPR selectors stay the same, and the duplicate entry of `d` does
not expire. -/
structure Keeps (d : DuplicateSetKey) (ctx ctx' : OlsrContext) : Prop where
  selectorTree : ctx'.selectorTree.keys = ctx.selectorTree.keys
  dupTree : d ∈ ctx.dupTree → d ∈ ctx'.dupTree

/-- The event does not disturb the flooding of the message with the key `d`: when a copy of it
arrives, the queue has room for it. Other events keep selectors and the duplicate entry of `d`,
and build no other message with this key. -/
def Undisturbed (d : DuplicateSetKey) (net : Net) : NetEvent → Prop
  | .work u now currtime rand =>
      (∀ ctx', nodeStep (net.nodes u) (.work now currtime rand) = some ctx' →
        Keeps d (net.nodes u) ctx') ∧
      ∀ m, (net.nodes u).originates (.node (.work now currtime rand)) = some m → m.dkey ≠ d
  | .deliver i now => ∀ f, net.air[i]? = some f →
      if f.msg.dkey = d then ¬ (net.nodes f.dst).Refuses f.msg
      else (net.nodes f.dst).WellSent (.recv now f.src f.msg) ∧
        ∀ ctx', nodeStep (net.nodes f.dst) (.recv now f.src f.msg) = some ctx' →
          Keeps d (net.nodes f.dst) ctx'

/-! ### The flood of one message -/

/-- The copies with the key `d` among the messages, by the transmissions they have left. -/
def copies (d : DuplicateSetKey) (msgs : List OlsrMsg) : Multiset ℕ :=
  Multiset.ofList ((msgs.filter (fun m => m.dkey = d)).map (fun m => m.ttl.toNat))

/-- The copies with the key `d` among the messages on their way. -/
def flying (d : DuplicateSetKey) (air : List Flight) : Multiset (InAddr × InAddr × ℕ) :=
  Multiset.ofList ((air.filter (fun f => f.msg.dkey = d)).map
    (fun f => (f.src, f.dst, f.msg.ttl.toNat)))

/-- The network as a flood of the message with the key `d`. -/
def view (d : DuplicateSetKey) (net : Net) : Flood InAddr where
  seen u := d ∈ (net.nodes u).dupTree
  relayed u := (net.nodes u).hasRelayed d
  waiting u := copies d (net.nodes u).olsrTxMsgbuf
  air := flying d net.air
  processed u := net.processed.count (u, d)
  sent u := net.transmitted.count (u, d)

variable {d : DuplicateSetKey}

theorem copies_append (msgs msgs' : List OlsrMsg) :
  copies d (msgs ++ msgs') = copies d msgs + copies d msgs'
  := by
  rw [copies, List.filter_append, List.map_append, ← Multiset.coe_add]
  rfl

theorem copies_of_ne {msgs : List OlsrMsg} (h : ∀ m ∈ msgs, m.dkey ≠ d) :
  copies d msgs = 0
  := by
  have hfilter : msgs.filter (fun m => m.dkey = d) = [] := by simpa using h
  rw [copies, hfilter]
  rfl

theorem flying_append (air air' : List Flight) :
  flying d (air ++ air') = flying d air + flying d air'
  := by
  rw [flying, List.filter_append, List.map_append, ← Multiset.coe_add]
  rfl

/-- What is sent to all nodes in range is on its way to all of them. -/
theorem flying_sent (range : InAddr → List InAddr) (u : InAddr) (msgs : List OlsrMsg) :
  flying d (msgs.flatMap (fun m => (range u).map (fun v => ⟨u, v, m⟩))) =
    (copies d msgs).bind (fun t => (Multiset.ofList (range u)).map (fun v => (u, v, t)))
  := by
  induction msgs with
  | nil => rfl
  | cons m msgs ih =>
      rw [List.flatMap_cons, flying_append, ih]
      by_cases hm : m.dkey = d
      · have hcopies : copies d (m :: msgs) = m.ttl.toNat ::ₘ copies d msgs := by
          simp [copies, hm]
        rw [hcopies, Multiset.cons_bind]
        congr 1
        simp [flying, hm, List.filter_map, Function.comp_def]
      · have hcopies : copies d (m :: msgs) = copies d msgs := by simp [copies, hm]
        have hflying : flying d ((range u).map (fun v => (⟨u, v, m⟩ : Flight))) = 0 := by
          simp [flying, hm, List.filter_map, Function.comp_def]
        rw [hcopies, hflying, zero_add]

/-- The sender records the copies it sends. -/
theorem count_sent (u w : InAddr) (msgs : List OlsrMsg) :
  (msgs.map (fun m => (u, m.dkey))).count (w, d) = if w = u then (copies d msgs).card else 0
  := by
  induction msgs with
  | nil => simp [copies]
  | cons m msgs ih =>
      rw [List.map_cons, List.count_cons, ih]
      by_cases hw : w = u
      · by_cases hm : m.dkey = d
        · simp [hw, hm, copies]
        · simp [hw, hm, copies]
      · simp [hw, Ne.symm hw]

/-- A message that has arrived is not on its way any more. -/
theorem flying_eraseIdx {air : List Flight} {i : ℕ} {f : Flight} (hf : air[i]? = some f) :
  flying d (air.eraseIdx i) =
    if f.msg.dkey = d then (flying d air).erase (f.src, f.dst, f.msg.ttl.toNat) else flying d air
  := by
  obtain ⟨hi, rfl⟩ := List.getElem?_eq_some_iff.mp hf
  have hperm := List.getElem_cons_eraseIdx_perm hi
  have hfilter := (hperm.filter (fun f => f.msg.dkey = d)).map
    (fun f => (f.src, f.dst, f.msg.ttl.toNat))
  have hflying : flying d air = flying d (air[i] :: air.eraseIdx i) :=
    (Multiset.coe_eq_coe.mpr hfilter).symm
  rw [hflying]
  split_ifs with hkey
  · simp [flying, hkey]
  · simp [flying, hkey]

/-- What becomes of the flood when a node changes. -/
theorem view_put (range : InAddr → List InAddr) (net : Net) (u : InAddr) (ctx : OlsrContext) :
  (net.put range u ctx).view d =
    let s := net.view d
    let sent := copies d (newlySent (net.nodes u) ctx)
    { s with
      seen := Function.update s.seen u (decide (d ∈ ctx.dupTree))
      relayed := Function.update s.relayed u (ctx.hasRelayed d)
      waiting := Function.update s.waiting u (copies d ctx.olsrTxMsgbuf)
      air := s.air + sent.bind (fun t => (Multiset.ofList (range u)).map (fun v => (u, v, t)))
      sent := Function.update s.sent u (s.sent u + sent.card) }
  := by
  simp only [view, put]
  rw [flying_append, flying_sent]
  congr 1
  · funext w
    by_cases hw : w = u
    · simp [hw]
    · simp [hw]
  · funext w
    by_cases hw : w = u
    · simp [hw]
    · simp [hw]
  · funext w
    by_cases hw : w = u
    · simp [hw]
    · simp [hw]
  · funext w
    rw [List.count_append, count_sent]
    by_cases hw : w = u
    · simp [hw]
    · simp [hw]

/-- A change that adds no copy to the queue and keeps the duplicate entry is not seen. -/
theorem view_put_enqueues (range : InAddr → List InAddr) {net : Net} {u : InAddr}
    {ctx : OlsrContext} {msgs : List OlsrMsg}
    (henqueues : OlsrContext.Enqueues (net.nodes u) ctx msgs) (hmsgs : ∀ m ∈ msgs, m.dkey ≠ d)
    (hsearch : ctx.dupTree.search d = (net.nodes u).dupTree.search d) :
  (net.put range u ctx).view d = net.view d
  := by
  have hsent : newlySent (net.nodes u) ctx = [] := by
    rw [newlySent, henqueues.sent, List.drop_length]
    rfl
  have hseen : d ∈ ctx.dupTree ↔ d ∈ (net.nodes u).dupTree := by
    rw [OrdMap.mem_iff, hsearch, OrdMap.mem_iff]
  have hrelayed : ctx.hasRelayed d = (net.nodes u).hasRelayed d := by
    rw [OlsrContext.hasRelayed, hsearch, OlsrContext.hasRelayed]
  have hwaiting : copies d ctx.olsrTxMsgbuf = copies d (net.nodes u).olsrTxMsgbuf := by
    rw [henqueues.olsrTxMsgbuf, copies_append, copies_of_ne hmsgs, add_zero]
  rw [view_put, hsent, hrelayed, hwaiting]
  simp [view, copies, hseen]

/-- Sending the queue sends the copies in it. -/
theorem view_put_flushes (range : InAddr → List InAddr) {net : Net} {u : InAddr}
    {ctx : OlsrContext} (hflushes : OlsrContext.Flushes (net.nodes u) ctx)
    (hsearch : ctx.dupTree.search d = (net.nodes u).dupTree.search d) :
  (net.put range u ctx).view d = (net.view d).send range u
  := by
  have hsent : newlySent (net.nodes u) ctx = (net.nodes u).olsrTxMsgbuf := by
    rw [newlySent, hflushes.sent, List.drop_append_length]
    simp
  have hseen : d ∈ ctx.dupTree ↔ d ∈ (net.nodes u).dupTree := by
    rw [OrdMap.mem_iff, hsearch, OrdMap.mem_iff]
  have hrelayed : ctx.hasRelayed d = (net.nodes u).hasRelayed d := by
    rw [OlsrContext.hasRelayed, hsearch, OlsrContext.hasRelayed]
  rw [view_put, hsent, hrelayed, hflushes.olsrTxMsgbuf]
  simp [view, Flood.send, copies, hseen]

/-- The arrival of a message with another key is not seen. -/
theorem view_take_other {net : Net} {i : ℕ} {f : Flight} (hf : net.air[i]? = some f)
    (hkey : f.msg.dkey ≠ d) :
  (net.take i f).view d = net.view d
  := by
  have hprocessed : ∀ u, (net.take i f).processed.count (u, d) = net.processed.count (u, d) := by
    intro u
    simp only [take, List.count_append]
    split_ifs
    · simp [hkey]
    · simp
  simp only [view, hprocessed]
  simp only [take, flying_eraseIdx hf, if_neg hkey]
  rfl

/-- The arrival of a copy. The node processes it if it had not seen the message before. -/
theorem view_take {net : Net} {i : ℕ} {f : Flight} (hf : net.air[i]? = some f)
    (hkey : f.msg.dkey = d) {tc : TcMsg} (htc : f.msg.payload = .tc tc)
    (hown : (net.nodes f.dst).ownIp = f.dst) :
  (net.take i f).view d =
    let s := net.view d
    { s with
      air := s.air.erase (f.src, f.dst, f.msg.ttl.toNat)
      processed := Function.update s.processed f.dst
        (s.processed f.dst + if f.dst = d.orig ∨ s.seen f.dst = true then 0 else 1) }
  := by
  have horig : f.msg.originator = d.orig := congrArg DuplicateSetKey.orig hkey
  have hhandler : ((net.nodes f.dst).msgHandler f.src f.msg).isSome = true ↔
      ¬ (f.dst = d.orig ∨ d ∈ (net.nodes f.dst).dupTree) := by
    rw [OlsrContext.msgHandler, OlsrContext.isAlreadyProcessed, horig, hown, hkey, htc]
    have hcomm : d.orig = f.dst ↔ f.dst = d.orig := eq_comm
    simp only [decide_eq_true_eq, hcomm]
    split_ifs with hignored
    · simp [hignored]
    · simp [hignored]
  simp only [view, take, flying_eraseIdx hf, if_pos hkey, hhandler]
  congr 1
  funext w
  rw [List.count_append, Function.update_apply]
  by_cases hignored : f.dst = d.orig ∨ d ∈ (net.nodes f.dst).dupTree
  · by_cases hw : w = f.dst
    · simp [hignored, hw]
    · simp [hignored, hw]
  · by_cases hw : w = f.dst
    · simp [hignored, hw, hkey]
    · simp [hignored, hw, Ne.symm hw]

/-- A node that hears a copy remembers it and passes it on as in the flood. -/
theorem view_put_hears {range : InAddr → List InAddr} {net : Net} {v src : InAddr}
    {ctx : OlsrContext} {msg : OlsrMsg} {relay : InAddr → Set InAddr}
    [∀ u, DecidablePred (· ∈ relay u)] (hhears : OlsrContext.Hears (net.nodes v) ctx msg src)
    (hkey : msg.dkey = d)
    (hselector : src ∈ (net.nodes v).selectorTree ↔ v ∈ relay src) :
  (net.put range v ctx).view d =
    let s := net.view d
    let t := msg.ttl.toNat
    { s with
      seen := Function.update s.seen v (s.seen v || decide (1 < t))
      relayed := Function.update s.relayed v (s.relayed v || decide (1 < t ∧ v ∈ relay src))
      waiting := Function.update s.waiting v
        (s.waiting v + if 1 < t ∧ v ∈ relay src ∧ s.relayed v = false then {t - 1} else 0) }
  := by
  subst hkey
  have hsent : newlySent (net.nodes v) ctx = [] := by
    rw [newlySent, hhears.sent, List.drop_length]
    rfl
  have hqueue : copies msg.dkey ctx.olsrTxMsgbuf = copies msg.dkey (net.nodes v).olsrTxMsgbuf +
      if 1 < msg.ttl.toNat ∧ v ∈ relay src ∧ (net.nodes v).hasRelayed msg.dkey = false then
        {msg.ttl.toNat - 1}
      else 0 := by
    rw [hhears.queue, copies_append]
    simp only [hselector]
    split_ifs with hrelays
    · have hfilter : [OlsrContext.relayedCopy msg].filter (fun m => m.dkey = msg.dkey) =
          [OlsrContext.relayedCopy msg] := by
        simp [OlsrContext.relayedCopy, OlsrMsg.dkey]
      have httl : (OlsrContext.relayedCopy msg).ttl.toNat = msg.ttl.toNat - 1 := by
        obtain ⟨httl, -⟩ := hrelays
        rw [OlsrContext.relayedCopy]
        bv_omega
      rw [copies, copies, hfilter, List.map_singleton, httl]
      rfl
    · simp [copies]
  rw [view_put, hsent, hhears.relayed, hqueue]
  simp [view, copies, hhears.seen, hselector]
  rfl

/-! ### Runs -/

/-- What holds of the node `u` while the message with the key `d` is flooded. -/
structure NodeFloods (G : SimpleGraph InAddr) (relay : InAddr → Set InAddr) (d : DuplicateSetKey)
    (u : InAddr) (ctx : OlsrContext) : Prop where
  ownIp : ctx.ownIp = u
  sound : ctx.Sound
  timed : ctx.Timed none
  selector : ∀ v, G.Adj v u → (v ∈ ctx.selectorTree ↔ u ∈ relay v)
  waiting : ∀ m ∈ ctx.olsrTxMsgbuf, m.dkey = d → ∃ tc, m.payload = .tc tc

/-- What holds of the network while the TC with the key `d` is flooded over the nodes `N`. -/
structure Floods (G : SimpleGraph InAddr) (relay : InAddr → Set InAddr) (N : Finset InAddr)
    (d : DuplicateSetKey) (net : Net) : Prop where
  node : ∀ u, NodeFloods G relay d u (net.nodes u)
  air : ∀ f ∈ net.air, f.msg.dkey = d → ∃ tc, f.msg.payload = .tc tc
  flood : (net.view d).Inv G relay d.orig N

variable {G : SimpleGraph InAddr} {relay : InAddr → Set InAddr} {N : Finset InAddr}
  {range : InAddr → List InAddr}

/-- A node changes, and what it sends are TC messages. -/
theorem Floods.put {net : Net} (hnode : ∀ u, NodeFloods G relay d u (net.nodes u))
    (hair : ∀ f ∈ net.air, f.msg.dkey = d → ∃ tc, f.msg.payload = .tc tc) {u : InAddr}
    {ctx : OlsrContext} (hctx : NodeFloods G relay d u ctx)
    (hsent : ctx.sent = (net.nodes u).sent ∨ OlsrContext.Flushes (net.nodes u) ctx)
    (hflood : ((net.put range u ctx).view d).Inv G relay d.orig N) :
  (net.put range u ctx).Floods G relay N d
  where
  node w := by
    simp only [Net.put, Function.update_apply]
    split_ifs with hw
    · rw [hw]
      apply hctx
    · apply hnode w
  air f hf hkey := by
    rcases List.mem_append.mp hf with hf | hf
    · apply hair f hf hkey
    · obtain ⟨m, hm, hf⟩ := List.mem_flatMap.mp hf
      obtain ⟨v, -, rfl⟩ := List.mem_map.mp hf
      have hwaiting : m ∈ (net.nodes u).olsrTxMsgbuf := by
        rcases hsent with hsent | hflushes
        · rw [newlySent, hsent, List.drop_length] at hm
          contradiction
        · rw [newlySent, hflushes.sent, List.drop_append_length] at hm
          simpa using hm
      apply (hnode u).waiting m hwaiting hkey
  flood := hflood

/-- A step that keeps the selectors, and adds no copy to the queue. -/
theorem NodeFloods.keeps {u : InAddr} {ctx ctx' : OlsrContext} (h : NodeFloods G relay d u ctx)
    {e : NodeEvent} (hwell : ctx.WellSent e) (hstep : nodeStep ctx e = some ctx')
    (hkeeps : Keeps d ctx ctx') (hown : ctx'.ownIp = ctx.ownIp)
    (hqueue : ∀ m ∈ ctx'.olsrTxMsgbuf, m.dkey = d → m ∈ ctx.olsrTxMsgbuf) :
  NodeFloods G relay d u ctx'
  where
  ownIp := hown.trans h.ownIp
  sound := h.sound.step hstep
  timed := by
    obtain ⟨ctx'', hstep', htimed, -⟩ := h.timed.step h.sound hwell
    obtain rfl := Option.some.inj (hstep.symm.trans hstep')
    apply htimed
  selector v hadj := by
    rw [← OrdMap.mem_keys, hkeeps.selectorTree, OrdMap.mem_keys]
    apply h.selector v hadj
  waiting m hm hkey := h.waiting m (hqueue m hm hkey) hkey

/-- A round of the timer queue keeps the flood going. -/
theorem Floods.work {net : Net} (h : net.Floods G relay N d)
    (hrange : ∀ u v, v ∈ range u ↔ G.Adj u v) {u : InAddr} {now currtime : Timespec} {rand : ℕ}
    {ctx : OlsrContext} (hok : Undisturbed d net (.work u now currtime rand))
    (hstep : nodeStep (net.nodes u) (.work now currtime rand) = some ctx) :
  (net.put range u ctx).Floods G relay N d
  := by
  obtain ⟨hkeeps, horiginates⟩ := hok
  have hkeeps := hkeeps ctx hstep
  have hwell : (net.nodes u).WellSent (.work now currtime rand) := trivial
  obtain ⟨hqueue, hdup⟩ := OlsrContext.workRound_queue (h.node u).sound hstep
  have hsearch : ctx.dupTree.search d = (net.nodes u).dupTree.search d := by
    by_cases hd : d ∈ ctx.dupTree
    · apply hdup d hd
    · have hd' : d ∉ (net.nodes u).dupTree := fun hd' => hd (hkeeps.dupTree hd')
      rw [OrdMap.search_eq_none.mpr hd, OrdMap.search_eq_none.mpr hd']
  -- A message that is built has another key.
  have henqueues : ∀ msgs, (∀ m ∈ msgs, m.dkey ≠ d) →
      OlsrContext.Enqueues (net.nodes u) ctx msgs → (net.put range u ctx).Floods G relay N d := by
    intro msgs hmsgs henqueues
    apply Floods.put h.node h.air _ (Or.inl henqueues.sent)
    · rw [view_put_enqueues range henqueues hmsgs hsearch]
      apply h.flood
    · apply (h.node u).keeps hwell hstep hkeeps henqueues.ownIp
      intro m hm hkey
      rw [henqueues.olsrTxMsgbuf] at hm
      rcases List.mem_append.mp hm with hm | hm
      · apply hm
      · apply absurd hkey (hmsgs m hm)
  rcases hqueue with henqueues' | ⟨m, hm, -, henqueues'⟩ | hflushes
  · apply henqueues [] (fun m hm => absurd hm List.not_mem_nil) henqueues'
  · apply henqueues [m] _ henqueues'
    intro m' hm'
    rw [List.mem_singleton.mp hm']
    apply horiginates m hm
  · apply Floods.put h.node h.air _ (Or.inr hflushes)
    · rw [view_put_flushes range hflushes hsearch]
      apply h.flood.send hrange
    · apply (h.node u).keeps hwell hstep hkeeps hflushes.ownIp
      intro m hm
      rw [hflushes.olsrTxMsgbuf] at hm
      contradiction

/-- The arrival of a message with another key keeps the flood going. -/
theorem Floods.deliver_other {net : Net} (h : net.Floods G relay N d) {i : ℕ} {now : Timespec}
    {f : Flight} (hf : net.air[i]? = some f) (hkey : f.msg.dkey ≠ d)
    (hok : Undisturbed d net (.deliver i now)) {ctx : OlsrContext}
    (hstep : nodeStep (net.nodes f.dst) (.recv now f.src f.msg) = some ctx) :
  ((net.take i f).put range f.dst ctx).Floods G relay N d
  := by
  have hok := hok f hf
  rw [if_neg hkey] at hok
  obtain ⟨hwell, hkeeps⟩ := hok
  have hkeeps := hkeeps ctx hstep
  obtain ⟨msgs, hmsgs, henqueues, hsearch⟩ : ∃ msgs, (∀ m ∈ msgs, m.dkey ≠ d) ∧
      OlsrContext.Enqueues (net.nodes f.dst) ctx msgs ∧
      ctx.dupTree.search d = (net.nodes f.dst).dupTree.search d := by
    have hsound : OlsrContext.Sound { net.nodes f.dst with clock := now } :=
      (h.node f.dst).sound.quiet OlsrContext.Quiet.of_eq
    rcases OlsrContext.handleOlsrMsg_queue hsound hstep with rfl | ⟨-, hforward⟩
    · exact ⟨[], fun m hm => absurd hm List.not_mem_nil, OlsrContext.Enqueues.of_eq, rfl⟩
    · have hsearch := hforward.dupTree d hkey.symm
      rcases hforward.queue with hqueue | ⟨m, hm, hqueue⟩
      · exact ⟨[], fun m hm => absurd hm List.not_mem_nil,
          OlsrContext.Enqueues.of_eq.trans hqueue, hsearch⟩
      · refine ⟨[m], ?_, OlsrContext.Enqueues.of_eq.trans hqueue, hsearch⟩
        intro m' hm'
        rw [List.mem_singleton.mp hm', hm.dkey]
        apply hkey
  have hnode : ∀ u, NodeFloods G relay d u ((net.take i f).nodes u) := h.node
  apply Floods.put hnode
  · intro f' hf'
    apply h.air f' (List.mem_of_mem_eraseIdx hf')
  · apply (h.node f.dst).keeps hwell hstep hkeeps henqueues.ownIp
    intro m hm hkey'
    rw [henqueues.olsrTxMsgbuf] at hm
    rcases List.mem_append.mp hm with hm | hm
    · apply hm
    · apply absurd hkey' (hmsgs m hm)
  · left
    apply henqueues.sent
  · have henqueues' : OlsrContext.Enqueues ((net.take i f).nodes f.dst) ctx msgs := henqueues
    rw [view_put_enqueues range henqueues' hmsgs hsearch, view_take_other hf hkey]
    apply h.flood

/-- The arrival of a copy keeps the flood going. It never fails. -/
theorem Floods.deliver_copy [∀ u, DecidablePred (· ∈ relay u)] {net : Net}
    (h : net.Floods G relay N d) (hN : d.orig ∈ N) (hedge : ∀ u v, G.Adj u v → v ∈ N) {i : ℕ}
    (now : Timespec) {f : Flight} (hf : net.air[i]? = some f) (hkey : f.msg.dkey = d)
    (hroom : ¬ (net.nodes f.dst).Refuses f.msg) :
  ∃ net', net.step range (.deliver i now) = some net' ∧ net'.Floods G relay N d
  := by
  obtain ⟨tc, htc⟩ := h.air f (List.mem_of_getElem? hf) hkey
  have hmem : (f.src, f.dst, f.msg.ttl.toNat) ∈ (net.view d).air := by
    simp only [view, flying, Multiset.mem_coe, List.mem_map, List.mem_filter]
    exact ⟨f, ⟨List.mem_of_getElem? hf, by simp [hkey]⟩, rfl⟩
  have hadj := h.flood.adj _ _ _ hmem
  have hhear := h.flood.hear hN hmem (hedge _ _ hadj)
  have horig : f.msg.originator = d.orig := congrArg DuplicateSetKey.orig hkey
  have hnode : ∀ u, NodeFloods G relay d u ((net.take i f).nodes u) := h.node
  have hsound : OlsrContext.Sound { net.nodes f.dst with clock := now } :=
    (h.node f.dst).sound.quiet OlsrContext.Quiet.of_eq
  have herase : ∀ f' ∈ (net.take i f).air, f'.msg.dkey = d → ∃ tc, f'.msg.payload = .tc tc := by
    intro f' hf'
    apply h.air f' (List.mem_of_mem_eraseIdx hf')
  have hview := view_take hf hkey htc (h.node f.dst).ownIp
  by_cases hdst : f.dst = d.orig
  · -- The originator ignores the copy.
    let ctx : OlsrContext := { net.nodes f.dst with clock := now }
    have hstep : nodeStep (net.nodes f.dst) (.recv now f.src f.msg) = some ctx := by
      apply if_pos
      rw [horig, ← hdst]
      apply (h.node f.dst).ownIp.symm
    have henqueues : OlsrContext.Enqueues ((net.take i f).nodes f.dst) ctx [] :=
      OlsrContext.Enqueues.of_eq
    refine ⟨(net.take i f).put range f.dst ctx, ?_, ?_⟩
    · simp only [Net.step, hf, hstep, Option.bind_eq_bind, Option.bind_some, Option.pure_def]
    · apply Floods.put hnode herase _ (Or.inl henqueues.sent)
      · rw [view_put_enqueues range henqueues (fun m hm => absurd hm List.not_mem_nil) rfl, hview]
        rw [Flood.hear, if_pos hdst] at hhear
        simpa [hdst] using hhear
      · exact ⟨(h.node f.dst).ownIp, hsound, (h.node f.dst).timed.of_eq, (h.node f.dst).selector,
          (h.node f.dst).waiting⟩
  · have hroom' : ¬ OlsrContext.Refuses { net.nodes f.dst with clock := now } f.msg := hroom
    have hown : f.msg.originator ≠ (net.nodes f.dst).ownIp := by
      rw [horig, (h.node f.dst).ownIp]
      apply Ne.symm hdst
    obtain ⟨ctx, hstep, htimed, hhears⟩ :=
      OlsrContext.handleOlsrMsg_hears (h.node f.dst).timed.of_eq hsound htc hown hroom'
    have hstep' : nodeStep (net.nodes f.dst) (.recv now f.src f.msg) = some ctx := hstep
    refine ⟨(net.take i f).put range f.dst ctx, ?_, ?_⟩
    · simp only [Net.step, hf, hstep', Option.bind_eq_bind, Option.bind_some, Option.pure_def]
    · apply Floods.put hnode herase _ (Or.inl hhears.sent)
      · have hhears' : OlsrContext.Hears ((net.take i f).nodes f.dst) ctx f.msg f.src :=
          ⟨hhears.ownIp, hhears.selectorTree, hhears.sent, hhears.seen, hhears.relayed,
            hhears.queue⟩
        rw [view_put_hears hhears' hkey ((h.node f.dst).selector f.src hadj), hview]
        rw [Flood.hear, if_neg hdst] at hhear
        simpa [hdst] using hhear
      · constructor
        · apply hhears.ownIp.trans (h.node f.dst).ownIp
        · apply (h.node f.dst).sound.step hstep'
        · apply htimed
        · rw [hhears.selectorTree]
          apply (h.node f.dst).selector
        · intro m hm hkey'
          rw [hhears.queue] at hm
          rcases List.mem_append.mp hm with hm | hm
          · apply (h.node f.dst).waiting m hm hkey'
          · split_ifs at hm
            · rw [List.mem_singleton.mp hm]
              exact ⟨tc, htc⟩
            · contradiction

/-- Every event that does not disturb the flood keeps it going. -/
theorem Floods.step [∀ u, DecidablePred (· ∈ relay u)] {net net' : Net}
    (h : net.Floods G relay N d) (hN : d.orig ∈ N) (hrange : ∀ u v, v ∈ range u ↔ G.Adj u v)
    (hedge : ∀ u v, G.Adj u v → v ∈ N) {e : NetEvent} (hok : Undisturbed d net e)
    (hstep : net.step range e = some net') :
  net'.Floods G relay N d
  := by
  cases e with
  | work u now currtime rand =>
      obtain ⟨ctx, hctx, hnet⟩ := Option.bind_eq_some_iff.mp hstep
      rw [← Option.some.inj hnet]
      apply h.work hrange hok hctx
  | deliver i now =>
      obtain ⟨f, hf, hdeliver⟩ := Option.bind_eq_some_iff.mp hstep
      by_cases hkey : f.msg.dkey = d
      · have hroom := hok f hf
        rw [if_pos hkey] at hroom
        obtain ⟨net'', hnet'', hfloods⟩ := h.deliver_copy hN hedge now hf hkey hroom
        rw [Option.some.inj (hstep.symm.trans hnet'')]
        apply hfloods
      · obtain ⟨ctx, hctx, hnet⟩ := Option.bind_eq_some_iff.mp hdeliver
        rw [← Option.some.inj hnet]
        apply h.deliver_other hf hkey hok hctx

/-- A node that has run has kept its address. -/
theorem ownIp_of_reaches {ownIp : InAddr} {now : Timespec} {start ctx : OlsrContext}
    {ok : OlsrContext → NodeEvent → Prop} (hstart : OlsrContext.olsrStart ownIp now = some start)
    (h : Reaches nodeStep ok start ctx) :
  ctx.ownIp = ownIp
  := by
  have hinv : ctx.Sound ∧ ctx.ownIp = ownIp := by
    apply h.invariant
    · rintro ctx e ctx' ⟨hsound, hown⟩ - hstep
      have hstep' : sendStep ctx (.node e) = some ctx' := hstep
      refine ⟨hsound.step hstep, Eq.trans ?_ hown⟩
      rcases OlsrContext.sendStep_queue hsound hstep' with hflush | hsame | ⟨m, hadd, -⟩
      · apply hflush.ownIp
      · apply hsame.ownIp
      · apply hadd.ownIp
    · refine ⟨OlsrContext.olsrStart_sound hstart, ?_⟩
      obtain ⟨tq, rfl⟩ := OlsrContext.olsrStart_inv hstart
      rfl
  apply hinv.2

/-- The originator has put its TC into the queue. -/
theorem olsrTcTimerCb_of_room {ctx : OlsrContext} (hroom : ¬ ctx.Refuses ctx.ownTc) :
  ctx.olsrTcTimerCb =
    { ctx.buildOlsrTc.2 with olsrTxMsgbuf := ctx.olsrTxMsgbuf ++ [ctx.ownTc] }
  := if_neg hroom

/-- When a node originates a TC with a fresh key, the flood begins. -/
theorem floods_originate (hrange : ∀ u v, v ∈ range u ↔ G.Adj u v) (hcard : N.card ≤ 64)
    {o : InAddr} {net : Net}
    (hrun : ∀ u, ∃ now start, OlsrContext.olsrStart u now = some start ∧
      Reaches nodeStep OlsrContext.WellSent start (net.nodes u))
    (hselector : ∀ u v, v ∈ (net.nodes u).selectorTree ↔ u ∈ (net.nodes v).mprTree)
    (hfresh : net.Fresh (net.nodes o).ownTc.dkey)
    (hroom : ¬ (net.nodes o).Refuses (net.nodes o).ownTc) :
  (net.originate o).Floods G (fun u => { m | m ∈ (net.nodes u).mprTree ∧ m ∈ range u }) N
    (net.nodes o).ownTc.dkey
  := by
  have hown : ∀ u, (net.nodes u).ownIp = u := by
    intro u
    obtain ⟨now, start, hstart, hreach⟩ := hrun u
    apply ownIp_of_reaches hstart hreach
  have hsound : ∀ u, (net.nodes u).Sound := by
    intro u
    obtain ⟨now, start, hstart, hreach⟩ := hrun u
    apply OlsrContext.sound_of_reaches hstart hreach
  have htimed : ∀ u, (net.nodes u).Timed none := by
    intro u
    obtain ⟨now, start, hstart, hreach⟩ := hrun u
    apply OlsrContext.timed_of_reaches hstart hreach
  have hsel : ∀ u v, G.Adj v u → (v ∈ (net.nodes u).selectorTree ↔
      u ∈ { m | m ∈ (net.nodes v).mprTree ∧ m ∈ range v }) := by
    intro u v hadj
    rw [hselector u v]
    exact ⟨fun hu => ⟨hu, (hrange v u).mpr hadj⟩, fun hu => hu.1⟩
  have horig : (net.nodes o).ownTc.dkey.orig = o := hown o
  have horigin : ∀ u, u = o → (net.originate o).nodes u =
      { (net.nodes o).buildOlsrTc.2 with
        olsrTxMsgbuf := (net.nodes o).olsrTxMsgbuf ++ [(net.nodes o).ownTc] } := by
    rintro u rfl
    apply Eq.trans (Function.update_self _ _ _) (olsrTcTimerCb_of_room hroom)
  have hother : ∀ u, u ≠ o → (net.originate o).nodes u = net.nodes u := by
    intro u hu
    apply Function.update_of_ne hu
  have hdup : ∀ u, ((net.originate o).nodes u).dupTree = (net.nodes u).dupTree := by
    intro u
    by_cases hu : u = o
    · rw [horigin u hu, hu]
      rfl
    · rw [hother u hu]
  constructor
  · intro u
    by_cases hu : u = o
    · rw [horigin u hu, hu]
      refine ⟨hown o, (hsound o).quiet OlsrContext.Quiet.of_eq, (htimed o).of_eq, hsel o, ?_⟩
      intro m hm hkey
      rcases List.mem_append.mp hm with hm | hm
      · apply absurd hkey (hfresh.waiting o m hm)
      · rw [List.mem_singleton.mp hm]
        exact ⟨_, rfl⟩
    · rw [hother u hu]
      refine ⟨hown u, hsound u, htimed u, hsel u, ?_⟩
      intro m hm hkey
      apply absurd hkey (hfresh.waiting u m hm)
  · intro f hf hkey
    apply absurd hkey (hfresh.air f hf)
  · apply Flood.Inv.start hcard
    · intro u
      simp only [view, hdup, decide_eq_false_iff_not]
      apply hfresh.dupTree
    · intro u
      simp only [view, OlsrContext.hasRelayed, hdup, OrdMap.search_eq_none.mpr (hfresh.dupTree u)]
      rfl
    · simp only [horig, view, horigin o rfl, copies_append, copies_of_ne (hfresh.waiting o),
        zero_add]
      simp [copies, OlsrContext.ownTc]
    · intro u hu
      rw [horig] at hu
      simp only [view, hother u hu, copies_of_ne (hfresh.waiting u)]
    · have hnone : net.air.filter (fun f => f.msg.dkey = (net.nodes o).ownTc.dkey) = [] := by
        simpa using hfresh.air
      simp only [view, originate, flying, hnone]
      rfl
    · intro u
      rfl
    · intro u
      rfl

/-- How often the node `u` has put the message with the key `d` into its queue. -/
def transmissions (net : Net) (d : DuplicateSetKey) (u : InAddr) : ℕ :=
  (copies d (net.nodes u).olsrTxMsgbuf).card + net.transmitted.count (u, d)

/-- In a connected network of at most 64 nodes, of which each has relays that reach all nodes
two edges away and knows who has chosen it as a relay, a node `o` originates a TC with a fresh
key. Then in every run in which nothing disturbs the flooding, no node processes the TC twice,
no other node transmits it twice, and `o` transmits it once and does not process it. The
arrival of a copy never fails, and when no copy is on its way, all nodes have processed the
TC. -/
theorem mpr_flooding (hrange : ∀ u v, v ∈ range u ↔ G.Adj u v) (hcard : N.card ≤ 64)
    (hedge : ∀ u v, G.Adj u v → v ∈ N) {o : InAddr} (ho : o ∈ N)
    (hconnected : ∀ u ∈ N, G.Reachable o u) {start net : Net}
    (hrun : ∀ u, ∃ now ctx, OlsrContext.olsrStart u now = some ctx ∧
      Reaches nodeStep OlsrContext.WellSent ctx (start.nodes u))
    (hsettled : start.Settled G) (hd : d = (start.nodes o).ownTc.dkey) (hfresh : start.Fresh d)
    (hroom : ¬ (start.nodes o).Refuses (start.nodes o).ownTc)
    (h : Reaches (Net.step range) (Undisturbed d) (start.originate o) net) :
  (∀ u, u ≠ o → net.processed.count (u, d) ≤ 1 ∧ net.transmissions d u ≤ 1) ∧
  net.processed.count (o, d) = 0 ∧ net.transmissions d o = 1 ∧
  (∀ i f now, net.air[i]? = some f → f.msg.dkey = d → ¬ (net.nodes f.dst).Refuses f.msg →
    ∃ net', net.step range (.deliver i now) = some net') ∧
  (¬ net.InFlight d → ∀ u ∈ N, u ≠ o → net.processed.count (u, d) = 1)
  := by
  subst hd
  have horig : (start.nodes o).ownTc.dkey.orig = o := by
    obtain ⟨now, ctx, hstart, hreach⟩ := hrun o
    apply ownIp_of_reaches hstart hreach
  have hfloods : net.Floods G (fun u => { m | m ∈ (start.nodes u).mprTree ∧ m ∈ range u }) N
      (start.nodes o).ownTc.dkey := by
    apply h.invariant _
      (floods_originate hrange hcard hrun hsettled.selector hfresh hroom)
    intro net e net' hnet hok hstep
    apply hnet.step (horig.symm ▸ ho) hrange hedge hok hstep
  have hflood := hfloods.flood
  rw [horig] at hflood
  have honce := hflood.once
  have hprocessed := hflood.processed
  refine ⟨?_, ?_, ?_, ?_, ?_⟩
  · intro u hu
    constructor
    · apply (hprocessed u).trans_le
      split_ifs <;> omega
    · apply (honce u).trans_le
      split_ifs <;> omega
  · apply (hprocessed o).trans
    rw [hflood.origin]
    rfl
  · apply (honce o).trans
    simp
  · intro i f now hf hkey hroom'
    obtain ⟨net', hnet', -⟩ := hfloods.deliver_copy (horig.symm ▸ ho) hedge now hf hkey hroom'
    exact ⟨net', hnet'⟩
  · intro hquiet u hu huo
    have hrelay : IsRelay G (fun u => { m | m ∈ (start.nodes u).mprTree ∧ m ∈ range u }) := by
      constructor
      · intro u m hm
        apply (hrange u m).mp hm.2
      · intro u b x hub hbx hne hnadj
        obtain ⟨m, hm, hum, hmx⟩ := hsettled.cover u b x hub hbx hne hnadj
        exact ⟨m, ⟨hm, (hrange u m).mpr hum⟩, hmx⟩
    apply hflood.processed_of_quiet hrelay _ _ huo (hconnected u hu)
    · intro w
      apply copies_of_ne
      intro m hm hkey
      apply hquiet
      left
      exact ⟨w, m, hm, hkey⟩
    · have hnone : net.air.filter (fun f => f.msg.dkey = (start.nodes o).ownTc.dkey) = [] := by
        rw [List.filter_eq_nil_iff]
        intro f hf hkey
        apply hquiet
        right
        exact ⟨f, hf, of_decide_eq_true hkey⟩
      simp only [view, flying, hnone]
      rfl

/-! ### Three nodes in a line -/

/-- A HELLO of `orig` that lists node 2 as a relay. -/
def helloMpr (orig : InAddr) : OlsrMsg where
  vtime := 0
  originator := orig
  ttl := 1
  hopcnt := 0
  seqno := 0
  payload := .hello ⟨0, willDefault,
    [⟨createLinkCode NeighborStatus.mprNeigh.code LinkStatus.symLink.code, [nodeIp 2]⟩]⟩

/-- The HELLO messages that the nodes of the line have received. -/
def lineHellos (u : InAddr) : List NodeEvent :=
  if u = nodeIp 1 ∨ u = nodeIp 3 then [.recv ⟨0, 0⟩ (nodeIp 2) (OlsrContext.helloOfTwo [nodeIp 3])]
  else if u = nodeIp 2 then
    [.recv ⟨0, 0⟩ (nodeIp 1) (helloMpr (nodeIp 1)), .recv ⟨0, 0⟩ (nodeIp 3) (helloMpr (nodeIp 3))]
  else []

/-- A node of the line after these messages. -/
def lineStart (u : InAddr) : OlsrContext :=
  ((OlsrContext.olsrStart u ⟨0, 0⟩).bind (fun ctx => (lineHellos u).foldlM
    (fun ctx e => if ctx.wellSentCheck e then nodeStep ctx e else none) ctx)).getD
    (initOlsrContext u ⟨0, 0⟩)

/-- Nodes outside the line have received nothing. -/
theorem lineStart_outside {u : InAddr} (h13 : ¬ (u = nodeIp 1 ∨ u = nodeIp 3))
    (h2 : u ≠ nodeIp 2) :
  OlsrContext.olsrStart u ⟨0, 0⟩ = some (lineStart u)
  := by
  obtain ⟨ctx, hctx, -⟩ := OlsrContext.olsrStart_timed u ⟨0, 0⟩
  rw [lineStart, lineHellos, if_neg h13, if_neg h2, hctx, Option.bind_some, List.foldlM_nil,
    Option.pure_def, Option.getD_some]

theorem lineStart_run (u : InAddr) :
  ∃ now ctx, OlsrContext.olsrStart u now = some ctx ∧
    Reaches nodeStep OlsrContext.WellSent ctx (lineStart u)
  := by
  have hrun : ∀ v, ((OlsrContext.olsrStart v ⟨0, 0⟩).bind (fun ctx => (lineHellos v).foldlM
      (fun ctx e => if ctx.wellSentCheck e then nodeStep ctx e else none) ctx)).isSome = true →
      ∃ now ctx, OlsrContext.olsrStart v now = some ctx ∧
        Reaches nodeStep OlsrContext.WellSent ctx (lineStart v) := by
    intro v hsome
    obtain ⟨ctx, hctx⟩ := Option.isSome_iff_exists.mp hsome
    obtain ⟨start, hstart, hfold⟩ := Option.bind_eq_some_iff.mp hctx
    have hline : lineStart v = ctx := by rw [lineStart, hctx, Option.getD_some]
    rw [hline]
    exact ⟨⟨0, 0⟩, start, hstart, Reaches.of_checked OlsrContext.wellSent_of_check hfold⟩
  by_cases h13 : u = nodeIp 1 ∨ u = nodeIp 3
  · rcases h13 with rfl | rfl
    · apply hrun
      decide +kernel
    · apply hrun
      decide +kernel
  · by_cases h2 : u = nodeIp 2
    · rw [h2]
      apply hrun
      decide +kernel
    · exact ⟨⟨0, 0⟩, lineStart u, lineStart_outside h13 h2, Reaches.refl⟩

/-- Nodes 1 and 3 have chosen node 2 as a relay, and node 2 knows it. -/
theorem lineStart_tables (u : InAddr) :
  (lineStart u).mprTree.keys = (if u = nodeIp 1 ∨ u = nodeIp 3 then [nodeIp 2] else []) ∧
  (lineStart u).selectorTree.keys = (if u = nodeIp 2 then [nodeIp 1, nodeIp 3] else []) ∧
  (lineStart u).dupTree.keys = [] ∧ (lineStart u).olsrTxMsgbuf = []
  := by
  by_cases h13 : u = nodeIp 1 ∨ u = nodeIp 3
  · rcases h13 with rfl | rfl
    · decide +kernel
    · decide +kernel
  · by_cases h2 : u = nodeIp 2
    · rw [h2]
      decide +kernel
    · obtain ⟨tq, htq⟩ := OlsrContext.olsrStart_inv (lineStart_outside h13 h2)
      rw [htq, if_neg h13, if_neg h2]
      exact ⟨rfl, rfl, rfl, rfl⟩

/-- The line before node 1 sends its TC. -/
def lineNet : Net := ⟨lineStart, [], [], []⟩

theorem lineNet_settled :
  lineNet.Settled OlsrContext.line
  := by
  have hmpr : ∀ u m, m ∈ (lineStart u).mprTree ↔
      (u = nodeIp 1 ∨ u = nodeIp 3) ∧ m = nodeIp 2 := by
    intro u m
    rw [← OrdMap.mem_keys, (lineStart_tables u).1]
    split_ifs with h13
    · simp only [List.mem_singleton, h13, true_and]
    · simp only [List.not_mem_nil, h13, false_and]
  have hselector : ∀ u v, v ∈ (lineStart u).selectorTree ↔
      u = nodeIp 2 ∧ (v = nodeIp 1 ∨ v = nodeIp 3) := by
    intro u v
    rw [← OrdMap.mem_keys, (lineStart_tables u).2.1]
    split_ifs with h2
    · simp only [List.mem_cons, List.not_mem_nil, or_false, h2, true_and]
    · simp only [List.not_mem_nil, h2, false_and]
  constructor
  · intro u b x hub hbx hne hnadj
    -- Only nodes 1 and 3 are two edges apart.
    have hub' := OlsrContext.mem_lineNeighbors.mp hub
    have hbx' := OlsrContext.mem_lineNeighbors.mp hbx
    have h2 : b = nodeIp 2 ∧ (u = nodeIp 1 ∨ u = nodeIp 3) := by
      rcases hub' with ⟨rfl, rfl⟩ | ⟨rfl, rfl⟩ | ⟨rfl, rfl⟩ | ⟨rfl, rfl⟩
      · simp
      · simp_all
      · simp_all
      · simp
    exact ⟨b, (hmpr u b).mpr h2.symm, hub, hbx⟩
  · intro u v
    rw [lineNet, hselector, hmpr, and_comm]

theorem lineNet_fresh (d : DuplicateSetKey) :
  lineNet.Fresh d
  := by
  constructor
  · intro u
    rw [← OrdMap.mem_keys, lineNet, (lineStart_tables u).2.2.1]
    apply List.not_mem_nil
  · intro u m hm
    rw [lineNet, (lineStart_tables u).2.2.2] at hm
    contradiction
  · intro f hf
    contradiction

/-- Node 1 floods its TC over the line, and node 2 passes it on. -/
def lineEvents : List NetEvent :=
  [.work (nodeIp 1) ⟨0, 60000000⟩ ⟨0, 60000000⟩ 0, .deliver 0 ⟨0, 60000000⟩,
    .work (nodeIp 2) ⟨0, 60000000⟩ ⟨0, 60000000⟩ 0, .deliver 0 ⟨0, 60000000⟩,
    .deliver 0 ⟨0, 60000000⟩]

/-- A test for events that do not disturb the flood. -/
def undisturbedCheck (d : DuplicateSetKey) (net : Net) : NetEvent → Bool
  | .work u now currtime rand =>
      (nodeStep (net.nodes u) (.work now currtime rand)).all (fun ctx =>
        ctx.selectorTree.keys = (net.nodes u).selectorTree.keys ∧
        (d ∈ (net.nodes u).dupTree → d ∈ ctx.dupTree)) &&
      ((net.nodes u).originates (.node (.work now currtime rand))).all (fun m => m.dkey ≠ d)
  | .deliver i _ => (net.air[i]?).all (fun f => f.msg.dkey = d ∧
      f.msg.msgsize ≤
        olsrTxMsgbufSize - ((net.nodes f.dst).olsrTxMsgbuf.map OlsrMsg.msgsize).sum)

theorem undisturbed_of_check (net : Net) (e : NetEvent) (h : undisturbedCheck d net e = true) :
  Undisturbed d net e
  := by
  cases e with
  | work u now currtime rand =>
      rw [undisturbedCheck, Bool.and_eq_true] at h
      obtain ⟨hkeeps, horiginates⟩ := h
      constructor
      · intro ctx hctx
        rw [hctx, Option.all_some, decide_eq_true_eq] at hkeeps
        exact ⟨hkeeps.1, hkeeps.2⟩
      · intro m hm
        rw [hm, Option.all_some, decide_eq_true_eq] at horiginates
        apply horiginates
  | deliver i now =>
      intro f hf
      rw [undisturbedCheck, hf, Option.all_some, decide_eq_true_eq] at h
      rw [if_pos h.1]
      apply not_lt_of_ge h.2

theorem lineNet_ownTc :
  (⟨nodeIp 1, 0⟩ : DuplicateSetKey) = (lineNet.nodes (nodeIp 1)).ownTc.dkey
  := by decide +kernel

theorem lineNet_room :
  ¬ (lineNet.nodes (nodeIp 1)).Refuses (lineNet.nodes (nodeIp 1)).ownTc
  := by
  rw [OlsrContext.Refuses]
  decide +kernel

theorem line_reaches :
  ∃ net, Reaches (Net.step OlsrContext.lineNeighbors) (Undisturbed ⟨nodeIp 1, 0⟩)
      (lineNet.originate (nodeIp 1)) net ∧
    net.processed = [(nodeIp 2, ⟨nodeIp 1, 0⟩), (nodeIp 3, ⟨nodeIp 1, 0⟩)]
  := by
  have hrun : (lineEvents.foldlM (fun net e => if undisturbedCheck ⟨nodeIp 1, 0⟩ net e then
      net.step OlsrContext.lineNeighbors e else none) (lineNet.originate (nodeIp 1))).map
      Net.processed = some [(nodeIp 2, ⟨nodeIp 1, 0⟩), (nodeIp 3, ⟨nodeIp 1, 0⟩)] := by
    decide +kernel
  obtain ⟨net, hnet, hprocessed⟩ := Option.map_eq_some_iff.mp hrun
  exact ⟨net, Reaches.of_checked undisturbed_of_check hnet, hprocessed⟩

/-- In the line, nodes 2 and 3 process the TC of node 1 once, and node 2 passes it on. -/
theorem mpr_flooding_line :
  ∃ net, Reaches (Net.step OlsrContext.lineNeighbors) (Undisturbed ⟨nodeIp 1, 0⟩)
      (lineNet.originate (nodeIp 1)) net ∧
    net.processed = [(nodeIp 2, ⟨nodeIp 1, 0⟩), (nodeIp 3, ⟨nodeIp 1, 0⟩)] ∧
    net.transmissions ⟨nodeIp 1, 0⟩ (nodeIp 1) = 1 ∧
    net.transmissions ⟨nodeIp 1, 0⟩ (nodeIp 2) ≤ 1
  := by
  obtain ⟨net, hreach, hprocessed⟩ := line_reaches
  obtain ⟨h12, h23⟩ := OlsrContext.line_adj
  have hedge : ∀ u v, OlsrContext.line.Adj u v →
      v ∈ ({nodeIp 1, nodeIp 2, nodeIp 3} : Finset InAddr) := by
    intro u v hadj
    have hadj' := OlsrContext.mem_lineNeighbors.mp hadj
    simp only [Finset.mem_insert, Finset.mem_singleton]
    tauto
  have hconnected : ∀ u ∈ ({nodeIp 1, nodeIp 2, nodeIp 3} : Finset InAddr),
      OlsrContext.line.Reachable (nodeIp 1) u := by
    intro u hu
    simp only [Finset.mem_insert, Finset.mem_singleton] at hu
    rcases hu with rfl | rfl | rfl
    · apply SimpleGraph.Reachable.refl
    · apply h12.reachable
    · apply h12.reachable.trans h23.reachable
  have hrun : ∀ u, ∃ now ctx, OlsrContext.olsrStart u now = some ctx ∧
      Reaches nodeStep OlsrContext.WellSent ctx (lineNet.nodes u) := by
    simp only [lineNet]
    exact lineStart_run
  obtain ⟨hother, -, horigin, -⟩ := mpr_flooding (fun _ _ => Iff.rfl) (by decide) hedge (by simp)
    hconnected hrun lineNet_settled lineNet_ownTc (lineNet_fresh _) lineNet_room hreach
  exact ⟨net, hreach, hprocessed, horigin, (hother (nodeIp 2) (by decide)).2⟩

end Net
