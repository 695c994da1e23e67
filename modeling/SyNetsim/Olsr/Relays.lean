import SyNetsim.Olsr.Converge
import SyNetsim.Olsr.Flooding

/-!
# Relays pass TCs on to everyone

Three rounds of HELLOs leave relays that know who has chosen them (`HelloNet.AfterHellos`). So a
TC that a node builds then reaches all other nodes that can be reached, if what is transmitted
arrives at the neighbours and no node runs out of room or forgets that it has seen the TC
(`HelloNet.Floods`).

Neighbours that hear a copy for the first time process it, and those that hear it from one of their
MPR selectors queue a copy of their own (`HelloNet.Flooding`). The number of transmissions that a
copy has left and the number of nodes that have queued one add up to the number of nodes at least,
so that 64 transmissions are enough for 64 nodes.

If the TCs of all nodes are flooded, it is a round of TCs, and the routing tables are right
(`HelloNet.routes_of_floods`).
-/

namespace OlsrContext

variable {ctx ctx' : OlsrContext} {d : DuplicateSetKey}

/-! ### Steps that are about other messages -/

/-- From `ctx` to `ctx'` the node has neither seen nor passed on nor queued a message with the key
`d`. -/
structure Passes (d : DuplicateSetKey) (ctx ctx' : OlsrContext) : Prop where
  seen : d ∈ ctx'.dupTree → d ∈ ctx.dupTree
  relayed : ctx'.hasRelayed d = ctx.hasRelayed d
  queued : ∀ m, m.dkey = d → (m ∈ ctx'.queued ↔ m ∈ ctx.queued)

theorem Enqueues.passes {msgs : List OlsrMsg} (h : Enqueues ctx ctx' msgs)
    (hmsgs : ∀ m ∈ msgs, m.dkey ≠ d) (hsearch : ctx'.dupTree.search d = ctx.dupTree.search d) :
  Passes d ctx ctx'
  := by
  refine ⟨?_, ?_, ?_⟩
  · rw [OrdMap.mem_iff, OrdMap.mem_iff, hsearch]
    apply id
  · rw [hasRelayed, hsearch, hasRelayed]
  intro m hm
  rw [HelloNet.queued_of_enqueues h, List.mem_append]
  constructor
  · rintro (hmem | hmem)
    · apply hmem
    · apply absurd hm (hmsgs m hmem)
  · apply Or.inl

theorem Flushes.passes (h : Flushes ctx ctx')
    (hsearch : ctx'.dupTree.search d = ctx.dupTree.search d) :
  Passes d ctx ctx'
  := by
  refine ⟨?_, ?_, ?_⟩
  · rw [OrdMap.mem_iff, OrdMap.mem_iff, hsearch]
    apply id
  · rw [hasRelayed, hsearch, hasRelayed]
  intro m _
  rw [HelloNet.queued_of_flushes h]

/-- The duplicate entry with the key `d` does not expire in the next round of the timer queue. -/
def KeepsDup (ctx : OlsrContext) (d : DuplicateSetKey) (currtime : Timespec) : Prop :=
  ∀ arg, ctx.timerqueue.fired currtime = some (.expireDupEntryCb arg) → arg.key ≠ d

/-- Callbacks leave duplicate entries alone, but for the one that expires. -/
theorem runCallback_search {c : Callback} (hforgets : c.forgets = false)
    (hexpire : ∀ arg, c = .expireDupEntryCb arg → arg.key ≠ d)
    (h : runCallback c ctx = some ctx') :
  ctx'.dupTree.search d = ctx.dupTree.search d
  := by
  cases c with
  | expireDupEntryCb arg =>
      simp only [runCallback, expireDupEntryCb, Option.bind_eq_bind, Option.bind_eq_some_iff,
        Option.pure_def, Option.some.injEq] at h
      obtain ⟨delem, -, tq, -, rfl⟩ := h
      rw [OrdMap.search_erase, if_neg (hexpire arg rfl).symm]
  | olsrTcTimerCb =>
      obtain rfl := Option.some.inj h
      rw [olsrTcTimerCb, pushMsg_dupTree]
      rfl
  | olsrHelloTimerCb =>
      obtain rfl := Option.some.inj h
      rw [olsrHelloTimerCb, pushMsg_dupTree]
  | olsrSendFromQueueCb =>
      obtain rfl := Option.some.inj h
      rw [olsrSendFromQueueCb]
      split_ifs
      · rfl
      · rfl
  | dumpDebuginfoCb =>
      obtain rfl := Option.some.inj h
      rfl
  | linkTimerExpire arg => contradiction
  | neigh2ElemExpire arg => contradiction
  | topologyInfoTimerExpireCb arg => contradiction
  | mprSelectorExpire arg => contradiction

/-- A round of the timer queue that builds no message with the key `d`. -/
theorem work_passes {now currtime : Timespec} {rand : ℕ} (hsound : ctx.Sound)
    (hkeeps : ctx.KeepsEntries currtime) (hdup : ctx.KeepsDup d currtime)
    (hbuilds : ∀ m, ctx.originates (.node (.work now currtime rand)) = some m → m.dkey ≠ d)
    (hstep : nodeStep ctx (.work now currtime rand) = some ctx') :
  Passes d ctx ctx'
  := by
  have hsearch : ctx'.dupTree.search d = ctx.dupTree.search d := by
    rcases client.workRound_inv hstep with ⟨q, rfl⟩ | ⟨c, q, ctx₂, q', hfired, hrun, rfl⟩
    · rfl
    · have hfired' : ctx.timerqueue.fired currtime = some c := hfired
      apply runCallback_search (hkeeps c hfired') _ hrun
      rintro arg rfl
      apply hdup arg hfired'
  rcases (workRound_queue hsound hstep).1 with hqueue | ⟨m, hm, -, hqueue⟩ | hqueue
  · apply hqueue.passes _ hsearch
    intro m hm
    contradiction
  · apply hqueue.passes _ hsearch
    intro m' hm'
    rw [List.mem_singleton.mp hm']
    apply hbuilds m hm
  · apply hqueue.passes hsearch

/-- The arrival of a message with another key, or of one that the node has built itself. -/
theorem recv_passes {now : Timespec} {src : InAddr} {msg : OlsrMsg} (hsound : ctx.Sound)
    (hother : msg.dkey ≠ d ∨ msg.originator = ctx.ownIp)
    (hstep : nodeStep ctx (.recv now src msg) = some ctx') :
  Passes d ctx ctx'
  := by
  have hclock : OlsrContext.Sound { ctx with clock := now } := hsound.quiet Quiet.of_eq
  have hnone : ∀ m ∈ ([] : List OlsrMsg), m.dkey ≠ d := fun m hm => absurd hm List.not_mem_nil
  rcases handleOlsrMsg_queue hclock hstep with rfl | ⟨hown, hforwards⟩
  · apply Enqueues.of_eq.passes hnone rfl
  · have hkey : msg.dkey ≠ d := hother.resolve_right hown
    have hsearch : ctx'.dupTree.search d = ctx.dupTree.search d := hforwards.dupTree d hkey.symm
    rcases hforwards.queue with hqueue | ⟨m, hm, hqueue⟩
    · apply (Enqueues.of_eq.trans hqueue).passes hnone hsearch
    · apply (Enqueues.of_eq.trans hqueue).passes _ hsearch
      intro m' hm'
      rw [List.mem_singleton.mp hm', hm.dkey]
      apply hkey

/-- The arrival of a copy of a TC of another node. -/
theorem Timed.recv_hears {now : Timespec} {src : InAddr} {msg : OlsrMsg} {tc : TcMsg}
    (h : ctx.Timed none) (hsound : ctx.Sound) (hpayload : msg.payload = .tc tc)
    (hown : msg.originator ≠ ctx.ownIp) (hroom : ¬ ctx.Refuses msg)
    (hstep : nodeStep ctx (.recv now src msg) = some ctx') :
  Hears ctx ctx' msg src
  := by
  have hclock : OlsrContext.Timed { ctx with clock := now } none := h.of_eq
  have hhandled : ∃ ctx₁, OlsrContext.handleOlsrMsg { ctx with clock := now } msg src = some ctx₁ ∧
      ctx₁.Timed none ∧ Hears { ctx with clock := now } ctx₁ msg src :=
    handleOlsrMsg_hears hclock (hsound.quiet Quiet.of_eq) hpayload hown hroom
  obtain ⟨ctx₁, hctx₁, -, hhears⟩ := hhandled
  obtain rfl := Option.some.inj (hctx₁.symm.trans hstep)
  exact ⟨hhears.ownIp, hhears.selectorTree, hhears.sent, hhears.seen, hhears.relayed,
    hhears.queue⟩

theorem Hears.queued {msg : OlsrMsg} {src : InAddr} (h : Hears ctx ctx' msg src) :
  ctx'.queued = ctx.queued ++
    if 1 < msg.ttl.toNat ∧ src ∈ ctx.selectorTree ∧ ctx.hasRelayed msg.dkey = false then
      [relayedCopy msg]
    else []
  := by
  rw [OlsrContext.queued, h.sent, h.queue, ← List.append_assoc]
  rfl

end OlsrContext

namespace HelloNet

variable {ι : Type} {ip : ι → InAddr} {G : SimpleGraph ι} {net net' : HelloNet ι} {o : ι}
  {msg : OlsrMsg}

/-- The message `msg` that `v` has sent arrives at `u`. -/
def Arrives (u v : ι) (msg : OlsrMsg) (net : HelloNet ι) (e : HelloEvent ι) : Prop :=
  ∃ k i now pkt, e = .deliver u v k i now ∧ (net.nodes v).sent[k]? = some pkt ∧
    pkt.msgs[i]? = some msg

/-- The network is over a fixed graph, and a message with the key `d` is under way: no node forgets
that it has seen it or builds another one with this key, and there is room for its copies. -/
def Undisturbed (G : SimpleGraph ι) (d : DuplicateSetKey) (net : HelloNet ι) (e : HelloEvent ι) :
    Prop :=
  Static G net e ∧
    match e with
    | .work u now currtime rand => (net.nodes u).KeepsDup d currtime ∧
        ∀ m, (net.nodes u).originates (.node (.work now currtime rand)) = some m → m.dkey ≠ d
    | .deliver u v _ _ _ => ∀ m, Arrives u v m net e → m.dkey = d → ¬ (net.nodes u).Refuses m

/-- No node has seen or queued a message with the key `d`. -/
def Fresh (d : DuplicateSetKey) (net : HelloNet ι) : Prop :=
  ∀ u, d ∉ (net.nodes u).dupTree ∧ ∀ m ∈ (net.nodes u).queued, m.dkey ≠ d

/-- The nodes that have passed on the message with the key `d`. -/
def relayers [Fintype ι] (d : DuplicateSetKey) (net : HelloNet ι) : Finset ι :=
  Finset.univ.filter (fun u => (net.nodes u).hasRelayed d = true)

/-- What holds while the message `msg` of the node `o` is flooded. The nodes that have passed it on
have queued a copy, and so has its originator. What is queued under its key are copies of it, which
have as many transmissions left as there are nodes that have not passed it on. -/
structure Flooding [Fintype ι] (o : ι) (msg : OlsrMsg) (net : HelloNet ι) : Prop where
  timed : ∀ u, (net.nodes u).Timed none
  origin : (net.nodes o).hasRelayed msg.dkey = false
  queued : ∀ u, u = o ∨ (net.nodes u).hasRelayed msg.dkey = true →
    ∃ m ∈ (net.nodes u).queued, m.dkey = msg.dkey
  copy : ∀ u, ∀ m ∈ (net.nodes u).queued, m.dkey = msg.dkey →
    m.CopyOf msg ∧ Fintype.card ι ≤ m.ttl.toNat + (relayers msg.dkey net).card

variable [DecidableEq ι]

/-! ### What a step of the network is -/

/-- A message that arrives is handled by a step of the node. -/
theorem Arrives.step {u v : ι} {m : OlsrMsg} {e : HelloEvent ι} (h : Arrives u v m net e)
    (hcaused : Caused ip net) (hstep : net.step e = some net') :
  ∃ now ctx, m ∈ (net.nodes v).queued ∧ nodeStep (net.nodes u) (.recv now (ip v) m) = some ctx ∧
    Moves net net' u ctx
  := by
  obtain ⟨k, i, now, pkt, rfl, hpkt, hm⟩ := h
  obtain ⟨pkt', m', ctx, ⟨hpkt', hm', hsrc, hqueued⟩, hctx, hmoves, -⟩ :=
    hcaused.deliver_moves hstep
  obtain rfl := Option.some.inj (hpkt.symm.trans hpkt')
  obtain rfl := Option.some.inj (hm.symm.trans hm')
  exact ⟨now, ctx, hqueued, hctx, hmoves⟩

omit [DecidableEq ι] in
/-- A message that arrives and has not been seen before is handed to the handler of its type. -/
theorem Arrives.takes {u v : ι} {m : OlsrMsg} {e : HelloEvent ι} (h : Arrives u v m net e)
    {tc : TcMsg} (hpayload : m.payload = .tc tc) (hown : m.originator ≠ (net.nodes u).ownIp)
    (hnew : m.dkey ∉ (net.nodes u).dupTree) :
  Takes u v m net e
  := by
  obtain ⟨k, i, now, pkt, rfl, hpkt, hm⟩ := h
  refine ⟨k, i, now, pkt, rfl, hpkt, hm, ?_⟩
  have hprocessed : ¬ (m.originator = (net.nodes u).ownIp ∨
      (net.nodes u).isAlreadyProcessed m = true) := by
    rintro (horig | hseen)
    · apply hown horig
    · apply hnew (of_decide_eq_true hseen)
  rw [OlsrContext.msgHandler, if_neg hprocessed]
  simp only [hpayload, Option.isSome_some]

/-- A step while a message with the key `d` is under way: it is about other messages, or a copy
arrives. -/
theorem Stable.step_flood (h : Stable ip G net) {d : DuplicateSetKey} {e : HelloEvent ι}
    (hok : Undisturbed G d net e) (hstep : net.step e = some net') :
  ∃ u e' ctx, nodeStep (net.nodes u) e' = some ctx ∧ Moves net net' u ctx ∧
    (net.nodes u).WellSent e' ∧
    (OlsrContext.Passes d (net.nodes u) ctx ∨ ∃ v m now, e' = .recv now (ip v) m ∧
      Arrives u v m net e ∧ m ∈ (net.nodes v).queued ∧ m.dkey = d ∧ m.originator ≠ ip u ∧
      ¬ (net.nodes u).Refuses m)
  := by
  obtain ⟨hstatic, hflood⟩ := hok
  cases e with
  | work u now currtime rand =>
      obtain ⟨ctx, hctx, hmoves, -⟩ := work_moves hstep
      refine ⟨u, .work now currtime rand, ctx, hctx, hmoves, trivial, Or.inl ?_⟩
      apply OlsrContext.work_passes (h.steady u).sound hstatic.1 hflood.1 hflood.2 hctx
  | deliver u v k i now =>
      obtain ⟨pkt, m, ctx, ⟨hpkt, hm, -, hqueued⟩, hctx, hmoves, -⟩ :=
        h.certified.caused.deliver_moves hstep
      have harrives : Arrives u v m net (.deliver u v k i now) := ⟨k, i, now, pkt, rfl, hpkt, hm⟩
      have hwell : (net.nodes u).ForgetsNothing (.recv now (ip v) m) := h.forgetsNothing hqueued
      refine ⟨u, .recv now (ip v) m, ctx, hctx, hmoves, hwell, ?_⟩
      by_cases hother : m.dkey ≠ d ∨ m.originator = (net.nodes u).ownIp
      · left
        apply OlsrContext.recv_passes (h.steady u).sound hother hctx
      · obtain ⟨hkey, hown⟩ := not_or.mp hother
        rw [h.certified.caused.ownIp] at hown
        have hkey := not_ne_iff.mp hkey
        right
        exact ⟨v, m, now, rfl, harrives, hqueued, hkey, hown, hflood m harrives hkey⟩

/-! ### The flood -/

section

variable [Fintype ι] {tc : TcMsg}

omit [DecidableEq ι] in
/-- The nodes that have passed a message on are the same if each of them has. -/
theorem relayers_congr {d : DuplicateSetKey}
    (h : ∀ u, (net'.nodes u).hasRelayed d = (net.nodes u).hasRelayed d) :
  relayers d net' = relayers d net
  := by
  rw [relayers, relayers]
  apply Finset.filter_congr
  intro u _
  rw [h u]

/-- A step in which nobody passes the message on keeps the flood going. -/
theorem Flooding.same (h : Flooding o msg net) {u : ι} {ctx : OlsrContext}
    (hmoves : Moves net net' u ctx) (htimed : ctx.Timed none)
    (hrelayed : ctx.hasRelayed msg.dkey = (net.nodes u).hasRelayed msg.dkey)
    (hqueued : ∀ m, m.dkey = msg.dkey → (m ∈ ctx.queued ↔ m ∈ (net.nodes u).queued)) :
  Flooding o msg net'
  := by
  have hall : ∀ v, (net'.nodes v).Timed none ∧
      (net'.nodes v).hasRelayed msg.dkey = (net.nodes v).hasRelayed msg.dkey ∧
      ∀ m, m.dkey = msg.dkey → (m ∈ (net'.nodes v).queued ↔ m ∈ (net.nodes v).queued) := by
    intro v
    rcases hmoves.node v with ⟨rfl, hv⟩ | hv
    · rw [hv]
      exact ⟨htimed, hrelayed, hqueued⟩
    · rw [hv]
      exact ⟨h.timed v, rfl, fun _ _ => Iff.rfl⟩
  have hrelayers := relayers_congr (fun v => (hall v).2.1)
  constructor
  · intro v
    apply (hall v).1
  · rw [(hall o).2.1]
    apply h.origin
  · intro v hv
    rw [(hall v).2.1] at hv
    obtain ⟨m, hm, hkey⟩ := h.queued v hv
    exact ⟨m, ((hall v).2.2 m hkey).mpr hm, hkey⟩
  · intro v m hm hkey
    rw [hrelayers]
    apply h.copy v m (((hall v).2.2 m hkey).mp hm) hkey

/-- A node that has not passed the message on hears it with transmissions left. -/
theorem Flooding.one_lt_ttl (h : Flooding o msg net) {u v : ι} {m : OlsrMsg}
    (hm : m ∈ (net.nodes v).queued) (hkey : m.dkey = msg.dkey) (huo : u ≠ o)
    (hrelayed : (net.nodes u).hasRelayed msg.dkey = false) :
  1 < m.ttl.toNat
  := by
  have hcard := (h.copy v m hm hkey).2
  have hsubset : insert u (insert o (relayers msg.dkey net)) ⊆ Finset.univ :=
    Finset.subset_univ _
  have hle := Finset.card_le_card hsubset
  rw [Finset.card_insert_of_notMem, Finset.card_insert_of_notMem, Finset.card_univ] at hle
  · omega
  · simp [relayers, h.origin]
  · simp [relayers, hrelayed, huo]

/-- A node that passes the message on is one more that has done so. -/
theorem relayers_insert {d : DuplicateSetKey} {u : ι} {ctx : OlsrContext}
    (hmoves : Moves net net' u ctx) (hnot : (net.nodes u).hasRelayed d = false)
    (hrelayed : ctx.hasRelayed d = true) :
  (relayers d net').card = (relayers d net).card + 1
  := by
  have hinsert : relayers d net' = insert u (relayers d net) := by
    ext v
    rw [relayers, relayers, hmoves.nodes]
    by_cases hv : v = u
    · simp [hv, hrelayed]
    · simp [hv]
  rw [hinsert, Finset.card_insert_of_notMem]
  simp [relayers, hnot]

/-- A node that passes a copy on for the first time keeps the flood going. -/
theorem Flooding.relays (h : Flooding o msg net) {u v : ι} {m : OlsrMsg} {ctx : OlsrContext}
    (hmoves : Moves net net' u ctx) (htimed : ctx.Timed none) (huo : u ≠ o)
    (hm : m ∈ (net.nodes v).queued) (hkey : m.dkey = msg.dkey) (httl : 1 < m.ttl.toNat)
    (hnot : (net.nodes u).hasRelayed msg.dkey = false) (hrelayed : ctx.hasRelayed msg.dkey = true)
    (hqueued : ctx.queued = (net.nodes u).queued ++ [OlsrContext.relayedCopy m]) :
  Flooding o msg net'
  := by
  have hcard := relayers_insert hmoves hnot hrelayed
  have hother : ∀ w, w ≠ u → net'.nodes w = net.nodes w := by
    intro w hw
    rw [hmoves.nodes, Function.update_of_ne hw]
  have hself : net'.nodes u = ctx := by
    rw [hmoves.nodes, Function.update_self]
  constructor
  · intro w
    rcases hmoves.node w with ⟨-, hw⟩ | hw
    · rw [hw]
      apply htimed
    · rw [hw]
      apply h.timed w
  · rw [hother o huo.symm]
    apply h.origin
  · intro w hw
    by_cases hwu : w = u
    · refine ⟨OlsrContext.relayedCopy m, ?_, hkey⟩
      rw [hwu, hself, hqueued]
      apply List.mem_append_right _ (List.mem_singleton_self _)
    · rw [hother w hwu] at hw ⊢
      apply h.queued w hw
  · intro w m' hm' hkey'
    rw [hcard]
    have hold : m' ∈ (net.nodes w).queued ∨ m' = OlsrContext.relayedCopy m := by
      by_cases hwu : w = u
      · rw [hwu, hself, hqueued, List.mem_append, List.mem_singleton] at hm'
        rw [hwu]
        apply hm'
      · rw [hother w hwu] at hm'
        left
        apply hm'
    rcases hold with hold | rfl
    · obtain ⟨hcopy, hle⟩ := h.copy w m' hold hkey'
      exact ⟨hcopy, by omega⟩
    · -- The copy has one transmission less, and one more node has passed the message on.
      obtain ⟨hcopy, hle⟩ := h.copy v m hm hkey
      rw [OlsrMsg.CopyOf] at hcopy
      have hsub : (m.ttl - 1).toNat = m.ttl.toNat - 1 := by
        apply BitVec.toNat_sub_of_le
        rw [BitVec.le_def]
        apply httl.le
      refine ⟨?_, ?_⟩
      · rw [OlsrMsg.CopyOf, OlsrContext.relayedCopy, hcopy]
      · rw [OlsrContext.relayedCopy, hsub]
        omega

/-- The arrival of a copy keeps the flood going. If the node has passed the message on before, or
the sender has chosen it as a relay, it has passed it on then. -/
theorem Flooding.hears (h : Flooding o msg net) (hstable : Stable ip G net)
    (horigin : msg.originator = ip o) (hpayload : msg.payload = .tc tc) {u v : ι} {m : OlsrMsg}
    {now : Timespec} {ctx : OlsrContext}
    (hctx : nodeStep (net.nodes u) (.recv now (ip v) m) = some ctx) (hmoves : Moves net net' u ctx)
    (htimed : ctx.Timed none) (hm : m ∈ (net.nodes v).queued) (hkey : m.dkey = msg.dkey)
    (hown : m.originator ≠ ip u) (hroom : ¬ (net.nodes u).Refuses m) :
  Flooding o msg net' ∧
    ((net.nodes u).hasRelayed msg.dkey = true ∨ ip v ∈ (net.nodes u).selectorTree →
      (net'.nodes u).hasRelayed msg.dkey = true)
  := by
  have hcopy := (h.copy v m hm hkey).1
  have hpayload' : m.payload = .tc tc := hcopy.payload.trans hpayload
  have huo : u ≠ o := by
    rintro rfl
    apply hown (hcopy.originator.trans horigin)
  rw [← hstable.certified.caused.ownIp] at hown
  have hhears := (h.timed u).recv_hears (hstable.steady u).sound hpayload' hown hroom hctx
  have hqueued := hhears.queued
  have hrelayed := hhears.relayed
  rw [hkey] at hqueued hrelayed
  have hself : net'.nodes u = ctx := by
    rw [hmoves.nodes, Function.update_self]
  rw [hself]
  by_cases hpass : 1 < m.ttl.toNat ∧ ip v ∈ (net.nodes u).selectorTree ∧
      (net.nodes u).hasRelayed msg.dkey = false
  · obtain ⟨httl, hselector, hnot⟩ := hpass
    rw [if_pos ⟨httl, hselector, hnot⟩] at hqueued
    have htrue : ctx.hasRelayed msg.dkey = true := by
      rw [hrelayed, hnot, Bool.false_or, decide_eq_true_eq]
      exact ⟨httl, hselector⟩
    exact ⟨h.relays hmoves htimed huo hm hkey httl hnot htrue hqueued, fun _ => htrue⟩
  · -- The node has passed the message on before, or the sender has not chosen it.
    rw [if_neg hpass, List.append_nil] at hqueued
    have hsame : ctx.hasRelayed msg.dkey = (net.nodes u).hasRelayed msg.dkey ∧
        ((net.nodes u).hasRelayed msg.dkey = true ∨ ip v ∈ (net.nodes u).selectorTree →
          ctx.hasRelayed msg.dkey = true) := by
      cases hnot : (net.nodes u).hasRelayed msg.dkey with
      | true =>
          rw [hrelayed, hnot]
          exact ⟨rfl, fun _ => rfl⟩
      | false =>
          have httl := h.one_lt_ttl hm hkey huo hnot
          have hselector : ip v ∉ (net.nodes u).selectorTree :=
            fun hselector => hpass ⟨httl, hselector, hnot⟩
          rw [hrelayed, hnot]
          simp [hselector]
    refine ⟨h.same hmoves htimed hsame.1 ?_, hsame.2⟩
    intro m' _
    rw [hqueued]

/-- A step keeps the flood going, and what has been passed on stays so. -/
theorem Flooding.step (h : Flooding o msg net) (hstable : Stable ip G net)
    (horigin : msg.originator = ip o) (hpayload : msg.payload = .tc tc) {e : HelloEvent ι}
    (hok : Undisturbed G msg.dkey net e) (hstep : net.step e = some net') :
  Flooding o msg net' ∧ ∀ u, (net.nodes u).hasRelayed msg.dkey = true →
    (net'.nodes u).hasRelayed msg.dkey = true
  := by
  obtain ⟨u, e', ctx, hctx, hmoves, hwell, hcases⟩ := hstable.step_flood hok hstep
  obtain ⟨ctx', hctx', htimed, -⟩ := (h.timed u).step (hstable.steady u).sound hwell
  obtain rfl := Option.some.inj (hctx.symm.trans hctx')
  have hself : net'.nodes u = ctx := by
    rw [hmoves.nodes, Function.update_self]
  have hkeeps : ((net.nodes u).hasRelayed msg.dkey = true → ctx.hasRelayed msg.dkey = true) →
      ∀ w, (net.nodes w).hasRelayed msg.dkey = true →
        (net'.nodes w).hasRelayed msg.dkey = true := by
    intro hu w hw
    rcases hmoves.node w with ⟨rfl, hw'⟩ | hw'
    · rw [hw']
      apply hu hw
    · rw [hw']
      apply hw
  rcases hcases with hpasses | ⟨v, m, now, rfl, -, hm, hkey, hown, hroom⟩
  · refine ⟨h.same hmoves htimed hpasses.relayed hpasses.queued, hkeeps ?_⟩
    rw [hpasses.relayed]
    apply id
  · obtain ⟨hflood, hrelayed⟩ :=
      h.hears hstable horigin hpayload hctx hmoves htimed hm hkey hown hroom
    rw [hself] at hrelayed
    exact ⟨hflood, hkeeps (fun hu => hrelayed (Or.inl hu))⟩

theorem Flooding.run (h : Flooding o msg net) (hstable : Stable ip G net)
    (hip : Function.Injective ip) (horigin : msg.originator = ip o)
    (hpayload : msg.payload = .tc tc) {log : List (HelloNet ι × HelloEvent ι)}
    (hrun : History HelloNet.step (Undisturbed G msg.dkey) net log net') :
  Stable ip G net' ∧ Flooding o msg net'
  := by
  have hstep : ∀ s e t, Stable ip G s ∧ Flooding o msg s → Undisturbed G msg.dkey s e →
      HelloNet.step s e = some t → Stable ip G t ∧ Flooding o msg t := by
    rintro s e t ⟨hs, hflood⟩ hok hstep
    exact ⟨hs.step hip hok.1 hstep, (hflood.step hs horigin hpayload hok hstep).1⟩
  apply (hrun.invariant hstep ⟨hstable, h⟩).1

/-- A node that has seen the message has processed a copy of it. -/
theorem Flooding.seen (h : Flooding o msg net) (hstable : Stable ip G net)
    (hip : Function.Injective ip) (horigin : msg.originator = ip o)
    (hpayload : msg.payload = .tc tc) (hnew : ∀ u, msg.dkey ∉ (net.nodes u).dupTree)
    {log : List (HelloNet ι × HelloEvent ι)}
    (hrun : History HelloNet.step (Undisturbed G msg.dkey) net log net') {u : ι}
    (hseen : msg.dkey ∈ (net'.nodes u).dupTree) :
  ∃ p ∈ log, ∃ w m, m.CopyOf msg ∧ Takes u w m p.1 p.2
  := by
  induction hrun with
  | nil => apply absurd hseen (hnew u)
  | @concat log s s' e hlog hok hstep ih =>
      by_cases hbefore : msg.dkey ∈ (s.nodes u).dupTree
      · obtain ⟨p, hp, htakes⟩ := ih hbefore
        exact ⟨p, List.mem_append_left _ hp, htakes⟩
      · -- What the node sees for the first time is a copy that arrives in this step.
        obtain ⟨hstable', hflood⟩ := h.run hstable hip horigin hpayload hlog
        obtain ⟨v, e', ctx, -, hmoves, -, hcases⟩ := hstable'.step_flood hok hstep
        rcases hmoves.node u with ⟨rfl, hu⟩ | hu
        · rw [hu] at hseen
          rcases hcases with hpasses | ⟨w, m, -, -, harrives, hm, hkey, hown, -⟩
          · apply absurd (hpasses.seen hseen) hbefore
          · have hcopy := (hflood.copy w m hm hkey).1
            refine ⟨(s, e), List.mem_append_right _ (List.mem_singleton_self _), w, m, hcopy, ?_⟩
            apply harrives.takes (hcopy.payload.trans hpayload)
            · rw [hstable'.certified.caused.ownIp]
              apply hown
            · rw [hkey]
              apply hbefore
        · rw [hu] at hseen
          apply absurd hseen hbefore

/-- A relay at which a copy arrives that a node has sent that has chosen it queues one. -/
theorem Flooding.relayed (h : Flooding o msg net) (hstable : Stable ip G net)
    (hip : Function.Injective ip) (horigin : msg.originator = ip o)
    (hpayload : msg.payload = .tc tc) {log : List (HelloNet ι × HelloEvent ι)}
    (hrun : History HelloNet.step (Undisturbed G msg.dkey) net log net') {u v : ι} {m : OlsrMsg}
    (huo : u ≠ o) (hkey : m.dkey = msg.dkey) (hselector : ip v ∈ (net.nodes u).selectorTree)
    (harrives : ∃ p ∈ log, Arrives u v m p.1 p.2) :
  (net'.nodes u).hasRelayed msg.dkey = true
  := by
  let Inv : HelloNet ι → Prop := fun s =>
    Stable ip G s ∧ Flooding o msg s ∧ ip v ∈ (s.nodes u).selectorTree
  have hinv : ∀ s e t, Inv s → Undisturbed G msg.dkey s e → HelloNet.step s e = some t →
      Inv t := by
    rintro s e t ⟨hs, hflood, hsel⟩ hok hstep
    exact ⟨hs.step hip hok.1 hstep, (hflood.step hs horigin hpayload hok hstep).1,
      (hs.step_retains hok.1 hstep u).selector _ hsel⟩
  have hkeeps : ∀ s e t, Inv s → Undisturbed G msg.dkey s e → HelloNet.step s e = some t →
      (s.nodes u).hasRelayed msg.dkey = true → (t.nodes u).hasRelayed msg.dkey = true := by
    rintro s e t ⟨hs, hflood, -⟩ hok hstep
    apply (hflood.step hs horigin hpayload hok hstep).2 u
  have hdoes : ∀ s e t, Inv s → Undisturbed G msg.dkey s e → HelloNet.step s e = some t →
      Arrives u v m s e → (t.nodes u).hasRelayed msg.dkey = true := by
    rintro s e t ⟨hs, hflood, hsel⟩ hok hstep harrives
    obtain ⟨now, ctx, hm, hctx, hmoves⟩ := harrives.step hs.certified.caused hstep
    have hforgets : (s.nodes u).ForgetsNothing (.recv now (ip v) m) := hs.forgetsNothing hm
    have hwell : (s.nodes u).WellSent (.recv now (ip v) m) := hforgets
    obtain ⟨ctx', hctx', htimed, -⟩ := (hflood.timed u).step (hs.steady u).sound hwell
    obtain rfl := Option.some.inj (hctx.symm.trans hctx')
    have hown : m.originator ≠ ip u := by
      rw [(hflood.copy v m hm hkey).1.originator, horigin]
      apply hip.ne huo.symm
    have hroom : ¬ (s.nodes u).Refuses m := by
      obtain ⟨k, i, now', pkt, rfl, hpkt, hmsg⟩ := harrives
      apply hok.2 m ⟨k, i, now', pkt, rfl, hpkt, hmsg⟩ hkey
    apply (hflood.hears hs horigin hpayload hctx hmoves htimed hm hkey hown hroom).2
    apply Or.inr hsel
  apply hrun.ensures hinv hkeeps hdoes ⟨hstable, h, hselector⟩ harrives

end

/-! ### After three rounds of HELLOs -/

/-- The timers of a stable network are in order from its start on. -/
theorem Stable.timed (h : Stable ip G net) (hip : Function.Injective ip)
    (htimed : ∀ u, (net.nodes u).Timed none) {log : List (HelloNet ι × HelloEvent ι)}
    (hrun : History HelloNet.step (Static G) net log net') :
  Stable ip G net' ∧ ∀ u, (net'.nodes u).Timed none
  := by
  have hstep : ∀ s e t, (Stable ip G s ∧ ∀ u, (s.nodes u).Timed none) → Static G s e →
      HelloNet.step s e = some t → Stable ip G t ∧ ∀ u, (t.nodes u).Timed none := by
    rintro s e t ⟨hs, htimed⟩ hok hstep
    refine ⟨hs.step hip hok hstep, ?_⟩
    obtain ⟨v, e', ctx, hforgets, hctx, hmoves, -⟩ := hs.step_node hok hstep
    intro u
    rcases hmoves.node u with ⟨rfl, hu⟩ | hu
    · have hwell : (s.nodes u).WellSent e' := by
        cases e' with
        | recv now src m => apply hforgets
        | work now currtime rand => trivial
      obtain ⟨ctx', hctx', htimed', -⟩ := (htimed u).step (hs.steady u).sound hwell
      obtain rfl := Option.some.inj (hctx.symm.trans hctx')
      rw [hu]
      apply htimed'
    · rw [hu]
      apply htimed u
  apply (hrun.invariant hstep ⟨h, htimed⟩).1

/-- The network has come about from nodes that have just started by steps over the graph, among
them three rounds of HELLOs, one after the other. -/
def AfterHellos (ip : ι → InAddr) (G : SimpleGraph ι) (net : HelloNet ι) : Prop :=
  ∃ start net₁ net₂ net₃ log₁ log₂ log₃ log₄, Starts ip start ∧
    (History step (Static G) start log₁ net₁ ∧ HelloRound G log₁) ∧
    (History step (Static G) net₁ log₂ net₂ ∧ HelloRound G log₂) ∧
    (History step (Static G) net₂ log₃ net₃ ∧ HelloRound G log₃) ∧
    History step (Static G) net₃ log₄ net

/-- The steps that follow are part of what has happened. -/
theorem AfterHellos.run (h : AfterHellos ip G net) {log : List (HelloNet ι × HelloEvent ι)}
    (hrun : History step (Static G) net log net') :
  AfterHellos ip G net'
  := by
  obtain ⟨start, net₁, net₂, net₃, log₁, log₂, log₃, log₄, hstart, h₁, h₂, h₃, hrun₄⟩ := h
  exact ⟨start, net₁, net₂, net₃, log₁, log₂, log₃, log₄ ++ log, hstart, h₁, h₂, h₃,
    hrun₄.append hrun⟩

/-- In a run that ends in `net'` the node `o` builds the message `msg`, under a fresh key and with
room for it. From then on it is under way undisturbed, and at the end all copies that nodes have
queued have arrived at their neighbours. -/
def Floods (G : SimpleGraph ι) (o : ι) (msg : OlsrMsg) (log : List (HelloNet ι × HelloEvent ι))
    (net' : HelloNet ι) : Prop :=
  ∃ log₁ s e log₂, log = log₁ ++ (s, e) :: log₂ ∧
    Builds o msg s e ∧ Fresh msg.dkey s ∧ ¬ (s.nodes o).Refuses msg ∧
    (∀ p ∈ log₂, Undisturbed G msg.dkey p.1 p.2) ∧
    ∀ v, ∀ m ∈ (net'.nodes v).queued, m.dkey = msg.dkey → ∀ u, G.Adj v u →
      ∃ p ∈ log₂, Arrives u v m p.1 p.2

/-- The check that a step leaves the messages with the key `d` undisturbed. -/
def undisturbedCheck (d : DuplicateSetKey) (p : HelloNet (Fin 3) × HelloEvent (Fin 3)) : Bool :=
  match p with
  | (net, .work u now currtime rand) =>
      (match (net.nodes u).timerqueue.fired currtime with
        | some (.expireDupEntryCb arg) => arg.key ≠ d
        | _ => true) &&
      ((net.nodes u).originates (.node (.work now currtime rand))).all (fun m => m.dkey ≠ d)
  | (net, .deliver u v k i _) =>
      ((net.nodes v).sent[k]?).all (fun pkt => (pkt.msgs[i]?).all (fun m => m.dkey ≠ d ∨
        m.msgsize ≤ olsrTxMsgbufSize - ((net.nodes u).olsrTxMsgbuf.map OlsrMsg.msgsize).sum))

theorem undisturbed_of_check {d : DuplicateSetKey} {net : HelloNet (Fin 3)} {e : HelloEvent (Fin 3)}
    (hstatic : Static threeLine net e) (h : undisturbedCheck d (net, e) = true) :
  Undisturbed threeLine d net e
  := by
  refine ⟨hstatic, ?_⟩
  cases e with
  | work u now currtime rand =>
      obtain ⟨hexpire, hbuilds⟩ := Bool.and_eq_true_iff.mp h
      refine ⟨?_, ?_⟩
      · intro arg harg
        simp only [harg] at hexpire
        apply of_decide_eq_true hexpire
      · intro m hm
        rw [hm] at hbuilds
        apply of_decide_eq_true hbuilds
  | deliver u v k i now =>
      rintro m ⟨k', i', now', pkt, heq, hpkt, hm⟩ hkey
      obtain ⟨-, -, rfl, rfl, -⟩ := HelloEvent.deliver.inj heq
      simp only [undisturbedCheck, hpkt, hm, Option.all_some, decide_eq_true_eq] at h
      apply not_lt.mpr (h.resolve_left (not_not.mpr hkey))

end HelloNet
