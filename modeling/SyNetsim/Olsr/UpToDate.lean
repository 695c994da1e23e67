import SyNetsim.Olsr.Node

/-!
# Tables that are up to date

Two tables of a node are computed from others: the routing table from neighbours and topology,
and the relays from the symmetric neighbours and their two-hop neighbours. Between the steps of
a node, are they what would be computed now?

The routing table is recalculated with every change of a neighbour's status and every change
of the topology that `process_olsr_tc` takes for one. It misses one: a first TC that advertises
nobody makes an entry, along which the search then finds the originators that advertise it.

The relays are chosen at every HELLO, and at no other time. The expiry of a link or of a
two-hop neighbour can take from them a relay or what it reaches.
-/

namespace OlsrContext

/-! ### The routing table -/

/-- The event is no TC that makes a topology entry without advertised neighbours for an
originator that is advertised. -/
def KeepsRouting (ctx : OlsrContext) (e : NodeEvent) : Prop :=
  ∀ src orig msg vtime, ctx.handlerOf e = some (.tc src orig msg vtime) →
    ¬ ctx.EmptyFirstTc msg src orig

theorem RoutingFresh.quiet {ctx ctx' : OlsrContext} (h : ctx.RoutingFresh)
    (hquiet : Quiet ctx ctx') :
  ctx'.RoutingFresh
  := by
  rw [RoutingFresh, hquiet.routingTable, hquiet.ownIp, hquiet.neighborTree, hquiet.topologyTree]
  apply h

/-- A handler keeps the routing table fresh, unless it is the first TC of an originator and
advertises nobody. -/
theorem RoutingFresh.handler {ctx ctx' : OlsrContext} (h : ctx.RoutingFresh) (hsound : ctx.Sound)
    {handler : Handler} (hrun : handler.run ctx = some ctx')
    (htc : ∀ src orig msg vtime, handler = .tc src orig msg vtime →
      ¬ ctx.EmptyFirstTc msg src orig) :
  ctx'.RoutingFresh
  := by
  cases handler with
  | hello src orig msg vtime =>
      obtain ⟨ctx₁, -, hlocal, hsel⟩ :=
        processOlsrHello_inv hsound.consistent hsound.notDuplicated hrun
      apply hsel.fresh (hlocal.fresh h)
  | tc src orig msg vtime =>
      obtain ⟨topo, -, -, hfresh⟩ := processOlsrTc_inv hrun hsound.notDuplicated
      apply hfresh (htc src orig msg vtime rfl) h
  | link arg =>
      obtain ⟨-, hlocal⟩ := hsound.consistent.linkTimerExpire hsound.notDuplicated hrun
      apply hlocal.fresh h
  | neigh2 arg =>
      obtain ⟨neigh, -, -, hchange⟩ := neigh2ElemExpire_inv hsound.consistent hrun
      apply hchange.local.fresh h
  | topology arg =>
      obtain ⟨topo, -, -, hfresh⟩ := topologyInfoTimerExpireCb_inv hrun hsound.notDuplicated
      apply hfresh

/-- A step keeps the routing table fresh under the condition on TCs. -/
theorem RoutingFresh.step {ctx ctx' : OlsrContext} (h : ctx.RoutingFresh) (hsound : ctx.Sound)
    {e : NodeEvent} (hok : ctx.KeepsRouting e) (hstep : nodeStep ctx e = some ctx') :
  ctx'.RoutingFresh
  := by
  rcases nodeStep_inv hstep with hquiet | ⟨handler, ctx₁, ctx₂, hhandler, hbefore, hrun, hafter⟩
  · apply h.quiet hquiet
  · apply RoutingFresh.quiet _ hafter
    apply (h.quiet hbefore).handler (hsound.quiet hbefore) hrun
    rintro src orig msg vtime rfl
    rw [EmptyFirstTc, hbefore.neighborTree, hbefore.topologyTree]
    apply hok src orig msg vtime hhandler

theorem olsrStart_routingFresh {ownIp : InAddr} {now : Timespec} {ctx : OlsrContext}
    (h : olsrStart ownIp now = some ctx) :
  ctx.RoutingFresh
  := by
  have hempty : (initOlsrContext ownIp now).RoutingFresh := by rfl
  apply hempty.quiet (olsrStart_quiet h)

/-- In every run in which no originator that is advertised sends a first TC that advertises
nobody, calculating the routing table once more changes nothing. -/
theorem routingTable_up_to_date {ownIp : InAddr} {now : Timespec} {start ctx : OlsrContext}
    (hstart : olsrStart ownIp now = some start) (h : Reaches nodeStep KeepsRouting start ctx) :
  ctx.calcRoutingTable.routingTable = ctx.routingTable
  := by
  have hinv : ctx.Sound ∧ ctx.RoutingFresh := by
    apply h.invariant _ ⟨olsrStart_sound hstart, olsrStart_routingFresh hstart⟩
    rintro ctx e ctx' ⟨hsound, hfresh⟩ hok hstep
    exact ⟨hsound.step hstep, hfresh.step hsound hok hstep⟩
  rw [calcRoutingTable_routingTable, hinv.2]

/-- A TC that is handled advertises somebody. -/
def advertisesSome (ctx : OlsrContext) (e : NodeEvent) : Bool :=
  match ctx.handlerOf e with
  | some (.tc _ _ msg _) => msg.neigh ≠ []
  | _ => true

/-- The routing table is up to date after a HELLO and two TCs that each advertise a node. -/
theorem routingTable_up_to_date_three :
  ∃ start ctx, olsrStart (nodeIp 1) ⟨0, 0⟩ = some start ∧
    Reaches nodeStep KeepsRouting start ctx ∧
    ctx.routingTable.keys = [nodeIp 2, nodeIp 3, nodeIp 4] ∧
    ctx.calcRoutingTable.routingTable = ctx.routingTable
  := by
  have hcheck : ∀ ctx e, advertisesSome ctx e = true → KeepsRouting ctx e := by
    rintro ctx e h src orig msg vtime hhandler ⟨-, -, hnil, -⟩
    simp [advertisesSome, hhandler, hnil] at h
  have hrun : (olsrStart (nodeIp 1) ⟨0, 0⟩).bind (fun start =>
      ([NodeEvent.recv ⟨0, 0⟩ (nodeIp 2) (helloOfTwo []),
        .recv ⟨0, 0⟩ (nodeIp 2) (tcOf (nodeIp 2) 1 64 [nodeIp 3]),
        .recv ⟨0, 0⟩ (nodeIp 2) (tcOf (nodeIp 3) 1 63 [nodeIp 2, nodeIp 4])].foldlM
        (fun ctx e => if advertisesSome ctx e then nodeStep ctx e else none) start).map
        (fun ctx => ctx.routingTable.keys)) = some [nodeIp 2, nodeIp 3, nodeIp 4] := by
    decide +kernel
  obtain ⟨start, hstart, hrun⟩ := Option.bind_eq_some_iff.mp hrun
  obtain ⟨ctx, hctx, hkeys⟩ := Option.map_eq_some_iff.mp hrun
  have hreach := Reaches.of_checked hcheck hctx
  exact ⟨start, ctx, hstart, hreach, hkeys, routingTable_up_to_date hstart hreach⟩

/-- A first TC that advertises nobody leaves the routing table behind: node 2, which node 3
advertises, is given a topology entry, along which node 3 would be found. -/
theorem routingTable_behind :
  ¬ ∀ ownIp now start ctx, olsrStart ownIp now = some start →
    Reaches nodeStep (fun _ _ => True) start ctx →
    ctx.calcRoutingTable.routingTable = ctx.routingTable
  := by
  intro h
  have hrun : (olsrStart (nodeIp 1) ⟨0, 0⟩).bind (fun start =>
      ([NodeEvent.recv ⟨0, 0⟩ (nodeIp 2) (helloOfTwo []),
        .recv ⟨0, 0⟩ (nodeIp 2) (tcOf (nodeIp 3) 1 63 [nodeIp 2]),
        .recv ⟨0, 0⟩ (nodeIp 2) (tcOf (nodeIp 2) 1 64 [])].foldlM
        (fun ctx e => if true then nodeStep ctx e else none) start).map
        (fun ctx => (ctx.routingTable.keys, ctx.calcRoutingTable.routingTable.keys))) =
      some ([nodeIp 2], [nodeIp 2, nodeIp 3]) := by
    decide +kernel
  obtain ⟨start, hstart, hrun⟩ := Option.bind_eq_some_iff.mp hrun
  obtain ⟨ctx, hctx, hkeys⟩ := Option.map_eq_some_iff.mp hrun
  rw [h _ _ start ctx hstart (Reaches.of_checked (fun _ _ _ => trivial) hctx),
    Prod.mk.injEq] at hkeys
  apply absurd (hkeys.1.symm.trans hkeys.2)
  decide

/-! ### The relays -/

/-- The relays are symmetric neighbours, and every strict two-hop neighbour is a two-hop
neighbour of a relay. -/
structure MprCurrent (ctx : OlsrContext) : Prop where
  relay : ∀ a ∈ ctx.mprTree, IsSymNeigh ctx.neighborTree a
  cover : ∀ x, IsN2 ctx.ownIp ctx.neighborTree x →
    ∃ m ∈ ctx.mprTree, ∃ n, ctx.neighborTree.search m = some n ∧ x ∈ n.neighbor2Tree

/-- A relay that has a two-hop neighbour reaches it. -/
theorem MprCurrent.bridges {ctx : OlsrContext} (h : ctx.MprCurrent) {x : InAddr}
    (hx : IsN2 ctx.ownIp ctx.neighborTree x) :
  ∃ m ∈ ctx.mprTree, Bridges ctx.neighborTree m x
  := by
  obtain ⟨m, hm, n, hn, hxn⟩ := h.cover x hx
  obtain ⟨n', hn', hsym⟩ := h.relay m hm
  rw [hn, Option.some.injEq] at hn'
  subst hn'
  exact ⟨m, hm, n, hn, hsym, hxn⟩

/-- Relays that reach every strict two-hop neighbour are current. -/
theorem MprCurrent.of_bridges {ctx : OlsrContext}
    (hrelay : ∀ a ∈ ctx.mprTree, IsSymNeigh ctx.neighborTree a)
    (hcover : ∀ x, IsN2 ctx.ownIp ctx.neighborTree x →
      ∃ m ∈ ctx.mprTree, Bridges ctx.neighborTree m x) :
  ctx.MprCurrent
  := by
  refine ⟨hrelay, ?_⟩
  intro x hx
  obtain ⟨m, hm, n, hn, -, hxn⟩ := hcover x hx
  exact ⟨m, hm, n, hn, hxn⟩

/-- Another symmetric link leads to `addr` than that of `iface`. -/
def OtherSymLink (ctx : OlsrContext) (iface addr : InAddr) : Prop :=
  ∃ i link, i ≠ iface ∧ ctx.searchLink i addr = some link ∧ link.status = .symLink

/-- The expiry of the link of `iface` to `addr` does not touch the choice of relays: `addr` is
not symmetric, or stays so over another link, or it is no relay and will not be a two-hop
neighbour that no relay reaches. -/
def LinkExpirySafe (ctx : OlsrContext) (iface addr : InAddr) : Prop :=
  ¬ IsSymNeigh ctx.neighborTree addr ∨ ctx.OtherSymLink iface addr ∨
    addr ∉ ctx.mprTree ∧
      (addr = ctx.ownIp ∨ (∀ b, b ≠ addr → ¬ Bridges ctx.neighborTree b addr) ∨
        ∃ m ∈ ctx.mprTree, Bridges ctx.neighborTree m addr)

/-- The expiry of the two-hop neighbour `x` of `b` does not touch the choice of relays: `b` is
no relay, or `x` will not be a strict two-hop neighbour, or another relay reaches it. -/
def Neigh2ExpirySafe (ctx : OlsrContext) (b x : InAddr) : Prop :=
  b ∉ ctx.mprTree ∨ x = ctx.ownIp ∨ IsSymNeigh ctx.neighborTree x ∨
    (∀ b', b' ≠ b → ¬ Bridges ctx.neighborTree b' x) ∨
    ∃ m ∈ ctx.mprTree, m ≠ b ∧ Bridges ctx.neighborTree m x

/-- The event is no expiry that touches the choice of relays. -/
def KeepsRelays (ctx : OlsrContext) (e : NodeEvent) : Prop :=
  match ctx.handlerOf e with
  | some (.link arg) => ctx.LinkExpirySafe arg.key.1 arg.key.2
  | some (.neigh2 arg) => ctx.Neigh2ExpirySafe arg.key.1 arg.key.2
  | _ => True

/-- The relays depend on the own address, the symmetric neighbours and what they reach. -/
theorem MprCurrent.congr {ctx ctx' : OlsrContext} (h : ctx.MprCurrent)
    (hown : ctx'.ownIp = ctx.ownIp) (hmpr : ctx'.mprTree = ctx.mprTree)
    (hsym : ∀ a, IsSymNeigh ctx'.neighborTree a ↔ IsSymNeigh ctx.neighborTree a)
    (hbridges : ∀ b x, Bridges ctx'.neighborTree b x ↔ Bridges ctx.neighborTree b x) :
  ctx'.MprCurrent
  := by
  apply MprCurrent.of_bridges
  · intro a ha
    rw [hmpr] at ha
    rw [hsym]
    apply h.relay a ha
  · rintro x ⟨hx, hnsym, b, hb⟩
    rw [hown] at hx
    rw [hsym] at hnsym
    rw [hbridges] at hb
    obtain ⟨m, hm, hmx⟩ := h.bridges ⟨hx, hnsym, b, hb⟩
    use m
    rw [hmpr, hbridges]
    exact ⟨hm, hmx⟩

theorem MprCurrent.of_eq {ctx ctx' : OlsrContext} (h : ctx.MprCurrent)
    (hown : ctx'.ownIp = ctx.ownIp) (hmpr : ctx'.mprTree = ctx.mprTree)
    (hneighbors : ctx'.neighborTree = ctx.neighborTree) :
  ctx'.MprCurrent
  := by
  apply h.congr hown hmpr
  · intro a
    rw [hneighbors]
  · intro b x
    rw [hneighbors]

theorem MprCurrent.quiet {ctx ctx' : OlsrContext} (h : ctx.MprCurrent) (hquiet : Quiet ctx ctx') :
  ctx'.MprCurrent
  := h.of_eq hquiet.ownIp hquiet.mprTree hquiet.neighborTree

theorem MprCurrent.topologyChange {ctx ctx' : OlsrContext} {topo : OrdMap InAddr TopologyInfoElem}
    (h : ctx.MprCurrent) (hchange : TopologyChange ctx ctx' topo) :
  ctx'.MprCurrent
  := by
  obtain ⟨tq, nextId, hcore⟩ := hchange
  apply h.of_eq
  · have hown := congrArg OlsrContext.ownIp hcore
    apply hown
  · have hmprs := congrArg OlsrContext.mprTree hcore
    apply hmprs
  · have hneighbors := congrArg OlsrContext.neighborTree hcore
    apply hneighbors

/-- The choice of relays makes them current. -/
theorem MprSelected.mprCurrent {ctx ctx' : OlsrContext} (h : ctx.MprSelected ctx') :
  ctx'.MprCurrent
  := by
  apply MprCurrent.of_bridges
  · intro a ha
    rw [h.isSymNeigh]
    apply h.relay a ha
  · rintro x ⟨hx, hnsym, b, hb⟩
    rw [h.local.ownIp] at hx
    rw [h.isSymNeigh] at hnsym
    rw [h.bridges] at hb
    obtain ⟨m, hm, hmx⟩ := h.cover x ⟨hx, hnsym, b, hb⟩
    use m, hm
    rw [h.bridges]
    apply hmx

/-- The status of a neighbour after an update decides whether it is symmetric and what it
reaches; other neighbours stay as they are. -/
theorem updateNeighborStatus_neighbors {ctx ctx' : OlsrContext} {addr : InAddr}
    (h : ctx.updateNeighborStatus addr = some ctx') (hdup : NotDuplicated ctx.topologyTree) :
  ctx'.ownIp = ctx.ownIp ∧ ctx'.mprTree = ctx.mprTree ∧
    (∀ a, IsSymNeigh ctx'.neighborTree a ↔
      if a = addr then ctx.HasSymLink addr else IsSymNeigh ctx.neighborTree a) ∧
    (∀ b x, b ≠ addr → (Bridges ctx'.neighborTree b x ↔ Bridges ctx.neighborTree b x)) ∧
    (∀ x, Bridges ctx'.neighborTree addr x ↔ ctx.HasSymLink addr ∧
      ∃ n, ctx.neighborTree.search addr = some n ∧ x ∈ n.neighbor2Tree)
  := by
  obtain ⟨neigh, hneigh, hcore, hlocal⟩ := updateNeighborStatus_inv h hdup
  have hmpr : ctx'.mprTree = ctx.mprTree := by
    have hmpr := congrArg OlsrContext.mprTree hcore
    apply hmpr
  have hsearch : ∀ a, ctx'.neighborTree.search a =
      if a = addr then some (withStatus (ctx.updatedStatus addr neigh.status) neigh)
      else ctx.neighborTree.search a := by
    intro a
    have hneighbor := congrArg OlsrContext.neighborTree hcore
    apply Eq.trans (congrArg (fun t => OrdMap.search t a) hneighbor)
    rw [OrdMap.search_modify, hneigh]
    rfl
  have hstatus := updatedStatus_isSym ctx addr neigh.status
  refine ⟨hlocal.ownIp, hmpr, ?_, ?_, ?_⟩
  · intro a
    rw [IsSymNeigh, hsearch]
    split_ifs with ha
    · simp [withStatus, hstatus]
    · rfl
  · intro b x hb
    rw [Bridges, Bridges, hsearch, if_neg hb]
  · intro x
    rw [Bridges, hsearch, if_pos rfl]
    simp [withStatus, hstatus, hneigh]

/-- When the link of `iface` to `addr` has been removed, a symmetric link to `addr` is another
one. -/
theorem hasSymLink_removed {ctx ctx' : OlsrContext} {iface addr : InAddr}
    (hremoved : ∀ i, ctx'.searchLink i addr =
      if i = iface then none else ctx.searchLink i addr) :
  ctx'.HasSymLink addr ↔ ctx.OtherSymLink iface addr
  := by
  simp only [HasSymLink, OtherSymLink, hremoved]
  constructor
  · rintro ⟨i, l, hl, hs⟩
    split_ifs at hl with hi
    exact ⟨i, l, hi, hl, hs⟩
  · rintro ⟨i, l, hi, hl, hs⟩
    use i, l
    rw [if_neg hi]
    exact ⟨hl, hs⟩

/-- The expiry of a link that does not touch the choice of relays keeps them current. -/
theorem MprCurrent.linkTimerExpire {ctx ctx' : OlsrContext} {arg : Ptr (InAddr × InAddr)}
    (h : ctx.MprCurrent) (hsound : ctx.Sound) (hrun : ctx.linkTimerExpire arg = some ctx')
    (hsafe : ctx.LinkExpirySafe arg.key.1 arg.key.2) :
  ctx'.MprCurrent
  := by
  obtain ⟨⟨iface, addr⟩, id⟩ := arg
  obtain ⟨link, ctx₁, hlink, hlocal, hchange, hremoved, hupdate⟩ :=
    linkTimerExpire_inv hsound.consistent hrun
  obtain ⟨hown, hmpr, hsym, hother, hself⟩ := updateNeighborStatus_neighbors hupdate
    (by rw [hlocal.topologyTree]; apply hsound.notDuplicated)
  rw [hlocal.ownIp] at hown
  rw [hchange.mprTree] at hmpr
  simp only [hchange.neighborTree] at hsym hother hself
  -- The neighbour is symmetric afterwards if there is another symmetric link.
  have hafter := hasSymLink_removed hremoved
  have hbefore : IsSymNeigh ctx.neighborTree addr ↔ ctx.HasSymLink addr := by
    obtain ⟨hsearch, -⟩ := Option.filter_eq_some_iff.mp hlink
    apply hsound.consistent.isSymNeigh_iff hsearch
  by_cases hkept : IsSymNeigh ctx.neighborTree addr ↔ ctx₁.HasSymLink addr
  · -- The neighbour stays symmetric, or was not.
    apply h.congr hown hmpr
    · intro a
      rw [hsym]
      split_ifs with ha
      · rw [ha, hkept]
      · rfl
    · intro b x
      by_cases hb : b = addr
      · subst hb
        rw [hself, ← hkept]
        constructor
        · rintro ⟨⟨n, hn, hs⟩, n', hn', hx⟩
          rw [hn, Option.some.injEq] at hn'
          subst hn'
          exact ⟨n, hn, hs, hx⟩
        · rintro ⟨n, hn, hs, hx⟩
          exact ⟨⟨n, hn, hs⟩, n, hn, hx⟩
      · apply hother b x hb
  · have hlost : ¬ ctx₁.HasSymLink addr := by
      intro hs
      apply hkept
      rw [hbefore]
      constructor
      · intro _
        apply hs
      · intro _
        obtain ⟨i, l, -, hl, hstatus⟩ := hafter.mp hs
        exact ⟨i, l, hl, hstatus⟩
    have hwas : IsSymNeigh ctx.neighborTree addr := by
      by_contra hnot
      apply hkept
      simp [hnot, hlost]
    rcases hsafe with hnot | hlink' | ⟨hnotmpr, hcovered⟩
    · apply absurd hwas hnot
    · apply absurd (hafter.mpr hlink') hlost
    · apply MprCurrent.of_bridges
      · intro a ha
        rw [hmpr] at ha
        have hne : a ≠ addr := by
          rintro rfl
          apply hnotmpr ha
        rw [hsym, if_neg hne]
        apply h.relay a ha
      · rintro x ⟨hx, hnsym, b, hb⟩
        rw [hown] at hx
        -- What reaches `x` now is another neighbour, which reached it before.
        have hbne : b ≠ addr := by
          rintro rfl
          apply hlost ((hself x).mp hb).1
        rw [hother b x hbne] at hb
        have hcover : ∃ m ∈ ctx.mprTree, Bridges ctx.neighborTree m x := by
          by_cases hxa : x = addr
          · subst hxa
            rcases hcovered with heq | hnone | hm
            · apply absurd heq hx
            · apply absurd hb (hnone b hbne)
            · apply hm
          · rw [hsym, if_neg hxa] at hnsym
            apply h.bridges ⟨hx, hnsym, b, hb⟩
        obtain ⟨m, hm, hmx⟩ := hcover
        have hne : m ≠ addr := by
          rintro rfl
          apply hnotmpr hm
        use m
        rw [hmpr, hother m x hne]
        exact ⟨hm, hmx⟩

/-- The expiry of a two-hop neighbour that does not touch the choice of relays keeps them
current. -/
theorem MprCurrent.neigh2ElemExpire {ctx ctx' : OlsrContext} {arg : Ptr (InAddr × InAddr)}
    (h : ctx.MprCurrent) (hsound : ctx.Sound) (hrun : ctx.neigh2ElemExpire arg = some ctx')
    (hsafe : ctx.Neigh2ExpirySafe arg.key.1 arg.key.2) :
  ctx'.MprCurrent
  := by
  obtain ⟨⟨b, x⟩, id⟩ := arg
  obtain ⟨neigh, hneigh, -, hchange⟩ := neigh2ElemExpire_inv hsound.consistent hrun
  obtain ⟨tq, nextId, rfl⟩ := hchange.eq
  have hsym : ∀ a, IsSymNeigh (ctx.neighborTree.modify b (fun n =>
      { n with neighbor2Tree := neigh.neighbor2Tree.erase x })) a ↔
      IsSymNeigh ctx.neighborTree a := isSymNeigh_modify (fun _ => rfl)
  have hbridges : ∀ c y, Bridges (ctx.neighborTree.modify b (fun n =>
      { n with neighbor2Tree := neigh.neighbor2Tree.erase x })) c y ↔
      Bridges ctx.neighborTree c y ∧ ¬ (c = b ∧ y = x) := by
    intro c y
    rw [Bridges, Bridges, OrdMap.search_modify]
    by_cases hc : c = b
    · subst hc
      simp only [if_true, hneigh, Option.map_some, Option.some.injEq, exists_eq_left',
        OrdMap.mem_erase, true_and]
      tauto
    · simp [hc]
  apply MprCurrent.of_bridges
  · intro a ha
    rw [hsym]
    apply h.relay a ha
  · rintro y ⟨hy, hnsym, c, hc⟩
    rw [hsym] at hnsym
    rw [hbridges] at hc
    obtain ⟨m, hm, hmy⟩ := h.bridges ⟨hy, hnsym, c, hc.1⟩
    by_cases hlost : m = b ∧ y = x
    · obtain ⟨rfl, rfl⟩ := hlost
      rcases hsafe with hnot | hown | hs | hnone | ⟨m', hm', hne, hm'y⟩
      · apply absurd hm hnot
      · apply absurd hown hy
      · apply absurd hs hnsym
      · apply absurd hc.1 (hnone c (fun heq => hc.2 ⟨heq, rfl⟩))
      · use m', hm'
        rw [hbridges]
        exact ⟨hm'y, fun heq => hne heq.1⟩
    · use m, hm
      rw [hbridges]
      exact ⟨hmy, hlost⟩

/-- A step that is no expiry which touches the choice of relays keeps them current. -/
theorem MprCurrent.step {ctx ctx' : OlsrContext} (h : ctx.MprCurrent) (hsound : ctx.Sound)
    {e : NodeEvent} (hok : ctx.KeepsRelays e) (hstep : nodeStep ctx e = some ctx') :
  ctx'.MprCurrent
  := by
  rcases nodeStep_inv hstep with hquiet | ⟨handler, ctx₁, ctx₂, hhandler, hbefore, hrun, hafter⟩
  · apply h.quiet hquiet
  · apply MprCurrent.quiet _ hafter
    rw [KeepsRelays, hhandler] at hok
    have h₁ := h.quiet hbefore
    have hsound₁ := hsound.quiet hbefore
    have hlink : ctx₁.searchLink = ctx.searchLink := by
      funext i a
      rw [searchLink, searchLink, hbefore.localIfaceTree]
    cases handler with
    | hello src orig msg vtime =>
        obtain ⟨ctx₃, -, -, hsel⟩ :=
          processOlsrHello_inv hsound₁.consistent hsound₁.notDuplicated hrun
        apply hsel.mprCurrent
    | tc src orig msg vtime =>
        obtain ⟨topo, hchange, -⟩ := processOlsrTc_inv hrun hsound₁.notDuplicated
        apply h₁.topologyChange hchange
    | link arg =>
        apply h₁.linkTimerExpire hsound₁ hrun
        rw [LinkExpirySafe, OtherSymLink, hlink, hbefore.neighborTree, hbefore.mprTree,
          hbefore.ownIp]
        apply hok
    | neigh2 arg =>
        apply h₁.neigh2ElemExpire hsound₁ hrun
        rw [Neigh2ExpirySafe, hbefore.neighborTree, hbefore.mprTree, hbefore.ownIp]
        apply hok
    | topology arg =>
        obtain ⟨topo, hchange, -⟩ := topologyInfoTimerExpireCb_inv hrun hsound₁.notDuplicated
        apply h₁.topologyChange hchange

theorem olsrStart_mprCurrent {ownIp : InAddr} {now : Timespec} {ctx : OlsrContext}
    (h : olsrStart ownIp now = some ctx) :
  ctx.MprCurrent
  := by
  apply MprCurrent.quiet _ (olsrStart_quiet h)
  apply MprCurrent.of_bridges
  · intro a ha
    apply absurd ha (OrdMap.not_mem_empty a)
  · rintro x ⟨-, -, b, n, hn, -⟩
    clear h
    contradiction

/-- In every run in which no link or two-hop neighbour expires that the choice of relays rests
on, the relays are symmetric neighbours and reach all strict two-hop neighbours. -/
theorem mprTree_up_to_date {ownIp : InAddr} {now : Timespec} {start ctx : OlsrContext}
    (hstart : olsrStart ownIp now = some start) (h : Reaches nodeStep KeepsRelays start ctx) :
  ctx.MprCurrent
  := by
  have hinv : ctx.Sound ∧ ctx.MprCurrent := by
    apply h.invariant _ ⟨olsrStart_sound hstart, olsrStart_mprCurrent hstart⟩
    rintro ctx e ctx' ⟨hsound, hcurrent⟩ hok hstep
    exact ⟨hsound.step hstep, hcurrent.step hsound hok hstep⟩
  apply hinv.2

/-- After a HELLO of node 2 that lists node 3, and a round of the timer queue, node 2 is the
relay. -/
theorem mprTree_up_to_date_two :
  ∃ start ctx, olsrStart (nodeIp 1) ⟨0, 0⟩ = some start ∧
    Reaches nodeStep KeepsRelays start ctx ∧
    ctx.mprTree.keys = [nodeIp 2] ∧ ctx.MprCurrent
  := by
  let check : OlsrContext → NodeEvent → Bool := fun ctx e =>
    match ctx.handlerOf e with
    | some (.link _) => false
    | some (.neigh2 _) => false
    | _ => true
  have hcheck : ∀ ctx e, check ctx e = true → KeepsRelays ctx e := by
    intro ctx e h
    rw [KeepsRelays]
    cases hhandler : ctx.handlerOf e with
    | none => trivial
    | some handler =>
        cases handler with
        | link arg => simp [check, hhandler] at h
        | neigh2 arg => simp [check, hhandler] at h
        | hello src orig msg vtime => trivial
        | tc src orig msg vtime => trivial
        | topology arg => trivial
  have hrun : (olsrStart (nodeIp 1) ⟨0, 0⟩).bind (fun start =>
      ([NodeEvent.recv ⟨0, 0⟩ (nodeIp 2) (helloOfTwo [nodeIp 3]),
        .work ⟨0, 60000000⟩ ⟨0, 60000000⟩ 0].foldlM
        (fun ctx e => if check ctx e then nodeStep ctx e else none) start).map
        (fun ctx => ctx.mprTree.keys)) = some [nodeIp 2] := by
    decide +kernel
  obtain ⟨start, hstart, hrun⟩ := Option.bind_eq_some_iff.mp hrun
  obtain ⟨ctx, hctx, hkeys⟩ := Option.map_eq_some_iff.mp hrun
  have hreach := Reaches.of_checked hcheck hctx
  exact ⟨start, ctx, hstart, hreach, hkeys, mprTree_up_to_date hstart hreach⟩

/-- When the link to the relay expires, it stays a relay without being symmetric. -/
theorem mprTree_behind :
  ¬ ∀ ownIp now start ctx, olsrStart ownIp now = some start →
    Reaches nodeStep (fun _ _ => True) start ctx → ctx.MprCurrent
  := by
  intro h
  have hrun : (olsrStart (nodeIp 1) ⟨0, 0⟩).bind (fun start =>
      ([NodeEvent.recv ⟨0, 0⟩ (nodeIp 2) (helloOfTwo [nodeIp 3]),
        .work ⟨0, 70000000⟩ ⟨0, 70000000⟩ 0,
        .work ⟨0, 70000000⟩ ⟨0, 70000000⟩ 0].foldlM
        (fun ctx e => if true then nodeStep ctx e else none) start).map
        (fun ctx => (ctx.mprTree.keys,
          (ctx.neighborTree.search (nodeIp 2)).map NeighborElem.status))) =
      some ([nodeIp 2], some .notNeigh) := by
    decide +kernel
  obtain ⟨start, hstart, hrun⟩ := Option.bind_eq_some_iff.mp hrun
  obtain ⟨ctx, hctx, hend⟩ := Option.map_eq_some_iff.mp hrun
  obtain ⟨hkeys, hstatus⟩ := Prod.mk.inj hend
  have hcurrent := h _ _ start ctx hstart (Reaches.of_checked (fun _ _ _ => trivial) hctx)
  obtain ⟨n, hn, hsym⟩ := hcurrent.relay (nodeIp 2) (by
    rw [← OrdMap.mem_keys, hkeys]
    apply List.mem_singleton_self)
  rw [hn, Option.map_some, Option.some.injEq] at hstatus
  rw [hstatus] at hsym
  apply absurd hsym
  decide

end OlsrContext
