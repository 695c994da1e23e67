import SyNetsim.Olsr.Confirmed
import SyNetsim.Olsr.UpToDate

/-!
# How far a routing table can be behind

The routing table of a node is not always up to date (`OlsrContext.routingTable_behind`). What does
it leave out? Where a handler changes links, neighbours or relays, it calculates the table anew or
changes nothing that the table is calculated from (`Recalculates`). A TC that is taken over without
calculation may have made an entry that advertises nobody, and does nothing else to the edges of
the topology.

So in whatever state a node is, its table is the one that would be calculated now, if some entries
of the topology that advertise nobody were not there (`OlsrContext.nearlyFresh_of_reaches`).
-/

namespace OlsrContext

variable {ctx ctx' ctx'' : OlsrContext}

/-! ### Changes around a node -/

/-- From `ctx` to `ctx'` the topology has not changed, and either the routing table has been
calculated anew, or neither it nor the symmetric neighbours have changed. -/
structure Recalculates (ctx ctx' : OlsrContext) : Prop where
  ownIp : ctx'.ownIp = ctx.ownIp
  topologyTree : ctx'.topologyTree = ctx.topologyTree
  table : ctx'.RoutingFresh ∨ ctx'.routingTable = ctx.routingTable ∧
    ∀ a, IsSymNeigh ctx'.neighborTree a ↔ IsSymNeigh ctx.neighborTree a

namespace Recalculates

theorem trans (h : Recalculates ctx ctx') (h' : Recalculates ctx' ctx'') :
  Recalculates ctx ctx''
  where
  ownIp := h'.ownIp.trans h.ownIp
  topologyTree := h'.topologyTree.trans h.topologyTree
  table := by
    rcases h'.table with hfresh | ⟨htable', hsym'⟩
    · left
      apply hfresh
    · rcases h.table with hfresh | ⟨htable, hsym⟩
      · left
        apply hfresh.congr h'.ownIp htable' hsym' h'.topologyTree
      · right
        refine ⟨htable'.trans htable, ?_⟩
        intro a
        rw [hsym', hsym]

/-- Other parts of the node may change. -/
theorem of_eq (hown : ctx'.ownIp = ctx.ownIp) (htopology : ctx'.topologyTree = ctx.topologyTree)
    (htable : ctx'.routingTable = ctx.routingTable)
    (hneighbors : ctx'.neighborTree = ctx.neighborTree) :
  Recalculates ctx ctx'
  := by
  refine ⟨hown, htopology, Or.inr ⟨htable, ?_⟩⟩
  intro a
  rw [hneighbors]

theorem refl (ctx : OlsrContext) :
  Recalculates ctx ctx
  := of_eq rfl rfl rfl rfl

/-- Setting the status of a neighbour calculates the table anew, unless the neighbour has this
status. -/
theorem setNeighborStatus {addr : InAddr} {status : NeighborStatus}
    (hdup : NotDuplicated ctx.topologyTree)
    (hstep : ctx.setNeighborStatus addr status = some ctx') :
  Recalculates ctx ctx'
  := by
  simp only [OlsrContext.setNeighborStatus, Option.bind_eq_bind, Option.bind_eq_some_iff,
    Option.pure_def] at hstep
  obtain ⟨neighbor, -, hstep⟩ := hstep
  split_ifs at hstep
  · obtain rfl := Option.some.inj hstep
    have hcore := calcRoutingTable_core
      { ctx with neighborTree := ctx.neighborTree.modify addr (withStatus status) } hdup
    have hown := congrArg OlsrContext.ownIp hcore
    have htopology := congrArg OlsrContext.topologyTree hcore
    refine ⟨hown, htopology, Or.inl ?_⟩
    exact calcRoutingTable_fresh
      { ctx with neighborTree := ctx.neighborTree.modify addr (withStatus status) } hdup
  · obtain rfl := Option.some.inj hstep
    apply refl

theorem updateNeighborStatus {addr : InAddr} (hdup : NotDuplicated ctx.topologyTree)
    (hstep : ctx.updateNeighborStatus addr = some ctx') :
  Recalculates ctx ctx'
  := by
  simp only [OlsrContext.updateNeighborStatus, Option.bind_eq_bind, Option.bind_eq_some_iff,
    Option.pure_def] at hstep
  obtain ⟨neigh, -, hstep⟩ := hstep
  split_ifs at hstep
  · apply setNeighborStatus hdup hstep
  · obtain rfl := Option.some.inj hstep
    apply refl
  · apply setNeighborStatus hdup hstep

/-! ### The parts of `process_olsr_hello` -/

theorem findNeighbor (ctx : OlsrContext) (src : InAddr) (willingness : BitVec 8) :
  Recalculates ctx (ctx.findNeighbor src willingness)
  := by
  refine ⟨rfl, rfl, Or.inr ⟨rfl, ?_⟩⟩
  intro a
  simp only [OlsrContext.findNeighbor, IsSymNeigh, OrdMap.search_insert]
  split_ifs with ha
  · subst ha
    cases ctx.neighborTree.search a with
    | none => simp [makeNeighborElem]
    | some n => simp
  · rfl

theorem touchLink {src : InAddr} {vtime : ℕ} (hstep : ctx.touchLink src vtime = some ctx') :
  Recalculates ctx ctx'
  := by
  obtain ⟨tq, nextId, ifaces, rfl⟩ := touchLink_inv hstep
  exact of_eq rfl rfl rfl rfl

theorem populateLinkset {src orig : InAddr} {helloInfo : List HelloInfo} {vtime : ℕ}
    (hdup : NotDuplicated ctx.topologyTree)
    (hstep : ctx.populateLinkset src orig helloInfo vtime = some ctx') :
  Recalculates ctx ctx'
  := by
  rw [OlsrContext.populateLinkset] at hstep
  by_cases hcode : linkcodeToMe ctx.ownIp helloInfo = statusUnavailable
  · rw [if_pos hcode] at hstep
    obtain rfl := Option.some.inj hstep
    apply refl
  · rw [if_neg hcode] at hstep
    obtain ⟨ctx₁, hlinkstat, hneighstat⟩ := Option.bind_eq_some_iff.mp hstep
    have h₁ : Recalculates ctx ctx₁ := by
      rw [populateLinkStatus] at hlinkstat
      split_ifs at hlinkstat
      · obtain ⟨tq, ifaces, rfl⟩ := setSymLink_inv hlinkstat
        exact of_eq rfl rfl rfl rfl
      · obtain ⟨tq, link, -, hupdate⟩ := setLostLink_inv hlinkstat
        have hset : Recalculates ctx
            (OlsrContext.setLink { ctx with timerqueue := tq } ctx.ownIp src link) :=
          of_eq rfl rfl rfl rfl
        apply hset.trans (updateNeighborStatus hdup hupdate)
      · obtain rfl := Option.some.inj hlinkstat
        apply refl
    split_ifs at hneighstat
    · obtain ⟨tq, nextId, elems, selectors, rfl⟩ := populateMprSelector_inv hneighstat
      exact h₁.trans (of_eq rfl rfl rfl rfl)
    · obtain rfl := Option.some.inj hneighstat
      apply h₁

theorem neigh2Change {addr : InAddr} {tree : OrdMap InAddr Neighbor2Elem}
    (hchange : Neigh2Change ctx ctx' addr tree) :
  Recalculates ctx ctx'
  := by
  obtain ⟨tq, nextId, rfl⟩ := hchange.eq
  refine ⟨rfl, rfl, Or.inr ⟨rfl, ?_⟩⟩
  apply isSymNeigh_modify
  intro n
  rfl

theorem populateNeigh2set {addr : InAddr} {helloInfo : List HelloInfo} {vtime : ℕ}
    (hstep : ctx.populateNeigh2set addr helloInfo vtime = some ctx') :
  Recalculates ctx ctx'
  := by
  rw [OlsrContext.populateNeigh2set] at hstep
  generalize helloInfo.flatMap HelloInfo.neighAddr = l at hstep
  induction l generalizing ctx with
  | nil =>
      obtain rfl := Option.some.inj hstep
      apply refl
  | cons n2addr l ih =>
      rw [List.foldlM_cons] at hstep
      obtain ⟨ctx₁, hone, hrest⟩ := Option.bind_eq_some_iff.mp hstep
      split_ifs at hone
      · obtain rfl := Option.some.inj hone
        apply ih hrest
      · obtain ⟨neigh, tree, -, hchange, -⟩ := updateNeigh2Tuple_inv hone
        apply (neigh2Change hchange).trans (ih hrest)

/-! ### The choice of relays -/

theorem cleanN1Set {n1Set : OrdMap InAddr Unit} (hdup : NotDuplicated ctx.topologyTree)
    (hstep : ctx.cleanN1Set n1Set = some ctx') :
  Recalculates ctx ctx'
  := by
  rw [OlsrContext.cleanN1Set] at hstep
  generalize n1Set.keys = l at hstep
  induction l generalizing ctx with
  | nil =>
      obtain rfl := Option.some.inj hstep
      apply refl
  | cons b l ih =>
      rw [List.foldlM_cons] at hstep
      obtain ⟨ctx₁, hone, hrest⟩ := Option.bind_eq_some_iff.mp hstep
      have h₁ := setNeighborStatus hdup hone
      apply h₁.trans (ih _ hrest)
      rwa [h₁.topologyTree]

theorem addUniqueBridgeToMpr {n1Set n1Set' : OrdMap InAddr Unit}
    {n2Set n2Set' : OrdMap InAddr (OrdMap InAddr Unit)} (hdup : NotDuplicated ctx.topologyTree)
    (hstep : ctx.addUniqueBridgeToMpr n1Set n2Set = some (ctx', n1Set', n2Set')) :
  Recalculates ctx ctx'
  := by
  rw [OlsrContext.addUniqueBridgeToMpr] at hstep
  cases hfirst : (selectedMprTree n2Set).first with
  | none =>
      rw [hfirst] at hstep
      obtain ⟨rfl, -⟩ := Prod.mk.inj (Option.some.inj hstep)
      apply refl
  | some mpr =>
      simp only [hfirst, Option.bind_eq_bind, Option.bind_eq_some_iff, Option.pure_def,
        Option.some.injEq, Prod.mk.injEq] at hstep
      obtain ⟨mprNeigh, -, ctx₁, hset, rfl, -, -⟩ := hstep
      have hchosen : Recalculates ctx { ctx with mprTree := ctx.mprTree.insert mpr.1 () } :=
        of_eq rfl rfl rfl rfl
      exact hchosen.trans (setNeighborStatus hdup hset)

theorem populateMprSetByReachability {fuel : ℕ} {n1Set n1Set' : OrdMap InAddr Unit}
    {n2Set n2Set' : OrdMap InAddr (OrdMap InAddr Unit)} (hdup : NotDuplicated ctx.topologyTree)
    (hstep : OlsrContext.populateMprSetByReachability fuel ctx n1Set n2Set =
      some (ctx', n1Set', n2Set')) :
  Recalculates ctx ctx'
  := by
  induction fuel generalizing ctx n1Set n2Set with
  | zero =>
      obtain ⟨rfl, -⟩ := Prod.mk.inj (Option.some.inj hstep)
      apply refl
  | succ fuel ih =>
      rw [OlsrContext.populateMprSetByReachability] at hstep
      split_ifs at hstep
      · obtain ⟨rfl, -⟩ := Prod.mk.inj (Option.some.inj hstep)
        apply refl
      · obtain ⟨best, -, hstep⟩ := Option.bind_eq_some_iff.mp hstep
        cases haddr : best.2 with
        | none =>
            rw [haddr] at hstep
            obtain ⟨rfl, -⟩ := Prod.mk.inj (Option.some.inj hstep)
            apply refl
        | some addr =>
            simp only [haddr, Option.bind_eq_bind, Option.bind_eq_some_iff] at hstep
            obtain ⟨ctx₁, hset, mprNeigh, -, hrest⟩ := hstep
            have h₁ := setNeighborStatus hdup hset
            have h₂ : Recalculates ctx { ctx₁ with mprTree := ctx₁.mprTree.insert addr () } :=
              h₁.trans (of_eq rfl rfl rfl rfl)
            apply h₂.trans (ih _ hrest)
            rw [h₁.topologyTree]
            apply hdup

theorem populateMprSet (hdup : NotDuplicated ctx.topologyTree)
    (hstep : ctx.populateMprSet = some ctx') :
  Recalculates ctx ctx'
  := by
  simp only [OlsrContext.populateMprSet, Option.bind_eq_bind, Option.bind_eq_some_iff] at hstep
  obtain ⟨⟨ctx₁, n1Set₁, n2Set₁⟩, hunique, ⟨ctx₂, n1Set₂, n2Set₂⟩, hreach, hclean⟩ := hstep
  have hempty : Recalculates ctx { ctx with mprTree := .empty } := of_eq rfl rfl rfl rfl
  have h₁ : Recalculates ctx ctx₁ := hempty.trans (addUniqueBridgeToMpr hdup hunique)
  have hdup₁ : NotDuplicated ctx₁.topologyTree := by rwa [h₁.topologyTree]
  have h₂ := populateMprSetByReachability hdup₁ hreach
  have hdup₂ : NotDuplicated ctx₂.topologyTree := by rwa [h₂.topologyTree]
  apply (h₁.trans h₂).trans
  split_ifs at hclean
  · have h₃ : Recalculates ctx₂ { ctx₂ with ansn := ctx₂.ansn + 1 } := of_eq rfl rfl rfl rfl
    apply h₃.trans (cleanN1Set hdup₂ hclean)
  · apply cleanN1Set hdup₂ hclean

/-! ### Handlers -/

/-- The handling of a HELLO. -/
theorem processOlsrHello {src orig : InAddr} {hello : HelloMsg} {vtime : ℕ}
    (hdup : NotDuplicated ctx.topologyTree)
    (hstep : ctx.processOlsrHello src orig hello vtime = some ctx') :
  Recalculates ctx ctx'
  := by
  simp only [OlsrContext.processOlsrHello, Option.bind_eq_bind, Option.bind_eq_some_iff] at hstep
  obtain ⟨ctx₁, htouch, ctx₂, hlinkset, ctx₃, hupdate, neigh, -, hstep⟩ := hstep
  have h₁ := (findNeighbor ctx src hello.willingness).trans (touchLink htouch)
  have h₂ := h₁.trans (populateLinkset (by rwa [h₁.topologyTree]) hlinkset)
  have h₃ := h₂.trans (updateNeighborStatus (by rwa [h₂.topologyTree]) hupdate)
  split_ifs at hstep
  · obtain ⟨ctx₄, hneigh2, hmpr⟩ := Option.bind_eq_some_iff.mp hstep
    have h₄ := h₃.trans (populateNeigh2set hneigh2)
    apply h₄.trans (populateMprSet (by rwa [h₄.topologyTree]) hmpr)
  · apply h₃.trans (populateMprSet (by rwa [h₃.topologyTree]) hstep)

/-- The expiry of a link. -/
theorem linkTimerExpire {arg : Ptr (InAddr × InAddr)} (hdup : NotDuplicated ctx.topologyTree)
    (hstep : ctx.linkTimerExpire arg = some ctx') :
  Recalculates ctx ctx'
  := by
  simp only [OlsrContext.linkTimerExpire, updateNeighborStateByLinkChange, Option.bind_eq_bind,
    Option.bind_eq_some_iff] at hstep
  obtain ⟨link, -, tq₁, -, tq₂, -, tq, -, -, -, hupdate⟩ := hstep
  have herased : Recalculates ctx
      (OlsrContext.eraseLink { ctx with timerqueue := tq } link.localIfaceAddr arg.key.2) :=
    of_eq rfl rfl rfl rfl
  exact herased.trans (updateNeighborStatus hdup hupdate)

end Recalculates

/-! ### Entries that are left out -/

/-- `topo` is `topo'` without some entries, as far as the edges go: those left out advertise
nobody. -/
structure Omits (topo topo' : OrdMap InAddr TopologyInfoElem) : Prop where
  mem : ∀ d ∈ topo, d ∈ topo'
  advertises : ∀ d a, Advertises topo d a ↔ Advertises topo' d a

theorem Omits.refl (topo : OrdMap InAddr TopologyInfoElem) :
  Omits topo topo
  := ⟨fun _ hd => hd, fun _ _ => Iff.rfl⟩

/-- The routing table is the one that would be calculated now, if some entries of the topology that
advertise nobody were not there. -/
def NearlyFresh (ctx : OlsrContext) : Prop :=
  ∃ topo, Omits topo ctx.topologyTree ∧
    ctx.routingTable = spfTable ctx.ownIp ctx.neighborTree topo

theorem RoutingFresh.nearlyFresh (h : ctx.RoutingFresh) :
  ctx.NearlyFresh
  := ⟨ctx.topologyTree, Omits.refl _, h⟩

theorem NearlyFresh.recalculates (h : ctx.NearlyFresh) (hchange : Recalculates ctx ctx') :
  ctx'.NearlyFresh
  := by
  rcases hchange.table with hfresh | ⟨htable, hsym⟩
  · apply hfresh.nearlyFresh
  · obtain ⟨topo, homits, heq⟩ := h
    refine ⟨topo, by rwa [hchange.topologyTree], ?_⟩
    rw [htable, heq, hchange.ownIp]
    apply spfTable_congr
    · intro a
      rw [hsym]
    · intro d a
      rfl

/-- The topology may change by entries that advertise nobody. -/
theorem NearlyFresh.topologyChange {topo : OrdMap InAddr TopologyInfoElem} (h : ctx.NearlyFresh)
    (hown : ctx'.ownIp = ctx.ownIp) (hneighbors : ctx'.neighborTree = ctx.neighborTree)
    (htopology : ctx'.topologyTree = topo) (htable : ctx'.routingTable = ctx.routingTable)
    (hmem : ∀ d ∈ ctx.topologyTree, d ∈ topo)
    (hadv : ∀ d a, Advertises topo d a ↔ Advertises ctx.topologyTree d a) :
  ctx'.NearlyFresh
  := by
  obtain ⟨topo', homits, heq⟩ := h
  refine ⟨topo', ⟨?_, ?_⟩, ?_⟩
  · intro d hd
    rw [htopology]
    apply hmem d (homits.mem d hd)
  · intro d a
    rw [homits.advertises, htopology, hadv]
  · rw [htable, heq, hown, hneighbors]

/-- A TC that is taken over without a new calculation changes no edge of the topology. -/
theorem NearlyFresh.processOlsrTc {msg : TcMsg} {src orig : InAddr} {vtime : ℕ}
    (h : ctx.NearlyFresh) (hdup : NotDuplicated ctx.topologyTree)
    (hstep : ctx.processOlsrTc msg src orig vtime = some ctx') :
  ctx'.NearlyFresh
  := by
  rw [OlsrContext.processOlsrTc] at hstep
  cases hneigh : ctx.neighborTree.search src with
  | none =>
      rw [hneigh] at hstep
      obtain rfl := Option.some.inj hstep
      apply h
  | some neigh =>
      simp only [hneigh] at hstep
      split_ifs at hstep
      · simp only [Option.bind_eq_bind, Option.bind_eq_some_iff] at hstep
        obtain ⟨ctx₁, hfind, telem, htelem, hstep⟩ := hstep
        obtain ⟨tq₁, nextId₁, topo₁, rfl, hdup₁, hadv₁, hentry⟩ :=
          findTopology_inv hfind htelem hdup
        have hmem₁ : ∀ d ∈ ctx.topologyTree, d ∈ topo₁ := by
          intro d hd
          rcases hentry with rfl | ⟨-, -, -, hmem⟩
          · apply hd
          · apply (hmem d).mpr (Or.inr hd)
        have h₁ : NearlyFresh { ctx with
            timerqueue := tq₁, nextId := nextId₁, topologyTree := topo₁ } :=
          h.topologyChange rfl rfl rfl rfl hmem₁ hadv₁
        split_ifs at hstep
        · obtain rfl := Option.some.inj hstep
          apply h₁
        · simp only [acceptTc, Option.bind_eq_bind, Option.bind_eq_some_iff, Option.pure_def,
            Option.some.injEq] at hstep
          obtain ⟨tq, -, hstep⟩ := hstep
          split_ifs at hstep with hchanged
          · rw [← hstep]
            apply RoutingFresh.nearlyFresh
            apply calcRoutingTable_fresh
            apply notDuplicated_acceptedTopology hdup₁ htelem msg
          · rw [← hstep]
            obtain ⟨hsame, -⟩ := updateAdvertised_unchanged (Bool.not_eq_true _ ▸ hchanged)
            refine h₁.topologyChange rfl rfl rfl rfl ?_ ?_
            · intro d hd
              apply OrdMap.mem_modify.mpr hd
            · intro d a
              rw [Advertises, Advertises, OrdMap.search_modify]
              split_ifs with hd
              · simp only [hd, htelem, Option.map_some, Option.some.injEq, exists_eq_left', hsame]
              · rfl
      · obtain rfl := Option.some.inj hstep
        apply h

theorem NearlyFresh.handler {handler : Handler} (h : ctx.NearlyFresh) (hsound : ctx.Sound)
    (hrun : handler.run ctx = some ctx') :
  ctx'.NearlyFresh
  := by
  have hdup := hsound.notDuplicated
  cases handler with
  | hello src orig hello vtime =>
      apply h.recalculates (Recalculates.processOlsrHello hdup hrun)
  | tc src orig tc vtime => apply h.processOlsrTc hdup hrun
  | link arg => apply h.recalculates (Recalculates.linkTimerExpire hdup hrun)
  | neigh2 arg =>
      obtain ⟨neigh, -, -, hchange⟩ := neigh2ElemExpire_inv hsound.consistent hrun
      apply h.recalculates (Recalculates.neigh2Change hchange)
  | topology arg =>
      obtain ⟨topo, -, -, hfresh⟩ := topologyInfoTimerExpireCb_inv hrun hdup
      apply RoutingFresh.nearlyFresh hfresh

theorem NearlyFresh.quiet (h : ctx.NearlyFresh) (hquiet : Quiet ctx ctx') :
  ctx'.NearlyFresh
  := h.recalculates (Recalculates.of_eq hquiet.ownIp hquiet.topologyTree hquiet.routingTable
    hquiet.neighborTree)

theorem NearlyFresh.step {e : NodeEvent} (h : ctx.NearlyFresh) (hsound : ctx.Sound)
    (hstep : nodeStep ctx e = some ctx') :
  ctx'.NearlyFresh
  := by
  rcases nodeStep_inv hstep with hquiet | ⟨handler, ctx₁, ctx₂, -, hbefore, hrun, hafter⟩
  · apply h.quiet hquiet
  · apply NearlyFresh.quiet _ hafter
    apply (h.quiet hbefore).handler (hsound.quiet hbefore) hrun

theorem olsrStart_nearlyFresh {ownIp : InAddr} {now : Timespec}
    (h : olsrStart ownIp now = some ctx) :
  ctx.NearlyFresh
  := (olsrStart_routingFresh h).nearlyFresh

/-- In every state that a node reaches, whatever it receives and whatever expires, its routing
table is the one that would be calculated now, if some entries of the topology that advertise
nobody were not there. -/
theorem nearlyFresh_of_reaches {ownIp : InAddr} {now : Timespec} {start : OlsrContext}
    (hstart : olsrStart ownIp now = some start)
    (h : Reaches nodeStep (fun _ _ => True) start ctx) :
  ctx.NearlyFresh
  := by
  have hinv : ctx.Sound ∧ ctx.NearlyFresh := by
    apply h.invariant _ ⟨olsrStart_sound hstart, olsrStart_nearlyFresh hstart⟩
    rintro ctx e ctx' ⟨hsound, hfresh⟩ - hstep
    exact ⟨hsound.step hstep, hfresh.step hsound hstep⟩
  apply hinv.2

/-- Node 1 hears from node 3 that it reaches node 2, and then from node 2 that it reaches nobody.
Its routing table is behind, and nearly fresh. -/
theorem nearlyFresh_of_reaches_three :
  ∃ start ctx, olsrStart (nodeIp 1) ⟨0, 0⟩ = some start ∧
    Reaches nodeStep (fun _ _ => True) start ctx ∧
    ctx.calcRoutingTable.routingTable ≠ ctx.routingTable ∧ ctx.NearlyFresh
  := by
  have hrun : (olsrStart (nodeIp 1) ⟨0, 0⟩).bind (fun start =>
      ([NodeEvent.recv ⟨0, 0⟩ (nodeIp 2) (helloOfTwo []),
        .recv ⟨0, 0⟩ (nodeIp 2) (tcOf (nodeIp 3) 1 63 [nodeIp 2]),
        .recv ⟨0, 0⟩ (nodeIp 2) (tcOf (nodeIp 2) 1 64 [])].foldlM nodeStep start).map
        (fun ctx => (ctx.routingTable.keys, ctx.calcRoutingTable.routingTable.keys))) =
      some ([nodeIp 2], [nodeIp 2, nodeIp 3]) := by
    decide +kernel
  obtain ⟨start, hstart, hrun⟩ := Option.bind_eq_some_iff.mp hrun
  obtain ⟨ctx, hctx, hkeys⟩ := Option.map_eq_some_iff.mp hrun
  have hreach : Reaches nodeStep (fun _ _ => True) start ctx := Reaches.of_foldlM hctx
  refine ⟨start, ctx, hstart, hreach, ?_, nearlyFresh_of_reaches hstart hreach⟩
  intro hsame
  rw [hsame, Prod.mk.injEq] at hkeys
  apply absurd (hkeys.1.symm.trans hkeys.2)
  decide

end OlsrContext
