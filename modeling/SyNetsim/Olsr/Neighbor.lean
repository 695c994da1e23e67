import SyNetsim.Olsr.Spf

/-!
# Neighbours and links

The neighbours of `olsr_neighbor.c` and the links of `olsr_link.c`: the status of a
neighbour follows that of its links, a change of it recalculates the routing table, and the
timers of links and two-hop neighbours remove them.

A function that is passed a pointer to a table element is given the key of the element. It
gives `none` when the source would follow a null pointer or a pointer to a freed element.

A change of status touches the neighbours, the routing table and the statistics only. To
state this, `core` forgets the routing table and the statistics.
-/

/-- The interval of a timer armed for a validity time in milliseconds: `vtime * 1000` in
32-bit arithmetic. -/
def vtimeInterval (vtime : ℕ) : ℤ := toInt (vtime * 1000)

namespace OlsrContext

/-! ### Neighbours -/

/-- `get_neighbor_status`. -/
def getNeighborStatus (ctx : OlsrContext) (addr : InAddr) : NeighborStatus :=
  match ctx.neighborTree.search addr with
  | some elem => elem.status
  | none => .unavailable

/-- `set_neighbor_status`. -/
def setNeighborStatus (ctx : OlsrContext) (addr : InAddr) (status : NeighborStatus) :
    Option OlsrContext := do
  let neighbor ← ctx.neighborTree.search addr
  if neighbor.status ≠ status then
    let ctx := { ctx with
      neighborTree := ctx.neighborTree.modify addr (fun n => { n with status := status }) }
    return ctx.calcRoutingTable
  else
    return ctx

/-- `make_neighbor_elem`. -/
def makeNeighborElem (willingness : BitVec 8) : NeighborElem where
  status := .unavailable
  willingness := willingness
  neighbor2Tree := .empty

/-- Follow a pointer to a two-hop neighbour. -/
def followNeigh2 (ctx : OlsrContext) (arg : Ptr (InAddr × InAddr)) : Option Neighbor2Elem :=
  (ctx.searchNeigh2 arg.key.1 arg.key.2).filter (fun n2elem => n2elem.id = arg.id)

/-- `neigh2_elem_expire`. -/
def neigh2ElemExpire (ctx : OlsrContext) (arg : Ptr (InAddr × InAddr)) : Option OlsrContext := do
  let n2elem ← ctx.followNeigh2 arg
  let _neigh ← ctx.neighborTree.search n2elem.bridgeAddr
  let tq ← ctx.timerqueue.timerqueueFreeTimer n2elem.expireTimer
  return { ctx with
    timerqueue := tq
    neighborTree := ctx.neighborTree.modify n2elem.bridgeAddr (fun neigh =>
      { neigh with neighbor2Tree := neigh.neighbor2Tree.erase arg.key.2 }) }

/-- `update_neigh2_tuple`. -/
def updateNeigh2Tuple (ctx : OlsrContext) (addr n2addr : InAddr) (vtime : ℕ) :
    Option OlsrContext := do
  let neigh ← ctx.neighborTree.search addr
  match neigh.neighbor2Tree.search n2addr with
  | none =>
      let (timer, tq) ← ctx.timerqueue.startTimer ctx.clock
        (.neigh2ElemExpire ⟨(addr, n2addr), ctx.nextId⟩) (vtimeInterval vtime) true
      let n2elem : Neighbor2Elem := ⟨ctx.nextId, addr, timer⟩
      return { ctx with
        timerqueue := tq
        nextId := ctx.nextId + 1
        neighborTree := ctx.neighborTree.modify addr (fun neigh =>
          { neigh with neighbor2Tree := neigh.neighbor2Tree.insert n2addr n2elem }) }
  | some n2elem =>
      let tq ← ctx.timerqueue.restartTimer ctx.clock n2elem.expireTimer (vtimeInterval vtime)
      return { ctx with timerqueue := tq }

/-- The loop of `update_neighbor_status`: some link to `addr` is symmetric. -/
def neighborIsSym (ctx : OlsrContext) (addr : InAddr) : Bool :=
  ctx.localIfaceTree.entries.any (fun ielem =>
    ielem.2.ifaceLinkTree.entries.any (fun lelem =>
      lelem.1 = addr && lelem.2.status = .symLink))

/-- `update_neighbor_status`. -/
def updateNeighborStatus (ctx : OlsrContext) (addr : InAddr) : Option OlsrContext := do
  let neigh ← ctx.neighborTree.search addr
  if ctx.neighborIsSym addr then
    if neigh.status ≠ .mprNeigh then
      ctx.setNeighborStatus addr .symNeigh
    else
      return ctx
  else
    ctx.setNeighborStatus addr .notNeigh

/-! ### Links -/

/-- `update_neighbor_state_by_link_change`, for a link to `addr`. -/
def updateNeighborStateByLinkChange (ctx : OlsrContext) (addr : InAddr) : Option OlsrContext :=
  ctx.updateNeighborStatus addr

/-- Follow a pointer to a link. -/
def followLink (ctx : OlsrContext) (arg : Ptr (InAddr × InAddr)) : Option LinkElem :=
  (ctx.searchLink arg.key.1 arg.key.2).filter (fun link => link.id = arg.id)

/-- Write to the link of a local interface to a neighbour. -/
def setLink (ctx : OlsrContext) (iface addr : InAddr) (link : LinkElem) : OlsrContext :=
  { ctx with
    localIfaceTree := ctx.localIfaceTree.modify iface (fun ielem =>
      { ielem with ifaceLinkTree := ielem.ifaceLinkTree.modify addr (fun _ => link) }) }

/-- Remove the link of a local interface to a neighbour. -/
def eraseLink (ctx : OlsrContext) (iface addr : InAddr) : OlsrContext :=
  { ctx with
    localIfaceTree := ctx.localIfaceTree.modify iface (fun ielem =>
      { ielem with ifaceLinkTree := ielem.ifaceLinkTree.erase addr }) }

/-- Enter a link of a local interface to a neighbour. -/
def insertLink (ctx : OlsrContext) (iface addr : InAddr) (link : LinkElem) : OlsrContext :=
  { ctx with
    localIfaceTree := ctx.localIfaceTree.modify iface (fun ielem =>
      { ielem with ifaceLinkTree := ielem.ifaceLinkTree.insert addr link }) }

/-- Free a timer of a link, if it has been created. -/
def freeLinkTimer (tq : TimerqueueContext Callback) :
    Option ℕ → Option (TimerqueueContext Callback)
  | none => some tq
  | some timer => tq.timerqueueFreeTimer timer

/-- `link_timer_expire`. -/
def linkTimerExpire (ctx : OlsrContext) (arg : Ptr (InAddr × InAddr)) : Option OlsrContext := do
  let link ← ctx.followLink arg
  let tq ← freeLinkTimer ctx.timerqueue link.expireTimer
  let tq ← freeLinkTimer tq link.asymTimer
  let tq ← freeLinkTimer tq link.symTimer
  let _iface ← ctx.localIfaceTree.search link.localIfaceAddr
  let ctx := { ctx with timerqueue := tq }.eraseLink link.localIfaceAddr arg.key.2
  ctx.updateNeighborStateByLinkChange arg.key.2

/-- `sym_link_timer_expire`, called for the link of `iface` to `addr`. -/
def symLinkTimerExpire (ctx : OlsrContext) (iface addr : InAddr) : Option OlsrContext := do
  let link ← ctx.searchLink iface addr
  let asymTimer ← link.asymTimer
  let asymElem ← ctx.timerqueue.elems.search asymTimer
  let status := if asymElem.active then LinkStatus.asymLink else LinkStatus.lostLink
  let ctx := ctx.setLink iface addr { link with status := status }
  ctx.updateNeighborStateByLinkChange addr

/-- Create or restart a timer of a link: the common part of `link_elem_expire_timer_set`,
`link_elem_asym_timer_set` and `link_elem_sym_timer_set`. All three arm
`link_timer_expire`. -/
def linkTimerSet (tq : TimerqueueContext Callback) (now : Timespec)
    (arg : Ptr (InAddr × InAddr)) (timer : Option ℕ) (vtime : ℕ) :
    Option (Option ℕ × TimerqueueContext Callback) :=
  match timer with
  | none => do
      let (p, tq) ← tq.startTimer now (.linkTimerExpire arg) (vtimeInterval vtime) true
      return (some p, tq)
  | some p => do
      let tq ← tq.restartTimer now p (vtimeInterval vtime)
      return (some p, tq)

/-- `link_elem_expire_timer_set`, for the link `link` of `iface` to `addr`. -/
def linkElemExpireTimerSet (ctx : OlsrContext) (iface addr : InAddr) (link : LinkElem)
    (vtime : ℕ) : Option (LinkElem × OlsrContext) := do
  let (timer, tq) ← linkTimerSet ctx.timerqueue ctx.clock ⟨(iface, addr), link.id⟩
    link.expireTimer vtime
  return ({ link with expireTimer := timer }, { ctx with timerqueue := tq })

/-- `link_elem_asym_timer_set`. -/
def linkElemAsymTimerSet (ctx : OlsrContext) (iface addr : InAddr) (link : LinkElem)
    (vtime : ℕ) : Option (LinkElem × OlsrContext) := do
  let status := if link.status ≠ .symLink then .asymLink else link.status
  let (timer, tq) ← linkTimerSet ctx.timerqueue ctx.clock ⟨(iface, addr), link.id⟩
    link.asymTimer vtime
  return ({ link with status := status, asymTimer := timer }, { ctx with timerqueue := tq })

/-- `link_elem_sym_timer_set`. -/
def linkElemSymTimerSet (ctx : OlsrContext) (iface addr : InAddr) (link : LinkElem)
    (vtime : ℕ) : Option (LinkElem × OlsrContext) := do
  let (timer, tq) ← linkTimerSet ctx.timerqueue ctx.clock ⟨(iface, addr), link.id⟩
    link.symTimer vtime
  return ({ link with status := .symLink, symTimer := timer }, { ctx with timerqueue := tq })

/-- `make_link_elem`. -/
def makeLinkElem (ctx : OlsrContext) (src myAddr : InAddr) (vtime : ℕ) :
    Option (LinkElem × OlsrContext) :=
  let link : LinkElem :=
    { id := ctx.nextId, localIfaceAddr := myAddr, status := .lostLink, symTimer := none,
      asymTimer := none, expireTimer := none }
  linkElemExpireTimerSet { ctx with nextId := ctx.nextId + 1 } myAddr src link vtime

/-! ### Changes of status -/

/-- The context without the routing table and the statistics. -/
def core (ctx : OlsrContext) : OlsrContext :=
  { ctx with routingTable := .empty, nodeInfo := [], nodeStatTree := .empty }

/-- The routing table is the one `calc_routing_table` would make now. -/
def RoutingFresh (ctx : OlsrContext) : Prop :=
  ctx.routingTable = spfTable ctx.ownIp ctx.neighborTree ctx.topologyTree

/-- `calc_routing_table` changes the routing table and the statistics only. -/
theorem calcRoutingTable_core (ctx : OlsrContext) (h : NotDuplicated ctx.topologyTree) :
  ctx.calcRoutingTable.core = ctx.core
  := by
  obtain ⟨info, tree, heq⟩ := calcRoutingTable_eq ctx h
  rw [heq]
  rfl

/-- `calc_routing_table` makes the routing table fresh. -/
theorem calcRoutingTable_fresh (ctx : OlsrContext) (h : NotDuplicated ctx.topologyTree) :
  ctx.calcRoutingTable.RoutingFresh
  := by
  obtain ⟨info, tree, heq⟩ := calcRoutingTable_eq ctx h
  rw [heq]
  rfl

/-- A neighbour with another status. -/
def withStatus (status : NeighborStatus) (n : NeighborElem) : NeighborElem :=
  { n with status := status }

/-- Setting the status of a neighbour changes that, and keeps the routing table fresh. -/
theorem setNeighborStatus_spec (ctx : OlsrContext) (hdup : NotDuplicated ctx.topologyTree)
    (addr : InAddr) (haddr : addr ∈ ctx.neighborTree) (status : NeighborStatus) :
  ∃ ctx', ctx.setNeighborStatus addr status = some ctx' ∧
    ctx'.core = { ctx.core with
      neighborTree := ctx.neighborTree.modify addr (withStatus status) } ∧
    (ctx.RoutingFresh → ctx'.RoutingFresh)
  := by
  obtain ⟨neighbor, hneighbor⟩ := OrdMap.mem_iff.mp haddr
  by_cases hstatus : neighbor.status = status
  · use ctx
    refine ⟨by simp [setNeighborStatus, hneighbor, hstatus], ?_, fun h => h⟩
    have hsame : ctx.neighborTree.modify addr (withStatus status) = ctx.neighborTree := by
      apply OrdMap.ext
      intro a
      rw [OrdMap.search_modify]
      split_ifs with ha
      · rw [ha, hneighbor, Option.map_some, withStatus, ← hstatus]
      · rfl
    rw [hsame]
    rfl
  · let ctx₁ := { ctx with neighborTree := ctx.neighborTree.modify addr (withStatus status) }
    use ctx₁.calcRoutingTable
    and_intros
    · simp only [setNeighborStatus, hneighbor, Option.bind_eq_bind, Option.bind_some, ne_eq,
        hstatus, not_false_eq_true, if_true]
      rfl
    · apply calcRoutingTable_core ctx₁ hdup
    · intro _
      apply calcRoutingTable_fresh ctx₁ hdup

/-- The routing table stays fresh when neither the symmetric neighbours nor the topology
change. -/
theorem RoutingFresh.congr {ctx ctx' : OlsrContext} (h : ctx.RoutingFresh)
    (hown : ctx'.ownIp = ctx.ownIp) (htable : ctx'.routingTable = ctx.routingTable)
    (hsym : ∀ a, IsSymNeigh ctx'.neighborTree a ↔ IsSymNeigh ctx.neighborTree a)
    (htopology : ctx'.topologyTree = ctx.topologyTree) :
  ctx'.RoutingFresh
  := by
  rw [RoutingFresh, htable, h, hown, htopology]
  apply spfTable_congr
  · intro a
    rw [hsym]
  · intro d a
    rfl

/-- Some link to `addr` is symmetric. -/
def HasSymLink (ctx : OlsrContext) (addr : InAddr) : Prop :=
  ∃ iface link, ctx.searchLink iface addr = some link ∧ link.status = .symLink

theorem searchLink_eq_some {ctx : OlsrContext} {iface addr : InAddr} {link : LinkElem} :
  ctx.searchLink iface addr = some link ↔
    ∃ ielem, ctx.localIfaceTree.search iface = some ielem ∧
      ielem.ifaceLinkTree.search addr = some link
  := Option.bind_eq_some_iff

/-- The loop of `update_neighbor_status` finds a symmetric link to the neighbour. -/
theorem neighborIsSym_iff {ctx : OlsrContext} {addr : InAddr} :
  ctx.neighborIsSym addr = true ↔ ctx.HasSymLink addr
  := by
  simp only [neighborIsSym, List.any_eq_true, Bool.and_eq_true, decide_eq_true_eq, HasSymLink,
    searchLink_eq_some, OrdMap.search_eq_some]
  constructor
  · rintro ⟨⟨iface, ielem⟩, hielem, ⟨a, link⟩, hlink, rfl, hstatus⟩
    exact ⟨iface, link, ⟨ielem, hielem, hlink⟩, hstatus⟩
  · rintro ⟨iface, link, ⟨ielem, hielem, hlink⟩, hstatus⟩
    exact ⟨(iface, ielem), hielem, (addr, link), hlink, rfl, hstatus⟩

/-- The status `update_neighbor_status` gives to a neighbour that has the status `old`. -/
def updatedStatus (ctx : OlsrContext) (addr : InAddr) (old : NeighborStatus) : NeighborStatus :=
  if ctx.neighborIsSym addr then if old = .mprNeigh then .mprNeigh else .symNeigh
  else .notNeigh

theorem updatedStatus_isSym (ctx : OlsrContext) (addr : InAddr) (old : NeighborStatus) :
  (ctx.updatedStatus addr old).isSym = true ↔ ctx.HasSymLink addr
  := by
  rw [← neighborIsSym_iff, updatedStatus]
  split_ifs with hsym hmpr
  · simp [hsym, NeighborStatus.isSym]
  · simp [hsym, NeighborStatus.isSym]
  · simp [hsym, NeighborStatus.isSym]

/-- Updating the status of a neighbour changes that, and keeps the routing table fresh. -/
theorem updateNeighborStatus_spec {ctx : OlsrContext} (hdup : NotDuplicated ctx.topologyTree)
    {addr : InAddr} {neigh : NeighborElem} (hneigh : ctx.neighborTree.search addr = some neigh) :
  ∃ ctx', ctx.updateNeighborStatus addr = some ctx' ∧
    ctx'.core = { ctx.core with
      neighborTree := ctx.neighborTree.modify addr
        (withStatus (ctx.updatedStatus addr neigh.status)) } ∧
    (ctx.RoutingFresh → ctx'.RoutingFresh)
  := by
  obtain ⟨ctx', hctx', hspec⟩ := setNeighborStatus_spec ctx hdup addr (OrdMap.mem_of_search hneigh)
    (ctx.updatedStatus addr neigh.status)
  use ctx'
  refine ⟨?_, hspec⟩
  simp only [updateNeighborStatus, hneigh, Option.bind_eq_bind, Option.bind_some]
  rw [← hctx', updatedStatus]
  by_cases hsym : ctx.neighborIsSym addr = true
  · by_cases hmpr : neigh.status = .mprNeigh
    · simp [hsym, hmpr, setNeighborStatus, hneigh]
    · simp [hsym, hmpr]
  · simp [hsym]

/-! ### Changes around a node -/

/-- From `ctx` to `ctx'` only what a node knows of its neighbourhood has changed, and the
routing table is fresh if it was. -/
structure Local (ctx ctx' : OlsrContext) : Prop where
  ownIp : ctx'.ownIp = ctx.ownIp
  param : ctx'.param = ctx.param
  olsrTxMsgbuf : ctx'.olsrTxMsgbuf = ctx.olsrTxMsgbuf
  msgSeq : ctx'.msgSeq = ctx.msgSeq
  topologyTree : ctx'.topologyTree = ctx.topologyTree
  dupTree : ctx'.dupTree = ctx.dupTree
  clock : ctx'.clock = ctx.clock
  sent : ctx'.sent = ctx.sent
  fresh : ctx.RoutingFresh → ctx'.RoutingFresh

theorem Local.trans {ctx ctx' ctx'' : OlsrContext} (h : ctx.Local ctx') (h' : ctx'.Local ctx'') :
  ctx.Local ctx''
  where
  ownIp := h'.ownIp.trans h.ownIp
  param := h'.param.trans h.param
  olsrTxMsgbuf := h'.olsrTxMsgbuf.trans h.olsrTxMsgbuf
  msgSeq := h'.msgSeq.trans h.msgSeq
  topologyTree := h'.topologyTree.trans h.topologyTree
  dupTree := h'.dupTree.trans h.dupTree
  clock := h'.clock.trans h.clock
  sent := h'.sent.trans h.sent
  fresh hctx := h'.fresh (h.fresh hctx)

/-- A change of the neighbour tree that keeps the symmetric neighbours is local, whatever
happens to links, relays, selectors and timers. -/
theorem Local.of_isSymNeigh {ctx : OlsrContext} {tq : TimerqueueContext Callback}
    {ansn : BitVec 16} {ifaces : OrdMap InAddr LocalNetIfaceElem}
    {neighbors : OrdMap InAddr NeighborElem} {mprs : OrdMap InAddr Unit}
    {elems : OrdMap ℕ MprSelectorElem} {selectors : OrdMap InAddr ℕ} {nextId : ℕ}
    (hsym : ∀ a, IsSymNeigh neighbors a ↔ IsSymNeigh ctx.neighborTree a) :
  ctx.Local { ctx with
    timerqueue := tq, ansn := ansn, localIfaceTree := ifaces, neighborTree := neighbors,
    mprTree := mprs, selectorElems := elems, selectorTree := selectors, nextId := nextId }
  where
  ownIp := rfl
  param := rfl
  olsrTxMsgbuf := rfl
  msgSeq := rfl
  topologyTree := rfl
  dupTree := rfl
  clock := rfl
  sent := rfl
  fresh h := h.congr rfl rfl hsym rfl

/-- A change of other parts of the neighbourhood is local. -/
theorem Local.of_eq {ctx : OlsrContext} {tq : TimerqueueContext Callback}
    {ansn : BitVec 16} {ifaces : OrdMap InAddr LocalNetIfaceElem} {mprs : OrdMap InAddr Unit}
    {elems : OrdMap ℕ MprSelectorElem} {selectors : OrdMap InAddr ℕ} {nextId : ℕ} :
  ctx.Local { ctx with
    timerqueue := tq, ansn := ansn, localIfaceTree := ifaces,
    mprTree := mprs, selectorElems := elems, selectorTree := selectors, nextId := nextId }
  := Local.of_isSymNeigh (fun _ => Iff.rfl)

/-- A change of core fields of the neighbourhood that keeps the routing table fresh is
local. -/
theorem Local.of_core {ctx ctx' : OlsrContext} {neighbors : OrdMap InAddr NeighborElem}
    {mprs : OrdMap InAddr Unit} {ansn : BitVec 16}
    (hcore : ctx'.core =
      { ctx.core with neighborTree := neighbors, mprTree := mprs, ansn := ansn })
    (hfresh : ctx.RoutingFresh → ctx'.RoutingFresh) :
  ctx.Local ctx'
  where
  ownIp := by have h := congrArg OlsrContext.ownIp hcore; apply h
  param := by have h := congrArg OlsrContext.param hcore; apply h
  olsrTxMsgbuf := by have h := congrArg OlsrContext.olsrTxMsgbuf hcore; apply h
  msgSeq := by have h := congrArg OlsrContext.msgSeq hcore; apply h
  topologyTree := by have h := congrArg OlsrContext.topologyTree hcore; apply h
  dupTree := by have h := congrArg OlsrContext.dupTree hcore; apply h
  clock := by have h := congrArg OlsrContext.clock hcore; apply h
  sent := by have h := congrArg OlsrContext.sent hcore; apply h
  fresh := hfresh

/-- Updating the status of a neighbour is local. -/
theorem updateNeighborStatus_inv {ctx ctx' : OlsrContext} {addr : InAddr}
    (h : ctx.updateNeighborStatus addr = some ctx') (hdup : NotDuplicated ctx.topologyTree) :
  ∃ neigh, ctx.neighborTree.search addr = some neigh ∧
    ctx'.core = { ctx.core with
      neighborTree := ctx.neighborTree.modify addr
        (withStatus (ctx.updatedStatus addr neigh.status)) } ∧
    ctx.Local ctx'
  := by
  cases hneigh : ctx.neighborTree.search addr with
  | none =>
      rw [updateNeighborStatus, hneigh] at h
      contradiction
  | some neigh =>
      obtain ⟨ctx'', h', hcore, hfresh⟩ := updateNeighborStatus_spec hdup hneigh
      obtain rfl := Option.some.inj (h.symm.trans h')
      exact ⟨neigh, rfl, hcore, Local.of_core hcore hfresh⟩

/-! ### The timers of a link -/

/-- Setting the expiry timer of a link changes that timer only. -/
theorem linkElemExpireTimerSet_inv {ctx ctx' : OlsrContext} {iface addr : InAddr}
    {link link' : LinkElem} {vtime : ℕ}
    (h : ctx.linkElemExpireTimerSet iface addr link vtime = some (link', ctx')) :
  ∃ timer tq, link' = { link with expireTimer := timer } ∧ ctx' = { ctx with timerqueue := tq }
  := by
  simp only [linkElemExpireTimerSet, Option.bind_eq_bind, Option.bind_eq_some_iff,
    Option.pure_def, Option.some.injEq, Prod.mk.injEq] at h
  obtain ⟨⟨timer, tq⟩, -, rfl, rfl⟩ := h
  exact ⟨timer, tq, rfl, rfl⟩

/-- Setting the timer of an asymmetric link changes that timer and the status only. -/
theorem linkElemAsymTimerSet_inv {ctx ctx' : OlsrContext} {iface addr : InAddr}
    {link link' : LinkElem} {vtime : ℕ}
    (h : ctx.linkElemAsymTimerSet iface addr link vtime = some (link', ctx')) :
  ∃ status timer tq, link' = { link with status := status, asymTimer := timer } ∧
    ctx' = { ctx with timerqueue := tq }
  := by
  simp only [linkElemAsymTimerSet, Option.bind_eq_bind, Option.bind_eq_some_iff,
    Option.pure_def, Option.some.injEq, Prod.mk.injEq] at h
  obtain ⟨⟨timer, tq⟩, -, rfl, rfl⟩ := h
  exact ⟨_, timer, tq, rfl, rfl⟩

/-- Setting the timer of a symmetric link changes that timer and the status only. -/
theorem linkElemSymTimerSet_inv {ctx ctx' : OlsrContext} {iface addr : InAddr}
    {link link' : LinkElem} {vtime : ℕ}
    (h : ctx.linkElemSymTimerSet iface addr link vtime = some (link', ctx')) :
  ∃ timer tq, link' = { link with status := .symLink, symTimer := timer } ∧
    ctx' = { ctx with timerqueue := tq }
  := by
  simp only [linkElemSymTimerSet, Option.bind_eq_bind, Option.bind_eq_some_iff,
    Option.pure_def, Option.some.injEq, Prod.mk.injEq] at h
  obtain ⟨⟨timer, tq⟩, -, rfl, rfl⟩ := h
  exact ⟨timer, tq, rfl, rfl⟩

end OlsrContext
