import SyNetsim.Olsr.Advertised
import SyNetsim.Olsr.RoutingTable
import SyNetsim.Olsr.Symmetry

/-!
# Routes over confirmed links

Which links can the routes of a node lead over? For a single node, suppose that some addresses are
vouched for as neighbours and some pairs of addresses as edges. If symmetric links and advertised
neighbours are only what is vouched for, then so are the hops of all routes (`Vouched`), and every
handler keeps this true. The routing table need not be up to date for it.

In a network, vouched for are the pairs of nodes that have each processed a HELLO which the other
one has built. No node ever has a route over another pair (`HelloNet.routes_confirmed`), whatever is
lost, delayed or repeated, and whatever expires.
-/

namespace OlsrContext

/-! ### What a node relies on -/

/-- The entry for `a` has a route without loops, from one of the addresses `links` over the edges
`edges` to `a`. This node is not on it. -/
structure RouteOver (ownIp : InAddr) (links : Set InAddr) (edges : InAddr → InAddr → Prop)
    (a : InAddr) (entry : RoutingEntry) : Prop where
  dest : entry.dest = a
  length : entry.route.length = entry.hopCount
  first : ∃ s ∈ links, entry.route.head? = some s
  last : entry.route.getLast? = some a
  chain : entry.route.IsChain (fun d b => edges d b ∨ edges b d)
  own : ownIp ∉ entry.route
  nodup : entry.route.Nodup

/-- All that a node relies on for its routes is vouched for by `links` and `edges`: its symmetric
links and neighbours, what is advertised, and the routes it has. -/
structure Vouched (links : Set InAddr) (edges : InAddr → InAddr → Prop) (ctx : OlsrContext) :
    Prop where
  symLink : ∀ a, ctx.HasSymLink a → a ∈ links
  neighbor : ∀ a, IsSymNeigh ctx.neighborTree a → a ∈ links
  edge : ∀ d a, Advertises ctx.topologyTree d a → edges d a
  route : ∀ a entry, ctx.routingTable.search a = some entry →
    RouteOver ctx.ownIp links edges a entry

variable {links : Set InAddr} {edges : InAddr → InAddr → Prop} {ctx ctx' : OlsrContext}

/-- More can be vouched for. -/
theorem Vouched.mono {links' : Set InAddr} {edges' : InAddr → InAddr → Prop}
    (h : Vouched links edges ctx) (hlinks : links ⊆ links')
    (hedges : ∀ d a, edges d a → edges' d a) :
  Vouched links' edges' ctx
  where
  symLink a ha := hlinks (h.symLink a ha)
  neighbor a ha := hlinks (h.neighbor a ha)
  edge d a ha := hedges d a (h.edge d a ha)
  route a entry hentry := by
    have hroute := h.route a entry hentry
    obtain ⟨s, hs, hfirst⟩ := hroute.first
    refine ⟨hroute.dest, hroute.length, ⟨s, hlinks hs, hfirst⟩, hroute.last, ?_, hroute.own,
      hroute.nodup⟩
    apply hroute.chain.imp
    intro d b hdb
    exact hdb.imp (hedges d b) (hedges b d)

/-- A change that makes no symmetric neighbour, no advertisement and no route. -/
theorem Vouched.of_learns {others selectors : Set InAddr} (h : Vouched links edges ctx)
    (hlearns : Learns others links selectors ctx ctx')
    (hneighbor : ∀ a, IsSymNeigh ctx'.neighborTree a → IsSymNeigh ctx.neighborTree a)
    (hedge : ∀ d a, Advertises ctx'.topologyTree d a → Advertises ctx.topologyTree d a ∨ edges d a)
    (htable : ctx'.routingTable = ctx.routingTable) :
  Vouched links edges ctx'
  where
  symLink a ha := (hlearns.sym a ha).elim (h.symLink a) id
  neighbor a ha := h.neighbor a (hneighbor a ha)
  edge d a ha := (hedge d a ha).elim (h.edge d a) id
  route a entry hentry := by
    rw [htable] at hentry
    rw [hlearns.ownIp]
    apply h.route a entry hentry

/-- A change of links only, as far as symmetric links, neighbours, topology and routes go. -/
theorem Vouched.of_links {others selectors : Set InAddr} (h : Vouched links edges ctx)
    (hlearns : Learns others links selectors ctx ctx')
    (hneighbor : ctx'.neighborTree = ctx.neighborTree)
    (htopology : ctx'.topologyTree = ctx.topologyTree)
    (htable : ctx'.routingTable = ctx.routingTable) :
  Vouched links edges ctx'
  := by
  apply h.of_learns hlearns _ _ htable
  · intro a ha
    rwa [hneighbor] at ha
  · intro d a ha
    left
    rwa [htopology] at ha

/-- The routes that `calc_routing_table` finds are vouched for. -/
theorem Vouched.calcRoutingTable (h : Vouched links edges ctx) (hown : ctx.ownIp ∉ links)
    (hdup : NotDuplicated ctx.topologyTree) :
  Vouched links edges ctx.calcRoutingTable
  := by
  obtain ⟨info, stats, heq⟩ := calcRoutingTable_eq ctx hdup
  rw [heq]
  refine ⟨h.symLink, h.neighbor, h.edge, ?_⟩
  intro a entry hentry
  have hshortest := spfTable_isShortest hentry
  obtain ⟨s, hs, hsym⟩ := hshortest.first
  have hlinks : s ∈ links := h.neighbor s hsym
  refine ⟨hshortest.dest, hshortest.length, ⟨s, hlinks, hs⟩, hshortest.last, ?_, ?_,
    hshortest.nodup⟩
  · apply hshortest.chain.imp
    rintro d b ⟨-, -, -, hdb⟩
    exact hdb.imp (h.edge d b) (h.edge b d)
  · -- An edge never leads to this node.
    obtain ⟨rest, hrest⟩ := List.head?_eq_some_iff.mp hs
    have hchain := hshortest.chain
    rw [hrest] at hchain ⊢
    have hs : s ≠ ctx.ownIp := by
      rintro rfl
      apply hown hlinks
    have hne : ∀ b ∈ rest, b ≠ ctx.ownIp := by
      apply hchain.cons_induction (· ≠ ctx.ownIp) _ _ hs
      intro d b hdb _
      exact hdb.2.1
    intro hmem
    rcases List.mem_cons.mp hmem with heq | hmem
    · apply hs heq.symm
    · apply hne _ hmem rfl

/-- A neighbour that is vouched for can get any status, and any other neighbour one that is not
symmetric. -/
theorem Vouched.setNeighborStatus (h : Vouched links edges ctx) (hown : ctx.ownIp ∉ links)
    (hdup : NotDuplicated ctx.topologyTree) {addr : InAddr} {status : NeighborStatus}
    (haddr : status.isSym = true → addr ∈ links)
    (hstep : ctx.setNeighborStatus addr status = some ctx') :
  Vouched links edges ctx'
  := by
  simp only [OlsrContext.setNeighborStatus, Option.bind_eq_bind, Option.bind_eq_some_iff,
    Option.pure_def] at hstep
  obtain ⟨neighbor, hneighbor, hstep⟩ := hstep
  split_ifs at hstep with hstatus
  · obtain rfl := Option.some.inj hstep
    have hset : Vouched links edges { ctx with
        neighborTree := ctx.neighborTree.modify addr (withStatus status) } := by
      refine ⟨h.symLink, ?_, h.edge, h.route⟩
      rintro a ⟨n, hn, hsym⟩
      rw [OrdMap.search_modify] at hn
      split_ifs at hn with ha
      · obtain ⟨old, -, rfl⟩ := Option.map_eq_some_iff.mp hn
        rw [ha]
        apply haddr hsym
      · exact h.neighbor a ⟨n, hn, hsym⟩
    apply hset.calcRoutingTable hown hdup
  · obtain rfl := Option.some.inj hstep
    apply h

/-- A neighbour becomes symmetric only over a symmetric link. -/
theorem Vouched.updateNeighborStatus (h : Vouched links edges ctx) (hown : ctx.ownIp ∉ links)
    (hdup : NotDuplicated ctx.topologyTree) {addr : InAddr}
    (hstep : ctx.updateNeighborStatus addr = some ctx') :
  Vouched links edges ctx'
  := by
  simp only [OlsrContext.updateNeighborStatus, Option.bind_eq_bind, Option.bind_eq_some_iff,
    Option.pure_def] at hstep
  obtain ⟨neigh, -, hstep⟩ := hstep
  split_ifs at hstep with hsym hmpr
  · apply h.setNeighborStatus hown hdup _ hstep
    intro _
    apply h.symLink addr (neighborIsSym_iff.mp hsym)
  · obtain rfl := Option.some.inj hstep
    apply h
  · apply h.setNeighborStatus hown hdup _ hstep
    intro hnot
    contradiction

/-! ### The parts of `process_olsr_hello` -/

/-- What `process_olsr_hello` does to the link to the sender changes links and timers only. -/
theorem touchLink_inv {src : InAddr} {vtime : ℕ} (h : ctx.touchLink src vtime = some ctx') :
  ∃ tq nextId ifaces, ctx' = { ctx with
    timerqueue := tq, nextId := nextId, localIfaceTree := ifaces }
  := by
  simp only [touchLink, findLink, Option.bind_eq_bind, Option.bind_eq_some_iff,
    Option.pure_def] at h
  obtain ⟨⟨link, ctx₁⟩, hfind, ⟨link', ctx₂⟩, hasym, h⟩ := h
  obtain ⟨status, timer, tq, rfl, rfl⟩ := linkElemAsymTimerSet_inv hasym
  obtain rfl := Option.some.inj h
  cases hlink : ctx.searchLink ctx.ownIp src with
  | none =>
      simp only [hlink, Option.bind_eq_some_iff, Option.some.injEq, Prod.mk.injEq,
        makeLinkElem] at hfind
      obtain ⟨⟨link, ctx₂⟩, hmake, rfl, rfl⟩ := hfind
      obtain ⟨timer', tq', rfl, rfl⟩ := linkElemExpireTimerSet_inv hmake
      exact ⟨_, _, _, rfl⟩
  | some link₀ =>
      rw [hlink] at hfind
      obtain ⟨timer', tq', rfl, rfl⟩ := linkElemExpireTimerSet_inv hfind
      exact ⟨_, _, _, rfl⟩

theorem setSymLink_inv {src : InAddr} {vtime : ℕ} (h : ctx.setSymLink src vtime = some ctx') :
  ∃ tq ifaces, ctx' = { ctx with timerqueue := tq, localIfaceTree := ifaces }
  := by
  simp only [setSymLink, Option.bind_eq_bind, Option.bind_eq_some_iff, Option.pure_def] at h
  obtain ⟨link, -, ⟨link', ctx₁⟩, hsym, h⟩ := h
  obtain ⟨timer, tq, rfl, rfl⟩ := linkElemSymTimerSet_inv hsym
  exact ⟨_, _, (Option.some.inj h).symm⟩

/-- Marking the link to the sender as lost takes a symmetric link away, and updates the status of
the neighbour. -/
theorem setLostLink_inv {src : InAddr} (h : ctx.setLostLink src = some ctx') :
  ∃ tq link, link.status ≠ .symLink ∧
    (OlsrContext.setLink { ctx with timerqueue := tq } ctx.ownIp src link).updateNeighborStatus src
      = some ctx'
  := by
  simp only [setLostLink, symLinkTimerExpire, Option.bind_eq_bind, Option.bind_eq_some_iff] at h
  obtain ⟨link, hlink, symTimer, -, -, -, link', -, -, -, asymElem, -, hupdate⟩ := h
  refine ⟨_, _, ?_, hupdate⟩
  dsimp only
  split_ifs <;> simp

theorem Vouched.findNeighbor (h : Vouched links edges ctx) (src : InAddr)
    (willingness : BitVec 8) :
  Vouched links edges (ctx.findNeighbor src willingness)
  := by
  have hlearns : Learns Set.univ links Set.univ ctx (ctx.findNeighbor src willingness) :=
    findNeighbor_learns ctx src willingness
  apply h.of_learns hlearns _ (fun _ _ ha => Or.inl ha) rfl
  rintro a ⟨n, hn, hsym⟩
  rw [OlsrContext.findNeighbor, OrdMap.search_insert] at hn
  split_ifs at hn with ha
  · cases hold : ctx.neighborTree.search src with
    | none =>
        rw [hold] at hn
        obtain rfl := Option.some.inj hn
        contradiction
    | some old =>
        rw [hold] at hn
        obtain rfl := Option.some.inj hn
        rw [ha]
        exact ⟨old, hold, hsym⟩
  · exact ⟨n, hn, hsym⟩

theorem Vouched.touchLink (h : Vouched links edges ctx) {src : InAddr} {vtime : ℕ}
    (hiface : ctx.ownIp ∈ ctx.localIfaceTree) (hstep : ctx.touchLink src vtime = some ctx') :
  Vouched links edges ctx'
  := by
  have hlearns : Learns Set.univ links Set.univ ctx ctx' :=
    touchLink_learns hiface (Set.mem_univ src) hstep
  obtain ⟨tq, nextId, ifaces, rfl⟩ := touchLink_inv hstep
  apply h.of_links hlearns rfl rfl rfl

/-- A HELLO that lists this node as heard brings a symmetric link to its sender. -/
theorem Vouched.populateLinkset (h : Vouched links edges ctx) (hown : ctx.ownIp ∉ links)
    (hdup : NotDuplicated ctx.topologyTree) {src orig : InAddr} {helloInfo : List HelloInfo}
    {vtime : ℕ} (hsrc : linkcodeToMe ctx.ownIp helloInfo ≠ statusUnavailable → src ∈ links)
    (hstep : ctx.populateLinkset src orig helloInfo vtime = some ctx') :
  Vouched links edges ctx'
  := by
  rw [OlsrContext.populateLinkset] at hstep
  by_cases hcode : linkcodeToMe ctx.ownIp helloInfo = statusUnavailable
  · rw [if_pos hcode] at hstep
    obtain rfl := Option.some.inj hstep
    apply h
  · rw [if_neg hcode] at hstep
    obtain ⟨ctx₁, hlinkstat, hneighstat⟩ := Option.bind_eq_some_iff.mp hstep
    have h₁ : Vouched links edges ctx₁ := by
      rw [populateLinkStatus] at hlinkstat
      split_ifs at hlinkstat
      · have hlearns : Learns Set.univ links Set.univ ctx ctx₁ :=
          setSymLink_learns (hsrc hcode) hlinkstat
        obtain ⟨tq, ifaces, rfl⟩ := setSymLink_inv hlinkstat
        apply h.of_links hlearns rfl rfl rfl
      · obtain ⟨tq, link, hstatus, hupdate⟩ := setLostLink_inv hlinkstat
        have hlearns : Learns Set.univ links Set.univ ctx
            (OlsrContext.setLink { ctx with timerqueue := tq } ctx.ownIp src link) :=
          Learns.of_setLink (fun hsym => absurd hsym hstatus)
        apply (h.of_links hlearns rfl rfl rfl).updateNeighborStatus hown hdup hupdate
      · obtain rfl := Option.some.inj hlinkstat
        apply h
    split_ifs at hneighstat with hmpr
    · have hlearns : Learns Set.univ links Set.univ ctx₁ ctx' :=
        populateMprSelector_learns (Set.mem_univ orig) hneighstat
      obtain ⟨tq, nextId, elems, selectors, rfl⟩ := populateMprSelector_inv hneighstat
      apply h₁.of_links hlearns rfl rfl rfl
    · obtain rfl := Option.some.inj hneighstat
      apply h₁

theorem Vouched.neigh2Change (h : Vouched links edges ctx) {addr : InAddr}
    {tree : OrdMap InAddr Neighbor2Elem} (hchange : Neigh2Change ctx ctx' addr tree) :
  Vouched links edges ctx'
  := by
  have hlearns : Learns Set.univ links Set.univ ctx ctx' := neigh2Change_learns hchange
  obtain ⟨tq, nextId, rfl⟩ := hchange.eq
  apply h.of_learns hlearns _ (fun _ _ ha => Or.inl ha) rfl
  intro a ha
  refine (isSymNeigh_modify ?_ a).mp ha
  intro n
  rfl

theorem Vouched.populateNeigh2set (h : Vouched links edges ctx) {addr : InAddr}
    {helloInfo : List HelloInfo} {vtime : ℕ}
    (hstep : ctx.populateNeigh2set addr helloInfo vtime = some ctx') :
  Vouched links edges ctx'
  := by
  rw [OlsrContext.populateNeigh2set] at hstep
  generalize helloInfo.flatMap HelloInfo.neighAddr = l at hstep
  induction l generalizing ctx with
  | nil =>
      obtain rfl := Option.some.inj hstep
      apply h
  | cons n2addr l ih =>
      rw [List.foldlM_cons] at hstep
      obtain ⟨ctx₁, hone, hrest⟩ := Option.bind_eq_some_iff.mp hstep
      split_ifs at hone
      · obtain rfl := Option.some.inj hone
        apply ih h hrest
      · obtain ⟨neigh, tree, -, hchange, -⟩ := updateNeigh2Tuple_inv hone
        apply ih (h.neigh2Change hchange) hrest

/-! ### The choice of relays -/

/-- What a node relies on is vouched for when the statuses of some neighbours that are vouched for
have been set. -/
structure StatusSet (links : Set InAddr) (edges : InAddr → InAddr → Prop)
    (ctx ctx' : OlsrContext) : Prop where
  vouched : Vouched links edges ctx'
  ownIp : ctx'.ownIp = ctx.ownIp
  topologyTree : ctx'.topologyTree = ctx.topologyTree

theorem Vouched.statusSet (h : Vouched links edges ctx) (hown : ctx.ownIp ∉ links)
    (hdup : NotDuplicated ctx.topologyTree) {addr : InAddr} {status : NeighborStatus}
    (haddr : addr ∈ links) (hstep : ctx.setNeighborStatus addr status = some ctx') :
  StatusSet links edges ctx ctx'
  := by
  have hmem : addr ∈ ctx.neighborTree := by
    rw [OlsrContext.setNeighborStatus] at hstep
    obtain ⟨n, hn, -⟩ := Option.bind_eq_some_iff.mp hstep
    apply OrdMap.mem_of_search hn
  obtain ⟨ctx'', hctx'', hcore, -⟩ := setNeighborStatus_spec ctx hdup addr hmem status
  obtain rfl := Option.some.inj (hstep.symm.trans hctx'')
  refine ⟨h.setNeighborStatus hown hdup (fun _ => haddr) hstep, ?_, ?_⟩
  · have hown' := congrArg OlsrContext.ownIp hcore
    apply hown'
  · have htopology := congrArg OlsrContext.topologyTree hcore
    apply htopology

/-- A loop that sets the status of neighbours that are vouched for. -/
theorem Vouched.cleanN1Set (h : Vouched links edges ctx) (hown : ctx.ownIp ∉ links)
    (hdup : NotDuplicated ctx.topologyTree) {n1Set : OrdMap InAddr Unit}
    (hn1 : ∀ a ∈ n1Set, a ∈ links) (hstep : ctx.cleanN1Set n1Set = some ctx') :
  Vouched links edges ctx'
  := by
  rw [OlsrContext.cleanN1Set] at hstep
  have hkeys : ∀ a ∈ n1Set.keys, a ∈ links := fun a ha => hn1 a (OrdMap.mem_keys.mp ha)
  generalize n1Set.keys = l at hstep hkeys
  induction l generalizing ctx with
  | nil =>
      obtain rfl := Option.some.inj hstep
      apply h
  | cons b l ih =>
      rw [List.foldlM_cons] at hstep
      obtain ⟨ctx₁, hone, hrest⟩ := Option.bind_eq_some_iff.mp hstep
      have hset := h.statusSet hown hdup (hkeys b List.mem_cons_self) hone
      apply ih hset.vouched _ _ hrest (fun a ha => hkeys a (List.mem_cons_of_mem b ha))
      · rwa [hset.ownIp]
      · rwa [hset.topologyTree]

/-- The neighbour that reaches most is one of the set. -/
theorem mem_of_getMaxReachabilityNeigh {n1Set : OrdMap InAddr Unit}
    {n2Set : OrdMap InAddr (OrdMap InAddr Unit)} {best : ℕ × Option InAddr} {a : InAddr}
    (h : ctx.getMaxReachabilityNeigh n1Set n2Set = some best) (ha : best.2 = some a) :
  a ∈ n1Set
  := by
  have hmem : ∀ (l : List InAddr) (best₀ : ℕ × Option InAddr),
      (∀ a ∈ l, a ∈ n1Set) → (∀ a, best₀.2 = some a → a ∈ n1Set) →
      l.foldlM (fun best addr => do
        let nelem ← ctx.neighborTree.search addr
        let reachability := calcReachability nelem n2Set
        return if reachability > best.1 then (reachability, some addr) else best) best₀ =
      some best → a ∈ n1Set := by
    intro l
    induction l with
    | nil =>
        rintro best₀ - hbest heq
        obtain rfl := Option.some.inj heq
        apply hbest a ha
    | cons b l ih =>
        intro best₀ hl hbest heq
        rw [List.foldlM_cons] at heq
        obtain ⟨best₁, hone, hrest⟩ := Option.bind_eq_some_iff.mp heq
        obtain ⟨nelem, -, hone⟩ := Option.bind_eq_some_iff.mp hone
        obtain rfl := Option.some.inj hone
        apply ih _ (fun a ha => hl a (List.mem_cons_of_mem b ha)) _ hrest
        intro a' ha'
        split_ifs at ha'
        · obtain rfl := Option.some.inj ha'
          apply hl _ List.mem_cons_self
        · apply hbest a' ha'
  apply hmem n1Set.keys (0, none) (fun a ha => OrdMap.mem_keys.mp ha) _ h
  intro a' ha'
  contradiction

/-- The greedy loop chooses relays from the set it is given. -/
theorem Vouched.populateMprSetByReachability {fuel : ℕ} {n1Set n1Set' : OrdMap InAddr Unit}
    {n2Set n2Set' : OrdMap InAddr (OrdMap InAddr Unit)} (h : Vouched links edges ctx)
    (hown : ctx.ownIp ∉ links) (hdup : NotDuplicated ctx.topologyTree)
    (hn1 : ∀ a ∈ n1Set, a ∈ links)
    (hstep : OlsrContext.populateMprSetByReachability fuel ctx n1Set n2Set =
      some (ctx', n1Set', n2Set')) :
  StatusSet links edges ctx ctx' ∧ ∀ a ∈ n1Set', a ∈ links
  := by
  induction fuel generalizing ctx n1Set n2Set with
  | zero =>
      obtain ⟨rfl, hsets⟩ := Prod.mk.inj (Option.some.inj hstep)
      obtain ⟨rfl, -⟩ := Prod.mk.inj hsets
      exact ⟨⟨h, rfl, rfl⟩, hn1⟩
  | succ fuel ih =>
      have hends : some (ctx, n1Set, n2Set) = some (ctx', n1Set', n2Set') →
          StatusSet links edges ctx ctx' ∧ ∀ a ∈ n1Set', a ∈ links := by
        intro hsame
        obtain ⟨rfl, hsets⟩ := Prod.mk.inj (Option.some.inj hsame)
        obtain ⟨rfl, -⟩ := Prod.mk.inj hsets
        exact ⟨⟨h, rfl, rfl⟩, hn1⟩
      rw [OlsrContext.populateMprSetByReachability] at hstep
      split_ifs at hstep with hcount
      · apply hends hstep
      · obtain ⟨best, hbest, hstep⟩ := Option.bind_eq_some_iff.mp hstep
        cases haddr : best.2 with
        | none =>
            rw [haddr] at hstep
            apply hends hstep
        | some addr =>
            simp only [haddr, Option.bind_eq_bind, Option.bind_eq_some_iff] at hstep
            obtain ⟨ctx₁, hset, mprNeigh, -, hrest⟩ := hstep
            have hlink := hn1 addr (mem_of_getMaxReachabilityNeigh hbest haddr)
            have h₁ := h.statusSet hown hdup hlink hset
            have h₂ : Vouched links edges { ctx₁ with mprTree := ctx₁.mprTree.insert addr () } :=
              ⟨h₁.vouched.symLink, h₁.vouched.neighbor, h₁.vouched.edge, h₁.vouched.route⟩
            obtain ⟨h', hn1'⟩ := ih h₂ (by rw [h₁.ownIp]; apply hown)
              (by rw [h₁.topologyTree]; apply hdup)
              (fun a ha => hn1 a (OrdMap.mem_erase.mp ha).2) hrest
            exact ⟨⟨h'.vouched, h'.ownIp.trans h₁.ownIp, h'.topologyTree.trans h₁.topologyTree⟩,
              hn1'⟩

/-- The relays are chosen among the symmetric neighbours. -/
theorem Vouched.populateMprSet (h : Vouched links edges ctx) (hown : ctx.ownIp ∉ links)
    (hdup : NotDuplicated ctx.topologyTree) (hstep : ctx.populateMprSet = some ctx') :
  Vouched links edges ctx'
  := by
  simp only [OlsrContext.populateMprSet, Option.bind_eq_bind, Option.bind_eq_some_iff] at hstep
  obtain ⟨⟨ctx₁, n1Set₁, n2Set₁⟩, hunique, ⟨ctx₂, n1Set₂, n2Set₂⟩, hreach, hclean⟩ := hstep
  have hn1 : ∀ a ∈ calcN1Set ctx.neighborTree, a ∈ links :=
    fun a ha => h.neighbor a (mem_calcN1Set.mp ha)
  have hempty : Vouched links edges { ctx with mprTree := .empty } :=
    ⟨h.symLink, h.neighbor, h.edge, h.route⟩
  obtain ⟨h₁, hn1₁⟩ : StatusSet links edges ctx ctx₁ ∧ ∀ a ∈ n1Set₁, a ∈ links := by
    rw [addUniqueBridgeToMpr] at hunique
    cases hfirst : (selectedMprTree
        (calcN2Set ctx.ownIp ctx.neighborTree (calcN1Set ctx.neighborTree))).first with
    | none =>
        rw [hfirst] at hunique
        obtain ⟨rfl, hsets⟩ := Prod.mk.inj (Option.some.inj hunique)
        obtain ⟨rfl, -⟩ := Prod.mk.inj hsets
        exact ⟨⟨hempty, rfl, rfl⟩, hn1⟩
    | some mpr =>
        obtain ⟨mprAddr, u⟩ := mpr
        obtain ⟨x, hx⟩ := selectedMprTree_entered
          (OrdMap.mem_of_search (OrdMap.search_first hfirst))
        obtain ⟨-, -, n', hn', hsym', -⟩ := ((calcN2Set_spec _ _ _).2 x mprAddr).mp hx
        have hlink : mprAddr ∈ links := h.neighbor mprAddr ⟨n', hn', hsym'⟩
        simp only [hfirst, Option.bind_eq_bind, Option.bind_eq_some_iff, Option.pure_def,
          Option.some.injEq, Prod.mk.injEq] at hunique
        obtain ⟨mprNeigh, -, ctx₁', hset, rfl, rfl, -⟩ := hunique
        have hchosen : Vouched links edges
            { ctx with mprTree := OrdMap.insert .empty mprAddr () } :=
          ⟨h.symLink, h.neighbor, h.edge, h.route⟩
        have hset' := hchosen.statusSet hown hdup hlink hset
        exact ⟨⟨hset'.vouched, hset'.ownIp, hset'.topologyTree⟩,
          fun a ha => hn1 a (OrdMap.mem_erase.mp ha).2⟩
  have hown₁ : ctx₁.ownIp ∉ links := by rwa [h₁.ownIp]
  have hdup₁ : NotDuplicated ctx₁.topologyTree := by rwa [h₁.topologyTree]
  obtain ⟨h₂, hn1₂⟩ := h₁.vouched.populateMprSetByReachability hown₁ hdup₁ hn1₁ hreach
  have hown₂ : ctx₂.ownIp ∉ links := by rwa [h₂.ownIp]
  have hdup₂ : NotDuplicated ctx₂.topologyTree := by rwa [h₂.topologyTree]
  split_ifs at hclean
  · have h₃ : Vouched links edges { ctx₂ with ansn := ctx₂.ansn + 1 } :=
      ⟨h₂.vouched.symLink, h₂.vouched.neighbor, h₂.vouched.edge, h₂.vouched.route⟩
    apply h₃.cleanN1Set hown₂ hdup₂ hn1₂ hclean
  · apply h₂.vouched.cleanN1Set hown₂ hdup₂ hn1₂ hclean

/-! ### Handlers -/

/-- A HELLO keeps what a node relies on vouched for, if its sender is when the HELLO lists this
node. -/
theorem Vouched.processOlsrHello (h : Vouched links edges ctx) (hsound : ctx.Sound)
    (hown : ctx.ownIp ∉ links) {src orig : InAddr} {hello : HelloMsg} {vtime : ℕ}
    (hsrc : linkcodeToMe ctx.ownIp hello.helloInfo ≠ statusUnavailable → src ∈ links)
    (hstep : ctx.processOlsrHello src orig hello vtime = some ctx') :
  Vouched links edges ctx'
  := by
  simp only [OlsrContext.processOlsrHello, Option.bind_eq_bind, Option.bind_eq_some_iff] at hstep
  obtain ⟨ctx₁, htouch, ctx₂, hlinkset, ctx₃, hupdate, neigh, -, hstep⟩ := hstep
  have hiface : (ctx.findNeighbor src hello.willingness).ownIp ∈
      (ctx.findNeighbor src hello.willingness).localIfaceTree := OrdMap.mem_insert.mpr (Or.inl rfl)
  obtain ⟨hc₁, hlocal₁⟩ := (hsound.consistent.findNeighbor src hello.willingness).touchLink hiface
    (OrdMap.mem_insert.mpr (Or.inl rfl)) htouch
  have h₁ := (h.findNeighbor src hello.willingness).touchLink hiface htouch
  have hown₁ : ctx₁.ownIp = ctx.ownIp := hlocal₁.ownIp
  have hdup₁ : NotDuplicated ctx₁.topologyTree := by
    rw [hlocal₁.topologyTree]
    apply hsound.notDuplicated
  obtain ⟨hc₂, hlocal₂⟩ := hc₁.populateLinkset hdup₁ hlinkset
  have h₂ := h₁.populateLinkset (by rwa [hown₁]) hdup₁ (by rwa [hown₁]) hlinkset
  have hown₂ : ctx₂.ownIp ∉ links := by rwa [hlocal₂.ownIp, hown₁]
  have hdup₂ : NotDuplicated ctx₂.topologyTree := by rwa [hlocal₂.topologyTree]
  have h₃ := h₂.updateNeighborStatus hown₂ hdup₂ hupdate
  obtain ⟨-, -, -, hlocal₃⟩ := updateNeighborStatus_inv hupdate hdup₂
  have hc₃ := hc₂.updateNeighborStatus hupdate hdup₂
  have hown₃ : ctx₃.ownIp ∉ links := by rwa [hlocal₃.ownIp]
  have hdup₃ : NotDuplicated ctx₃.topologyTree := by rwa [hlocal₃.topologyTree]
  split_ifs at hstep
  · obtain ⟨ctx₄, hneigh2, hmpr⟩ := Option.bind_eq_some_iff.mp hstep
    obtain ⟨-, hlocal₄⟩ := hc₃.populateNeigh2set hneigh2
    apply (h₃.populateNeigh2set hneigh2).populateMprSet _ _ hmpr
    · rwa [hlocal₄.ownIp]
    · rwa [hlocal₄.topologyTree]
  · apply h₃.populateMprSet hown₃ hdup₃ hstep

/-- What an originator advertises after a TC was advertised before, or is listed. -/
theorem mem_updateAdvertised {anTree : OrdMap InAddr AdvertisedNeighElem} {neigh : List InAddr}
    {a : InAddr} (h : a ∈ (updateAdvertised anTree neigh).1) :
  a ∈ anTree ∨ a ∈ neigh
  := by
  rw [OrdMap.mem_iff, updateAdvertised_fst, search_removeObsolute] at h
  obtain ⟨aelem, haelem⟩ := h
  split_ifs at haelem
  rcases mem_foldl_advertise.mp (OrdMap.mem_of_search haelem) with hold | hnew
  · left
    apply OrdMap.mem_mapIdx.mp hold
  · right
    apply hnew

/-- A TC keeps what a node relies on vouched for, if what it lists is. -/
theorem Vouched.processOlsrTc (h : Vouched links edges ctx) (hsound : ctx.Sound)
    (hown : ctx.ownIp ∉ links) {src orig : InAddr} {msg : TcMsg} {vtime : ℕ}
    (hlisted : ∀ a ∈ msg.neigh, edges orig a)
    (hstep : ctx.processOlsrTc msg src orig vtime = some ctx') :
  Vouched links edges ctx'
  := by
  have hdup := hsound.notDuplicated
  rw [OlsrContext.processOlsrTc] at hstep
  cases hneigh : ctx.neighborTree.search src with
  | none =>
      rw [hneigh] at hstep
      obtain rfl := Option.some.inj hstep
      apply h
  | some neigh =>
      simp only [hneigh] at hstep
      split_ifs at hstep
      · simp only [Option.bind_eq_bind, Option.bind_eq_some_iff] at hstep
        obtain ⟨ctx₁, hfind, telem, htelem, hstep⟩ := hstep
        obtain ⟨tq₁, nextId₁, topo₁, rfl, hdup₁, hadv₁, -⟩ := findTopology_inv hfind htelem hdup
        have h₁ : Vouched links edges { ctx with
            timerqueue := tq₁, nextId := nextId₁, topologyTree := topo₁ } :=
          ⟨h.symLink, h.neighbor, fun d a ha => h.edge d a ((hadv₁ d a).mp ha), h.route⟩
        split_ifs at hstep
        · obtain rfl := Option.some.inj hstep
          apply h₁
        · simp only [acceptTc, Option.bind_eq_bind, Option.bind_eq_some_iff, Option.pure_def,
            Option.some.injEq] at hstep
          obtain ⟨tq, -, hstep⟩ := hstep
          have hdup₂ : NotDuplicated (acceptedTopology topo₁ orig telem msg) :=
            notDuplicated_acceptedTopology hdup₁ htelem msg
          have h₂ : Vouched links edges { ctx with
              timerqueue := tq, nextId := nextId₁
              topologyTree := acceptedTopology topo₁ orig telem msg } := by
            refine ⟨h.symLink, h.neighbor, ?_, h.route⟩
            rintro d a ⟨telem', htelem', ha⟩
            rw [acceptedTopology, OrdMap.search_modify] at htelem'
            split_ifs at htelem' with hd
            · obtain ⟨old, -, rfl⟩ := Option.map_eq_some_iff.mp htelem'
              rw [hd]
              rcases mem_updateAdvertised ha with hold | hnew
              · exact h₁.edge orig a ⟨telem, htelem, hold⟩
              · apply hlisted a hnew
            · exact h₁.edge d a ⟨telem', htelem', ha⟩
          split_ifs at hstep
          · rw [← hstep]
            apply h₂.calcRoutingTable hown hdup₂
          · rw [← hstep]
            apply h₂
      · obtain rfl := Option.some.inj hstep
        apply h

/-- The expiry of a topology entry takes advertisements away. -/
theorem Vouched.topologyInfoTimerExpireCb (h : Vouched links edges ctx) (hsound : ctx.Sound)
    (hown : ctx.ownIp ∉ links) {arg : Ptr InAddr}
    (hstep : ctx.topologyInfoTimerExpireCb arg = some ctx') :
  Vouched links edges ctx'
  := by
  simp only [OlsrContext.topologyInfoTimerExpireCb, Option.bind_eq_bind, Option.bind_eq_some_iff,
    Option.pure_def, Option.some.injEq] at hstep
  obtain ⟨telem, -, tq, -, rfl⟩ := hstep
  have hold : ∀ d t, (ctx.topologyTree.erase arg.key).search d = some t →
      ctx.topologyTree.search d = some t := by
    intro d t ht
    rw [OrdMap.search_erase] at ht
    split_ifs at ht
    apply ht
  have herased : Vouched links edges { ctx with
      timerqueue := tq, topologyTree := ctx.topologyTree.erase arg.key } := by
    refine ⟨h.symLink, h.neighbor, ?_, h.route⟩
    rintro d a ⟨t, ht, ha⟩
    exact h.edge d a ⟨t, hold d t ht, ha⟩
  apply herased.calcRoutingTable hown
  intro d t ht
  apply hsound.notDuplicated d t (hold d t ht)

/-- The expiry of a link takes the link away. -/
theorem Vouched.linkTimerExpire (h : Vouched links edges ctx) (hsound : ctx.Sound)
    (hown : ctx.ownIp ∉ links) {arg : Ptr (InAddr × InAddr)}
    (hstep : ctx.linkTimerExpire arg = some ctx') :
  Vouched links edges ctx'
  := by
  simp only [OlsrContext.linkTimerExpire, updateNeighborStateByLinkChange, Option.bind_eq_bind,
    Option.bind_eq_some_iff] at hstep
  obtain ⟨link, -, tq₁, -, tq₂, -, tq, -, -, -, hupdate⟩ := hstep
  have herased : Vouched links edges
      (OlsrContext.eraseLink { ctx with timerqueue := tq } link.localIfaceAddr arg.key.2) := by
    refine ⟨?_, h.neighbor, h.edge, h.route⟩
    rintro a ⟨i, l, hl, hstatus⟩
    rw [searchLink_eraseLink] at hl
    split_ifs at hl
    exact h.symLink a ⟨i, l, hl, hstatus⟩
  apply herased.updateNeighborStatus hown hsound.notDuplicated hupdate

/-- Every handler keeps what a node relies on vouched for. -/
theorem Vouched.handler (h : Vouched links edges ctx) (hsound : ctx.Sound)
    (hown : ctx.ownIp ∉ links) {handler : Handler}
    (hhello : ∀ src orig hello vtime, handler = .hello src orig hello vtime →
      linkcodeToMe ctx.ownIp hello.helloInfo ≠ statusUnavailable → src ∈ links)
    (htc : ∀ src orig tc vtime, handler = .tc src orig tc vtime → ∀ a ∈ tc.neigh, edges orig a)
    (hrun : handler.run ctx = some ctx') :
  Vouched links edges ctx'
  := by
  cases handler with
  | hello src orig hello vtime =>
      apply h.processOlsrHello hsound hown (hhello src orig hello vtime rfl) hrun
  | tc src orig tc vtime => apply h.processOlsrTc hsound hown (htc src orig tc vtime rfl) hrun
  | link arg => apply h.linkTimerExpire hsound hown hrun
  | neigh2 arg =>
      obtain ⟨neigh, -, -, hchange⟩ := neigh2ElemExpire_inv hsound.consistent hrun
      apply h.neigh2Change hchange
  | topology arg => apply h.topologyInfoTimerExpireCb hsound hown hrun

theorem Vouched.quiet (h : Vouched links edges ctx) (hquiet : Quiet ctx ctx') :
  Vouched links edges ctx'
  := by
  obtain ⟨hown, hifaces, hneighbors, -, htopology, htable⟩ := hquiet
  constructor
  · rintro a ⟨i, link, hlink, hstatus⟩
    rw [searchLink, hifaces] at hlink
    exact h.symLink a ⟨i, link, hlink, hstatus⟩
  · rw [hneighbors]
    apply h.neighbor
  · rw [htopology]
    apply h.edge
  · rw [htable, hown]
    apply h.route

theorem msgHandler_hello {src s orig : InAddr} {msg : OlsrMsg} {hello : HelloMsg} {vtime : ℕ}
    (h : ctx.msgHandler src msg = some (.hello s orig hello vtime)) :
  s = src ∧ msg.payload = .hello hello ∧ ctx.processesHello src msg = true
  := by
  have hprocesses : ctx.processesHello src msg = true := by
    rw [processesHello, h]
    rfl
  rw [msgHandler] at h
  split_ifs at h
  cases hpayload : msg.payload with
  | hello hello' =>
      rw [hpayload] at h
      obtain ⟨rfl, -, rfl, -⟩ := Handler.hello.inj (Option.some.inj h)
      exact ⟨rfl, rfl, hprocesses⟩
  | tc tc => simp [hpayload] at h
  | other msgtype length => simp [hpayload] at h

theorem msgHandler_tc {src s orig : InAddr} {msg : OlsrMsg} {tc : TcMsg} {vtime : ℕ}
    (h : ctx.msgHandler src msg = some (.tc s orig tc vtime)) :
  orig = msg.originator ∧ msg.payload = .tc tc
  := by
  rw [msgHandler] at h
  split_ifs at h
  cases hpayload : msg.payload with
  | hello hello => simp [hpayload] at h
  | tc tc' =>
      rw [hpayload] at h
      obtain ⟨-, rfl, rfl, -⟩ := Handler.tc.inj (Option.some.inj h)
      exact ⟨rfl, rfl⟩
  | other msgtype length => simp [hpayload] at h

/-- A step keeps what a node relies on vouched for, if the message it handles is. -/
theorem Vouched.step {e : NodeEvent} (h : Vouched links edges ctx) (hsound : ctx.Sound)
    (hown : ctx.ownIp ∉ links)
    (hhello : ∀ src orig hello vtime, ctx.handlerOf e = some (.hello src orig hello vtime) →
      linkcodeToMe ctx.ownIp hello.helloInfo ≠ statusUnavailable → src ∈ links)
    (htc : ∀ src orig tc vtime, ctx.handlerOf e = some (.tc src orig tc vtime) →
      ∀ a ∈ tc.neigh, edges orig a)
    (hstep : nodeStep ctx e = some ctx') :
  Vouched links edges ctx'
  := by
  rcases nodeStep_inv hstep with hquiet | ⟨handler, ctx₁, ctx₂, hhandler, hbefore, hrun, hafter⟩
  · apply h.quiet hquiet
  · apply Vouched.quiet _ hafter
    apply (h.quiet hbefore).handler (hsound.quiet hbefore) (by rwa [hbefore.ownIp]) _ _ hrun
    · rintro src orig hello vtime rfl
      rw [hbefore.ownIp]
      apply hhello src orig hello vtime hhandler
    · rintro src orig tc vtime rfl
      apply htc src orig tc vtime hhandler

end OlsrContext

/-! ### The network -/

namespace HelloNet

variable {ι : Type} {ip : ι → InAddr} {net net' : HelloNet ι}

/-- The nodes `u` and `v` have each processed a HELLO that the other one has built. -/
structure Confirmed (net : HelloNet ι) (u v : ι) : Prop where
  ne : u ≠ v
  left : net.HasProcessed u v
  right : net.HasProcessed v u

theorem Confirmed.mono {u v : ι} (h : net.Confirmed u v) (hrecords : net.Records net') :
  net'.Confirmed u v
  := ⟨h.ne, h.left.mono hrecords, h.right.mono hrecords⟩

theorem Confirmed.symm {u v : ι} (h : net.Confirmed u v) :
  net.Confirmed v u
  := ⟨h.ne.symm, h.right, h.left⟩

/-- The addresses of the nodes that are confirmed with `u`. -/
def confirmedLinks (ip : ι → InAddr) (net : HelloNet ι) (u : ι) : Set InAddr :=
  { a | ∃ v, ip v = a ∧ net.Confirmed u v }

/-- The pairs of addresses of confirmed nodes. -/
def ConfirmedEdge (ip : ι → InAddr) (net : HelloNet ι) (d a : InAddr) : Prop :=
  ∃ u v, ip u = d ∧ ip v = a ∧ net.Confirmed u v

theorem confirmedLinks_mono (hrecords : net.Records net') (u : ι) :
  confirmedLinks ip net u ⊆ confirmedLinks ip net' u
  := by
  rintro a ⟨v, hv, hconfirmed⟩
  exact ⟨v, hv, hconfirmed.mono hrecords⟩

theorem ConfirmedEdge.mono {d a : InAddr} (h : ConfirmedEdge ip net d a)
    (hrecords : net.Records net') :
  ConfirmedEdge ip net' d a
  := by
  obtain ⟨u, v, hu, hv, hconfirmed⟩ := h
  exact ⟨u, v, hu, hv, hconfirmed.mono hrecords⟩

/-- What a network keeps true: MPR selectors and all that nodes rely on for their routes are
confirmed, and so is what the TCs list that are waiting or sent. -/
structure Certified (ip : ι → InAddr) (net : HelloNet ι) : Prop where
  caused : Caused ip net
  selector : ∀ u a, (net.nodes u).BearsSelector a → a ∈ confirmedLinks ip net u
  vouched : ∀ u, OlsrContext.Vouched (confirmedLinks ip net u) (ConfirmedEdge ip net) (net.nodes u)
  queued : ∀ v, ∀ msg ∈ (net.nodes v).queued, ∀ tc, msg.payload = .tc tc →
    ∀ a ∈ tc.neigh, ConfirmedEdge ip net msg.originator a

theorem Certified.ownIp_not_mem (h : Certified ip net) (hip : Function.Injective ip)
    (net' : HelloNet ι) (u : ι) :
  (net.nodes u).ownIp ∉ confirmedLinks ip net' u
  := by
  rw [h.caused.ownIp]
  rintro ⟨v, hv, hconfirmed⟩
  apply hconfirmed.ne (hip hv).symm

variable [DecidableEq ι]

/-- A step of one node keeps the invariant if what the node relies on is confirmed, and the TCs it
puts into its queue list what is. -/
theorem Certified.update {u : ι} {ctx : OlsrContext} (h : Certified ip net)
    (hcaused : Caused ip net') (hnodes : net'.nodes = Function.update net.nodes u ctx)
    (hrecords : net.Records net')
    (hselector : ∀ a, ctx.BearsSelector a →
      (net.nodes u).BearsSelector a ∨ a ∈ confirmedLinks ip net' u)
    (hvouched :
      OlsrContext.Vouched (confirmedLinks ip net' u) (ConfirmedEdge ip net') (net.nodes u) →
      OlsrContext.Vouched (confirmedLinks ip net' u) (ConfirmedEdge ip net') ctx)
    (hqueued : ∀ msg ∈ ctx.queued, msg ∈ (net.nodes u).queued ∨
      ∀ tc, msg.payload = .tc tc → ∀ a ∈ tc.neigh, ConfirmedEdge ip net' msg.originator a) :
  Certified ip net'
  := by
  have hold : ∀ v, OlsrContext.Vouched (confirmedLinks ip net' v) (ConfirmedEdge ip net')
      (net.nodes v) := by
    intro v
    apply (h.vouched v).mono (confirmedLinks_mono hrecords v)
    intro d a hda
    apply hda.mono hrecords
  have hnode : ∀ v, v = u ∧ net'.nodes v = ctx ∨ net'.nodes v = net.nodes v := by
    intro v
    by_cases hv : v = u
    · left
      rw [hv, hnodes, Function.update_self]
      exact ⟨rfl, rfl⟩
    · right
      rw [hnodes, Function.update_of_ne hv]
  refine ⟨hcaused, ?_, ?_, ?_⟩
  · intro v a ha
    rcases hnode v with ⟨rfl, hv⟩ | hv
    · rw [hv] at ha
      rcases hselector a ha with hbefore | hnew
      · apply confirmedLinks_mono hrecords v (h.selector v a hbefore)
      · apply hnew
    · rw [hv] at ha
      apply confirmedLinks_mono hrecords v (h.selector v a ha)
  · intro v
    rcases hnode v with ⟨rfl, hv⟩ | hv
    · rw [hv]
      apply hvouched (hold v)
    · rw [hv]
      apply hold v
  · intro v msg hmsg tc htc a ha
    have hbefore : msg ∈ (net.nodes v).queued → ConfirmedEdge ip net' msg.originator a := by
      intro hbefore
      apply (h.queued v msg hbefore tc htc a ha).mono hrecords
    rcases hnode v with ⟨rfl, hv⟩ | hv
    · rw [hv] at hmsg
      rcases hqueued msg hmsg with hmsg | hnew
      · apply hbefore hmsg
      · apply hnew tc htc a ha
    · rw [hv] at hmsg
      apply hbefore hmsg

/-- A round of the timer queue of a node keeps the invariant. -/
theorem Certified.work {u : ι} {now currtime : Timespec} {rand : ℕ} (h : Certified ip net)
    (hip : Function.Injective ip) (hstep : net.step (.work u now currtime rand) = some net') :
  Certified ip net'
  := by
  have hcaused := h.caused.step hip hstep
  obtain ⟨ctx, hctx, hnet⟩ := Option.bind_eq_some_iff.mp hstep
  have hrecords : net.Records net' := by
    obtain rfl := Option.some.inj hnet
    exact ⟨List.subset_append_left _ _, List.Subset.refl _⟩
  have hnodes : net'.nodes = Function.update net.nodes u ctx := by
    obtain rfl := Option.some.inj hnet
    rfl
  have hsound := h.caused.sound u
  -- The callback of a timer is not a handler of messages.
  have hcallback : ∀ handler, (net.nodes u).handlerOf (.work now currtime rand) = some handler →
      ∃ c, OlsrContext.callbackHandler c = some handler := by
    intro handler hhandler
    obtain ⟨c, -, hc⟩ := Option.bind_eq_some_iff.mp hhandler
    exact ⟨c, hc⟩
  have hlearns : OlsrContext.Learns Set.univ Set.univ ∅ (net.nodes u) ctx :=
    OlsrContext.work_learns hsound hctx
  apply h.update hcaused hnodes hrecords
  · intro a ha
    left
    exact (hlearns.selector a ha).resolve_right (Set.notMem_empty a)
  · intro hvouched
    apply hvouched.step hsound (h.ownIp_not_mem hip net' u) _ _ hctx
    · intro src orig hello vtime hhandler
      obtain ⟨c, hc⟩ := hcallback _ hhandler
      cases c <;> simp [OlsrContext.callbackHandler] at hc
    · intro src orig tc vtime hhandler
      obtain ⟨c, hc⟩ := hcallback _ hhandler
      cases c <;> simp [OlsrContext.callbackHandler] at hc
  · intro msg hmsg
    rcases (OlsrContext.workRound_queue hsound hctx).1 with
      hqueue | ⟨m, horiginates, -, hqueue⟩ | hqueue
    · left
      rwa [queued_of_enqueues hqueue, List.append_nil] at hmsg
    · rw [queued_of_enqueues hqueue] at hmsg
      rcases List.mem_append.mp hmsg with hold | hnew
      · left
        apply hold
      · right
        intro tc htc a ha
        obtain rfl := List.mem_singleton.mp hnew
        obtain ⟨c, -, hbuilds⟩ := Option.bind_eq_some_iff.mp horiginates
        -- A TC lists the MPR selectors of its originator.
        have hown : msg = (net.nodes u).ownTc := by
          cases c with
          | olsrHelloTimerCb =>
              obtain rfl := Option.some.inj hbuilds
              contradiction
          | olsrTcTimerCb => apply (Option.some.inj hbuilds).symm
          | _ => contradiction
        subst hown
        obtain rfl := MsgPayload.tc.inj htc
        obtain ⟨v, hv, hconfirmed⟩ := h.selector u a (Or.inl (OrdMap.mem_keys.mp ha))
        exact ⟨u, v, (h.caused.ownIp u).symm, hv, hconfirmed.mono hrecords⟩
    · left
      rwa [queued_of_flushes hqueue] at hmsg

/-- What a node has put into its queue when it has received a message: what it had, and maybe a
copy of the message. -/
theorem recv_copies {ctx ctx' : OlsrContext} {now : Timespec} {src : InAddr} {msg : OlsrMsg}
    (h : ctx.Sound) (hstep : nodeStep ctx (.recv now src msg) = some ctx') :
  ∀ m ∈ ctx'.queued, m ∈ ctx.queued ∨ m.CopyOf msg
  := by
  intro m hm
  have hclock : OlsrContext.Sound { ctx with clock := now } := h.quiet OlsrContext.Quiet.of_eq
  rcases OlsrContext.handleOlsrMsg_queue hclock hstep with rfl | ⟨-, hforwards⟩
  · left
    apply hm
  · rcases hforwards.queue with hqueue | ⟨m', hcopy, hqueue⟩
    · left
      rwa [queued_of_enqueues hqueue, List.append_nil] at hm
    · rw [queued_of_enqueues hqueue] at hm
      rcases List.mem_append.mp hm with hold | hnew
      · left
        apply hold
      · right
        rwa [List.mem_singleton.mp hnew]

omit [DecidableEq ι] in
/-- A HELLO that lists its receiver confirms the two nodes. -/
theorem Caused.confirmed (hip : Function.Injective ip) {u v : ι} {msg : OlsrMsg} {hello : HelloMsg}
    (h : Caused ip net) (hrecords : net.Records net') (hmsg : msg ∈ (net.nodes v).queued)
    (hhello : msg.payload = .hello hello) (hother : msg.originator ≠ (net.nodes u).ownIp)
    (hprocessed : ⟨u, v, msg⟩ ∈ net'.processed)
    (hlisted : OlsrContext.linkcodeToMe (net.nodes u).ownIp hello.helloInfo ≠ statusUnavailable) :
  msg.originator = ip v ∧ net'.Confirmed u v
  := by
  obtain ⟨b, hb, rfl, rfl⟩ := h.queued v msg hmsg hello hhello
  have htruthful := h.built b hb hello hhello
  refine ⟨htruthful.originator, ?_, ⟨b, hrecords.built hb, rfl, hprocessed⟩, ?_⟩
  · rintro rfl
    rw [h.ownIp] at hother
    apply hother htruthful.originator
  · obtain ⟨info, hinfo, hme, -⟩ := OlsrContext.linkcodeToMe_mem hlisted
    rw [h.ownIp] at hme
    obtain ⟨w, hw, hheard⟩ := htruthful.heard info hinfo (ip u) hme
    rw [hip hw] at hheard
    apply hheard.mono hrecords

/-- The arrival of a message keeps the invariant. -/
theorem Certified.deliver {u v : ι} {k i : ℕ} {now : Timespec} (h : Certified ip net)
    (hip : Function.Injective ip) (hstep : net.step (.deliver u v k i now) = some net') :
  Certified ip net'
  := by
  have hcaused := h.caused.step hip hstep
  obtain ⟨pkt, hpkt, hstep⟩ := Option.bind_eq_some_iff.mp hstep
  obtain ⟨msg, hmsg, hstep⟩ := Option.bind_eq_some_iff.mp hstep
  obtain ⟨ctx, hctx, hnet⟩ := Option.bind_eq_some_iff.mp hstep
  have hpkt' := List.mem_of_getElem? hpkt
  have hsrc : pkt.src = ip v := h.caused.src v pkt hpkt'
  have hmsgv : msg ∈ (net.nodes v).queued :=
    List.mem_append_left _ (List.mem_flatMap.mpr ⟨pkt, hpkt', List.mem_of_getElem? hmsg⟩)
  have hrecords : net.Records net' := by
    obtain rfl := Option.some.inj hnet
    exact ⟨List.Subset.refl _, List.subset_append_left _ _⟩
  have hnodes : net'.nodes = Function.update net.nodes u ctx := by
    obtain rfl := Option.some.inj hnet
    rfl
  have hsound := h.caused.sound u
  -- A HELLO that is processed and lists the receiver confirms the two nodes.
  have hconfirmed : ∀ hello, msg.payload = .hello hello →
      (net.nodes u).processesHello pkt.src msg = true →
      OlsrContext.linkcodeToMe (net.nodes u).ownIp hello.helloInfo ≠ statusUnavailable →
      msg.originator = ip v ∧ net'.Confirmed u v := by
    intro hello hhello hprocesses hlisted
    have hprocessed : ⟨u, v, msg⟩ ∈ net'.processed := by
      obtain rfl := Option.some.inj hnet
      rw [if_pos hprocesses]
      apply List.mem_append_right _ (List.mem_singleton_self _)
    exact h.caused.confirmed hip hrecords hmsgv hhello
      (OlsrContext.processesHello_iff.mp hprocesses).1 hprocessed hlisted
  apply h.update hcaused hnodes hrecords
  · have hlearns : OlsrContext.Learns Set.univ Set.univ (confirmedLinks ip net' u)
        (net.nodes u) ctx := by
      apply OlsrContext.recv_learns hsound (fun _ => Set.mem_univ _)
        (fun _ _ _ _ => Set.mem_univ _) _ hctx
      intro hprocesses hello hhello hlisted _
      obtain ⟨horig, hboth⟩ := hconfirmed hello hhello hprocesses hlisted
      exact ⟨v, horig.symm, hboth⟩
    apply hlearns.selector
  · intro hvouched
    apply hvouched.step hsound (h.ownIp_not_mem hip net' u) _ _ hctx
    · intro src orig hello vtime hhandler hlisted
      obtain ⟨rfl, hhello, hprocesses⟩ := OlsrContext.msgHandler_hello hhandler
      obtain ⟨-, hboth⟩ := hconfirmed hello hhello hprocesses hlisted
      exact ⟨v, hsrc.symm, hboth⟩
    · intro src orig tc vtime hhandler a ha
      obtain ⟨rfl, htc⟩ := OlsrContext.msgHandler_tc hhandler
      apply (h.queued v msg hmsgv tc htc a ha).mono hrecords
  · intro m hm
    rcases recv_copies hsound hctx m hm with hold | hcopy
    · left
      apply hold
    · right
      intro tc htc a ha
      rw [OlsrMsg.CopyOf] at hcopy
      rw [hcopy] at htc ⊢
      apply (h.queued v msg hmsgv tc htc a ha).mono hrecords

theorem Certified.step {e : HelloEvent ι} (h : Certified ip net) (hip : Function.Injective ip)
    (hstep : net.step e = some net') :
  Certified ip net'
  := by
  cases e with
  | work u now currtime rand => apply h.work hip hstep
  | deliver u v k i now => apply h.deliver hip hstep

omit [DecidableEq ι] in
/-- Nodes that have just started rely on nothing. -/
theorem Starts.certified (h : Starts ip net) :
  Certified ip net
  := by
  have hempty : ∀ u, (net.nodes u).localIfaceTree = .empty ∧ (net.nodes u).neighborTree = .empty ∧
      (net.nodes u).topologyTree = .empty ∧ (net.nodes u).routingTable = .empty ∧
      (net.nodes u).selectorTree = .empty ∧ (net.nodes u).selectorElems = .empty ∧
      (net.nodes u).queued = [] := by
    intro u
    obtain ⟨now, hstart⟩ := h.nodes u
    obtain ⟨tq, htq⟩ := OlsrContext.olsrStart_inv hstart
    rw [htq]
    exact ⟨rfl, rfl, rfl, rfl, rfl, rfl, rfl⟩
  refine ⟨h.caused, ?_, ?_, ?_⟩
  · intro u a ha
    obtain ⟨-, -, -, -, htree, helems, -⟩ := hempty u
    rcases ha with ha | ⟨id, elem, helem, -⟩
    · rw [htree] at ha
      apply absurd ha (OrdMap.not_mem_empty a)
    · rw [helems] at helem
      contradiction
  · intro u
    obtain ⟨hifaces, hneighbors, htopology, htable, -⟩ := hempty u
    constructor
    · rintro a ⟨i, link, hlink, -⟩
      rw [OlsrContext.searchLink, hifaces] at hlink
      contradiction
    · rintro a ⟨n, hn, -⟩
      rw [hneighbors] at hn
      contradiction
    · rintro d a ⟨telem, htelem, -⟩
      rw [htopology] at htelem
      contradiction
    · intro a entry hentry
      rw [htable] at hentry
      contradiction
  · intro v msg hmsg
    obtain ⟨-, -, -, -, -, -, hqueued⟩ := hempty v
    rw [hqueued] at hmsg
    contradiction

omit [DecidableEq ι] in
/-- A route over confirmed edges goes through nodes. -/
theorem exists_path (hip : Function.Injective ip) {u : ι} {s : InAddr} {route : List InAddr}
    (hs : s ∈ confirmedLinks ip net u)
    (hchain : (s :: route).IsChain
      (fun d b => ConfirmedEdge ip net d b ∨ ConfirmedEdge ip net b d)) :
  ∃ path : List ι, s :: route = path.map ip ∧ (u :: path).IsChain net.Confirmed
  := by
  induction route generalizing u s with
  | nil =>
      obtain ⟨v, rfl, hconfirmed⟩ := hs
      exact ⟨[v], rfl, List.isChain_pair.mpr hconfirmed⟩
  | cons b route ih =>
      obtain ⟨v, rfl, hconfirmed⟩ := hs
      obtain ⟨hedge, hrest⟩ := List.isChain_cons_cons.mp hchain
      have hb : b ∈ confirmedLinks ip net v := by
        rcases hedge with ⟨w, x, hw, rfl, hwx⟩ | ⟨w, x, rfl, hx, hwx⟩
        · rw [hip hw] at hwx
          exact ⟨x, rfl, hwx⟩
        · rw [hip hx] at hwx
          exact ⟨w, rfl, hwx.symm⟩
      obtain ⟨path, hpath, hconfirmedPath⟩ := ih hb hrest
      exact ⟨v :: path, by rw [List.map_cons, hpath],
        List.isChain_cons_cons.mpr ⟨hconfirmed, hconfirmedPath⟩⟩

omit [DecidableEq ι] in
/-- An entry of a routing table leads to a node, over confirmed nodes. -/
theorem Certified.path (h : Certified ip net) (hip : Function.Injective ip) {u : ι} {a : InAddr}
    {entry : RoutingEntry} (hentry : (net.nodes u).routingTable.search a = some entry) :
  ∃ path : List ι, entry.route = path.map ip ∧ path.length = entry.hopCount ∧
    path.getLast?.map ip = some a ∧ (u :: path).Nodup ∧ (u :: path).IsChain net.Confirmed
  := by
  have hroute := (h.vouched u).route a entry hentry
  obtain ⟨s, hs, hfirst⟩ := hroute.first
  obtain ⟨rest, hrest⟩ := List.head?_eq_some_iff.mp hfirst
  have hchain := hroute.chain
  have hlength := hroute.length
  have hlast := hroute.last
  have hown := hroute.own
  have hnodup := hroute.nodup
  rw [hrest] at hchain
  obtain ⟨path, hpath, hconfirmed⟩ := exists_path hip hs hchain
  rw [hrest, hpath] at hlength hlast hown hnodup
  refine ⟨path, hrest.trans hpath, ?_, ?_, ?_, hconfirmed⟩
  · rw [← hlength, List.length_map]
  · rw [← hlast, List.getLast?_map]
  · rw [List.nodup_cons]
    refine ⟨?_, List.Nodup.of_map ip hnodup⟩
    intro hu
    apply hown
    rw [h.caused.ownIp]
    apply List.mem_map_of_mem hu

/-- In every network of nodes with different addresses, however their steps and the arrivals of
their messages are ordered, whatever is lost or arrives twice, and whatever expires: an entry of a
routing table leads to a node, through nodes that are all different, and any two nodes that follow
each other on this route have each processed a HELLO which the other one has built. -/
theorem routes_confirmed (hip : Function.Injective ip) {start : HelloNet ι}
    (hstart : Starts ip start) (h : Reaches step (fun _ _ => True) start net) (u : ι) {a : InAddr}
    {entry : RoutingEntry} (hentry : (net.nodes u).routingTable.search a = some entry) :
  ∃ path : List ι, entry.route = path.map ip ∧ path.length = entry.hopCount ∧
    path.getLast?.map ip = some a ∧ (u :: path).Nodup ∧ (u :: path).IsChain net.Confirmed
  := by
  have hcertified : Certified ip net :=
    h.invariant (fun _ _ _ hs _ hstep => hs.step hip hstep) hstart.certified
  apply hcertified.path hip hentry

theorem routes_confirmed_three :
  ∃ net entry, Reaches step (fun _ _ => True) threeStart net ∧
    (net.nodes 0).routingTable.search (threeIp 1) = some entry ∧
    ∃ path : List (Fin 3), entry.route = path.map threeIp ∧ path.length = entry.hopCount ∧
      path.getLast?.map threeIp = some (threeIp 1) ∧ (0 :: path).Nodup ∧
      (0 :: path).IsChain net.Confirmed
  := by
  have hip : Function.Injective threeIp := by
    rw [Function.Injective]
    decide +kernel
  have hrun : ((threeEvents.foldlM step threeStart).map (fun net =>
      decide (threeIp 1 ∈ (net.nodes 0).routingTable))) = some true := by
    decide +kernel
  obtain ⟨net, hnet, hmem⟩ := Option.map_eq_some_iff.mp hrun
  obtain ⟨entry, hentry⟩ := OrdMap.mem_iff.mp (of_decide_eq_true hmem)
  have hreach : Reaches step (fun _ _ => True) threeStart net := Reaches.of_foldlM hnet
  exact ⟨net, entry, hreach, hentry, routes_confirmed hip threeStart_starts hreach 0 hentry⟩

end HelloNet
