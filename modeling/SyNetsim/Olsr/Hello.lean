import SyNetsim.Olsr.Consistency

/-!
# HELLO messages

`olsr_hello.c`: a HELLO lists the links of its sender with their statuses. A node that
receives one finds its own address in it, and updates the link to the sender, the set of
nodes that chose it as a relay, the two-hop neighbours and the relays.

The capacity of the buffer a HELLO is written to is left aside.
-/

namespace OlsrContext

/-! ### Building a HELLO -/

/-- `hello_write_links_with_code`: the group of the neighbours with link code `code`, unless
it is empty. -/
def helloWriteLinksWithCode (ctx : OlsrContext) (code : BitVec 8) : List HelloInfo :=
  let neighAddr := ctx.localIfaceTree.entries.flatMap (fun ielem =>
    (ielem.2.ifaceLinkTree.entries.filter (fun lelem =>
      ctx.getNeighborStatus lelem.1 ≠ .unavailable ∧
        createLinkCode (ctx.getNeighborStatus lelem.1).code lelem.2.status.code = code)).map
      Prod.fst)
  if neighAddr.length = 0 then [] else [⟨code, neighAddr⟩]

/-- `hello_write_links`: the groups of all codes. -/
def helloWriteLinks (ctx : OlsrContext) : List HelloInfo :=
  (List.range neighborStatusEnd).flatMap (fun nstat =>
    (List.range linkStatusEnd).flatMap (fun lstat =>
      ctx.helloWriteLinksWithCode (createLinkCode (.ofNat 8 nstat) (.ofNat 8 lstat))))

/-- `build_olsr_hello`. -/
def buildOlsrHello (ctx : OlsrContext) : HelloMsg where
  htime := reltimeToMe defHelloIntervalMs
  willingness := ctx.param.willingness
  helloInfo := ctx.helloWriteLinks

/-! ### The sender's view of this node -/

/-- The loop of `populate_linkset` that looks for the own address: the first link code it is
listed under, other than `STATUS_UNAVAILABLE`. -/
def linkcodeToMe (ownIp : InAddr) : List HelloInfo → BitVec 8
  | [] => statusUnavailable
  | info :: rest =>
      if ownIp ∈ info.neighAddr ∧ info.linkCode ≠ statusUnavailable then info.linkCode
      else linkcodeToMe ownIp rest

/-- `mpr_selector_expire`. -/
def mprSelectorExpire (ctx : OlsrContext) (arg : ℕ) : Option OlsrContext := do
  let expElem ← ctx.selectorElems.search arg
  let tq ← ctx.timerqueue.timerqueueFreeTimer expElem.expireTimer
  return { ctx with
    timerqueue := tq
    selectorTree := ctx.selectorTree.erase expElem.selectorAddr
    selectorElems := ctx.selectorElems.erase arg }

/-- The case `SYM_LINK` or `ASYM_LINK` of `populate_linkset`: the sender hears this node. -/
def setSymLink (ctx : OlsrContext) (src : InAddr) (vtime : ℕ) : Option OlsrContext := do
  let link ← ctx.searchLink ctx.ownIp src
  let (link, ctx) ← ctx.linkElemSymTimerSet ctx.ownIp src link vtime
  return ctx.setLink ctx.ownIp src link

/-- The case `LOST_LINK` of `populate_linkset`. The source writes to the timer without asking
whether it has been created. -/
def setLostLink (ctx : OlsrContext) (src : InAddr) : Option OlsrContext := do
  let link ← ctx.searchLink ctx.ownIp src
  let symTimer ← link.symTimer
  let _elem ← ctx.timerqueue.elems.search symTimer
  let tq := ctx.timerqueue.update symTimer (fun e => { e with active := false })
  { ctx with timerqueue := tq }.symLinkTimerExpire ctx.ownIp src

/-- The element for the MPR selector `src`, a new one if there is none in the tree: the new
element bears the address `orig`, and its timer is registered with interval 0. -/
def findMprSelector (ctx : OlsrContext) (src orig : InAddr) : Option (ℕ × OlsrContext) :=
  match ctx.selectorTree.search src with
  | some id => some (id, ctx)
  | none => do
      let (timer, tq) ← ctx.timerqueue.startTimer ctx.clock (.mprSelectorExpire ctx.nextId) 0 false
      return (ctx.nextId, { ctx with
        timerqueue := tq
        nextId := ctx.nextId + 1
        selectorElems := ctx.selectorElems.insert ctx.nextId ⟨orig, timer⟩ })

/-- The case `MPR_NEIGH` of `populate_linkset`: this node is a relay of the sender. -/
def populateMprSelector (ctx : OlsrContext) (src orig : InAddr) (vtime : ℕ) :
    Option OlsrContext := do
  let (id, ctx) ← ctx.findMprSelector src orig
  let mprSelector ← ctx.selectorElems.search id
  let tq ← ctx.timerqueue.restartTimer ctx.clock mprSelector.expireTimer (vtimeInterval vtime)
  return { ctx with
    timerqueue := tq
    selectorTree := ctx.selectorTree.insert mprSelector.selectorAddr id }

/-- The switch of `populate_linkset` on the link status. -/
def populateLinkStatus (ctx : OlsrContext) (src : InAddr) (linkstat : BitVec 8) (vtime : ℕ) :
    Option OlsrContext :=
  if linkstat = LinkStatus.symLink.code ∨ linkstat = LinkStatus.asymLink.code then
    ctx.setSymLink src vtime
  else if linkstat = LinkStatus.lostLink.code then ctx.setLostLink src
  else some ctx

/-- `populate_linkset`, for the link to `src`. -/
def populateLinkset (ctx : OlsrContext) (src orig : InAddr) (helloInfo : List HelloInfo)
    (vtime : ℕ) : Option OlsrContext :=
  let linkcode := linkcodeToMe ctx.ownIp helloInfo
  if linkcode = statusUnavailable then some ctx
  else do
    let ctx ← ctx.populateLinkStatus src (extractLink linkcode) vtime
    if extractStatus linkcode = NeighborStatus.mprNeigh.code then
      ctx.populateMprSelector src orig vtime
    else return ctx

/-! ### Receiving a HELLO -/

/-- `populate_neigh2set`, for the neighbour `addr`. -/
def populateNeigh2set (ctx : OlsrContext) (addr : InAddr) (helloInfo : List HelloInfo)
    (vtime : ℕ) : Option OlsrContext :=
  (helloInfo.flatMap HelloInfo.neighAddr).foldlM
    (fun ctx n2addr =>
      if n2addr = ctx.ownIp then some ctx else ctx.updateNeigh2Tuple addr n2addr vtime)
    ctx

/-- Find the local interface and the neighbour `src`, or make them: the start of
`process_olsr_hello`, with `make_new_local_iface_elem`. -/
def findNeighbor (ctx : OlsrContext) (src : InAddr) (willingness : BitVec 8) : OlsrContext :=
  { ctx with
    localIfaceTree := ctx.localIfaceTree.insert ctx.ownIp ⟨.empty⟩
    neighborTree := ctx.neighborTree.insert src (makeNeighborElem willingness) }

/-- Find the link to `src` or make it, and set its timer `expire_timer`. -/
def findLink (ctx : OlsrContext) (src : InAddr) (vtime : ℕ) : Option (LinkElem × OlsrContext) :=
  match ctx.searchLink ctx.ownIp src with
  | none => do
      let (link, ctx) ← ctx.makeLinkElem src ctx.ownIp vtime
      return (link, ctx.insertLink ctx.ownIp src link)
  | some link => ctx.linkElemExpireTimerSet ctx.ownIp src link vtime

/-- The middle of `process_olsr_hello`: find the link to `src` and set its timers
`expire_timer` and `asym_timer`. -/
def touchLink (ctx : OlsrContext) (src : InAddr) (vtime : ℕ) : Option OlsrContext := do
  let (link, ctx) ← ctx.findLink src vtime
  let (link, ctx) ← ctx.linkElemAsymTimerSet ctx.ownIp src link vtime
  return ctx.setLink ctx.ownIp src link

/-- `process_olsr_hello`. -/
def processOlsrHello (ctx : OlsrContext) (src orig : InAddr) (hello : HelloMsg) (vtime : ℕ) :
    Option OlsrContext := do
  let ctx := ctx.findNeighbor src hello.willingness
  let ctx ← ctx.touchLink src vtime
  let ctx ← ctx.populateLinkset src orig hello.helloInfo vtime
  let ctx ← ctx.updateNeighborStatus src
  let neigh ← ctx.neighborTree.search src
  let ctx ←
    if neigh.status.isSym then ctx.populateNeigh2set src hello.helloInfo vtime else some ctx
  ctx.populateMprSet

/-! ### What a HELLO changes -/

/-- A change that touches links, neighbours and relays by the links to `src` at most. -/
theorem Consistent.setLink {ctx : OlsrContext} {src : InAddr} {tq : TimerqueueContext Callback}
    {link link' : LinkElem} (h : ctx.Consistent (some src))
    (hlink : ctx.searchLink ctx.ownIp src = some link)
    (hiface : link'.localIfaceAddr = link.localIfaceAddr) :
  (OlsrContext.setLink { ctx with timerqueue := tq } ctx.ownIp src link').Consistent (some src)
  := by
  have hold := h.iface _ _ link hlink
  apply h.linkChange (Or.inr rfl) _ (h.neighbor _ _ link hlink)
  refine ⟨rfl, rfl, ?_, ?_⟩
  · intro i a ha
    rw [searchLink_setLink]
    simp [ha, searchLink]
  · intro i l hl
    rw [searchLink_setLink] at hl
    split_ifs at hl with hi
    · left
      obtain ⟨-, -, rfl⟩ := Option.map_eq_some_iff.mp hl
      rw [hiface, hold, hi.1]
    · right
      apply hl

theorem searchLink_findNeighbor (ctx : OlsrContext) (src : InAddr) (willingness : BitVec 8)
    (i a : InAddr) :
  (ctx.findNeighbor src willingness).searchLink i a = ctx.searchLink i a
  := by
  simp only [searchLink, findNeighbor, OrdMap.search_insert, Option.bind_eq_bind]
  split_ifs with hi
  · rw [hi]
    cases ctx.localIfaceTree.search ctx.ownIp <;> rfl
  · rfl

/-- Making the neighbour keeps the tables consistent but for its status. -/
theorem Consistent.findNeighbor {ctx : OlsrContext} (h : ctx.Consistent none) (src : InAddr)
    (willingness : BitVec 8) :
  (ctx.findNeighbor src willingness).Consistent (some src)
  := by
  have hother : ∀ a, a ≠ src →
      (ctx.findNeighbor src willingness).neighborTree.search a = ctx.neighborTree.search a := by
    intro a ha
    rw [OlsrContext.findNeighbor, OrdMap.search_insert, if_neg ha]
  have hsrc : ∀ n, (ctx.findNeighbor src willingness).neighborTree.search src = some n →
      ctx.neighborTree.search src = some n ∨ n = makeNeighborElem willingness := by
    intro n hn
    rw [OlsrContext.findNeighbor, OrdMap.search_insert, if_pos rfl] at hn
    cases hold : ctx.neighborTree.search src with
    | none =>
        right
        rw [hold] at hn
        apply (Option.some.inj hn).symm
    | some n' =>
        left
        rw [hold] at hn
        apply hn
  constructor
  · intro iface a link hlink
    rw [searchLink_findNeighbor] at hlink
    apply h.iface iface a link hlink
  · intro iface a link hlink
    rw [searchLink_findNeighbor] at hlink
    apply OrdMap.mem_insert.mpr
    right
    apply h.neighbor iface a link hlink
  · intro a n hn hne
    rw [hother a (fun ha => hne (congrArg some ha))] at hn
    simp only [HasSymLink, searchLink_findNeighbor]
    apply h.status a n hn (by simp)
  · intro a n hn hmpr
    by_cases ha : a = src
    · subst ha
      rcases hsrc n hn with hn | rfl
      · apply h.relay a n hn hmpr
      · contradiction
    · rw [hother a ha] at hn
      apply h.relay a n hn hmpr
  · intro a ha
    apply OrdMap.mem_insert.mpr
    right
    apply h.mpr a ha
  · intro a n hn x n2elem hx
    by_cases ha : a = src
    · subst ha
      rcases hsrc n hn with hn | rfl
      · apply h.bridge a n hn x n2elem hx
      · contradiction
    · rw [hother a ha] at hn
      apply h.bridge a n hn x n2elem hx

/-- Making the neighbour keeps the symmetric neighbours. -/
theorem findNeighbor_local (ctx : OlsrContext) (src : InAddr) (willingness : BitVec 8) :
  ctx.Local (ctx.findNeighbor src willingness)
  := by
  apply Local.of_isSymNeigh
  intro a
  rw [IsSymNeigh, IsSymNeigh, OrdMap.search_insert]
  split_ifs with ha
  · subst ha
    cases ctx.neighborTree.search a with
    | none => simp [makeNeighborElem]
    | some n => simp
  · rfl

/-- A change of the links to `src` is local and keeps the tables consistent but for the status
of `src`. -/
theorem Consistent.touchLink {ctx ctx' : OlsrContext} {src : InAddr} {vtime : ℕ}
    (h : ctx.Consistent (some src)) (hiface : ctx.ownIp ∈ ctx.localIfaceTree)
    (hsrc : src ∈ ctx.neighborTree) (hstep : ctx.touchLink src vtime = some ctx') :
  ctx'.Consistent (some src) ∧ ctx.Local ctx'
  := by
  simp only [OlsrContext.touchLink, findLink, Option.bind_eq_bind, Option.bind_eq_some_iff,
    Option.pure_def] at hstep
  obtain ⟨⟨link, ctx₁⟩, hfind, ⟨link', ctx₂⟩, hasym, hstep⟩ := hstep
  obtain ⟨status, timer, tq, rfl, rfl⟩ := linkElemAsymTimerSet_inv hasym
  obtain rfl := Option.some.inj hstep
  cases hlink : ctx.searchLink ctx.ownIp src with
  | none =>
      simp only [hlink, Option.bind_eq_some_iff, Option.some.injEq, Prod.mk.injEq,
        makeLinkElem] at hfind
      obtain ⟨⟨link, ctx₂⟩, hmake, rfl, rfl⟩ := hfind
      obtain ⟨timer', tq', rfl, rfl⟩ := linkElemExpireTimerSet_inv hmake
      refine ⟨?_, Local.of_eq⟩
      let ctx₃ : OlsrContext :=
        { ctx with nextId := ctx.nextId + 1, timerqueue := tq' }
      let link₀ : LinkElem := ⟨ctx.nextId, ctx.ownIp, .lostLink, none, none, timer'⟩
      have hsearch : ∀ i a, (ctx₃.insertLink ctx.ownIp src link₀).searchLink i a =
          if i = ctx.ownIp ∧ a = src then some link₀ else ctx.searchLink i a :=
        searchLink_insertLink ctx₃ link₀ hiface hlink
      have hinsert : (ctx₃.insertLink ctx.ownIp src link₀).Consistent (some src) := by
        apply h.linkChange (Or.inr rfl) _ hsrc
        refine ⟨rfl, rfl, ?_, ?_⟩
        · intro i a ha
          rw [hsearch]
          simp [ha]
        · intro i l hl
          rw [hsearch] at hl
          split_ifs at hl with hi
          · left
            rw [← Option.some.inj hl, hi.1]
          · right
            apply hl
      have hlink₀ : (ctx₃.insertLink ctx.ownIp src link₀).searchLink ctx.ownIp src =
          some link₀ := by
        rw [hsearch, if_pos ⟨rfl, rfl⟩]
      apply hinsert.setLink hlink₀
      rfl
  | some link₀ =>
      rw [hlink] at hfind
      obtain ⟨timer', tq', rfl, rfl⟩ := linkElemExpireTimerSet_inv hfind
      refine ⟨?_, Local.of_eq⟩
      apply h.setLink hlink
      rfl

theorem Consistent.setSymLink {ctx ctx' : OlsrContext} {src : InAddr} {vtime : ℕ}
    (h : ctx.Consistent (some src)) (hstep : ctx.setSymLink src vtime = some ctx') :
  ctx'.Consistent (some src) ∧ ctx.Local ctx'
  := by
  simp only [OlsrContext.setSymLink, Option.bind_eq_bind, Option.bind_eq_some_iff,
    Option.pure_def] at hstep
  obtain ⟨link, hlink, ⟨link', ctx₁⟩, hsym, hstep⟩ := hstep
  obtain ⟨timer, tq, rfl, rfl⟩ := linkElemSymTimerSet_inv hsym
  obtain rfl := Option.some.inj hstep
  refine ⟨?_, Local.of_eq⟩
  apply h.setLink hlink
  rfl

theorem Consistent.setLostLink {ctx ctx' : OlsrContext} {src : InAddr}
    (h : ctx.Consistent (some src)) (hdup : NotDuplicated ctx.topologyTree)
    (hstep : ctx.setLostLink src = some ctx') :
  ctx'.Consistent (some src) ∧ ctx.Local ctx'
  := by
  simp only [OlsrContext.setLostLink, symLinkTimerExpire, Option.bind_eq_bind,
    Option.bind_eq_some_iff] at hstep
  obtain ⟨link, hlink, symTimer, -, -, -, link', hlink', -, -, asymElem, -, hstep⟩ := hstep
  obtain rfl := Option.some.inj (hlink.symm.trans hlink')
  obtain ⟨-, -, -, hlocal⟩ := updateNeighborStatus_inv hstep hdup
  refine ⟨?_, Local.trans Local.of_eq hlocal⟩
  apply Consistent.weaken
  apply Consistent.updateNeighborStatus _ hstep hdup
  apply h.setLink hlink
  rfl

/-- Entering an MPR selector changes the selectors and timers only. -/
theorem populateMprSelector_inv {ctx ctx' : OlsrContext} {src orig : InAddr} {vtime : ℕ}
    (h : ctx.populateMprSelector src orig vtime = some ctx') :
  ∃ tq nextId elems selectors, ctx' = { ctx with
    timerqueue := tq, nextId := nextId, selectorElems := elems, selectorTree := selectors }
  := by
  simp only [populateMprSelector, findMprSelector, Option.bind_eq_bind, Option.bind_eq_some_iff,
    Option.pure_def] at h
  obtain ⟨⟨id, ctx₁⟩, hfind, mprSelector, -, tq, -, h⟩ := h
  obtain rfl := Option.some.inj h
  cases hsearch : ctx.selectorTree.search src with
  | some id' =>
      simp only [hsearch, Option.some.injEq, Prod.mk.injEq] at hfind
      obtain ⟨rfl, rfl⟩ := hfind
      exact ⟨tq, _, _, _, rfl⟩
  | none =>
      simp only [hsearch, Option.bind_eq_some_iff, Option.some.injEq, Prod.mk.injEq] at hfind
      obtain ⟨⟨timer, tq'⟩, -, rfl, rfl⟩ := hfind
      exact ⟨tq, _, _, _, rfl⟩

/-- `populate_linkset` keeps the tables consistent but for the status of the sender. -/
theorem Consistent.populateLinkset {ctx ctx' : OlsrContext} {src orig : InAddr}
    {helloInfo : List HelloInfo} {vtime : ℕ} (h : ctx.Consistent (some src))
    (hdup : NotDuplicated ctx.topologyTree)
    (hstep : ctx.populateLinkset src orig helloInfo vtime = some ctx') :
  ctx'.Consistent (some src) ∧ ctx.Local ctx'
  := by
  rw [OlsrContext.populateLinkset] at hstep
  by_cases hcode : linkcodeToMe ctx.ownIp helloInfo = statusUnavailable
  · rw [if_pos hcode] at hstep
    obtain rfl := Option.some.inj hstep
    exact ⟨h, Local.of_eq⟩
  · rw [if_neg hcode] at hstep
    obtain ⟨ctx₁, hlinkstat, hneighstat⟩ := Option.bind_eq_some_iff.mp hstep
    obtain ⟨h₁, hlocal₁⟩ : ctx₁.Consistent (some src) ∧ ctx.Local ctx₁ := by
      rw [populateLinkStatus] at hlinkstat
      split_ifs at hlinkstat
      · apply h.setSymLink hlinkstat
      · apply h.setLostLink hdup hlinkstat
      · obtain rfl := Option.some.inj hlinkstat
        exact ⟨h, Local.of_eq⟩
    split_ifs at hneighstat
    · obtain ⟨tq, nextId, elems, selectors, rfl⟩ := populateMprSelector_inv hneighstat
      exact ⟨h₁.of_eq rfl rfl rfl, hlocal₁.trans Local.of_eq⟩
    · obtain rfl := Option.some.inj hneighstat
      exact ⟨h₁, hlocal₁⟩

/-- `populate_neigh2set` keeps the tables consistent. -/
theorem Consistent.populateNeigh2set {ctx ctx' : OlsrContext} {addr : InAddr}
    {helloInfo : List HelloInfo} {vtime : ℕ} (h : ctx.Consistent none)
    (hstep : ctx.populateNeigh2set addr helloInfo vtime = some ctx') :
  ctx'.Consistent none ∧ ctx.Local ctx'
  := by
  rw [OlsrContext.populateNeigh2set] at hstep
  generalize helloInfo.flatMap HelloInfo.neighAddr = l at hstep
  induction l generalizing ctx with
  | nil =>
      obtain rfl := Option.some.inj hstep
      exact ⟨h, Local.of_eq⟩
  | cons n2addr l ih =>
      rw [List.foldlM_cons] at hstep
      obtain ⟨ctx₁, hone, hrest⟩ := Option.bind_eq_some_iff.mp hstep
      split_ifs at hone
      · obtain rfl := Option.some.inj hone
        apply ih h hrest
      · obtain ⟨neigh, tree, -, hchange, -⟩ := updateNeigh2Tuple_inv hone
        obtain ⟨h', hlocal'⟩ := ih (h.neigh2Change hchange) hrest
        exact ⟨h', hchange.local.trans hlocal'⟩

/-- A HELLO changes the neighbourhood, keeps the tables consistent, and ends with the choice of
relays. -/
theorem processOlsrHello_inv {ctx ctx' : OlsrContext} {src orig : InAddr} {hello : HelloMsg}
    {vtime : ℕ} (h : ctx.Consistent none) (hdup : NotDuplicated ctx.topologyTree)
    (hstep : ctx.processOlsrHello src orig hello vtime = some ctx') :
  ∃ ctx₁, ctx₁.Consistent none ∧ ctx.Local ctx₁ ∧ ctx₁.MprSelected ctx'
  := by
  simp only [processOlsrHello, Option.bind_eq_bind, Option.bind_eq_some_iff] at hstep
  obtain ⟨ctx₁, htouch, ctx₂, hlinkset, ctx₃, hupdate, neigh, -, hstep⟩ := hstep
  obtain ⟨h₁, hlocal₁⟩ := (h.findNeighbor src hello.willingness).touchLink
    (OrdMap.mem_insert.mpr (Or.inl rfl)) (OrdMap.mem_insert.mpr (Or.inl rfl)) htouch
  have htopology₁ : ctx₁.topologyTree = ctx.topologyTree := hlocal₁.topologyTree
  obtain ⟨h₂, hlocal₂⟩ := h₁.populateLinkset (by rw [htopology₁]; apply hdup) hlinkset
  have hdup₂ : NotDuplicated ctx₂.topologyTree := by
    rw [hlocal₂.topologyTree, htopology₁]
    apply hdup
  obtain ⟨-, -, -, hlocal₃⟩ := updateNeighborStatus_inv hupdate hdup₂
  have h₃ := h₂.updateNeighborStatus hupdate hdup₂
  obtain ⟨ctx₄, h₄, hlocal₄, hmpr⟩ : ∃ ctx₄, ctx₄.Consistent none ∧ ctx₃.Local ctx₄ ∧
      ctx₄.populateMprSet = some ctx' := by
    split_ifs at hstep
    · obtain ⟨ctx₄, hneigh2, hmpr⟩ := Option.bind_eq_some_iff.mp hstep
      obtain ⟨h₄, hlocal₄⟩ := h₃.populateNeigh2set hneigh2
      exact ⟨ctx₄, h₄, hlocal₄, hmpr⟩
    · exact ⟨ctx₃, h₃, Local.of_eq, hstep⟩
  have hlocal : ctx.Local ctx₄ :=
    (findNeighbor_local ctx src hello.willingness).trans
      (hlocal₁.trans (hlocal₂.trans (hlocal₃.trans hlocal₄)))
  obtain ⟨ctx'', hmpr', hselected⟩ := populateMprSet_spec ctx₄
    (by rw [hlocal.topologyTree]; apply hdup)
  obtain rfl := Option.some.inj (hmpr.symm.trans hmpr')
  exact ⟨ctx₄, h₄, hlocal, hselected⟩

end OlsrContext
