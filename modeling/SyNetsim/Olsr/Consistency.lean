import SyNetsim.Olsr.Mpr

/-!
# Consistency of links, neighbours and relays

The tables of links, neighbours and relays of a node agree (`Consistent`): a link has a
neighbour, a neighbour is symmetric exactly when one of its links is, and the relays are
neighbours. The operations on links and neighbours keep this, apart from the neighbour whose
link has just changed and whose status has still to follow.
-/

namespace OlsrContext

/-- Links, neighbours and relays agree, but for the status of the neighbour `hole`. -/
structure Consistent (ctx : OlsrContext) (hole : Option InAddr) : Prop where
  iface : ∀ iface addr link, ctx.searchLink iface addr = some link → link.localIfaceAddr = iface
  neighbor : ∀ iface addr link, ctx.searchLink iface addr = some link → addr ∈ ctx.neighborTree
  status : ∀ a n, ctx.neighborTree.search a = some n → some a ≠ hole →
    n.status ≠ .unavailable ∧ (n.status.isSym = true ↔ ctx.HasSymLink a)
  relay : ∀ a n, ctx.neighborTree.search a = some n → n.status = .mprNeigh → a ∈ ctx.mprTree
  mpr : ∀ a ∈ ctx.mprTree, a ∈ ctx.neighborTree
  bridge : ∀ a n, ctx.neighborTree.search a = some n →
    ∀ x n2elem, n.neighbor2Tree.search x = some n2elem → n2elem.bridgeAddr = a

/-- A node that has just started is consistent. -/
theorem consistent_empty {ctx : OlsrContext} (hifaces : ctx.localIfaceTree = .empty)
    (hneighbors : ctx.neighborTree = .empty) (hmprs : ctx.mprTree = .empty) :
  ctx.Consistent none
  := by
  have hlink : ∀ iface addr, ctx.searchLink iface addr = none := by
    intro iface addr
    rw [searchLink, hifaces]
    rfl
  constructor
  · intro iface addr link h
    rw [hlink] at h
    contradiction
  · intro iface addr link h
    rw [hlink] at h
    contradiction
  · intro a n h
    rw [hneighbors] at h
    contradiction
  · intro a n h
    rw [hneighbors] at h
    contradiction
  · intro a h
    rw [hmprs] at h
    apply absurd h (OrdMap.not_mem_empty a)
  · intro a n h
    rw [hneighbors] at h
    contradiction

/-- The status of every neighbour may be excepted. -/
theorem Consistent.weaken {ctx : OlsrContext} (h : ctx.Consistent none) (hole : Option InAddr) :
  ctx.Consistent hole
  := { h with status := fun a n hn _ => h.status a n hn (by simp) }

/-- A neighbour that has a link is symmetric exactly when one of its links is. -/
theorem Consistent.isSymNeigh_iff {ctx : OlsrContext} (h : ctx.Consistent none)
    {iface addr : InAddr} {link : LinkElem} (hlink : ctx.searchLink iface addr = some link) :
  IsSymNeigh ctx.neighborTree addr ↔ ctx.HasSymLink addr
  := by
  obtain ⟨n, hn⟩ := OrdMap.mem_iff.mp (h.neighbor _ _ link hlink)
  have hstatus := (h.status addr n hn (by simp)).2
  simp [IsSymNeigh, hn, hstatus]

/-- Consistency is about links, neighbours and relays only. -/
theorem Consistent.of_eq {ctx ctx' : OlsrContext} {hole : Option InAddr} (h : ctx.Consistent hole)
    (hifaces : ctx'.localIfaceTree = ctx.localIfaceTree)
    (hneighbors : ctx'.neighborTree = ctx.neighborTree) (hmprs : ctx'.mprTree = ctx.mprTree) :
  ctx'.Consistent hole
  := by
  have hlink : ctx'.searchLink = ctx.searchLink := by
    funext iface addr
    rw [searchLink, searchLink, hifaces]
  constructor
  · rw [hlink]
    apply h.iface
  · rw [hlink, hneighbors]
    apply h.neighbor
  · simp only [HasSymLink, hlink, hneighbors]
    apply h.status
  · rw [hneighbors, hmprs]
    apply h.relay
  · rw [hneighbors, hmprs]
    apply h.mpr
  · rw [hneighbors]
    apply h.bridge

/-! ### Changes of links -/

/-- The links found after the links of one interface have changed. -/
theorem searchLink_modify (ctx : OlsrContext) (iface : InAddr)
    (f : OrdMap InAddr LinkElem → OrdMap InAddr LinkElem) (i a : InAddr) :
  OlsrContext.searchLink { ctx with
      localIfaceTree := ctx.localIfaceTree.modify iface (fun ielem =>
        { ielem with ifaceLinkTree := f ielem.ifaceLinkTree }) } i a =
    if i = iface then
      (ctx.localIfaceTree.search iface).bind (fun ielem => (f ielem.ifaceLinkTree).search a)
    else ctx.searchLink i a
  := by
  rw [searchLink, OrdMap.search_modify]
  split_ifs with hi
  · cases ctx.localIfaceTree.search iface <;> rfl
  · rfl

/-- The links found after a write to one of them. -/
theorem searchLink_setLink (ctx : OlsrContext) (iface addr : InAddr) (link : LinkElem)
    (i a : InAddr) :
  (ctx.setLink iface addr link).searchLink i a =
    if i = iface ∧ a = addr then (ctx.searchLink iface addr).map (fun _ => link)
    else ctx.searchLink i a
  := by
  rw [setLink, searchLink_modify ctx iface (fun t => t.modify addr (fun _ => link))]
  by_cases hi : i = iface
  · rw [hi]
    by_cases ha : a = addr
    · cases hielem : ctx.localIfaceTree.search iface <;>
        simp [ha, searchLink, hielem, OrdMap.search_modify]
    · simp [ha, searchLink, OrdMap.search_modify]
  · simp [hi]

/-- The links found after one has been removed. -/
theorem searchLink_eraseLink (ctx : OlsrContext) (iface addr i a : InAddr) :
  (ctx.eraseLink iface addr).searchLink i a =
    if i = iface ∧ a = addr then none else ctx.searchLink i a
  := by
  rw [eraseLink, searchLink_modify ctx iface (fun t => t.erase addr)]
  by_cases hi : i = iface
  · rw [hi]
    by_cases ha : a = addr
    · simp [ha, OrdMap.search_erase]
    · simp [ha, searchLink, OrdMap.search_erase]
  · simp [hi]

/-- The links found after one has been entered on an interface that has none to that
neighbour. -/
theorem searchLink_insertLink (ctx : OlsrContext) {iface addr : InAddr} (link : LinkElem)
    (hiface : iface ∈ ctx.localIfaceTree) (hnew : ctx.searchLink iface addr = none) (i a : InAddr) :
  (ctx.insertLink iface addr link).searchLink i a =
    if i = iface ∧ a = addr then some link else ctx.searchLink i a
  := by
  obtain ⟨ielem, hielem⟩ := OrdMap.mem_iff.mp hiface
  simp only [searchLink, hielem, Option.bind_eq_bind, Option.bind_some] at hnew
  rw [insertLink, searchLink_modify ctx iface (fun t => t.insert addr link)]
  by_cases hi : i = iface
  · rw [hi]
    by_cases ha : a = addr
    · simp [ha, hielem, OrdMap.search_insert, hnew]
    · simp [ha, hielem, searchLink, OrdMap.search_insert]
  · simp [hi]

/-- Links to `addr` alone may differ between `ctx` and `ctx'`; neighbours and relays do not. -/
structure LinkChange (ctx ctx' : OlsrContext) (addr : InAddr) : Prop where
  neighborTree : ctx'.neighborTree = ctx.neighborTree
  mprTree : ctx'.mprTree = ctx.mprTree
  other : ∀ i a, a ≠ addr → ctx'.searchLink i a = ctx.searchLink i a
  iface : ∀ i link, ctx'.searchLink i addr = some link →
    link.localIfaceAddr = i ∨ ctx.searchLink i addr = some link

theorem LinkChange.hasSymLink {ctx ctx' : OlsrContext} {addr a : InAddr}
    (h : LinkChange ctx ctx' addr) (ha : a ≠ addr) :
  ctx'.HasSymLink a ↔ ctx.HasSymLink a
  := by
  simp only [HasSymLink, h.other _ a ha]

/-- A change of the links to a neighbour keeps the tables consistent but for its status. -/
theorem Consistent.linkChange {ctx ctx' : OlsrContext} {addr : InAddr} {hole : Option InAddr}
    (h : ctx.Consistent hole) (hhole : hole = none ∨ hole = some addr)
    (hchange : LinkChange ctx ctx' addr) (haddr : addr ∈ ctx.neighborTree) :
  ctx'.Consistent (some addr)
  where
  iface iface a link hlink := by
    by_cases ha : a = addr
    · subst ha
      rcases hchange.iface iface link hlink with hiface | hlink
      · apply hiface
      · apply h.iface iface a link hlink
    · rw [hchange.other iface a ha] at hlink
      apply h.iface iface a link hlink
  neighbor iface a link hlink := by
    rw [hchange.neighborTree]
    by_cases ha : a = addr
    · rw [ha]
      apply haddr
    · rw [hchange.other iface a ha] at hlink
      apply h.neighbor iface a link hlink
  status a n hn hne := by
    have ha : a ≠ addr := fun ha => hne (congrArg some ha)
    rw [hchange.neighborTree] at hn
    rw [hchange.hasSymLink ha]
    apply h.status a n hn
    rcases hhole with rfl | rfl
    · simp
    · apply hne
  relay a n hn hmpr := by
    rw [hchange.neighborTree] at hn
    rw [hchange.mprTree]
    apply h.relay a n hn hmpr
  mpr a ha := by
    rw [hchange.mprTree] at ha
    rw [hchange.neighborTree]
    apply h.mpr a ha
  bridge a n hn := by
    rw [hchange.neighborTree] at hn
    apply h.bridge a n hn

/-! ### Changes of status -/

/-- Updating the status of a neighbour makes the tables consistent. -/
theorem Consistent.updateNeighborStatus {ctx ctx' : OlsrContext} {addr : InAddr}
    (h : ctx.Consistent (some addr)) (hstep : ctx.updateNeighborStatus addr = some ctx')
    (hdup : NotDuplicated ctx.topologyTree) :
  ctx'.Consistent none
  := by
  obtain ⟨neigh, hneigh, hcore, -⟩ := updateNeighborStatus_inv hstep hdup
  have hmpr : ctx'.mprTree = ctx.mprTree := by
    have hmpr := congrArg OlsrContext.mprTree hcore
    apply hmpr
  have hlink : ∀ i a, ctx'.searchLink i a = ctx.searchLink i a := by
    intro i a
    have hifaces := congrArg OlsrContext.localIfaceTree hcore
    apply congrArg (fun t => (OrdMap.search t i).bind (fun ielem =>
      ielem.ifaceLinkTree.search a)) hifaces
  have hsearch : ∀ a, ctx'.neighborTree.search a =
      if a = addr then some (withStatus (ctx.updatedStatus addr neigh.status) neigh)
      else ctx.neighborTree.search a := by
    intro a
    have hneighbor := congrArg OlsrContext.neighborTree hcore
    apply Eq.trans (congrArg (fun t => OrdMap.search t a) hneighbor)
    rw [OrdMap.search_modify, hneigh]
    rfl
  have hmem : ∀ a, a ∈ ctx'.neighborTree ↔ a ∈ ctx.neighborTree := by
    intro a
    rw [OrdMap.mem_iff, OrdMap.mem_iff, hsearch]
    split_ifs with ha
    · simp [ha, hneigh]
    · rfl
  have hsym : ∀ a, ctx'.HasSymLink a ↔ ctx.HasSymLink a := by
    intro a
    simp only [HasSymLink, hlink]
  constructor
  · intro iface a link hl
    rw [hlink] at hl
    apply h.iface iface a link hl
  · intro iface a link hl
    rw [hlink] at hl
    rw [hmem]
    apply h.neighbor iface a link hl
  · intro a n hn _
    rw [hsearch] at hn
    rw [hsym]
    split_ifs at hn with ha
    · obtain rfl := Option.some.inj hn
      subst ha
      refine ⟨?_, updatedStatus_isSym ctx a neigh.status⟩
      simp only [withStatus, updatedStatus]
      split_ifs <;> simp
    · apply h.status a n hn
      rintro ⟨rfl⟩
      contradiction
  · intro a n hn hstatus
    rw [hsearch] at hn
    rw [hmpr]
    split_ifs at hn with ha
    · obtain rfl := Option.some.inj hn
      subst ha
      apply h.relay a neigh hneigh
      simp only [withStatus, updatedStatus] at hstatus
      split_ifs at hstatus with hs hm
      apply hm
    · apply h.relay a n hn hstatus
  · intro a ha
    rw [hmpr] at ha
    rw [hmem]
    apply h.mpr a ha
  · intro a n hn x n2elem hx
    rw [hsearch] at hn
    split_ifs at hn with ha
    · obtain rfl := Option.some.inj hn
      subst ha
      apply h.bridge a neigh hneigh x n2elem hx
    · apply h.bridge a n hn x n2elem hx

/-- `link_timer_expire` removes the link and updates the status of the neighbour. -/
theorem linkTimerExpire_inv {ctx ctx' : OlsrContext} {arg : Ptr (InAddr × InAddr)}
    {hole : Option InAddr} (hc : ctx.Consistent hole) (h : ctx.linkTimerExpire arg = some ctx') :
  ∃ link ctx₁, ctx.followLink arg = some link ∧ ctx.Local ctx₁ ∧
    LinkChange ctx ctx₁ arg.key.2 ∧
    (∀ i, ctx₁.searchLink i arg.key.2 =
      if i = arg.key.1 then none else ctx.searchLink i arg.key.2) ∧
    ctx₁.updateNeighborStatus arg.key.2 = some ctx'
  := by
  simp only [linkTimerExpire, Option.bind_eq_bind, Option.bind_eq_some_iff] at h
  obtain ⟨link, hlink, tq₁, -, tq₂, -, tq₃, -, -, -, h⟩ := h
  obtain ⟨hsearch, -⟩ := Option.filter_eq_some_iff.mp hlink
  have hiface := hc.iface _ _ link hsearch
  use link, OlsrContext.eraseLink { ctx with timerqueue := tq₃ } link.localIfaceAddr arg.key.2
  rw [hiface] at h ⊢
  refine ⟨hlink, Local.of_eq, ⟨rfl, rfl, ?_, ?_⟩, ?_, h⟩
  · intro i a ha
    rw [searchLink_eraseLink]
    simp [ha, searchLink]
  · intro i link' hlink'
    rw [searchLink_eraseLink] at hlink'
    split_ifs at hlink'
    right
    apply hlink'
  · intro i
    rw [searchLink_eraseLink]
    simp [searchLink]

/-- The expiry of a link keeps the tables consistent. -/
theorem Consistent.linkTimerExpire {ctx ctx' : OlsrContext} {arg : Ptr (InAddr × InAddr)}
    (h : ctx.Consistent none) (hdup : NotDuplicated ctx.topologyTree)
    (hstep : ctx.linkTimerExpire arg = some ctx') :
  ctx'.Consistent none ∧ ctx.Local ctx'
  := by
  obtain ⟨link, ctx₁, hlink, hlocal, hchange, -, hupdate⟩ := linkTimerExpire_inv h hstep
  obtain ⟨hsearch, -⟩ := Option.filter_eq_some_iff.mp hlink
  have hdup₁ : NotDuplicated ctx₁.topologyTree := by
    rw [hlocal.topologyTree]
    apply hdup
  have h₁ := h.linkChange (Or.inl rfl) hchange (h.neighbor _ _ link hsearch)
  obtain ⟨-, -, -, hlocal'⟩ := updateNeighborStatus_inv hupdate hdup₁
  exact ⟨h₁.updateNeighborStatus hupdate hdup₁, hlocal.trans hlocal'⟩

/-! ### Two-hop neighbours -/

/-- From `ctx` to `ctx'` the two-hop neighbours of `addr` have become `tree`; apart from that,
timers have changed only. -/
structure Neigh2Change (ctx ctx' : OlsrContext) (addr : InAddr)
    (tree : OrdMap InAddr Neighbor2Elem) : Prop where
  eq : ∃ tq nextId, ctx' = { ctx with
    timerqueue := tq
    nextId := nextId
    neighborTree := ctx.neighborTree.modify addr (fun n => { n with neighbor2Tree := tree }) }
  bridge : ∀ n, ctx.neighborTree.search addr = some n →
    ∀ x n2elem, tree.search x = some n2elem →
      n2elem.bridgeAddr = addr ∨ n.neighbor2Tree.search x = some n2elem

theorem isSymNeigh_modify {tree : OrdMap InAddr NeighborElem} {addr : InAddr}
    {f : NeighborElem → NeighborElem} (hf : ∀ n, (f n).status = n.status) (a : InAddr) :
  IsSymNeigh (tree.modify addr f) a ↔ IsSymNeigh tree a
  := by
  rw [IsSymNeigh, IsSymNeigh, OrdMap.search_modify]
  split_ifs with ha
  · subst ha
    cases tree.search a with
    | none => simp
    | some n => simp [hf]
  · rfl

theorem Neigh2Change.local {ctx ctx' : OlsrContext} {addr : InAddr}
    {tree : OrdMap InAddr Neighbor2Elem} (h : Neigh2Change ctx ctx' addr tree) :
  ctx.Local ctx'
  := by
  obtain ⟨tq, nextId, rfl⟩ := h.eq
  apply Local.of_isSymNeigh
  intro a
  apply isSymNeigh_modify
  intro n
  rfl

/-- A change of two-hop neighbours keeps the tables consistent. -/
theorem Consistent.neigh2Change {ctx ctx' : OlsrContext} {addr : InAddr}
    {tree : OrdMap InAddr Neighbor2Elem} (h : ctx.Consistent none)
    (hchange : Neigh2Change ctx ctx' addr tree) :
  ctx'.Consistent none
  := by
  have hbridge := hchange.bridge
  obtain ⟨tq, nextId, rfl⟩ := hchange.eq
  -- A neighbour has the status it had, and its two-hop neighbours are old or bridged by it.
  have hold : ∀ a n', (ctx.neighborTree.modify addr (fun n =>
      { n with neighbor2Tree := tree })).search a = some n' →
      ∃ n, ctx.neighborTree.search a = some n ∧ n'.status = n.status ∧
        ∀ x n2elem, n'.neighbor2Tree.search x = some n2elem →
          n2elem.bridgeAddr = a ∨ n.neighbor2Tree.search x = some n2elem := by
    intro a n' hn'
    rw [OrdMap.search_modify] at hn'
    split_ifs at hn' with ha
    · subst ha
      obtain ⟨n, hn, rfl⟩ := Option.map_eq_some_iff.mp hn'
      exact ⟨n, hn, rfl, hbridge n hn⟩
    · refine ⟨n', hn', rfl, ?_⟩
      intro x n2elem hx
      right
      apply hx
  constructor
  · apply h.iface
  · intro iface a link hlink
    apply OrdMap.mem_modify.mpr (h.neighbor iface a link hlink)
  · intro a n' hn' hne
    obtain ⟨n, hn, hstatus, -⟩ := hold a n' hn'
    rw [hstatus]
    apply h.status a n hn hne
  · intro a n' hn' hmpr
    obtain ⟨n, hn, hstatus, -⟩ := hold a n' hn'
    rw [hstatus] at hmpr
    apply h.relay a n hn hmpr
  · intro a ha
    apply OrdMap.mem_modify.mpr (h.mpr a ha)
  · intro a n' hn' x n2elem hx
    obtain ⟨n, hn, -, hold⟩ := hold a n' hn'
    rcases hold x n2elem hx with hb | hx
    · apply hb
    · apply h.bridge a n hn x n2elem hx

/-- `update_neigh2_tuple` enters the two-hop neighbour. -/
theorem updateNeigh2Tuple_inv {ctx ctx' : OlsrContext} {addr n2addr : InAddr} {vtime : ℕ}
    (h : ctx.updateNeigh2Tuple addr n2addr vtime = some ctx') :
  ∃ neigh tree, ctx.neighborTree.search addr = some neigh ∧ Neigh2Change ctx ctx' addr tree ∧
    ∀ x, x ∈ tree ↔ x = n2addr ∨ x ∈ neigh.neighbor2Tree
  := by
  simp only [updateNeigh2Tuple, Option.bind_eq_bind, Option.bind_eq_some_iff] at h
  obtain ⟨neigh, hneigh, h⟩ := h
  cases hn2 : neigh.neighbor2Tree.search n2addr with
  | none =>
      simp only [hn2, Option.bind_eq_some_iff, Option.pure_def] at h
      obtain ⟨⟨timer, tq⟩, -, h⟩ := h
      obtain rfl := Option.some.inj h
      use neigh, neigh.neighbor2Tree.insert n2addr ⟨ctx.nextId, addr, timer⟩, hneigh
      refine ⟨⟨⟨tq, ctx.nextId + 1, ?_⟩, ?_⟩, fun x => OrdMap.mem_insert⟩
      · congr 1
        apply OrdMap.ext
        intro a
        rw [OrdMap.search_modify, OrdMap.search_modify]
        split_ifs with ha
        · rw [hneigh, Option.map_some, Option.map_some]
        · rfl
      · intro n hn x n2elem hx
        rw [hneigh, Option.some.injEq] at hn
        subst hn
        rw [OrdMap.search_insert, hn2] at hx
        split_ifs at hx with hxn
        · left
          rw [← Option.some.inj hx]
          rfl
        · right
          apply hx
  | some n2elem =>
      simp only [hn2, Option.bind_eq_some_iff, Option.pure_def] at h
      obtain ⟨tq, -, h⟩ := h
      obtain rfl := Option.some.inj h
      use neigh, neigh.neighbor2Tree, hneigh
      refine ⟨⟨⟨tq, ctx.nextId, ?_⟩, ?_⟩, ?_⟩
      · congr 1
        apply OrdMap.ext
        intro a
        rw [OrdMap.search_modify]
        split_ifs with ha
        · rw [ha, hneigh, Option.map_some]
        · rfl
      · intro n hn x n2elem hx
        right
        rw [hneigh, Option.some.injEq] at hn
        rw [← hn]
        apply hx
      · intro x
        constructor
        · intro hx
          right
          apply hx
        · rintro (rfl | hx)
          · apply OrdMap.mem_of_search hn2
          · apply hx

/-- `neigh2_elem_expire` removes the two-hop neighbour. -/
theorem neigh2ElemExpire_inv {ctx ctx' : OlsrContext} {arg : Ptr (InAddr × InAddr)}
    (hc : ctx.Consistent none) (h : ctx.neigh2ElemExpire arg = some ctx') :
  ∃ neigh, ctx.neighborTree.search arg.key.1 = some neigh ∧ arg.key.2 ∈ neigh.neighbor2Tree ∧
    Neigh2Change ctx ctx' arg.key.1 (neigh.neighbor2Tree.erase arg.key.2)
  := by
  simp only [neigh2ElemExpire, Option.bind_eq_bind, Option.bind_eq_some_iff, Option.pure_def] at h
  obtain ⟨n2elem, hn2, -, -, tq, -, h⟩ := h
  obtain rfl := Option.some.inj h
  obtain ⟨hsearch, -⟩ := Option.filter_eq_some_iff.mp hn2
  obtain ⟨neigh, hneigh, hx⟩ := Option.bind_eq_some_iff.mp hsearch
  have hbridge := hc.bridge _ neigh hneigh _ n2elem hx
  use neigh, hneigh, OrdMap.mem_of_search hx
  refine ⟨⟨tq, ctx.nextId, ?_⟩, ?_⟩
  · rw [hbridge]
    congr 1
    apply OrdMap.ext
    intro a
    rw [OrdMap.search_modify, OrdMap.search_modify]
    split_ifs with ha
    · rw [hneigh, Option.map_some, Option.map_some]
    · rfl
  · intro n hn x n2elem hx
    right
    rw [hneigh, Option.some.injEq] at hn
    rw [OrdMap.search_erase] at hx
    split_ifs at hx
    rw [← hn]
    apply hx

/-! ### Relays -/

theorem MprSelected.isSymNeigh {ctx ctx' : OlsrContext} (h : ctx.MprSelected ctx') (a : InAddr) :
  IsSymNeigh ctx'.neighborTree a ↔ IsSymNeigh ctx.neighborTree a
  := by
  rw [IsSymNeigh, IsSymNeigh, h.neighbor]
  cases ctx.neighborTree.search a with
  | none => simp
  | some n =>
      by_cases hs : n.status.isSym = true
      · by_cases hm : a ∈ ctx'.mprTree
        · simp [hs, hm, withStatus]
        · simp [hs, hm, withStatus]
      · simp [hs]

/-- Two-hop neighbours are reached by the same neighbours after the choice of relays. -/
theorem MprSelected.bridges {ctx ctx' : OlsrContext} (h : ctx.MprSelected ctx') (b x : InAddr) :
  Bridges ctx'.neighborTree b x ↔ Bridges ctx.neighborTree b x
  := by
  rw [Bridges, Bridges, h.neighbor]
  cases ctx.neighborTree.search b with
  | none => simp
  | some n =>
      by_cases hs : n.status.isSym = true
      · by_cases hm : b ∈ ctx'.mprTree
        · simp [hs, hm, withStatus]
        · simp [hs, hm, withStatus]
      · simp [hs]

theorem MprSelected.local {ctx ctx' : OlsrContext} (h : ctx.MprSelected ctx') :
  ctx.Local ctx'
  := Local.of_core h.core h.fresh

theorem MprSelected.searchLink {ctx ctx' : OlsrContext} (h : ctx.MprSelected ctx')
    (i a : InAddr) :
  ctx'.searchLink i a = ctx.searchLink i a
  := by
  have hifaces := congrArg OlsrContext.localIfaceTree h.core
  apply congrArg (fun t => (OrdMap.search t i).bind (fun ielem =>
    ielem.ifaceLinkTree.search a)) hifaces

/-- The choice of relays keeps the tables consistent. -/
theorem Consistent.mprSelected {ctx ctx' : OlsrContext} (h : ctx.Consistent none)
    (hsel : ctx.MprSelected ctx') :
  ctx'.Consistent none
  := by
  -- A neighbour keeps its two-hop neighbours, and its status up to the choice.
  have hold : ∀ a n', ctx'.neighborTree.search a = some n' →
      ∃ n, ctx.neighborTree.search a = some n ∧ n'.neighbor2Tree = n.neighbor2Tree ∧
        n'.status = if n.status.isSym then if a ∈ ctx'.mprTree then .mprNeigh else .symNeigh
          else n.status := by
    intro a n' hn'
    rw [hsel.neighbor] at hn'
    obtain ⟨n, hn, rfl⟩ := Option.map_eq_some_iff.mp hn'
    use n, hn
    split_ifs
    · exact ⟨rfl, rfl⟩
    · exact ⟨rfl, rfl⟩
    · exact ⟨rfl, rfl⟩
  have hmem : ∀ a, a ∈ ctx'.neighborTree ↔ a ∈ ctx.neighborTree := by
    intro a
    rw [OrdMap.mem_iff, OrdMap.mem_iff, hsel.neighbor]
    simp
  constructor
  · intro iface a link hlink
    rw [hsel.searchLink] at hlink
    apply h.iface iface a link hlink
  · intro iface a link hlink
    rw [hsel.searchLink] at hlink
    rw [hmem]
    apply h.neighbor iface a link hlink
  · intro a n' hn' hne
    obtain ⟨n, hn, -, hstatus⟩ := hold a n' hn'
    obtain ⟨hav, hsym⟩ := h.status a n hn hne
    simp only [HasSymLink, hsel.searchLink] at hsym ⊢
    rw [← hsym, hstatus]
    split_ifs with hs hm
    · simp [hs]
    · simp [hs]
    · simp [hav]
  · intro a n' hn' hmpr
    obtain ⟨n, hn, -, hstatus⟩ := hold a n' hn'
    rw [hstatus] at hmpr
    split_ifs at hmpr with hs hm
    · apply hm
    · apply absurd _ hs
      rw [hmpr]
      rfl
  · intro a ha
    obtain ⟨n, hn, -⟩ := hsel.relay a ha
    rw [hmem]
    apply OrdMap.mem_of_search hn
  · intro a n' hn' x n2elem hx
    obtain ⟨n, hn, htree, -⟩ := hold a n' hn'
    rw [htree] at hx
    apply h.bridge a n hn x n2elem hx

end OlsrContext
