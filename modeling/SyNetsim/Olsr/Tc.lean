import SyNetsim.Olsr.Neighbor

/-!
# TC messages

`olsr_tc.c`: a TC carries the nodes that chose its originator as a relay, under a sequence
number `ansn`. A node that receives one from a symmetric neighbour keeps what the originator
advertises in the topology tree, until a timer removes it.
-/

/-! ### The advertised neighbours of one originator -/

/-- Mark all advertised neighbours as obsolete. -/
def markObsolete (anTree : OrdMap InAddr AdvertisedNeighElem) :
    OrdMap InAddr AdvertisedNeighElem :=
  anTree.mapIdx (fun _ anelem => { anelem with obsolete := true })

/-- The body of the loop of `process_olsr_tc` over the addresses of a TC, with the flag
`info_changed`: a new address is entered, a known one is no longer obsolete. -/
def advertise (st : OrdMap InAddr AdvertisedNeighElem × Bool) (ana : InAddr) :
    OrdMap InAddr AdvertisedNeighElem × Bool :=
  if ana ∈ st.1 then (st.1.modify ana (fun anelem => { anelem with obsolete := false }), st.2)
  else (st.1.insert ana { obsolete := false, duplicated := false }, true)

/-- `max_obsolutes`. -/
def maxObsolutes : ℕ := 10

/-- `remove_obsolute_advertised_neighbor`: remove the obsolete neighbours, ten at most, and
count them. -/
def removeObsoluteAdvertisedNeighbor (anTree : OrdMap InAddr AdvertisedNeighElem) :
    ℕ × OrdMap InAddr AdvertisedNeighElem :=
  let obsolutes :=
    ((anTree.entries.filter (fun aelem => aelem.2.obsolete)).map Prod.fst).take maxObsolutes
  (obsolutes.length, obsolutes.foldl (fun anTree a => anTree.erase a) anTree)

/-- The advertised neighbours of an originator after a TC that lists `neigh`, with the flag
`info_changed`. -/
def updateAdvertised (anTree : OrdMap InAddr AdvertisedNeighElem) (neigh : List InAddr) :
    OrdMap InAddr AdvertisedNeighElem × Bool :=
  let (anTree, infoChanged) := neigh.foldl advertise (markObsolete anTree, false)
  let (obsoluted, anTree) := removeObsoluteAdvertisedNeighbor anTree
  (anTree, infoChanged || obsoluted ≠ 0)

namespace OlsrContext

/-! ### Building and receiving a TC -/

/-- `build_olsr_tc`. -/
def buildOlsrTc (ctx : OlsrContext) : TcMsg × OlsrContext :=
  (⟨ctx.ansn, ctx.selectorTree.keys⟩, { ctx with ansn := ctx.ansn + 1 })

/-- Follow a pointer to a topology entry. -/
def followTopology (ctx : OlsrContext) (arg : Ptr InAddr) : Option TopologyInfoElem :=
  (ctx.topologyTree.search arg.key).filter (fun telem => telem.id = arg.id)

/-- `topology_info_timer_expire_cb`. -/
def topologyInfoTimerExpireCb (ctx : OlsrContext) (arg : Ptr InAddr) : Option OlsrContext := do
  let telem ← ctx.followTopology arg
  let tq ← ctx.timerqueue.timerqueueFreeTimer telem.expireTimer
  let ctx := { ctx with timerqueue := tq, topologyTree := ctx.topologyTree.erase arg.key }
  return ctx.calcRoutingTable

/-- Find the topology entry of `orig`, or make one. -/
def findTopology (ctx : OlsrContext) (orig : InAddr) (ansn : BitVec 16) (vtime : ℕ) :
    Option OlsrContext :=
  match ctx.topologyTree.search orig with
  | some _ => some ctx
  | none => do
      let (timer, tq) ← ctx.timerqueue.startTimer ctx.clock
        (.topologyInfoTimerExpireCb ⟨orig, ctx.nextId⟩) (vtimeInterval vtime) true
      return { ctx with
        timerqueue := tq
        nextId := ctx.nextId + 1
        topologyTree := ctx.topologyTree.insert orig ⟨ctx.nextId, ansn, .empty, timer⟩ }

/-- The end of `process_olsr_tc`: a TC not older than the entry of `orig` is taken over. -/
def acceptTc (ctx : OlsrContext) (orig : InAddr) (telem : TopologyInfoElem) (msg : TcMsg) :
    Option OlsrContext := do
  let tq ← ctx.timerqueue.timerqueueReactivateTimer ctx.clock telem.expireTimer
  let (anTree, infoChanged) := updateAdvertised telem.anTree msg.neigh
  let ctx := { ctx with
    timerqueue := tq
    topologyTree := ctx.topologyTree.modify orig (fun telem =>
      { telem with seq := msg.ansn, anTree := anTree }) }
  return if infoChanged then ctx.calcRoutingTable else ctx

/-- `process_olsr_tc`. -/
def processOlsrTc (ctx : OlsrContext) (msg : TcMsg) (src orig : InAddr) (vtime : ℕ) :
    Option OlsrContext :=
  match ctx.neighborTree.search src with
  | none => some ctx
  | some neigh =>
      if neigh.status.isSym then do
        let ctx ← ctx.findTopology orig msg.ansn vtime
        let telem ← ctx.topologyTree.search orig
        if msg.ansn < telem.seq then return ctx
        else ctx.acceptTc orig telem msg
      else some ctx

end OlsrContext

/-! ### What a TC changes -/

/-- Going through the addresses of a TC enters those that are new. -/
theorem mem_foldl_advertise {a : InAddr} {neigh : List InAddr}
    {st : OrdMap InAddr AdvertisedNeighElem × Bool} :
  a ∈ (neigh.foldl advertise st).1 ↔ a ∈ st.1 ∨ a ∈ neigh
  := by
  induction neigh generalizing st with
  | nil => simp
  | cons b neigh ih =>
      rw [List.foldl_cons, ih, List.mem_cons, advertise]
      split_ifs with hb
      · rw [OrdMap.mem_modify]
        constructor
        · rintro (ha | ha)
          · left
            apply ha
          · right
            right
            apply ha
        · rintro (ha | rfl | ha)
          · left
            apply ha
          · left
            apply hb
          · right
            apply ha
      · rw [OrdMap.mem_insert]
        tauto

/-- If nothing has changed, all addresses of the TC were known. -/
theorem foldl_advertise_unchanged {neigh : List InAddr}
    {st : OrdMap InAddr AdvertisedNeighElem × Bool} (h : (neigh.foldl advertise st).2 = false) :
  st.2 = false ∧ ∀ a ∈ neigh, a ∈ st.1
  := by
  induction neigh generalizing st with
  | nil => simpa using h
  | cons b neigh ih =>
      rw [List.foldl_cons] at h
      obtain ⟨hchanged, hknown⟩ := ih h
      rw [advertise] at hchanged hknown
      split_ifs at hchanged hknown with hb
      use hchanged
      intro a ha
      rcases List.mem_cons.mp ha with rfl | ha
      · apply hb
      · simpa using hknown a ha

/-- If no neighbour is obsolete, none is removed. -/
theorem removeObsolute_unchanged {anTree : OrdMap InAddr AdvertisedNeighElem}
    (h : (removeObsoluteAdvertisedNeighbor anTree).1 = 0) :
  (removeObsoluteAdvertisedNeighbor anTree).2 = anTree
  := by
  rw [removeObsoluteAdvertisedNeighbor] at h ⊢
  rw [List.eq_nil_of_length_eq_zero h]
  rfl

/-- If `info_changed` is not set, the same neighbours are advertised as before, and the TC lists
no other. -/
theorem updateAdvertised_unchanged {anTree : OrdMap InAddr AdvertisedNeighElem}
    {neigh : List InAddr} (h : (updateAdvertised anTree neigh).2 = false) :
  (∀ a, a ∈ (updateAdvertised anTree neigh).1 ↔ a ∈ anTree) ∧ ∀ a ∈ neigh, a ∈ anTree
  := by
  simp only [updateAdvertised, Bool.or_eq_false_iff, decide_eq_false_iff_not, ne_eq,
    not_not] at h ⊢
  obtain ⟨hchanged, hobsoluted⟩ := h
  obtain ⟨-, hknown⟩ := foldl_advertise_unchanged hchanged
  have hknown' : ∀ a ∈ neigh, a ∈ anTree := by
    intro a ha
    simpa [markObsolete] using hknown a ha
  refine ⟨?_, hknown'⟩
  intro a
  rw [removeObsolute_unchanged hobsoluted, mem_foldl_advertise, markObsolete, OrdMap.mem_mapIdx]
  constructor
  · rintro (ha | ha)
    · apply ha
    · apply hknown' a ha
  · intro ha
    left
    apply ha

/-- No advertised neighbour bears the mark of an addition. -/
def NotMarked (anTree : OrdMap InAddr AdvertisedNeighElem) : Prop :=
  ∀ a aelem, anTree.search a = some aelem → aelem.duplicated = false

theorem notMarked_advertise {st : OrdMap InAddr AdvertisedNeighElem × Bool} (h : NotMarked st.1)
    (ana : InAddr) :
  NotMarked (advertise st ana).1
  := by
  intro a aelem ha
  rw [advertise] at ha
  split_ifs at ha with hmem
  · rw [OrdMap.search_modify] at ha
    split_ifs at ha with heq
    · obtain ⟨old, hold, rfl⟩ := Option.map_eq_some_iff.mp ha
      apply h ana old hold
    · apply h a aelem ha
  · rw [OrdMap.search_insert, OrdMap.search_eq_none.mpr hmem] at ha
    split_ifs at ha with heq
    · rw [← Option.some.inj ha]
      rfl
    · apply h a aelem ha

/-- What a TC advertises bears no mark of an addition. -/
theorem notMarked_updateAdvertised {anTree : OrdMap InAddr AdvertisedNeighElem}
    (h : NotMarked anTree) (neigh : List InAddr) :
  NotMarked (updateAdvertised anTree neigh).1
  := by
  have hmarked : NotMarked (markObsolete anTree) := by
    intro a aelem ha
    rw [markObsolete, OrdMap.search_mapIdx] at ha
    obtain ⟨old, hold, rfl⟩ := Option.map_eq_some_iff.mp ha
    apply h a old hold
  have hadvertised : ∀ (l : List InAddr) (st : OrdMap InAddr AdvertisedNeighElem × Bool),
      NotMarked st.1 → NotMarked (l.foldl advertise st).1 := by
    intro l
    induction l with
    | nil =>
        intro st hst
        apply hst
    | cons b l ih =>
        intro st hst
        apply ih _ (notMarked_advertise hst b)
  have herased : ∀ (l : List InAddr) (t : OrdMap InAddr AdvertisedNeighElem),
      NotMarked t → NotMarked (l.foldl (fun t a => t.erase a) t) := by
    intro l
    induction l with
    | nil =>
        intro t ht
        apply ht
    | cons b l ih =>
        intro t ht
        apply ih
        intro a aelem ha
        rw [OrdMap.search_erase] at ha
        split_ifs at ha
        apply ht a aelem ha
  apply herased
  apply hadvertised neigh (_, false) hmarked

namespace OlsrContext

/-- From `ctx` to `ctx'` the topology has become `topo`; apart from that, the routing table and
timers have changed only. -/
def TopologyChange (ctx ctx' : OlsrContext) (topo : OrdMap InAddr TopologyInfoElem) : Prop :=
  ∃ tq nextId, ctx'.core = { ctx.core with
    timerqueue := tq, nextId := nextId, topologyTree := topo }

theorem TopologyChange.topologyTree {ctx ctx' : OlsrContext}
    {topo : OrdMap InAddr TopologyInfoElem} (h : TopologyChange ctx ctx' topo) :
  ctx'.topologyTree = topo
  := by
  obtain ⟨tq, nextId, hcore⟩ := h
  have htopology := congrArg OlsrContext.topologyTree hcore
  apply htopology

/-- A TC of an originator without topology entry, from a symmetric neighbour, that advertises
nobody, while some originator advertises its originator. -/
def EmptyFirstTc (ctx : OlsrContext) (msg : TcMsg) (src orig : InAddr) : Prop :=
  IsSymNeigh ctx.neighborTree src ∧ orig ∉ ctx.topologyTree ∧ msg.neigh = [] ∧
    ∃ a, Advertises ctx.topologyTree a orig

/-- A topology tree with the same edges gives the same routing table. -/
theorem spfTable_advertises {ownIp : InAddr} {neighborTree : OrdMap InAddr NeighborElem}
    {topo topo' : OrdMap InAddr TopologyInfoElem}
    (hadv : ∀ a d, Advertises topo' a d ↔ Advertises topo a d)
    (hmem : ∀ d, (d ∈ topo' ↔ d ∈ topo) ∨
      ∀ a, ¬ Advertises topo d a ∧ ¬ Advertises topo a d) :
  spfTable ownIp neighborTree topo' = spfTable ownIp neighborTree topo
  := by
  apply spfTable_congr (fun a => Iff.rfl)
  intro d a
  rw [mem_spfNext, mem_spfNext, hadv, hadv]
  rcases hmem d with hd | hnone
  · rw [hd]
  · simp [hnone a]

/-- Finding the topology entry of an originator, or making one, adds no edge. A new entry has
the sequence number of the TC and no advertised neighbours. -/
theorem findTopology_inv {ctx ctx' : OlsrContext} {orig : InAddr} {ansn : BitVec 16} {vtime : ℕ}
    (h : ctx.findTopology orig ansn vtime = some ctx') {telem : TopologyInfoElem}
    (htelem : ctx'.topologyTree.search orig = some telem)
    (hdup : NotDuplicated ctx.topologyTree) :
  ∃ tq nextId topo, ctx' = { ctx with
      timerqueue := tq, nextId := nextId, topologyTree := topo } ∧
    NotDuplicated topo ∧ (∀ a d, Advertises topo a d ↔ Advertises ctx.topologyTree a d) ∧
    (topo = ctx.topologyTree ∨
      orig ∉ ctx.topologyTree ∧ telem.seq = ansn ∧ telem.anTree = .empty ∧
      ∀ d, d ∈ topo ↔ d = orig ∨ d ∈ ctx.topologyTree)
  := by
  rw [findTopology] at h
  cases hsearch : ctx.topologyTree.search orig with
  | some telem' =>
      rw [hsearch] at h
      obtain rfl := Option.some.inj h
      exact ⟨ctx.timerqueue, ctx.nextId, ctx.topologyTree, rfl, hdup, fun a d => Iff.rfl,
        Or.inl rfl⟩
  | none =>
      simp only [hsearch, Option.bind_eq_bind, Option.bind_eq_some_iff, Option.pure_def] at h
      obtain ⟨⟨timer, tq⟩, -, h⟩ := h
      obtain rfl := Option.some.inj h
      have hnew : ∀ d, (ctx.topologyTree.insert orig ⟨ctx.nextId, ansn, .empty, timer⟩).search d =
          if d = orig then some ⟨ctx.nextId, ansn, .empty, timer⟩
          else ctx.topologyTree.search d := by
        intro d
        rw [OrdMap.search_insert, hsearch, Option.getD_none]
      refine ⟨tq, ctx.nextId + 1, _, rfl, ?_, ?_, ?_⟩
      · intro d t ht a aelem ha
        rw [hnew] at ht
        split_ifs at ht
        · rw [← Option.some.inj ht] at ha
          contradiction
        · apply hdup d t ht a aelem ha
      · intro a d
        rw [Advertises, Advertises, hnew]
        split_ifs with ha
        · simp [ha, hsearch]
        · rfl
      · right
        rw [hnew, if_pos rfl, Option.some.injEq] at htelem
        subst htelem
        exact ⟨OrdMap.search_eq_none.mp hsearch, rfl, rfl, fun d => OrdMap.mem_insert⟩

/-- The topology after the TC `msg` of `orig`, whose entry was `telem`, has been taken over. -/
def acceptedTopology (topo : OrdMap InAddr TopologyInfoElem) (orig : InAddr)
    (telem : TopologyInfoElem) (msg : TcMsg) : OrdMap InAddr TopologyInfoElem :=
  topo.modify orig (fun telem' =>
    { telem' with seq := msg.ansn, anTree := (updateAdvertised telem.anTree msg.neigh).1 })

/-- Taking a TC over leaves the topology free of marks. -/
theorem notDuplicated_acceptedTopology {topo : OrdMap InAddr TopologyInfoElem}
    (hdup : NotDuplicated topo) {orig : InAddr} {telem : TopologyInfoElem}
    (htelem : topo.search orig = some telem) (msg : TcMsg) :
  NotDuplicated (acceptedTopology topo orig telem msg)
  := by
  intro d t ht a aelem ha
  rw [acceptedTopology, OrdMap.search_modify] at ht
  split_ifs at ht with hd
  · obtain ⟨old, -, rfl⟩ := Option.map_eq_some_iff.mp ht
    apply notMarked_updateAdvertised (hdup orig telem htelem) msg.neigh a aelem ha
  · apply hdup d t ht a aelem ha

/-- Taking a TC over restarts the timer of the entry; apart from that it changes the topology,
the routing table and the statistics only. -/
theorem acceptTc_eq {ctx ctx' : OlsrContext} {orig : InAddr} {telem : TopologyInfoElem}
    {msg : TcMsg} (h : ctx.acceptTc orig telem msg = some ctx')
    (htelem : ctx.topologyTree.search orig = some telem)
    (hdup : NotDuplicated ctx.topologyTree) :
  ∃ tq table info stats,
    ctx.timerqueue.timerqueueReactivateTimer ctx.clock telem.expireTimer = some tq ∧
    ctx' = { ctx with
      timerqueue := tq
      topologyTree := acceptedTopology ctx.topologyTree orig telem msg
      routingTable := table
      nodeInfo := info
      nodeStatTree := stats }
  := by
  simp only [acceptTc, Option.bind_eq_bind, Option.bind_eq_some_iff, Option.pure_def,
    Option.some.injEq] at h
  obtain ⟨tq, htq, h⟩ := h
  split_ifs at h
  · obtain ⟨info, stats, heq⟩ := calcRoutingTable_eq
      { ctx with
        timerqueue := tq
        topologyTree := acceptedTopology ctx.topologyTree orig telem msg }
      (notDuplicated_acceptedTopology hdup htelem msg)
    exact ⟨tq, _, info, stats, htq, h.symm.trans heq⟩
  · exact ⟨tq, _, _, _, htq, h.symm⟩

/-- Taking a TC over makes the routing table fresh, or keeps the edges and the routing table
and lists only neighbours already advertised. -/
theorem acceptTc_inv {ctx ctx' : OlsrContext} {orig : InAddr} {telem : TopologyInfoElem}
    {msg : TcMsg} (h : ctx.acceptTc orig telem msg = some ctx')
    (htelem : ctx.topologyTree.search orig = some telem)
    (hdup : NotDuplicated ctx.topologyTree) :
  ∃ topo, TopologyChange ctx ctx' topo ∧ NotDuplicated topo ∧
    (∀ d, d ∈ topo ↔ d ∈ ctx.topologyTree) ∧
    (ctx'.RoutingFresh ∨
      (∀ a d, Advertises topo a d ↔ Advertises ctx.topologyTree a d) ∧
      (∀ a ∈ msg.neigh, a ∈ telem.anTree) ∧ ctx'.routingTable = ctx.routingTable)
  := by
  simp only [acceptTc, Option.bind_eq_bind, Option.bind_eq_some_iff] at h
  obtain ⟨tq, -, h⟩ := h
  let topo := acceptedTopology ctx.topologyTree orig telem msg
  have hdup' : NotDuplicated topo := notDuplicated_acceptedTopology hdup htelem msg
  use topo
  cases hchanged : (updateAdvertised telem.anTree msg.neigh).2 with
  | true =>
      simp only [hchanged, if_true, Option.pure_def, Option.some.injEq] at h
      subst h
      refine ⟨⟨tq, ctx.nextId, ?_⟩, hdup', fun d => OrdMap.mem_modify, ?_⟩
      · apply calcRoutingTable_core { ctx with timerqueue := tq, topologyTree := topo } hdup'
      · left
        apply calcRoutingTable_fresh { ctx with timerqueue := tq, topologyTree := topo } hdup'
  | false =>
      simp only [hchanged, Bool.false_eq_true, if_false, Option.pure_def,
        Option.some.injEq] at h
      subst h
      obtain ⟨hsame, hlisted⟩ := updateAdvertised_unchanged hchanged
      refine ⟨⟨tq, ctx.nextId, rfl⟩, hdup', fun d => OrdMap.mem_modify, ?_⟩
      right
      refine ⟨?_, hlisted, rfl⟩
      intro a d
      rw [Advertises, Advertises]
      simp only [topo, acceptedTopology, OrdMap.search_modify]
      split_ifs with ha
      · subst ha
        rw [htelem]
        simp [hsame]
      · rfl

/-- A TC keeps the topology free of marks, and the routing table fresh unless it is the first
one of its originator and advertises nobody. -/
theorem processOlsrTc_inv {ctx ctx' : OlsrContext} {msg : TcMsg} {src orig : InAddr} {vtime : ℕ}
    (h : ctx.processOlsrTc msg src orig vtime = some ctx')
    (hdup : NotDuplicated ctx.topologyTree) :
  ∃ topo, TopologyChange ctx ctx' topo ∧ NotDuplicated topo ∧
    (¬ ctx.EmptyFirstTc msg src orig → ctx.RoutingFresh → ctx'.RoutingFresh)
  := by
  have hsame : some ctx = some ctx' → ∃ topo, TopologyChange ctx ctx' topo ∧
      NotDuplicated topo ∧
      (¬ ctx.EmptyFirstTc msg src orig → ctx.RoutingFresh → ctx'.RoutingFresh) := by
    rintro ⟨rfl⟩
    exact ⟨ctx.topologyTree, ⟨ctx.timerqueue, ctx.nextId, rfl⟩, hdup, fun _ hfresh => hfresh⟩
  rw [processOlsrTc] at h
  cases hneigh : ctx.neighborTree.search src with
  | none =>
      rw [hneigh] at h
      apply hsame h
  | some neigh =>
      simp only [hneigh] at h
      by_cases hsym : neigh.status.isSym = true
      · simp only [hsym, if_true, Option.bind_eq_bind, Option.bind_eq_some_iff] at h
        obtain ⟨ctx₁, hfind, telem, htelem, h⟩ := h
        obtain ⟨tq₁, nextId₁, topo₁, rfl, hdup₁, hadv₁, hentry⟩ :=
          findTopology_inv hfind htelem hdup
        by_cases hseq : msg.ansn < telem.seq
        · -- An old TC: the entry was there before.
          rw [if_pos hseq] at h
          obtain rfl := Option.some.inj h
          rcases hentry with rfl | ⟨-, hseq', -⟩
          · exact ⟨ctx.topologyTree, ⟨tq₁, nextId₁, rfl⟩, hdup, fun _ hfresh => hfresh⟩
          · rw [hseq'] at hseq
            apply absurd hseq (lt_irrefl _)
        · rw [if_neg hseq] at h
          obtain ⟨topo, ⟨tq, nextId, hcore⟩, hdup', hmem, hfresh⟩ := acceptTc_inv h htelem hdup₁
          have hown : ctx'.ownIp = ctx.ownIp := by
            have hown := congrArg OlsrContext.ownIp hcore
            apply hown
          have hneighbors : ctx'.neighborTree = ctx.neighborTree := by
            have hneighbors := congrArg OlsrContext.neighborTree hcore
            apply hneighbors
          refine ⟨topo, ⟨tq, nextId, hcore⟩, hdup', ?_⟩
          intro hfirst hfresh₀
          rcases hfresh with hfresh | ⟨hadv, hlisted, htable⟩
          · apply hfresh
          · rw [RoutingFresh, htable, TopologyChange.topologyTree ⟨tq, nextId, hcore⟩, hown,
              hneighbors]
            apply Eq.trans hfresh₀
            symm
            apply spfTable_advertises
            · intro a d
              rw [hadv, hadv₁]
            · intro d
              rcases hentry with rfl | ⟨hnew, -, hempty, hmem₁⟩
              · left
                apply hmem
              · by_cases hd : d = orig
                · -- Nobody advertises the originator of the new entry.
                  right
                  subst hd
                  intro a
                  constructor
                  · rintro ⟨t, ht, -⟩
                    apply hnew (OrdMap.mem_of_search ht)
                  · intro ha
                    apply hfirst
                    refine ⟨⟨neigh, hneigh, hsym⟩, hnew, ?_, a, ha⟩
                    apply List.eq_nil_iff_forall_not_mem.mpr
                    intro x hx
                    have hxe := hlisted x hx
                    rw [hempty] at hxe
                    apply OrdMap.not_mem_empty x hxe
                · left
                  rw [hmem]
                  apply Iff.trans (hmem₁ d)
                  simp [hd]
      · simp only [hsym] at h
        apply hsame h

/-- The expiry of a topology entry makes the routing table fresh. -/
theorem topologyInfoTimerExpireCb_inv {ctx ctx' : OlsrContext} {arg : Ptr InAddr}
    (h : ctx.topologyInfoTimerExpireCb arg = some ctx')
    (hdup : NotDuplicated ctx.topologyTree) :
  ∃ topo, TopologyChange ctx ctx' topo ∧ NotDuplicated topo ∧ ctx'.RoutingFresh
  := by
  simp only [topologyInfoTimerExpireCb, Option.bind_eq_bind, Option.bind_eq_some_iff,
    Option.pure_def, Option.some.injEq] at h
  obtain ⟨telem, -, tq, -, rfl⟩ := h
  have hdup' : NotDuplicated (ctx.topologyTree.erase arg.key) := by
    intro d t ht a aelem ha
    rw [OrdMap.search_erase] at ht
    split_ifs at ht
    apply hdup d t ht a aelem ha
  use ctx.topologyTree.erase arg.key
  refine ⟨⟨tq, ctx.nextId, ?_⟩, hdup', ?_⟩
  · apply calcRoutingTable_core
      { ctx with timerqueue := tq, topologyTree := ctx.topologyTree.erase arg.key } hdup'
  · apply calcRoutingTable_fresh
      { ctx with timerqueue := tq, topologyTree := ctx.topologyTree.erase arg.key } hdup'

end OlsrContext
