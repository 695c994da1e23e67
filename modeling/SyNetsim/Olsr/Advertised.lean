import SyNetsim.Olsr.Node

/-!
# What a TC leaves in the topology

A TC that is taken over lists all that its originator advertises by then. `process_olsr_tc` marks
what the originator advertised before, takes the marks from what is listed, enters what is new and
removes what is still marked, up to `max_obsolutes` addresses. So the originator's entry holds
what the TC lists exactly if no more than these have been dropped
(`processOlsrTc_replaces_iff`).
-/

/-! ### Mark and sweep -/

/-- The addresses marked as obsolete, in the order of the tree. -/
def obsolutes (anTree : OrdMap InAddr AdvertisedNeighElem) : List InAddr :=
  (anTree.entries.filter (fun aelem => aelem.2.obsolete)).map Prod.fst

theorem mem_obsolutes {anTree : OrdMap InAddr AdvertisedNeighElem} {a : InAddr} :
  a ∈ obsolutes anTree ↔ ∃ aelem, anTree.search a = some aelem ∧ aelem.obsolete = true
  := by
  simp only [obsolutes, List.mem_map, List.mem_filter, OrdMap.search_eq_some]
  constructor
  · rintro ⟨⟨b, aelem⟩, ⟨hmem, hobsolete⟩, rfl⟩
    exact ⟨aelem, hmem, hobsolete⟩
  · rintro ⟨aelem, hmem, hobsolete⟩
    exact ⟨(a, aelem), ⟨hmem, hobsolete⟩, rfl⟩

theorem obsolutes_nodup (anTree : OrdMap InAddr AdvertisedNeighElem) :
  (obsolutes anTree).Nodup
  := anTree.keys_nodup.sublist (List.filter_sublist.map Prod.fst)

/-- The sweep removes the first obsolete neighbours. -/
theorem search_removeObsolute (anTree : OrdMap InAddr AdvertisedNeighElem) (a : InAddr) :
  (removeObsoluteAdvertisedNeighbor anTree).2.search a =
    if a ∈ (obsolutes anTree).take maxObsolutes then none else anTree.search a
  := by
  have hsteps : ∀ (l : List InAddr) (t : OrdMap InAddr AdvertisedNeighElem),
      (l.foldl (fun t a => t.erase a) t).search a = if a ∈ l then none else t.search a := by
    intro l
    induction l with
    | nil => simp
    | cons b l ih =>
        intro t
        rw [List.foldl_cons, ih, OrdMap.search_erase]
        by_cases hl : a ∈ l
        · simp [hl]
        · by_cases hb : a = b
          · simp [hb]
          · simp [hl, hb]
  apply hsteps

/-- After all that is listed has been gone through, what is not listed is marked. -/
theorem foldl_advertise_obsolete {anTree : OrdMap InAddr AdvertisedNeighElem}
    {neigh : List InAddr} {a : InAddr} {aelem : AdvertisedNeighElem}
    (h : (neigh.foldl advertise (markObsolete anTree, false)).1.search a = some aelem) :
  aelem.obsolete = true ↔ a ∉ neigh
  := by
  induction neigh using List.reverseRecOn generalizing aelem with
  | nil =>
      rw [List.foldl_nil, markObsolete, OrdMap.search_mapIdx] at h
      obtain ⟨old, -, rfl⟩ := Option.map_eq_some_iff.mp h
      simp
  | append_singleton neigh b ih =>
      rw [List.foldl_concat, advertise] at h
      by_cases hab : a = b
      · subst hab
        split_ifs at h with hmem
        · rw [OrdMap.search_modify, if_pos rfl] at h
          obtain ⟨old, -, rfl⟩ := Option.map_eq_some_iff.mp h
          simp
        · rw [OrdMap.search_insert, if_pos rfl, OrdMap.search_eq_none.mpr hmem] at h
          obtain rfl := Option.some.inj h
          simp
      · have hold : (neigh.foldl advertise (markObsolete anTree, false)).1.search a =
            some aelem := by
          split_ifs at h
          · rw [OrdMap.search_modify, if_neg hab] at h
            apply h
          · rw [OrdMap.search_insert, if_neg hab] at h
            apply h
        rw [ih hold]
        simp [hab]

/-- The old advertised neighbours that a TC does not list. -/
def dropped (anTree : OrdMap InAddr AdvertisedNeighElem) (neigh : List InAddr) : Set InAddr :=
  { a | a ∈ anTree ∧ a ∉ neigh }

/-- As many neighbours are marked as have been dropped. -/
theorem length_obsolutes (anTree : OrdMap InAddr AdvertisedNeighElem) (neigh : List InAddr) :
  (obsolutes (neigh.foldl advertise (markObsolete anTree, false)).1).length =
    (dropped anTree neigh).ncard
  := by
  have hset : dropped anTree neigh =
      ((obsolutes (neigh.foldl advertise (markObsolete anTree, false)).1).toFinset :
        Set InAddr) := by
    ext a
    rw [dropped, Set.mem_ofPred_eq, List.coe_toFinset, Set.mem_ofPred_eq, mem_obsolutes]
    constructor
    · rintro ⟨hold, hlisted⟩
      have hmem : a ∈ (neigh.foldl advertise (markObsolete anTree, false)).1 := by
        apply mem_foldl_advertise.mpr
        left
        apply OrdMap.mem_mapIdx.mpr hold
      obtain ⟨aelem, haelem⟩ := OrdMap.mem_iff.mp hmem
      exact ⟨aelem, haelem, (foldl_advertise_obsolete haelem).mpr hlisted⟩
    · rintro ⟨aelem, haelem, hobsolete⟩
      have hlisted := (foldl_advertise_obsolete haelem).mp hobsolete
      refine ⟨?_, hlisted⟩
      rcases mem_foldl_advertise.mp (OrdMap.mem_of_search haelem) with hold | hnew
      · apply OrdMap.mem_mapIdx.mp hold
      · apply absurd hnew hlisted
  rw [hset, Set.ncard_coe_finset, List.toFinset_card_of_nodup (obsolutes_nodup _)]

theorem updateAdvertised_fst (anTree : OrdMap InAddr AdvertisedNeighElem) (neigh : List InAddr) :
  (updateAdvertised anTree neigh).1 = (removeObsoluteAdvertisedNeighbor
    (neigh.foldl advertise (markObsolete anTree, false)).1).2
  := rfl

/-- If there is room for all that has been dropped, what is left is listed and not marked. -/
theorem updateAdvertised_of_ncard_le {anTree : OrdMap InAddr AdvertisedNeighElem}
    {neigh : List InAddr} (h : (dropped anTree neigh).ncard ≤ maxObsolutes) :
  (∀ a, a ∈ (updateAdvertised anTree neigh).1 ↔ a ∈ neigh) ∧
    ∀ a aelem, (updateAdvertised anTree neigh).1.search a = some aelem → aelem.obsolete = false
  := by
  have hall : (obsolutes (neigh.foldl advertise (markObsolete anTree, false)).1).take
      maxObsolutes = obsolutes (neigh.foldl advertise (markObsolete anTree, false)).1 := by
    apply List.take_of_length_le
    rw [length_obsolutes]
    apply h
  have hleft : ∀ a aelem, (updateAdvertised anTree neigh).1.search a = some aelem →
      (neigh.foldl advertise (markObsolete anTree, false)).1.search a = some aelem ∧
        aelem.obsolete = false := by
    intro a aelem ha
    rw [updateAdvertised_fst, search_removeObsolute, hall] at ha
    split_ifs at ha with hobsolete
    refine ⟨ha, ?_⟩
    by_contra hmarked
    apply hobsolete
    apply mem_obsolutes.mpr
    exact ⟨aelem, ha, by simpa using hmarked⟩
  refine ⟨?_, fun a aelem ha => (hleft a aelem ha).2⟩
  intro a
  constructor
  · intro ha
    obtain ⟨aelem, haelem⟩ := OrdMap.mem_iff.mp ha
    obtain ⟨hsearch, hobsolete⟩ := hleft a aelem haelem
    by_contra hlisted
    rw [(foldl_advertise_obsolete hsearch).mpr hlisted] at hobsolete
    contradiction
  · intro ha
    have hmem : a ∈ (neigh.foldl advertise (markObsolete anTree, false)).1 :=
      mem_foldl_advertise.mpr (Or.inr ha)
    obtain ⟨aelem, haelem⟩ := OrdMap.mem_iff.mp hmem
    rw [OrdMap.mem_iff, updateAdvertised_fst, search_removeObsolute, hall, if_neg]
    · exact ⟨aelem, haelem⟩
    · rw [mem_obsolutes]
      rintro ⟨aelem', haelem', hobsolete⟩
      apply (foldl_advertise_obsolete haelem').mp hobsolete ha

/-- If there is no room for all that has been dropped, some of it is left. -/
theorem updateAdvertised_of_lt_ncard {anTree : OrdMap InAddr AdvertisedNeighElem}
    {neigh : List InAddr} (h : maxObsolutes < (dropped anTree neigh).ncard) :
  ∃ a ∈ (updateAdvertised anTree neigh).1, a ∉ neigh
  := by
  rw [← length_obsolutes] at h
  have hmem : (obsolutes (neigh.foldl advertise (markObsolete anTree, false)).1)[maxObsolutes] ∈
      obsolutes (neigh.foldl advertise (markObsolete anTree, false)).1 := List.getElem_mem h
  generalize hx : (obsolutes (neigh.foldl advertise (markObsolete anTree, false)).1)[maxObsolutes]
    = x at hmem
  obtain ⟨aelem, haelem, hobsolete⟩ := mem_obsolutes.mp hmem
  refine ⟨x, ?_, (foldl_advertise_obsolete haelem).mp hobsolete⟩
  rw [OrdMap.mem_iff, updateAdvertised_fst, search_removeObsolute, if_neg]
  · exact ⟨aelem, haelem⟩
  · -- no address is marked twice
    intro htake
    obtain ⟨i, hi, hix⟩ := List.mem_take_iff_getElem.mp htake
    rw [← hx] at hix
    have heq := (obsolutes_nodup _).getElem_inj_iff.mp hix
    omega

namespace OlsrContext

/-! ### The topology after a TC -/

/-- `process_olsr_tc` takes the TC over: its sender is a symmetric neighbour, and its sequence
number is not less than that of the entry of its originator. -/
def AcceptsTc (ctx : OlsrContext) (msg : TcMsg) (src orig : InAddr) : Prop :=
  IsSymNeigh ctx.neighborTree src ∧
    ∀ telem, ctx.topologyTree.search orig = some telem → telem.seq ≤ msg.ansn

/-- The TC has replaced what its originator advertises: the entry of the originator holds what is
listed, without marks, the other entries are the same, and the routing table has been calculated
if the originator advertises something else now. -/
structure TcReplaced (ctx ctx' : OlsrContext) (msg : TcMsg) (orig : InAddr) : Prop where
  entry : ∃ telem, ctx'.topologyTree.search orig = some telem ∧
    (∀ a, a ∈ telem.anTree ↔ a ∈ msg.neigh) ∧
    ∀ a aelem, telem.anTree.search a = some aelem →
      aelem.obsolete = false ∧ aelem.duplicated = false
  others : ∀ d, d ≠ orig → ctx'.topologyTree.search d = ctx.topologyTree.search d
  calculated : (¬ ∀ a, a ∈ msg.neigh ↔ Advertises ctx.topologyTree orig a) →
    ∃ ctx₁ : OlsrContext, ctx₁.topologyTree = ctx'.topologyTree ∧
      ctx' = ctx₁.calcRoutingTable

/-- Finding the topology entry of an originator, or making one, leaves the other entries alone,
and the entry it finds advertises what the originator advertised. -/
theorem findTopology_search {ctx ctx' : OlsrContext} {orig : InAddr} {ansn : BitVec 16}
    {vtime : ℕ} (h : ctx.findTopology orig ansn vtime = some ctx') {telem : TopologyInfoElem}
    (htelem : ctx'.topologyTree.search orig = some telem) :
  (∀ d, d ≠ orig → ctx'.topologyTree.search d = ctx.topologyTree.search d) ∧
    (∀ a, a ∈ telem.anTree ↔ Advertises ctx.topologyTree orig a) ∧
    (ctx.topologyTree.search orig = some telem ∨
      ctx.topologyTree.search orig = none ∧ telem.seq = ansn)
  := by
  rw [findTopology] at h
  cases hsearch : ctx.topologyTree.search orig with
  | some telem' =>
      rw [hsearch] at h
      obtain rfl := Option.some.inj h
      obtain rfl := Option.some.inj (hsearch.symm.trans htelem)
      refine ⟨fun d _ => rfl, ?_, Or.inl rfl⟩
      intro a
      simp [Advertises, hsearch]
  | none =>
      simp only [hsearch, Option.bind_eq_bind, Option.bind_eq_some_iff, Option.pure_def] at h
      obtain ⟨⟨timer, tq⟩, -, h⟩ := h
      obtain rfl := Option.some.inj h
      rw [OrdMap.search_insert, if_pos rfl, hsearch, Option.getD_none] at htelem
      obtain rfl := Option.some.inj htelem
      refine ⟨?_, ?_, Or.inr ⟨rfl, rfl⟩⟩
      · intro d hd
        rw [OrdMap.search_insert, if_neg hd]
      · intro a
        simp [Advertises, hsearch]

/-- The topology after a TC has been taken over, and whether the routing table has been
calculated. -/
theorem acceptTc_topology {ctx ctx' : OlsrContext} {orig : InAddr} {telem : TopologyInfoElem}
    {msg : TcMsg} (h : ctx.acceptTc orig telem msg = some ctx')
    (htelem : ctx.topologyTree.search orig = some telem)
    (hdup : NotDuplicated ctx.topologyTree) :
  ctx'.topologyTree = acceptedTopology ctx.topologyTree orig telem msg ∧
    ((updateAdvertised telem.anTree msg.neigh).2 = true → ∃ ctx₁ : OlsrContext,
      ctx₁.topologyTree = ctx'.topologyTree ∧ ctx' = ctx₁.calcRoutingTable)
  := by
  obtain ⟨tq, table, info, stats, htq, heq⟩ := acceptTc_eq h htelem hdup
  refine ⟨?_, ?_⟩
  · rw [heq]
  · intro hchanged
    use { ctx with
      timerqueue := tq, topologyTree := acceptedTopology ctx.topologyTree orig telem msg }
    refine ⟨?_, ?_⟩
    · rw [heq]
    · simp only [acceptTc, htq, Option.bind_eq_bind, Option.bind_some, hchanged, if_true,
        Option.pure_def, Option.some.injEq] at h
      apply h.symm

/-- In every state that a node reaches, a TC that is taken over replaces what its originator
advertises, exactly if it drops no more than `max_obsolutes` addresses. -/
theorem processOlsrTc_replaces_iff {ownIp : InAddr} {now : Timespec}
    {start ctx ctx' : OlsrContext} (hstart : olsrStart ownIp now = some start)
    (hreach : Reaches nodeStep (fun _ _ => True) start ctx) {msg : TcMsg} {src orig : InAddr}
    {vtime : ℕ} (haccepts : ctx.AcceptsTc msg src orig)
    (h : ctx.processOlsrTc msg src orig vtime = some ctx') :
  TcReplaced ctx ctx' msg orig ↔
    { a | Advertises ctx.topologyTree orig a ∧ a ∉ msg.neigh }.ncard ≤ maxObsolutes
  := by
  have hdup := (sound_of_reaches hstart hreach).notDuplicated
  obtain ⟨⟨neigh, hneigh, hsym⟩, hseq⟩ := haccepts
  simp only [processOlsrTc, hneigh, hsym, if_true, Option.bind_eq_bind,
    Option.bind_eq_some_iff] at h
  obtain ⟨ctx₁, hfind, telem, htelem, h⟩ := h
  obtain ⟨tq₁, nextId₁, topo₁, rfl, hdup₁, -, -⟩ := findTopology_inv hfind htelem hdup
  obtain ⟨hothers, hadvertised, hentry⟩ := findTopology_search hfind htelem
  have hnewer : ¬ msg.ansn < telem.seq := by
    rcases hentry with hfound | ⟨-, hnew⟩
    · apply not_lt.mpr (hseq telem hfound)
    · rw [hnew]
      apply lt_irrefl
  rw [if_neg hnewer] at h
  obtain ⟨htopology, hcalculated⟩ := acceptTc_topology h htelem hdup₁
  have hdropped : { a | Advertises ctx.topologyTree orig a ∧ a ∉ msg.neigh } =
      dropped telem.anTree msg.neigh := by
    ext a
    simp only [dropped, Set.mem_ofPred_eq, hadvertised]
  have hsearch : ctx'.topologyTree.search orig = some { telem with
      seq := msg.ansn, anTree := (updateAdvertised telem.anTree msg.neigh).1 } := by
    rw [htopology, acceptedTopology, OrdMap.search_modify, if_pos rfl, htelem]
    rfl
  rw [hdropped]
  constructor
  · intro hreplaced
    by_contra hmany
    obtain ⟨a, ha, hlisted⟩ := updateAdvertised_of_lt_ncard (not_le.mp hmany)
    obtain ⟨telem', htelem', hmem, -⟩ := hreplaced.entry
    obtain rfl := Option.some.inj (hsearch.symm.trans htelem')
    apply hlisted ((hmem a).mp ha)
  · intro hfew
    obtain ⟨hmem, hobsolete⟩ := updateAdvertised_of_ncard_le hfew
    constructor
    · refine ⟨_, hsearch, hmem, ?_⟩
      intro a aelem ha
      exact ⟨hobsolete a aelem ha,
        notMarked_updateAdvertised (hdup₁ orig telem htelem) msg.neigh a aelem ha⟩
    · intro d hd
      rw [htopology, acceptedTopology, OrdMap.search_modify, if_neg hd]
      apply hothers d hd
    · intro hdiffers
      apply hcalculated
      by_contra hsame
      apply hdiffers
      obtain ⟨hold, -⟩ := updateAdvertised_unchanged (Bool.eq_false_iff.mpr hsame)
      intro a
      rw [← hmem, hold, hadvertised]

/-- Node 2 is a symmetric neighbour of node 1, node 3 advertises `old`, and a TC of node 3 is
received that lists `neigh`. -/
def advertisedRun (old neigh : List InAddr) : Option (OlsrContext × OlsrContext) := do
  let start ← olsrStart (nodeIp 1) ⟨0, 0⟩
  let ctx ← [NodeEvent.recv ⟨0, 0⟩ (nodeIp 2) (helloOfTwo []),
    .recv ⟨0, 0⟩ (nodeIp 2) (tcOf (nodeIp 3) 1 63 old)].foldlM nodeStep start
  let ctx' ← ctx.processOlsrTc ⟨0, neigh⟩ (nodeIp 2) (nodeIp 3) 100
  return (ctx, ctx')

/-- The hypotheses hold in such a run if the first TC was received. -/
theorem advertisedRun_spec {old neigh : List InAddr} {ctx ctx' : OlsrContext}
    (h : advertisedRun old neigh = some (ctx, ctx'))
    (hsym : (ctx.neighborTree.search (nodeIp 2)).map (fun n => n.status.isSym) = some true)
    (hseq : (ctx.topologyTree.search (nodeIp 3)).map TopologyInfoElem.seq = some 0) :
  ∃ start, olsrStart (nodeIp 1) ⟨0, 0⟩ = some start ∧
    Reaches nodeStep (fun _ _ => True) start ctx ∧
    ctx.AcceptsTc ⟨0, neigh⟩ (nodeIp 2) (nodeIp 3) ∧
    ctx.processOlsrTc ⟨0, neigh⟩ (nodeIp 2) (nodeIp 3) 100 = some ctx'
  := by
  simp only [advertisedRun, Option.bind_eq_bind, Option.bind_eq_some_iff, Option.pure_def,
    Option.some.injEq, Prod.mk.injEq] at h
  obtain ⟨start, hstart, ctx₁, hrun, ctx₂, htc, rfl, rfl⟩ := h
  refine ⟨start, hstart, Reaches.of_foldlM hrun, ⟨?_, ?_⟩, htc⟩
  · obtain ⟨n, hn, hsymn⟩ := Option.map_eq_some_iff.mp hsym
    exact ⟨n, hn, hsymn⟩
  · intro telem htelem
    rw [htelem] at hseq
    rw [Option.some.inj hseq]

/-- Node 3 advertises node 5 instead of node 4. -/
theorem processOlsrTc_replaces_four :
  ∃ start ctx ctx', olsrStart (nodeIp 1) ⟨0, 0⟩ = some start ∧
    Reaches nodeStep (fun _ _ => True) start ctx ∧
    ctx.AcceptsTc ⟨0, [nodeIp 5]⟩ (nodeIp 2) (nodeIp 3) ∧
    (TcReplaced ctx ctx' ⟨0, [nodeIp 5]⟩ (nodeIp 3) ↔
      { a | Advertises ctx.topologyTree (nodeIp 3) a ∧ a ∉ [nodeIp 5] }.ncard ≤ maxObsolutes)
  := by
  have hrun : (advertisedRun [nodeIp 4] [nodeIp 5]).map (fun st =>
      ((st.1.neighborTree.search (nodeIp 2)).map (fun n => n.status.isSym),
        (st.1.topologyTree.search (nodeIp 3)).map TopologyInfoElem.seq)) =
      some (some true, some 0) := by
    decide +kernel
  obtain ⟨⟨ctx, ctx'⟩, hctx, hvalues⟩ := Option.map_eq_some_iff.mp hrun
  obtain ⟨hsym, hseq⟩ := Prod.mk.inj hvalues
  obtain ⟨start, hstart, hreach, haccepts, htc⟩ := advertisedRun_spec hctx hsym hseq
  exact ⟨start, ctx, ctx', hstart, hreach, haccepts,
    processOlsrTc_replaces_iff hstart hreach haccepts htc⟩

/-- When node 3 has advertised eleven nodes and advertises none any more, one of them is left. -/
theorem not_processOlsrTc_replaces :
  ¬ ∀ (ownIp : InAddr) (now : Timespec) (start ctx ctx' : OlsrContext) (msg : TcMsg)
    (src orig : InAddr) (vtime : ℕ), olsrStart ownIp now = some start →
    Reaches nodeStep (fun _ _ => True) start ctx → ctx.AcceptsTc msg src orig →
    ctx.processOlsrTc msg src orig vtime = some ctx' → TcReplaced ctx ctx' msg orig
  := by
  intro hall
  have hrun : (advertisedRun
      ((List.range 11).map (fun i => nodeIp (BitVec.ofNat 8 (i + 4)))) []).map
      (fun st => ((st.1.neighborTree.search (nodeIp 2)).map (fun n => n.status.isSym),
        (st.1.topologyTree.search (nodeIp 3)).map TopologyInfoElem.seq,
        (st.2.topologyTree.search (nodeIp 3)).map (fun telem => telem.anTree.keys))) =
      some (some true, some 0, some [nodeIp 14]) := by
    decide +kernel
  obtain ⟨⟨ctx, ctx'⟩, hctx, hvalues⟩ := Option.map_eq_some_iff.mp hrun
  simp only [Prod.mk.injEq] at hvalues
  obtain ⟨hsym, hseq, hkeys⟩ := hvalues
  obtain ⟨start, hstart, hreach, haccepts, htc⟩ := advertisedRun_spec hctx hsym hseq
  obtain ⟨telem, htelem, hmem, -⟩ :=
    (hall _ _ start ctx ctx' _ _ _ _ hstart hreach haccepts htc).entry
  rw [htelem, Option.map_some, Option.some.injEq] at hkeys
  have hleft : nodeIp 14 ∈ telem.anTree := by
    rw [← OrdMap.mem_keys, hkeys]
    apply List.mem_singleton_self
  apply absurd ((hmem _).mp hleft) List.not_mem_nil

end OlsrContext
