import SyNetsim.Olsr.Context

/-!
# The routing table

`calc_routing_table` of `olsr_spf.c`. It adds to every topology entry the originators that
advertise it (`duplicateNeighInfo`), searches breadth first from the symmetric neighbours
along the advertised neighbours, takes the additions back (`unduplicateNeighInfo`) and
records the changed routes in the statistics.

The additions and their removal leave the topology tree as it was
(`unduplicate_duplicate`), the search is `Bfs.search` along the edges `spfNext`
(`spfLoop_eq_search`), and the table it makes is complete for the edges (`spfTable_complete`).
So the routing table is a function `spfTable` of the own address, the neighbours and the
topology (`calcRoutingTable_routingTable`).
-/

/-! ### The reverse edges -/

/-- Add `dest` to the advertised neighbours of `lastAddr`, if `lastAddr` has an entry and is
not this node. -/
def duplicateOne (ownIp dest : InAddr) (topo : OrdMap InAddr TopologyInfoElem)
    (lastAddr : InAddr) : OrdMap InAddr TopologyInfoElem :=
  if lastAddr = ownIp then topo
  else
    topo.modify lastAddr (fun peer =>
      { peer with anTree := peer.anTree.insert dest { obsolete := false, duplicated := true } })

/-- `duplicate_neigh_info`. An inner loop adds to the tree it runs over only a key that is
there, so it runs over the keys the tree has at its start. -/
def duplicateNeighInfo (ownIp : InAddr) (topo : OrdMap InAddr TopologyInfoElem) :
    OrdMap InAddr TopologyInfoElem :=
  topo.keys.foldl
    (fun topo dest =>
      match topo.search dest with
      | none => topo
      | some telem => telem.anTree.keys.foldl (duplicateOne ownIp dest) topo)
    topo

/-- `unduplicate_neigh_info`. -/
def unduplicateNeighInfo (topo : OrdMap InAddr TopologyInfoElem) :
    OrdMap InAddr TopologyInfoElem :=
  topo.mapIdx (fun _ telem =>
    { telem with anTree := telem.anTree.filter (fun aelem => !aelem.duplicated) })

/-! ### The search -/

/-- `routing_table_add_one_hop_neigh`, from an empty table and an empty queue. -/
def routingTableAddOneHopNeigh (neighborTree : OrdMap InAddr NeighborElem) :
    OrdMap InAddr RoutingEntry × List RoutingEntry :=
  neighborTree.entries.foldl
    (fun st nelem =>
      if nelem.2.status.isSym then
        (st.1.insert nelem.1 ⟨nelem.1, 1, [nelem.1]⟩, st.2 ++ [⟨nelem.1, 1, [nelem.1]⟩])
      else st)
    (.empty, [])

/-- The body of the loop over the advertised neighbours of `curr`. -/
def visitAdvertised (ownIp : InAddr) (curr : RoutingEntry)
    (st : OrdMap InAddr RoutingEntry × List RoutingEntry) (lastAddr : InAddr) :
    OrdMap InAddr RoutingEntry × List RoutingEntry :=
  if lastAddr = ownIp then st
  else if lastAddr ∈ st.1 then st
  else
    let entry : RoutingEntry := ⟨lastAddr, curr.hopCount + 1, curr.route ++ [lastAddr]⟩
    (st.1.insert lastAddr entry, st.2 ++ [entry])

/-- The loop over the visit queue, for at most `fuel` entries. -/
def spfLoop (ownIp : InAddr) (topo : OrdMap InAddr TopologyInfoElem) :
    ℕ → OrdMap InAddr RoutingEntry × List RoutingEntry →
      OrdMap InAddr RoutingEntry × List RoutingEntry
  | 0, st => st
  | _ + 1, (table, []) => (table, [])
  | fuel + 1, (table, curr :: queue) =>
      if curr.dest = ownIp then spfLoop ownIp topo fuel (table, queue)
      else
        match topo.search curr.dest with
        | none => spfLoop ownIp topo fuel (table, queue)
        | some telem =>
            spfLoop ownIp topo fuel
              (telem.anTree.keys.foldl (visitAdvertised ownIp curr) (table, queue))

/-- The addresses a search can meet: the neighbours and all advertised neighbours. -/
def spfUniverse (neighborTree : OrdMap InAddr NeighborElem)
    (topo : OrdMap InAddr TopologyInfoElem) : List InAddr :=
  neighborTree.keys ++ topo.entries.flatMap (fun e => e.2.anTree.keys)

/-- The routing table for given neighbours and topology. No search visits more entries than
there are addresses. -/
def spfTable (ownIp : InAddr) (neighborTree : OrdMap InAddr NeighborElem)
    (topologyTree : OrdMap InAddr TopologyInfoElem) : OrdMap InAddr RoutingEntry :=
  let topo := duplicateNeighInfo ownIp topologyTree
  (spfLoop ownIp topo (spfUniverse neighborTree topo).length
    (routingTableAddOneHopNeigh neighborTree)).1

namespace OlsrContext

/-! ### The statistics of routes -/

/-- `update_route_info_disconncted`. -/
def updateRouteInfoDisconnected (ctx : OlsrContext)
    (oldTable newTable : OrdMap InAddr RoutingEntry) : OlsrContext :=
  oldTable.keys.foldl
    (fun ctx dest =>
      if dest ∈ newTable then ctx
      else ctx.updateRoutingInfo dest (fun rinfo => { rinfo with hopCount := 0, dirty := true }))
    ctx

/-- The comparison of a new with an old route over `n` elements. -/
def routeChanged : ℕ → List InAddr → List InAddr → Bool
  | 0, _, _ => false
  | n + 1, a :: newRoute, b :: oldRoute => if a ≠ b then true else routeChanged n newRoute oldRoute
  | _ + 1, _, _ => true

/-- `update_route_info_changed`. -/
def updateRouteInfoChanged (ctx : OlsrContext) (oldTable newTable : OrdMap InAddr RoutingEntry) :
    OlsrContext :=
  newTable.entries.foldl
    (fun ctx new =>
      let unchanged :=
        match oldTable.search new.1 with
        | some old => !routeChanged new.2.hopCount new.2.route old.route
        | none => false
      if unchanged then ctx
      else
        ctx.updateRoutingInfo new.1 (fun rinfo =>
          { hopCount := new.2.hopCount
            path := new.2.route ++ rinfo.path.drop new.2.route.length
            dirty := true }))
    ctx

/-- `update_route_info`. -/
def updateRouteInfo (ctx : OlsrContext) (oldTable newTable : OrdMap InAddr RoutingEntry) :
    OlsrContext :=
  (ctx.updateRouteInfoDisconnected oldTable newTable).updateRouteInfoChanged oldTable newTable

/-- `calc_routing_table`. -/
def calcRoutingTable (ctx : OlsrContext) : OlsrContext :=
  let oldTable := ctx.routingTable
  let topo := duplicateNeighInfo ctx.ownIp ctx.topologyTree
  let st := spfLoop ctx.ownIp topo (spfUniverse ctx.neighborTree topo).length
    (routingTableAddOneHopNeigh ctx.neighborTree)
  let ctx := { ctx with topologyTree := unduplicateNeighInfo topo, routingTable := st.1 }
  ctx.updateRouteInfo oldTable ctx.routingTable

end OlsrContext

/-! ### The reverse edges are the advertisements reversed -/

/-- The originator `a` advertises `d`. -/
def Advertises (topo : OrdMap InAddr TopologyInfoElem) (a d : InAddr) : Prop :=
  ∃ telem, topo.search a = some telem ∧ d ∈ telem.anTree

instance (topo : OrdMap InAddr TopologyInfoElem) (a d : InAddr) :
    Decidable (Advertises topo a d) :=
  match h : topo.search a with
  | none => .isFalse (by rintro ⟨telem, ht, -⟩; rw [h] at ht; contradiction)
  | some telem => decidable_of_iff (d ∈ telem.anTree) (by simp [Advertises, h])

/-- The mark of an advertised neighbour added by `duplicate_neigh_info`. -/
def duplicatedMark : AdvertisedNeighElem := { obsolete := false, duplicated := true }

/-- The advertised neighbours of `d` after the originators `done` have been gone through: those
of `done` that advertise `d` are added. -/
def addReverse (ownIp : InAddr) (topo : OrdMap InAddr TopologyInfoElem) (done : List InAddr)
    (d : InAddr) (anTree : OrdMap InAddr AdvertisedNeighElem) :
    OrdMap InAddr AdvertisedNeighElem :=
  done.foldl
    (fun t a => if d ≠ ownIp ∧ Advertises topo a d then t.insert a duplicatedMark else t) anTree

theorem addReverse_concat (ownIp : InAddr) (topo : OrdMap InAddr TopologyInfoElem)
    (done : List InAddr) (a d : InAddr) (anTree : OrdMap InAddr AdvertisedNeighElem) :
  addReverse ownIp topo (done ++ [a]) d anTree =
    if d ≠ ownIp ∧ Advertises topo a d then
      (addReverse ownIp topo done d anTree).insert a duplicatedMark
    else addReverse ownIp topo done d anTree
  := by
  rw [addReverse, List.foldl_concat]
  rfl

/-- The elements found are the former ones and the added ones. -/
theorem search_addReverse (ownIp : InAddr) (topo : OrdMap InAddr TopologyInfoElem)
    (done : List InAddr) (d : InAddr) (anTree : OrdMap InAddr AdvertisedNeighElem) (a : InAddr) :
  (addReverse ownIp topo done d anTree).search a =
    if a ∈ anTree then anTree.search a
    else if a ∈ done ∧ d ≠ ownIp ∧ Advertises topo a d then some duplicatedMark else none
  := by
  induction done using List.reverseRecOn with
  | nil =>
      split_ifs with ha h
      · rfl
      · simp at h
      · apply OrdMap.search_eq_none.mpr ha
  | append_singleton done b ih =>
      rw [addReverse_concat]
      by_cases hb : d ≠ ownIp ∧ Advertises topo b d
      · rw [if_pos hb, OrdMap.search_insert]
        by_cases hab : a = b
        · subst hab
          rw [if_pos rfl, ih]
          by_cases ha : a ∈ anTree
          · obtain ⟨e, he⟩ := OrdMap.mem_iff.mp ha
            simp [ha, he]
          · by_cases hd : a ∈ done
            · simp [ha, hd, hb]
            · simp [ha, hd, hb]
        · rw [if_neg hab, ih]
          simp [hab]
      · rw [if_neg hb, ih]
        by_cases hab : a = b
        · subst hab
          simp [hb]
        · simp [hab]

theorem mem_addReverse {ownIp : InAddr} {topo : OrdMap InAddr TopologyInfoElem}
    {done : List InAddr} {d : InAddr} {anTree : OrdMap InAddr AdvertisedNeighElem} {a : InAddr} :
  a ∈ addReverse ownIp topo done d anTree ↔
    a ∈ anTree ∨ a ∈ done ∧ d ≠ ownIp ∧ Advertises topo a d
  := by
  rw [OrdMap.mem_iff, search_addReverse]
  by_cases ha : a ∈ anTree
  · simp only [ha, if_true, true_or, iff_true]
    apply OrdMap.mem_iff.mp ha
  · simp [ha]

/-- The inner loop adds `a` to the entries of the addresses gone through. -/
theorem foldl_duplicateOne (ownIp a : InAddr) (l : List InAddr)
    (topo : OrdMap InAddr TopologyInfoElem) :
  l.foldl (duplicateOne ownIp a) topo =
    topo.mapIdx (fun d telem =>
      if d ∈ l ∧ d ≠ ownIp then { telem with anTree := telem.anTree.insert a duplicatedMark }
      else telem)
  := by
  induction l generalizing topo with
  | nil =>
      apply OrdMap.ext
      intro d
      simp [OrdMap.search_mapIdx]
  | cons b l ih =>
      rw [List.foldl_cons, ih]
      apply OrdMap.ext
      intro d
      rw [OrdMap.search_mapIdx, OrdMap.search_mapIdx, duplicateOne]
      by_cases hb : b = ownIp
      · rw [if_pos hb]
        cases topo.search d with
        | none => rfl
        | some telem =>
            by_cases hd : d = b
            · simp [hd, hb]
            · simp [hd]
      · rw [if_neg hb, OrdMap.search_modify]
        by_cases hd : d = b
        · subst hd
          cases topo.search d with
          | none => simp
          | some telem =>
              by_cases hdl : d ∈ l
              · have hidem : (telem.anTree.insert a duplicatedMark).insert a duplicatedMark
                    = telem.anTree.insert a duplicatedMark := by
                  apply OrdMap.insert_of_mem
                  simp
                simp only [if_true, Option.map_some, hdl, hb, List.mem_cons, true_or, ne_eq,
                  not_false_eq_true, and_self, Option.some.injEq, TopologyInfoElem.mk.injEq,
                  true_and, and_true]
                apply hidem
              · simp [hdl, hb, duplicatedMark]
        · rw [if_neg hd]
          simp [hd]

/-- `duplicate_neigh_info` adds to each entry the originators that advertise it. -/
theorem duplicateNeighInfo_eq (ownIp : InAddr) (topo : OrdMap InAddr TopologyInfoElem) :
  duplicateNeighInfo ownIp topo =
    topo.mapIdx (fun d telem =>
      { telem with anTree := addReverse ownIp topo topo.keys d telem.anTree })
  := by
  -- The outer loop, after the originators `done`, has added these.
  suffices hsteps : ∀ done : List InAddr, (∀ a ∈ done, a ∈ topo) →
      done.foldl (fun topo dest =>
        match topo.search dest with
        | none => topo
        | some telem => telem.anTree.keys.foldl (duplicateOne ownIp dest) topo) topo =
      topo.mapIdx (fun d telem =>
        { telem with anTree := addReverse ownIp topo done d telem.anTree }) by
    apply hsteps topo.keys
    intro a ha
    apply ha
  intro done
  induction done using List.reverseRecOn with
  | nil =>
      intro _
      apply OrdMap.ext
      intro d
      rw [List.foldl_nil, OrdMap.search_mapIdx]
      cases topo.search d <;> rfl
  | append_singleton done a ih =>
      intro hdone
      rw [List.foldl_concat, ih (fun b hb => hdone b (List.mem_append_left _ hb))]
      obtain ⟨ta, hta⟩ := OrdMap.mem_iff.mp (hdone a (by simp))
      rw [OrdMap.search_mapIdx, hta]
      simp only [Option.map_some]
      rw [foldl_duplicateOne]
      apply OrdMap.ext
      intro d
      rw [OrdMap.search_mapIdx, OrdMap.search_mapIdx, OrdMap.search_mapIdx]
      cases htd : topo.search d with
      | none => rfl
      | some telem =>
          simp only [Option.map_some, Option.some.injEq]
          rw [addReverse_concat]
          have hadv : Advertises topo a d ↔ d ∈ ta.anTree := by
            simp [Advertises, hta]
          by_cases hd : d ≠ ownIp ∧ Advertises topo a d
          · rw [if_pos hd, if_pos]
            refine ⟨?_, hd.1⟩
            apply mem_addReverse.mpr
            left
            apply hadv.mp hd.2
          · rw [if_neg hd]
            split_ifs with hmem
            · -- Only an originator that `a` was added for is left: it has `a` already.
              rcases mem_addReverse.mp hmem.1 with hmem' | ⟨-, -, hmem'⟩
              · apply absurd ⟨hmem.2, hadv.mpr hmem'⟩ hd
              · obtain ⟨telem', htelem', ha⟩ := hmem'
                rw [htd, Option.some.injEq] at htelem'
                subst htelem'
                simp only [TopologyInfoElem.mk.injEq, true_and, and_true]
                apply OrdMap.insert_of_mem
                apply mem_addReverse.mpr
                left
                apply ha
            · rfl

/-- No advertised neighbour bears the mark of an addition. -/
def NotDuplicated (topo : OrdMap InAddr TopologyInfoElem) : Prop :=
  ∀ d telem, topo.search d = some telem →
    ∀ a aelem, telem.anTree.search a = some aelem → aelem.duplicated = false

/-- Taking the additions back restores a topology tree that bore none. -/
theorem unduplicate_duplicate (ownIp : InAddr) {topo : OrdMap InAddr TopologyInfoElem}
    (h : NotDuplicated topo) :
  unduplicateNeighInfo (duplicateNeighInfo ownIp topo) = topo
  := by
  rw [duplicateNeighInfo_eq, unduplicateNeighInfo]
  apply OrdMap.ext
  intro d
  rw [OrdMap.search_mapIdx, OrdMap.search_mapIdx]
  cases htd : topo.search d with
  | none => rfl
  | some telem =>
      have htree : (addReverse ownIp topo topo.keys d telem.anTree).filter
          (fun aelem => !aelem.duplicated) = telem.anTree := by
        apply OrdMap.ext
        intro a
        rw [OrdMap.search_filter, search_addReverse]
        by_cases ha : a ∈ telem.anTree
        · obtain ⟨aelem, haelem⟩ := OrdMap.mem_iff.mp ha
          simp [ha, haelem, h d telem htd a aelem haelem]
        · rw [if_neg ha, OrdMap.search_eq_none.mpr ha]
          split_ifs
          · rfl
          · rfl
      simp only [Option.map_some, htree]

/-! ### The search is a breadth-first search -/

/-- The edges followed from `d`: its advertised neighbours other than this node. -/
def spfNext (ownIp : InAddr) (topo : OrdMap InAddr TopologyInfoElem) (d : InAddr) : List InAddr :=
  if d = ownIp then []
  else
    match topo.search d with
    | none => []
    | some telem => telem.anTree.keys.filter (fun a => a ≠ ownIp)

/-- The loop over the advertised neighbours visits those other than this node. -/
theorem foldl_visitAdvertised (ownIp : InAddr) (curr : RoutingEntry) (l : List InAddr)
    (st : Bfs.State InAddr) :
  l.foldl (visitAdvertised ownIp curr) st
    = (l.filter (fun a => a ≠ ownIp)).foldl (Bfs.visit curr) st
  := by
  induction l generalizing st with
  | nil => rfl
  | cons a l ih =>
      rw [List.foldl_cons, ih, visitAdvertised]
      by_cases ha : a = ownIp
      · simp [ha]
      · rw [if_neg ha, List.filter_cons_of_pos (by simpa using ha), List.foldl_cons]
        rfl

/-- The loop of `calc_routing_table` is a breadth-first search. -/
theorem spfLoop_eq_search (ownIp : InAddr) (topo : OrdMap InAddr TopologyInfoElem) (fuel : ℕ)
    (st : Bfs.State InAddr) :
  spfLoop ownIp topo fuel st = Bfs.search (spfNext ownIp topo) fuel st
  := by
  induction fuel generalizing st with
  | zero => rfl
  | succ fuel ih =>
      obtain ⟨table, queue⟩ := st
      cases queue with
      | nil => rfl
      | cons curr queue =>
          rw [spfLoop, Bfs.search, spfNext]
          by_cases hown : curr.dest = ownIp
          · rw [if_pos hown, if_pos hown]
            apply ih
          · rw [if_neg hown, if_neg hown]
            cases topo.search curr.dest with
            | none => apply ih
            | some telem => simp only [foldl_visitAdvertised, ih]

/-- An edge leads from an originator to a neighbour it advertises, or to an originator that
advertises it; this node is on no edge. -/
theorem mem_spfNext {ownIp : InAddr} {topo : OrdMap InAddr TopologyInfoElem} {d a : InAddr} :
  a ∈ spfNext ownIp (duplicateNeighInfo ownIp topo) d ↔
    d ≠ ownIp ∧ a ≠ ownIp ∧ d ∈ topo ∧ (Advertises topo d a ∨ Advertises topo a d)
  := by
  rw [spfNext, duplicateNeighInfo_eq, OrdMap.search_mapIdx]
  by_cases hd : d = ownIp
  · simp [hd]
  · rw [if_neg hd]
    cases htd : topo.search d with
    | none => simp [OrdMap.search_eq_none.mp htd]
    | some telem =>
        have hmem : a ∈ topo ∧ Advertises topo a d ↔ Advertises topo a d := by
          constructor
          · rintro ⟨-, hadv⟩
            apply hadv
          · rintro ⟨telem', htelem', hd'⟩
            exact ⟨OrdMap.mem_of_search htelem', telem', htelem', hd'⟩
        have hself : Advertises topo d a ↔ a ∈ telem.anTree := by
          simp [Advertises, htd]
        simp only [Option.map_some, List.mem_filter, OrdMap.mem_keys, mem_addReverse, hself,
          OrdMap.mem_of_search htd, hd, hmem, ne_eq, not_false_eq_true, true_and,
          decide_not, Bool.not_eq_true', decide_eq_false_iff_not]
        tauto

/-! ### The first entries -/

/-- The neighbour `a` is symmetric. -/
def IsSymNeigh (neighborTree : OrdMap InAddr NeighborElem) (a : InAddr) : Prop :=
  ∃ n, neighborTree.search a = some n ∧ n.status.isSym = true

/-- The entry of a symmetric neighbour. -/
def oneHopEntry (a : InAddr) : RoutingEntry := ⟨a, 1, [a]⟩

/-- What the loop over the neighbours has entered after the neighbours `done`. -/
structure OneHop (done : List (InAddr × NeighborElem)) (st : Bfs.State InAddr) : Prop where
  search : ∀ a e, st.1.search a = some e ↔
    e = oneHopEntry a ∧ ∃ n, (a, n) ∈ done ∧ n.status.isSym = true
  queue : ∀ e, e ∈ st.2 ↔ ∃ a, st.1.search a = some e
  count : st.1.count = st.2.length

/-- The body of the loop over the neighbours enters one more neighbour, if it is
symmetric. -/
theorem OneHop.step {done : List (InAddr × NeighborElem)} {st : Bfs.State InAddr}
    (h : OneHop done st) (nelem : InAddr × NeighborElem)
    (hnew : ∀ n, (nelem.1, n) ∉ done) :
  OneHop (done ++ [nelem])
    (if nelem.2.status.isSym then
      (st.1.insert nelem.1 ⟨nelem.1, 1, [nelem.1]⟩, st.2 ++ [⟨nelem.1, 1, [nelem.1]⟩])
    else st)
  := by
  obtain ⟨b, nb⟩ := nelem
  have hb : st.1.search b = none := by
    apply Option.eq_none_iff_forall_ne_some.mpr
    intro e he
    obtain ⟨-, n, hn, -⟩ := (h.search b e).mp he
    apply hnew n hn
  by_cases hsym : nb.status.isSym = true
  · rw [if_pos hsym]
    constructor
    · intro a e
      rw [OrdMap.search_insert, hb]
      by_cases hab : a = b
      · subst hab
        rw [if_pos rfl, Option.getD_none, Option.some.injEq]
        constructor
        · rintro rfl
          exact ⟨rfl, nb, by simp, hsym⟩
        · rintro ⟨rfl, -⟩
          rfl
      · rw [if_neg hab, h.search]
        simp [hab]
    · intro e
      simp only [List.mem_append, List.mem_singleton, OrdMap.search_insert, hb, h.queue,
        Option.getD_none]
      constructor
      · rintro (⟨a, ha⟩ | rfl)
        · use a
          rw [if_neg]
          · apply ha
          · rintro rfl
            rw [hb] at ha
            contradiction
        · use b
          rw [if_pos rfl]
      · rintro ⟨a, ha⟩
        split_ifs at ha with hab
        · right
          apply (Option.some.inj ha).symm
        · left
          use a
    · rw [OrdMap.count_insert_of_not_mem (OrdMap.search_eq_none.mp hb), h.count,
        List.length_append, List.length_singleton]
  · rw [if_neg hsym]
    constructor
    · intro a e
      rw [h.search]
      have hiff : (∃ n, (a, n) ∈ done ∧ n.status.isSym = true) ↔
          ∃ n, (a, n) ∈ done ++ [(b, nb)] ∧ n.status.isSym = true := by
        constructor
        · rintro ⟨n, hn, hs⟩
          exact ⟨n, List.mem_append_left _ hn, hs⟩
        · rintro ⟨n, hn, hs⟩
          rcases List.mem_append.mp hn with hn | hn
          · exact ⟨n, hn, hs⟩
          · obtain ⟨rfl, rfl⟩ := Prod.mk.inj (List.mem_singleton.mp hn)
            apply absurd hs hsym
      rw [hiff]
    · apply h.queue
    · apply h.count

/-- The symmetric neighbours are entered and queued, each with one hop. -/
theorem routingTableAddOneHopNeigh_spec (neighborTree : OrdMap InAddr NeighborElem) :
  OneHop neighborTree.entries (routingTableAddOneHopNeigh neighborTree)
  := by
  have hsteps : ∀ done rest : List (InAddr × NeighborElem),
      (done ++ rest).Pairwise (fun e e' => e.1 < e'.1) → ∀ st, OneHop done st →
      OneHop (done ++ rest) (rest.foldl
        (fun st nelem =>
          if nelem.2.status.isSym then
            (st.1.insert nelem.1 ⟨nelem.1, 1, [nelem.1]⟩, st.2 ++ [⟨nelem.1, 1, [nelem.1]⟩])
          else st) st) := by
    intro done rest
    induction rest generalizing done with
    | nil =>
        intro _ st h
        rw [List.append_nil]
        apply h
    | cons nelem rest ih =>
        intro hsorted st h
        have hnew : ∀ n, (nelem.1, n) ∉ done := by
          intro n hn
          have hlt := (List.pairwise_append.mp hsorted).2.2 _ hn nelem List.mem_cons_self
          apply lt_irrefl _ hlt
        rw [List.append_cons] at hsorted ⊢
        apply ih _ hsorted _ (h.step nelem hnew)
  apply hsteps [] neighborTree.entries neighborTree.sorted
  constructor
  · intro a e
    simp
  · intro e
    simp
  · rfl

/-- The search starts from the symmetric neighbours. -/
theorem routingTableAddOneHopNeigh_inv (next : InAddr → List InAddr)
    (neighborTree : OrdMap InAddr NeighborElem) :
  Bfs.Inv next (IsSymNeigh neighborTree) (routingTableAddOneHopNeigh neighborTree)
  := by
  have h := routingTableAddOneHopNeigh_spec neighborTree
  have hone : ∀ a e, (routingTableAddOneHopNeigh neighborTree).1.search a = some e →
      e = oneHopEntry a := fun a e he => ((h.search a e).mp he).1
  have hhop : ∀ e ∈ (routingTableAddOneHopNeigh neighborTree).2, e.hopCount = 1 := by
    intro e he
    obtain ⟨a, ha⟩ := (h.queue e).mp he
    rw [hone a e ha]
    rfl
  constructor
  · intro a e he
    rw [hone a e he]
    rfl
  · intro e he
    obtain ⟨a, ha⟩ := (h.queue e).mp he
    obtain rfl := hone a e ha
    apply ha
  · intro a e he
    obtain ⟨rfl, n, hn, hsym⟩ := (h.search a e).mp he
    constructor
    · exact ⟨a, rfl, n, OrdMap.search_eq_some.mpr hn, hsym⟩
    · rfl
    · apply List.isChain_singleton
    · rfl
    · apply List.nodup_singleton
    · intro b hb
      obtain rfl := List.mem_singleton.mp hb
      apply OrdMap.mem_of_search he
  · rintro a ⟨n, hn, hsym⟩
    use oneHopEntry a
    exact ⟨(h.search a _).mpr ⟨rfl, n, OrdMap.search_eq_some.mp hn, hsym⟩, rfl⟩
  · apply List.pairwise_of_forall_mem_list
    intro e he e' he'
    rw [hhop e he, hhop e' he']
  · intro c hc a e he
    rw [hone a e he, hhop c hc]
    apply Nat.le_succ
  · intro a e he
    left
    apply (h.queue e).mpr ⟨a, he⟩

/-! ### The routing table -/

/-- The loop empties the visit queue. -/
theorem spfLoop_queue_empty (ownIp : InAddr) (neighborTree : OrdMap InAddr NeighborElem)
    (topo : OrdMap InAddr TopologyInfoElem) :
  (spfLoop ownIp topo (spfUniverse neighborTree topo).length
    (routingTableAddOneHopNeigh neighborTree)).2 = []
  := by
  have h := routingTableAddOneHopNeigh_spec neighborTree
  rw [spfLoop_eq_search]
  apply Bfs.search_queue_empty (spfUniverse neighborTree topo)
  · intro d a ha
    rw [spfNext] at ha
    split_ifs at ha
    · contradiction
    · cases htd : topo.search d with
      | none => simp [htd] at ha
      | some telem =>
          simp only [htd, List.mem_filter] at ha
          apply List.mem_append_right
          apply List.mem_flatMap.mpr
          exact ⟨(d, telem), OrdMap.search_eq_some.mp htd, ha.1⟩
  · intro a ha
    obtain ⟨e, he⟩ := OrdMap.mem_iff.mp ha
    obtain ⟨-, n, hn, -⟩ := (h.search a e).mp he
    apply List.mem_append_left
    apply List.mem_map.mpr ⟨(a, n), hn, rfl⟩
  · rw [h.count]

/-- The routing table holds the addresses reachable from the symmetric neighbours along the
edges, each with the least number of hops and a route of that length. -/
theorem spfTable_complete (ownIp : InAddr) (neighborTree : OrdMap InAddr NeighborElem)
    (topo : OrdMap InAddr TopologyInfoElem) :
  Bfs.Complete (spfNext ownIp (duplicateNeighInfo ownIp topo)) (IsSymNeigh neighborTree)
    (spfTable ownIp neighborTree topo)
  := by
  apply Bfs.Inv.complete
  have hinv := (routingTableAddOneHopNeigh_inv
    (spfNext ownIp (duplicateNeighInfo ownIp topo)) neighborTree).search
    (spfUniverse neighborTree (duplicateNeighInfo ownIp topo)).length
  have hempty := spfLoop_queue_empty ownIp neighborTree (duplicateNeighInfo ownIp topo)
  rw [← spfLoop_eq_search] at hinv
  rw [← hempty]
  apply hinv

/-! ### What the routing table depends on -/

/-- The symmetric neighbours in increasing order. -/
def symNeighbors (neighborTree : OrdMap InAddr NeighborElem) : List InAddr :=
  (neighborTree.entries.filter (fun nelem => nelem.2.status.isSym)).map Prod.fst

theorem mem_symNeighbors {neighborTree : OrdMap InAddr NeighborElem} {a : InAddr} :
  a ∈ symNeighbors neighborTree ↔ IsSymNeigh neighborTree a
  := by
  simp only [symNeighbors, List.mem_map, List.mem_filter, IsSymNeigh, OrdMap.search_eq_some]
  constructor
  · rintro ⟨⟨b, n⟩, ⟨hn, hsym⟩, rfl⟩
    exact ⟨n, hn, hsym⟩
  · rintro ⟨n, hn, hsym⟩
    exact ⟨(a, n), ⟨hn, hsym⟩, rfl⟩

theorem symNeighbors_sorted (neighborTree : OrdMap InAddr NeighborElem) :
  (symNeighbors neighborTree).Pairwise (· < ·)
  := List.pairwise_map.mpr (neighborTree.sorted.filter _)

/-- The loop over the neighbours runs over the symmetric ones. -/
theorem routingTableAddOneHopNeigh_eq (neighborTree : OrdMap InAddr NeighborElem) :
  routingTableAddOneHopNeigh neighborTree =
    (symNeighbors neighborTree).foldl
      (fun st a => (st.1.insert a (oneHopEntry a), st.2 ++ [oneHopEntry a])) (.empty, [])
  := by
  have hsteps : ∀ (l : List (InAddr × NeighborElem)) (st : Bfs.State InAddr),
      l.foldl (fun st nelem =>
        if nelem.2.status.isSym then
          (st.1.insert nelem.1 ⟨nelem.1, 1, [nelem.1]⟩, st.2 ++ [⟨nelem.1, 1, [nelem.1]⟩])
        else st) st =
      ((l.filter (fun nelem => nelem.2.status.isSym)).map Prod.fst).foldl
        (fun st a => (st.1.insert a (oneHopEntry a), st.2 ++ [oneHopEntry a])) st := by
    intro l
    induction l with
    | nil =>
        intro st
        rfl
    | cons nelem l ih =>
        intro st
        rw [List.foldl_cons, ih]
        by_cases hsym : nelem.2.status.isSym = true
        · rw [if_pos hsym, List.filter_cons, if_pos hsym, List.map_cons, List.foldl_cons]
          rfl
        · rw [if_neg hsym, List.filter_cons, if_neg hsym]
  apply hsteps

theorem spfNext_sorted (ownIp : InAddr) (topo : OrdMap InAddr TopologyInfoElem) (d : InAddr) :
  (spfNext ownIp topo d).Pairwise (· < ·)
  := by
  rw [spfNext]
  split_ifs
  · apply List.Pairwise.nil
  · cases topo.search d with
    | none => apply List.Pairwise.nil
    | some telem => apply telem.anTree.keys_sorted.filter

/-- The routing table depends on the symmetric neighbours and the edges only. -/
theorem spfTable_congr {ownIp : InAddr} {neighborTree neighborTree' : OrdMap InAddr NeighborElem}
    {topo topo' : OrdMap InAddr TopologyInfoElem}
    (hsym : ∀ a, IsSymNeigh neighborTree a ↔ IsSymNeigh neighborTree' a)
    (hnext : ∀ d a, a ∈ spfNext ownIp (duplicateNeighInfo ownIp topo) d ↔
      a ∈ spfNext ownIp (duplicateNeighInfo ownIp topo') d) :
  spfTable ownIp neighborTree topo = spfTable ownIp neighborTree' topo'
  := by
  have hstart : routingTableAddOneHopNeigh neighborTree =
      routingTableAddOneHopNeigh neighborTree' := by
    rw [routingTableAddOneHopNeigh_eq, routingTableAddOneHopNeigh_eq]
    congr 1
    apply OrdMap.eq_of_pairwise_lt (symNeighbors_sorted _) (symNeighbors_sorted _)
    intro a
    rw [mem_symNeighbors, mem_symNeighbors, hsym]
  have hedges : spfNext ownIp (duplicateNeighInfo ownIp topo) =
      spfNext ownIp (duplicateNeighInfo ownIp topo') := by
    funext d
    apply OrdMap.eq_of_pairwise_lt (spfNext_sorted _ _ _) (spfNext_sorted _ _ _) (hnext d)
  -- Both searches empty their queues, so that more fuel makes no difference.
  have hempty := spfLoop_queue_empty ownIp neighborTree (duplicateNeighInfo ownIp topo)
  have hempty' := spfLoop_queue_empty ownIp neighborTree' (duplicateNeighInfo ownIp topo')
  rw [spfLoop_eq_search] at hempty hempty'
  rw [← hedges, ← hstart] at hempty'
  simp only [spfTable, spfLoop_eq_search]
  rw [← hedges, ← hstart]
  rw [← Bfs.search_of_queue_empty hempty
    (spfUniverse neighborTree' (duplicateNeighInfo ownIp topo')).length,
    ← Bfs.search_of_queue_empty hempty'
    (spfUniverse neighborTree (duplicateNeighInfo ownIp topo)).length, Nat.add_comm]

namespace OlsrContext

/-! ### What `calc_routing_table` changes -/

/-- Recording a route changes the statistics only. -/
theorem updateRoutingInfo_eq (ctx : OlsrContext) (dest : InAddr) (f : RoutingInfo → RoutingInfo) :
  ∃ info tree, ctx.updateRoutingInfo dest f = { ctx with nodeInfo := info, nodeStatTree := tree }
  := by
  cases hstat : ctx.nodeStatTree.search dest with
  | some i =>
      simp only [updateRoutingInfo, getNeighborstatBuf, hstat]
      exact ⟨_, ctx.nodeStatTree, rfl⟩
  | none =>
      cases hinfo : ctx.nodeInfo.findIdx? (fun info => info.addr = dest) with
      | some i =>
          simp only [updateRoutingInfo, getNeighborstatBuf, hstat, hinfo]
          exact ⟨_, _, rfl⟩
      | none =>
          simp only [updateRoutingInfo, getNeighborstatBuf, hstat, hinfo]
          exact ⟨_, _, rfl⟩

/-- Steps that change the statistics only, one after the other, change the statistics
only. -/
theorem foldl_stat_eq {β : Type} (step : OlsrContext → β → OlsrContext)
    (hstep : ∀ ctx b, ∃ info tree,
      step ctx b = { ctx with nodeInfo := info, nodeStatTree := tree })
    (l : List β) (ctx : OlsrContext) :
  ∃ info tree, l.foldl step ctx = { ctx with nodeInfo := info, nodeStatTree := tree }
  := by
  induction l generalizing ctx with
  | nil => exact ⟨ctx.nodeInfo, ctx.nodeStatTree, rfl⟩
  | cons b l ih =>
      obtain ⟨info, tree, hb⟩ := hstep ctx b
      obtain ⟨info', tree', hl⟩ := ih (step ctx b)
      use info', tree'
      rw [List.foldl_cons, hl, hb]

/-- Recording the changed routes changes the statistics only. -/
theorem updateRouteInfo_eq (ctx : OlsrContext) (oldTable newTable : OrdMap InAddr RoutingEntry) :
  ∃ info tree,
    ctx.updateRouteInfo oldTable newTable = { ctx with nodeInfo := info, nodeStatTree := tree }
  := by
  obtain ⟨info, tree, hdisconnected⟩ : ∃ info tree,
      ctx.updateRouteInfoDisconnected oldTable newTable
        = { ctx with nodeInfo := info, nodeStatTree := tree } := by
    apply foldl_stat_eq
    intro ctx dest
    split_ifs
    · exact ⟨ctx.nodeInfo, ctx.nodeStatTree, rfl⟩
    · apply updateRoutingInfo_eq
  obtain ⟨info', tree', hchanged⟩ : ∃ info tree,
      (ctx.updateRouteInfoDisconnected oldTable newTable).updateRouteInfoChanged oldTable newTable
        = { ctx.updateRouteInfoDisconnected oldTable newTable with
            nodeInfo := info, nodeStatTree := tree } := by
    apply foldl_stat_eq
    intro ctx new
    dsimp only
    generalize (match oldTable.search new.1 with
      | some old => !routeChanged new.2.hopCount new.2.route old.route
      | none => false) = unchanged
    cases unchanged with
    | true => exact ⟨ctx.nodeInfo, ctx.nodeStatTree, rfl⟩
    | false =>
        simp only [Bool.false_eq_true, if_false]
        apply updateRoutingInfo_eq
  use info', tree'
  rw [updateRouteInfo, hchanged, hdisconnected]

/-- Apart from the statistics, `calc_routing_table` sets the routing table only, to a function
of the own address, the neighbours and the topology. -/
theorem calcRoutingTable_eq (ctx : OlsrContext) (h : NotDuplicated ctx.topologyTree) :
  ∃ info tree, ctx.calcRoutingTable =
    { ctx with
      routingTable := spfTable ctx.ownIp ctx.neighborTree ctx.topologyTree
      nodeInfo := info
      nodeStatTree := tree }
  := by
  obtain ⟨info, tree, heq⟩ := updateRouteInfo_eq
    { ctx with
      topologyTree := unduplicateNeighInfo (duplicateNeighInfo ctx.ownIp ctx.topologyTree)
      routingTable := spfTable ctx.ownIp ctx.neighborTree ctx.topologyTree }
    ctx.routingTable (spfTable ctx.ownIp ctx.neighborTree ctx.topologyTree)
  use info, tree
  apply Eq.trans heq
  rw [unduplicate_duplicate ctx.ownIp h]

/-- The routing table after `calc_routing_table`. -/
theorem calcRoutingTable_routingTable (ctx : OlsrContext) :
  ctx.calcRoutingTable.routingTable = spfTable ctx.ownIp ctx.neighborTree ctx.topologyTree
  := by
  obtain ⟨info, tree, heq⟩ := updateRouteInfo_eq
    { ctx with
      topologyTree := unduplicateNeighInfo (duplicateNeighInfo ctx.ownIp ctx.topologyTree)
      routingTable := spfTable ctx.ownIp ctx.neighborTree ctx.topologyTree }
    ctx.routingTable (spfTable ctx.ownIp ctx.neighborTree ctx.topologyTree)
  apply Eq.trans (congrArg OlsrContext.routingTable heq)
  rfl

end OlsrContext
