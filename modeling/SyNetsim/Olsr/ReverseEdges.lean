import SyNetsim.Lib.Traverse
import SyNetsim.Olsr.Capacity

/-!
# Reverse edges put in and taken out

The loops of `duplicate_neigh_info` insert elements into trees that they are going through, or will
go through later. What they insert into a tree while they go through it is there already, and what
they have inserted into a tree before makes them insert nothing new. So they add to the neighbours
of each originator the originators that advertise it, as `duplicateNeighInfo` does.

`unduplicate_neigh_info` keeps the elements to be deleted from one tree in an array of 50. If that
is enough, it deletes all that was added and nothing else
(`OlsrContext.calcRoutingTableLoop_restores`).
-/

/-! ### The loops -/

/-- The tree `an_tree` of an originator. -/
def anTreeOf (topo : OrdMap InAddr TopologyInfoElem) (dest : InAddr) :
    OrdMap InAddr AdvertisedNeighElem :=
  (topo.search dest).elim .empty TopologyInfoElem.anTree

/-- The inner loop of `duplicate_neigh_info`. -/
def duplicateLoop (ownIp dest : InAddr) (topo : OrdMap InAddr TopologyInfoElem) :
    Option (OrdMap InAddr TopologyInfoElem) :=
  OrdMap.forTree (fun topo => anTreeOf topo dest)
    (fun topo lastAddr => some (duplicateOne ownIp dest topo lastAddr)) topo

/-- `duplicate_neigh_info`, with loops over the trees as they are by then. -/
def duplicateNeighInfoLoop (ownIp : InAddr) (topo : OrdMap InAddr TopologyInfoElem) :
    Option (OrdMap InAddr TopologyInfoElem) :=
  OrdMap.forTree id (fun topo dest => duplicateLoop ownIp dest topo) topo

/-- The first inner loop of `unduplicate_neigh_info`: the elements of the array `duplicates`. It
gives `none` if there is no room for one. -/
def collectDuplicates (anTree : OrdMap InAddr AdvertisedNeighElem) : Option (List InAddr) :=
  OrdMap.forTree (fun _ => anTree)
    (fun duplicates lastAddr => do
      let aelem ← anTree.search lastAddr
      if aelem.duplicated then
        if duplicates.length < maxDuplicates then some (duplicates ++ [lastAddr]) else none
      else some duplicates)
    []

/-- `unduplicate_neigh_info`, with its array. -/
def unduplicateNeighInfoLoop (topo : OrdMap InAddr TopologyInfoElem) :
    Option (OrdMap InAddr TopologyInfoElem) :=
  OrdMap.forTree id
    (fun topo dest => do
      let duplicates ← collectDuplicates (anTreeOf topo dest)
      return topo.modify dest (fun telem =>
        { telem with anTree := duplicates.foldl OrdMap.erase telem.anTree }))
    topo

/-! ### Putting in -/

theorem anTreeOf_eq {topo : OrdMap InAddr TopologyInfoElem} {dest : InAddr}
    {telem : TopologyInfoElem} (h : topo.search dest = some telem) :
  anTreeOf topo dest = telem.anTree
  := by rw [anTreeOf, h, Option.elim_some]

/-- The inner loop leaves the keys of the topology tree as they are. -/
theorem keys_foldl_duplicateOne (ownIp dest : InAddr) (l : List InAddr)
    (topo : OrdMap InAddr TopologyInfoElem) :
  (l.foldl (duplicateOne ownIp dest) topo).keys = topo.keys
  := by rw [foldl_duplicateOne, OrdMap.keys_mapIdx]

/-- The inner loop leaves the keys of the tree that it goes through as they are: `dest` is added to
its own neighbours only if it is one of them. -/
theorem keys_anTreeOf_foldl (ownIp dest : InAddr) {l : List InAddr}
    {topo : OrdMap InAddr TopologyInfoElem} (hl : ∀ a ∈ l, a ∈ anTreeOf topo dest) :
  (anTreeOf (l.foldl (duplicateOne ownIp dest) topo) dest).keys = (anTreeOf topo dest).keys
  := by
  rw [foldl_duplicateOne]
  cases htd : topo.search dest with
  | none => rw [anTreeOf, anTreeOf, OrdMap.search_mapIdx, htd, Option.map_none]
  | some telem =>
      rw [anTreeOf, OrdMap.search_mapIdx, htd, Option.map_some, Option.elim_some]
      rw [anTreeOf_eq htd] at hl ⊢
      split_ifs with hdest
      · rw [OrdMap.insert_of_mem (hl dest hdest.1)]
      · rfl

/-- A round of the outer loop, over the keys that the tree of `dest` has at its start. -/
def duplicateRound (ownIp : InAddr) (topo : OrdMap InAddr TopologyInfoElem) (dest : InAddr) :
    OrdMap InAddr TopologyInfoElem :=
  (anTreeOf topo dest).keys.foldl (duplicateOne ownIp dest) topo

/-- The inner loop goes through the keys that the tree has at its start. -/
theorem duplicateLoop_eq (ownIp dest : InAddr) (topo : OrdMap InAddr TopologyInfoElem) :
  duplicateLoop ownIp dest topo = some (duplicateRound ownIp topo dest)
  := by
  rw [duplicateRound]
  suffices hloop : ∃ topo', duplicateLoop ownIp dest topo = some topo' ∧
      (∀ a ∈ (anTreeOf topo dest).keys, a ∈ anTreeOf topo dest) ∧
      topo' = (anTreeOf topo dest).keys.foldl (duplicateOne ownIp dest) topo by
    obtain ⟨topo', htopo', -, rfl⟩ := hloop
    apply htopo'
  apply OrdMap.forTree_rule (fun done s => (∀ a ∈ done, a ∈ anTreeOf topo dest) ∧
    s = done.foldl (duplicateOne ownIp dest) topo)
  · rintro done s ⟨hdone, rfl⟩
    apply keys_anTreeOf_foldl ownIp dest hdone
  · rintro done k rest s hks ⟨hdone, rfl⟩
    have hk : k ∈ anTreeOf topo dest := by
      rw [← OrdMap.mem_keys, hks]
      simp
    refine ⟨_, rfl, ?_, by rw [List.foldl_concat]⟩
    intro a ha
    rcases List.mem_append.mp ha with ha | ha
    · apply hdone a ha
    · rw [List.mem_singleton.mp ha]
      apply hk
  · exact ⟨by simp, rfl⟩

/-- The loops of `duplicate_neigh_info` do what `duplicateNeighInfo` does. -/
theorem duplicateNeighInfoLoop_eq (ownIp : InAddr) (topo : OrdMap InAddr TopologyInfoElem) :
  duplicateNeighInfoLoop ownIp topo = some (duplicateNeighInfo ownIp topo)
  := by
  have hrounds : duplicateNeighInfo ownIp topo = topo.keys.foldl (duplicateRound ownIp) topo := by
    rw [duplicateNeighInfo]
    congr 1
    funext s dest
    rw [duplicateRound, anTreeOf]
    cases s.search dest <;> rfl
  suffices hloop : ∃ topo', duplicateNeighInfoLoop ownIp topo = some topo' ∧
      topo'.keys = topo.keys ∧ topo' = topo.keys.foldl (duplicateRound ownIp) topo by
    obtain ⟨topo', htopo', -, rfl⟩ := hloop
    rw [htopo', hrounds]
  apply OrdMap.forTree_rule
    (fun done s => s.keys = topo.keys ∧ s = done.foldl (duplicateRound ownIp) topo)
  · rintro done s ⟨hkeys, -⟩
    apply hkeys
  · rintro done k rest s - ⟨hkeys, hs⟩
    refine ⟨_, duplicateLoop_eq ownIp k s, ?_, ?_⟩
    · rw [duplicateRound, keys_foldl_duplicateOne, hkeys]
    · rw [List.foldl_concat, hs]
  · exact ⟨rfl, rfl⟩

/-! ### Taking out -/

/-- The elements of a tree that are marked. -/
def marked (anTree : OrdMap InAddr AdvertisedNeighElem) : OrdMap InAddr AdvertisedNeighElem :=
  anTree.filter (fun aelem => aelem.duplicated)

/-- The array holds the marked elements, if there is room for them. -/
theorem collectDuplicates_eq {anTree : OrdMap InAddr AdvertisedNeighElem}
    (hroom : (marked anTree).count ≤ maxDuplicates) :
  collectDuplicates anTree = some (marked anTree).keys
  := by
  have hall : anTree.keys.filter (fun a => a ∈ marked anTree) = (marked anTree).keys := by
    apply OrdMap.eq_of_pairwise_lt (anTree.keys_sorted.filter _) (OrdMap.keys_sorted _)
    intro a
    rw [List.mem_filter, decide_eq_true_eq, OrdMap.mem_keys, OrdMap.mem_keys]
    constructor
    · rintro ⟨-, ha⟩
      apply ha
    · intro ha
      refine ⟨?_, ha⟩
      obtain ⟨aelem, haelem⟩ := OrdMap.mem_iff.mp ha
      rw [marked, OrdMap.search_filter, Option.filter_eq_some_iff] at haelem
      apply OrdMap.mem_of_search haelem.1
  suffices hloop : ∃ duplicates, collectDuplicates anTree = some duplicates ∧
      duplicates = anTree.keys.filter (fun a => a ∈ marked anTree) by
    obtain ⟨duplicates, hduplicates, rfl⟩ := hloop
    rw [hduplicates, hall]
  apply OrdMap.forTree_rule (fun done s => s = done.filter (fun a => a ∈ marked anTree))
  · intro _ _ _
    rfl
  · rintro done k rest s hks rfl
    have hk : k ∈ anTree := by
      rw [← OrdMap.mem_keys, hks]
      simp
    obtain ⟨aelem, haelem⟩ := OrdMap.mem_iff.mp hk
    have hmarked : k ∈ marked anTree ↔ aelem.duplicated = true := by
      rw [OrdMap.mem_iff, marked, OrdMap.search_filter, haelem]
      simp [Option.filter_some]
    rw [List.filter_append, haelem, Option.bind_eq_bind, Option.bind_some]
    by_cases hdup : aelem.duplicated = true
    · -- There is room for one more, which is counted in.
      have hless : (done.filter (fun a => a ∈ marked anTree)).length < maxDuplicates := by
        have hlength := congrArg List.length hall
        rw [hks, List.filter_append, List.length_append, OrdMap.length_keys,
          List.filter_cons_of_pos (by simpa using hmarked.mpr hdup), List.length_cons] at hlength
        omega
      rw [if_pos hdup, if_pos hless]
      refine ⟨_, rfl, ?_⟩
      rw [List.filter_cons_of_pos (by simpa using hmarked.mpr hdup), List.filter_nil]
    · rw [if_neg hdup]
      refine ⟨_, rfl, ?_⟩
      rw [List.filter_cons_of_neg (by simpa using hmarked.not.mpr hdup), List.filter_nil,
        List.append_nil]
  · rfl

/-- Deleting one key after the other. -/
theorem OrdMap.search_foldl_erase {α β : Type*} [LinearOrder α] (l : List α) (m : OrdMap α β)
    (k : α) :
  (l.foldl OrdMap.erase m).search k = if k ∈ l then none else m.search k
  := by
  induction l generalizing m with
  | nil => rfl
  | cons a l ih =>
      rw [List.foldl_cons, ih, OrdMap.search_erase]
      by_cases hk : k = a
      · simp [hk]
      · simp [hk]

/-- Deleting the marked elements leaves the others. -/
theorem foldl_erase_marked (anTree : OrdMap InAddr AdvertisedNeighElem) :
  (marked anTree).keys.foldl OrdMap.erase anTree = anTree.filter (fun aelem => !aelem.duplicated)
  := by
  apply OrdMap.ext
  intro a
  rw [OrdMap.search_foldl_erase, OrdMap.search_filter]
  have hmarked : a ∈ (marked anTree).keys ↔
      ((anTree.search a).filter (fun aelem => aelem.duplicated)).isSome := by
    rw [OrdMap.mem_keys, OrdMap.mem_iff, marked, OrdMap.search_filter, Option.isSome_iff_exists]
  simp only [hmarked]
  cases anTree.search a with
  | none => simp
  | some aelem => cases hdup : aelem.duplicated <;> simp [Option.filter_some, hdup]

/-- The loops of `unduplicate_neigh_info` do what `unduplicateNeighInfo` does, if there is room in
the array for the marked elements of each tree. -/
theorem unduplicateNeighInfoLoop_eq {topo : OrdMap InAddr TopologyInfoElem}
    (hroom : ∀ d telem, topo.search d = some telem → (marked telem.anTree).count ≤ maxDuplicates) :
  unduplicateNeighInfoLoop topo = some (unduplicateNeighInfo topo)
  := by
  let unmark : TopologyInfoElem → TopologyInfoElem := fun telem =>
    { telem with anTree := telem.anTree.filter (fun aelem => !aelem.duplicated) }
  suffices hloop : ∃ topo', unduplicateNeighInfoLoop topo = some topo' ∧
      topo' = topo.mapIdx (fun d telem => if d ∈ topo.keys then unmark telem else telem) by
    obtain ⟨topo', htopo', rfl⟩ := hloop
    rw [htopo', unduplicateNeighInfo, Option.some.injEq]
    apply OrdMap.ext
    intro d
    rw [OrdMap.search_mapIdx, OrdMap.search_mapIdx]
    cases htd : topo.search d with
    | none => rfl
    | some telem =>
        have hd : d ∈ topo.keys := OrdMap.mem_of_search htd
        rw [Option.map_some, if_pos hd]
        rfl
  apply OrdMap.forTree_rule (fun done s =>
    s = topo.mapIdx (fun d telem => if d ∈ done then unmark telem else telem))
  · rintro done s rfl
    apply OrdMap.keys_mapIdx
  · rintro done k rest s hks rfl
    have hk : k ∈ topo := by
      rw [← OrdMap.mem_keys, hks]
      simp
    have hdone : k ∉ done := by
      intro hmem
      have hnodup := topo.keys_nodup
      rw [hks, List.nodup_append] at hnodup
      apply hnodup.2.2 k hmem k List.mem_cons_self rfl
    obtain ⟨telem, htelem⟩ := OrdMap.mem_iff.mp hk
    have hsearch : (topo.mapIdx (fun d telem =>
        if d ∈ done then unmark telem else telem)).search k = some telem := by
      rw [OrdMap.search_mapIdx, htelem, Option.map_some, if_neg hdone]
    rw [anTreeOf_eq hsearch, collectDuplicates_eq (hroom k telem htelem)]
    refine ⟨_, rfl, ?_⟩
    apply OrdMap.ext
    intro d
    rw [OrdMap.search_modify, hsearch, OrdMap.search_mapIdx, OrdMap.search_mapIdx]
    by_cases hd : d = k
    · subst hd
      simp [htelem, foldl_erase_marked, unmark]
    · simp [hd]
  · apply OrdMap.ext
    intro d
    rw [OrdMap.search_mapIdx]
    cases topo.search d <;> simp

/-- The originators that advertise one are among those with a topology entry. -/
theorem advertisers_subset (topo : OrdMap InAddr TopologyInfoElem) (d : InAddr) :
  { a | a ≠ d ∧ Advertises topo a d } ⊆ { a | a ∈ topo.keys }
  := by
  rintro a ⟨-, telem, htelem, -⟩
  apply OrdMap.mem_of_search htelem

/-- The marked elements of a tree, once the reverse edges are put in, are no more than the other
originators that advertise its own. -/
theorem count_marked_le {ownIp : InAddr} {topo : OrdMap InAddr TopologyInfoElem}
    (hnot : NotDuplicated topo) {d : InAddr} {telem' : TopologyInfoElem}
    (htelem' : (duplicateNeighInfo ownIp topo).search d = some telem') :
  (marked telem'.anTree).count ≤ { a | a ≠ d ∧ Advertises topo a d }.ncard
  := by
  rw [OrdMap.count_eq_ncard]
  apply Set.ncard_le_ncard
  · intro a ha
    have hmirrored : Mirrored ownIp topo d a := mirrored_iff.mpr ⟨telem', htelem', ha⟩
    obtain ⟨telem, htelem, ⟨aelem, haelem, hdup⟩ | ⟨hnew, -, hadv⟩⟩ := hmirrored
    · rw [hnot d telem htelem a aelem haelem] at hdup
      contradiction
    · refine ⟨?_, hadv⟩
      rintro rfl
      obtain ⟨telem₂, htelem₂, hmem⟩ := hadv
      obtain rfl := Option.some.inj (htelem.symm.trans htelem₂)
      apply hnew hmem
  · apply (List.finite_toSet topo.keys).subset (advertisers_subset topo d)

/-! ### The topology tree while the routing table is calculated -/

/-- A topology tree with its reverse edges: the tree of each originator has its former elements as
they were and, unless it is this node's, those of the other originators that advertise it. -/
structure WithReverse (ownIp : InAddr) (topo topo' : OrdMap InAddr TopologyInfoElem) : Prop where
  keys : topo'.keys = topo.keys
  same : ∀ d telem telem', topo.search d = some telem → topo'.search d = some telem' →
    telem' = { telem with anTree := telem'.anTree }
  mem : ∀ d telem telem', topo.search d = some telem → topo'.search d = some telem' →
    ∀ a, a ∈ telem'.anTree ↔ a ∈ telem.anTree ∨ d ≠ ownIp ∧ a ≠ d ∧ Advertises topo a d
  former : ∀ d telem telem', topo.search d = some telem → topo'.search d = some telem' →
    ∀ a aelem, telem.anTree.search a = some aelem → telem'.anTree.search a = some aelem

theorem duplicateNeighInfo_withReverse (ownIp : InAddr) (topo : OrdMap InAddr TopologyInfoElem) :
  WithReverse ownIp topo (duplicateNeighInfo ownIp topo)
  := by
  rw [duplicateNeighInfo_eq]
  have htelem' : ∀ d telem telem', topo.search d = some telem →
      (topo.mapIdx (fun d telem =>
        { telem with anTree := addReverse ownIp topo topo.keys d telem.anTree })).search d
          = some telem' →
      telem' = { telem with anTree := addReverse ownIp topo topo.keys d telem.anTree } := by
    intro d telem telem' htelem h
    rw [OrdMap.search_mapIdx, htelem] at h
    apply (Option.some.inj h).symm
  constructor
  case keys => apply OrdMap.keys_mapIdx
  case same =>
    intro d telem telem' htelem h
    obtain rfl := htelem' d telem telem' htelem h
    rfl
  case mem =>
    intro d telem telem' htelem h a
    obtain rfl := htelem' d telem telem' htelem h
    rw [mem_addReverse]
    constructor
    · rintro (ha | ⟨-, hd, hadv⟩)
      · left
        apply ha
      · by_cases had : a = d
        · subst had
          obtain ⟨telem₂, htelem₂, hmem⟩ := hadv
          obtain rfl := Option.some.inj (htelem.symm.trans htelem₂)
          left
          apply hmem
        · right
          exact ⟨hd, had, hadv⟩
    · rintro (ha | ⟨hd, -, hadv⟩)
      · left
        apply ha
      · right
        refine ⟨?_, hd, hadv⟩
        obtain ⟨telem₂, htelem₂, -⟩ := hadv
        apply OrdMap.mem_of_search htelem₂
  case former =>
    intro d telem telem' htelem h a aelem haelem
    obtain rfl := htelem' d telem telem' htelem h
    rw [search_addReverse, if_pos (OrdMap.mem_of_search haelem), haelem]

namespace OlsrContext

/-- `calc_routing_table`, with the loops over the topology tree as it is by then. -/
def calcRoutingTableLoop (ctx : OlsrContext) : Option OlsrContext := do
  let topo ← duplicateNeighInfoLoop ctx.ownIp ctx.topologyTree
  let st := spfLoop ctx.ownIp topo (spfUniverse ctx.neighborTree topo).length
    (routingTableAddOneHopNeigh ctx.neighborTree)
  let topologyTree ← unduplicateNeighInfoLoop topo
  return { ctx with topologyTree := topologyTree, routingTable := st.1 }.updateRouteInfo
    ctx.routingTable st.1

/-- If no element is marked and no originator is advertised by more than 50 others, then
`duplicate_neigh_info` puts the reverse edges in, `unduplicate_neigh_info` leaves the topology tree
as it was before, and so does `calc_routing_table` with the search in between. -/
theorem calcRoutingTableLoop_restores (ctx : OlsrContext) (hnot : NotDuplicated ctx.topologyTree)
    (hadv : ∀ d ∈ ctx.topologyTree,
      { a | a ≠ d ∧ Advertises ctx.topologyTree a d }.ncard ≤ maxDuplicates) :
  ∃ topo', duplicateNeighInfoLoop ctx.ownIp ctx.topologyTree = some topo' ∧
    WithReverse ctx.ownIp ctx.topologyTree topo' ∧
    unduplicateNeighInfoLoop topo' = some ctx.topologyTree ∧
    ∃ ctx', ctx.calcRoutingTableLoop = some ctx' ∧ ctx'.topologyTree = ctx.topologyTree
  := by
  have hroom : ∀ d telem', (duplicateNeighInfo ctx.ownIp ctx.topologyTree).search d = some telem' →
      (marked telem'.anTree).count ≤ maxDuplicates := by
    intro d telem' htelem'
    apply (count_marked_le hnot htelem').trans
    apply hadv
    have hd := OrdMap.mem_of_search htelem'
    rw [← OrdMap.mem_keys, (duplicateNeighInfo_withReverse _ _).keys] at hd
    apply hd
  have hin := duplicateNeighInfoLoop_eq ctx.ownIp ctx.topologyTree
  have hout : unduplicateNeighInfoLoop (duplicateNeighInfo ctx.ownIp ctx.topologyTree)
      = some ctx.topologyTree := by
    rw [unduplicateNeighInfoLoop_eq hroom, unduplicate_duplicate ctx.ownIp hnot]
  refine ⟨_, hin, duplicateNeighInfo_withReverse _ _, hout, ctx.calcRoutingTable, ?_, ?_⟩
  · rw [calcRoutingTableLoop, hin, Option.bind_eq_bind, Option.bind_some, hout]
    rw [calcRoutingTable, unduplicate_duplicate ctx.ownIp hnot]
    rfl
  · obtain ⟨info, tree, heq⟩ := ctx.calcRoutingTable_eq hnot
    rw [heq]

/-- Node 2 advertises node 3, which advertises nodes 1 and 2. -/
def advertisedBoth : OrdMap InAddr TopologyInfoElem :=
  (OrdMap.empty.insert (nodeIp 2)
    { id := 0
      seq := 0
      anTree := OrdMap.empty.insert (nodeIp 3) ⟨true, false⟩
      expireTimer := 0 }).insert (nodeIp 3)
    { id := 1
      seq := 0
      anTree := (OrdMap.empty.insert (nodeIp 1) ⟨false, false⟩).insert (nodeIp 2) ⟨false, false⟩
      expireTimer := 1 }

theorem calcRoutingTableLoop_restores_both :
  ∃ topo', duplicateNeighInfoLoop (nodeIp 1) advertisedBoth = some topo' ∧
    WithReverse (nodeIp 1) advertisedBoth topo' ∧
    unduplicateNeighInfoLoop topo' = some advertisedBoth ∧
    ∃ ctx', { initOlsrContext (nodeIp 1) ⟨0, 0⟩ with
      topologyTree := advertisedBoth }.calcRoutingTableLoop = some ctx' ∧
      ctx'.topologyTree = advertisedBoth
  := by
  apply calcRoutingTableLoop_restores
    { initOlsrContext (nodeIp 1) ⟨0, 0⟩ with topologyTree := advertisedBoth }
  · intro d telem htelem a aelem haelem
    have hall : ∀ e ∈ advertisedBoth.entries, ∀ e' ∈ e.2.anTree.entries,
        e'.2.duplicated = false := by
      decide
    apply hall (d, telem) (OrdMap.search_eq_some.mp htelem) (a, aelem)
      (OrdMap.search_eq_some.mp haelem)
  · intro d _
    have hcount : advertisedBoth.count ≤ maxDuplicates := by
      decide
    apply (Set.ncard_le_ncard (advertisers_subset _ d) (List.finite_toSet _)).trans
    rw [OrdMap.count_eq_ncard] at hcount
    apply hcount

end OlsrContext
