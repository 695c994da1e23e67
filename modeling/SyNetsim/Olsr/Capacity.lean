import SyNetsim.Olsr.RoutingTable
import SyNetsim.Simnet.NetReport
import SyNetsim.Simulator.RemoteConf

/-!
# Arrays of fixed size

Three arrays of a node have a fixed size that nothing is checked against: `node_info`, the
statistics of other nodes; `path`, the route kept with the statistics of a node; and `duplicates`,
the elements that `unduplicate_neigh_info` is going to delete.

The indices that a node uses on them are listed for every packet received and every calculation
of the routing table, up to the first one out of range. None is, exactly when what has statistics
together with what can be reached is never more than `MAX_NODE_COUNT` addresses, and no address
is advertised by too many originators that it does not advertise itself (`inBounds_iff_fits`).
-/

/-- The size of the array `duplicates` in `unduplicate_neigh_info`. -/
def maxDuplicates : ℕ := 50

/-- An index used on one of the arrays. -/
inductive Access where
  | nodeInfo (i : ℕ)
  | path (i : ℕ)
  | duplicates (i : ℕ)
deriving DecidableEq

/-- The index is within its array. -/
def Access.InBounds : Access → Prop
  | nodeInfo i => i < maxNodeCount
  | path i => i < maxHopCount
  | duplicates i => i < maxDuplicates

instance : DecidablePred Access.InBounds
  | .nodeInfo i => inferInstanceAs (Decidable (i < maxNodeCount))
  | .path i => inferInstanceAs (Decidable (i < maxHopCount))
  | .duplicates i => inferInstanceAs (Decidable (i < maxDuplicates))

/-- Every index of a list is within its array. -/
def AllInBounds (l : List Access) : Prop := ∀ access ∈ l, access.InBounds

@[simp]
theorem allInBounds_nil :
  AllInBounds []
  := by
  simp [AllInBounds]

@[simp]
theorem allInBounds_append {l l' : List Access} :
  AllInBounds (l ++ l') ↔ AllInBounds l ∧ AllInBounds l'
  := List.forall_mem_append

/-- The indices below `n`. -/
theorem allInBounds_map_range {f : ℕ → Access} {n size : ℕ} (hf : ∀ i, (f i).InBounds ↔ i < size) :
  AllInBounds ((List.range n).map f) ↔ n ≤ size
  := by
  simp only [AllInBounds, List.forall_mem_map, List.mem_range, hf]
  constructor
  · intro h
    by_contra hlt
    have hsize := h size (by omega)
    omega
  · intro h i hi
    omega

/-! ### Indices used in a loop -/

/-- The indices used by a loop over a list, where a round does `step` and uses `used`. -/
def loopAccesses {σ β : Type*} (step : σ → β → σ) (used : σ → β → List Access) :
    σ → List β → List Access
  | _, [] => []
  | s, b :: l => used s b ++ loopAccesses step used (step s b) l

/-- If the indices of a round are within their arrays exactly when `Q` holds after it and `R` holds
of what the round is for, then so for the whole loop. -/
theorem allInBounds_loop {σ β : Type*} {step : σ → β → σ} {used : σ → β → List Access}
    {I Q : σ → Prop} {R : β → Prop} (hI : ∀ s b, I s → I (step s b))
    (hmono : ∀ s b, I s → Q (step s b) → Q s)
    (hused : ∀ s b, I s → Q s → (AllInBounds (used s b) ↔ Q (step s b) ∧ R b))
    {l : List β} {s : σ} (hs : I s) (hQ : Q s) :
  AllInBounds (loopAccesses step used s l) ↔ Q (l.foldl step s) ∧ ∀ b ∈ l, R b
  := by
  induction l generalizing s with
  | nil => simp [loopAccesses, hQ]
  | cons b l ih =>
      rw [loopAccesses, allInBounds_append, hused s b hs hQ, List.foldl_cons,
        List.forall_mem_cons]
      have hback : ∀ (l : List β) (s : σ), I s → Q (l.foldl step s) → Q s := by
        intro l
        induction l with
        | nil =>
            intro s _ h
            apply h
        | cons b l ih =>
            intro s hs h
            apply hmono s b hs (ih (step s b) (hI s b hs) h)
      constructor
      · rintro ⟨⟨hQ', hR⟩, hrest⟩
        obtain ⟨hQl, hRl⟩ := (ih (hI s b hs) hQ').mp hrest
        exact ⟨hQl, hR, hRl⟩
      · rintro ⟨hQl, hR, hRl⟩
        have hQ' := hback l (step s b) (hI s b hs) hQl
        exact ⟨⟨hQ', hR⟩, (ih (hI s b hs) hQ').mpr ⟨hQl, hRl⟩⟩

/-! ### Indices that a node uses -/

namespace OlsrContext

/-- The indices that `get_neighborstat_buf` and its caller use on `node_info`: those of the search
for `dest`, and the one that is given. -/
def neighborstatAccesses (ctx : OlsrContext) (dest : InAddr) : List Access :=
  match ctx.nodeStatTree.search dest with
  | some i => [.nodeInfo i]
  | none =>
      match ctx.nodeInfo.findIdx? (fun info => info.addr = dest) with
      | some i => (List.range (i + 1)).map .nodeInfo
      | none => (List.range (ctx.nodeInfo.length + 1)).map .nodeInfo

/-- A round of the loop of `update_route_info_disconncted`. -/
def disconnectOne (newTable : OrdMap InAddr RoutingEntry) (ctx : OlsrContext) (dest : InAddr) :
    OlsrContext :=
  if dest ∈ newTable then ctx
  else ctx.updateRoutingInfo dest (fun rinfo => { rinfo with hopCount := 0, dirty := true })

/-- The indices of a round. -/
def disconnectAccesses (newTable : OrdMap InAddr RoutingEntry) (ctx : OlsrContext)
    (dest : InAddr) : List Access :=
  if dest ∈ newTable then [] else ctx.neighborstatAccesses dest

/-- The old table has a route to the destination that `update_route_info_changed` takes for the
same. -/
def routeUnchanged (oldTable : OrdMap InAddr RoutingEntry) (new : InAddr × RoutingEntry) : Bool :=
  match oldTable.search new.1 with
  | some old => !routeChanged new.2.hopCount new.2.route old.route
  | none => false

/-- A round of the loop of `update_route_info_changed`. -/
def changeOne (oldTable : OrdMap InAddr RoutingEntry) (ctx : OlsrContext)
    (new : InAddr × RoutingEntry) : OlsrContext :=
  if routeUnchanged oldTable new then ctx
  else
    ctx.updateRoutingInfo new.1 (fun rinfo =>
      { hopCount := new.2.hopCount
        path := new.2.route ++ rinfo.path.drop new.2.route.length
        dirty := true })

/-- The indices of a round: the route is copied to `path`. -/
def changeAccesses (oldTable : OrdMap InAddr RoutingEntry) (ctx : OlsrContext)
    (new : InAddr × RoutingEntry) : List Access :=
  if routeUnchanged oldTable new then []
  else ctx.neighborstatAccesses new.1 ++ (List.range new.2.route.length).map .path

/-- The indices of `unduplicate_neigh_info`: the elements to be deleted from one tree are kept in
`duplicates`. -/
def unduplicateAccesses (topo : OrdMap InAddr TopologyInfoElem) : List Access :=
  topo.entries.flatMap (fun e =>
    (List.range (e.2.anTree.filter (fun aelem => aelem.duplicated)).count).map .duplicates)

/-- The context when `calc_routing_table` has made the new table. -/
def searched (ctx : OlsrContext) : OlsrContext :=
  { ctx with
    topologyTree := unduplicateNeighInfo (duplicateNeighInfo ctx.ownIp ctx.topologyTree)
    routingTable := spfTable ctx.ownIp ctx.neighborTree ctx.topologyTree }

/-- The indices of `calc_routing_table`. -/
def calcAccesses (ctx : OlsrContext) : List Access :=
  let oldTable := ctx.routingTable
  let newTable := ctx.searched.routingTable
  unduplicateAccesses (duplicateNeighInfo ctx.ownIp ctx.topologyTree) ++
    loopAccesses (disconnectOne newTable) (disconnectAccesses newTable) ctx.searched
      oldTable.keys ++
    loopAccesses (changeOne oldTable) (changeAccesses oldTable)
      (ctx.searched.updateRouteInfoDisconnected oldTable newTable) newTable.entries

theorem calcRoutingTable_eq_foldl (ctx : OlsrContext) :
  ctx.calcRoutingTable =
    ctx.searched.routingTable.entries.foldl (changeOne ctx.routingTable)
      (ctx.routingTable.keys.foldl (disconnectOne ctx.searched.routingTable) ctx.searched)
  := rfl

end OlsrContext

/-- What happens: a packet is received, with any destination; the routing table is calculated,
with whatever neighbours and topology there are by then; the statistics are dumped. -/
inductive StatEvent where
  | recv (iph : IpHdr)
  | calcRoutingTable (neighborTree : OrdMap InAddr NeighborElem)
      (topologyTree : OrdMap InAddr TopologyInfoElem)
  | dumpStatistics

namespace OlsrContext

/-- What an event does. -/
def statStep (ctx : OlsrContext) : StatEvent → OlsrContext
  | .recv iph => ctx.statisticsUpdate iph
  | .calcRoutingTable neighborTree topologyTree =>
      { ctx with neighborTree := neighborTree, topologyTree := topologyTree }.calcRoutingTable
  | .dumpStatistics => ctx

/-- The indices that an event uses. -/
def statAccesses (ctx : OlsrContext) : StatEvent → List Access
  | .recv iph => ctx.neighborstatAccesses iph.daddr
  | .calcRoutingTable neighborTree topologyTree =>
      { ctx with neighborTree := neighborTree, topologyTree := topologyTree }.calcAccesses
  | .dumpStatistics =>
      (List.range ctx.nodeInfo.length).map .nodeInfo ++
        ctx.nodeInfo.flatMap (fun info => (List.range info.routing.hopCount).map .path)

/-- The addresses that there are statistics of. -/
def statAddrs (ctx : OlsrContext) : List InAddr := ctx.nodeInfo.map NeighborInfo.addr

end OlsrContext

/-- `unduplicate_neigh_info` deletes `a` from the neighbours advertised by `d`: it bears the mark
already, or `duplicate_neigh_info` adds it since `a` advertises `d` and not the other way. -/
def Mirrored (ownIp : InAddr) (topo : OrdMap InAddr TopologyInfoElem) (d a : InAddr) : Prop :=
  ∃ telem, topo.search d = some telem ∧
    ((∃ aelem, telem.anTree.search a = some aelem ∧ aelem.duplicated = true) ∨
      a ∉ telem.anTree ∧ d ≠ ownIp ∧ Advertises topo a d)

namespace OlsrContext

/-- There is room for what an event is going to use. -/
def Fits (ctx : OlsrContext) : StatEvent → Prop
  | .recv iph => iph.daddr ∈ ctx.statAddrs ∨ ctx.nodeInfo.length < maxNodeCount
  | .calcRoutingTable neighborTree topologyTree =>
      { a | a ∈ ctx.statAddrs ∨ SpfReachable ctx.ownIp neighborTree topologyTree a }.ncard
          ≤ maxNodeCount ∧
        ∀ d, { a | Mirrored ctx.ownIp topologyTree d a }.ncard ≤ maxDuplicates
  | .dumpStatistics => True

end OlsrContext

/-! ### Statistics -/

namespace OlsrContext

/-- The tree leads to the statistics of an address, which every address has once at most. -/
structure StatsSound (ctx : OlsrContext) : Prop where
  tree : ∀ dest i, ctx.nodeStatTree.search dest = some i →
    ∃ info, ctx.nodeInfo[i]? = some info ∧ info.addr = dest
  nodup : ctx.statAddrs.Nodup

/-- The addresses with statistics once `dest` has some. -/
def addStat (addrs : List InAddr) (dest : InAddr) : List InAddr :=
  if dest ∈ addrs then addrs else addrs ++ [dest]

theorem mem_addStat {addrs : List InAddr} {dest a : InAddr} :
  a ∈ addStat addrs dest ↔ a ∈ addrs ∨ a = dest
  := by
  rw [addStat]
  split_ifs with h
  · constructor
    · intro ha
      left
      apply ha
    · rintro (ha | rfl)
      · apply ha
      · apply h
  · simp

theorem addStat_nodup {addrs : List InAddr} (h : addrs.Nodup) (dest : InAddr) :
  (addStat addrs dest).Nodup
  := by
  rw [addStat]
  split_ifs with hdest
  · apply h
  · apply h.append (List.nodup_singleton dest)
    simpa using hdest

theorem StatsSound.mem_statAddrs {ctx : OlsrContext} (h : ctx.StatsSound) {dest : InAddr} {i : ℕ}
    (hi : ctx.nodeStatTree.search dest = some i) :
  dest ∈ ctx.statAddrs
  := by
  obtain ⟨info, hinfo, rfl⟩ := h.tree dest i hi
  apply List.mem_map_of_mem (List.mem_of_getElem? hinfo)

theorem findIdx_addr_eq_none {ctx : OlsrContext} {dest : InAddr} :
  ctx.nodeInfo.findIdx? (fun info => info.addr = dest) = none ↔ dest ∉ ctx.statAddrs
  := by
  simp [List.findIdx?_eq_none_iff, statAddrs]

/-- `get_neighborstat_buf` gives an index that there is, and statistics to `dest`. -/
theorem StatsSound.getNeighborstatBuf {ctx : OlsrContext} (h : ctx.StatsSound) (dest : InAddr) :
  (ctx.getNeighborstatBuf dest).2.StatsSound ∧
    (ctx.getNeighborstatBuf dest).2.statAddrs = addStat ctx.statAddrs dest
  := by
  rw [OlsrContext.getNeighborstatBuf]
  cases hstat : ctx.nodeStatTree.search dest with
  | some i =>
      refine ⟨h, ?_⟩
      rw [addStat, if_pos (h.mem_statAddrs hstat)]
  | none =>
      cases hinfo : ctx.nodeInfo.findIdx? (fun info => info.addr = dest) with
      | some i =>
          have hmem : dest ∈ ctx.statAddrs := by
            by_contra hnone
            rw [findIdx_addr_eq_none.mpr hnone] at hinfo
            contradiction
          obtain ⟨hlt, haddr, -⟩ := List.findIdx?_eq_some_iff_getElem.mp hinfo
          refine ⟨⟨?_, h.nodup⟩, ?_⟩
          · intro dest' j hj
            rw [OrdMap.search_insert, hstat, Option.getD_none] at hj
            split_ifs at hj with hdest
            · obtain rfl := Option.some.inj hj
              rw [hdest]
              exact ⟨_, List.getElem?_eq_getElem hlt, of_decide_eq_true haddr⟩
            · apply h.tree dest' j hj
          · apply (if_pos hmem).symm
      | none =>
          have hnew := findIdx_addr_eq_none.mp hinfo
          have haddrs : ({ ctx with
              nodeInfo := ctx.nodeInfo ++ [NeighborInfo.zero dest]
              nodeStatTree := ctx.nodeStatTree.insert dest ctx.nodeInfo.length } :
              OlsrContext).statAddrs = addStat ctx.statAddrs dest := by
            rw [addStat, if_neg hnew, statAddrs, List.map_append]
            rfl
          refine ⟨⟨?_, ?_⟩, haddrs⟩
          · intro dest' j hj
            dsimp only at hj ⊢
            rw [OrdMap.search_insert, hstat, Option.getD_none] at hj
            split_ifs at hj with hdest
            · obtain rfl := Option.some.inj hj
              rw [hdest]
              exact ⟨NeighborInfo.zero dest, by simp, rfl⟩
            · obtain ⟨info, hinfo', haddr⟩ := h.tree dest' j hj
              refine ⟨info, ?_, haddr⟩
              rw [List.getElem?_append_left (List.getElem?_eq_some_iff.mp hinfo').1, hinfo']
          · rw [haddrs]
            apply addStat_nodup h.nodup

/-- A write to the statistics of an address keeps them sound. -/
theorem StatsSound.modify {ctx : OlsrContext} (h : ctx.StatsSound) (i : ℕ)
    {f : NeighborInfo → NeighborInfo} (hf : ∀ info, (f info).addr = info.addr) :
  ({ ctx with nodeInfo := ctx.nodeInfo.modify i f } : OlsrContext).StatsSound ∧
    ({ ctx with nodeInfo := ctx.nodeInfo.modify i f } : OlsrContext).statAddrs = ctx.statAddrs
  := by
  have haddrs : ({ ctx with nodeInfo := ctx.nodeInfo.modify i f } : OlsrContext).statAddrs =
      ctx.statAddrs := by
    apply List.ext_getElem?
    intro j
    simp only [statAddrs, List.getElem?_map, List.getElem?_modify]
    cases ctx.nodeInfo[j]? with
    | none => rfl
    | some info =>
        split_ifs
        · simp [hf]
        · rfl
  refine ⟨⟨?_, ?_⟩, haddrs⟩
  · intro dest j hj
    obtain ⟨info, hinfo, haddr⟩ := h.tree dest j hj
    dsimp only
    rw [List.getElem?_modify, hinfo]
    split_ifs
    · exact ⟨f info, rfl, (hf info).trans haddr⟩
    · exact ⟨info, rfl, haddr⟩
  · rw [haddrs]
    apply h.nodup

theorem StatsSound.updateRoutingInfo {ctx : OlsrContext} (h : ctx.StatsSound) (dest : InAddr)
    (f : RoutingInfo → RoutingInfo) :
  (ctx.updateRoutingInfo dest f).StatsSound ∧
    (ctx.updateRoutingInfo dest f).statAddrs = addStat ctx.statAddrs dest
  := by
  obtain ⟨hsound, haddrs⟩ := h.getNeighborstatBuf dest
  rw [← haddrs]
  apply hsound.modify
  intro info
  rfl

theorem StatsSound.statisticsUpdate {ctx : OlsrContext} (h : ctx.StatsSound) (iph : IpHdr) :
  (ctx.statisticsUpdate iph).StatsSound ∧
    (ctx.statisticsUpdate iph).statAddrs = addStat ctx.statAddrs iph.daddr
  := by
  obtain ⟨hsound, haddrs⟩ := h.getNeighborstatBuf iph.daddr
  rw [← haddrs]
  apply hsound.modify
  intro info
  rfl

/-- The statistics of the addresses fit into the array. -/
def StatsFit (addrs : List InAddr) : Prop := addrs.length ≤ maxNodeCount

theorem StatsFit.of_addStat {addrs : List InAddr} {dest : InAddr}
    (h : StatsFit (addStat addrs dest)) :
  StatsFit addrs
  := by
  rw [StatsFit, addStat] at h
  split_ifs at h
  · apply h
  · rw [List.length_append] at h
    apply Nat.le_of_add_right_le h

theorem statsFit_addStat {addrs : List InAddr} {dest : InAddr} (h : StatsFit addrs) :
  StatsFit (addStat addrs dest) ↔ dest ∈ addrs ∨ addrs.length < maxNodeCount
  := by
  rw [StatsFit, addStat]
  split_ifs with hdest
  · simp only [hdest, true_or, iff_true]
    apply h
  · simp only [hdest, false_or, List.length_append, List.length_singleton]
    rfl

theorem length_statAddrs (ctx : OlsrContext) :
  ctx.statAddrs.length = ctx.nodeInfo.length
  := List.length_map _

/-- The indices used for `dest` are within `node_info` exactly when there is room for its
statistics. -/
theorem StatsSound.allInBounds_neighborstatAccesses {ctx : OlsrContext} (h : ctx.StatsSound)
    (hfit : StatsFit ctx.statAddrs) (dest : InAddr) :
  AllInBounds (ctx.neighborstatAccesses dest) ↔ StatsFit (addStat ctx.statAddrs dest)
  := by
  have hlength : ctx.nodeInfo.length ≤ maxNodeCount := by
    rw [← length_statAddrs]
    apply hfit
  have hrange : ∀ n, AllInBounds ((List.range n).map Access.nodeInfo) ↔ n ≤ maxNodeCount :=
    fun n => allInBounds_map_range (fun i => Iff.rfl)
  rw [statsFit_addStat hfit, neighborstatAccesses, length_statAddrs]
  cases hstat : ctx.nodeStatTree.search dest with
  | some i =>
      obtain ⟨info, hinfo, -⟩ := h.tree dest i hstat
      have hi := (List.getElem?_eq_some_iff.mp hinfo).1
      have hbound : (Access.nodeInfo i).InBounds := Nat.lt_of_lt_of_le hi hlength
      simp [AllInBounds, hbound, h.mem_statAddrs hstat]
  | none =>
      cases hinfo : ctx.nodeInfo.findIdx? (fun info => info.addr = dest) with
      | some i =>
          have hmem : dest ∈ ctx.statAddrs := by
            by_contra hnone
            rw [findIdx_addr_eq_none.mpr hnone] at hinfo
            contradiction
          have hlt := (List.findIdx?_eq_some_iff_getElem.mp hinfo).1
          simp only [hrange, hmem, true_or, iff_true]
          apply Nat.le_trans hlt hlength
      | none =>
          simp only [hrange, findIdx_addr_eq_none.mp hinfo, false_or]
          rfl

end OlsrContext

/-! ### Indices of a calculation -/

namespace OlsrContext

theorem StatsSound.disconnectOne {ctx : OlsrContext} (h : ctx.StatsSound)
    (newTable : OrdMap InAddr RoutingEntry) (dest : InAddr) :
  (disconnectOne newTable ctx dest).StatsSound ∧ (disconnectOne newTable ctx dest).statAddrs =
    if dest ∈ newTable then ctx.statAddrs else addStat ctx.statAddrs dest
  := by
  rw [OlsrContext.disconnectOne]
  split_ifs
  · exact ⟨h, rfl⟩
  · apply h.updateRoutingInfo

theorem StatsSound.changeOne {ctx : OlsrContext} (h : ctx.StatsSound)
    (oldTable : OrdMap InAddr RoutingEntry) (new : InAddr × RoutingEntry) :
  (changeOne oldTable ctx new).StatsSound ∧ (changeOne oldTable ctx new).statAddrs =
    if routeUnchanged oldTable new then ctx.statAddrs else addStat ctx.statAddrs new.1
  := by
  rw [OlsrContext.changeOne]
  split_ifs
  · exact ⟨h, rfl⟩
  · apply h.updateRoutingInfo

/-- A loop whose rounds give statistics to the addresses of some elements. -/
theorem StatsSound.foldl {β : Type} {step : OlsrContext → β → OlsrContext} (key : β → InAddr)
    (skip : β → Prop) [DecidablePred skip]
    (hstep : ∀ ctx b, ctx.StatsSound → (step ctx b).StatsSound ∧
      (step ctx b).statAddrs = if skip b then ctx.statAddrs else addStat ctx.statAddrs (key b))
    {ctx : OlsrContext} (h : ctx.StatsSound) (l : List β) :
  (l.foldl step ctx).StatsSound ∧ ∀ a, a ∈ (l.foldl step ctx).statAddrs ↔
    a ∈ ctx.statAddrs ∨ ∃ b ∈ l, ¬ skip b ∧ key b = a
  := by
  induction l generalizing ctx with
  | nil => simp [h]
  | cons b l ih =>
      obtain ⟨hsound, haddrs⟩ := hstep ctx b h
      obtain ⟨hsound', hmem⟩ := ih hsound
      refine ⟨hsound', ?_⟩
      intro a
      rw [List.foldl_cons, hmem, haddrs, List.exists_mem_cons_iff]
      split_ifs with hskip
      · simp [hskip]
      · simp only [mem_addStat, hskip, not_false_eq_true, true_and, or_assoc]
        rw [eq_comm]

/-- The indices of a loop whose rounds give statistics to the addresses of some elements. -/
theorem StatsSound.allInBounds_loopAccesses {β : Type} {step : OlsrContext → β → OlsrContext}
    (used : OlsrContext → β → List Access) {R : β → Prop} (key : β → InAddr) (skip : β → Prop)
    [DecidablePred skip]
    (hstep : ∀ ctx b, ctx.StatsSound → (step ctx b).StatsSound ∧
      (step ctx b).statAddrs = if skip b then ctx.statAddrs else addStat ctx.statAddrs (key b))
    (hskip : ∀ ctx b, skip b → used ctx b = [] ∧ R b)
    (hused : ∀ ctx b, ¬ skip b →
      (AllInBounds (used ctx b) ↔ AllInBounds (ctx.neighborstatAccesses (key b)) ∧ R b))
    {ctx : OlsrContext} (h : ctx.StatsSound) (hfit : StatsFit ctx.statAddrs) (l : List β) :
  AllInBounds (loopAccesses step used ctx l) ↔
    StatsFit (l.foldl step ctx).statAddrs ∧ ∀ b ∈ l, R b
  := by
  apply allInBounds_loop (I := StatsSound) (Q := fun ctx : OlsrContext => StatsFit ctx.statAddrs)
    (R := R)
  · intro ctx b hsound
    apply (hstep ctx b hsound).1
  · intro ctx b hsound hnext
    rw [(hstep ctx b hsound).2] at hnext
    split_ifs at hnext
    · apply hnext
    · apply hnext.of_addStat
  · intro ctx b hsound hfit
    rw [(hstep ctx b hsound).2]
    split_ifs with hb
    · simp [(hskip ctx b hb).1, (hskip ctx b hb).2, hfit]
    · rw [hused ctx b hb, hsound.allInBounds_neighborstatAccesses hfit]
  · apply h
  · apply hfit

/-- After a calculation, there are statistics of what had some, of what was in the old table and of
what is in the new one, unless its route has not changed. -/
theorem StatsSound.calcRoutingTable {ctx : OlsrContext} (h : ctx.StatsSound)
    (htable : ∀ a ∈ ctx.routingTable, a ∈ ctx.statAddrs) :
  ctx.calcRoutingTable.StatsSound ∧ ∀ a, a ∈ ctx.calcRoutingTable.statAddrs ↔
    a ∈ ctx.statAddrs ∨ SpfReachable ctx.ownIp ctx.neighborTree ctx.topologyTree a
  := by
  have hsearched : ctx.searched.StatsSound := ⟨h.tree, h.nodup⟩
  obtain ⟨hdisconnected, hmem⟩ := hsearched.foldl id
    (fun dest => dest ∈ ctx.searched.routingTable)
    (fun ctx' dest hsound => hsound.disconnectOne _ dest) ctx.routingTable.keys
  obtain ⟨hchanged, hmem'⟩ := hdisconnected.foldl Prod.fst
    (fun new => routeUnchanged ctx.routingTable new = true)
    (fun ctx' new hsound => hsound.changeOne _ new) ctx.searched.routingTable.entries
  rw [calcRoutingTable_eq_foldl]
  refine ⟨hchanged, ?_⟩
  intro a
  rw [hmem', hmem]
  have hold : a ∈ ctx.searched.statAddrs ↔ a ∈ ctx.statAddrs := Iff.rfl
  have hreach : a ∈ ctx.searched.routingTable ↔
      SpfReachable ctx.ownIp ctx.neighborTree ctx.topologyTree a := mem_spfTable
  rw [hold, ← hreach]
  constructor
  · rintro ((ha | ⟨b, hb, -, rfl⟩) | ⟨⟨b, entry⟩, hb, -, rfl⟩)
    · left
      apply ha
    · left
      apply htable _ hb
    · right
      apply OrdMap.mem_of_search (OrdMap.search_eq_some.mpr hb)
  · rintro (ha | ha)
    · left
      left
      apply ha
    · obtain ⟨entry, hentry⟩ := OrdMap.mem_iff.mp ha
      by_cases hsame : routeUnchanged ctx.routingTable (a, entry) = true
      · -- a route that has not changed was in the old table
        left
        left
        apply htable
        rw [OrdMap.mem_iff]
        rw [routeUnchanged] at hsame
        cases hsearch : ctx.routingTable.search a with
        | some old => exact ⟨old, rfl⟩
        | none => simp [hsearch] at hsame
      · right
        exact ⟨(a, entry), OrdMap.search_eq_some.mp hentry, hsame, rfl⟩

end OlsrContext

/-! ### The elements to be deleted -/

/-- What `unduplicate_neigh_info` deletes from the tree of `d`. -/
theorem mirrored_iff {ownIp : InAddr} {topo : OrdMap InAddr TopologyInfoElem} {d a : InAddr} :
  Mirrored ownIp topo d a ↔ ∃ telem, (duplicateNeighInfo ownIp topo).search d = some telem ∧
    a ∈ telem.anTree.filter (fun aelem => aelem.duplicated)
  := by
  rw [duplicateNeighInfo_eq, OrdMap.search_mapIdx, Mirrored]
  cases htd : topo.search d with
  | none => simp
  | some telem =>
      simp only [Option.some.injEq, exists_eq_left', Option.map_some, OrdMap.mem_iff,
        OrdMap.search_filter, search_addReverse]
      by_cases ha : a ∈ telem.anTree
      · obtain ⟨aelem, haelem⟩ := OrdMap.mem_iff.mp ha
        simp [ha, haelem, Option.filter_some]
      · have hkey : a ∈ topo ∧ d ≠ ownIp ∧ Advertises topo a d ↔
            d ≠ ownIp ∧ Advertises topo a d := by
          constructor
          · rintro ⟨-, hd, hadv⟩
            exact ⟨hd, hadv⟩
          · rintro ⟨hd, telem', htelem', hmem⟩
            exact ⟨OrdMap.mem_of_search htelem', hd, telem', htelem', hmem⟩
        have hnone : telem.anTree.search a = none := OrdMap.search_eq_none.mpr ha
        by_cases hadv : d ≠ ownIp ∧ Advertises topo a d
        · simp [ha, hnone, hadv, hkey.mpr hadv, duplicatedMark]
        · simp [ha, hnone, hadv]

namespace OlsrContext

/-- The indices of `unduplicate_neigh_info` are within `duplicates` exactly when it deletes no
more from a tree than there is room for. -/
theorem allInBounds_unduplicateAccesses {ownIp : InAddr}
    {topo : OrdMap InAddr TopologyInfoElem} :
  AllInBounds (unduplicateAccesses (duplicateNeighInfo ownIp topo)) ↔
    ∀ d, { a | Mirrored ownIp topo d a }.ncard ≤ maxDuplicates
  := by
  have hrange : ∀ n, AllInBounds ((List.range n).map Access.duplicates) ↔ n ≤ maxDuplicates :=
    fun n => allInBounds_map_range (fun i => Iff.rfl)
  have hloop : AllInBounds (unduplicateAccesses (duplicateNeighInfo ownIp topo)) ↔
      ∀ e ∈ (duplicateNeighInfo ownIp topo).entries,
        (e.2.anTree.filter (fun aelem => aelem.duplicated)).count ≤ maxDuplicates := by
    simp only [← hrange, AllInBounds, unduplicateAccesses, List.mem_flatMap]
    constructor
    · intro h e he access haccess
      apply h access ⟨e, he, haccess⟩
    · rintro h access ⟨e, he, haccess⟩
      apply h e he access haccess
  rw [hloop]
  constructor
  · intro h d
    cases htd : (duplicateNeighInfo ownIp topo).search d with
    | none =>
        have hempty : { a | Mirrored ownIp topo d a } = ∅ := by
          ext a
          simp [mirrored_iff, htd]
        rw [hempty, Set.ncard_empty]
        apply Nat.zero_le
    | some telem =>
        have hset : { a | Mirrored ownIp topo d a } =
            { a | a ∈ telem.anTree.filter (fun aelem => aelem.duplicated) } := by
          ext a
          simp [mirrored_iff, htd]
        rw [hset, ← OrdMap.count_eq_ncard]
        apply h (d, telem) (OrdMap.search_eq_some.mp htd)
  · rintro h ⟨d, telem⟩ he
    have hset : { a | Mirrored ownIp topo d a } =
        { a | a ∈ telem.anTree.filter (fun aelem => aelem.duplicated) } := by
      ext a
      simp [mirrored_iff, OrdMap.search_eq_some.mpr he]
    rw [OrdMap.count_eq_ncard, ← hset]
    apply h d

/-- A list without repetitions has as many elements as it has different ones. -/
theorem statAddrs_ncard {ctx : OlsrContext} (h : ctx.StatsSound) :
  { a | a ∈ ctx.statAddrs }.ncard = ctx.statAddrs.length
  := by
  have hset : { a | a ∈ ctx.statAddrs } = (ctx.statAddrs.toFinset : Set InAddr) := by
    ext a
    simp
  rw [hset, Set.ncard_coe_finset, List.toFinset_card_of_nodup h.nodup]

/-- If what can be reached fits into the statistics, so does every route. -/
theorem route_length_le {ownIp : InAddr} {neighborTree : OrdMap InAddr NeighborElem}
    {topo : OrdMap InAddr TopologyInfoElem} {addrs : List InAddr} (hfit : StatsFit addrs)
    (hreach : ∀ a, SpfReachable ownIp neighborTree topo a → a ∈ addrs) {a : InAddr}
    {entry : RoutingEntry} (h : (spfTable ownIp neighborTree topo).search a = some entry) :
  entry.route.length ≤ maxHopCount
  := by
  have hsound := (spfTable_complete ownIp neighborTree topo).sound a entry h
  have hsub : entry.route ⊆ addrs := by
    intro b hb
    apply hreach b (mem_spfTable.mp (hsound.entered b hb))
  apply le_trans (List.subperm_of_subset hsound.nodup hsub).length_le hfit

/-- The indices of a calculation are within the arrays exactly when there is room for all that has
statistics or can be reached, and for the elements to be deleted. -/
theorem StatsSound.allInBounds_calcAccesses {ctx : OlsrContext} (h : ctx.StatsSound)
    (hfit : StatsFit ctx.statAddrs) (htable : ∀ a ∈ ctx.routingTable, a ∈ ctx.statAddrs) :
  AllInBounds ctx.calcAccesses ↔ StatsFit ctx.calcRoutingTable.statAddrs ∧
    ∀ d, { a | Mirrored ctx.ownIp ctx.topologyTree d a }.ncard ≤ maxDuplicates
  := by
  have hsearched : ctx.searched.StatsSound := ⟨h.tree, h.nodup⟩
  have hdisconnect := hsearched.allInBounds_loopAccesses (R := fun _ => True)
    (disconnectAccesses ctx.searched.routingTable) id
    (fun dest => dest ∈ ctx.searched.routingTable)
    (fun ctx' dest hsound => hsound.disconnectOne _ dest)
    (by
      intro ctx' dest hdest
      rw [disconnectAccesses, if_pos hdest]
      exact ⟨rfl, trivial⟩)
    (by
      intro ctx' dest hdest
      rw [disconnectAccesses, if_neg hdest, and_true]
      rfl)
    hfit ctx.routingTable.keys
  obtain ⟨hdisconnected, -⟩ := hsearched.foldl id
    (fun dest => dest ∈ ctx.searched.routingTable)
    (fun ctx' dest hsound => hsound.disconnectOne _ dest) ctx.routingTable.keys
  have hchange := fun hfit => hdisconnected.allInBounds_loopAccesses
    (R := fun new => routeUnchanged ctx.routingTable new = true ∨
      new.2.route.length ≤ maxHopCount)
    (changeAccesses ctx.routingTable) Prod.fst
    (fun new => routeUnchanged ctx.routingTable new = true)
    (fun ctx' new hsound => hsound.changeOne _ new)
    (by
      intro ctx' new hnew
      rw [changeAccesses, if_pos hnew]
      exact ⟨rfl, Or.inl hnew⟩)
    (by
      intro ctx' new hnew
      rw [changeAccesses, if_neg hnew, allInBounds_append,
        allInBounds_map_range (fun i => Iff.rfl), or_iff_right hnew])
    hfit ctx.searched.routingTable.entries
  obtain ⟨hsound', hmem⟩ := h.calcRoutingTable htable
  rw [calcAccesses, allInBounds_append, allInBounds_append, allInBounds_unduplicateAccesses,
    hdisconnect]
  constructor
  · rintro ⟨⟨hdups, hfit', -⟩, hchanges⟩
    exact ⟨((hchange hfit').mp hchanges).1, hdups⟩
  · rintro ⟨hfit', hdups⟩
    -- the statistics have only grown in the second loop
    have hfit₁ : StatsFit (ctx.routingTable.keys.foldl
        (OlsrContext.disconnectOne ctx.searched.routingTable) ctx.searched).statAddrs := by
      apply le_trans (List.subperm_of_subset hdisconnected.nodup _).length_le hfit'
      intro a ha
      obtain ⟨-, hgrown⟩ := hdisconnected.foldl Prod.fst
        (fun new => routeUnchanged ctx.routingTable new = true)
        (fun ctx' new hsound => hsound.changeOne _ new) ctx.searched.routingTable.entries
      rw [calcRoutingTable_eq_foldl, hgrown]
      left
      apply ha
    refine ⟨⟨hdups, hfit₁, fun _ _ => trivial⟩, (hchange hfit₁).mpr ⟨hfit', ?_⟩⟩
    intro new hnew
    right
    apply route_length_le hfit' (fun a ha => (hmem a).mpr (Or.inr ha))
      (OrdMap.search_eq_some.mpr hnew)

/-! ### Runs -/

/-- The hop counts of the statistics are not too large. -/
def HopsFit (ctx : OlsrContext) : Prop :=
  ∀ info ∈ ctx.nodeInfo, info.routing.hopCount ≤ maxHopCount

theorem HopsFit.getNeighborstatBuf {ctx : OlsrContext} (h : ctx.HopsFit) (dest : InAddr) :
  (ctx.getNeighborstatBuf dest).2.HopsFit
  := by
  rw [OlsrContext.getNeighborstatBuf]
  cases ctx.nodeStatTree.search dest with
  | some i => apply h
  | none =>
      cases ctx.nodeInfo.findIdx? (fun info => info.addr = dest) with
      | some i => apply h
      | none =>
          intro info hinfo
          rcases List.mem_append.mp hinfo with hinfo | hinfo
          · apply h info hinfo
          · obtain rfl := List.mem_singleton.mp hinfo
            apply Nat.zero_le

theorem HopsFit.modify {ctx : OlsrContext} (h : ctx.HopsFit) (i : ℕ)
    {f : NeighborInfo → NeighborInfo} (hf : ∀ info, info.routing.hopCount ≤ maxHopCount →
      (f info).routing.hopCount ≤ maxHopCount) :
  ({ ctx with nodeInfo := ctx.nodeInfo.modify i f } : OlsrContext).HopsFit
  := by
  intro info hinfo
  obtain ⟨j, hj⟩ := List.mem_iff_getElem?.mp hinfo
  rw [List.getElem?_modify] at hj
  obtain ⟨old, hold, rfl⟩ := Option.map_eq_some_iff.mp hj
  have hle := h old (List.mem_of_getElem? hold)
  split_ifs
  · apply hf old hle
  · apply hle

theorem HopsFit.updateRoutingInfo {ctx : OlsrContext} (h : ctx.HopsFit) (dest : InAddr)
    {f : RoutingInfo → RoutingInfo} (hf : ∀ rinfo, (f rinfo).hopCount ≤ maxHopCount) :
  (ctx.updateRoutingInfo dest f).HopsFit
  := by
  apply (h.getNeighborstatBuf dest).modify
  intro info _
  apply hf

theorem HopsFit.calcRoutingTable {ctx : OlsrContext} (h : ctx.HopsFit)
    (hroutes : ∀ a entry, ctx.searched.routingTable.search a = some entry →
      entry.hopCount ≤ maxHopCount) :
  ctx.calcRoutingTable.HopsFit
  := by
  rw [calcRoutingTable_eq_foldl]
  refine List.foldlRecOn (motive := HopsFit) _ _ ?_ ?_
  · refine List.foldlRecOn (motive := HopsFit) _ _ h ?_
    intro ctx' h' dest _
    rw [disconnectOne]
    split_ifs
    · apply h'
    · apply h'.updateRoutingInfo
      intro rinfo
      apply Nat.zero_le
  · intro ctx' h' new hnew
    rw [changeOne]
    split_ifs
    · apply h'
    · apply h'.updateRoutingInfo
      intro rinfo
      apply hroutes new.1 new.2 (OrdMap.search_eq_some.mpr hnew)

/-- What is kept true: the statistics are sound and fit into the array, there are some of all that
is in the routing table, and no route kept in them is too long. -/
structure StatInv (ctx : OlsrContext) : Prop where
  sound : ctx.StatsSound
  fit : StatsFit ctx.statAddrs
  table : ∀ a ∈ ctx.routingTable, a ∈ ctx.statAddrs
  hops : ctx.HopsFit

theorem init_statInv (ownIp : InAddr) (now : Timespec) :
  (initOlsrContext ownIp now).StatInv
  := by
  refine ⟨⟨?_, ?_⟩, ?_, ?_, ?_⟩
  · intro dest i hi
    contradiction
  · apply List.nodup_nil
  · apply Nat.zero_le
  · intro a ha
    apply absurd ha (OrdMap.not_mem_empty a)
  · intro info hinfo
    contradiction

theorem statisticsUpdate_routingTable (ctx : OlsrContext) (iph : IpHdr) :
  (ctx.statisticsUpdate iph).routingTable = ctx.routingTable
  := by
  rw [statisticsUpdate, getNeighborstatBuf]
  cases ctx.nodeStatTree.search iph.daddr with
  | some i => rfl
  | none =>
      cases ctx.nodeInfo.findIdx? (fun info => info.addr = iph.daddr) with
      | some i => rfl
      | none => rfl

/-- The number of addresses that have statistics after a calculation. -/
theorem StatsSound.statsFit_calcRoutingTable {ctx : OlsrContext} (h : ctx.StatsSound)
    (htable : ∀ a ∈ ctx.routingTable, a ∈ ctx.statAddrs) :
  StatsFit ctx.calcRoutingTable.statAddrs ↔ { a | a ∈ ctx.statAddrs ∨
    SpfReachable ctx.ownIp ctx.neighborTree ctx.topologyTree a }.ncard ≤ maxNodeCount
  := by
  obtain ⟨hsound, hmem⟩ := h.calcRoutingTable htable
  rw [StatsFit, ← statAddrs_ncard hsound]
  simp only [hmem]

/-- The indices of an event are within the arrays exactly when there is room. -/
theorem StatInv.allInBounds_statAccesses {ctx : OlsrContext} (h : ctx.StatInv) (e : StatEvent) :
  AllInBounds (ctx.statAccesses e) ↔ ctx.Fits e
  := by
  cases e with
  | recv iph =>
      rw [statAccesses, h.sound.allInBounds_neighborstatAccesses h.fit, statsFit_addStat h.fit,
        length_statAddrs]
      rfl
  | calcRoutingTable neighborTree topologyTree =>
      have hsound : ({ ctx with
          neighborTree := neighborTree, topologyTree := topologyTree } : OlsrContext).StatsSound :=
        ⟨h.sound.tree, h.sound.nodup⟩
      rw [statAccesses, hsound.allInBounds_calcAccesses h.fit h.table,
        hsound.statsFit_calcRoutingTable h.table]
      rfl
  | dumpStatistics =>
      have hlength : ctx.nodeInfo.length ≤ maxNodeCount := by
        rw [← length_statAddrs]
        apply h.fit
      rw [Fits, iff_true, statAccesses, allInBounds_append,
        allInBounds_map_range (fun i => Iff.rfl)]
      refine ⟨hlength, ?_⟩
      intro access haccess
      obtain ⟨info, hinfo, haccess⟩ := List.mem_flatMap.mp haccess
      have hinfo' := (allInBounds_map_range (f := Access.path) (fun i => Iff.rfl)).mpr
        (h.hops info hinfo)
      apply hinfo' access haccess

/-- An event that there is room for keeps what should be true. -/
theorem StatInv.statStep {ctx : OlsrContext} (h : ctx.StatInv) {e : StatEvent}
    (hfits : ctx.Fits e) :
  (ctx.statStep e).StatInv
  := by
  cases e with
  | recv iph =>
      obtain ⟨hsound, haddrs⟩ := h.sound.statisticsUpdate iph
      refine ⟨hsound, ?_, ?_, ?_⟩
      · rw [OlsrContext.statStep, haddrs, statsFit_addStat h.fit, length_statAddrs]
        apply hfits
      · rw [OlsrContext.statStep, haddrs, statisticsUpdate_routingTable]
        intro a ha
        apply mem_addStat.mpr
        left
        apply h.table a ha
      · apply HopsFit.modify (h.hops.getNeighborstatBuf iph.daddr)
        intro info hinfo
        apply hinfo
  | calcRoutingTable neighborTree topologyTree =>
      have hsound : ({ ctx with
          neighborTree := neighborTree, topologyTree := topologyTree } : OlsrContext).StatsSound :=
        ⟨h.sound.tree, h.sound.nodup⟩
      obtain ⟨hsound', hmem⟩ := hsound.calcRoutingTable h.table
      have hfit := (hsound.statsFit_calcRoutingTable h.table).mpr hfits.1
      refine ⟨hsound', hfit, ?_, ?_⟩
      · intro a ha
        apply (hmem a).mpr
        right
        rw [OlsrContext.statStep, calcRoutingTable_routingTable] at ha
        apply mem_spfTable.mp ha
      · apply HopsFit.calcRoutingTable
        · apply h.hops
        · intro a entry hentry
          rw [← (spfTable_isShortest hentry).length]
          apply route_length_le hfit (fun b hb => (hmem b).mpr (Or.inr hb)) hentry
  | dumpStatistics => apply h

/-- In every run, all indices that are used on the arrays are within them, exactly when there is
room before every event for what it is going to use. -/
theorem inBounds_iff_fits (ownIp : InAddr) (now : Timespec) (events : List StatEvent) :
  AllInBounds (loopAccesses statStep statAccesses (initOlsrContext ownIp now) events) ↔
    ∀ before e after, events = before ++ e :: after →
      Fits (before.foldl statStep (initOlsrContext ownIp now)) e
  := by
  have hrun : ∀ (events : List StatEvent) (ctx : OlsrContext), ctx.StatInv →
      (AllInBounds (loopAccesses statStep statAccesses ctx events) ↔
        ∀ before e after, events = before ++ e :: after → Fits (before.foldl statStep ctx) e) := by
    intro events
    induction events with
    | nil => simp [loopAccesses]
    | cons e events ih =>
        intro ctx hinv
        rw [loopAccesses, allInBounds_append, hinv.allInBounds_statAccesses]
        constructor
        · rintro ⟨hfits, hrest⟩ before e' after heq
          cases before with
          | nil =>
              obtain ⟨rfl, -⟩ := List.cons.inj heq
              apply hfits
          | cons e'' before =>
              obtain ⟨rfl, hevents⟩ := List.cons.inj heq
              apply (ih _ (hinv.statStep hfits)).mp hrest before e' after hevents
        · intro h
          have hfits := h [] e events rfl
          refine ⟨hfits, (ih _ (hinv.statStep hfits)).mpr ?_⟩
          intro before e' after heq
          apply h (e :: before) e' after
          rw [heq, List.cons_append]
  apply hrun events _ (init_statInv ownIp now)

/-- A packet to each of the first 51 nodes is received. -/
def overheard : List StatEvent :=
  (List.range 51).map (fun i =>
    .recv (buildIpHdr 100 64 (nodeIp 1) (nodeIp (BitVec.ofNat 8 (i + 1))) ipprotoUdp))

/-- The addresses that neighbours and advertisements are of are among `nodes`. -/
def WithinNetwork (nodes : List InAddr) : StatEvent → Prop
  | .calcRoutingTable neighborTree topologyTree =>
      (∀ a n, neighborTree.search a = some n → a ∈ nodes ∧ ∀ b ∈ n.neighbor2Tree, b ∈ nodes) ∧
        ∀ d telem, topologyTree.search d = some telem → d ∈ nodes ∧ ∀ a ∈ telem.anTree, a ∈ nodes
  | _ => True

/-- In a network of no more than `MAX_NODE_ID` nodes, one that receives packets to 51 of them uses
an index beyond the end of `node_info`. -/
theorem not_inBounds :
  ¬ ∀ (nodes : List InAddr), nodes.length ≤ maxNodeId → ∀ (ownIp : InAddr) (now : Timespec)
    (events : List StatEvent), (∀ e ∈ events, WithinNetwork nodes e) →
    AllInBounds (loopAccesses statStep statAccesses (initOlsrContext ownIp now) events)
  := by
  intro hall
  have hused : Access.nodeInfo 50 ∈
      loopAccesses statStep statAccesses (initOlsrContext (nodeIp 1) ⟨0, 0⟩) overheard := by
    decide +kernel
  have hbounds := hall ((List.range 51).map (fun i => nodeIp (BitVec.ofNat 8 (i + 1)))) (by decide)
    (nodeIp 1) ⟨0, 0⟩ overheard (by
      intro e he
      obtain ⟨i, -, rfl⟩ := List.mem_map.mp he
      trivial)
  apply absurd (hbounds _ hused) (by decide)

end OlsrContext
