import Mathlib.Order.Bounds.Basic
import SyNetsim.Olsr.Spf

/-!
# What the routing table holds

The routing table in terms of neighbours and advertisements. An edge leads from an originator to
an address it advertises, or to an originator that advertises it (`SpfEdge`), and a walk of some
edges starts at a symmetric neighbour (`SpfWalk`). The table that `calc_routing_table` makes holds
the addresses that walks lead to, each with a shortest route (`calcRoutingTable_shortest`).
-/

/-- There is an edge from `d` to `a`: `d` has a topology entry and one of them advertises the
other; this node is on no edge. -/
def SpfEdge (ownIp : InAddr) (topo : OrdMap InAddr TopologyInfoElem) (d a : InAddr) : Prop :=
  d ≠ ownIp ∧ a ≠ ownIp ∧ d ∈ topo ∧ (Advertises topo d a ∨ Advertises topo a d)

/-- `SpfWalk ownIp neighborTree topo n a`: a symmetric neighbour and `n` edges lead to `a`. -/
inductive SpfWalk (ownIp : InAddr) (neighborTree : OrdMap InAddr NeighborElem)
    (topo : OrdMap InAddr TopologyInfoElem) : ℕ → InAddr → Prop
  | neigh {a : InAddr} : IsSymNeigh neighborTree a → SpfWalk ownIp neighborTree topo 0 a
  | edge {n : ℕ} {d a : InAddr} : SpfWalk ownIp neighborTree topo n d → SpfEdge ownIp topo d a →
      SpfWalk ownIp neighborTree topo (n + 1) a

/-- The search follows the edges. -/
theorem mem_spfNext_iff_spfEdge {ownIp : InAddr} {topo : OrdMap InAddr TopologyInfoElem}
    {d a : InAddr} :
  a ∈ spfNext ownIp (duplicateNeighInfo ownIp topo) d ↔ SpfEdge ownIp topo d a
  := mem_spfNext

variable {ownIp : InAddr} {neighborTree : OrdMap InAddr NeighborElem}
  {topo : OrdMap InAddr TopologyInfoElem}

/-- The walks are those of the search. -/
theorem spfWalk_iff {n : ℕ} {a : InAddr} :
  SpfWalk ownIp neighborTree topo n a ↔
    Bfs.Walk (spfNext ownIp (duplicateNeighInfo ownIp topo)) (IsSymNeigh neighborTree) n a
  := by
  constructor
  · intro h
    induction h with
    | neigh ha => apply Bfs.Walk.source ha
    | edge _ hedge ih => apply ih.step (mem_spfNext_iff_spfEdge.mpr hedge)
  · intro h
    induction h with
    | source ha => apply SpfWalk.neigh ha
    | step _ hnext ih => apply ih.edge (mem_spfNext_iff_spfEdge.mp hnext)

/-- The address `a` can be reached from a symmetric neighbour. -/
def SpfReachable (ownIp : InAddr) (neighborTree : OrdMap InAddr NeighborElem)
    (topo : OrdMap InAddr TopologyInfoElem) (a : InAddr) : Prop :=
  ∃ n, SpfWalk ownIp neighborTree topo n a

/-- What an entry of the routing table says: its hop count is one more than the least number of
edges, and its route, of as many addresses, follows edges from a symmetric neighbour and repeats
no address. -/
structure IsShortest (ownIp : InAddr) (neighborTree : OrdMap InAddr NeighborElem)
    (topo : OrdMap InAddr TopologyInfoElem) (a : InAddr) (entry : RoutingEntry) : Prop where
  dest : entry.dest = a
  least : ∃ n, entry.hopCount = n + 1 ∧ IsLeast { n | SpfWalk ownIp neighborTree topo n a } n
  length : entry.route.length = entry.hopCount
  first : ∃ s, entry.route.head? = some s ∧ IsSymNeigh neighborTree s
  last : entry.route.getLast? = some a
  chain : entry.route.IsChain (SpfEdge ownIp topo)
  nodup : entry.route.Nodup

/-- A chain of edges that starts at the end of a walk leads on. -/
theorem SpfWalk.chain {l : List InAddr} {n : ℕ} {d a : InAddr}
    (h : SpfWalk ownIp neighborTree topo n d) (hchain : (d :: l).IsChain (SpfEdge ownIp topo))
    (hlast : (d :: l).getLast? = some a) :
  SpfWalk ownIp neighborTree topo (n + l.length) a
  := by
  induction l generalizing n d with
  | nil =>
      obtain rfl : d = a := by simpa using hlast
      apply h
  | cons b l ih =>
      obtain ⟨hedge, hchain⟩ := List.isChain_cons_cons.mp hchain
      have hwalk := ih (h.edge hedge) hchain (by simpa using hlast)
      rw [List.length_cons, Nat.add_comm l.length, ← Nat.add_assoc]
      apply hwalk

/-- Every entry of the table has a shortest route. -/
theorem spfTable_isShortest {a : InAddr} {entry : RoutingEntry}
    (h : (spfTable ownIp neighborTree topo).search a = some entry) :
  IsShortest ownIp neighborTree topo a entry
  := by
  have hcomplete := spfTable_complete ownIp neighborTree topo
  have hsound := hcomplete.sound a entry h
  have hdest := hcomplete.dest a entry h
  obtain ⟨s, hs, hsym⟩ := hsound.source
  have hlast : entry.route.getLast? = some a := hdest ▸ hsound.last
  have hchain : entry.route.IsChain (SpfEdge ownIp topo) :=
    hsound.chain.imp (fun _ _ => mem_spfNext_iff_spfEdge.mp)
  refine ⟨hdest, ?_, hsound.length, ⟨s, hs, hsym⟩, hlast, hchain, hsound.nodup⟩
  obtain ⟨l, hl⟩ := List.head?_eq_some_iff.mp hs
  -- The route itself is a walk, and the search knows no longer routes than necessary.
  have hwalk : SpfWalk ownIp neighborTree topo l.length a := by
    rw [hl] at hchain hlast
    have hfrom := (SpfWalk.neigh hsym).chain hchain hlast
    rw [Nat.zero_add] at hfrom
    apply hfrom
  have hhops : entry.hopCount = l.length + 1 := by
    rw [← hsound.length, hl, List.length_cons]
  refine ⟨l.length, hhops, hwalk, ?_⟩
  intro m hm
  obtain ⟨entry', hentry', hle⟩ := hcomplete.least m a (spfWalk_iff.mp hm)
  obtain rfl := Option.some.inj (h.symm.trans hentry')
  omega

/-- The table holds the addresses that can be reached. -/
theorem mem_spfTable {a : InAddr} :
  a ∈ spfTable ownIp neighborTree topo ↔ SpfReachable ownIp neighborTree topo a
  := by
  constructor
  · intro ha
    obtain ⟨entry, hentry⟩ := OrdMap.mem_iff.mp ha
    obtain ⟨n, -, hn, -⟩ := (spfTable_isShortest hentry).least
    exact ⟨n, hn⟩
  · rintro ⟨n, hn⟩
    obtain ⟨entry, hentry, -⟩ :=
      (spfTable_complete ownIp neighborTree topo).least n a (spfWalk_iff.mp hn)
    apply OrdMap.mem_of_search hentry

namespace OlsrContext

/-- For all neighbours and advertisements, the visit queue runs empty, and the table made by then
is the routing table after `calc_routing_table`. It holds the addresses reachable from the
symmetric neighbours, each with its distance and a shortest route. -/
theorem calcRoutingTable_shortest (ctx : OlsrContext) :
  (∃ rounds, spfLoop ctx.ownIp (duplicateNeighInfo ctx.ownIp ctx.topologyTree) rounds
      (routingTableAddOneHopNeigh ctx.neighborTree) = (ctx.calcRoutingTable.routingTable, [])) ∧
    (∀ a, a ∈ ctx.calcRoutingTable.routingTable ↔
      SpfReachable ctx.ownIp ctx.neighborTree ctx.topologyTree a) ∧
    ∀ a entry, ctx.calcRoutingTable.routingTable.search a = some entry →
      IsShortest ctx.ownIp ctx.neighborTree ctx.topologyTree a entry
  := by
  rw [calcRoutingTable_routingTable]
  and_intros
  · use (spfUniverse ctx.neighborTree
      (duplicateNeighInfo ctx.ownIp ctx.topologyTree)).length
    apply Prod.ext
    · rfl
    · apply spfLoop_queue_empty
  · intro a
    apply mem_spfTable
  · intro a entry hentry
    apply spfTable_isShortest hentry

end OlsrContext
