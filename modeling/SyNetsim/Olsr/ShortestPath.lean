import SyNetsim.Lib.Graph
import SyNetsim.Olsr.Consistency

/-!
# Shortest paths from relays

A TC advertises the nodes that chose its originator as a relay, so a node knows only some of
the edges of the network. When all nodes know their neighbourhood in a graph `G`, have chosen
their relays by `populate_mpr_set`, and their TC messages have arrived, these edges are enough:
`calc_routing_table` finds shortest paths of `G` (`shortest_paths`).
-/

namespace OlsrContext

/-- The node `u` knows its neighbours in `G`, all symmetric, and their neighbours. Its topology
bears no marks, as always between two handlers. -/
structure Knows (ctx : OlsrContext) (G : SimpleGraph InAddr) (u : InAddr) : Prop where
  ownIp : ctx.ownIp = u
  neighbor : ∀ v, v ∈ ctx.neighborTree ↔ G.Adj u v
  sym : ∀ v n, ctx.neighborTree.search v = some n → n.status = .symNeigh ∨ n.status = .mprNeigh
  twoHop : ∀ v n, ctx.neighborTree.search v = some n →
    ∀ x, x ∈ n.neighbor2Tree ↔ G.Adj v x ∧ x ≠ u
  notDuplicated : NotDuplicated ctx.topologyTree

variable {G : SimpleGraph InAddr}

theorem Knows.isSymNeigh {ctx : OlsrContext} {u : InAddr} (h : ctx.Knows G u) {v : InAddr} :
  IsSymNeigh ctx.neighborTree v ↔ G.Adj u v
  := by
  rw [← h.neighbor, OrdMap.mem_iff]
  constructor
  · rintro ⟨n, hn, -⟩
    exact ⟨n, hn⟩
  · rintro ⟨n, hn⟩
    exact ⟨n, hn, NeighborStatus.isSym_iff.mpr (h.sym v n hn)⟩

theorem Knows.bridges {ctx : OlsrContext} {u : InAddr} (h : ctx.Knows G u) {b x : InAddr} :
  Bridges ctx.neighborTree b x ↔ G.Adj u b ∧ G.Adj b x ∧ x ≠ u
  := by
  rw [← h.neighbor, OrdMap.mem_iff]
  constructor
  · rintro ⟨n, hn, -, hx⟩
    exact ⟨⟨n, hn⟩, (h.twoHop b n hn x).mp hx⟩
  · rintro ⟨⟨n, hn⟩, hx⟩
    exact ⟨n, hn, NeighborStatus.isSym_iff.mpr (h.sym b n hn), (h.twoHop b n hn x).mpr hx⟩

/-- The relays that nodes who know their neighbourhood choose by `populate_mpr_set` reach all
vertices two edges away. -/
theorem isRelay_of_knows {ctx ctx' : InAddr → OlsrContext} (hknows : ∀ u, (ctx u).Knows G u)
    (hmpr : ∀ u, (ctx u).populateMprSet = some (ctx' u)) :
  IsRelay G (fun u => { m | m ∈ (ctx' u).mprTree })
  := by
  have hsel : ∀ u, (ctx u).MprSelected (ctx' u) := by
    intro u
    obtain ⟨ctx'', hctx'', hsel⟩ := populateMprSet_spec (ctx u) (hknows u).notDuplicated
    obtain rfl := Option.some.inj ((hmpr u).symm.trans hctx'')
    apply hsel
  constructor
  · intro u m hm
    apply (hknows u).isSymNeigh.mp ((hsel u).relay m hm)
  · intro u b x hub hbx hne hnadj
    have hn2 : IsN2 (ctx u).ownIp (ctx u).neighborTree x := by
      refine ⟨?_, ?_, b, (hknows u).bridges.mpr ⟨hub, hbx, hne⟩⟩
      · rw [(hknows u).ownIp]
        apply hne
      · rw [(hknows u).isSymNeigh]
        apply hnadj
    obtain ⟨m, hm, hbridges⟩ := (hsel u).cover x hn2
    obtain ⟨-, hmx, -⟩ := (hknows u).bridges.mp hbridges
    exact ⟨m, hm, hmx⟩

/-! ### The search -/

/-- What the node `o` knows of the rest of the network: it has a topology entry of every other
node of its component, and entries of others list the nodes that chose them as a relay. -/
structure KnowsSelectors (topo : OrdMap InAddr TopologyInfoElem) (G : SimpleGraph InAddr)
    (relay : InAddr → Set InAddr) (o : InAddr) : Prop where
  entry : ∀ v, v ≠ o → G.Reachable o v → v ∈ topo
  selectors : ∀ v telem, v ≠ o → topo.search v = some telem →
    ∀ w, w ∈ telem.anTree ↔ v ∈ relay w

/-- Edges of the search are edges of the graph. -/
theorem KnowsSelectors.adj {topo : OrdMap InAddr TopologyInfoElem} {relay : InAddr → Set InAddr}
    {o : InAddr} (h : KnowsSelectors topo G relay o) (hrelay : IsRelay G relay) {d a : InAddr}
    (ha : a ∈ spfNext o (duplicateNeighInfo o topo) d) :
  G.Adj d a
  := by
  obtain ⟨hdo, hao, -, ⟨telem, htelem, ha⟩ | ⟨telem, htelem, hd⟩⟩ := mem_spfNext.mp ha
  · apply (hrelay.adj a d ((h.selectors d telem hdo htelem a).mp ha)).symm
  · apply hrelay.adj d a ((h.selectors a telem hao htelem d).mp hd)

/-- The search reaches every node of the component in as many steps as it is away. -/
theorem KnowsSelectors.walk {topo : OrdMap InAddr TopologyInfoElem} {relay : InAddr → Set InAddr}
    {o : InAddr} (h : KnowsSelectors topo G relay o) (hrelay : IsRelay G relay) {n : ℕ}
    {d : InAddr} (hdist : G.dist d o = n + 1) :
  Bfs.Walk (spfNext o (duplicateNeighInfo o topo)) (G.Adj o) n d
  := by
  -- By induction on the distance: `d` has a relay one step nearer, whose entry lists `d`.
  induction n generalizing d with
  | zero =>
      apply Bfs.Walk.source
      apply (SimpleGraph.dist_eq_one_iff_adj.mp hdist).symm
  | succ n ih =>
      obtain ⟨m, hm, hmdist⟩ := hrelay.exists_nearer hdist
      apply (ih hmdist).step
      have hmo : m ≠ o := by
        rintro rfl
        simp at hmdist
      have hdo : d ≠ o := by
        rintro rfl
        simp at hdist
      have hreach : G.Reachable m o := SimpleGraph.Reachable.of_dist_ne_zero (by omega)
      have hentry := h.entry m hmo hreach.symm
      obtain ⟨telem, htelem⟩ := OrdMap.mem_iff.mp hentry
      apply mem_spfNext.mpr
      refine ⟨hmo, hdo, hentry, ?_⟩
      left
      exact ⟨telem, htelem, (h.selectors m telem hmo htelem d).mpr hm⟩

/-- A route of the search is a path from this node. -/
theorem KnowsSelectors.isRoute {topo : OrdMap InAddr TopologyInfoElem}
    {relay : InAddr → Set InAddr} {o : InAddr} (h : KnowsSelectors topo G relay o)
    (hrelay : IsRelay G relay) {table : OrdMap InAddr RoutingEntry} {e : RoutingEntry}
    (he : e.Sound (spfNext o (duplicateNeighInfo o topo)) (G.Adj o) table) :
  IsRoute G o e.dest e.route ∧ (o :: e.route).Nodup
  := by
  obtain ⟨s, hs, hos⟩ := he.source
  obtain ⟨route, hroute⟩ : ∃ route, e.route = s :: route := by
    cases hr : e.route with
    | nil =>
        rw [hr] at hs
        contradiction
    | cons a route =>
        rw [hr] at hs
        obtain rfl : a = s := by simpa using hs
        exact ⟨route, rfl⟩
  have hchain : (o :: e.route).IsChain G.Adj := by
    rw [hroute, List.isChain_cons_cons, ← hroute]
    refine ⟨hos, he.chain.imp ?_⟩
    intro d a ha
    apply h.adj hrelay ha
  refine ⟨⟨hchain, ?_⟩, ?_⟩
  · rw [hroute, List.getLast?_cons_cons, ← hroute]
    apply he.last
  · rw [List.nodup_cons]
    refine ⟨?_, he.nodup⟩
    have hne : ∀ a ∈ route, a ≠ o := by
      apply (hroute ▸ he.chain).cons_induction (· ≠ o)
      · intro d a ha _
        apply (mem_spfNext.mp ha).2.1
      · apply hos.ne'
    rw [hroute, List.mem_cons]
    rintro (rfl | ho)
    · apply hos.ne rfl
    · apply hne o ho rfl

/-- When all nodes know their neighbourhood and have chosen their relays, and `o` knows who
chose the other nodes of its component as relays, `calc_routing_table` at `o` finds a shortest
path to each of them. -/
theorem shortest_paths {ctx ctx' : InAddr → OlsrContext} (hknows : ∀ u, (ctx u).Knows G u)
    (hmpr : ∀ u, (ctx u).populateMprSet = some (ctx' u)) {o : InAddr}
    (htopo : KnowsSelectors (ctx' o).topologyTree G (fun u => { m | m ∈ (ctx' u).mprTree }) o)
    {d : InAddr} (hd : d ≠ o) (hreach : G.Reachable o d) :
  ∃ e, (ctx' o).calcRoutingTable.routingTable.search d = some e ∧ e.hopCount = G.dist o d ∧
    IsRoute G o d e.route ∧ (o :: e.route).Nodup ∧ e.route.length = e.hopCount
  := by
  have hrelay := isRelay_of_knows hknows hmpr
  obtain ⟨ctx'', hctx'', hsel⟩ := populateMprSet_spec (ctx o) (hknows o).notDuplicated
  obtain rfl := Option.some.inj ((hmpr o).symm.trans hctx'')
  have hown : (ctx' o).ownIp = o := by
    have hown := congrArg OlsrContext.ownIp hsel.core
    apply Eq.trans hown (hknows o).ownIp
  have hsym : IsSymNeigh (ctx' o).neighborTree = G.Adj o := by
    funext v
    rw [hsel.isSymNeigh, (hknows o).isSymNeigh]
  have hcomplete := spfTable_complete o (ctx' o).neighborTree (ctx' o).topologyTree
  rw [hsym] at hcomplete
  obtain ⟨n, hn⟩ : ∃ n, G.dist d o = n + 1 :=
    Nat.exists_eq_succ_of_ne_zero (hreach.symm.pos_dist_of_ne hd).ne'
  obtain ⟨e, he, hle⟩ := hcomplete.least n d (htopo.walk hrelay hn)
  have hdest := hcomplete.dest d e he
  have hsound := hcomplete.sound d e he
  obtain ⟨hroute, hnodup⟩ := htopo.isRoute hrelay hsound
  rw [hdest] at hroute
  have hge := hroute.dist_le
  rw [hsound.length] at hge
  rw [SimpleGraph.dist_comm] at hn
  refine ⟨e, ?_, by omega, hroute, hnodup, hsound.length⟩
  rw [calcRoutingTable_routingTable, hown]
  apply he

/-! ### Three nodes in a line -/

/-- The neighbours in the line of nodes 1, 2 and 3. -/
def lineNeighbors (u : InAddr) : List InAddr :=
  if u = nodeIp 1 then [nodeIp 2]
  else if u = nodeIp 2 then [nodeIp 1, nodeIp 3]
  else if u = nodeIp 3 then [nodeIp 2]
  else []

theorem mem_lineNeighbors {u v : InAddr} :
  v ∈ lineNeighbors u ↔ u = nodeIp 1 ∧ v = nodeIp 2 ∨ u = nodeIp 2 ∧ v = nodeIp 1 ∨
    u = nodeIp 2 ∧ v = nodeIp 3 ∨ u = nodeIp 3 ∧ v = nodeIp 2
  := by
  rw [lineNeighbors]
  split_ifs with h1 h2 h3
  · simp [h1]
  · simp [h2]
  · simp [h3]
  · simp only [h1, h2, h3, false_and, or_false, List.not_mem_nil]

/-- The line of nodes 1, 2 and 3. -/
def line : SimpleGraph InAddr where
  Adj u v := v ∈ lineNeighbors u
  symm := by
    constructor
    intro u v h
    rw [mem_lineNeighbors] at h ⊢
    tauto
  loopless := by
    constructor
    intro u h
    rw [mem_lineNeighbors] at h
    rcases h with ⟨rfl, h⟩ | ⟨rfl, h⟩ | ⟨rfl, h⟩ | ⟨rfl, h⟩
    all_goals
      apply absurd h
      decide

theorem line_adj :
  line.Adj (nodeIp 1) (nodeIp 2) ∧ line.Adj (nodeIp 2) (nodeIp 3)
  := by
  constructor
  · apply mem_lineNeighbors.mpr
    tauto
  · apply mem_lineNeighbors.mpr
    tauto

/-- A node of the line that knows its neighbourhood, and, if it is node 1, who chose the other
nodes as relays. -/
def lineNode (u : InAddr) : OlsrContext :=
  { initOlsrContext u ⟨0, 0⟩ with
    neighborTree := .ofKeys (lineNeighbors u) (fun v =>
      ⟨.symNeigh, willDefault,
        .ofKeys ((lineNeighbors v).filter (· ≠ u)) (fun _ => ⟨0, v, 0⟩)⟩)
    topologyTree :=
      if u = nodeIp 1 then
        .ofKeys [nodeIp 2, nodeIp 3] (fun v => ⟨0, 0,
          .ofKeys (if v = nodeIp 2 then [nodeIp 1, nodeIp 3] else []) (fun _ => ⟨false, false⟩), 0⟩)
      else .empty }

theorem lineNode_knows (u : InAddr) :
  (lineNode u).Knows line u
  := by
  constructor
  · rfl
  · intro v
    apply OrdMap.mem_ofKeys
  · intro v n hn
    simp only [lineNode, OrdMap.search_ofKeys] at hn
    split_ifs at hn
    rw [← Option.some.inj hn]
    left
    rfl
  · intro v n hn x
    simp only [lineNode, OrdMap.search_ofKeys] at hn
    split_ifs at hn
    rw [← Option.some.inj hn, OrdMap.mem_ofKeys, List.mem_filter]
    simp [line]
  · intro v telem hv a aelem ha
    simp only [lineNode] at hv
    split_ifs at hv
    · rw [OrdMap.search_ofKeys] at hv
      rw [Option.ite_none_right_eq_some] at hv
      obtain ⟨-, heq⟩ := hv
      obtain rfl := Option.some.inj heq
      rw [OrdMap.search_ofKeys, Option.ite_none_right_eq_some] at ha
      obtain ⟨-, heq'⟩ := ha
      obtain rfl := Option.some.inj heq'
      rfl
    · contradiction

/-- A node of the line after it has chosen its relays. -/
def lineNode' (u : InAddr) : OlsrContext := (lineNode u).populateMprSet.getD (lineNode u)

theorem lineNode_populateMprSet (u : InAddr) :
  (lineNode u).populateMprSet = some (lineNode' u)
  := by
  obtain ⟨ctx', hctx', -⟩ := populateMprSet_spec (lineNode u) (lineNode_knows u).notDuplicated
  rw [lineNode', hctx', Option.getD_some]

/-- Nodes 1 and 3 have chosen node 2. -/
theorem mem_mprTree_lineNode' {u m : InAddr} :
  m ∈ (lineNode' u).mprTree ↔ m = nodeIp 2 ∧ (u = nodeIp 1 ∨ u = nodeIp 3)
  := by
  have hrelay := isRelay_of_knows lineNode_knows lineNode_populateMprSet
  rw [← OrdMap.mem_keys]
  by_cases h1 : u = nodeIp 1
  · have hkeys : (lineNode' (nodeIp 1)).mprTree.keys = [nodeIp 2] := by decide +kernel
    subst h1
    rw [hkeys]
    simp
  · by_cases h2 : u = nodeIp 2
    · have hkeys : (lineNode' (nodeIp 2)).mprTree.keys = [] := by decide +kernel
      subst h2
      rw [hkeys]
      simp
    · by_cases h3 : u = nodeIp 3
      · have hkeys : (lineNode' (nodeIp 3)).mprTree.keys = [nodeIp 2] := by decide +kernel
        subst h3
        rw [hkeys]
        simp
      · simp only [h1, h3, or_false, and_false, iff_false]
        intro hm
        have hadj := mem_lineNeighbors.mp (hrelay.adj u m hm)
        tauto

/-- Node 1 finds the shortest path to node 3. -/
theorem shortest_paths_line :
  ∃ e, (lineNode' (nodeIp 1)).calcRoutingTable.routingTable.search (nodeIp 3) = some e ∧
    e.hopCount = line.dist (nodeIp 1) (nodeIp 3) ∧ IsRoute line (nodeIp 1) (nodeIp 3) e.route
  := by
  have htopo : KnowsSelectors (lineNode' (nodeIp 1)).topologyTree line
      (fun u => { m | m ∈ (lineNode' u).mprTree }) (nodeIp 1) := by
    obtain ⟨ctx', hctx', hsel⟩ := populateMprSet_spec (lineNode (nodeIp 1))
      (lineNode_knows (nodeIp 1)).notDuplicated
    obtain rfl := Option.some.inj ((lineNode_populateMprSet _).symm.trans hctx')
    have htopology : (lineNode' (nodeIp 1)).topologyTree = (lineNode (nodeIp 1)).topologyTree :=
      hsel.local.topologyTree
    rw [htopology, lineNode, if_pos rfl]
    constructor
    · intro v hv hreach
      rw [OrdMap.mem_ofKeys]
      obtain ⟨w⟩ := hreach.symm
      cases w with
      | nil => contradiction
      | cons hadj w =>
          have hadj' := mem_lineNeighbors.mp hadj
          simp only [List.mem_cons, List.not_mem_nil, or_false]
          tauto
    · rintro v telem - hv w
      rw [OrdMap.search_ofKeys, Option.ite_none_right_eq_some] at hv
      obtain ⟨hmem, heq⟩ := hv
      obtain rfl := Option.some.inj heq
      rw [OrdMap.mem_ofKeys, Set.mem_ofPred_eq, mem_mprTree_lineNode']
      split_ifs with h2
      · simp [h2]
      · simp only [h2, false_and, List.not_mem_nil]
  obtain ⟨e, he, hhop, hroute, -⟩ := shortest_paths lineNode_knows lineNode_populateMprSet htopo
    (by decide) (line_adj.1.reachable.trans line_adj.2.reachable)
  exact ⟨e, he, hhop, hroute⟩

end OlsrContext
