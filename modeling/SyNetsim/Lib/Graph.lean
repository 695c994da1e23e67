import Mathlib.Combinatorics.SimpleGraph.Metric

/-!
# Routes and relays in a graph

A route is a list of vertices, each adjacent to the one before. A route is at least as long as
the distance it covers.

Relays are neighbours that each vertex chooses such that they reach all vertices two edges
away. Two facts about them are proved.

* A vertex is one edge away from a relay of it that is nearer to a given vertex
  (`IsRelay.exists_nearer`). So shortest paths are found among the edges to relays.
* Vertices that include the relays of each of them are adjacent to all others
  (`IsRelay.dominates`). So what relays pass on reaches everyone.

Routes and distances stay the same when the vertices are embedded into others (`IsRoute.map`,
`dist_map`).
-/

variable {V : Type*} {G : SimpleGraph V}

/-! ### Routes -/

/-- `IsRoute G u v l`: the list `l` leads from `u`, which is left out, to `v` along edges. -/
structure IsRoute (G : SimpleGraph V) (u v : V) (l : List V) : Prop where
  chain : (u :: l).IsChain G.Adj
  last : (u :: l).getLast? = some v

/-- A route is a walk. -/
theorem IsRoute.exists_walk {u v : V} {l : List V} (h : IsRoute G u v l) :
  ∃ w : G.Walk u v, w.length = l.length
  := by
  induction l generalizing u with
  | nil =>
      obtain rfl : u = v := by simpa using h.last
      exact ⟨.nil, rfl⟩
  | cons a l ih =>
      obtain ⟨hadj, hchain⟩ := List.isChain_cons_cons.mp h.chain
      obtain ⟨w, hw⟩ := ih ⟨hchain, by simpa using h.last⟩
      use .cons hadj w
      rw [SimpleGraph.Walk.length_cons, hw, List.length_cons]

/-- A route is no shorter than the distance. -/
theorem IsRoute.dist_le {u v : V} {l : List V} (h : IsRoute G u v l) :
  G.dist u v ≤ l.length
  := by
  obtain ⟨w, hw⟩ := h.exists_walk
  rw [← hw]
  apply SimpleGraph.dist_le

/-! ### Relays -/

/-- Each vertex has chosen neighbours, its relays, that reach all vertices two edges away. -/
structure IsRelay (G : SimpleGraph V) (relay : V → Set V) : Prop where
  adj : ∀ u, ∀ m ∈ relay u, G.Adj u m
  cover : ∀ u b x, G.Adj u b → G.Adj b x → x ≠ u → ¬ G.Adj u x → ∃ m ∈ relay u, G.Adj m x

/-- A vertex at distance two or more from `x` has a relay that is nearer to `x`. -/
theorem IsRelay.exists_nearer {relay : V → Set V} (h : IsRelay G relay) {u x : V} {n : ℕ}
    (hdist : G.dist u x = n + 2) :
  ∃ m ∈ relay u, G.dist m x = n + 1
  := by
  have hreach : G.Reachable u x := SimpleGraph.Reachable.of_dist_ne_zero (by omega)
  obtain ⟨w, hw⟩ := hreach.exists_walk_length_eq_dist
  rw [hdist] at hw
  -- The first two edges of a shortest walk lead to `y`, two edges away.
  cases w with
  | nil => simp at hw
  | cons hub w =>
      cases w with
      | nil => simp at hw
      | @cons b y _ hby w =>
          have hw' : w.length = n := by simpa using hw
          have hy : G.dist y x ≤ n := hw' ▸ SimpleGraph.dist_le w
          have hne : y ≠ u := by
            rintro rfl
            omega
          have hnadj : ¬ G.Adj u y := by
            intro hadj
            have hle := SimpleGraph.dist_le (.cons hadj w)
            rw [SimpleGraph.Walk.length_cons] at hle
            omega
          obtain ⟨m, hm, hmy⟩ := h.cover u _ y hub hby hne hnadj
          have hle := SimpleGraph.dist_le (.cons hmy w)
          have hge := SimpleGraph.Reachable.dist_triangle_left (h.adj u m hm).reachable x
          rw [SimpleGraph.Walk.length_cons] at hle
          rw [SimpleGraph.dist_eq_one_iff_adj.mpr (h.adj u m hm)] at hge
          exact ⟨m, hm, by omega⟩

/-- Vertices among which are the relays of each of them have all others they can reach as
neighbours. -/
theorem IsRelay.dominates {relay : V → Set V} (h : IsRelay G relay) {T : Set V}
    (hrelay : ∀ u ∈ T, ∀ m ∈ relay u, m ∈ T) {o x : V} (ho : o ∈ T) (hreach : G.Reachable o x)
    (hx : o ≠ x) :
  ∃ u ∈ T, G.Adj u x
  := by
  obtain ⟨n, hn⟩ : ∃ n, G.dist o x = n + 1 :=
    Nat.exists_eq_succ_of_ne_zero (hreach.pos_dist_of_ne hx).ne'
  induction n generalizing o with
  | zero => exact ⟨o, ho, SimpleGraph.dist_eq_one_iff_adj.mp hn⟩
  | succ n ih =>
      obtain ⟨m, hm, hdist⟩ := h.exists_nearer hn
      have hmx : G.Reachable m x := SimpleGraph.Reachable.of_dist_ne_zero (by omega)
      apply ih (hrelay o ho m hm) hmx _ hdist
      rintro rfl
      simp at hdist

/-! ### Other vertices -/

variable {W : Type*} (f : V ↪ W)

/-- A route of the embedded vertices. -/
theorem IsRoute.map {u v : V} {l : List V} (h : IsRoute G u v l) :
  IsRoute (G.map f) (f u) (f v) (l.map f)
  := by
  constructor
  · rw [← List.map_cons, List.isChain_map]
    apply h.chain.imp
    intro a b hab
    apply SimpleGraph.map_adj_apply.mpr hab
  · rw [← List.map_cons, List.getLast?_map, h.last]
    rfl

/-- A walk over embedded vertices comes from one of the graph. -/
theorem exists_walk_of_map {a b : W} (w : (G.map f).Walk a b) {u : V} (hu : f u = a) :
  ∃ v, f v = b ∧ ∃ w' : G.Walk u v, w'.length = w.length
  := by
  induction w generalizing u with
  | nil => exact ⟨u, hu, .nil, rfl⟩
  | cons hadj w ih =>
      obtain ⟨x, y, hxy, hx, hy⟩ := (SimpleGraph.map_adj f G _ _).mp hadj
      obtain rfl := f.injective (hx.trans hu.symm)
      obtain ⟨v, hv, w', hw'⟩ := ih hy
      refine ⟨v, hv, .cons hxy w', ?_⟩
      rw [SimpleGraph.Walk.length_cons, SimpleGraph.Walk.length_cons, hw']

theorem reachable_map {u v : V} :
  (G.map f).Reachable (f u) (f v) ↔ G.Reachable u v
  := by
  constructor
  · rintro ⟨w⟩
    obtain ⟨x, hx, w', -⟩ := exists_walk_of_map f w rfl
    rw [← f.injective hx]
    exact ⟨w'⟩
  · intro h
    apply h.map (SimpleGraph.Embedding.map f G).toHom

theorem dist_map (u v : V) :
  (G.map f).dist (f u) (f v) = G.dist u v
  := by
  by_cases h : G.Reachable u v
  · apply le_antisymm
    · obtain ⟨w, hw⟩ := h.exists_walk_length_eq_dist
      rw [← hw, ← SimpleGraph.Walk.length_map (SimpleGraph.Embedding.map f G).toHom w]
      apply SimpleGraph.dist_le
    · obtain ⟨w, hw⟩ := ((reachable_map f).mpr h).exists_walk_length_eq_dist
      obtain ⟨x, hx, w', hw'⟩ := exists_walk_of_map f w rfl
      obtain rfl := f.injective hx
      rw [← hw, ← hw']
      apply SimpleGraph.dist_le
  · rw [SimpleGraph.dist_eq_zero_of_not_reachable h, SimpleGraph.dist_eq_zero_of_not_reachable]
    rw [reachable_map]
    apply h
