import SyNetsim.Olsr.Neighbor

/-!
# Multipoint relays

`populate_mpr_set` of `olsr_mpr.c` chooses, among the symmetric neighbours, relays that
together reach all two-hop neighbours: first a neighbour that alone reaches some of them,
then, while some are left, the neighbour that reaches most of those.

The choice always covers the two-hop neighbours, and leaves the chosen neighbours with
status `MPR_NEIGH` and the other symmetric ones with `SYM_NEIGH` (`populateMprSet_spec`).
-/

/-! ### The sets of one-hop and two-hop neighbours -/

/-- `calc_n1_set`: the symmetric neighbours. -/
def calcN1Set (neighborTree : OrdMap InAddr NeighborElem) : OrdMap InAddr Unit :=
  neighborTree.entries.foldl
    (fun n1Set nelem => if nelem.2.status.isSym then n1Set.insert nelem.1 () else n1Set) .empty

/-- The body of the inner loop of `calc_n2_set`: enter the two-hop neighbour `n2addr` of the
neighbour `addr`. -/
def enterN2 (ownIp : InAddr) (n1Set : OrdMap InAddr Unit) (addr : InAddr)
    (n2Set : OrdMap InAddr (OrdMap InAddr Unit)) (n2addr : InAddr) :
    OrdMap InAddr (OrdMap InAddr Unit) :=
  if n2addr = ownIp then n2Set
  else if n2addr ∈ n1Set then n2Set
  else (n2Set.insert n2addr .empty).modify n2addr (fun n1Tree => n1Tree.insert addr ())

/-- `calc_n2_set`: the strict two-hop neighbours, each with the symmetric neighbours that
reach it. -/
def calcN2Set (ownIp : InAddr) (neighborTree : OrdMap InAddr NeighborElem)
    (n1Set : OrdMap InAddr Unit) : OrdMap InAddr (OrdMap InAddr Unit) :=
  neighborTree.entries.foldl
    (fun n2Set nelem =>
      if nelem.2.status.isSym then
        nelem.2.neighbor2Tree.keys.foldl (enterN2 ownIp n1Set nelem.1) n2Set
      else n2Set)
    .empty

/-- Remove from the two-hop set what a chosen neighbour reaches. -/
def removeBridged (n2Set : OrdMap InAddr (OrdMap InAddr Unit))
    (neighbor2Tree : OrdMap InAddr Neighbor2Elem) : OrdMap InAddr (OrdMap InAddr Unit) :=
  neighbor2Tree.keys.foldl (fun n2Set n2addr => n2Set.erase n2addr) n2Set

/-- The neighbours that are the only ones to reach some two-hop neighbour,
`selected_mpr_tree`. -/
def selectedMprTree (n2Set : OrdMap InAddr (OrdMap InAddr Unit)) : OrdMap InAddr Unit :=
  n2Set.entries.foldl
    (fun selected n2rElem =>
      if n2rElem.2.count = 1 then
        match n2rElem.2.first with
        | some (n1Addr, _) => selected.insert n1Addr ()
        | none => selected
      else selected)
    .empty

/-- `check_mpr_set_change`. -/
def checkMprSetChange (oldSet newSet : OrdMap InAddr Unit) : Bool :=
  if oldSet.count ≠ newSet.count then true
  else oldSet.keys.any (fun a => a ∉ newSet)

/-- `calc_reachability`: how many of the two-hop set a neighbour reaches. -/
def calcReachability (neigh : NeighborElem) (n2Set : OrdMap InAddr (OrdMap InAddr Unit)) : ℕ :=
  neigh.neighbor2Tree.keys.countP (fun n2addr => n2addr ∈ n2Set)

namespace OlsrContext

/-! ### The choice of relays -/

/-- `add_unique_bridge_to_mpr`. The loop over `selected_mpr_tree` inserts the very node it is
at into `mpr_tree`, which is empty: the node becomes a root without parent or children, its
successor is null, and the loop ends. So only the first of the selected neighbours is
chosen here. -/
def addUniqueBridgeToMpr (ctx : OlsrContext) (n1Set : OrdMap InAddr Unit)
    (n2Set : OrdMap InAddr (OrdMap InAddr Unit)) :
    Option (OlsrContext × OrdMap InAddr Unit × OrdMap InAddr (OrdMap InAddr Unit)) :=
  match (selectedMprTree n2Set).first with
  | none => some (ctx, n1Set, n2Set)
  | some (mprAddr, _) => do
      let ctx := { ctx with mprTree := ctx.mprTree.insert mprAddr () }
      let n1Set := n1Set.erase mprAddr
      let mprNeigh ← ctx.neighborTree.search mprAddr
      let ctx ← ctx.setNeighborStatus mprAddr .mprNeigh
      return (ctx, n1Set, removeBridged n2Set mprNeigh.neighbor2Tree)

/-- `get_max_reachablilty_neigh`: the first neighbour in `n1Set` that reaches most of
`n2Set`, if one reaches any. -/
def getMaxReachabilityNeigh (ctx : OlsrContext) (n1Set : OrdMap InAddr Unit)
    (n2Set : OrdMap InAddr (OrdMap InAddr Unit)) : Option (ℕ × Option InAddr) :=
  n1Set.keys.foldlM
    (fun best addr => do
      let nelem ← ctx.neighborTree.search addr
      let reachability := calcReachability nelem n2Set
      return if reachability > best.1 then (reachability, some addr) else best)
    (0, none)

/-- `populate_mpr_set_by_reachability`, for at most `fuel` rounds. -/
def populateMprSetByReachability : ℕ → OlsrContext → OrdMap InAddr Unit →
    OrdMap InAddr (OrdMap InAddr Unit) →
    Option (OlsrContext × OrdMap InAddr Unit × OrdMap InAddr (OrdMap InAddr Unit))
  | 0, ctx, n1Set, n2Set => some (ctx, n1Set, n2Set)
  | fuel + 1, ctx, n1Set, n2Set =>
      if n2Set.count = 0 then some (ctx, n1Set, n2Set)
      else do
        let best ← ctx.getMaxReachabilityNeigh n1Set n2Set
        match best.2 with
        | none => some (ctx, n1Set, n2Set)
        | some addr =>
            let ctx ← ctx.setNeighborStatus addr .mprNeigh
            let ctx := { ctx with mprTree := ctx.mprTree.insert addr () }
            let mprNeigh ← ctx.neighborTree.search addr
            populateMprSetByReachability fuel ctx (n1Set.erase addr)
              (removeBridged n2Set mprNeigh.neighbor2Tree)

/-- `clean_n1_set`: the symmetric neighbours not chosen. -/
def cleanN1Set (ctx : OlsrContext) (n1Set : OrdMap InAddr Unit) : Option OlsrContext :=
  n1Set.keys.foldlM (fun ctx addr => ctx.setNeighborStatus addr .symNeigh) ctx

/-- `populate_mpr_set`. The greedy loop removes a two-hop neighbour in every round, so it has
no more rounds than there are. -/
def populateMprSet (ctx : OlsrContext) : Option OlsrContext := do
  let oldSet := ctx.mprTree
  let ctx := { ctx with mprTree := .empty }
  let n1Set := calcN1Set ctx.neighborTree
  let n2Set := calcN2Set ctx.ownIp ctx.neighborTree n1Set
  let (ctx, n1Set, n2Set) ← ctx.addUniqueBridgeToMpr n1Set n2Set
  let (ctx, n1Set, _) ← populateMprSetByReachability n2Set.count ctx n1Set n2Set
  let ctx := if checkMprSetChange oldSet ctx.mprTree then { ctx with ansn := ctx.ansn + 1 } else ctx
  ctx.cleanN1Set n1Set

end OlsrContext

/-! ### The two sets -/

/-- The symmetric neighbour `b` reaches `x`. -/
def Bridges (neighborTree : OrdMap InAddr NeighborElem) (b x : InAddr) : Prop :=
  ∃ n, neighborTree.search b = some n ∧ n.status.isSym = true ∧ x ∈ n.neighbor2Tree

/-- `x` is a strict two-hop neighbour: another node, no symmetric neighbour, and reached by a
symmetric neighbour. -/
def IsN2 (ownIp : InAddr) (neighborTree : OrdMap InAddr NeighborElem) (x : InAddr) : Prop :=
  x ≠ ownIp ∧ ¬ IsSymNeigh neighborTree x ∧ ∃ b, Bridges neighborTree b x

/-- A loop over the entries of a map that enters those that satisfy a condition enters exactly
those. -/
theorem mem_calcN1Set {neighborTree : OrdMap InAddr NeighborElem} {a : InAddr} :
  a ∈ calcN1Set neighborTree ↔ IsSymNeigh neighborTree a
  := by
  have hsteps : ∀ (l : List (InAddr × NeighborElem)) (n1Set : OrdMap InAddr Unit),
      a ∈ l.foldl (fun n1Set nelem =>
        if nelem.2.status.isSym then n1Set.insert nelem.1 () else n1Set) n1Set ↔
      a ∈ n1Set ∨ ∃ n, (a, n) ∈ l ∧ n.status.isSym = true := by
    intro l
    induction l with
    | nil => simp
    | cons nelem l ih =>
        intro n1Set
        obtain ⟨b, nb⟩ := nelem
        rw [List.foldl_cons, ih]
        by_cases hsym : nb.status.isSym = true
        · simp only [hsym, if_true, OrdMap.mem_insert, List.mem_cons, Prod.mk.injEq]
          constructor
          · rintro ((rfl | h) | ⟨n, hn, hs⟩)
            · right
              exact ⟨nb, Or.inl ⟨rfl, rfl⟩, hsym⟩
            · left
              apply h
            · right
              exact ⟨n, Or.inr hn, hs⟩
          · rintro (h | ⟨n, ⟨rfl, rfl⟩ | hn, hs⟩)
            · left
              right
              apply h
            · left
              left
              rfl
            · right
              exact ⟨n, hn, hs⟩
        · rw [if_neg hsym]
          constructor
          · rintro (h | ⟨n, hn, hs⟩)
            · left
              apply h
            · right
              exact ⟨n, List.mem_cons_of_mem _ hn, hs⟩
          · rintro (h | ⟨n, hn, hs⟩)
            · left
              apply h
            · rcases List.mem_cons.mp hn with hn | hn
              · obtain ⟨rfl, rfl⟩ := Prod.mk.inj hn
                apply absurd hs hsym
              · right
                exact ⟨n, hn, hs⟩
  rw [calcN1Set, hsteps]
  simp only [OrdMap.not_mem_empty, false_or, IsSymNeigh, OrdMap.search_eq_some]

/-- The pair of a two-hop neighbour and a neighbour that reaches it is entered. -/
def Entered (n2Set : OrdMap InAddr (OrdMap InAddr Unit)) (x b : InAddr) : Prop :=
  ∃ n1Tree, n2Set.search x = some n1Tree ∧ b ∈ n1Tree

/-- Every two-hop neighbour of the set has a neighbour that reaches it. -/
def Inhabited₂ (n2Set : OrdMap InAddr (OrdMap InAddr Unit)) : Prop :=
  ∀ x ∈ n2Set, ∃ b, Entered n2Set x b

/-- Entering one two-hop neighbour adds one pair, unless it is this node or a symmetric
neighbour. -/
theorem enterN2_spec (ownIp : InAddr) (n1Set : OrdMap InAddr Unit) (addr : InAddr)
    {n2Set : OrdMap InAddr (OrdMap InAddr Unit)} (h : Inhabited₂ n2Set) (n2addr : InAddr) :
  Inhabited₂ (enterN2 ownIp n1Set addr n2Set n2addr) ∧
    ∀ x b, Entered (enterN2 ownIp n1Set addr n2Set n2addr) x b ↔
      Entered n2Set x b ∨ x ≠ ownIp ∧ x ∉ n1Set ∧ x = n2addr ∧ b = addr
  := by
  rw [enterN2]
  by_cases hown : n2addr = ownIp
  · rw [if_pos hown]
    refine ⟨h, ?_⟩
    intro x b
    constructor
    · intro hx
      left
      apply hx
    · rintro (hx | ⟨hne, -, rfl, -⟩)
      · apply hx
      · apply absurd hown hne
  · rw [if_neg hown]
    by_cases hn1 : n2addr ∈ n1Set
    · rw [if_pos hn1]
      refine ⟨h, ?_⟩
      intro x b
      constructor
      · intro hx
        left
        apply hx
      · rintro (hx | ⟨-, hx, rfl, -⟩)
        · apply hx
        · apply absurd hn1 hx
    · rw [if_neg hn1]
      have hentered : ∀ x b,
          Entered ((n2Set.insert n2addr .empty).modify n2addr (fun t => t.insert addr ())) x b ↔
            Entered n2Set x b ∨ x ≠ ownIp ∧ x ∉ n1Set ∧ x = n2addr ∧ b = addr := by
        intro x b
        simp only [Entered, OrdMap.search_modify, OrdMap.search_insert]
        by_cases hx : x = n2addr
        · subst hx
          cases hs : n2Set.search x with
          | none => simp [hown, hn1]
          | some t =>
              simp only [if_true, Option.getD_some, Option.map_some, Option.some.injEq,
                exists_eq_left', OrdMap.mem_insert, hown, hn1, ne_eq, not_false_eq_true, true_and]
              tauto
        · simp [hx]
      refine ⟨?_, hentered⟩
      intro x hx
      rw [OrdMap.mem_modify, OrdMap.mem_insert] at hx
      rcases hx with rfl | hx
      · use addr
        apply (hentered x addr).mpr
        right
        exact ⟨hown, hn1, rfl, rfl⟩
      · obtain ⟨b, hb⟩ := h x hx
        use b
        apply (hentered x b).mpr
        left
        apply hb

/-- The inner loop of `calc_n2_set` adds the pairs of one neighbour. -/
theorem foldl_enterN2_spec (ownIp : InAddr) (n1Set : OrdMap InAddr Unit) (addr : InAddr)
    (l : List InAddr) {n2Set : OrdMap InAddr (OrdMap InAddr Unit)} (h : Inhabited₂ n2Set) :
  Inhabited₂ (l.foldl (enterN2 ownIp n1Set addr) n2Set) ∧
    ∀ x b, Entered (l.foldl (enterN2 ownIp n1Set addr) n2Set) x b ↔
      Entered n2Set x b ∨ x ≠ ownIp ∧ x ∉ n1Set ∧ x ∈ l ∧ b = addr
  := by
  induction l generalizing n2Set with
  | nil => simpa using h
  | cons n2addr l ih =>
      obtain ⟨hinh, hentered⟩ := enterN2_spec ownIp n1Set addr h n2addr
      obtain ⟨hinh', hentered'⟩ := ih hinh
      rw [List.foldl_cons]
      refine ⟨hinh', ?_⟩
      intro x b
      rw [hentered', hentered, List.mem_cons]
      tauto

/-- The two-hop set holds the strict two-hop neighbours, each with the neighbours that reach
it. -/
theorem calcN2Set_spec (ownIp : InAddr) (neighborTree : OrdMap InAddr NeighborElem)
    (n1Set : OrdMap InAddr Unit) :
  Inhabited₂ (calcN2Set ownIp neighborTree n1Set) ∧
    ∀ x b, Entered (calcN2Set ownIp neighborTree n1Set) x b ↔
      x ≠ ownIp ∧ x ∉ n1Set ∧ Bridges neighborTree b x
  := by
  have hsteps : ∀ (l : List (InAddr × NeighborElem)) (n2Set : OrdMap InAddr (OrdMap InAddr Unit)),
      Inhabited₂ n2Set →
      let n2Set' := l.foldl (fun n2Set nelem =>
        if nelem.2.status.isSym then
          nelem.2.neighbor2Tree.keys.foldl (enterN2 ownIp n1Set nelem.1) n2Set
        else n2Set) n2Set
      Inhabited₂ n2Set' ∧ ∀ x b, Entered n2Set' x b ↔ Entered n2Set x b ∨
        x ≠ ownIp ∧ x ∉ n1Set ∧
          ∃ n, (b, n) ∈ l ∧ n.status.isSym = true ∧ x ∈ n.neighbor2Tree := by
    intro l
    induction l with
    | nil =>
        intro n2Set h
        simpa using h
    | cons nelem l ih =>
        intro n2Set h
        obtain ⟨c, nc⟩ := nelem
        by_cases hsym : nc.status.isSym = true
        · obtain ⟨hinh, hentered⟩ :=
            foldl_enterN2_spec ownIp n1Set c nc.neighbor2Tree.keys h
          obtain ⟨hinh', hentered'⟩ := ih _ hinh
          simp only [List.foldl_cons, hsym, if_true]
          refine ⟨hinh', ?_⟩
          intro x b
          rw [hentered', hentered]
          constructor
          · rintro ((hx | ⟨hown, hn1, hx, rfl⟩) | ⟨hown, hn1, n, hn, hs, hx⟩)
            · left
              apply hx
            · right
              exact ⟨hown, hn1, nc, List.mem_cons_self, hsym, hx⟩
            · right
              exact ⟨hown, hn1, n, List.mem_cons_of_mem _ hn, hs, hx⟩
          · rintro (hx | ⟨hown, hn1, n, hn, hs, hx⟩)
            · left
              left
              apply hx
            · rcases List.mem_cons.mp hn with hn | hn
              · obtain ⟨rfl, rfl⟩ := Prod.mk.inj hn
                left
                right
                exact ⟨hown, hn1, hx, rfl⟩
              · right
                exact ⟨hown, hn1, n, hn, hs, hx⟩
        · obtain ⟨hinh', hentered'⟩ := ih _ h
          simp only [List.foldl_cons, if_neg hsym]
          refine ⟨hinh', ?_⟩
          intro x b
          rw [hentered']
          constructor
          · rintro (hx | ⟨hown, hn1, n, hn, hs, hx⟩)
            · left
              apply hx
            · right
              exact ⟨hown, hn1, n, List.mem_cons_of_mem _ hn, hs, hx⟩
          · rintro (hx | ⟨hown, hn1, n, hn, hs, hx⟩)
            · left
              apply hx
            · rcases List.mem_cons.mp hn with hn | hn
              · obtain ⟨rfl, rfl⟩ := Prod.mk.inj hn
                apply absurd hs hsym
              · right
                exact ⟨hown, hn1, n, hn, hs, hx⟩
  obtain ⟨hinh, hentered⟩ := hsteps neighborTree.entries .empty (by
    intro x hx
    apply absurd hx (OrdMap.not_mem_empty x))
  refine ⟨hinh, ?_⟩
  intro x b
  rw [calcN2Set, hentered]
  simp [Entered, Bridges, OrdMap.search_eq_some]

/-- The keys of the two-hop set are the strict two-hop neighbours. -/
theorem mem_calcN2Set {ownIp : InAddr} {neighborTree : OrdMap InAddr NeighborElem} {x : InAddr} :
  x ∈ calcN2Set ownIp neighborTree (calcN1Set neighborTree) ↔ IsN2 ownIp neighborTree x
  := by
  obtain ⟨hinh, hentered⟩ := calcN2Set_spec ownIp neighborTree (calcN1Set neighborTree)
  simp only [mem_calcN1Set] at hentered
  constructor
  · intro hx
    obtain ⟨b, hb⟩ := hinh x hx
    obtain ⟨hown, hsym, hbridge⟩ := (hentered x b).mp hb
    exact ⟨hown, hsym, b, hbridge⟩
  · rintro ⟨hown, hsym, b, hbridge⟩
    obtain ⟨n1Tree, htree, -⟩ := (hentered x b).mpr ⟨hown, hsym, hbridge⟩
    apply OrdMap.mem_of_search htree

theorem mem_removeBridged {n2Set : OrdMap InAddr (OrdMap InAddr Unit)}
    {neighbor2Tree : OrdMap InAddr Neighbor2Elem} {x : InAddr} :
  x ∈ removeBridged n2Set neighbor2Tree ↔ x ∈ n2Set ∧ x ∉ neighbor2Tree
  := by
  have hsteps : ∀ (l : List InAddr) (n2Set : OrdMap InAddr (OrdMap InAddr Unit)),
      x ∈ l.foldl (fun n2Set n2addr => n2Set.erase n2addr) n2Set ↔ x ∈ n2Set ∧ x ∉ l := by
    intro l
    induction l with
    | nil => simp
    | cons y l ih =>
        intro n2Set
        rw [List.foldl_cons, ih, OrdMap.mem_erase, List.mem_cons]
        tauto
  apply hsteps

/-- A neighbour selected first reaches some two-hop neighbour. -/
theorem selectedMprTree_entered {n2Set : OrdMap InAddr (OrdMap InAddr Unit)} {a : InAddr}
    (h : a ∈ selectedMprTree n2Set) :
  ∃ x, Entered n2Set x a
  := by
  have hsteps : ∀ (l : List (InAddr × OrdMap InAddr Unit)) (selected : OrdMap InAddr Unit),
      a ∈ l.foldl (fun selected n2rElem =>
        if n2rElem.2.count = 1 then
          match n2rElem.2.first with
          | some (n1Addr, _) => selected.insert n1Addr ()
          | none => selected
        else selected) selected →
      a ∈ selected ∨ ∃ e ∈ l, a ∈ e.2 := by
    intro l
    induction l with
    | nil => simp
    | cons n2rElem l ih =>
        intro selected ha
        rw [List.foldl_cons] at ha
        rcases ih _ ha with ha | ⟨e, he, hae⟩
        · split_ifs at ha
          · cases hfirst : n2rElem.2.first with
            | none =>
                rw [hfirst] at ha
                left
                apply ha
            | some n1 =>
                rw [hfirst] at ha
                rcases OrdMap.mem_insert.mp ha with rfl | ha
                · right
                  use n2rElem, List.mem_cons_self
                  apply OrdMap.mem_of_search (OrdMap.search_first hfirst)
                · left
                  apply ha
          · left
            apply ha
        · right
          exact ⟨e, List.mem_cons_of_mem _ he, hae⟩
  rcases hsteps n2Set.entries .empty h with h | ⟨⟨x, t⟩, he, ha⟩
  · apply absurd h (OrdMap.not_mem_empty a)
  · exact ⟨x, t, OrdMap.search_eq_some.mpr he, ha⟩

/-! ### The greedy choice -/

/-- A neighbour reaches something exactly when its reachability is not zero. -/
theorem calcReachability_pos {neigh : NeighborElem} {n2Set : OrdMap InAddr (OrdMap InAddr Unit)} :
  0 < calcReachability neigh n2Set ↔ ∃ x ∈ neigh.neighbor2Tree, x ∈ n2Set
  := by
  rw [calcReachability, List.countP_pos_iff]
  simp

namespace OlsrContext

/-- The loop finds a neighbour that reaches something of the two-hop set, if there is one. -/
theorem getMaxReachabilityNeigh_spec (ctx : OlsrContext) (n1Set : OrdMap InAddr Unit)
    (h : ∀ a ∈ n1Set, a ∈ ctx.neighborTree) (n2Set : OrdMap InAddr (OrdMap InAddr Unit)) :
  ∃ best, ctx.getMaxReachabilityNeigh n1Set n2Set = some best ∧
    (∀ a, best.2 = some a → a ∈ n1Set ∧
      ∃ n, ctx.neighborTree.search a = some n ∧ 0 < calcReachability n n2Set) ∧
    (best.2 = none → ∀ a ∈ n1Set, ∀ n, ctx.neighborTree.search a = some n →
      ¬ 0 < calcReachability n n2Set)
  := by
  -- The best of the neighbours gone through reaches something, or none of them does.
  have hsteps : ∀ (l : List InAddr), (∀ a ∈ l, a ∈ n1Set) → ∀ (best : ℕ × Option InAddr),
      (best.2 = none → best.1 = 0) →
      (∀ a, best.2 = some a → a ∈ n1Set ∧
        ∃ n, ctx.neighborTree.search a = some n ∧ 0 < calcReachability n n2Set) →
      ∃ best', l.foldlM (fun best addr => do
          let nelem ← ctx.neighborTree.search addr
          let reachability := calcReachability nelem n2Set
          return if reachability > best.1 then (reachability, some addr) else best) best
          = some best' ∧
        (∀ a, best'.2 = some a → a ∈ n1Set ∧
          ∃ n, ctx.neighborTree.search a = some n ∧ 0 < calcReachability n n2Set) ∧
        (best'.2 = none → best.2 = none ∧ ∀ a ∈ l, ∀ n, ctx.neighborTree.search a = some n →
          ¬ 0 < calcReachability n n2Set) := by
    intro l
    induction l with
    | nil =>
        intro _ best _ hbest
        use best, rfl, hbest
        intro hnone
        use hnone
        simp
    | cons b l ih =>
        intro hl best hzero hbest
        have hb := hl b List.mem_cons_self
        obtain ⟨n, hn⟩ := OrdMap.mem_iff.mp (h b hb)
        have hl' : ∀ a ∈ l, a ∈ n1Set := fun a ha => hl a (List.mem_cons_of_mem _ ha)
        simp only [List.foldlM_cons, hn, Option.bind_eq_bind, Option.bind_some, Option.pure_def]
        split_ifs with hgt
        · obtain ⟨best', hrun, hsome, hnone⟩ := ih hl' (calcReachability n n2Set, some b)
            (fun hb => by contradiction) (by
              rintro a ⟨rfl⟩
              exact ⟨hb, n, hn, Nat.zero_lt_of_lt hgt⟩)
          use best', hrun, hsome
          intro hbest'
          obtain ⟨hcontra, -⟩ := hnone hbest'
          contradiction
        · obtain ⟨best', hrun, hsome, hnone⟩ := ih hl' best hzero hbest
          use best', hrun, hsome
          intro hbest'
          obtain ⟨hbestnone, hrest⟩ := hnone hbest'
          use hbestnone
          intro a ha n' hn'
          rcases List.mem_cons.mp ha with rfl | ha
          · rw [hn, Option.some.injEq] at hn'
            rw [← hn', ← hzero hbestnone]
            apply hgt
          · apply hrest a ha n' hn'
  obtain ⟨best, hrun, hsome, hnone⟩ := hsteps n1Set.keys (fun a ha => ha) (0, none)
    (fun _ => rfl) (fun a ha => by contradiction)
  use best, hrun, hsome
  intro hbest
  apply (hnone hbest).2

/-- What holds between the choices of relays of `populate_mpr_set` called in `start`: the
relays chosen have status `MPR_NEIGH`, the one-hop set holds the symmetric neighbours not
chosen, and the two-hop set the strict two-hop neighbours no relay reaches. -/
structure MprInv (start ctx : OlsrContext) (n1Set : OrdMap InAddr Unit)
    (n2Set : OrdMap InAddr (OrdMap InAddr Unit)) : Prop where
  core : ctx.core =
    { start.core with neighborTree := ctx.neighborTree, mprTree := ctx.mprTree }
  neighbor : ∀ a, ctx.neighborTree.search a = (start.neighborTree.search a).map
    (fun n => if a ∈ ctx.mprTree then withStatus .mprNeigh n else n)
  n1 : ∀ a, a ∈ n1Set ↔ IsSymNeigh start.neighborTree a ∧ a ∉ ctx.mprTree
  relay : ∀ a ∈ ctx.mprTree, IsSymNeigh start.neighborTree a
  n2 : ∀ x, x ∈ n2Set ↔ IsN2 start.ownIp start.neighborTree x ∧
    ∀ m ∈ ctx.mprTree, ¬ Bridges start.neighborTree m x
  fresh : start.RoutingFresh → ctx.RoutingFresh

/-- Every neighbour of the one-hop set is in the neighbour tree. -/
theorem MprInv.mem_neighborTree {start ctx : OlsrContext} {n1Set : OrdMap InAddr Unit}
    {n2Set : OrdMap InAddr (OrdMap InAddr Unit)} (h : MprInv start ctx n1Set n2Set) {a : InAddr}
    (ha : a ∈ n1Set) :
  ∃ n, ctx.neighborTree.search a = some n ∧ start.neighborTree.search a = some n ∧
    n.status.isSym = true
  := by
  obtain ⟨⟨n, hn, hsym⟩, hmpr⟩ := (h.n1 a).mp ha
  use n
  refine ⟨?_, hn, hsym⟩
  rw [h.neighbor, hn, Option.map_some, if_neg hmpr]

/-- Choosing a neighbour of the one-hop set as a relay keeps the invariant. -/
theorem MprInv.choose {start ctx : OlsrContext} {n1Set : OrdMap InAddr Unit}
    {n2Set : OrdMap InAddr (OrdMap InAddr Unit)} (h : MprInv start ctx n1Set n2Set)
    (ctx' : OlsrContext) {addr : InAddr} (haddr : addr ∈ n1Set) {n : NeighborElem}
    (hn : start.neighborTree.search addr = some n)
    (hcore : ctx'.core = { ctx.core with
      neighborTree := ctx.neighborTree.modify addr (withStatus .mprNeigh)
      mprTree := ctx.mprTree.insert addr () })
    (hfresh : ctx.RoutingFresh → ctx'.RoutingFresh) :
  MprInv start ctx' (n1Set.erase addr) (removeBridged n2Set n.neighbor2Tree)
  := by
  have hneighbor : ctx'.neighborTree = ctx.neighborTree.modify addr (withStatus .mprNeigh) :=
    congrArg OlsrContext.neighborTree hcore
  have hmpr : ctx'.mprTree = ctx.mprTree.insert addr () := congrArg OlsrContext.mprTree hcore
  obtain ⟨hsym, hnew⟩ := (h.n1 addr).mp haddr
  have hbridges : ∀ x, Bridges start.neighborTree addr x ↔ x ∈ n.neighbor2Tree := by
    intro x
    obtain ⟨n', hn', hsym'⟩ := hsym
    rw [hn, Option.some.injEq] at hn'
    subst hn'
    simp [Bridges, hn, hsym']
  constructor
  · rw [hcore, h.core, hneighbor, hmpr]
  · intro a
    rw [hneighbor, hmpr, OrdMap.search_modify]
    by_cases ha : a = addr
    · subst ha
      rw [if_pos rfl, h.neighbor, hn]
      simp [hnew]
    · rw [if_neg ha, h.neighbor]
      simp [ha]
  · intro a
    rw [hmpr, OrdMap.mem_erase, h.n1, OrdMap.mem_insert]
    tauto
  · intro a ha
    rw [hmpr, OrdMap.mem_insert] at ha
    rcases ha with rfl | ha
    · apply hsym
    · apply h.relay a ha
  · intro x
    rw [hmpr, mem_removeBridged, h.n2, and_assoc, ← hbridges]
    apply and_congr_right
    intro _
    constructor
    · rintro ⟨hrest, hx⟩ m hm
      rcases OrdMap.mem_insert.mp hm with rfl | hm
      · apply hx
      · apply hrest m hm
    · intro hrest
      constructor
      · intro m hm
        apply hrest m (OrdMap.mem_insert.mpr (Or.inr hm))
      · apply hrest addr (OrdMap.mem_insert.mpr (Or.inl rfl))
  · intro hstart
    apply hfresh (h.fresh hstart)

theorem MprInv.topologyTree {start ctx : OlsrContext} {n1Set : OrdMap InAddr Unit}
    {n2Set : OrdMap InAddr (OrdMap InAddr Unit)} (h : MprInv start ctx n1Set n2Set) :
  ctx.topologyTree = start.topologyTree
  := by
  have htopology := congrArg OlsrContext.topologyTree h.core
  apply htopology

/-- The sets computed at the start of `populate_mpr_set` satisfy the invariant. -/
theorem MprInv.init (start : OlsrContext) :
  MprInv start { start with mprTree := .empty } (calcN1Set start.neighborTree)
    (calcN2Set start.ownIp start.neighborTree (calcN1Set start.neighborTree))
  := by
  constructor
  · rfl
  · intro a
    simp
  · intro a
    rw [mem_calcN1Set]
    simp
  · intro a ha
    apply absurd ha (OrdMap.not_mem_empty a)
  · intro x
    rw [mem_calcN2Set]
    simp
  · intro hstart
    apply hstart

/-- The first choice keeps the invariant. -/
theorem MprInv.addUniqueBridgeToMpr {start ctx : OlsrContext}
    (hdup : NotDuplicated start.topologyTree)
    (h : MprInv start ctx (calcN1Set start.neighborTree)
      (calcN2Set start.ownIp start.neighborTree (calcN1Set start.neighborTree))) :
  ∃ st, ctx.addUniqueBridgeToMpr (calcN1Set start.neighborTree)
      (calcN2Set start.ownIp start.neighborTree (calcN1Set start.neighborTree)) = some st ∧
    MprInv start st.1 st.2.1 st.2.2
  := by
  rw [OlsrContext.addUniqueBridgeToMpr]
  cases hfirst : (selectedMprTree
      (calcN2Set start.ownIp start.neighborTree (calcN1Set start.neighborTree))).first with
  | none => exact ⟨_, rfl, h⟩
  | some mpr =>
      obtain ⟨mprAddr, u⟩ := mpr
      obtain ⟨x, hx⟩ := selectedMprTree_entered
        (OrdMap.mem_of_search (OrdMap.search_first hfirst))
      obtain ⟨-, -, n', hn', hsym', -⟩ := ((calcN2Set_spec _ _ _).2 x mprAddr).mp hx
      have haddr : mprAddr ∈ calcN1Set start.neighborTree :=
        mem_calcN1Set.mpr ⟨n', hn', hsym'⟩
      obtain ⟨n, hnctx, hn, -⟩ := h.mem_neighborTree haddr
      obtain ⟨ctx', hctx', hcore, hfresh⟩ := setNeighborStatus_spec
        { ctx with mprTree := ctx.mprTree.insert mprAddr () }
        (by rw [h.topologyTree]; apply hdup) mprAddr (OrdMap.mem_of_search hnctx) .mprNeigh
      use (ctx', (calcN1Set start.neighborTree).erase mprAddr,
        removeBridged (calcN2Set start.ownIp start.neighborTree (calcN1Set start.neighborTree))
          n.neighbor2Tree)
      constructor
      · simp only [hnctx, hctx', Option.bind_eq_bind, Option.bind_some, Option.pure_def]
      · apply h.choose ctx' haddr hn hcore hfresh

/-- The greedy loop keeps the invariant and empties the two-hop set. -/
theorem MprInv.populateMprSetByReachability {start : OlsrContext}
    (hdup : NotDuplicated start.topologyTree) {fuel : ℕ} {ctx : OlsrContext}
    {n1Set : OrdMap InAddr Unit} {n2Set : OrdMap InAddr (OrdMap InAddr Unit)}
    (h : MprInv start ctx n1Set n2Set) (hfuel : n2Set.count ≤ fuel) :
  ∃ st, OlsrContext.populateMprSetByReachability fuel ctx n1Set n2Set = some st ∧
    MprInv start st.1 st.2.1 st.2.2 ∧ st.2.2.count = 0
  := by
  induction fuel generalizing ctx n1Set n2Set with
  | zero =>
      use (ctx, n1Set, n2Set), rfl, h
      apply Nat.le_zero.mp hfuel
  | succ fuel ih =>
      rw [OlsrContext.populateMprSetByReachability]
      by_cases hcount : n2Set.count = 0
      · rw [if_pos hcount]
        exact ⟨_, rfl, h, hcount⟩
      · rw [if_neg hcount]
        obtain ⟨best, hbest, hsome, hnone⟩ := getMaxReachabilityNeigh_spec ctx n1Set
          (fun a ha => OrdMap.mem_of_search (h.mem_neighborTree ha).choose_spec.1) n2Set
        rw [hbest, Option.bind_eq_bind, Option.bind_some]
        cases haddr : best.2 with
        | none =>
            -- A two-hop neighbour left over is reached by a neighbour not yet chosen.
            apply absurd _ hcount
            apply OrdMap.count_eq_zero.mpr
            intro x hx
            obtain ⟨⟨-, -, b, hb⟩, hunreached⟩ := (h.n2 x).mp hx
            obtain ⟨n', hn', hsym, hxn⟩ := id hb
            have hb1 : b ∈ n1Set := by
              apply (h.n1 b).mpr
              exact ⟨⟨n', hn', hsym⟩, fun hmpr => hunreached b hmpr hb⟩
            obtain ⟨n, hnctx, hn, -⟩ := h.mem_neighborTree hb1
            rw [hn', Option.some.injEq] at hn
            subst hn
            apply hnone haddr b hb1 n' hnctx
            apply calcReachability_pos.mpr ⟨x, hxn, hx⟩
        | some addr =>
            obtain ⟨hn1, n', hn', hpos⟩ := hsome addr haddr
            obtain ⟨n, hnctx, hn, -⟩ := h.mem_neighborTree hn1
            rw [hn', Option.some.injEq] at hnctx
            subst hnctx
            obtain ⟨x, hxn, hx⟩ := calcReachability_pos.mp hpos
            obtain ⟨ctx', hctx', hcore, hfresh⟩ := setNeighborStatus_spec ctx
              (by rw [h.topologyTree]; apply hdup) addr (OrdMap.mem_of_search hn') .mprNeigh
            have hmpr : ctx'.mprTree = ctx.mprTree := by
              have hmpr := congrArg OlsrContext.mprTree hcore
              apply hmpr
            have hsearch : ctx'.neighborTree.search addr = some (withStatus .mprNeigh n') := by
              have hneighbor := congrArg OlsrContext.neighborTree hcore
              apply Eq.trans (congrArg (fun t => OrdMap.search t addr) hneighbor)
              rw [OrdMap.search_modify, if_pos rfl, hn', Option.map_some]
            have hchosen := h.choose { ctx' with mprTree := ctx'.mprTree.insert addr () } hn1 hn
              (by
                have hinsert := congrArg (fun c : OlsrContext =>
                  { c with mprTree := ctx'.mprTree.insert addr () }) hcore
                rw [← hmpr]
                apply hinsert)
              hfresh
            have hless : (removeBridged n2Set n'.neighbor2Tree).count < n2Set.count := by
              apply OrdMap.count_lt (k := x) _ hx
              · rw [mem_removeBridged]
                rintro ⟨-, hxn'⟩
                apply hxn' hxn
              · intro y hy
                apply (mem_removeBridged.mp hy).1
            obtain ⟨st, hst, hinv, hzero⟩ := ih hchosen (by omega)
            use st
            refine ⟨?_, hinv, hzero⟩
            simp only [hctx', hsearch, Option.bind_eq_bind, Option.bind_some]
            apply hst

/-- The last loop of `populate_mpr_set` sets the status of the neighbours it is given. -/
theorem foldlM_setNeighborStatus (ctx : OlsrContext) (hdup : NotDuplicated ctx.topologyTree)
    (status : NeighborStatus) {l : List InAddr} (hl : ∀ a ∈ l, a ∈ ctx.neighborTree) :
  ∃ ctx', l.foldlM (fun ctx addr => ctx.setNeighborStatus addr status) ctx = some ctx' ∧
    ctx'.core = { ctx.core with neighborTree := ctx'.neighborTree } ∧
    (∀ a, ctx'.neighborTree.search a = (ctx.neighborTree.search a).map
      (fun n => if a ∈ l then withStatus status n else n)) ∧
    (ctx.RoutingFresh → ctx'.RoutingFresh)
  := by
  induction l generalizing ctx with
  | nil =>
      use ctx, rfl, rfl
      simp
  | cons b l ih =>
      obtain ⟨ctx₁, hctx₁, hcore₁, hfresh₁⟩ := setNeighborStatus_spec ctx hdup b
        (hl b List.mem_cons_self) status
      have hneighbor₁ : ctx₁.neighborTree = ctx.neighborTree.modify b (withStatus status) :=
        congrArg OlsrContext.neighborTree hcore₁
      have htopology₁ : ctx₁.topologyTree = ctx.topologyTree := by
        have htopology := congrArg OlsrContext.topologyTree hcore₁
        apply htopology
      obtain ⟨ctx', hctx', hcore, hneighbor, hfresh⟩ := ih ctx₁
        (by rw [htopology₁]; apply hdup) (by
          intro a ha
          rw [hneighbor₁, OrdMap.mem_modify]
          apply hl a (List.mem_cons_of_mem _ ha))
      use ctx'
      and_intros
      · rw [List.foldlM_cons, hctx₁, Option.bind_eq_bind, Option.bind_some, hctx']
      · rw [hcore, hcore₁]
      · intro a
        rw [hneighbor, hneighbor₁, OrdMap.search_modify]
        by_cases hab : a = b
        · subst hab
          cases ctx.neighborTree.search a with
          | none => simp
          | some n => simp [withStatus]
        · simp [hab]
      · intro hctx
        apply hfresh (hfresh₁ hctx)

/-- What `populate_mpr_set` does to the context `ctx`. -/
structure MprSelected (ctx ctx' : OlsrContext) : Prop where
  core : ctx'.core = { ctx.core with
    neighborTree := ctx'.neighborTree, mprTree := ctx'.mprTree, ansn := ctx'.ansn }
  ansn : ctx'.ansn =
    if checkMprSetChange ctx.mprTree ctx'.mprTree then ctx.ansn + 1 else ctx.ansn
  neighbor : ∀ a, ctx'.neighborTree.search a = (ctx.neighborTree.search a).map
    (fun n => if n.status.isSym then
      withStatus (if a ∈ ctx'.mprTree then .mprNeigh else .symNeigh) n else n)
  relay : ∀ a ∈ ctx'.mprTree, IsSymNeigh ctx.neighborTree a
  cover : ∀ x, IsN2 ctx.ownIp ctx.neighborTree x →
    ∃ m ∈ ctx'.mprTree, Bridges ctx.neighborTree m x
  fresh : ctx.RoutingFresh → ctx'.RoutingFresh

/-- `populate_mpr_set` finds relays that reach all strict two-hop neighbours. -/
theorem populateMprSet_spec (ctx : OlsrContext) (hdup : NotDuplicated ctx.topologyTree) :
  ∃ ctx', ctx.populateMprSet = some ctx' ∧ MprSelected ctx ctx'
  := by
  obtain ⟨st, hst, hinv⟩ := (MprInv.init ctx).addUniqueBridgeToMpr hdup
  obtain ⟨st', hst', hinv', hzero⟩ := hinv.populateMprSetByReachability hdup le_rfl
  obtain ⟨ctx₂, n1Set, n2Set⟩ := st'
  let ctx₃ : OlsrContext :=
    if checkMprSetChange ctx.mprTree ctx₂.mprTree then { ctx₂ with ansn := ctx₂.ansn + 1 }
    else ctx₂
  have hansn₂ : ctx₂.ansn = ctx.ansn := by
    have hansn := congrArg OlsrContext.ansn hinv'.core
    apply hansn
  obtain ⟨ansn, hctx₃, hansn⟩ : ∃ ansn, ctx₃ = { ctx₂ with ansn := ansn } ∧ ansn =
      if checkMprSetChange ctx.mprTree ctx₂.mprTree then ctx.ansn + 1 else ctx.ansn := by
    rw [← hansn₂]
    by_cases hchange : checkMprSetChange ctx.mprTree ctx₂.mprTree = true
    · exact ⟨ctx₂.ansn + 1, by simp [ctx₃, hchange], by simp [hchange]⟩
    · exact ⟨ctx₂.ansn, by simp [ctx₃, hchange], by simp [hchange]⟩
  obtain ⟨ctx', hctx', hcore, hneighbor, hfresh⟩ := foldlM_setNeighborStatus ctx₃
    (by
      rw [hctx₃]
      apply Eq.mpr (congrArg NotDuplicated hinv'.topologyTree) hdup)
    .symNeigh (l := n1Set.keys) (by
      intro a ha
      rw [hctx₃]
      apply OrdMap.mem_of_search (hinv'.mem_neighborTree ha).choose_spec.1)
  rw [hctx₃] at hcore hneighbor hfresh
  have hmpr : ctx'.mprTree = ctx₂.mprTree := by
    have hmpr := congrArg OlsrContext.mprTree hcore
    apply hmpr
  have hansn' : ctx'.ansn = ansn := by
    have hansn := congrArg OlsrContext.ansn hcore
    apply hansn
  use ctx'
  constructor
  · simp only [populateMprSet, hst, hst', Option.bind_eq_bind, Option.bind_some]
    apply hctx'
  · constructor
    · have hset := congrArg (fun c : OlsrContext =>
        { c with ansn := ansn, neighborTree := ctx'.neighborTree }) hinv'.core
      rw [hcore, hmpr, hansn']
      apply hset
    · rw [hansn', hmpr, hansn]
    · intro a
      apply Eq.trans (hneighbor a)
      rw [hmpr]
      apply Eq.trans (congrArg _ (hinv'.neighbor a))
      cases hn : ctx.neighborTree.search a with
      | none => rfl
      | some n =>
          have hsym : IsSymNeigh ctx.neighborTree a ↔ n.status.isSym = true := by
            simp [IsSymNeigh, hn]
          have hn1 := hinv'.n1 a
          have hrelay := hinv'.relay a
          rw [hsym] at hn1 hrelay
          simp only [Option.map_some, OrdMap.mem_keys, Option.some.injEq]
          by_cases ha : a ∈ ctx₂.mprTree
          · simp [hn1, ha, hrelay ha]
          · by_cases hs : n.status.isSym = true
            · simp [hn1, ha, hs]
            · simp [hn1, ha, hs]
    · rw [hmpr]
      apply hinv'.relay
    · intro x hx
      rw [hmpr]
      by_contra hnone
      apply OrdMap.count_eq_zero.mp hzero x
      apply (hinv'.n2 x).mpr
      use hx
      intro m hm hbridge
      apply hnone ⟨m, hm, hbridge⟩
    · intro hctx
      apply hfresh (hinv'.fresh hctx)

end OlsrContext
