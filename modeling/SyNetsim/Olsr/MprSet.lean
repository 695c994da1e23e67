import SyNetsim.Olsr.Mpr

/-!
# What `populate_mpr_set` leaves

For every context, whatever its topology, `populate_mpr_set` chooses relays among the symmetric
neighbours that reach all strict two-hop neighbours, sets the status of the symmetric neighbours
to what they are, and counts `ansn` up if the relays are others than before
(`populateMprSet_exact`).

The choice does not depend on the topology: a change of status calculates the routing table anew,
which the choice does not look at. To state this, `selection` forgets the topology, the routing
table and the statistics.
-/

namespace OlsrContext

/-! ### The choice does not depend on the topology -/

/-- The context without what a change of status touches apart from the neighbours. -/
def selection (ctx : OlsrContext) : OlsrContext := { ctx.core with topologyTree := .empty }

/-- `calc_routing_table` changes nothing that the choice looks at. -/
theorem calcRoutingTable_selection (ctx : OlsrContext) :
  ctx.calcRoutingTable.selection = ctx.selection
  := by
  obtain ⟨info, tree, heq⟩ := updateRouteInfo_eq
    { ctx with
      topologyTree := unduplicateNeighInfo (duplicateNeighInfo ctx.ownIp ctx.topologyTree)
      routingTable := spfTable ctx.ownIp ctx.neighborTree ctx.topologyTree }
    ctx.routingTable (spfTable ctx.ownIp ctx.neighborTree ctx.topologyTree)
  apply Eq.trans (congrArg selection heq)
  rfl

variable {ctx ctx₀ ctx₀' : OlsrContext}

theorem neighborTree_of_selection (h : ctx.selection = ctx₀.selection) :
  ctx.neighborTree = ctx₀.neighborTree
  := by
  have hneighbors := congrArg OlsrContext.neighborTree h
  apply hneighbors

theorem mprTree_of_selection (h : ctx.selection = ctx₀.selection) :
  ctx.mprTree = ctx₀.mprTree
  := by
  have hmprs := congrArg OlsrContext.mprTree h
  apply hmprs

theorem ansn_of_selection (h : ctx.selection = ctx₀.selection) :
  ctx.ansn = ctx₀.ansn
  := by
  have hansn := congrArg OlsrContext.ansn h
  apply hansn

/-- Entering a relay in contexts that agree. -/
theorem insertMpr_selection (h : ctx.selection = ctx₀.selection) (addr : InAddr) :
  ({ ctx with mprTree := ctx.mprTree.insert addr () } : OlsrContext).selection =
    ({ ctx₀ with mprTree := ctx₀.mprTree.insert addr () } : OlsrContext).selection
  := by
  rw [mprTree_of_selection h]
  have hinsert := congrArg
    (fun c : OlsrContext => { c with mprTree := ctx₀.mprTree.insert addr () }) h
  apply hinsert

/-- Setting a status in contexts that agree. -/
theorem setNeighborStatus_selection (h : ctx.selection = ctx₀.selection) {addr : InAddr}
    {status : NeighborStatus} (hrun : ctx₀.setNeighborStatus addr status = some ctx₀') :
  ∃ ctx', ctx.setNeighborStatus addr status = some ctx' ∧ ctx'.selection = ctx₀'.selection
  := by
  simp only [setNeighborStatus, ← neighborTree_of_selection h, Option.bind_eq_bind,
    Option.bind_eq_some_iff] at hrun ⊢
  obtain ⟨neighbor, hneighbor, hrun⟩ := hrun
  by_cases hstatus : neighbor.status = status
  · simp only [hstatus, ne_eq, not_true_eq_false, if_false, Option.pure_def,
      Option.some.injEq] at hrun
    subst hrun
    refine ⟨ctx, ⟨neighbor, hneighbor, ?_⟩, h⟩
    simp [hstatus]
  · simp only [hstatus, ne_eq, not_false_eq_true, if_true, Option.pure_def,
      Option.some.injEq] at hrun
    subst hrun
    use { ctx with neighborTree :=
      ctx.neighborTree.modify addr (fun n => { n with status := status }) }.calcRoutingTable
    refine ⟨⟨neighbor, hneighbor, if_pos hstatus⟩, ?_⟩
    rw [calcRoutingTable_selection, calcRoutingTable_selection]
    have hmodify := congrArg (fun c : OlsrContext => { c with
      neighborTree := ctx.neighborTree.modify addr (fun n => { n with status := status }) }) h
    apply hmodify

/-- The first choice in contexts that agree. -/
theorem addUniqueBridgeToMpr_selection (h : ctx.selection = ctx₀.selection)
    {n1Set : OrdMap InAddr Unit} {n2Set : OrdMap InAddr (OrdMap InAddr Unit)}
    {st₀ : OlsrContext × OrdMap InAddr Unit × OrdMap InAddr (OrdMap InAddr Unit)}
    (hrun : ctx₀.addUniqueBridgeToMpr n1Set n2Set = some st₀) :
  ∃ ctx', ctx.addUniqueBridgeToMpr n1Set n2Set = some (ctx', st₀.2) ∧
    ctx'.selection = st₀.1.selection
  := by
  rw [addUniqueBridgeToMpr] at hrun ⊢
  cases hfirst : (selectedMprTree n2Set).first with
  | none =>
      simp only [hfirst, Option.some.injEq] at hrun
      subst hrun
      exact ⟨ctx, rfl, h⟩
  | some mpr =>
      simp only [hfirst, Option.bind_eq_bind, Option.bind_eq_some_iff, Option.pure_def,
        Option.some.injEq] at hrun
      obtain ⟨mprNeigh, hneigh, ctx₁, hstatus, rfl⟩ := hrun
      obtain ⟨ctx', hctx', hsel⟩ :=
        setNeighborStatus_selection (insertMpr_selection h mpr.1) hstatus
      rw [← neighborTree_of_selection h] at hneigh
      use ctx'
      refine ⟨?_, hsel⟩
      simp only [hneigh, hctx', Option.bind_eq_bind, Option.bind_some, Option.pure_def]

/-- The search for the best neighbour looks at the neighbours only. -/
theorem getMaxReachabilityNeigh_selection (h : ctx.selection = ctx₀.selection)
    (n1Set : OrdMap InAddr Unit) (n2Set : OrdMap InAddr (OrdMap InAddr Unit)) :
  ctx.getMaxReachabilityNeigh n1Set n2Set = ctx₀.getMaxReachabilityNeigh n1Set n2Set
  := by
  simp only [getMaxReachabilityNeigh, neighborTree_of_selection h]

/-- The greedy loop in contexts that agree. -/
theorem populateMprSetByReachability_selection (h : ctx.selection = ctx₀.selection) {fuel : ℕ}
    {n1Set : OrdMap InAddr Unit} {n2Set : OrdMap InAddr (OrdMap InAddr Unit)}
    {st₀ : OlsrContext × OrdMap InAddr Unit × OrdMap InAddr (OrdMap InAddr Unit)}
    (hrun : populateMprSetByReachability fuel ctx₀ n1Set n2Set = some st₀) :
  ∃ ctx', populateMprSetByReachability fuel ctx n1Set n2Set = some (ctx', st₀.2) ∧
    ctx'.selection = st₀.1.selection
  := by
  induction fuel generalizing ctx ctx₀ n1Set n2Set with
  | zero =>
      obtain rfl := Option.some.inj hrun
      exact ⟨ctx, rfl, h⟩
  | succ fuel ih =>
      rw [populateMprSetByReachability] at hrun ⊢
      by_cases hcount : n2Set.count = 0
      · rw [if_pos hcount] at hrun ⊢
        obtain rfl := Option.some.inj hrun
        exact ⟨ctx, rfl, h⟩
      · rw [if_neg hcount] at hrun ⊢
        rw [getMaxReachabilityNeigh_selection h]
        simp only [Option.bind_eq_bind, Option.bind_eq_some_iff] at hrun
        obtain ⟨best, hbest, hrun⟩ := hrun
        cases haddr : best.2 with
        | none =>
            simp only [haddr, Option.some.injEq] at hrun
            subst hrun
            refine ⟨ctx, ?_, h⟩
            simp only [hbest, Option.bind_eq_bind, Option.bind_some, haddr]
        | some addr =>
            simp only [haddr, Option.bind_eq_some_iff] at hrun
            obtain ⟨ctx₁, hstatus, mprNeigh, hneigh, hrun⟩ := hrun
            obtain ⟨ctx', hctx', hsel⟩ := setNeighborStatus_selection h hstatus
            obtain ⟨ctx'', hctx'', hsel'⟩ := ih (insertMpr_selection hsel addr) hrun
            rw [← neighborTree_of_selection hsel] at hneigh
            refine ⟨ctx'', ?_, hsel'⟩
            simp only [hbest, Option.bind_eq_bind, Option.bind_some, haddr, hctx', hneigh]
            apply hctx''

/-- Counting `ansn` up in contexts that agree. -/
theorem countAnsn_selection (h : ctx.selection = ctx₀.selection) (change : Bool) :
  (if change then { ctx with ansn := ctx.ansn + 1 } else ctx).selection =
    (if change then { ctx₀ with ansn := ctx₀.ansn + 1 } else ctx₀).selection
  := by
  cases change with
  | true =>
      have hcount := congrArg (fun c : OlsrContext => { c with ansn := ctx₀.ansn + 1 }) h
      simp only [if_true, ansn_of_selection h]
      apply hcount
  | false => apply h

/-- The last loop in contexts that agree. -/
theorem cleanN1Set_selection (h : ctx.selection = ctx₀.selection) {n1Set : OrdMap InAddr Unit}
    (hrun : ctx₀.cleanN1Set n1Set = some ctx₀') :
  ∃ ctx', ctx.cleanN1Set n1Set = some ctx' ∧ ctx'.selection = ctx₀'.selection
  := by
  rw [cleanN1Set] at hrun ⊢
  generalize n1Set.keys = l at hrun ⊢
  induction l generalizing ctx ctx₀ with
  | nil =>
      obtain rfl := Option.some.inj hrun
      exact ⟨ctx, rfl, h⟩
  | cons addr l ih =>
      rw [List.foldlM_cons] at hrun
      obtain ⟨ctx₁, hstatus, hrun⟩ := Option.bind_eq_some_iff.mp hrun
      obtain ⟨ctx', hctx', hsel⟩ := setNeighborStatus_selection h hstatus
      obtain ⟨ctx'', hctx'', hsel'⟩ := ih hsel hrun
      refine ⟨ctx'', ?_, hsel'⟩
      rw [List.foldlM_cons, hctx']
      apply hctx''

/-! ### The relays chosen -/

/-- The sequence number changes exactly if the relays do. -/
theorem checkMprSetChange_eq_false {oldSet newSet : OrdMap InAddr Unit} :
  checkMprSetChange oldSet newSet = false ↔ ∀ a, a ∈ oldSet ↔ a ∈ newSet
  := by
  rw [checkMprSetChange]
  constructor
  · intro h
    split_ifs at h with hcount
    simp only [List.any_eq_false, OrdMap.mem_keys, decide_eq_true_eq, not_not] at h
    intro a
    constructor
    · apply h a
    · intro hnew
      by_contra hold
      have hlt := OrdMap.count_lt h hnew hold
      omega
  · intro h
    have hsame : oldSet = newSet := by
      apply OrdMap.ext
      intro a
      have ha := h a
      rw [OrdMap.mem_iff, OrdMap.mem_iff] at ha
      cases hold : oldSet.search a with
      | none =>
          cases hnew : newSet.search a with
          | none => rfl
          | some u => simp [hold, hnew] at ha
      | some u =>
          cases hnew : newSet.search a with
          | none => simp [hold, hnew] at ha
          | some u' => rfl
    simp [hsame]

/-- What `populate_mpr_set` is to do: the relays are symmetric neighbours and reach all strict
two-hop neighbours; a symmetric neighbour has the status of a relay if it is one, and the status
of a symmetric neighbour otherwise; the other neighbours keep their status; and `ansn` is counted
up if the relays are others than before. -/
structure MprExact (ctx ctx' : OlsrContext) : Prop where
  relay : ∀ m ∈ ctx'.mprTree, IsSymNeigh ctx.neighborTree m
  cover : ∀ x, IsN2 ctx.ownIp ctx.neighborTree x →
    ∃ m ∈ ctx'.mprTree, Bridges ctx.neighborTree m x
  status : ∀ a n, ctx.neighborTree.search a = some n → ctx'.neighborTree.search a = some { n with
    status := if n.status = .symNeigh ∨ n.status = .mprNeigh then
      if a ∈ ctx'.mprTree then .mprNeigh else .symNeigh else n.status }
  unchanged : (∀ a, a ∈ ctx.mprTree ↔ a ∈ ctx'.mprTree) → ctx'.ansn = ctx.ansn
  changed : (¬ ∀ a, a ∈ ctx.mprTree ↔ a ∈ ctx'.mprTree) → ctx'.ansn = ctx.ansn + 1

/-- Only what the choice looks at matters. -/
theorem MprExact.congr {ctx' : OlsrContext} (h : MprExact ctx.selection ctx₀')
    (hsel : ctx'.selection = ctx₀'.selection) :
  MprExact ctx ctx'
  := by
  have hneighbors := neighborTree_of_selection hsel
  have hmprs := mprTree_of_selection hsel
  have hansn := ansn_of_selection hsel
  constructor
  · rw [hmprs]
    apply h.relay
  · rw [hmprs]
    apply h.cover
  · rw [hmprs, hneighbors]
    apply h.status
  · rw [hmprs, hansn]
    apply h.unchanged
  · rw [hmprs, hansn]
    apply h.changed

theorem MprSelected.exact (h : MprSelected ctx₀ ctx₀') :
  MprExact ctx₀ ctx₀'
  := by
  refine ⟨h.relay, h.cover, ?_, ?_, ?_⟩
  · intro a n hn
    rw [h.neighbor, hn, Option.map_some, Option.some.injEq]
    by_cases hsym : n.status.isSym = true
    · rw [if_pos hsym, if_pos (NeighborStatus.isSym_iff.mp hsym)]
      rfl
    · rw [if_neg hsym, if_neg (fun hstatus => hsym (NeighborStatus.isSym_iff.mpr hstatus))]
  · intro hsame
    rw [h.ansn, checkMprSetChange_eq_false.mpr hsame]
    rfl
  · intro hdiffers
    rw [h.ansn, if_pos]
    by_contra hcheck
    apply hdiffers (checkMprSetChange_eq_false.mp (Bool.eq_false_iff.mpr hcheck))

/-- For every context, `populate_mpr_set` chooses relays as it is to do: after the first choice,
the greedy loop runs until no two-hop neighbour is left. -/
theorem populateMprSet_exact (ctx : OlsrContext) :
  let n1Set := calcN1Set ctx.neighborTree
  let n2Set := calcN2Set ctx.ownIp ctx.neighborTree n1Set
  ∃ st rounds st',
    { ctx with mprTree := .empty }.addUniqueBridgeToMpr n1Set n2Set = some st ∧
    populateMprSetByReachability rounds st.1 st.2.1 st.2.2 = some st' ∧ st'.2.2.count = 0 ∧
    ∃ ctx', ctx.populateMprSet = some ctx' ∧ MprExact ctx ctx'
  := by
  intro n1Set n2Set
  -- The choice is the same as in a context without topology, where what it does is known.
  have hdup : NotDuplicated ctx.selection.topologyTree := by
    intro d telem htelem
    contradiction
  obtain ⟨st, hst, hinv⟩ := (MprInv.init ctx.selection).addUniqueBridgeToMpr hdup
  obtain ⟨st', hst', hinv', hzero⟩ := hinv.populateMprSetByReachability hdup le_rfl
  obtain ⟨ctx₀, hctx₀, hselected⟩ := populateMprSet_spec ctx.selection hdup
  have hsel : ({ ctx with mprTree := .empty } : OlsrContext).selection =
    ({ ctx.selection with mprTree := .empty } : OlsrContext).selection := rfl
  obtain ⟨ctx₁, hctx₁, hsel₁⟩ := addUniqueBridgeToMpr_selection hsel hst
  obtain ⟨ctx₂, hctx₂, hsel₂⟩ := populateMprSetByReachability_selection hsel₁ hst'
  simp only [populateMprSet, Option.bind_eq_bind, Option.bind_eq_some_iff] at hctx₀
  obtain ⟨st₁, hst₁, st₂, hst₂, hclean⟩ := hctx₀
  obtain rfl : st = st₁ := Option.some.inj (hst.symm.trans hst₁)
  obtain rfl : st' = st₂ := Option.some.inj (hst'.symm.trans hst₂)
  have hcount := countAnsn_selection hsel₂ (checkMprSetChange ctx.mprTree ctx₂.mprTree)
  obtain ⟨ctx', hctx', hsel'⟩ := cleanN1Set_selection hcount (by
    rw [mprTree_of_selection hsel₂]
    apply hclean)
  refine ⟨(ctx₁, st.2), st.2.2.count, (ctx₂, st'.2), hctx₁, hctx₂, hzero, ctx', ?_, ?_⟩
  · simp only [populateMprSet, Option.bind_eq_bind, Option.bind_eq_some_iff]
    exact ⟨_, hctx₁, _, hctx₂, hctx'⟩
  · apply hselected.exact.congr hsel'

end OlsrContext
