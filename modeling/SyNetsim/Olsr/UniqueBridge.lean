import SyNetsim.Olsr.MprSet

/-!
# Neighbours that alone reach a two-hop neighbour

The first choice of `populate_mpr_set` is to take all neighbours that are the only ones to reach
some two-hop neighbour. Its loop puts the node it is at into another tree and so loses its place
in the tree it goes through: it takes the first of these neighbours only. So the choice is as
intended exactly if there is no more than one (`addUniqueBridgeToMpr_iff`).
-/

/-- The neighbour `b` is the only one to reach some strict two-hop neighbour. -/
def IsUniqueBridge (ownIp : InAddr) (neighborTree : OrdMap InAddr NeighborElem) (b : InAddr) :
    Prop :=
  ∃ x, IsN2 ownIp neighborTree x ∧ Bridges neighborTree b x ∧
    ∀ c, Bridges neighborTree c x → c = b

/-! ### The loop in memory -/

/-- `rbnode_type`, without the colour. Nodes are numbered; the number `0` stands for
`rbtree_null_node`. -/
structure RbNode where
  parent : ℕ
  left : ℕ
  right : ℕ
  key : InAddr

/-- The memory that nodes are in. -/
abbrev RbMem : Type := ℕ → RbNode

/-- `rbtree_first` from a root, for at most `fuel` steps. -/
def rbtreeFirst (mem : RbMem) : ℕ → ℕ → ℕ
  | 0, node => node
  | fuel + 1, node => if (mem node).left ≠ 0 then rbtreeFirst mem fuel (mem node).left else node

/-- The loop of `rbtree_next` upwards. -/
def rbtreeUp (mem : RbMem) : ℕ → ℕ → ℕ → ℕ
  | 0, _, parent => parent
  | fuel + 1, node, parent =>
      if parent ≠ 0 ∧ node = (mem parent).right then rbtreeUp mem fuel parent (mem parent).parent
      else parent

/-- `rbtree_next`. -/
def rbtreeNext (mem : RbMem) (fuel node : ℕ) : ℕ :=
  if (mem node).right ≠ 0 then rbtreeFirst mem fuel (mem node).right
  else rbtreeUp mem fuel node (mem node).parent

/-- `rbtree_insert` into a tree without nodes. Neither the loop that looks for a parent is entered
nor that of `rbtree_insert_fixup`, as the node is the root. -/
def rbtreeInsertRoot (mem : RbMem) (data : ℕ) : RbMem :=
  Function.update mem data { mem data with parent := 0, left := 0, right := 0 }

/-- The nodes that `RBTREE_FOR` goes through from `node` when its body is `body`, which is given
the root of the tree that the nodes are inserted to. -/
def rbtreeFor (body : RbMem → ℕ → ℕ → RbMem × ℕ) : ℕ → RbMem → ℕ → ℕ → List ℕ
  | 0, _, _, _ => []
  | fuel + 1, mem, root, node =>
      if node = 0 then []
      else
        let (mem, root) := body mem root node
        node :: rbtreeFor body fuel mem root (rbtreeNext mem fuel node)

/-- The nodes of the tree with a given root, in order. -/
inductive InOrder (mem : RbMem) : ℕ → List ℕ → Prop
  | null : InOrder mem 0 []
  | node {node : ℕ} {l r : List ℕ} : node ≠ 0 → InOrder mem (mem node).left l →
      InOrder mem (mem node).right r → InOrder mem node (l ++ node :: r)

theorem InOrder.ne_zero {mem : RbMem} {root : ℕ} {nodes : List ℕ} (h : InOrder mem root nodes) :
  ∀ node ∈ nodes, node ≠ 0
  := by
  induction h with
  | null => simp
  | node hnode _ _ ihl ihr =>
      intro n hn
      rcases List.mem_append.mp hn with hn | hn
      · apply ihl n hn
      · rcases List.mem_cons.mp hn with rfl | hn
        · apply hnode
        · apply ihr n hn

/-- `rbtree_first` finds the first node. -/
theorem rbtreeFirst_eq_head {mem : RbMem} {root : ℕ} {nodes : List ℕ}
    (h : InOrder mem root nodes) (hroot : root ≠ 0) {fuel : ℕ} (hfuel : nodes.length ≤ fuel) :
  nodes.head? = some (rbtreeFirst mem fuel root)
  := by
  induction h generalizing fuel with
  | null => contradiction
  | @node node l r hnode hl hr ihl ihr =>
      rw [List.length_append, List.length_cons] at hfuel
      obtain ⟨fuel, rfl⟩ : ∃ fuel', fuel = fuel' + 1 := ⟨fuel - 1, by omega⟩
      rw [rbtreeFirst]
      by_cases hleft : (mem node).left = 0
      · rw [hleft] at hl
        rw [if_neg (by simpa using hleft)]
        cases hl with
        | null => rfl
        | node hne => contradiction
      · rw [if_pos hleft, List.head?_append, ihl hleft (show l.length ≤ fuel by omega)]
        rfl

/-- When the body inserts its node into a tree that is empty at first, and does nothing else to
the node, the loop ends after the first node: the node has lost its place. -/
theorem rbtreeFor_eq_take {mem : RbMem} {root : ℕ} {nodes : List ℕ}
    (h : InOrder mem root nodes) (hnull : (mem 0).left = 0)
    {body : RbMem → ℕ → ℕ → RbMem × ℕ}
    (hbody : ∀ mem node, (body mem 0 node).1 node = rbtreeInsertRoot mem node node) {fuel : ℕ}
    (hfuel : nodes.length < fuel) :
  rbtreeFor body fuel mem 0 (rbtreeFirst mem fuel root) = nodes.take 1
  := by
  by_cases hroot : root = 0
  · subst hroot
    have hfirst : rbtreeFirst mem fuel 0 = 0 := by
      cases fuel with
      | zero => rfl
      | succ fuel => rw [rbtreeFirst, if_neg (by simpa using hnull)]
    rw [hfirst]
    cases h with
    | null =>
        cases fuel with
        | zero => rfl
        | succ fuel => rfl
    | node hne => contradiction
  · have hhead := rbtreeFirst_eq_head h hroot hfuel.le
    generalize hnode : rbtreeFirst mem fuel root = node at hhead
    obtain ⟨rest, rfl⟩ := List.head?_eq_some_iff.mp hhead
    have hne : node ≠ 0 := h.ne_zero node List.mem_cons_self
    obtain ⟨fuel, rfl⟩ : ∃ fuel', fuel = fuel' + 1 + 1 := by
      rw [List.length_cons] at hfuel
      exact ⟨fuel - 2, by omega⟩
    -- the node has become the root of the other tree, without a parent or children
    have hlinks := hbody mem node
    rw [rbtreeInsertRoot, Function.update_self] at hlinks
    have hnext : rbtreeNext (body mem 0 node).1 (fuel + 1) node = 0 := by
      rw [rbtreeNext, hlinks, if_neg (by simp), rbtreeUp, if_neg (by simp)]
    rw [rbtreeFor, if_neg hne]
    simp only [hnext]
    rw [rbtreeFor, if_pos rfl]
    rfl

/-! ### The neighbours selected -/

/-- A map with one entry has one key. -/
theorem OrdMap.count_eq_one {α β : Type*} [LinearOrder α] {m : OrdMap α β} {k : α} (hk : k ∈ m) :
  m.count = 1 ↔ ∀ k' ∈ m, k' = k
  := by
  rw [OrdMap.count_eq_ncard]
  constructor
  · intro h k' hk'
    obtain ⟨a, ha⟩ := Set.ncard_eq_one.mp h
    have hset : ∀ b, b ∈ m → b = a := by
      intro b hb
      have hb' : b ∈ ({ b | b ∈ m } : Set α) := hb
      rw [ha] at hb'
      apply hb'
    rw [hset k' hk', hset k hk]
  · intro h
    apply Set.ncard_eq_one.mpr
    use k
    ext k'
    constructor
    · apply h k'
    · rintro rfl
      apply hk

/-- The only key of a map is the first. -/
theorem OrdMap.first_of_count {α β : Type*} [LinearOrder α] {m : OrdMap α β} (h : m.count = 1) :
  ∃ k v, m.first = some (k, v)
  := by
  obtain ⟨⟨k, v⟩, he⟩ := List.length_eq_one_iff.mp h
  exact ⟨k, v, by rw [OrdMap.first, he]; rfl⟩

/-- A round of the loop over the two-hop neighbours. -/
def selectOne (selected : OrdMap InAddr Unit) (n2rElem : InAddr × OrdMap InAddr Unit) :
    OrdMap InAddr Unit :=
  if n2rElem.2.count = 1 then
    match n2rElem.2.first with
    | some (n1Addr, _) => selected.insert n1Addr ()
    | none => selected
  else selected

theorem selectedMprTree_eq_foldl (n2Set : OrdMap InAddr (OrdMap InAddr Unit)) :
  selectedMprTree n2Set = n2Set.entries.foldl selectOne .empty
  := rfl

/-- The neighbours selected are those that are alone in reaching some two-hop neighbour. -/
theorem mem_selectedMprTree {n2Set : OrdMap InAddr (OrdMap InAddr Unit)} {a : InAddr} :
  a ∈ selectedMprTree n2Set ↔
    ∃ x n1Tree, n2Set.search x = some n1Tree ∧ a ∈ n1Tree ∧ ∀ c ∈ n1Tree, c = a
  := by
  have hsteps : ∀ (l : List (InAddr × OrdMap InAddr Unit)) (selected : OrdMap InAddr Unit),
      a ∈ l.foldl selectOne selected ↔ a ∈ selected ∨ ∃ e ∈ l, a ∈ e.2 ∧ ∀ c ∈ e.2, c = a := by
    intro l
    induction l with
    | nil => simp
    | cons e l ih =>
        intro selected
        rw [List.foldl_cons, ih, List.exists_mem_cons_iff]
        by_cases hcount : e.2.count = 1
        · obtain ⟨k, v, hfirst⟩ := OrdMap.first_of_count hcount
          have hk := OrdMap.mem_of_search (OrdMap.search_first hfirst)
          have honly := (OrdMap.count_eq_one hk).mp hcount
          have hhead : a ∈ e.2 ∧ (∀ c ∈ e.2, c = a) ↔ a = k := by
            constructor
            · rintro ⟨ha, -⟩
              apply honly a ha
            · rintro rfl
              exact ⟨hk, honly⟩
          simp only [selectOne, hcount, if_true, hfirst, OrdMap.mem_insert, hhead]
          tauto
        · have hhead : ¬ (a ∈ e.2 ∧ ∀ c ∈ e.2, c = a) := by
            rintro ⟨ha, honly⟩
            apply hcount ((OrdMap.count_eq_one ha).mpr honly)
          simp only [selectOne, if_neg hcount, hhead, false_or]
  rw [selectedMprTree_eq_foldl]
  apply (hsteps n2Set.entries .empty).trans
  constructor
  · rintro (ha | ⟨⟨x, t⟩, he, ha, honly⟩)
    · apply absurd ha (OrdMap.not_mem_empty a)
    · exact ⟨x, t, OrdMap.search_eq_some.mpr he, ha, honly⟩
  · rintro ⟨x, t, hsearch, ha, honly⟩
    right
    exact ⟨(x, t), OrdMap.search_eq_some.mp hsearch, ha, honly⟩

/-- In the two-hop set of a node, the neighbours selected are the unique bridges. -/
theorem mem_selectedMprTree_calcN2Set {ownIp : InAddr}
    {neighborTree : OrdMap InAddr NeighborElem} {a : InAddr} :
  a ∈ selectedMprTree (calcN2Set ownIp neighborTree (calcN1Set neighborTree)) ↔
    IsUniqueBridge ownIp neighborTree a
  := by
  obtain ⟨-, hentered⟩ := calcN2Set_spec ownIp neighborTree (calcN1Set neighborTree)
  simp only [mem_calcN1Set] at hentered
  rw [mem_selectedMprTree]
  constructor
  · rintro ⟨x, t, hsearch, ha, honly⟩
    obtain ⟨hown, hsym, hbridge⟩ := (hentered x a).mp ⟨t, hsearch, ha⟩
    refine ⟨x, ⟨hown, hsym, a, hbridge⟩, hbridge, ?_⟩
    intro c hc
    obtain ⟨t', hsearch', hmem⟩ := (hentered x c).mpr ⟨hown, hsym, hc⟩
    obtain rfl := Option.some.inj (hsearch.symm.trans hsearch')
    apply honly c hmem
  · rintro ⟨x, ⟨hown, hsym, -⟩, hbridge, honly⟩
    obtain ⟨t, hsearch, ha⟩ := (hentered x a).mpr ⟨hown, hsym, hbridge⟩
    refine ⟨x, t, hsearch, ha, ?_⟩
    intro c hc
    apply honly
    apply ((hentered x c).mp ⟨t, hsearch, hc⟩).2.2

/-- In memory, the loop over the neighbours selected goes through the one that
`addUniqueBridgeToMpr` takes. -/
theorem rbtreeFor_selectedMprTree {n2Set : OrdMap InAddr (OrdMap InAddr Unit)} {mem : RbMem}
    {root : ℕ} {nodes : List ℕ} (h : InOrder mem root nodes) (hnull : (mem 0).left = 0)
    (hkeys : nodes.map (fun node => (mem node).key) = (selectedMprTree n2Set).keys)
    {body : RbMem → ℕ → ℕ → RbMem × ℕ}
    (hbody : ∀ mem node, (body mem 0 node).1 node = rbtreeInsertRoot mem node node) {fuel : ℕ}
    (hfuel : nodes.length < fuel) :
  (rbtreeFor body fuel mem 0 (rbtreeFirst mem fuel root)).map (fun node => (mem node).key) =
    ((selectedMprTree n2Set).first.map Prod.fst).toList
  := by
  rw [rbtreeFor_eq_take h hnull hbody hfuel, List.map_take, hkeys, OrdMap.keys, OrdMap.first]
  cases (selectedMprTree n2Set).entries with
  | nil => rfl
  | cons e l => rfl

namespace OlsrContext

/-! ### The first choice -/

/-- Setting a status changes no relay. -/
theorem setNeighborStatus_mprTree {ctx ctx' : OlsrContext} {addr : InAddr}
    {status : NeighborStatus} (h : ctx.setNeighborStatus addr status = some ctx') :
  ctx'.mprTree = ctx.mprTree
  := by
  simp only [setNeighborStatus, Option.bind_eq_bind, Option.bind_eq_some_iff] at h
  obtain ⟨neighbor, -, h⟩ := h
  split_ifs at h
  · obtain rfl := Option.some.inj h
    have hsel := calcRoutingTable_selection { ctx with
      neighborTree := ctx.neighborTree.modify addr (fun n => { n with status := status }) }
    apply mprTree_of_selection hsel
  · obtain rfl := Option.some.inj h
    rfl

/-- The first choice takes the first of the neighbours selected. -/
theorem addUniqueBridgeToMpr_mprTree {ctx : OlsrContext} {n1Set : OrdMap InAddr Unit}
    {n2Set : OrdMap InAddr (OrdMap InAddr Unit)}
    {st : OlsrContext × OrdMap InAddr Unit × OrdMap InAddr (OrdMap InAddr Unit)}
    (h : ctx.addUniqueBridgeToMpr n1Set n2Set = some st) :
  st.1.mprTree = match (selectedMprTree n2Set).first with
    | none => ctx.mprTree
    | some (mprAddr, _) => ctx.mprTree.insert mprAddr ()
  := by
  rw [addUniqueBridgeToMpr] at h
  cases hfirst : (selectedMprTree n2Set).first with
  | none =>
      simp only [hfirst, Option.some.injEq] at h
      rw [← h]
  | some mpr =>
      simp only [hfirst, Option.bind_eq_bind, Option.bind_eq_some_iff, Option.pure_def,
        Option.some.injEq] at h
      obtain ⟨mprNeigh, -, ctx₁, hstatus, rfl⟩ := h
      apply setNeighborStatus_mprTree hstatus

/-- The last loop changes no relay. -/
theorem cleanN1Set_mprTree {ctx ctx' : OlsrContext} {n1Set : OrdMap InAddr Unit}
    (h : ctx.cleanN1Set n1Set = some ctx') :
  ctx'.mprTree = ctx.mprTree
  := by
  rw [cleanN1Set] at h
  generalize n1Set.keys = l at h
  induction l generalizing ctx with
  | nil =>
      obtain rfl := Option.some.inj h
      rfl
  | cons addr l ih =>
      rw [List.foldlM_cons] at h
      obtain ⟨ctx₁, hstatus, hrest⟩ := Option.bind_eq_some_iff.mp h
      rw [ih hrest, setNeighborStatus_mprTree hstatus]

/-- What `add_unique_bridge_to_mpr` is to do, called by `populate_mpr_set`: the relays are the
unique bridges, what is left is what they do not reach, and if they reach everything they are the
relays in the end. -/
structure UniqueBridgesFirst (ctx : OlsrContext)
    (st : OlsrContext × OrdMap InAddr Unit × OrdMap InAddr (OrdMap InAddr Unit)) : Prop where
  relay : ∀ a, a ∈ st.1.mprTree ↔ IsUniqueBridge ctx.ownIp ctx.neighborTree a
  left : ∀ x, x ∈ st.2.2 ↔ IsN2 ctx.ownIp ctx.neighborTree x ∧
    ∀ u, IsUniqueBridge ctx.ownIp ctx.neighborTree u → ¬ Bridges ctx.neighborTree u x
  final : (∀ x, IsN2 ctx.ownIp ctx.neighborTree x →
      ∃ u, IsUniqueBridge ctx.ownIp ctx.neighborTree u ∧ Bridges ctx.neighborTree u x) →
    ∃ ctx', ctx.populateMprSet = some ctx' ∧
      ∀ a, a ∈ ctx'.mprTree ↔ IsUniqueBridge ctx.ownIp ctx.neighborTree a

/-- The first choice of `populate_mpr_set`, with what it has found before. -/
def firstChoice (ctx : OlsrContext) :
    Option (OlsrContext × OrdMap InAddr Unit × OrdMap InAddr (OrdMap InAddr Unit)) :=
  let n1Set := calcN1Set ctx.neighborTree
  { ctx with mprTree := .empty }.addUniqueBridgeToMpr n1Set
    (calcN2Set ctx.ownIp ctx.neighborTree n1Set)

/-- The relay after the first choice is the first unique bridge, if there is one, and what is left
is what it does not reach. -/
theorem firstChoice_spec (ctx : OlsrContext) :
  ∃ st, ctx.firstChoice = some st ∧
    (∀ a, a ∈ st.1.mprTree ↔ ∃ v, (selectedMprTree (calcN2Set ctx.ownIp ctx.neighborTree
      (calcN1Set ctx.neighborTree))).first = some (a, v)) ∧
    ∀ x, x ∈ st.2.2 ↔ IsN2 ctx.ownIp ctx.neighborTree x ∧
      ∀ m ∈ st.1.mprTree, ¬ Bridges ctx.neighborTree m x
  := by
  have hdup : NotDuplicated ctx.selection.topologyTree := by
    intro d telem htelem
    contradiction
  obtain ⟨st₀, hst₀, hinv⟩ := (MprInv.init ctx.selection).addUniqueBridgeToMpr hdup
  have hsel : ({ ctx with mprTree := .empty } : OlsrContext).selection =
    ({ ctx.selection with mprTree := .empty } : OlsrContext).selection := rfl
  obtain ⟨ctx₁, hctx₁, hsel₁⟩ := addUniqueBridgeToMpr_selection hsel hst₀
  have hmprs := addUniqueBridgeToMpr_mprTree hctx₁
  refine ⟨(ctx₁, st₀.2), hctx₁, ?_, ?_⟩
  · intro a
    have hmem : a ∈ ctx₁.mprTree ↔ a ∈ (match (selectedMprTree (calcN2Set ctx.ownIp
        ctx.neighborTree (calcN1Set ctx.neighborTree))).first with
      | none => (.empty : OrdMap InAddr Unit)
      | some (mprAddr, _) => OrdMap.empty.insert mprAddr ()) := by
      apply Iff.of_eq (congrArg (fun t => a ∈ t) hmprs)
    apply Iff.trans hmem
    cases (selectedMprTree (calcN2Set ctx.ownIp ctx.neighborTree
        (calcN1Set ctx.neighborTree))).first with
    | none => simp
    | some mpr =>
        rw [OrdMap.mem_insert]
        simp [Prod.ext_iff, eq_comm]
  · rw [mprTree_of_selection hsel₁]
    apply hinv.n2

/-- If there is a relay after the first choice, it is a unique bridge, and if there is a unique
bridge, there is a relay. -/
theorem firstChoice_mprTree {ctx : OlsrContext}
    {st : OlsrContext × OrdMap InAddr Unit × OrdMap InAddr (OrdMap InAddr Unit)}
    (h : ∀ a, a ∈ st.1.mprTree ↔ ∃ v, (selectedMprTree (calcN2Set ctx.ownIp ctx.neighborTree
      (calcN1Set ctx.neighborTree))).first = some (a, v)) :
  (∀ a ∈ st.1.mprTree, IsUniqueBridge ctx.ownIp ctx.neighborTree a) ∧
    (∀ a ∈ st.1.mprTree, ∀ b ∈ st.1.mprTree, a = b) ∧
    ∀ a, IsUniqueBridge ctx.ownIp ctx.neighborTree a → ∃ b, b ∈ st.1.mprTree
  := by
  and_intros
  · intro a ha
    obtain ⟨v, hfirst⟩ := (h a).mp ha
    apply mem_selectedMprTree_calcN2Set.mp
    apply OrdMap.mem_of_search (OrdMap.search_first hfirst)
  · intro a ha b hb
    obtain ⟨v, hfirst⟩ := (h a).mp ha
    obtain ⟨w, hfirst'⟩ := (h b).mp hb
    rw [hfirst] at hfirst'
    simpa using congrArg (Option.map Prod.fst) hfirst'
  · intro a ha
    have hmem := mem_selectedMprTree_calcN2Set.mpr ha
    cases hfirst : (selectedMprTree (calcN2Set ctx.ownIp ctx.neighborTree
        (calcN1Set ctx.neighborTree))).first with
    | none =>
        have hnil := List.head?_eq_none_iff.mp hfirst
        rw [← OrdMap.mem_keys, OrdMap.keys, hnil] at hmem
        contradiction
    | some mpr => exact ⟨mpr.1, (h mpr.1).mpr ⟨mpr.2, hfirst⟩⟩

/-- If the first choice leaves nothing, its relays are the relays in the end. -/
theorem populateMprSet_of_firstChoice {ctx : OlsrContext}
    {st : OlsrContext × OrdMap InAddr Unit × OrdMap InAddr (OrdMap InAddr Unit)}
    (h : ctx.firstChoice = some st) (hempty : st.2.2.count = 0) :
  ∃ ctx', ctx.populateMprSet = some ctx' ∧ ctx'.mprTree = st.1.mprTree
  := by
  obtain ⟨st₁, rounds, st₂, -, -, -, ctx', hctx', -⟩ := populateMprSet_exact ctx
  refine ⟨ctx', hctx', ?_⟩
  simp only [populateMprSet, Option.bind_eq_bind, Option.bind_eq_some_iff] at hctx'
  obtain ⟨st₃, hst₃, st₄, hst₄, hclean⟩ := hctx'
  obtain rfl : st = st₃ := Option.some.inj (h.symm.trans hst₃)
  rw [hempty] at hst₄
  obtain rfl := Option.some.inj hst₄
  rw [cleanN1Set_mprTree hclean]
  split_ifs
  · rfl
  · rfl

/-- In every neighbourhood, `add_unique_bridge_to_mpr` returns, and it does what it is to do
exactly if there is no more than one unique bridge. -/
theorem addUniqueBridgeToMpr_iff (ctx : OlsrContext) :
  ∃ st, ctx.firstChoice = some st ∧ (UniqueBridgesFirst ctx st ↔
    ∀ u v, IsUniqueBridge ctx.ownIp ctx.neighborTree u →
      IsUniqueBridge ctx.ownIp ctx.neighborTree v → u = v)
  := by
  obtain ⟨st, hst, hfirst, hleft⟩ := firstChoice_spec ctx
  obtain ⟨hunique, hone, hsome⟩ := firstChoice_mprTree hfirst
  refine ⟨st, hst, ?_⟩
  constructor
  · intro h u v hu hv
    apply hone u ((h.relay u).mpr hu) v ((h.relay v).mpr hv)
  · intro honly
    have hrelay : ∀ a, a ∈ st.1.mprTree ↔ IsUniqueBridge ctx.ownIp ctx.neighborTree a := by
      intro a
      constructor
      · apply hunique a
      · intro ha
        obtain ⟨b, hb⟩ := hsome a ha
        rw [honly a b ha (hunique b hb)]
        apply hb
    have hleft' : ∀ x, x ∈ st.2.2 ↔ IsN2 ctx.ownIp ctx.neighborTree x ∧
        ∀ u, IsUniqueBridge ctx.ownIp ctx.neighborTree u → ¬ Bridges ctx.neighborTree u x := by
      simpa only [hrelay] using hleft
    refine ⟨hrelay, hleft', ?_⟩
    intro hcover
    have hempty : st.2.2.count = 0 := by
      apply OrdMap.count_eq_zero.mpr
      intro x hx
      obtain ⟨hn2, hnone⟩ := (hleft' x).mp hx
      obtain ⟨u, hu, hbridge⟩ := hcover x hn2
      apply hnone u hu hbridge
    obtain ⟨ctx', hctx', hmprs⟩ := populateMprSet_of_firstChoice hst hempty
    refine ⟨ctx', hctx', ?_⟩
    rw [hmprs]
    apply hrelay

/-- Nodes 2 and 3 are symmetric neighbours, node 2 reaches node 4 and node 3 reaches node 5. -/
def twoBridges : OlsrContext :=
  { initOlsrContext (nodeIp 1) ⟨0, 0⟩ with
    neighborTree :=
      (OrdMap.empty.insert (nodeIp 2) ⟨.symNeigh, willDefault,
        OrdMap.empty.insert (nodeIp 4) ⟨0, nodeIp 2, 0⟩⟩).insert (nodeIp 3)
        ⟨.symNeigh, willDefault, OrdMap.empty.insert (nodeIp 5) ⟨1, nodeIp 3, 1⟩⟩ }

/-- The first choice leaves node 3 out, which is the only one to reach node 5. -/
theorem not_addUniqueBridgeToMpr :
  ¬ ∀ ctx : OlsrContext, ∃ st, ctx.firstChoice = some st ∧ UniqueBridgesFirst ctx st
  := by
  intro hall
  obtain ⟨st, hst, hchoice⟩ := hall twoBridges
  have hkeys : (twoBridges.firstChoice).map (fun st => decide (nodeIp 3 ∈ st.1.mprTree)) =
      some false := by
    decide +kernel
  rw [hst, Option.map_some, Option.some.injEq, decide_eq_false_iff_not] at hkeys
  apply hkeys
  apply (hchoice.relay (nodeIp 3)).mpr
  apply mem_selectedMprTree_calcN2Set.mp
  decide +kernel

end OlsrContext
