import SyNetsim.Olsr.Capacity

/-!
# Routes in the statistics

`update_route_info` keeps the routes of the routing table in the statistics, for the reports, and
marks those that have changed. It compares a new route with the old one element by element over the
new hop count, though the lists are circular: no route has its destination anywhere but at the end,
so the comparison ends in time.

In every run the statistics mirror the routing table after each calculation, and the marks are exact
(`OlsrContext.calcRoutingTable_mirrors`).
-/

namespace OlsrContext

/-! ### What is kept for an address -/

/-- The `RoutingInfo` of an address, if there are statistics of it. -/
def routingOf (ctx : OlsrContext) (a : InAddr) : Option RoutingInfo :=
  (ctx.nodeInfo.find? (fun info => info.addr = a)).map NeighborInfo.routing

/-- The `RoutingInfo` of new statistics. -/
def noRouting : RoutingInfo := ⟨0, [], false⟩

theorem StatsSound.routingOf_eq_some {ctx : OlsrContext} (h : ctx.StatsSound) {a : InAddr}
    {rinfo : RoutingInfo} :
  ctx.routingOf a = some rinfo ↔
    ∃ info ∈ ctx.nodeInfo, info.addr = a ∧ info.routing = rinfo
  := by
  constructor
  · intro hrouting
    obtain ⟨info, hfind, rfl⟩ := Option.map_eq_some_iff.mp hrouting
    have haddr := List.find?_some hfind
    exact ⟨info, List.mem_of_find?_eq_some hfind, of_decide_eq_true haddr, rfl⟩
  · rintro ⟨info, hinfo, haddr, rfl⟩
    cases hfind : ctx.nodeInfo.find? (fun info => info.addr = a) with
    | none =>
        have hnot := List.find?_eq_none.mp hfind info hinfo
        simp [haddr] at hnot
    | some info' =>
        have haddr' := List.find?_some hfind
        rw [decide_eq_true_eq] at haddr'
        have hsame : info' = info := List.inj_on_of_nodup_map h.nodup
          (List.mem_of_find?_eq_some hfind) hinfo (haddr'.trans haddr.symm)
        rw [routingOf, hfind, hsame]
        rfl

theorem routingOf_eq_none {ctx : OlsrContext} {a : InAddr} :
  ctx.routingOf a = none ↔ a ∉ ctx.statAddrs
  := by
  simp [routingOf, List.find?_eq_none, statAddrs]

/-- A write to the routing of one address leaves the others as they are. -/
theorem StatsSound.modify_routingOf {ctx : OlsrContext} (h : ctx.StatsSound) {i : ℕ}
    {info : NeighborInfo} (hi : ctx.nodeInfo[i]? = some info) {f : NeighborInfo → NeighborInfo}
    (hf : ∀ info, (f info).addr = info.addr) (a : InAddr) :
  OlsrContext.routingOf { ctx with nodeInfo := ctx.nodeInfo.modify i f } a =
    if a = info.addr then some (f info).routing else ctx.routingOf a
  := by
  obtain ⟨hsound, -⟩ := h.modify i hf
  have hmem := List.mem_of_getElem? hi
  split_ifs with ha
  · apply hsound.routingOf_eq_some.mpr
    refine ⟨f info, List.mem_of_getElem? (i := i) ?_, (hf info).trans ha.symm, rfl⟩
    rw [List.getElem?_modify, hi, Option.map_eq_map, Option.map_some, if_pos rfl]
  · apply Option.ext
    intro rinfo
    rw [hsound.routingOf_eq_some, h.routingOf_eq_some]
    have hiff : ∀ info', info'.addr = a →
        (info' ∈ ctx.nodeInfo.modify i f ↔ info' ∈ ctx.nodeInfo) := by
      intro info' haddr
      simp only [List.mem_iff_getElem?, List.getElem?_modify]
      constructor
      · rintro ⟨j, hj⟩
        refine ⟨j, ?_⟩
        split_ifs at hj with hij
        · subst hij
          rw [hi] at hj
          obtain rfl := Option.some.inj hj
          apply absurd (haddr.symm.trans (hf info)) ha
        · simpa using hj
      · rintro ⟨j, hj⟩
        refine ⟨j, ?_⟩
        rw [hj, Option.map_eq_map, Option.map_some, if_neg]
        rintro rfl
        rw [hi, Option.some.injEq] at hj
        apply ha
        rw [hj, haddr]
    constructor
    · rintro ⟨info', hinfo', haddr, hrouting⟩
      exact ⟨info', (hiff info' haddr).mp hinfo', haddr, hrouting⟩
    · rintro ⟨info', hinfo', haddr, hrouting⟩
      exact ⟨info', (hiff info' haddr).mpr hinfo', haddr, hrouting⟩

/-- `get_neighborstat_buf` gives the index of the statistics of the address, and changes no
routing. -/
theorem StatsSound.getNeighborstatBuf_routingOf {ctx : OlsrContext} (h : ctx.StatsSound)
    (dest : InAddr) :
  ∃ info, (ctx.getNeighborstatBuf dest).2.nodeInfo[(ctx.getNeighborstatBuf dest).1]? = some info ∧
    info.addr = dest ∧ info.routing = (ctx.routingOf dest).getD noRouting ∧
    ∀ a ≠ dest, (ctx.getNeighborstatBuf dest).2.routingOf a = ctx.routingOf a
  := by
  have hfound : ∀ {i : ℕ} {info : NeighborInfo}, ctx.nodeInfo[i]? = some info → info.addr = dest →
      info.routing = (ctx.routingOf dest).getD noRouting := by
    intro i info hi haddr
    rw [h.routingOf_eq_some.mpr ⟨info, List.mem_of_getElem? hi, haddr, rfl⟩, Option.getD_some]
  rw [OlsrContext.getNeighborstatBuf]
  cases hstat : ctx.nodeStatTree.search dest with
  | some i =>
      obtain ⟨info, hi, haddr⟩ := h.tree dest i hstat
      exact ⟨info, hi, haddr, hfound hi haddr, fun _ _ => rfl⟩
  | none =>
      cases hindex : ctx.nodeInfo.findIdx? (fun info => info.addr = dest) with
      | some i =>
          obtain ⟨hlt, haddr, -⟩ := List.findIdx?_eq_some_iff_getElem.mp hindex
          have hi := List.getElem?_eq_getElem hlt
          exact ⟨_, hi, of_decide_eq_true haddr, hfound hi (of_decide_eq_true haddr),
            fun _ _ => rfl⟩
      | none =>
          have hnone := routingOf_eq_none.mpr (findIdx_addr_eq_none.mp hindex)
          refine ⟨NeighborInfo.zero dest, by simp, rfl, ?_, ?_⟩
          · rw [hnone]
            rfl
          · intro a ha
            rw [routingOf, List.find?_append]
            simp [NeighborInfo.zero, routingOf, ha.symm]

/-- A write to the routing of an address. -/
theorem StatsSound.updateRoutingInfo_routingOf {ctx : OlsrContext} (h : ctx.StatsSound)
    (dest : InAddr) (f : RoutingInfo → RoutingInfo) (a : InAddr) :
  (ctx.updateRoutingInfo dest f).routingOf a =
    if a = dest then some (f ((ctx.routingOf dest).getD noRouting)) else ctx.routingOf a
  := by
  obtain ⟨info, hi, haddr, hrouting, hother⟩ := h.getNeighborstatBuf_routingOf dest
  obtain ⟨hsound, -⟩ := h.getNeighborstatBuf dest
  let g : NeighborInfo → NeighborInfo := fun info => { info with routing := f info.routing }
  apply (hsound.modify_routingOf hi (fun _ => rfl : ∀ info, (g info).addr = info.addr) a).trans
  rw [haddr, ← hrouting]
  split_ifs with ha
  · rfl
  · apply hother a ha

/-! ### The loops -/

/-- A loop that writes to the routing of some elements, with different addresses: it writes once to
each, and leaves the other addresses as they are. -/
theorem StatsSound.foldl_routingOf {ctx : OlsrContext} (h : ctx.StatsSound) {β : Type}
    (step : OlsrContext → β → OlsrContext) (key : β → InAddr)
    (write : β → Option (RoutingInfo → RoutingInfo))
    (hstep : ∀ ctx b, step ctx b = match write b with
      | some f => ctx.updateRoutingInfo (key b) f
      | none => ctx)
    {l : List β} (hl : (l.map key).Nodup) :
  (∀ b ∈ l, (l.foldl step ctx).routingOf (key b) = match write b with
    | some f => some (f ((ctx.routingOf (key b)).getD noRouting))
    | none => ctx.routingOf (key b)) ∧
  ∀ a, a ∉ l.map key → (l.foldl step ctx).routingOf a = ctx.routingOf a
  := by
  induction l generalizing ctx with
  | nil => simp
  | cons b l ih =>
      rw [List.map_cons, List.nodup_cons] at hl
      have hb : (step ctx b).StatsSound ∧ ∀ a, (step ctx b).routingOf a =
          if a = key b then (match write b with
            | some f => some (f ((ctx.routingOf (key b)).getD noRouting))
            | none => ctx.routingOf (key b))
          else ctx.routingOf a := by
        rw [hstep]
        cases write b with
        | some f => exact ⟨(h.updateRoutingInfo _ f).1, h.updateRoutingInfo_routingOf _ f⟩
        | none =>
            refine ⟨h, ?_⟩
            intro a
            split_ifs with ha
            · rw [ha]
            · rfl
      obtain ⟨hwritten, hother⟩ := ih hb.1 hl.2
      constructor
      · intro c hc
        rw [List.foldl_cons]
        rcases List.mem_cons.mp hc with rfl | hc
        · rw [hother _ hl.1, hb.2, if_pos rfl]
        · have hne : key c ≠ key b := by
            intro heq
            apply hl.1
            rw [← heq]
            apply List.mem_map_of_mem hc
          rw [hwritten c hc, hb.2, if_neg hne]
      · intro a ha
        rw [List.map_cons, List.mem_cons, not_or] at ha
        rw [List.foldl_cons, hother a ha.2, hb.2, if_neg ha.1]

/-- After the loop for the old table: its addresses that the new table lacks have no hops. -/
theorem StatsSound.disconnect_routingOf {ctx : OlsrContext} (h : ctx.StatsSound)
    (oldTable newTable : OrdMap InAddr RoutingEntry) (a : InAddr) :
  (oldTable.keys.foldl (OlsrContext.disconnectOne newTable) ctx).routingOf a =
    if a ∈ oldTable ∧ a ∉ newTable then
      some { (ctx.routingOf a).getD noRouting with hopCount := 0, dirty := true }
    else ctx.routingOf a
  := by
  have hstep : ∀ ctx' dest, OlsrContext.disconnectOne newTable ctx' dest =
      match (if dest ∈ newTable then none
        else some (fun rinfo : RoutingInfo => { rinfo with hopCount := 0, dirty := true })) with
      | some f => ctx'.updateRoutingInfo dest f
      | none => ctx' := by
    intro ctx' dest
    rw [OlsrContext.disconnectOne]
    split_ifs
    · rfl
    · rfl
  obtain ⟨hkeys, hother⟩ := h.foldl_routingOf _ id _ hstep
    (by rw [List.map_id]; apply oldTable.keys_nodup)
  rw [List.map_id] at hother
  by_cases hold : a ∈ oldTable
  · have hrouting := hkeys a (OrdMap.mem_keys.mpr hold)
    by_cases hnew : a ∈ newTable
    · rw [if_pos hnew] at hrouting
      rw [if_neg (fun hnot => hnot.2 hnew)]
      apply hrouting
    · rw [if_neg hnew] at hrouting
      rw [if_pos ⟨hold, hnew⟩]
      apply hrouting
  · rw [if_neg (fun hboth => hold hboth.1)]
    apply hother
    rw [OrdMap.mem_keys]
    apply hold

/-- After the loop for the new table: its addresses have their new routes, unless these are taken
for the same as the old ones. -/
theorem StatsSound.change_routingOf {ctx : OlsrContext} (h : ctx.StatsSound)
    (oldTable newTable : OrdMap InAddr RoutingEntry) (a : InAddr) :
  (newTable.entries.foldl (OlsrContext.changeOne oldTable) ctx).routingOf a =
    match newTable.search a with
    | none => ctx.routingOf a
    | some new =>
        if routeUnchanged oldTable (a, new) = true then ctx.routingOf a
        else some
          { hopCount := new.hopCount
            path := new.route ++ ((ctx.routingOf a).getD noRouting).path.drop new.route.length
            dirty := true }
  := by
  have hstep : ∀ ctx' new, OlsrContext.changeOne oldTable ctx' new =
      match (if routeUnchanged oldTable new = true then none
        else some (fun rinfo : RoutingInfo =>
          { hopCount := new.2.hopCount
            path := new.2.route ++ rinfo.path.drop new.2.route.length
            dirty := true })) with
      | some f => ctx'.updateRoutingInfo new.1 f
      | none => ctx' := by
    intro ctx' new
    rw [OlsrContext.changeOne]
    split_ifs
    · rfl
    · rfl
  obtain ⟨hentries, hother⟩ := h.foldl_routingOf _ Prod.fst _ hstep newTable.keys_nodup
  cases hnew : newTable.search a with
  | none => apply hother a (OrdMap.search_eq_none.mp hnew)
  | some new =>
      apply (hentries (a, new) (OrdMap.search_eq_some.mp hnew)).trans
      simp only
      split_ifs
      · rfl
      · rfl

/-- The routing of an address after a calculation, by the entries it has in the old and in the new
table. -/
theorem StatsSound.calcRoutingTable_routingOf {ctx : OlsrContext} (h : ctx.StatsSound)
    (a : InAddr) :
  ctx.calcRoutingTable.routingOf a =
    match ctx.routingTable.search a, ctx.searched.routingTable.search a with
    | none, none => ctx.routingOf a
    | some _, none =>
        some { (ctx.routingOf a).getD noRouting with hopCount := 0, dirty := true }
    | _, some new =>
        if routeUnchanged ctx.routingTable (a, new) = true then ctx.routingOf a
        else some
          { hopCount := new.hopCount
            path := new.route ++ ((ctx.routingOf a).getD noRouting).path.drop new.route.length
            dirty := true }
  := by
  have hsearched : ctx.searched.StatsSound := ⟨h.tree, h.nodup⟩
  have hsame : ctx.searched.routingOf a = ctx.routingOf a := rfl
  obtain ⟨hdisconnected, -⟩ := hsearched.foldl id
    (fun dest => dest ∈ ctx.searched.routingTable)
    (fun ctx' dest hsound => hsound.disconnectOne ctx.searched.routingTable dest)
    ctx.routingTable.keys
  have hdisconnect := hsearched.disconnect_routingOf ctx.routingTable ctx.searched.routingTable a
  rw [calcRoutingTable_eq_foldl, hdisconnected.change_routingOf, hdisconnect, hsame]
  cases hnew : ctx.searched.routingTable.search a with
  | none =>
      have hnotNew := OrdMap.search_eq_none.mp hnew
      cases hold : ctx.routingTable.search a with
      | none => apply if_neg (fun hboth => OrdMap.search_eq_none.mp hold hboth.1)
      | some old => apply if_pos ⟨OrdMap.mem_of_search hold, hnotNew⟩
  | some new =>
      rw [if_neg (fun hboth => hboth.2 (OrdMap.mem_of_search hnew))]
      cases ctx.routingTable.search a with
      | none => rfl
      | some old => rfl

/-! ### The comparison -/

/-- The comparison of a new with an old route over `n` elements, `none` if it goes on past the last
element of one of them: there is the head of the circular list, which is no element. -/
def compareRoutes : ℕ → List InAddr → List InAddr → Option Bool
  | 0, _, _ => some false
  | n + 1, a :: newRoute, b :: oldRoute =>
      if a ≠ b then some true else compareRoutes n newRoute oldRoute
  | _ + 1, _, _ => none

/-- What the comparison finds, where it stays within the routes. -/
theorem routeChanged_eq (n : ℕ) (newRoute oldRoute : List InAddr) :
  routeChanged n newRoute oldRoute = (compareRoutes n newRoute oldRoute).getD true
  := by
  induction n generalizing newRoute oldRoute with
  | zero => simp [routeChanged, compareRoutes]
  | succ n ih =>
      cases newRoute with
      | nil => rfl
      | cons a newRoute =>
          cases oldRoute with
          | nil => rfl
          | cons b oldRoute =>
              rw [routeChanged, compareRoutes]
              split_ifs
              · rfl
              · apply ih

/-- A route to `dest`, which is on it once, at the end. -/
structure IsRoute (dest : InAddr) (route : List InAddr) : Prop where
  last : route.getLast? = some dest
  nodup : route.Nodup

/-- The rest of a route that goes on. -/
theorem IsRoute.tail {dest a : InAddr} {route : List InAddr} (h : IsRoute dest (a :: route))
    (ha : a ≠ dest) :
  IsRoute dest route
  := by
  refine ⟨?_, h.nodup.of_cons⟩
  cases route with
  | nil =>
      have hlast := h.last
      rw [List.getLast?_singleton, Option.some.injEq] at hlast
      apply absurd hlast ha
  | cons b route =>
      have hlast := h.last
      rw [List.getLast?_cons_cons] at hlast
      apply hlast

/-- A route that starts with its destination. -/
theorem IsRoute.eq_nil {dest : InAddr} {route : List InAddr} (h : IsRoute dest (dest :: route)) :
  route = []
  := by
  cases route with
  | nil => rfl
  | cons b route =>
      have hlast := h.last
      rw [List.getLast?_cons_cons] at hlast
      have hnot := (List.nodup_cons.mp h.nodup).1
      apply absurd (List.mem_of_getLast? hlast) hnot

/-- Between two routes to the same destination, the comparison over the length of the new one stays
within both, and finds whether they differ. -/
theorem compareRoutes_eq {dest : InAddr} {newRoute oldRoute : List InAddr}
    (hnew : IsRoute dest newRoute) (hold : IsRoute dest oldRoute) :
  compareRoutes newRoute.length newRoute oldRoute = some (decide (newRoute ≠ oldRoute))
  := by
  induction newRoute generalizing oldRoute with
  | nil =>
      have hlast := hnew.last
      contradiction
  | cons a newRoute ih =>
      cases oldRoute with
      | nil =>
          have hlast := hold.last
          contradiction
      | cons b oldRoute =>
          rw [List.length_cons, compareRoutes]
          by_cases hab : a = b
          · subst hab
            rw [if_neg (not_not.mpr rfl)]
            by_cases ha : a = dest
            · -- both end here
              subst ha
              rw [hnew.eq_nil, hold.eq_nil]
              simp [compareRoutes]
            · rw [ih (hnew.tail ha) (hold.tail ha)]
              simp
          · simp [hab]

/-! ### What is kept true -/

/-- The entries of the table have routes of their hop count to their addresses. -/
def Routed (table : OrdMap InAddr RoutingEntry) : Prop :=
  ∀ dest entry, table.search dest = some entry →
    IsRoute dest entry.route ∧ entry.route.length = entry.hopCount

/-- The routes that a search finds. -/
theorem routed_spfTable (ownIp : InAddr) (neighborTree : OrdMap InAddr NeighborElem)
    (topo : OrdMap InAddr TopologyInfoElem) :
  Routed (spfTable ownIp neighborTree topo)
  := by
  intro dest entry hentry
  have hcomplete := spfTable_complete ownIp neighborTree topo
  have hsound := hcomplete.sound dest entry hentry
  refine ⟨⟨?_, hsound.nodup⟩, hsound.length⟩
  rw [hsound.last, hcomplete.dest dest entry hentry]

/-- The route to an address in a table, if there is one. -/
def routeTo (table : OrdMap InAddr RoutingEntry) (a : InAddr) : Option (List InAddr) :=
  (table.search a).map Bfs.Entry.route

/-- Two tables of routes: a route is taken for the same exactly if the old table has the same
one. -/
theorem Routed.routeUnchanged_iff {oldTable newTable : OrdMap InAddr RoutingEntry}
    (hold : Routed oldTable) (hnew : Routed newTable) {a : InAddr} {new : RoutingEntry}
    (hentry : newTable.search a = some new) :
  routeUnchanged oldTable (a, new) = true ↔ routeTo oldTable a = routeTo newTable a
  := by
  obtain ⟨hroute, hlength⟩ := hnew a new hentry
  simp only [routeTo, routeUnchanged, hentry]
  cases hsearch : oldTable.search a with
  | none => simp
  | some old =>
      dsimp only
      rw [← hlength, routeChanged_eq, compareRoutes_eq hroute (hold a old hsearch).1]
      simp [eq_comm]

/-- The statistics show the routing table: the hop count and the route of each address in it, and no
hops for the others. -/
structure Mirrors (ctx : OlsrContext) : Prop where
  entry : ∀ dest entry, ctx.routingTable.search dest = some entry →
    ∃ rinfo, ctx.routingOf dest = some rinfo ∧ rinfo.hopCount = entry.hopCount ∧
      rinfo.path.take entry.hopCount = entry.route
  other : ∀ a rinfo, ctx.routingOf a = some rinfo → a ∉ ctx.routingTable → rinfo.hopCount = 0

/-- From `ctx` to `ctx'`, the addresses whose route has appeared, disappeared or changed have been
marked, and nothing has been written for the others. -/
structure MarksChanges (ctx ctx' : OlsrContext) : Prop where
  marked : ∀ a, routeTo ctx.routingTable a ≠ routeTo ctx'.routingTable a →
    ∃ rinfo, ctx'.routingOf a = some rinfo ∧ rinfo.dirty = true
  same : ∀ a, routeTo ctx.routingTable a = routeTo ctx'.routingTable a →
    ctx'.routingOf a = ctx.routingOf a

/-- The comparison of each new route with the old one stays within both. -/
def ComparesWithin (oldTable newTable : OrdMap InAddr RoutingEntry) : Prop :=
  ∀ a old new, oldTable.search a = some old → newTable.search a = some new →
    ∃ changed, compareRoutes new.hopCount new.route old.route = some changed

/-- What is kept true: the statistics are sound and mirror the routing table, which has routes. -/
structure MirrorInv (ctx : OlsrContext) : Prop where
  sound : ctx.StatsSound
  routed : Routed ctx.routingTable
  mirrors : ctx.Mirrors

theorem Routed.comparesWithin {oldTable newTable : OrdMap InAddr RoutingEntry}
    (hold : Routed oldTable) (hnew : Routed newTable) :
  ComparesWithin oldTable newTable
  := by
  intro a old new hsearch hentry
  obtain ⟨hroute, hlength⟩ := hnew a new hentry
  rw [← hlength]
  exact ⟨_, compareRoutes_eq hroute (hold a old hsearch).1⟩

/-- The routing that is written for an address whose route has changed. -/
def changedRouting (newTable : OrdMap InAddr RoutingEntry) (a : InAddr) (rinfo : RoutingInfo) :
    RoutingInfo :=
  match newTable.search a with
  | none => { rinfo with hopCount := 0, dirty := true }
  | some new =>
      { hopCount := new.hopCount
        path := new.route ++ rinfo.path.drop new.route.length
        dirty := true }

/-- A calculation writes the routing of the addresses whose routes differ. -/
theorem MirrorInv.routingOf {ctx : OlsrContext} (h : ctx.MirrorInv) (a : InAddr) :
  ctx.calcRoutingTable.routingOf a =
    if routeTo ctx.routingTable a = routeTo ctx.calcRoutingTable.routingTable a then
      ctx.routingOf a
    else some (changedRouting ctx.calcRoutingTable.routingTable a
      ((ctx.routingOf a).getD noRouting))
  := by
  have hnew := routed_spfTable ctx.ownIp ctx.neighborTree ctx.topologyTree
  have hsearched : ctx.searched.routingTable =
      spfTable ctx.ownIp ctx.neighborTree ctx.topologyTree := rfl
  rw [h.sound.calcRoutingTable_routingOf, hsearched, calcRoutingTable_routingTable, changedRouting]
  cases hentry : (spfTable ctx.ownIp ctx.neighborTree ctx.topologyTree).search a with
  | none =>
      cases hold : ctx.routingTable.search a with
      | none => simp [routeTo, hold, hentry]
      | some old => simp [routeTo, hold, hentry]
  | some new =>
      simp only [← h.routed.routeUnchanged_iff hnew hentry]

/-- A calculation marks the changes. -/
theorem MirrorInv.marksChanges {ctx : OlsrContext} (h : ctx.MirrorInv) :
  MarksChanges ctx ctx.calcRoutingTable
  := by
  constructor
  · intro a hne
    rw [h.routingOf, if_neg hne]
    refine ⟨_, rfl, ?_⟩
    rw [changedRouting]
    cases ctx.calcRoutingTable.routingTable.search a with
    | none => rfl
    | some new => rfl
  · intro a heq
    rw [h.routingOf, if_pos heq]

/-- An address of the routing table has statistics. -/
theorem Mirrors.mem_statAddrs {ctx : OlsrContext} (h : ctx.Mirrors) {a : InAddr}
    (ha : a ∈ ctx.routingTable) :
  a ∈ ctx.statAddrs
  := by
  obtain ⟨entry, hentry⟩ := OrdMap.mem_iff.mp ha
  obtain ⟨rinfo, hrinfo, -⟩ := h.entry a entry hentry
  by_contra hnone
  rw [routingOf_eq_none.mpr hnone] at hrinfo
  contradiction

/-- After a calculation the statistics mirror the new table. -/
theorem MirrorInv.mirrors_calcRoutingTable {ctx : OlsrContext} (h : ctx.MirrorInv) :
  ctx.calcRoutingTable.Mirrors
  := by
  have hnew : Routed ctx.calcRoutingTable.routingTable := by
    rw [calcRoutingTable_routingTable]
    apply routed_spfTable
  constructor
  · intro dest entry hentry
    rw [h.routingOf]
    obtain ⟨-, hlength⟩ := hnew dest entry hentry
    split_ifs with heq
    · -- the old table has the same route
      rw [routeTo, routeTo, hentry, Option.map_some, Option.map_eq_some_iff] at heq
      obtain ⟨old, hold, hroute⟩ := heq
      obtain ⟨rinfo, hrinfo, hhop, hpath⟩ := h.mirrors.entry dest old hold
      have hhopCount : old.hopCount = entry.hopCount := by
        rw [← (h.routed dest old hold).2, hroute, hlength]
      rw [hhopCount] at hhop hpath
      rw [hroute] at hpath
      exact ⟨rinfo, hrinfo, hhop, hpath⟩
    · refine ⟨_, rfl, ?_, ?_⟩
      · rw [changedRouting, hentry]
      · rw [changedRouting, hentry]
        apply List.take_left' hlength
  · intro a rinfo hrinfo ha
    have hnone := OrdMap.search_eq_none.mpr ha
    rw [h.routingOf] at hrinfo
    split_ifs at hrinfo with heq
    · rw [routeTo, routeTo, hnone, Option.map_none, Option.map_eq_none_iff] at heq
      apply h.mirrors.other a rinfo hrinfo (OrdMap.search_eq_none.mp heq)
    · rw [← Option.some.inj hrinfo, changedRouting, hnone]

theorem MirrorInv.calcRoutingTable {ctx : OlsrContext} (h : ctx.MirrorInv) :
  ctx.calcRoutingTable.MirrorInv
  := by
  refine ⟨(h.sound.calcRoutingTable (fun a ha => h.mirrors.mem_statAddrs ha)).1, ?_,
    h.mirrors_calcRoutingTable⟩
  rw [calcRoutingTable_routingTable]
  apply routed_spfTable

/-! ### Runs -/

/-- A received packet changes no route. -/
theorem StatsSound.statisticsUpdate_routingOf {ctx : OlsrContext} (h : ctx.StatsSound)
    (iph : IpHdr) (a : InAddr) :
  (ctx.statisticsUpdate iph).routingOf a =
    if a = iph.daddr then some ((ctx.routingOf a).getD noRouting) else ctx.routingOf a
  := by
  obtain ⟨info, hi, haddr, hrouting, hother⟩ := h.getNeighborstatBuf_routingOf iph.daddr
  obtain ⟨hsound, -⟩ := h.getNeighborstatBuf iph.daddr
  let count : NeighborInfo → NeighborInfo := fun info => { info with
    traffic := { info.traffic with
      txBytes := info.traffic.txBytes + iph.totLen.setWidth 32
      txPkts := info.traffic.txPkts + 1
      dirty := true } }
  apply (hsound.modify_routingOf hi (fun _ => rfl : ∀ info, (count info).addr = info.addr) a).trans
  rw [haddr]
  split_ifs with ha
  · rw [ha, ← hrouting]
  · apply hother a ha

/-- Neighbours and topology may change between calculations. -/
theorem MirrorInv.learn {ctx : OlsrContext} (h : ctx.MirrorInv)
    (neighborTree : OrdMap InAddr NeighborElem)
    (topologyTree : OrdMap InAddr TopologyInfoElem) :
  MirrorInv { ctx with neighborTree := neighborTree, topologyTree := topologyTree }
  := ⟨⟨h.sound.tree, h.sound.nodup⟩, h.routed, ⟨h.mirrors.entry, h.mirrors.other⟩⟩

/-- Every event keeps the statistics a mirror of the routing table. -/
theorem MirrorInv.statStep {ctx : OlsrContext} (h : ctx.MirrorInv) (e : StatEvent) :
  (ctx.statStep e).MirrorInv
  := by
  cases e with
  | recv iph =>
      have htable := statisticsUpdate_routingTable ctx iph
      have hrouting := h.sound.statisticsUpdate_routingOf iph
      refine ⟨(h.sound.statisticsUpdate iph).1, ?_, ?_, ?_⟩
      · rw [OlsrContext.statStep, htable]
        apply h.routed
      · intro dest entry hentry
        rw [OlsrContext.statStep, htable] at hentry
        obtain ⟨rinfo, hrinfo, hshown⟩ := h.mirrors.entry dest entry hentry
        refine ⟨rinfo, ?_, hshown⟩
        rw [OlsrContext.statStep, hrouting, hrinfo]
        split_ifs
        · rfl
        · rfl
      · intro a rinfo hrinfo ha
        rw [OlsrContext.statStep, htable] at ha
        rw [OlsrContext.statStep, hrouting] at hrinfo
        cases hold : ctx.routingOf a with
        | some old =>
            rw [hold] at hrinfo
            apply h.mirrors.other a rinfo _ ha
            split_ifs at hrinfo
            · rw [hold, ← hrinfo, Option.getD_some]
            · rw [hold, hrinfo]
        | none =>
            rw [hold] at hrinfo
            split_ifs at hrinfo
            rw [← Option.some.inj hrinfo, Option.getD_none, noRouting]
  | calcRoutingTable neighborTree topologyTree =>
      apply (h.learn neighborTree topologyTree).calcRoutingTable
  | dumpStatistics => apply h

/-- At the start there are no routes. -/
theorem init_mirrorInv (ownIp : InAddr) (now : Timespec) :
  (initOlsrContext ownIp now).MirrorInv
  := by
  refine ⟨(init_statInv ownIp now).sound, ?_, ?_, ?_⟩
  · intro dest entry hentry
    contradiction
  · intro dest entry hentry
    contradiction
  · intro a rinfo hrinfo
    contradiction

/-- In every run, each calculation, whatever neighbours and topology there are by then, makes the
statistics mirror the new routing table, marks exactly the addresses whose routes have appeared,
disappeared or changed, and compares routes within their elements. -/
theorem calcRoutingTable_mirrors (ownIp : InAddr) (now : Timespec) (events : List StatEvent)
    (neighborTree : OrdMap InAddr NeighborElem)
    (topologyTree : OrdMap InAddr TopologyInfoElem) :
  let ctx := events.foldl statStep (initOlsrContext ownIp now)
  let ctx' := ctx.statStep (.calcRoutingTable neighborTree topologyTree)
  ctx'.Mirrors ∧ MarksChanges ctx ctx' ∧ ComparesWithin ctx.routingTable ctx'.routingTable
  := by
  intro ctx ctx'
  have h : ctx.MirrorInv := by
    refine List.foldlRecOn (motive := MirrorInv) events _ (init_mirrorInv ownIp now) ?_
    intro ctx₀ h₀ e _
    apply h₀.statStep
  have h' : ctx'.MirrorInv := h.statStep (.calcRoutingTable neighborTree topologyTree)
  refine ⟨h'.mirrors, ?_, h.routed.comparesWithin h'.routed⟩
  obtain ⟨hmarked, hsame⟩ := (h.learn neighborTree topologyTree).marksChanges
  exact ⟨hmarked, hsame⟩

end OlsrContext
