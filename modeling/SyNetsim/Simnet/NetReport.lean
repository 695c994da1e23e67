import SyNetsim.Lib.Run
import SyNetsim.Netutil
import SyNetsim.Olsr.Spf

/-!
# Reports of a node

`net_report.c`: ten times a second a node goes through the statistics it keeps of the other nodes
and reports to the simulator those whose traffic counters or route have changed. A change is
marked by a field `dirty`, which `update_route_info` and `statistics_update` set. The reporter
clears it whether or not the queue has taken the report.

As long as the queue takes every report, what is not marked has been reported
(`ReportRun.reports_not_lost`).
-/

/-! ### Reports -/

/-- A `NetTrxReport`. -/
structure NetTrxReport where
  peerAddr : InAddr
  tx : BitVec 32
  rx : BitVec 32
deriving DecidableEq

/-- A `NetRoutingReport`. -/
structure NetRoutingReport where
  visitNum : BitVec 16
  target : BitVec 16
  path : List InAddr
deriving DecidableEq

/-- A report in the queue to the simulator. A report of a route is kept with the address it is
for, of which it has one byte only. -/
inductive NetReport where
  | trx (report : NetTrxReport)
  | routing (neighborAddr : InAddr) (report : NetRoutingReport)
deriving DecidableEq

/-- `MAX_NODE_COUNT`. -/
def maxNodeCount : ℕ := 50

/-- `MAX_HOP_COUNT`. -/
def maxHopCount : ℕ := 50

/-- The report that `send_traffic_report` makes. -/
def NeighborInfo.trxReport (info : NeighborInfo) : NetTrxReport where
  peerAddr := info.addr
  tx := info.traffic.txBytes
  rx := info.traffic.rxBytes

/-- The report that `send_route_report` makes. -/
def NeighborInfo.routeReport (info : NeighborInfo) : NetRoutingReport where
  visitNum := .ofNat 16 info.routing.hopCount
  target := (info.addr.extractLsb' 16 8).setWidth 16
  path := info.routing.path.take info.routing.hopCount

/-- `send_report_to_simulator`, where `sent` tells whether the queue takes the report. -/
def sendReportToSimulator (enqueued : List NetReport) (sent : Bool) (report : NetReport) :
    List NetReport :=
  if sent then enqueued ++ [report] else enqueued

/-! ### Statistics -/

namespace OlsrContext

/-- `statistics_update`. -/
def statisticsUpdate (ctx : OlsrContext) (iph : IpHdr) : OlsrContext :=
  let (i, ctx) := ctx.getNeighborstatBuf iph.daddr
  { ctx with
    nodeInfo := ctx.nodeInfo.modify i (fun info => { info with
      traffic := { info.traffic with
        txBytes := info.traffic.txBytes + iph.totLen.setWidth 32
        txPkts := info.traffic.txPkts + 1
        dirty := true } }) }

/-- The statistics fit into their arrays. -/
def statsFit (ctx : OlsrContext) : Bool :=
  ctx.nodeInfo.length ≤ maxNodeCount &&
    ctx.nodeInfo.all (fun info =>
      info.routing.hopCount ≤ maxHopCount && info.routing.path.length ≤ maxHopCount)

end OlsrContext

/-! ### Runs -/

/-- A node, with the reports that the queue has taken so far. -/
structure ReportRun where
  ctx : OlsrContext
  enqueued : List NetReport

/-- What happens: the routing table is recalculated, with whatever neighbours and topology there
are by then; a packet is counted; the statistics are reported, where `sent` tells for each index
whether the queue takes a report of traffic, and whether it takes a report of a route. -/
inductive ReportEvent where
  | calcRoutingTable (neighborTree : OrdMap InAddr NeighborElem)
      (topologyTree : OrdMap InAddr TopologyInfoElem)
  | statisticsUpdate (iph : IpHdr)
  | sendNetReportCb (sent : ℕ → Bool × Bool)

namespace ReportRun

/-- The loop of `send_net_report_cb` for the index `i`. -/
def reportInfo (run : ReportRun) (i : ℕ) (sent : Bool × Bool) : ReportRun :=
  match run.ctx.nodeInfo[i]? with
  | none => run
  | some info =>
      let (enqueued, info) :=
        if info.traffic.dirty then
          (sendReportToSimulator run.enqueued sent.1 (.trx info.trxReport),
            { info with traffic := { info.traffic with dirty := false } })
        else (run.enqueued, info)
      let (enqueued, info) :=
        if info.routing.dirty then
          (sendReportToSimulator enqueued sent.2 (.routing info.addr info.routeReport),
            { info with routing := { info.routing with dirty := false } })
        else (enqueued, info)
      { ctx := { run.ctx with nodeInfo := run.ctx.nodeInfo.set i info }, enqueued := enqueued }

/-- `send_net_report_cb`. -/
def sendNetReportCb (run : ReportRun) (sent : ℕ → Bool × Bool) : ReportRun :=
  (List.range run.ctx.nodeInfo.length).foldl (fun run i => run.reportInfo i (sent i)) run

/-- What an event does. It gives `none` if the statistics do not fit into their arrays any
more. -/
def step (run : ReportRun) : ReportEvent → Option ReportRun
  | .calcRoutingTable neighborTree topologyTree =>
      let ctx := { run.ctx with
        neighborTree := neighborTree, topologyTree := topologyTree }.calcRoutingTable
      if ctx.statsFit then some { run with ctx := ctx } else none
  | .statisticsUpdate iph =>
      let ctx := run.ctx.statisticsUpdate iph
      if ctx.statsFit then some { run with ctx := ctx } else none
  | .sendNetReportCb sent => some (run.sendNetReportCb sent)

/-- The queue takes every report. -/
def Takes (run : ReportRun) : ReportEvent → Prop
  | .sendNetReportCb sent => ∀ i info, run.ctx.nodeInfo[i]? = some info →
      (info.traffic.dirty = true → (sent i).1 = true) ∧
        (info.routing.dirty = true → (sent i).2 = true)
  | _ => True

end ReportRun

/-! ### The last report -/

/-- The last report of traffic for an address. -/
def lastTrx (enqueued : List NetReport) (addr : InAddr) : Option NetTrxReport :=
  enqueued.reverse.findSome? (fun
    | .trx report => if report.peerAddr = addr then some report else none
    | .routing _ _ => none)

/-- The last report of a route for an address. -/
def lastRouting (enqueued : List NetReport) (addr : InAddr) : Option NetRoutingReport :=
  enqueued.reverse.findSome? (fun
    | .trx _ => none
    | .routing neighborAddr report => if neighborAddr = addr then some report else none)

/-- The last report of a route carries the current one, or there is none and the node has not
been reached. -/
def RouteReported (enqueued : List NetReport) (info : NeighborInfo) : Prop :=
  match lastRouting enqueued info.addr with
  | none => info.routing.hopCount = 0
  | some report => report.visitNum.toNat = info.routing.hopCount ∧
      report.path = info.routing.path.take info.routing.hopCount

/-- The last report of traffic carries the current counters, or there is none and they are
zero. -/
def TrxReported (enqueued : List NetReport) (info : NeighborInfo) : Prop :=
  match lastTrx enqueued info.addr with
  | none => info.traffic.txBytes = 0 ∧ info.traffic.rxBytes = 0
  | some report => report.tx = info.traffic.txBytes ∧ report.rx = info.traffic.rxBytes

theorem lastTrx_append (enqueued : List NetReport) (report : NetReport) (addr : InAddr) :
  lastTrx (enqueued ++ [report]) addr = (lastTrx [report] addr).or (lastTrx enqueued addr)
  := by
  rw [lastTrx, List.reverse_append, List.findSome?_append]
  rfl

theorem lastRouting_append (enqueued : List NetReport) (report : NetReport) (addr : InAddr) :
  lastRouting (enqueued ++ [report]) addr =
    (lastRouting [report] addr).or (lastRouting enqueued addr)
  := by
  rw [lastRouting, List.reverse_append, List.findSome?_append]
  rfl

@[simp]
theorem lastTrx_trx (report : NetTrxReport) (addr : InAddr) :
  lastTrx [.trx report] addr = if report.peerAddr = addr then some report else none
  := by
  simp [lastTrx]

@[simp]
theorem lastTrx_routing (neighborAddr addr : InAddr) (report : NetRoutingReport) :
  lastTrx [.routing neighborAddr report] addr = none
  := rfl

@[simp]
theorem lastRouting_trx (report : NetTrxReport) (addr : InAddr) :
  lastRouting [.trx report] addr = none
  := rfl

@[simp]
theorem lastRouting_routing (neighborAddr addr : InAddr) (report : NetRoutingReport) :
  lastRouting [.routing neighborAddr report] addr =
    if neighborAddr = addr then some report else none
  := by
  simp [lastRouting]

/-- Whether a route has been reported depends on the last report for its address only. -/
theorem RouteReported.congr {enqueued enqueued' : List NetReport} {info info' : NeighborInfo}
    (h : RouteReported enqueued info) (haddr : info'.addr = info.addr)
    (hrouting : info'.routing.hopCount = info.routing.hopCount ∧
      info'.routing.path = info.routing.path)
    (hlast : lastRouting enqueued' info.addr = lastRouting enqueued info.addr) :
  RouteReported enqueued' info'
  := by
  rw [RouteReported, haddr, hlast, hrouting.1, hrouting.2]
  apply h

/-- Whether traffic has been reported depends on the last report for its address only. -/
theorem TrxReported.congr {enqueued enqueued' : List NetReport} {info info' : NeighborInfo}
    (h : TrxReported enqueued info) (haddr : info'.addr = info.addr)
    (htraffic : info'.traffic.txBytes = info.traffic.txBytes ∧
      info'.traffic.rxBytes = info.traffic.rxBytes)
    (hlast : lastTrx enqueued' info.addr = lastTrx enqueued info.addr) :
  TrxReported enqueued' info'
  := by
  rw [TrxReported, haddr, hlast, htraffic.1, htraffic.2]
  apply h

/-! ### What is kept true -/

/-- What is kept true: the tree leads to the statistics of an address, which every address has
once at most; what there are no statistics of has not been reported; and what is not marked has
been reported. -/
structure Reported (enqueued : List NetReport) (infos : List NeighborInfo)
    (tree : OrdMap InAddr ℕ) : Prop where
  tree : ∀ dest i, tree.search dest = some i → ∃ info, infos[i]? = some info ∧ info.addr = dest
  addr : ∀ (i j : ℕ) (info info' : NeighborInfo), infos[i]? = some info →
    infos[j]? = some info' → info.addr = info'.addr → i = j
  fresh : ∀ addr, (∀ (i : ℕ) (info : NeighborInfo), infos[i]? = some info → info.addr ≠ addr) →
    lastTrx enqueued addr = none ∧ lastRouting enqueued addr = none
  routing : ∀ (i : ℕ) (info : NeighborInfo), infos[i]? = some info → info.routing.dirty = false →
    RouteReported enqueued info
  traffic : ∀ (i : ℕ) (info : NeighborInfo), infos[i]? = some info → info.traffic.dirty = false →
    TrxReported enqueued info

namespace Reported

variable {enqueued enqueued' : List NetReport} {infos infos' : List NeighborInfo}
  {tree : OrdMap InAddr ℕ}

/-- The statistics of one address are replaced, and reports for this address are sent. -/
theorem replace (h : Reported enqueued infos tree) {i : ℕ} {info info' : NeighborInfo}
    (hi : infos[i]? = some info) (haddr : info'.addr = info.addr)
    (hinfos : ∀ j : ℕ, infos'[j]? = if j = i then some info' else infos[j]?)
    (hlast : ∀ addr, addr ≠ info.addr → lastTrx enqueued' addr = lastTrx enqueued addr ∧
      lastRouting enqueued' addr = lastRouting enqueued addr)
    (hrouting : info'.routing.dirty = false → RouteReported enqueued' info')
    (htraffic : info'.traffic.dirty = false → TrxReported enqueued' info') :
  Reported enqueued' infos' tree
  := by
  -- an element is the new one, or an old one under another address
  have helem : ∀ (j : ℕ) info₁, infos'[j]? = some info₁ → j = i ∧ info₁ = info' ∨
      j ≠ i ∧ infos[j]? = some info₁ ∧ info₁.addr ≠ info.addr := by
    intro j info₁ hj
    rw [hinfos] at hj
    split_ifs at hj with hji
    · left
      exact ⟨hji, (Option.some.inj hj).symm⟩
    · right
      exact ⟨hji, hj, fun heq => hji (h.addr j i info₁ info hj hi heq)⟩
  constructor
  · intro dest j hj
    obtain ⟨info₁, hinfo₁, hdest⟩ := h.tree dest j hj
    by_cases hji : j = i
    · subst hji
      obtain rfl := Option.some.inj (hi.symm.trans hinfo₁)
      refine ⟨info', ?_, haddr.trans hdest⟩
      rw [hinfos, if_pos rfl]
    · refine ⟨info₁, ?_, hdest⟩
      rw [hinfos, if_neg hji, hinfo₁]
  · intro j k info₁ info₂ hj hk heq
    rcases helem j info₁ hj with ⟨rfl, rfl⟩ | ⟨-, hj', hne⟩
    · rcases helem k info₂ hk with ⟨rfl, rfl⟩ | ⟨-, -, hne⟩
      · rfl
      · apply absurd (heq.symm.trans haddr) hne
    · rcases helem k info₂ hk with ⟨rfl, rfl⟩ | ⟨-, hk', -⟩
      · apply absurd (heq.trans haddr) hne
      · apply h.addr j k info₁ info₂ hj' hk' heq
  · intro addr hnone
    have hne : addr ≠ info.addr := by
      have hne' := hnone i info' (by rw [hinfos, if_pos rfl])
      rw [haddr] at hne'
      apply hne'.symm
    rw [(hlast addr hne).1, (hlast addr hne).2]
    apply h.fresh addr
    intro j info₁ hj
    by_cases hji : j = i
    · subst hji
      obtain rfl := Option.some.inj (hi.symm.trans hj)
      apply hne.symm
    · apply hnone j info₁
      rw [hinfos, if_neg hji, hj]
  · intro j info₁ hj hdirty
    rcases helem j info₁ hj with ⟨-, rfl⟩ | ⟨-, hj', hne⟩
    · apply hrouting hdirty
    · apply (h.routing j info₁ hj' hdirty).congr rfl ⟨rfl, rfl⟩ (hlast _ hne).2
  · intro j info₁ hj hdirty
    rcases helem j info₁ hj with ⟨-, rfl⟩ | ⟨-, hj', hne⟩
    · apply htraffic hdirty
    · apply (h.traffic j info₁ hj' hdirty).congr rfl ⟨rfl, rfl⟩ (hlast _ hne).1

/-- A write to the statistics of one address marks what it changes. -/
theorem modify (h : Reported enqueued infos tree) {i : ℕ} {info : NeighborInfo}
    (hi : infos[i]? = some info) {f : NeighborInfo → NeighborInfo}
    (haddr : (f info).addr = info.addr)
    (hrouting : (f info).routing = info.routing ∨ (f info).routing.dirty = true)
    (htraffic : (f info).traffic = info.traffic ∨ (f info).traffic.dirty = true) :
  Reported enqueued (infos.modify i f) tree
  := by
  apply h.replace hi haddr
  · intro j
    rw [List.getElem?_modify]
    by_cases hji : j = i
    · subst hji
      simp [hi]
    · have hij : ¬ i = j := fun heq => hji heq.symm
      simp [hji, hij]
  · intro addr _
    exact ⟨rfl, rfl⟩
  · intro hdirty
    rcases hrouting with hsame | hmarked
    · rw [hsame] at hdirty
      apply (h.routing i info hi hdirty).congr haddr _ rfl
      rw [hsame]
      exact ⟨rfl, rfl⟩
    · rw [hmarked] at hdirty
      contradiction
  · intro hdirty
    rcases htraffic with hsame | hmarked
    · rw [hsame] at hdirty
      apply (h.traffic i info hi hdirty).congr haddr _ rfl
      rw [hsame]
      exact ⟨rfl, rfl⟩
    · rw [hmarked] at hdirty
      contradiction

/-- The tree may lead to the statistics of an address. -/
theorem insert (h : Reported enqueued infos tree) {dest : InAddr} {i : ℕ} {info : NeighborInfo}
    (hi : infos[i]? = some info) (haddr : info.addr = dest) :
  Reported enqueued infos (tree.insert dest i)
  := by
  refine ⟨?_, h.addr, h.fresh, h.routing, h.traffic⟩
  intro dest' j hj
  rw [OrdMap.search_insert] at hj
  split_ifs at hj with hdest
  · cases hsearch : tree.search dest with
    | some k =>
        rw [hsearch] at hj
        obtain rfl := Option.some.inj hj
        rw [hdest]
        apply h.tree dest k hsearch
    | none =>
        rw [hsearch] at hj
        obtain rfl := Option.some.inj hj
        rw [hdest]
        exact ⟨info, hi, haddr⟩
  · apply h.tree dest' j hj

/-- Statistics of a new address start from zero. -/
theorem append (h : Reported enqueued infos tree) {dest : InAddr}
    (hnew : ∀ (i : ℕ) (info : NeighborInfo), infos[i]? = some info → info.addr ≠ dest) :
  Reported enqueued (infos ++ [NeighborInfo.zero dest]) tree
  := by
  have helem : ∀ (j : ℕ) info, (infos ++ [NeighborInfo.zero dest])[j]? = some info →
      infos[j]? = some info ∨ j = infos.length ∧ info = NeighborInfo.zero dest := by
    intro j info hj
    rw [List.getElem?_append] at hj
    split_ifs at hj with hlt
    · left
      apply hj
    · right
      obtain ⟨hlast, hinfo⟩ := List.getElem?_eq_some_iff.mp hj
      rw [List.length_singleton] at hlast
      refine ⟨by omega, ?_⟩
      rw [← hinfo, List.getElem_singleton]
  have hold : ∀ (j : ℕ) info, infos[j]? = some info →
      (infos ++ [NeighborInfo.zero dest])[j]? = some info := by
    intro j info hj
    rw [List.getElem?_append_left (List.getElem?_eq_some_iff.mp hj).1, hj]
  constructor
  · intro dest' i hi
    obtain ⟨info, hinfo, haddr⟩ := h.tree dest' i hi
    exact ⟨info, hold i info hinfo, haddr⟩
  · intro i j info info' hi hj heq
    rcases helem i info hi with hi' | ⟨rfl, rfl⟩
    · rcases helem j info' hj with hj' | ⟨rfl, rfl⟩
      · apply h.addr i j info info' hi' hj' heq
      · apply absurd heq (hnew i info hi')
    · rcases helem j info' hj with hj' | ⟨rfl, rfl⟩
      · apply absurd heq.symm (hnew j info' hj')
      · rfl
  · intro addr hnone
    apply h.fresh addr
    intro i info hi
    apply hnone i info (hold i info hi)
  · intro i info hi hdirty
    rcases helem i info hi with hi' | ⟨rfl, rfl⟩
    · apply h.routing i info hi' hdirty
    · simp only [RouteReported, NeighborInfo.zero, (h.fresh dest hnew).2]
  · intro i info hi hdirty
    rcases helem i info hi with hi' | ⟨rfl, rfl⟩
    · apply h.traffic i info hi' hdirty
    · simp only [TrxReported, NeighborInfo.zero, (h.fresh dest hnew).1, and_self]

end Reported

/-! ### Writers of the statistics -/

namespace OlsrContext

/-- The statistics of the context are as they should be. -/
def Reports (ctx : OlsrContext) (enqueued : List NetReport) : Prop :=
  Reported enqueued ctx.nodeInfo ctx.nodeStatTree

variable {enqueued : List NetReport}

/-- `get_neighborstat_buf` gives an index that there is. -/
theorem getNeighborstatBuf_reports {ctx : OlsrContext} (h : ctx.Reports enqueued)
    (dest : InAddr) :
  (ctx.getNeighborstatBuf dest).2.Reports enqueued ∧
    ∃ info, (ctx.getNeighborstatBuf dest).2.nodeInfo[(ctx.getNeighborstatBuf dest).1]? = some info
  := by
  rw [getNeighborstatBuf]
  cases hstat : ctx.nodeStatTree.search dest with
  | some i =>
      obtain ⟨info, hinfo, -⟩ := h.tree dest i hstat
      exact ⟨h, info, hinfo⟩
  | none =>
      cases hinfo : ctx.nodeInfo.findIdx? (fun info => info.addr = dest) with
      | some i =>
          obtain ⟨hlt, haddr, -⟩ := List.findIdx?_eq_some_iff_getElem.mp hinfo
          have hi : ctx.nodeInfo[i]? = some ctx.nodeInfo[i] := List.getElem?_eq_getElem hlt
          exact ⟨Reported.insert h hi (of_decide_eq_true haddr), _, hi⟩
      | none =>
          have hnew : ∀ (i : ℕ) (info : NeighborInfo), ctx.nodeInfo[i]? = some info →
              info.addr ≠ dest := by
            intro i info hi
            have hne := List.findIdx?_eq_none_iff.mp hinfo info (List.mem_of_getElem? hi)
            apply of_decide_eq_false hne
          have hi : (ctx.nodeInfo ++ [NeighborInfo.zero dest])[ctx.nodeInfo.length]? =
              some (NeighborInfo.zero dest) := by
            simp
          exact ⟨(Reported.append h hnew).insert hi rfl, _, hi⟩

theorem updateRoutingInfo_reports {ctx : OlsrContext} (h : ctx.Reports enqueued) (dest : InAddr)
    {f : RoutingInfo → RoutingInfo} (hf : ∀ rinfo, (f rinfo).dirty = true) :
  (ctx.updateRoutingInfo dest f).Reports enqueued
  := by
  obtain ⟨h', info, hinfo⟩ := getNeighborstatBuf_reports h dest
  apply Reported.modify h' hinfo
  · rfl
  · right
    apply hf
  · left
    rfl

theorem statisticsUpdate_reports {ctx : OlsrContext} (h : ctx.Reports enqueued) (iph : IpHdr) :
  (ctx.statisticsUpdate iph).Reports enqueued
  := by
  obtain ⟨h', info, hinfo⟩ := getNeighborstatBuf_reports h iph.daddr
  apply Reported.modify h' hinfo
  · rfl
  · left
    rfl
  · right
    rfl

theorem updateRouteInfo_reports {ctx : OlsrContext} (h : ctx.Reports enqueued)
    (oldTable newTable : OrdMap InAddr RoutingEntry) :
  (ctx.updateRouteInfo oldTable newTable).Reports enqueued
  := by
  rw [updateRouteInfo, updateRouteInfoChanged]
  refine List.foldlRecOn (motive := fun ctx : OlsrContext => ctx.Reports enqueued) _ _ ?_ ?_
  · rw [updateRouteInfoDisconnected]
    refine List.foldlRecOn (motive := fun ctx : OlsrContext => ctx.Reports enqueued) _ _ ?_ ?_
    · apply h
    · intro ctx' h' dest _
      split_ifs
      · apply h'
      · apply updateRoutingInfo_reports h'
        intro rinfo
        rfl
  · intro ctx' h' new _
    dsimp only
    split_ifs
    · apply h'
    · apply updateRoutingInfo_reports h'
      intro rinfo
      rfl

/-- `calc_routing_table` marks the routes it changes. -/
theorem calcRoutingTable_reports {ctx : OlsrContext} (h : ctx.Reports enqueued) :
  ctx.calcRoutingTable.Reports enqueued
  := by
  rw [calcRoutingTable]
  apply updateRouteInfo_reports
  apply h

end OlsrContext

/-! ### The reporter -/

namespace NeighborInfo

/-- The reports due for the statistics of an address. -/
def reports (info : NeighborInfo) : List NetReport :=
  (if info.traffic.dirty then [.trx info.trxReport] else []) ++
    (if info.routing.dirty then [.routing info.addr info.routeReport] else [])

/-- The statistics without marks. -/
def clean (info : NeighborInfo) : NeighborInfo :=
  { info with
    traffic := { info.traffic with dirty := false }
    routing := { info.routing with dirty := false } }

/-- The last report of traffic once the reports due have been sent. -/
theorem lastTrx_reports (info : NeighborInfo) (enqueued : List NetReport) (addr : InAddr) :
  lastTrx (enqueued ++ info.reports) addr =
    if info.traffic.dirty = true ∧ info.addr = addr then some info.trxReport
    else lastTrx enqueued addr
  := by
  rw [reports, ← List.append_assoc]
  have hrouting : ∀ l, lastTrx (l ++ if info.routing.dirty = true
      then [.routing info.addr info.routeReport] else []) addr = lastTrx l addr := by
    intro l
    split_ifs
    · rw [lastTrx_append, lastTrx_routing, Option.none_or]
    · rw [List.append_nil]
  rw [hrouting]
  by_cases hdirty : info.traffic.dirty = true
  · rw [if_pos hdirty, lastTrx_append, lastTrx_trx]
    by_cases haddr : info.addr = addr
    · simp [hdirty, haddr, trxReport]
    · simp [haddr, trxReport]
  · rw [if_neg hdirty, List.append_nil, if_neg (fun h => hdirty h.1)]

/-- The last report of a route once the reports due have been sent. -/
theorem lastRouting_reports (info : NeighborInfo) (enqueued : List NetReport) (addr : InAddr) :
  lastRouting (enqueued ++ info.reports) addr =
    if info.routing.dirty = true ∧ info.addr = addr then some info.routeReport
    else lastRouting enqueued addr
  := by
  rw [reports, ← List.append_assoc]
  have htrx : lastRouting (enqueued ++ if info.traffic.dirty = true
      then [.trx info.trxReport] else []) addr = lastRouting enqueued addr := by
    split_ifs
    · rw [lastRouting_append, lastRouting_trx, Option.none_or]
    · rw [List.append_nil]
  by_cases hdirty : info.routing.dirty = true
  · rw [if_pos hdirty, lastRouting_append, lastRouting_routing, htrx]
    by_cases haddr : info.addr = addr
    · simp [hdirty, haddr]
    · simp [haddr]
  · rw [if_neg hdirty, List.append_nil, htrx, if_neg (fun h => hdirty h.1)]

end NeighborInfo

namespace ReportRun

/-- If the queue takes the reports due at an index, they are sent and the marks are cleared. -/
theorem reportInfo_eq (run : ReportRun) {i : ℕ} {sent : Bool × Bool} {info : NeighborInfo}
    (hi : run.ctx.nodeInfo[i]? = some info)
    (hsent : (info.traffic.dirty = true → sent.1 = true) ∧
      (info.routing.dirty = true → sent.2 = true)) :
  run.reportInfo i sent =
    ⟨{ run.ctx with nodeInfo := run.ctx.nodeInfo.set i info.clean },
      run.enqueued ++ info.reports⟩
  := by
  obtain ⟨addr, ⟨tx, rx, txPkts, rxPkts, trafficDirty⟩, ⟨hopCount, path, routingDirty⟩⟩ := info
  simp only [reportInfo, hi]
  cases trafficDirty with
  | true =>
      have hsent₁ := hsent.1 rfl
      cases routingDirty with
      | true =>
          have hsent₂ := hsent.2 rfl
          simp [sendReportToSimulator, NeighborInfo.clean, NeighborInfo.reports, hsent₁, hsent₂,
            NeighborInfo.routeReport]
      | false =>
          simp [sendReportToSimulator, NeighborInfo.clean, NeighborInfo.reports, hsent₁]
  | false =>
      cases routingDirty with
      | true =>
          have hsent₂ := hsent.2 rfl
          simp [sendReportToSimulator, NeighborInfo.clean, NeighborInfo.reports, hsent₂]
      | false => simp [NeighborInfo.clean, NeighborInfo.reports]

end ReportRun

/-- Sending the reports due for an address and clearing the marks keeps what should be true. -/
theorem Reported.clean {enqueued : List NetReport} {infos : List NeighborInfo}
    {tree : OrdMap InAddr ℕ} (h : Reported enqueued infos tree) {i : ℕ} {info : NeighborInfo}
    (hi : infos[i]? = some info) (hhops : info.routing.hopCount ≤ maxHopCount) :
  Reported (enqueued ++ info.reports) (infos.set i info.clean) tree
  := by
  have haddr : info.clean.addr = info.addr := rfl
  apply h.replace hi haddr
  · intro j
    rw [List.getElem?_set]
    by_cases hji : j = i
    · subst hji
      simp [(List.getElem?_eq_some_iff.mp hi).1]
    · have hij : ¬ i = j := fun heq => hji heq.symm
      rw [if_neg hij, if_neg hji]
  · intro addr hne
    rw [info.lastTrx_reports, info.lastRouting_reports, if_neg (fun heq => hne heq.2.symm),
      if_neg (fun heq => hne heq.2.symm)]
    exact ⟨rfl, rfl⟩
  · intro _
    cases hdirty : info.routing.dirty with
    | true =>
        have hlast : lastRouting (enqueued ++ info.reports) info.clean.addr =
            some info.routeReport := by
          rw [info.lastRouting_reports, if_pos ⟨hdirty, rfl⟩]
        rw [RouteReported, hlast]
        refine ⟨?_, rfl⟩
        apply toNat_ofNat_of_lt (Nat.lt_of_le_of_lt hhops (by decide))
    | false =>
        apply (h.routing i info hi hdirty).congr rfl ⟨rfl, rfl⟩
        rw [info.lastRouting_reports, if_neg]
        rw [hdirty]
        rintro ⟨htrue, -⟩
        contradiction
  · intro _
    cases hdirty : info.traffic.dirty with
    | true =>
        have hlast : lastTrx (enqueued ++ info.reports) info.clean.addr =
            some info.trxReport := by
          rw [info.lastTrx_reports, if_pos ⟨hdirty, rfl⟩]
        rw [TrxReported, hlast]
        exact ⟨rfl, rfl⟩
    | false =>
        apply (h.traffic i info hi hdirty).congr rfl ⟨rfl, rfl⟩
        rw [info.lastTrx_reports, if_neg]
        rw [hdirty]
        rintro ⟨htrue, -⟩
        contradiction

/-! ### Runs -/

namespace ReportRun

/-- What is kept true in a run: what is not marked has been reported, and hop counts are those of
routes that fit. -/
structure Inv (run : ReportRun) : Prop where
  reports : run.ctx.Reports run.enqueued
  hops : ∀ info ∈ run.ctx.nodeInfo, info.routing.hopCount ≤ maxHopCount

theorem hops_of_statsFit {ctx : OlsrContext} (h : ctx.statsFit = true) :
  ∀ info ∈ ctx.nodeInfo, info.routing.hopCount ≤ maxHopCount
  := by
  intro info hinfo
  rw [OlsrContext.statsFit, Bool.and_eq_true, List.all_eq_true] at h
  have hfit := h.2 info hinfo
  rw [Bool.and_eq_true, decide_eq_true_eq] at hfit
  apply hfit.1

/-- One round of the loop of `send_net_report_cb`: the index has no marks afterwards, and nothing
changes elsewhere. -/
theorem Inv.reportInfo {run : ReportRun} (h : run.Inv) {sent : ℕ → Bool × Bool}
    (htakes : run.Takes (.sendNetReportCb sent)) (i : ℕ) :
  (run.reportInfo i (sent i)).Inv ∧ (run.reportInfo i (sent i)).Takes (.sendNetReportCb sent)
  := by
  cases hi : run.ctx.nodeInfo[i]? with
  | none =>
      have hsame : run.reportInfo i (sent i) = run := by
        rw [ReportRun.reportInfo, hi]
      rw [hsame]
      exact ⟨h, htakes⟩
  | some info =>
      have hinfo := h.hops info (List.mem_of_getElem? hi)
      rw [run.reportInfo_eq hi (htakes i info hi)]
      refine ⟨⟨h.reports.clean hi hinfo, ?_⟩, ?_⟩
      · intro info' hinfo'
        rcases List.mem_or_eq_of_mem_set hinfo' with hmem | rfl
        · apply h.hops info' hmem
        · apply hinfo
      · intro j info' hj
        rw [List.getElem?_set] at hj
        split_ifs at hj with hij hlt
        · obtain rfl := Option.some.inj hj
          constructor
          · intro hdirty
            contradiction
          · intro hdirty
            contradiction
        · apply htakes j info' hj

theorem Inv.step {run run' : ReportRun} {e : ReportEvent} (h : run.Inv) (htakes : run.Takes e)
    (hstep : run.step e = some run') :
  run'.Inv
  := by
  cases e with
  | calcRoutingTable neighborTree topologyTree =>
      simp only [ReportRun.step] at hstep
      split_ifs at hstep with hfit
      obtain rfl := Option.some.inj hstep
      refine ⟨OlsrContext.calcRoutingTable_reports ?_, hops_of_statsFit hfit⟩
      apply h.reports
  | statisticsUpdate iph =>
      simp only [ReportRun.step] at hstep
      split_ifs at hstep with hfit
      obtain rfl := Option.some.inj hstep
      exact ⟨OlsrContext.statisticsUpdate_reports h.reports iph, hops_of_statsFit hfit⟩
  | sendNetReportCb sent =>
      obtain rfl := Option.some.inj hstep
      rw [ReportRun.sendNetReportCb]
      have hloop : ∀ l : List ℕ,
          (l.foldl (fun run i => run.reportInfo i (sent i)) run).Inv ∧
            (l.foldl (fun run i => run.reportInfo i (sent i)) run).Takes
              (.sendNetReportCb sent) := by
        intro l
        refine List.foldlRecOn
          (motive := fun run : ReportRun => run.Inv ∧ run.Takes (.sendNetReportCb sent)) _ _
          ⟨h, htakes⟩ ?_
        intro run' hrun' i _
        apply hrun'.1.reportInfo hrun'.2
      apply (hloop _).1

theorem init_inv (ownIp : InAddr) (now : Timespec) :
  Inv ⟨initOlsrContext ownIp now, []⟩
  := by
  refine ⟨⟨?_, ?_, ?_, ?_, ?_⟩, ?_⟩
  · intro dest i hi
    contradiction
  · intro i j info info' hi
    contradiction
  · intro addr _
    exact ⟨rfl, rfl⟩
  · intro i info hi
    contradiction
  · intro i info hi
    contradiction
  · intro info hinfo
    contradiction

/-- In every run in which the queue takes every report, what is not marked has been reported: the
last report for the address carries the current route, or there is none and the hop count is zero;
and so for the traffic counters. -/
theorem reports_not_lost {ownIp : InAddr} {now : Timespec} {run : ReportRun}
    (h : Reaches ReportRun.step ReportRun.Takes ⟨initOlsrContext ownIp now, []⟩ run)
    {info : NeighborInfo} (hinfo : info ∈ run.ctx.nodeInfo) :
  (info.routing.dirty = false → RouteReported run.enqueued info) ∧
    (info.traffic.dirty = false → TrxReported run.enqueued info)
  := by
  have hinv : run.Inv :=
    h.invariant (fun _ _ _ hs htakes hstep => hs.step htakes hstep) (init_inv ownIp now)
  obtain ⟨i, hi⟩ := List.mem_iff_getElem?.mp hinfo
  exact ⟨hinv.reports.routing i info hi, hinv.reports.traffic i info hi⟩

instance (run : ReportRun) (e : ReportEvent) : Decidable (run.Takes e) :=
  match e with
  | .calcRoutingTable _ _ => .isTrue trivial
  | .statisticsUpdate _ => .isTrue trivial
  | .sendNetReportCb sent =>
      decidable_of_iff (∀ i < run.ctx.nodeInfo.length, ∀ info ∈ run.ctx.nodeInfo[i]?,
        (info.traffic.dirty = true → (sent i).1 = true) ∧
          (info.routing.dirty = true → (sent i).2 = true)) (by
        constructor
        · intro h i info hi
          apply h i (List.getElem?_eq_some_iff.mp hi).1 info hi
        · intro h i _ info hi
          apply h i info hi)

/-- Node 2 is a symmetric neighbour. -/
def exampleNeighbors : OrdMap InAddr NeighborElem :=
  OrdMap.empty.insert (nodeIp 2) ⟨.symNeigh, willDefault, .empty⟩

/-- A packet to node 2 is counted, node 2 becomes a neighbour, and the statistics are reported
or, if `sent` is false, the queue is full. -/
def exampleEvents (sent : Bool) : List ReportEvent :=
  [.statisticsUpdate (buildIpHdr 100 64 (nodeIp 1) (nodeIp 2) ipprotoUdp),
    .calcRoutingTable exampleNeighbors .empty, .sendNetReportCb (fun _ => (sent, sent))]

/-- The statistics of node 2 after these events. -/
def exampleInfo : NeighborInfo := ⟨nodeIp 2, ⟨100, 0, 1, 0, false⟩, ⟨1, [nodeIp 2], false⟩⟩

theorem reports_not_lost_two :
  ∃ run, Reaches ReportRun.step ReportRun.Takes ⟨initOlsrContext (nodeIp 1) ⟨0, 0⟩, []⟩ run ∧
    exampleInfo ∈ run.ctx.nodeInfo ∧ RouteReported run.enqueued exampleInfo ∧
    TrxReported run.enqueued exampleInfo
  := by
  have hrun : ((exampleEvents true).foldlM
      (fun run e => if decide (run.Takes e) then run.step e else none)
      (⟨initOlsrContext (nodeIp 1) ⟨0, 0⟩, []⟩ : ReportRun)).map (fun run => run.ctx.nodeInfo) =
      some [exampleInfo] := by
    decide +kernel
  obtain ⟨run, hrun, hinfo⟩ := Option.map_eq_some_iff.mp hrun
  have hreach : Reaches ReportRun.step ReportRun.Takes ⟨initOlsrContext (nodeIp 1) ⟨0, 0⟩, []⟩
      run := Reaches.of_checked (fun _ _ hcheck => of_decide_eq_true hcheck) hrun
  have hmem : exampleInfo ∈ run.ctx.nodeInfo := by
    rw [hinfo]
    apply List.mem_singleton_self
  exact ⟨run, hreach, hmem, (reports_not_lost hreach hmem).1 rfl,
    (reports_not_lost hreach hmem).2 rfl⟩

/-- If the queue is full, the route to node 2 is neither reported nor marked. -/
theorem not_reports_not_lost :
  ¬ ∀ (ownIp : InAddr) (now : Timespec) (run : ReportRun),
    Reaches ReportRun.step (fun _ _ => True) ⟨initOlsrContext ownIp now, []⟩ run →
    ∀ info ∈ run.ctx.nodeInfo, (info.routing.dirty = false → RouteReported run.enqueued info) ∧
      (info.traffic.dirty = false → TrxReported run.enqueued info)
  := by
  intro hall
  have hrun : ((exampleEvents false).foldlM
      (fun run e => if true then run.step e else none)
      (⟨initOlsrContext (nodeIp 1) ⟨0, 0⟩, []⟩ : ReportRun)).map
      (fun run => (run.ctx.nodeInfo, run.enqueued)) = some ([exampleInfo], []) := by
    decide +kernel
  obtain ⟨run, hrun, hvalues⟩ := Option.map_eq_some_iff.mp hrun
  obtain ⟨hinfo, henqueued⟩ := Prod.mk.inj hvalues
  have hreach : Reaches ReportRun.step (fun _ _ => True)
      ⟨initOlsrContext (nodeIp 1) ⟨0, 0⟩, []⟩ run :=
    Reaches.of_checked (fun _ _ _ => trivial) hrun
  have hmem : exampleInfo ∈ run.ctx.nodeInfo := by
    rw [hinfo]
    apply List.mem_singleton_self
  have hreported := (hall (nodeIp 1) ⟨0, 0⟩ run hreach exampleInfo hmem).1 rfl
  rw [henqueued] at hreported
  contradiction

end ReportRun
