import SyNetsim.Lib.Json
import SyNetsim.Simnet.NetReport
import SyNetsim.Simulator.RemoteConf

/-!
# Reports as the frontend gets them

The way of a report from `net_report.c` over a message queue to `sim_hdlreport.c`, where it becomes
a JSON text. The nodes of a route and its target are named by the third byte of their addresses, the
peer of a traffic report by the fourth, which is 1 for every node. The counters are printed as
signed numbers.

So a traffic report is read as it was meant for node 1 only, with counters below `2 ^ 31`
(`namesNodes_iff`).
-/

/-! ### Messages -/

/-- A message in the queue to the simulator. -/
structure MqMsgbuf where
  type : ℤ
  text : List Byte
deriving DecidableEq

/-- `REPORT_MSG_NET_TRX`. -/
def reportMsgNetTrx : ℤ := 1

/-- `REPORT_MSG_NET_ROUTING`. -/
def reportMsgNetRouting : ℤ := 3

/-- The bytes of a report of traffic. -/
def NetTrxReport.toBytes (report : NetTrxReport) : List Byte :=
  le32 report.peerAddr ++ (le32 report.tx ++ le32 report.rx)

/-- The bytes of a report of a route. -/
def NetRoutingReport.toBytes (report : NetRoutingReport) : List Byte :=
  le16 report.visitNum ++ (le16 report.target ++ report.path.flatMap le32)

/-- `send_traffic_report`. -/
def sendTrafficReport (info : NeighborInfo) : MqMsgbuf :=
  ⟨reportMsgNetTrx, info.trxReport.toBytes⟩

/-- The size of the array `msgbuf` in `send_route_report`. -/
def msgbufSize : ℕ := 300

/-- `send_route_report`. It gives `none` if the route does not fit into `path`, or the report into
`msgbuf`. -/
def sendRouteReport (info : NeighborInfo) : Option MqMsgbuf :=
  if info.routing.hopCount ≤ maxHopCount ∧ info.routeReport.toBytes.length ≤ msgbufSize then
    some ⟨reportMsgNetRouting, info.routeReport.toBytes⟩
  else none

/-! ### Texts -/

/-- `sprintf` with the conversions `%d` and `%u`, for arguments of type `int` or `unsigned int`. -/
def sprintf : List Char → List (BitVec 32) → List Char
  | '%' :: 'd' :: format, arg :: args => Json.decimal arg.toInt ++ sprintf format args
  | '%' :: 'u' :: format, arg :: args => Json.decimal arg.toNat ++ sprintf format args
  | c :: format, args => c :: sprintf format args
  | [], _ => []

/-- The format of a report of traffic. -/
def trxFormat : List Char :=
  "\x7b\"type\": \"TRx\", \"node\": %d, \"peer\": %u,\"tx\": %d, \"rx\": %d\x7d".toList

/-- The format of a report of a route, up to the route. -/
def routeFormat : List Char :=
  "\x7b\"type\": \"Route\", \"node\": %d, \"target\": %d,".toList ++
    "\"hopcount\": %d, \"path\" : [".toList

/-- The size of the arrays `trx_report_json_buf` and `route_report_json_buf`. -/
def jsonBufSize : ℕ := 1024

/-- The text of a report, which needs room for a null character behind it. -/
def intoJsonBuf (json : List Char) : Option (List Char) :=
  if json.length < jsonBufSize then some json else none

/-- `process_net_trx_report`, up to `send_json_to_front`. -/
def processNetTrxReport (reportNode : ℤ) (data : List Byte) : Option (List Char) := do
  let peerAddr ← le32At data 0
  let tx ← le32At data 4
  let rx ← le32At data 8
  intoJsonBuf (sprintf trxFormat
    [.ofInt 32 reportNode, (peerAddr.extractLsb' 24 8).setWidth 32, tx, rx])

/-- The body of the loop of `process_net_route_report`. -/
def printHop (data : List Byte) (visitNum : ℕ) (text : List Char) (i : ℕ) :
    Option (List Char) := do
  let hop ← le32At data (4 + 4 * i)
  let text := text ++ sprintf "%u".toList [(hop.extractLsb' 16 8).setWidth 32]
  return if i ≠ visitNum - 1 then text ++ sprintf ", ".toList [] else text

/-- `process_net_route_report`, up to `send_json_to_front`. -/
def processNetRouteReport (reportNode : ℤ) (data : List Byte) : Option (List Char) := do
  let visitNum ← le16At data 0
  let target ← le16At data 2
  let text := sprintf routeFormat
    [.ofInt 32 reportNode, target.setWidth 32, visitNum.setWidth 32]
  let text ← (List.range visitNum.toNat).foldlM (printHop data visitNum.toNat) text
  intoJsonBuf (text ++ sprintf "]\x7d".toList [])

/-- `handle_net_report`, with the text given to `send_json_to_front`, if there is one. -/
def handleNetReport (reportNode : ℤ) (msg : MqMsgbuf) : Option (Option (List Char)) :=
  if msg.type = reportMsgNetTrx then (processNetTrxReport reportNode msg.text).map some
  else if msg.type = reportMsgNetRouting then
    (processNetRouteReport reportNode msg.text).map some
  else some none

/-! ### What the texts should say -/

/-- A report of the node `node` on its traffic with the node `peer`. -/
def trxJson (node : ℕ) (peer : BitVec 8) (tx rx : BitVec 32) : Json :=
  .obj [("type".toList, .str "TRx".toList), ("node".toList, .num node),
    ("peer".toList, .num peer.toNat), ("tx".toList, .num tx.toNat),
    ("rx".toList, .num rx.toNat)]

/-- A report of the node `node` on its route to the node `target`. -/
def routeJson (node : ℕ) (target : BitVec 8) (route : List (BitVec 8)) : Json :=
  .obj [("type".toList, .str "Route".toList), ("node".toList, .num node),
    ("target".toList, .num target.toNat), ("hopcount".toList, .num route.length),
    ("path".toList, .arr (route.map (fun hop => .num hop.toNat)))]

/-- The texts that come of the reports of `node` on the node `n`, with statistics `info` and the
nodes `route` on the way, say what they should. -/
def NamesNodes (node : ℕ) (n : BitVec 8) (info : NeighborInfo) (route : List (BitVec 8)) : Prop :=
  (∃ text, handleNetReport node (sendTrafficReport info) = some (some text) ∧
    Json.parse text = some (trxJson node n info.traffic.txBytes info.traffic.rxBytes)) ∧
  ∃ msg text, sendRouteReport info = some msg ∧
    handleNetReport node msg = some (some text) ∧
    Json.parse text = some (routeJson node n route)

/-! ### What is printed -/

/-- Every conversion prints at most eleven characters. -/
theorem length_sprintf_le (format : List Char) (args : List (BitVec 32)) :
  (sprintf format args).length ≤ format.length + 9 * args.length
  := by
  induction format, args using sprintf.induct with
  | case1 format arg args ih =>
      have hdecimal : (Json.decimal arg.toInt).length ≤ 10 + 1 :=
        Json.length_decimal_le (by decide) (by have := arg.toInt_lt; have := arg.le_toInt; omega)
      simp only [sprintf, List.length_append, List.length_cons]
      omega
  | case2 format arg args ih =>
      have hdecimal : (Json.decimal arg.toNat).length ≤ 10 + 1 :=
        Json.length_decimal_le (by decide) (by have := arg.isLt; omega)
      simp only [sprintf, List.length_append, List.length_cons]
      omega
  | case3 args c format hd hu ih =>
      rw [sprintf]
      · simp only [List.length_cons]
        omega
      · apply hd
      · apply hu
  | case4 args => simp [sprintf]

/-- The report of traffic, read as JSON. -/
theorem reads_trxFormat (reportNode peer tx rx : BitVec 32) :
  Json.Reads (sprintf trxFormat [reportNode, peer, tx, rx])
    (.obj [("type".toList, .str "TRx".toList), ("node".toList, .num reportNode.toInt),
      ("peer".toList, .num peer.toNat), ("tx".toList, .num tx.toInt),
      ("rx".toList, .num rx.toInt)])
  := by
  have htext : sprintf trxFormat [reportNode, peer, tx, rx] =
      '\x7b' :: (Json.member "type".toList 0 (' ' :: '"' :: ("TRx".toList ++ ['"'])) ++
        ',' :: ' ' :: (Json.member "node".toList 0 (' ' :: Json.decimal reportNode.toInt) ++
        ',' :: ' ' :: (Json.member "peer".toList 0 (' ' :: Json.decimal peer.toNat) ++
        ',' :: (Json.member "tx".toList 0 (' ' :: Json.decimal tx.toInt) ++
        ',' :: ' ' :: Json.member "rx".toList 0 (' ' :: Json.decimal rx.toInt)))) ++
        ['\x7d']) := by
    simp only [Json.member, List.replicate_zero, List.nil_append, List.append_assoc,
      List.cons_append]
    rfl
  rw [htext]
  apply Json.ReadsMembers.obj
  refine Json.ReadsMembers.cons ?_ rfl 0 (Json.reads_string rfl).space
  apply Json.ReadsMembers.space
  refine Json.ReadsMembers.cons ?_ rfl 0 (Json.reads_decimal _).space
  apply Json.ReadsMembers.space
  refine Json.ReadsMembers.cons ?_ rfl 0 (Json.reads_decimal _).space
  refine Json.ReadsMembers.cons ?_ rfl 0 (Json.reads_decimal _).space
  apply Json.ReadsMembers.space
  apply Json.Reads.member rfl 0 (Json.reads_decimal _).space

/-- The numbers of the nodes on a route, as they are printed. -/
def hopsText : List (BitVec 8) → List Char
  | [] => []
  | [hop] => Json.decimal hop.toNat
  | hop :: hops => Json.decimal hop.toNat ++ ',' :: ' ' :: hopsText hops

theorem length_hopsText_le (route : List (BitVec 8)) :
  (hopsText route).length ≤ 6 * route.length
  := by
  have hdecimal : ∀ hop : BitVec 8, (Json.decimal hop.toNat).length ≤ 3 + 1 := by
    intro hop
    apply Json.length_decimal_le (by decide)
    have hlt := hop.isLt
    omega
  induction route using hopsText.induct with
  | case1 => rfl
  | case2 hop =>
      have hhop := hdecimal hop
      rw [hopsText, List.length_singleton]
      omega
  | case3 hop hops hne ih =>
      have hhop := hdecimal hop
      rw [hopsText]
      · simp only [List.length_append, List.length_cons]
        omega
      · apply hne

theorem reads_hops (route : List (BitVec 8)) :
  Json.Reads ('[' :: (hopsText route ++ [']'])) (.arr (route.map (fun hop => .num hop.toNat)))
  := by
  cases route with
  | nil => apply Json.reads_arr_nil
  | cons hop hops =>
      apply Json.ReadsElems.arr
      induction hops generalizing hop with
      | nil => apply (Json.reads_decimal _).elem
      | cons hop' hops ih =>
          rw [hopsText, List.map_cons]
          · apply Json.ReadsElems.cons _ (Json.reads_decimal _)
            apply Json.ReadsElems.space (ih hop')
          · simp

/-- The report of a route, read as JSON. -/
theorem reads_routeFormat (reportNode target visitNum : BitVec 32) (route : List (BitVec 8)) :
  Json.Reads (sprintf routeFormat [reportNode, target, visitNum] ++ hopsText route ++
      sprintf "]\x7d".toList [])
    (.obj [("type".toList, .str "Route".toList), ("node".toList, .num reportNode.toInt),
      ("target".toList, .num target.toInt), ("hopcount".toList, .num visitNum.toInt),
      ("path".toList, .arr (route.map (fun hop => .num hop.toNat)))])
  := by
  have htext : sprintf routeFormat [reportNode, target, visitNum] ++ hopsText route ++
      sprintf "]\x7d".toList [] =
      '\x7b' :: (Json.member "type".toList 0 (' ' :: '"' :: ("Route".toList ++ ['"'])) ++
        ',' :: ' ' :: (Json.member "node".toList 0 (' ' :: Json.decimal reportNode.toInt) ++
        ',' :: ' ' :: (Json.member "target".toList 0 (' ' :: Json.decimal target.toInt) ++
        ',' :: (Json.member "hopcount".toList 0 (' ' :: Json.decimal visitNum.toInt) ++
        ',' :: ' ' :: Json.member "path".toList 1 (' ' :: '[' :: (hopsText route ++ [']']))))) ++
        ['\x7d']) := by
    have hformat : sprintf routeFormat [reportNode, target, visitNum] =
        '\x7b' :: (Json.member "type".toList 0 (' ' :: '"' :: ("Route".toList ++ ['"'])) ++
          ',' :: ' ' :: (Json.member "node".toList 0 (' ' :: Json.decimal reportNode.toInt) ++
          ',' :: ' ' :: (Json.member "target".toList 0 (' ' :: Json.decimal target.toInt) ++
          ',' :: (Json.member "hopcount".toList 0 (' ' :: Json.decimal visitNum.toInt) ++
          ',' :: ' ' :: Json.member "path".toList 1 [' ', '['])))) := by
      simp only [Json.member, List.replicate_zero, List.nil_append, List.append_assoc,
        List.cons_append]
      rfl
    have hend : sprintf "]\x7d".toList [] = [']', '\x7d'] := by rfl
    rw [hformat, hend]
    simp only [Json.member, List.append_assoc, List.cons_append, List.nil_append]
  rw [htext]
  apply Json.ReadsMembers.obj
  refine Json.ReadsMembers.cons ?_ rfl 0 (Json.reads_string rfl).space
  apply Json.ReadsMembers.space
  refine Json.ReadsMembers.cons ?_ rfl 0 (Json.reads_decimal _).space
  apply Json.ReadsMembers.space
  refine Json.ReadsMembers.cons ?_ rfl 0 (Json.reads_decimal _).space
  refine Json.ReadsMembers.cons ?_ rfl 0 (Json.reads_decimal _).space
  apply Json.ReadsMembers.space
  apply Json.Reads.member rfl 1 (reads_hops route).space

/-! ### What is sent -/

theorem length_flatMap_le32 (addrs : List InAddr) :
  (addrs.flatMap le32).length = 4 * addrs.length
  := by
  induction addrs with
  | nil => rfl
  | cons addr addrs ih =>
      rw [List.flatMap_cons, List.length_append, ih, length_le32, List.length_cons]
      omega

/-- The loop of `process_net_route_report` prints the hops that are left. -/
theorem foldlM_printHop (front : List Byte) (hfront : front.length = 4) (left : List (BitVec 8))
    (done : List (BitVec 8)) (text : List Char) :
  (List.range' done.length left.length).foldlM
      (printHop (front ++ ((done ++ left).map nodeIp).flatMap le32) (done ++ left).length) text =
    some (text ++ hopsText left)
  := by
  induction left generalizing done text with
  | nil => rw [List.length_nil, List.range'_zero, List.foldlM_nil, hopsText, List.append_nil]; rfl
  | cons hop left ih =>
      have hdata : front ++ ((done ++ hop :: left).map nodeIp).flatMap le32 =
          (front ++ (done.map nodeIp).flatMap le32) ++
            (le32 (nodeIp hop) ++ (left.map nodeIp).flatMap le32) := by
        simp
      have hlength : (front ++ (done.map nodeIp).flatMap le32).length = 4 + 4 * done.length := by
        rw [List.length_append, hfront, length_flatMap_le32, List.length_map]
      have haddr : le32At (front ++ ((done ++ hop :: left).map nodeIp).flatMap le32)
          (4 + 4 * done.length) = some (nodeIp hop) := by
        rw [hdata, ← hlength]
        apply le32At_append
      have hprint : printHop (front ++ ((done ++ hop :: left).map nodeIp).flatMap le32)
          (done ++ hop :: left).length text done.length =
          some (text ++ Json.decimal hop.toNat ++ if left = [] then [] else [',', ' ']) := by
        have hwidth : (hop.setWidth 32).toNat = hop.toNat :=
          BitVec.toNat_setWidth_of_le (by decide)
        have hnumber : sprintf "%u".toList [hop.setWidth 32] = Json.decimal hop.toNat ++ [] := by
          rw [← hwidth]
          rfl
        have hcomma : sprintf ", ".toList [] = [',', ' '] := by rfl
        have hlast : done.length ≠ (done ++ hop :: left).length - 1 ↔ left ≠ [] := by
          rw [List.length_append, List.length_cons, ← List.length_pos_iff]
          omega
        simp only [printHop, haddr, Option.bind_eq_bind, Option.bind_some, extractLsb_nodeIp,
          hnumber, hcomma, List.append_nil, hlast]
        by_cases hleft : left = []
        · simp [hleft]
        · simp [hleft]
      have hrest := ih (done ++ [hop])
        (text ++ Json.decimal hop.toNat ++ if left = [] then [] else [',', ' '])
      have happend : done ++ [hop] ++ left = done ++ hop :: left := by
        rw [List.append_assoc, List.singleton_append]
      have hlengths : (done ++ [hop]).length = done.length + 1 := by
        rw [List.length_append, List.length_singleton]
      rw [happend, hlengths] at hrest
      rw [List.length_cons, List.range'_succ, List.foldlM_cons, hprint, Option.bind_eq_bind,
        Option.bind_some, hrest]
      cases left with
      | nil => simp [hopsText]
      | cons hop' left => simp [hopsText]

theorem intoJsonBuf_eq {json : List Char} (h : json.length < jsonBufSize) :
  intoJsonBuf json = some json
  := if_pos h

/-- What becomes of a report of traffic. The peer is named by the last byte of its address. -/
theorem handleNetReport_sendTrafficReport (reportNode : ℤ) (info : NeighborInfo) :
  handleNetReport reportNode (sendTrafficReport info) =
    some (some (sprintf trxFormat [.ofInt 32 reportNode,
      (info.addr.extractLsb' 24 8).setWidth 32, info.traffic.txBytes, info.traffic.rxBytes]))
  := by
  have haddr : le32At (le32 info.addr ++ (le32 info.traffic.txBytes ++
      le32 info.traffic.rxBytes)) 0 = some info.addr := by
    apply le32At_append []
  have htx : le32At (le32 info.addr ++ (le32 info.traffic.txBytes ++ le32 info.traffic.rxBytes)) 4 =
      some info.traffic.txBytes := by
    apply le32At_append (le32 info.addr)
  have hrx : le32At (le32 info.addr ++ (le32 info.traffic.txBytes ++ le32 info.traffic.rxBytes)) 8 =
      some info.traffic.rxBytes := by
    rw [← List.append_assoc]
    apply le32At_append (le32 info.addr ++ le32 info.traffic.txBytes) []
  have hfits : (sprintf trxFormat [.ofInt 32 reportNode,
      (info.addr.extractLsb' 24 8).setWidth 32, info.traffic.txBytes,
      info.traffic.rxBytes]).length < jsonBufSize := by
    have hformat : trxFormat.length + 9 * 4 < jsonBufSize := by
      decide
    apply Nat.lt_of_le_of_lt (length_sprintf_le _ _) hformat
  rw [handleNetReport, sendTrafficReport, if_pos rfl, NetTrxReport.toBytes,
    NeighborInfo.trxReport, processNetTrxReport, haddr, htx, hrx]
  simp only [Option.bind_eq_bind, Option.bind_some, intoJsonBuf_eq hfits, Option.map_some]

/-- What becomes of a report of a route. Its nodes are named by the third byte of their
addresses. -/
theorem handleNetReport_sendRouteReport (reportNode : ℤ) {n : BitVec 8} {info : NeighborInfo}
    {route : List (BitVec 8)} (haddr : info.addr = nodeIp n)
    (hroute : info.routing.path.take info.routing.hopCount = route.map nodeIp)
    (hhops : info.routing.hopCount = route.length) (hmax : info.routing.hopCount ≤ maxHopCount) :
  ∃ msg, sendRouteReport info = some msg ∧
    handleNetReport reportNode msg = some (some (sprintf routeFormat [.ofInt 32 reportNode,
      (n.setWidth 16).setWidth 32, (BitVec.ofNat 16 route.length).setWidth 32] ++
      hopsText route ++ sprintf "]\x7d".toList []))
  := by
  have hfew : route.length ≤ 50 := hhops ▸ hmax
  have hbytes : info.routeReport.toBytes = le16 (.ofNat 16 route.length) ++
      (le16 (n.setWidth 16) ++ (route.map nodeIp).flatMap le32) := by
    rw [NetRoutingReport.toBytes, NeighborInfo.routeReport, hroute, hhops, haddr,
      extractLsb_nodeIp]
  have hlength : info.routeReport.toBytes.length ≤ msgbufSize := by
    rw [hbytes, List.length_append, List.length_append, length_flatMap_le32, List.length_map,
      length_le16, length_le16, msgbufSize]
    omega
  refine ⟨_, if_pos ⟨hmax, hlength⟩, ?_⟩
  have hvisit : le16At info.routeReport.toBytes 0 = some (.ofNat 16 route.length) := by
    rw [hbytes]
    apply le16At_append []
  have htarget : le16At info.routeReport.toBytes 2 = some (n.setWidth 16) := by
    rw [hbytes]
    apply le16At_append (le16 (.ofNat 16 route.length))
  have hcount : (BitVec.ofNat 16 route.length).toNat = route.length :=
    toNat_ofNat_of_lt (by omega)
  have hloop := foldlM_printHop (le16 (.ofNat 16 route.length) ++ le16 (n.setWidth 16)) rfl
    route [] (sprintf routeFormat [.ofInt 32 reportNode, (n.setWidth 16).setWidth 32,
      (BitVec.ofNat 16 route.length).setWidth 32])
  rw [List.append_assoc, List.nil_append, ← hbytes, List.length_nil, ← List.range_eq_range']
    at hloop
  have hfits : (sprintf routeFormat [.ofInt 32 reportNode, (n.setWidth 16).setWidth 32,
      (BitVec.ofNat 16 route.length).setWidth 32] ++ hopsText route ++
      sprintf "]\x7d".toList []).length < jsonBufSize := by
    have hformat : routeFormat.length + 9 * 3 + 6 * 50 + ("]\x7d".toList.length + 9 * 0) <
        jsonBufSize := by
      decide
    have hheader := length_sprintf_le routeFormat [.ofInt 32 reportNode,
      (n.setWidth 16).setWidth 32, (BitVec.ofNat 16 route.length).setWidth 32]
    have hend := length_sprintf_le "]\x7d".toList []
    have hhopsText := length_hopsText_le route
    rw [List.length_append, List.length_append]
    simp only [List.length_cons, List.length_nil] at hheader hend
    omega
  have hother : ¬ reportMsgNetRouting = reportMsgNetTrx := by
    decide
  rw [handleNetReport, if_neg hother, if_pos rfl, processNetRouteReport, hvisit, htarget]
  simp only [Option.bind_eq_bind, Option.bind_some, hcount, hloop, intoJsonBuf_eq hfits,
    Option.map_some]

/-! ### The condition -/

/-- The last byte of the address of a node. -/
theorem extractLsb_nodeIp_last :
  ∀ nodeId : BitVec 8, (nodeIp nodeId).extractLsb' 24 8 = 1
  := by decide +kernel

/-- An unsigned number is the same as a signed one exactly when its sign bit is not set. -/
theorem toInt_eq_toNat_iff {v : BitVec 32} :
  v.toInt = v.toNat ↔ v.toNat < 2 ^ 31
  := by
  rw [BitVec.toInt_eq_toNat_cond]
  split_ifs with hlt
  · simp only [true_iff]
    omega
  · omega

theorem toInt_ofInt_node {node : ℕ} (hnode : node < maxNodeId) :
  (BitVec.ofInt 32 node).toInt = node
  := by
  have hlt : node < 128 := hnode
  have htoNat : (BitVec.ofNat 32 node).toNat = node := toNat_ofNat_of_lt (by omega)
  rw [BitVec.ofInt_natCast, toInt_eq_toNat_iff.mpr, htoNat]
  rw [htoNat]
  omega

/-- The text that comes of a report of traffic says what it should exactly when the node is 1 and
the counters are no negative numbers. -/
theorem parse_trxJson_iff {node : ℕ} (hnode : node < maxNodeId) {n : BitVec 8}
    {info : NeighborInfo} (haddr : info.addr = nodeIp n) :
  (∃ text, handleNetReport node (sendTrafficReport info) = some (some text) ∧
    Json.parse text = some (trxJson node n info.traffic.txBytes info.traffic.rxBytes)) ↔
    n = 1 ∧ info.traffic.txBytes.toNat < 2 ^ 31 ∧ info.traffic.rxBytes.toNat < 2 ^ 31
  := by
  have hread := (reads_trxFormat (.ofInt 32 node) ((info.addr.extractLsb' 24 8).setWidth 32)
    info.traffic.txBytes info.traffic.rxBytes).parse
  have hpeer : ((info.addr.extractLsb' 24 8).setWidth 32).toNat = 1 := by
    rw [haddr, extractLsb_nodeIp_last]
    rfl
  rw [handleNetReport_sendTrafficReport]
  simp only [Option.some.injEq, exists_eq_left', hread, hpeer, toInt_ofInt_node hnode, trxJson,
    Json.obj.injEq, List.cons.injEq, Prod.mk.injEq, Json.num.injEq, true_and, and_true,
    toInt_eq_toNat_iff]
  have hone : ((1 : ℕ) : ℤ) = n.toNat ↔ n = 1 := by
    rw [Int.natCast_inj, eq_comm, ← BitVec.toNat_inj]
    rfl
  rw [hone]

/-- The text that comes of a report of a route says what it should. -/
theorem parse_routeJson {node : ℕ} (hnode : node < maxNodeId) {n : BitVec 8} {info : NeighborInfo}
    {route : List (BitVec 8)} (haddr : info.addr = nodeIp n)
    (hroute : info.routing.path.take info.routing.hopCount = route.map nodeIp)
    (hhops : info.routing.hopCount = route.length) (hmax : info.routing.hopCount ≤ maxHopCount) :
  ∃ msg text, sendRouteReport info = some msg ∧ handleNetReport node msg = some (some text) ∧
    Json.parse text = some (routeJson node n route)
  := by
  obtain ⟨msg, hmsg, htext⟩ :=
    handleNetReport_sendRouteReport node haddr hroute hhops hmax
  refine ⟨msg, _, hmsg, htext, ?_⟩
  have hwiden : ∀ v : BitVec 16, (v.setWidth 32).toInt = v.toNat := by
    intro v
    have hwidth : (v.setWidth 32).toNat = v.toNat := BitVec.toNat_setWidth_of_le (by decide)
    have hlt := v.isLt
    rw [toInt_eq_toNat_iff.mpr, hwidth]
    rw [hwidth]
    omega
  have htarget : (n.setWidth 16).toNat = n.toNat := BitVec.toNat_setWidth_of_le (by decide)
  have hcount : (BitVec.ofNat 16 route.length).toNat = route.length := by
    have hfew : route.length ≤ 50 := hhops ▸ hmax
    apply toNat_ofNat_of_lt
    omega
  rw [(reads_routeFormat _ _ _ route).parse, hwiden, hwiden, htarget, hcount,
    toInt_ofInt_node hnode]
  rfl

/-- For every node, every statistics of a node `n` and every route over nodes that fits into its
array, the texts say what they should exactly when `n` is 1 and the counters are below `2 ^ 31`. -/
theorem namesNodes_iff {node : ℕ} (hnode : node < maxNodeId) {n : BitVec 8} {info : NeighborInfo}
    {route : List (BitVec 8)} (haddr : info.addr = nodeIp n)
    (hroute : info.routing.path.take info.routing.hopCount = route.map nodeIp)
    (hhops : info.routing.hopCount = route.length) (hmax : info.routing.hopCount ≤ maxHopCount) :
  NamesNodes node n info route ↔
    n = 1 ∧ info.traffic.txBytes.toNat < 2 ^ 31 ∧ info.traffic.rxBytes.toNat < 2 ^ 31
  := by
  rw [NamesNodes, parse_trxJson_iff hnode haddr]
  apply and_iff_left
  apply parse_routeJson hnode haddr hroute hhops hmax

/-- Statistics of node 1, reached over node 3. -/
def viaThree : NeighborInfo where
  addr := nodeIp 1
  traffic := ⟨1500, 40, 3, 1, true⟩
  routing := ⟨2, [nodeIp 3, nodeIp 1, nodeIp 7], true⟩

theorem namesNodes_via_three :
  NamesNodes 0 1 viaThree [3, 1]
  := by
  apply (namesNodes_iff (by decide) rfl (by decide) rfl (by decide)).mpr
  decide

/-- The peer of a report on node 2 is 1. -/
theorem not_namesNodes :
  ¬ ∀ node < maxNodeId, ∀ (n : BitVec 8) (info : NeighborInfo) (route : List (BitVec 8)),
    info.addr = nodeIp n →
    info.routing.path.take info.routing.hopCount = route.map nodeIp →
    info.routing.hopCount = route.length → info.routing.hopCount ≤ maxHopCount →
    NamesNodes node n info route
  := by
  intro hall
  obtain ⟨htrx, -⟩ := hall 0 (by decide) 2 (NeighborInfo.zero (nodeIp 2)) [] rfl rfl rfl (by decide)
  obtain ⟨hone, -⟩ := (parse_trxJson_iff (by decide) rfl).mp htrx
  apply absurd hone
  decide
