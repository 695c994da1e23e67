import SyNetsim.Lib.Bfs
import SyNetsim.Olsr.Proto
import SyNetsim.Timerqueue

/-!
# The context of a node

The tables of `olsr_context.h`. Each tree of the source is an ordered map from the keys of
its elements, and an element is kept without the key it is found under. A tree orders its
keys as `rbtree_compare_by_inetaddr` does on addresses less than `2 ^ 31` apart, such as
those of the nodes, `192.168.n.1`.

An element with an expiry timer is allocated with a number (`id`), so that a pointer to it,
which a timer holds as its argument, tells it apart from a later element under the same key.
A pointer is the key together with the number (`Ptr`); following it finds the element, or
gives `none` once the element has been freed. An MPR selector is kept apart from its tree,
since `populate_linkset` looks for it under one address and enters it under another, so that
an element can stay out of the tree.

Two fields stand for the world outside: `clock` is the time `clock_gettime` reads, and
`sent` are the packets given to `send_remote` so far.
-/

/-! ### Table elements -/

/-- A pointer to a table element: the key of the element and the number it was allocated
with. -/
@[ext]
structure Ptr (α : Type) where
  key : α
  id : ℕ
deriving DecidableEq

/-- A link to a neighbour. -/
structure LinkElem where
  id : ℕ
  localIfaceAddr : InAddr
  status : LinkStatus
  symTimer : Option ℕ
  asymTimer : Option ℕ
  expireTimer : Option ℕ
deriving DecidableEq

/-- A local interface, with its links by the address of the neighbour. -/
structure LocalNetIfaceElem where
  ifaceLinkTree : OrdMap InAddr LinkElem
deriving DecidableEq

/-- A two-hop neighbour, reached over the neighbour `bridgeAddr`. -/
structure Neighbor2Elem where
  id : ℕ
  bridgeAddr : InAddr
  expireTimer : ℕ
deriving DecidableEq

/-- A neighbour, with the two-hop neighbours it has announced. -/
structure NeighborElem where
  status : NeighborStatus
  willingness : BitVec 8
  neighbor2Tree : OrdMap InAddr Neighbor2Elem
deriving DecidableEq

/-- A neighbour that has chosen this node as an MPR. -/
structure MprSelectorElem where
  selectorAddr : InAddr
  expireTimer : ℕ
deriving DecidableEq

/-- The marks of a neighbour advertised in a TC. -/
structure AdvertisedNeighElem where
  obsolete : Bool
  duplicated : Bool
deriving DecidableEq

/-- What the TCs of one originator have advertised. -/
structure TopologyInfoElem where
  id : ℕ
  seq : BitVec 16
  anTree : OrdMap InAddr AdvertisedNeighElem
  expireTimer : ℕ
deriving DecidableEq

/-- The originator and sequence number of a message. -/
@[ext]
structure DuplicateSetKey where
  orig : InAddr
  seq : BitVec 16
deriving DecidableEq

/-- A key as a pair, ordered lexicographically. -/
def DuplicateSetKey.toPair (k : DuplicateSetKey) : InAddr ×ₗ BitVec 16 := toLex (k.orig, k.seq)

theorem DuplicateSetKey.toPair_injective :
  Function.Injective DuplicateSetKey.toPair
  := by
  intro k k' h
  simp only [toPair, EmbeddingLike.apply_eq_iff_eq, Prod.mk.injEq] at h
  apply DuplicateSetKey.ext h.1 h.2

/-- Keys are ordered by originator, then by sequence number. -/
instance : LinearOrder DuplicateSetKey :=
  LinearOrder.lift' DuplicateSetKey.toPair DuplicateSetKey.toPair_injective

/-- A message seen, and whether it was retransmitted. -/
structure DuplicateSetElem where
  id : ℕ
  retransmitted : Bool
  ifaceAddrList : List InAddr
  expireTimer : ℕ
deriving DecidableEq

/-- A destination of the routing table, with its hop count and route. -/
abbrev RoutingEntry : Type := Bfs.Entry InAddr

/-! ### Statistics -/

/-- Traffic counters of a node. -/
structure TrafficCountInfo where
  txBytes : BitVec 32
  rxBytes : BitVec 32
  txPkts : BitVec 32
  rxPkts : BitVec 32
  dirty : Bool
deriving DecidableEq

/-- The route reported for a node. Elements of `path` beyond `hopCount` are left over from
longer routes. -/
structure RoutingInfo where
  hopCount : ℕ
  path : List InAddr
  dirty : Bool
deriving DecidableEq

/-- The statistics of a node. -/
structure NeighborInfo where
  addr : InAddr
  traffic : TrafficCountInfo
  routing : RoutingInfo
deriving DecidableEq

/-- Statistics with all counters zero. -/
def NeighborInfo.zero (addr : InAddr) : NeighborInfo where
  addr := addr
  traffic := ⟨0, 0, 0, 0, false⟩
  routing := ⟨0, [], false⟩

/-! ### Callbacks -/

/-- The callbacks of the timers of a node, with their arguments. -/
inductive Callback where
  /-- `link_timer_expire`, for the link of an interface to a neighbour. -/
  | linkTimerExpire (arg : Ptr (InAddr × InAddr))
  /-- `neigh2_elem_expire`, for a two-hop neighbour of a neighbour. -/
  | neigh2ElemExpire (arg : Ptr (InAddr × InAddr))
  /-- `topology_info_timer_expire_cb`. -/
  | topologyInfoTimerExpireCb (arg : Ptr InAddr)
  /-- `expire_dup_entry_cb`. -/
  | expireDupEntryCb (arg : Ptr DuplicateSetKey)
  /-- `mpr_selector_expire`, for an element of `selectorElems`. -/
  | mprSelectorExpire (arg : ℕ)
  | olsrHelloTimerCb
  | olsrTcTimerCb
  | olsrSendFromQueueCb
  | dumpDebuginfoCb
deriving DecidableEq

/-! ### The context -/

/-- The parameters of a node. -/
structure OlsrParam where
  helloIntervalMs : ℕ
  tcIntervalMs : ℕ
  willingness : BitVec 8
deriving DecidableEq

/-- `init_olsr_param`. -/
def initOlsrParam : OlsrParam where
  helloIntervalMs := defHelloIntervalMs
  tcIntervalMs := defTcIntervalMs
  willingness := willDefault

/-- A packet of messages given to `send_remote`. -/
structure OlsrPacket where
  src : InAddr
  seq : BitVec 16
  msgs : List OlsrMsg
deriving DecidableEq

/-- The state of a node. -/
structure OlsrContext where
  ownIp : InAddr
  param : OlsrParam
  timerqueue : TimerqueueContext Callback
  /-- The messages waiting in the ring buffer `olsr_tx_msgbuf`, first pushed first. -/
  olsrTxMsgbuf : List OlsrMsg
  msgSeq : BitVec 16
  ansn : BitVec 16
  /-- The array `node_info` of the statistics, up to `node_stats_num`. -/
  nodeInfo : List NeighborInfo
  /-- For each address, the index of its statistics. -/
  nodeStatTree : OrdMap InAddr ℕ
  localIfaceTree : OrdMap InAddr LocalNetIfaceElem
  neighborTree : OrdMap InAddr NeighborElem
  mprTree : OrdMap InAddr Unit
  /-- The elements allocated for MPR selectors, by number. -/
  selectorElems : OrdMap ℕ MprSelectorElem
  /-- The tree of MPR selectors, of numbers of elements. -/
  selectorTree : OrdMap InAddr ℕ
  topologyTree : OrdMap InAddr TopologyInfoElem
  dupTree : OrdMap DuplicateSetKey DuplicateSetElem
  routingTable : OrdMap InAddr RoutingEntry
  /-- The time the clock reads. -/
  clock : Timespec
  /-- The number of the next element allocated. -/
  nextId : ℕ
  /-- The packets given to `send_remote`. -/
  sent : List OlsrPacket

/-- `init_olsr_context`. -/
def initOlsrContext (ownIp : InAddr) (now : Timespec) : OlsrContext where
  ownIp := ownIp
  param := initOlsrParam
  timerqueue := createTimerqueue
  olsrTxMsgbuf := []
  msgSeq := 0
  ansn := 0
  nodeInfo := []
  nodeStatTree := .empty
  localIfaceTree := .empty
  neighborTree := .empty
  mprTree := .empty
  selectorElems := .empty
  selectorTree := .empty
  topologyTree := .empty
  dupTree := .empty
  routingTable := .empty
  clock := now
  nextId := 0
  sent := []

namespace OlsrContext

/-- The link of a local interface to a neighbour. -/
def searchLink (ctx : OlsrContext) (iface addr : InAddr) : Option LinkElem := do
  let ielem ← ctx.localIfaceTree.search iface
  ielem.ifaceLinkTree.search addr

/-- The two-hop neighbour `n2addr` announced by the neighbour `addr`. -/
def searchNeigh2 (ctx : OlsrContext) (addr n2addr : InAddr) : Option Neighbor2Elem := do
  let neigh ← ctx.neighborTree.search addr
  neigh.neighbor2Tree.search n2addr

/-- `get_neighborstat_buf`: the index of the statistics of `dest`, made if there are none. -/
def getNeighborstatBuf (ctx : OlsrContext) (dest : InAddr) : ℕ × OlsrContext :=
  match ctx.nodeStatTree.search dest with
  | some i => (i, ctx)
  | none =>
      match ctx.nodeInfo.findIdx? (fun info => info.addr = dest) with
      | some i => (i, { ctx with nodeStatTree := ctx.nodeStatTree.insert dest i })
      | none =>
          let num := ctx.nodeInfo.length
          (num, { ctx with
            nodeInfo := ctx.nodeInfo ++ [NeighborInfo.zero dest]
            nodeStatTree := ctx.nodeStatTree.insert dest num })

/-- Write to the route in the statistics of `dest`. -/
def updateRoutingInfo (ctx : OlsrContext) (dest : InAddr) (f : RoutingInfo → RoutingInfo) :
    OlsrContext :=
  let (i, ctx) := ctx.getNeighborstatBuf dest
  { ctx with
    nodeInfo := ctx.nodeInfo.modify i (fun info => { info with routing := f info.routing }) }

end OlsrContext
