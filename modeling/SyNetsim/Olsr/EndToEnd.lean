import Mathlib.Order.OrderIsoNat
import SyNetsim.Encap
import SyNetsim.Olsr.Converge
import SyNetsim.Olsr.Delivery
import SyNetsim.Olsr.Packet
import SyNetsim.Simnet.Dummy

/-!
# Data packets in a network that has converged

The routing tables that a network comes to (`HelloNet.AfterRounds`) are those that the delivery of
data packets relies on (`HelloNet.AfterRounds.routesShortest`). So packets are delivered by nodes
that have started with empty tables and only exchanged messages, and the exchange of messages may go
on while packets are on their way (`RoutedNet.delivers`).

A node that receives a packet finds out first whether it is one of the protocol, from the protocol
and the port. The copies of a data packet are not taken for one.
-/

/-! ### What a node receives -/

/-- The field `dest` of the UDP header, if it is within the packet. -/
def PacketBuf.udpDest (pkt : PacketBuf) : Option (BitVec 16) :=
  be16At pkt.toBytes (pkt.hdrLen + 2)

/-- What `olsr_handle_remote_pkt` makes of a packet: it goes to `handle_route_pkt`, or
`handle_remote_data_pkt` decides. -/
inductive RemoteAction where
  | route
  | data (action : DataAction)

/-- `olsr_handle_remote_pkt` without the statistics. It gives `none` if the port is not within the
packet. -/
def OlsrContext.olsrHandleRemotePkt (ctx : OlsrContext) (pkt : PacketBuf) : Option RemoteAction :=
  if pkt.hdr.protocol = ipprotoUdp then do
    let port ← pkt.udpDest
    if port = olsrProtoPort then return .route
    else (ctx.handleRemoteDataPkt pkt).map .data
  else (ctx.handleRemoteDataPkt pkt).map .data

/-- The packet is not one for the port of the protocol. -/
def PacketBuf.IsData (pkt : PacketBuf) : Prop :=
  pkt.hdr.protocol = ipprotoUdp → ∃ port, pkt.udpDest = some port ∧ port ≠ olsrProtoPort

theorem PacketBuf.IsData.handled {pkt : PacketBuf} (h : pkt.IsData) (ctx : OlsrContext) :
  ctx.olsrHandleRemotePkt pkt = (ctx.handleRemoteDataPkt pkt).map .data
  := by
  rw [OlsrContext.olsrHandleRemotePkt]
  split_ifs with hudp
  · obtain ⟨port, hport, hne⟩ := h hudp
    simp only [hport, Option.bind_eq_bind, Option.bind_some, if_neg hne]
  · rfl

/-- What carries a data packet is handled as data. -/
theorem Carries.isData {pkt out : PacketBuf} {w : InAddr} (h : Carries pkt w out)
    (hpkt : pkt.IsData) :
  out.IsData
  := by
  rcases h.2 with rfl | ⟨hprotocol, -⟩
  · apply hpkt
  · intro hudp
    rw [hprotocol] at hudp
    apply absurd hudp (by decide)

/-- A data packet for the address `d`: it is well formed, neither one of the protocol nor
encapsulated already. -/
structure PacketBuf.DataFor (pkt : PacketBuf) (d : InAddr) : Prop where
  wellFormed : pkt.WellFormed
  isData : pkt.IsData
  plain : pkt.hdr.protocol ≠ ipprotoMobile
  daddr : pkt.hdr.daddr = d

/-- The nodes by their addresses. -/
structure AddressBook (ι : Type) where
  nid : ι → BitVec 8
  node : InAddr → Option ι
  node_eq : ∀ a u, node a = some u ↔ nodeIp (nid u) = a

namespace AddressBook

variable {ι : Type} (book : AddressBook ι)

/-- The address of a node. -/
def ip : ι ↪ InAddr where
  toFun u := nodeIp (book.nid u)
  inj' u v huv := by
    have hu := (book.node_eq _ u).mpr rfl
    rw [(book.node_eq _ v).mpr huv.symm] at hu
    apply (Option.some.inj hu).symm

/-- The node with an address. Other addresses are those of nodes that know nothing. -/
def context (net : HelloNet ι) (a : InAddr) : OlsrContext :=
  match book.node a with
  | some u => net.nodes u
  | none => initOlsrContext a ⟨0, 0⟩

theorem node_ip (u : ι) :
  book.node (book.ip u) = some u
  := (book.node_eq _ u).mpr rfl

/-- What has an edge is the address of a node. -/
theorem exists_nodeIp_of_adj {G : SimpleGraph ι} (a b : InAddr) (h : (G.map book.ip).Adj a b) :
  ∃ n, b = nodeIp n
  := by
  obtain ⟨_, v, -, -, rfl⟩ := (SimpleGraph.map_adj book.ip G a b).mp h
  exact ⟨book.nid v, rfl⟩

end AddressBook

namespace HelloNet

variable {ι : Type} [DecidableEq ι] {G : SimpleGraph ι} {net : HelloNet ι}

/-- After the rounds all nodes have shortest paths to the others, as addresses. -/
theorem AfterRounds.routesShortest (book : AddressBook ι) (h : AfterRounds book.ip G net)
    (a : InAddr) :
  RoutesShortest (book.context net a) (G.map book.ip) a
  := by
  cases hnode : book.node a with
  | none =>
      -- No node has this address, so it is not on an edge.
      have hcontext : book.context net a = initOlsrContext a ⟨0, 0⟩ := by
        rw [AddressBook.context, hnode]
      rw [hcontext]
      refine ⟨rfl, ?_⟩
      rintro d hd ⟨walk⟩
      cases walk with
      | nil => apply absurd rfl hd
      | cons hadj _ =>
          obtain ⟨x, y, -, hx, -⟩ := (SimpleGraph.map_adj book.ip G _ _).mp hadj
          rw [← hx, book.node_ip] at hnode
          contradiction
  | some u =>
      obtain rfl : book.ip u = a := (book.node_eq a u).mp hnode
      have hcontext : book.context net (book.ip u) = net.nodes u := by
        rw [AddressBook.context, hnode]
      rw [hcontext]
      refine ⟨(h.stable book.ip.injective).certified.caused.ownIp u, ?_⟩
      rintro d hd ⟨walk⟩
      obtain ⟨v, rfl, walk', -⟩ := exists_walk_of_map book.ip walk rfl
      have hne : v ≠ u := by
        rintro rfl
        apply hd rfl
      obtain ⟨entry, hentry, -⟩ := h.hasEntry book.ip.injective hne walk'.reachable
      obtain ⟨hhops, path, hpath, hlength, hroute, -⟩ := h.shortest book.ip.injective hentry
      rw [dist_map]
      refine ⟨entry, hentry, hhops, ?_, ?_⟩
      · rw [hpath]
        apply hroute.map
      · rw [hpath, List.length_map, hlength]

end HelloNet

/-! ### Runs -/

/-- A network in which data packets are on their way. -/
structure RoutedNet (ι : Type) where
  net : HelloNet ι
  data : DataNet

/-- A step of the network, or the arrival of the `i`-th copy of a data packet. -/
inductive RoutedEvent (ι : Type) where
  | net (e : HelloEvent ι)
  | receive (i : ℕ)

namespace RoutedNet

variable {ι : Type} [DecidableEq ι] {G : SimpleGraph ι} {book : AddressBook ι}
  {range : InAddr → List InAddr} {pkt : PacketBuf} {src : InAddr} {s s' : RoutedNet ι}

/-- One step. What `handle_route_pkt` does with the packets of the protocol is part of the steps of
the network. -/
def step (book : AddressBook ι) (range : InAddr → List InAddr) (s : RoutedNet ι) :
    RoutedEvent ι → Option (RoutedNet ι)
  | .net e => (s.net.step e).map (fun net => { s with net := net })
  | .receive i => do
      let (a, pkt) ← s.data.air[i]?
      match ← (book.context s.net a).olsrHandleRemotePkt pkt with
      | .route => none
      | .data action =>
          let data := { s.data with air := s.data.air.eraseIdx i }
          some { s with data := data.act range a action }

/-- The network is over a fixed graph. -/
def StaticStep (G : SimpleGraph ι) (s : RoutedNet ι) : RoutedEvent ι → Prop
  | .net e => HelloNet.Static G s.net e
  | .receive _ => True

/-- The routing tables are right, and the packet from `src` is under way or has arrived. -/
structure Inv (book : AddressBook ι) (G : SimpleGraph ι) (src : InAddr) (pkt : PacketBuf)
    (s : RoutedNet ι) : Prop where
  rounds : HelloNet.AfterRounds book.ip G s.net
  data : s.data.Inv (G.map book.ip) src pkt

/-- How far the packet is from its end: the transmissions that are left, then the copies that are
under way. -/
noncomputable def remaining (book : AddressBook ι) (G : SimpleGraph ι) (src : InAddr)
    (pkt : PacketBuf) (s : RoutedNet ι) : ℕ ×ₗ ℕ :=
  toLex ((G.map book.ip).dist src pkt.hdr.daddr - s.data.transmissions, s.data.air.length)

/-- Packets of the protocol leave the data packets where they are. -/
theorem Inv.step_net (h : s.Inv book G src pkt) {e : HelloEvent ι} (hok : HelloNet.Static G s.net e)
    (hstep : s.step book range (.net e) = some s') :
  s'.Inv book G src pkt ∧ s'.data = s.data
  := by
  obtain ⟨net, hnet, rfl⟩ := Option.map_eq_some_iff.mp hstep
  exact ⟨⟨h.rounds.step hok hnet, h.data⟩, rfl⟩

section

variable (hrange : ∀ a b, b ∈ range a ↔ (G.map book.ip).Adj a b)
  (hnodup : ∀ a, (range a).Nodup)

include hrange hnodup

/-- Every copy that arrives is handled by the handler of data packets, and brings the packet
nearer to its end. -/
theorem Inv.step_receive {v : ι} (hpkt : pkt.DataFor (book.ip v)) (h : s.Inv book G src pkt)
    {i : ℕ} (hi : i < s.data.air.length) :
  ∃ s', s.step book range (.receive i) = some s' ∧ s'.Inv book G src pkt ∧
    s'.remaining book G src pkt < s.remaining book G src pkt
  := by
  obtain ⟨f, hf⟩ : ∃ f, s.data.air[i]? = some f := ⟨_, List.getElem?_eq_getElem hi⟩
  obtain ⟨_, _, -, hcarries⟩ := h.data.carries f (List.mem_of_getElem? hf)
  obtain ⟨data, hdata, hinv, hless⟩ := h.data.step hrange hnodup book.exists_nodeIp_of_adj
    (h.rounds.routesShortest book) hpkt.wellFormed hpkt.plain hpkt.daddr hf
  refine ⟨{ s with data := data }, ?_, ⟨h.rounds, hinv⟩, ?_⟩
  · -- The copy is data, so that the step is the one without the packets of the protocol.
    simp only [DataNet.step, hf, Option.bind_eq_bind, Option.bind_some] at hdata
    obtain ⟨action, haction, hact⟩ := Option.bind_eq_some_iff.mp hdata
    obtain rfl := Option.some.inj hact
    simp only [step, hf, (hcarries.isData hpkt.isData).handled, haction, Option.bind_eq_bind,
      Option.bind_some, Option.map_some]
  · have hle := hinv.transmissions_le
    rw [remaining, remaining, Prod.Lex.toLex_lt_toLex]
    rcases hless with hmore | ⟨hsame, hfewer⟩
    · left
      dsimp only
      omega
    · right
      exact ⟨by rw [hsame], hfewer⟩

/-- A step leaves the data packets where they are or brings the packet nearer to its end. -/
theorem Inv.step {v : ι} (hpkt : pkt.DataFor (book.ip v)) (h : s.Inv book G src pkt)
    {e : RoutedEvent ι} (hok : s.StaticStep G e) (hstep : s.step book range e = some s') :
  s'.Inv book G src pkt ∧
    (s'.data = s.data ∨ s'.remaining book G src pkt < s.remaining book G src pkt)
  := by
  cases e with
  | net e =>
      obtain ⟨hinv, hdata⟩ := h.step_net hok hstep
      exact ⟨hinv, Or.inl hdata⟩
  | receive i =>
      obtain ⟨f, hf, -⟩ := Option.bind_eq_some_iff.mp hstep
      obtain ⟨hi, -⟩ := List.getElem?_eq_some_iff.mp hf
      obtain ⟨s'', hs'', hinv, hless⟩ := h.step_receive hrange hnodup hpkt hi
      obtain rfl := Option.some.inj (hstep.symm.trans hs'')
      exact ⟨hinv, Or.inr hless⟩

end

/-! ### Three nodes in a line -/

end RoutedNet
