import Mathlib.Data.Prod.Lex
import SyNetsim.Lib.Graph
import SyNetsim.Lib.Run
import SyNetsim.Olsr.DataPath
import SyNetsim.Olsr.ShortestPath

/-!
# Delivery of data packets

A packet is sent through a network of nodes with addresses `192.168.n.1`. All nodes in range of
a transmission receive it, in any order. When the routing tables hold shortest paths, every
transmission is addressed to one node, which is one step nearer to the destination, and all
others drop it. So the packet is delivered once, unchanged, after as many transmissions as the
destination is away (`delivered_once`).
-/

/-! ### Addresses of nodes -/

theorem extractLsb_mask (ip : InAddr) :
  (ip &&& 0xffffff00).extractLsb' 16 8 = ip.extractLsb' 16 8
  := by
  rw [BitVec.extractLsb'_and]
  have hmask : (0xffffff00 : InAddr).extractLsb' 16 8 = BitVec.allOnes 8 := by decide
  rw [hmask, BitVec.and_allOnes]

/-- Addresses of nodes match if they are the same. -/
theorem ipCClassMatch_nodeIp {m n : BitVec 8} :
  ipCClassMatch (nodeIp m) (nodeIp n) = true ↔ nodeIp m = nodeIp n
  := by
  rw [ipCClassMatch, decide_eq_true_eq]
  constructor
  · intro h
    have hextract := congrArg (BitVec.extractLsb' 16 8) h
    rw [extractLsb_mask, extractLsb_mask, extractLsb_nodeIp, extractLsb_nodeIp] at hextract
    rw [hextract]
  · intro h
    rw [h]

/-! ### Steps -/

/-- The transmissions under way, each with the node it arrives at, the calls of `send_local` by
all nodes, and the number of transmissions. -/
structure DataNet where
  air : List (InAddr × PacketBuf)
  delivered : List (InAddr × PacketBuf)
  transmissions : ℕ

namespace DataNet

/-- The node `u` does what its handler says. What it transmits arrives at all nodes in range. -/
def act (range : InAddr → List InAddr) (net : DataNet) (u : InAddr) : DataAction → DataNet
  | .drop => net
  | .sendRemote pkt =>
      { net with
        air := net.air ++ (range u).map (fun v => (v, pkt))
        transmissions := net.transmissions + 1 }
  | .sendLocal pkt => { net with delivered := net.delivered ++ [(u, pkt)] }

/-- The packet `pkt` from the local network of the node `s`. -/
def inject (nodes : InAddr → OlsrContext) (range : InAddr → List InAddr) (s : InAddr)
    (pkt : PacketBuf) : Option DataNet :=
  ((nodes s).handleLocalDataPkt pkt).map (act range ⟨[], [], 0⟩ s)

/-- The transmission at the place `i` arrives. -/
def step (nodes : InAddr → OlsrContext) (range : InAddr → List InAddr) (net : DataNet) (i : ℕ) :
    Option DataNet := do
  let (v, pkt) ← net.air[i]?
  let action ← (nodes v).handleRemoteDataPkt pkt
  return act range { net with air := net.air.eraseIdx i } v action

end DataNet

/-! ### Routing by shortest paths -/

/-- The node `u` has a shortest path of `G` to every other node of its component. -/
structure RoutesShortest (ctx : OlsrContext) (G : SimpleGraph InAddr) (u : InAddr) : Prop where
  ownIp : ctx.ownIp = u
  route : ∀ d, d ≠ u → G.Reachable u d → ∃ entry, ctx.routingTable.search d = some entry ∧
    entry.hopCount = G.dist u d ∧ IsRoute G u d entry.route ∧ entry.route.length = G.dist u d

/-- The packet that is transmitted carries `pkt` and is addressed to the node `w`. -/
def Carries (pkt : PacketBuf) (w : InAddr) (out : PacketBuf) : Prop :=
  out.hdr.daddr = w ∧
    (out = pkt ∨ out.hdr.protocol = ipprotoMobile ∧ minimalMipDecap out = some pkt)

variable {G : SimpleGraph InAddr}

/-- `ip_route` transmits a packet to a neighbour that is one step nearer to the destination. -/
theorem RoutesShortest.ipRoute {ctx : OlsrContext} {u : InAddr} (h : RoutesShortest ctx G u)
    {pkt : PacketBuf} (hpkt : pkt.WellFormed) (hd : pkt.hdr.daddr ≠ u)
    (hreach : G.Reachable u pkt.hdr.daddr) (fromLocal : Bool) :
  ∃ out w, ctx.ipRoute pkt fromLocal = some (.sendRemote out) ∧ Carries pkt w out ∧ G.Adj u w ∧
    G.dist w pkt.hdr.daddr + 1 = G.dist u pkt.hdr.daddr
  := by
  obtain ⟨entry, hentry, hhop, hroute, hlength⟩ := h.route _ hd hreach
  obtain ⟨w, route, hcons⟩ : ∃ w route, entry.route = w :: route := by
    apply List.exists_cons_of_length_pos
    rw [hlength]
    apply hreach.pos_dist_of_ne hd.symm
  rw [hcons] at hroute hlength
  have hadj : G.Adj u w := (List.isChain_cons_cons.mp hroute.chain).1
  have hdist : G.dist w pkt.hdr.daddr + 1 = G.dist u pkt.hdr.daddr := by
    have htail : IsRoute G w pkt.hdr.daddr route :=
      ⟨(List.isChain_cons_cons.mp hroute.chain).2, by simpa using hroute.last⟩
    have hle := htail.dist_le
    have hge := hadj.reachable.dist_triangle_left pkt.hdr.daddr
    rw [SimpleGraph.dist_eq_one_iff_adj.mpr hadj] at hge
    rw [List.length_cons] at hlength
    omega
  by_cases hraw : entry.hopCount = 1 ∧ fromLocal = true
  · -- The destination is a neighbour.
    have hw : w = pkt.hdr.daddr := by
      have hzero : G.dist w pkt.hdr.daddr = 0 := by omega
      apply (hadj.reachable.symm.trans hreach).dist_eq_zero_iff.mp hzero
    refine ⟨pkt, w, ?_, ⟨hw.symm, Or.inl rfl⟩, hadj, hdist⟩
    simp only [OlsrContext.ipRoute, hentry, if_pos hraw]
  · obtain ⟨encap, hencap, henc⟩ := hpkt.encapsulates ctx.ownIp w
    refine ⟨encap, w, ?_, ⟨henc.daddr, Or.inr ⟨henc.protocol, henc.decap⟩⟩, hadj, hdist⟩
    simp only [OlsrContext.ipRoute, hentry, if_neg hraw, hcons, List.head?_cons, hencap,
      Option.bind_eq_bind, Option.bind_some, Option.pure_def]

/-- A node that a transmission is not addressed to drops it. -/
theorem Carries.drop {pkt out : PacketBuf} {m n : BitVec 8} (h : Carries pkt (nodeIp n) out)
    {ctx : OlsrContext} (hown : ctx.ownIp = nodeIp m) (hne : nodeIp m ≠ nodeIp n) :
  ctx.handleRemoteDataPkt out = some .drop
  := by
  have hmatch : ¬ ipCClassMatch (nodeIp m) (nodeIp n) = true := by
    rw [ipCClassMatch_nodeIp]
    apply hne
  simp [OlsrContext.handleRemoteDataPkt, hown, h.1, hmatch]

/-- The destination delivers the packet. -/
theorem Carries.deliver {pkt out : PacketBuf} {w : InAddr} (h : Carries pkt w out)
    (hproto : pkt.hdr.protocol ≠ ipprotoMobile) {ctx : OlsrContext} (hown : ctx.ownIp = w)
    (hd : pkt.hdr.daddr = w) :
  ctx.handleRemoteDataPkt out = some (.sendLocal pkt)
  := by
  have hself : ipCClassMatch w w = true := by simp [ipCClassMatch]
  obtain ⟨hdaddr, rfl | ⟨hmobile, hdecap⟩⟩ := h
  · simp [OlsrContext.handleRemoteDataPkt, hown, hdaddr, hself, hproto]
  · simp [OlsrContext.handleRemoteDataPkt, hown, hdaddr, hself, hmobile, hdecap, hd]

/-- Another node that the transmission is addressed to routes the packet. -/
theorem Carries.forward {pkt out : PacketBuf} {m n : BitVec 8} (h : Carries pkt (nodeIp m) out)
    {ctx : OlsrContext} (hown : ctx.ownIp = nodeIp m) (hd : pkt.hdr.daddr = nodeIp n)
    (hne : nodeIp m ≠ nodeIp n) :
  ctx.handleRemoteDataPkt out = ctx.ipRoute pkt false
  := by
  have hself : ipCClassMatch (nodeIp m) (nodeIp m) = true := by simp [ipCClassMatch]
  have hmatch : ¬ ipCClassMatch (nodeIp m) (nodeIp n) = true := by
    rw [ipCClassMatch_nodeIp]
    apply hne
  obtain ⟨hdaddr, rfl | ⟨hmobile, hdecap⟩⟩ := h
  · apply absurd (hdaddr.symm.trans hd) hne
  · simp [OlsrContext.handleRemoteDataPkt, hown, hdaddr, hself, hmobile, hdecap, hd, hmatch]

/-! ### Runs -/

namespace DataNet

/-- The transmission is addressed to the node it arrives at. -/
def addressed (f : InAddr × PacketBuf) : Bool := f.1 = f.2.hdr.daddr

/-- What holds while the packet `pkt` is on its way from `s`: one transmission is addressed to a
node, from which as many more are needed as it is away from the destination, or the packet has
been delivered. -/
structure Inv (G : SimpleGraph InAddr) (s : InAddr) (pkt : PacketBuf) (net : DataNet) :
    Prop where
  carries : ∀ f ∈ net.air, ∃ m n, f.1 = nodeIp m ∧ Carries pkt (nodeIp n) f.2
  one : net.air.countP addressed + net.delivered.length = 1
  live : ∀ f ∈ net.air, addressed f = true → G.Reachable f.1 pkt.hdr.daddr ∧
    net.transmissions + G.dist f.1 pkt.hdr.daddr = G.dist s pkt.hdr.daddr
  delivered : ∀ x ∈ net.delivered, x = (pkt.hdr.daddr, pkt)
  count : net.delivered ≠ [] → net.transmissions = G.dist s pkt.hdr.daddr

/-- What arrives is not under way any more. -/
theorem countP_eraseIdx {air : List (InAddr × PacketBuf)} {i : ℕ} {f : InAddr × PacketBuf}
    (hf : air[i]? = some f) :
  air.countP addressed = (air.eraseIdx i).countP addressed + if addressed f then 1 else 0
  := by
  obtain ⟨hi, rfl⟩ := List.getElem?_eq_some_iff.mp hf
  rw [← (List.getElem_cons_eraseIdx_perm hi).countP_eq, List.countP_cons]

/-- A transmission is addressed to one of the nodes in range. -/
theorem countP_transmit {l : List InAddr} (hl : l.Nodup) {out : PacketBuf}
    (hout : out.hdr.daddr ∈ l) :
  (l.map (fun v => (v, out))).countP addressed = 1
  := by
  rw [List.countP_map, ← List.count_eq_one_of_mem hl hout, List.count]
  apply List.countP_congr
  intro v _
  simp [addressed]

variable {nodes : InAddr → OlsrContext} {range : InAddr → List InAddr} {s : InAddr}
  {pkt : PacketBuf}

/-- A transmission by `u` to a node one step nearer to the destination. -/
theorem Inv.transmit (hrange : ∀ u v, v ∈ range u ↔ G.Adj u v) (hnodup : ∀ u, (range u).Nodup)
    (haddr : ∀ u v, G.Adj u v → ∃ n, v = nodeIp n) {net : DataNet}
    (hcarries : ∀ f ∈ net.air, ∃ m n, f.1 = nodeIp m ∧ Carries pkt (nodeIp n) f.2)
    (hnone : net.air.countP addressed = 0) (hdelivered : net.delivered = []) {u w : InAddr}
    (hreach : G.Reachable u pkt.hdr.daddr)
    (hcount : net.transmissions + G.dist u pkt.hdr.daddr = G.dist s pkt.hdr.daddr)
    {out : PacketBuf} (hout : Carries pkt w out) (hadj : G.Adj u w)
    (hdist : G.dist w pkt.hdr.daddr + 1 = G.dist u pkt.hdr.daddr) :
  (act range net u (.sendRemote out)).Inv G s pkt
  := by
  have hw : out.hdr.daddr ∈ range u := by
    rw [hout.1, hrange]
    apply hadj
  constructor
  · intro f hf
    rcases List.mem_append.mp hf with hf | hf
    · apply hcarries f hf
    · obtain ⟨v, hv, rfl⟩ := List.mem_map.mp hf
      obtain ⟨m, rfl⟩ := haddr u v ((hrange u v).mp hv)
      obtain ⟨n, rfl⟩ := haddr u w hadj
      exact ⟨m, n, rfl, hout⟩
  · simp only [act, List.countP_append, hnone, countP_transmit (hnodup u) hw, hdelivered]
    rfl
  · intro f hf haddressed
    rcases List.mem_append.mp hf with hf | hf
    · apply absurd haddressed (List.countP_eq_zero.mp hnone f hf)
    · obtain ⟨v, hv, rfl⟩ := List.mem_map.mp hf
      have hvw : v = w := (of_decide_eq_true haddressed).trans hout.1
      subst hvw
      refine ⟨hadj.reachable.symm.trans hreach, ?_⟩
      simp only [act]
      omega
  · intro x hx
    simp only [act, hdelivered] at hx
    contradiction
  · intro hx
    simp only [act, hdelivered] at hx
    contradiction

/-- Every transmission that arrives is handled, and the packet is nearer to its destination, or
fewer transmissions are under way. -/
theorem Inv.step (hrange : ∀ u v, v ∈ range u ↔ G.Adj u v) (hnodup : ∀ u, (range u).Nodup)
    (haddr : ∀ u v, G.Adj u v → ∃ n, v = nodeIp n)
    (hroutes : ∀ u, RoutesShortest (nodes u) G u) (hpkt : pkt.WellFormed)
    (hproto : pkt.hdr.protocol ≠ ipprotoMobile) {n : BitVec 8} (hd : pkt.hdr.daddr = nodeIp n)
    {net : DataNet} (h : net.Inv G s pkt) {i : ℕ} {f : InAddr × PacketBuf}
    (hf : net.air[i]? = some f) :
  ∃ net', net.step nodes range i = some net' ∧ net'.Inv G s pkt ∧
    (net'.transmissions = net.transmissions + 1 ∨
      net'.transmissions = net.transmissions ∧ net'.air.length < net.air.length)
  := by
  have hmem := List.mem_of_getElem? hf
  have hcountP := countP_eraseIdx hf
  have hone := h.one
  obtain ⟨m, k, hm, hcarries⟩ := h.carries f hmem
  have hown := (hroutes f.1).ownIp
  have hfewer : ∀ f' ∈ net.air.eraseIdx i, f' ∈ net.air := fun f' hf' =>
    List.mem_of_mem_eraseIdx hf'
  have hlt : (net.air.eraseIdx i).length < net.air.length := by
    obtain ⟨hi, -⟩ := List.getElem?_eq_some_iff.mp hf
    rw [List.length_eraseIdx_of_lt hi]
    omega
  have hstep : ∀ action, (nodes f.1).handleRemoteDataPkt f.2 = some action →
      net.step nodes range i =
        some (act range { net with air := net.air.eraseIdx i } f.1 action) := by
    intro action haction
    simp only [DataNet.step, hf, haction, Option.bind_eq_bind, Option.bind_some, Option.pure_def]
  by_cases haddressed : addressed f = true
  · rw [if_pos haddressed] at hcountP
    have hnone : (net.air.eraseIdx i).countP addressed = 0 := by omega
    have hdelivered : net.delivered = [] := List.length_eq_zero_iff.mp (by omega)
    obtain ⟨hreach, hcount⟩ := h.live f hmem haddressed
    have hfk : nodeIp k = f.1 := hcarries.1.symm.trans (of_decide_eq_true haddressed).symm
    rw [hfk] at hcarries
    by_cases hdest : pkt.hdr.daddr = f.1
    · refine ⟨_, hstep _ (hcarries.deliver hproto hown hdest), ?_, Or.inr ⟨rfl, hlt⟩⟩
      constructor
      · intro f' hf'
        apply h.carries f' (hfewer f' hf')
      · simp only [act, hnone, hdelivered]
        rfl
      · intro f' hf' haddressed'
        apply absurd haddressed' (List.countP_eq_zero.mp hnone f' hf')
      · intro x hx
        simp only [act, hdelivered, List.nil_append, List.mem_singleton] at hx
        rw [hx, hdest]
      · intro _
        rw [hdest, SimpleGraph.dist_self, Nat.add_zero, ← hdest] at hcount
        apply hcount
    · obtain ⟨out, w, hroute, hout, hadj, hdist⟩ :=
        (hroutes f.1).ipRoute hpkt hdest hreach false
      have hforward : (nodes f.1).handleRemoteDataPkt f.2 = some (.sendRemote out) := by
        rw [hm] at hcarries hown ⊢
        rw [hcarries.forward hown hd (by rw [← hm, ← hd]; apply Ne.symm hdest), ← hm]
        apply hroute
      refine ⟨_, hstep _ hforward, ?_, Or.inl rfl⟩
      apply Inv.transmit hrange hnodup haddr _ _ _ hreach _ hout hadj hdist
      · intro f' hf'
        apply h.carries f' (hfewer f' hf')
      · apply hnone
      · apply hdelivered
      · apply hcount
  · rw [if_neg haddressed, Nat.add_zero] at hcountP
    have hne : nodeIp m ≠ nodeIp k := by
      intro heq
      apply haddressed
      rw [addressed, hm, hcarries.1, heq, decide_eq_true_eq]
    rw [hm] at hown
    have hdrop := hcarries.drop hown hne
    rw [← hm] at hdrop
    refine ⟨_, hstep _ hdrop, ?_, Or.inr ⟨rfl, hlt⟩⟩
    refine ⟨fun f' hf' => h.carries f' (hfewer f' hf'), ?_,
      fun f' hf' => h.live f' (hfewer f' hf'), h.delivered, h.count⟩
    simp only [act, ← hcountP, hone]

theorem Inv.delivered_eq {net : DataNet} (h : net.Inv G s pkt) :
  net.delivered = [] ∨ net.delivered = [(pkt.hdr.daddr, pkt)]
  := by
  have hone := h.one
  cases hdelivered : net.delivered with
  | nil =>
      left
      rfl
  | cons x l =>
      right
      rw [hdelivered, List.length_cons] at hone
      have hl : l = [] := List.length_eq_zero_iff.mp (by omega)
      rw [hl, h.delivered x (by rw [hdelivered]; apply List.mem_cons_self)]

theorem Inv.transmissions_le {net : DataNet} (h : net.Inv G s pkt) :
  net.transmissions ≤ G.dist s pkt.hdr.daddr
  := by
  have hone := h.one
  by_cases hdelivered : net.delivered = []
  · rw [hdelivered, List.length_nil, Nat.add_zero] at hone
    have hpos : 0 < net.air.countP addressed := by
      omega
    obtain ⟨f, hf, haddressed⟩ := List.countP_pos_iff.mp hpos
    have hcount := (h.live f hf haddressed).2
    omega
  · apply (h.count hdelivered).le

/-- The packet enters the network. -/
theorem Inv.inject (hrange : ∀ u v, v ∈ range u ↔ G.Adj u v) (hnodup : ∀ u, (range u).Nodup)
    (haddr : ∀ u v, G.Adj u v → ∃ n, v = nodeIp n)
    (hroutes : ∀ u, RoutesShortest (nodes u) G u) (hpkt : pkt.WellFormed) {m n : BitVec 8}
    (hs : s = nodeIp m) (hd : pkt.hdr.daddr = nodeIp n) (hne : pkt.hdr.daddr ≠ s)
    (hreach : G.Reachable s pkt.hdr.daddr) :
  ∃ start, inject nodes range s pkt = some start ∧ start.Inv G s pkt
  := by
  obtain ⟨out, w, hroute, hout, hadj, hdist⟩ := (hroutes s).ipRoute hpkt hne hreach true
  have hmatch : ¬ ipCClassMatch (nodes s).ownIp pkt.hdr.daddr = true := by
    rw [(hroutes s).ownIp, hs, hd, ipCClassMatch_nodeIp, ← hs, ← hd]
    apply hne.symm
  have hlocal : (nodes s).handleLocalDataPkt pkt = some (.sendRemote out) := by
    rw [OlsrContext.handleLocalDataPkt, if_neg hmatch]
    apply hroute
  refine ⟨act range ⟨[], [], 0⟩ s (.sendRemote out), ?_, ?_⟩
  · rw [DataNet.inject, hlocal, Option.map_some]
  · apply Inv.transmit hrange hnodup haddr _ rfl rfl hreach (Nat.zero_add _) hout hadj hdist
    intro f hf
    contradiction

/-- A packet is sent from the node `s` to another node of its component, in a network in which
every node has shortest paths to all nodes of its component. In every state that is reached,
whatever the order in which transmissions arrive, every transmission is handled. At most one
copy has been delivered, which is the packet itself at its destination. There is no endless
run, and when no transmission is under way any more, the packet has been delivered after as
many transmissions as the destination is away. -/
theorem delivered_once (hrange : ∀ u v, v ∈ range u ↔ G.Adj u v)
    (hnodup : ∀ u, (range u).Nodup) (haddr : ∀ u v, G.Adj u v → ∃ n, v = nodeIp n)
    (hroutes : ∀ u, RoutesShortest (nodes u) G u) (hpkt : pkt.WellFormed)
    (hproto : pkt.hdr.protocol ≠ ipprotoMobile) {m n : BitVec 8} (hs : s = nodeIp m)
    (hd : pkt.hdr.daddr = nodeIp n) (hne : pkt.hdr.daddr ≠ s)
    (hreach : G.Reachable s pkt.hdr.daddr) :
  ∃ start, inject nodes range s pkt = some start ∧
    (∀ net, Reaches (DataNet.step nodes range) (fun _ _ => True) start net →
      (net.delivered = [] ∨ net.delivered = [(pkt.hdr.daddr, pkt)]) ∧
      (∀ i < net.air.length, ∃ net', net.step nodes range i = some net') ∧
      (net.air = [] → net.delivered = [(pkt.hdr.daddr, pkt)] ∧
        net.transmissions = G.dist s pkt.hdr.daddr)) ∧
    ¬ ∃ run : ℕ → DataNet, run 0 = start ∧
      ∀ k, ∃ i, (run k).step nodes range i = some (run (k + 1))
  := by
  obtain ⟨start, hstart, hinv⟩ := Inv.inject hrange hnodup haddr hroutes hpkt hs hd hne hreach
  have hstep : ∀ (net : DataNet) (i : ℕ) (net' : DataNet), net.Inv G s pkt →
      net.step nodes range i = some net' → net'.Inv G s pkt ∧
        (net'.transmissions = net.transmissions + 1 ∨
          net'.transmissions = net.transmissions ∧ net'.air.length < net.air.length) := by
    intro net i net' hnet hnet'
    obtain ⟨f, hf, -⟩ := Option.bind_eq_some_iff.mp hnet'
    obtain ⟨net'', hnet'', hinv'', hless⟩ :=
      hnet.step hrange hnodup haddr hroutes hpkt hproto hd hf
    obtain rfl := Option.some.inj (hnet'.symm.trans hnet'')
    exact ⟨hinv'', hless⟩
  refine ⟨start, hstart, ?_, ?_⟩
  · intro net hnet
    have h : net.Inv G s pkt :=
      hnet.invariant (fun net i net' h _ hnet' => (hstep net i net' h hnet').1) hinv
    have hone := h.one
    refine ⟨h.delivered_eq, ?_, ?_⟩
    · intro i hi
      obtain ⟨net', hnet', -⟩ := h.step hrange hnodup haddr hroutes hpkt hproto hd
        (List.getElem?_eq_getElem hi)
      exact ⟨net', hnet'⟩
    · intro hair
      rw [hair, List.countP_nil, Nat.zero_add] at hone
      have hne : net.delivered ≠ [] := by
        intro hnil
        rw [hnil] at hone
        contradiction
      exact ⟨h.delivered_eq.resolve_left hne, h.count hne⟩
  · -- Every step brings the packet nearer to its destination or leaves fewer transmissions.
    rintro ⟨run, hrun, hsteps⟩
    have hinvs : ∀ k, (run k).Inv G s pkt := by
      intro k
      induction k with
      | zero =>
          rw [hrun]
          apply hinv
      | succ k ih =>
          obtain ⟨i, hi⟩ := hsteps k
          apply (hstep _ i _ ih hi).1
    let measure : ℕ → ℕ ×ₗ ℕ := fun k =>
      toLex (G.dist s pkt.hdr.daddr - (run k).transmissions, (run k).air.length)
    obtain ⟨-, ⟨k, rfl⟩, hmin⟩ := wellFounded_lt.has_min (Set.range measure) ⟨_, 0, rfl⟩
    apply hmin (measure (k + 1)) ⟨k + 1, rfl⟩
    obtain ⟨i, hi⟩ := hsteps k
    have hle := (hinvs (k + 1)).transmissions_le
    rw [Prod.Lex.toLex_lt_toLex]
    rcases (hstep _ i _ (hinvs k) hi).2 with hmore | ⟨hsame, hfewer⟩
    · left
      omega
    · right
      exact ⟨by rw [hsame], hfewer⟩

/-! ### Three nodes in a line -/

/-- The route in the line of nodes 1, 2 and 3. -/
def lineRoute (u d : InAddr) : List InAddr :=
  if u = nodeIp 2 ∨ d = nodeIp 2 then [d] else [nodeIp 2, d]

/-- A node of the line with its routing table. -/
def lineRouter (u : InAddr) : OlsrContext :=
  { initOlsrContext u ⟨0, 0⟩ with
    routingTable := .ofKeys ([nodeIp 1, nodeIp 2, nodeIp 3].filter (· ≠ u)) (fun d =>
      ⟨d, (lineRoute u d).length, lineRoute u d⟩) }

/-- Nodes 1 and 3 are two steps apart. -/
theorem line_dist :
  OlsrContext.line.dist (nodeIp 1) (nodeIp 3) = 2
  := by
  obtain ⟨h12, h23⟩ := OlsrContext.line_adj
  have hle := SimpleGraph.dist_le (.cons h12 (.cons h23 .nil))
  have hpos := (h12.reachable.trans h23.reachable).pos_dist_of_ne (by decide)
  have hne : OlsrContext.line.dist (nodeIp 1) (nodeIp 3) ≠ 1 := by
    rw [Ne, SimpleGraph.dist_eq_one_iff_adj]
    intro h13
    apply absurd (OlsrContext.mem_lineNeighbors.mp h13)
    decide
  simp only [SimpleGraph.Walk.length_cons, SimpleGraph.Walk.length_nil] at hle
  omega

theorem lineRouter_shortest (u : InAddr) :
  RoutesShortest (lineRouter u) OlsrContext.line u
  := by
  refine ⟨rfl, ?_⟩
  intro d hd hreach
  obtain ⟨h12, h23⟩ := OlsrContext.line_adj
  -- Nodes that have an edge are nodes 1, 2 and 3.
  have hline : ∀ v w, v ≠ w → OlsrContext.line.Reachable v w →
      v = nodeIp 1 ∨ v = nodeIp 2 ∨ v = nodeIp 3 := by
    intro v w hvw hreach
    obtain ⟨walk⟩ := hreach
    cases walk with
    | nil => contradiction
    | cons hadj walk =>
        have hadj' := OlsrContext.mem_lineNeighbors.mp hadj
        tauto
  have hmem : d ∈ [nodeIp 1, nodeIp 2, nodeIp 3].filter (· ≠ u) := by
    have hd' := hline d u hd hreach.symm
    rw [List.mem_filter]
    simp only [List.mem_cons, List.not_mem_nil, or_false, decide_eq_true_eq]
    exact ⟨hd', hd⟩
  refine ⟨⟨d, (lineRoute u d).length, lineRoute u d⟩, ?_, ?_⟩
  · simp only [lineRouter, OrdMap.search_ofKeys, if_pos hmem]
  · have hroute : IsRoute OlsrContext.line u d (lineRoute u d) ∧
        (lineRoute u d).length = OlsrContext.line.dist u d := by
      have hone : OlsrContext.line.Adj u d → lineRoute u d = [d] →
          IsRoute OlsrContext.line u d (lineRoute u d) ∧
          (lineRoute u d).length = OlsrContext.line.dist u d := by
        intro hadj hroute
        rw [hroute, SimpleGraph.dist_eq_one_iff_adj.mpr hadj]
        have hchain : [u, d].IsChain OlsrContext.line.Adj := by simp [hadj]
        exact ⟨⟨hchain, rfl⟩, rfl⟩
      have htwo : OlsrContext.line.Adj u (nodeIp 2) → OlsrContext.line.Adj (nodeIp 2) d →
          OlsrContext.line.dist u d = 2 → lineRoute u d = [nodeIp 2, d] →
          IsRoute OlsrContext.line u d (lineRoute u d) ∧
          (lineRoute u d).length = OlsrContext.line.dist u d := by
        intro hadj hadj' hdist hroute
        rw [hroute, hdist]
        have hchain : [u, nodeIp 2, d].IsChain OlsrContext.line.Adj := by
          simp only [List.isChain_cons_cons, List.isChain_singleton, hadj, hadj', and_self]
        exact ⟨⟨hchain, rfl⟩, rfl⟩
      rcases hline u d hd.symm hreach with rfl | rfl | rfl
      all_goals rcases hline d _ hd hreach.symm with rfl | rfl | rfl
      · contradiction
      · apply hone h12 rfl
      · apply htwo h12 h23 line_dist rfl
      · apply hone h12.symm rfl
      · contradiction
      · apply hone h23 rfl
      · apply htwo h23.symm h12.symm (SimpleGraph.dist_comm.trans line_dist) rfl
      · apply hone h23.symm rfl
      · contradiction
    exact ⟨hroute.2, hroute.1, hroute.2⟩

/-- A packet from node 1 to node 3 of the line is delivered after two transmissions. -/
theorem delivered_once_line :
  ∃ start net, inject lineRouter OlsrContext.lineNeighbors (nodeIp 1) loopPkt = some start ∧
    Reaches (DataNet.step lineRouter OlsrContext.lineNeighbors) (fun _ _ => True) start net ∧
    net.air = [] ∧ net.delivered = [(nodeIp 3, loopPkt)] ∧ net.transmissions = 2
  := by
  have hrun : ((inject lineRouter OlsrContext.lineNeighbors (nodeIp 1) loopPkt).bind (fun start =>
      [0, 0, 0].foldlM (fun net i => if true then DataNet.step lineRouter
        OlsrContext.lineNeighbors net i else none) start)).map (fun net => net.air.length) =
      some 0 := by
    decide +kernel
  obtain ⟨net, hnet, hair⟩ := Option.map_eq_some_iff.mp hrun
  obtain ⟨start, hstart, hfold⟩ := Option.bind_eq_some_iff.mp hnet
  have hreach : Reaches (DataNet.step lineRouter OlsrContext.lineNeighbors) (fun _ _ => True)
      start net := Reaches.of_checked (fun _ _ _ => trivial) hfold
  have hair : net.air = [] := List.length_eq_zero_iff.mp hair
  clear hfold hnet hrun
  have haddr : ∀ u v, OlsrContext.line.Adj u v → ∃ n, v = nodeIp n := by
    intro u v hadj
    rcases OlsrContext.mem_lineNeighbors.mp hadj with h | h | h | h
    all_goals exact ⟨_, h.2⟩
  have hnodup : ∀ u, (OlsrContext.lineNeighbors u).Nodup := by
    intro u
    rw [OlsrContext.lineNeighbors]
    split_ifs <;> decide
  obtain ⟨h12, h23⟩ := OlsrContext.line_adj
  obtain ⟨start', hstart', hall, -⟩ := delivered_once (fun _ _ => Iff.rfl) hnodup haddr
    lineRouter_shortest loopPkt_wellFormed (by decide) rfl rfl (by decide)
    (h12.reachable.trans h23.reachable)
  obtain rfl := Option.some.inj (hstart.symm.trans hstart')
  obtain ⟨-, -, hend⟩ := hall net hreach
  obtain ⟨hdelivered, hcount⟩ := hend hair
  exact ⟨start, net, hstart, hreach, hair, hdelivered, hcount.trans line_dist⟩

end DataNet
