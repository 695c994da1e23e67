import SyNetsim.Netutil
import SyNetsim.Olsr.Context

/-!
# Data packets

The part of `olsr_route.c` that carries data packets: a packet from the local network is sent to
the next hop of its route, encapsulated unless the destination is a neighbour, and a node that
receives an encapsulated packet delivers it or sends it on to the next hop of its own route.

The IP `ttl` of the packet plays no part in chains of such forwards
(`ForwardChain.ttl_unread`).
-/

/-- `IP_C_CLASS_MATCH`. On a little-endian host the mask leaves out the first octet. -/
def ipCClassMatch (ip1 ip2 : InAddr) : Bool := ip1 &&& 0xffffff00 = ip2 &&& 0xffffff00

/-- What a handler does with a packet: it drops it, or gives one to `send_remote` or
`send_local`. -/
inductive DataAction where
  | drop
  | sendRemote (pkt : PacketBuf)
  | sendLocal (pkt : PacketBuf)
deriving DecidableEq

namespace OlsrContext

/-- `ip_route`. -/
def ipRoute (ctx : OlsrContext) (pkt : PacketBuf) (fromLocal : Bool) : Option DataAction :=
  match ctx.routingTable.search pkt.hdr.daddr with
  | none => some .drop
  | some entry =>
      if entry.hopCount = 1 ∧ fromLocal then some (.sendRemote pkt)
      else do
        let nexthop ← entry.route.head?
        let encapPkt ← minimalMipEncap pkt ctx.ownIp nexthop
        return .sendRemote encapPkt

/-- `handle_remote_data_pkt`. -/
def handleRemoteDataPkt (ctx : OlsrContext) (pkt : PacketBuf) : Option DataAction :=
  if !ipCClassMatch ctx.ownIp pkt.hdr.daddr then some .drop
  else if pkt.hdr.protocol = ipprotoMobile then do
    let decapPkt ← minimalMipDecap pkt
    if ipCClassMatch ctx.ownIp decapPkt.hdr.daddr then return .sendLocal decapPkt
    else ctx.ipRoute decapPkt false
  else some (.sendLocal pkt)

/-- `handle_local_data_pkt`. -/
def handleLocalDataPkt (ctx : OlsrContext) (pkt : PacketBuf) : Option DataAction :=
  if ipCClassMatch ctx.ownIp pkt.hdr.daddr then some .drop else ctx.ipRoute pkt true

end OlsrContext

/-! ### Chains of forwards -/

/-- `ForwardChain pkt ctxs out`: the packet `pkt` from the local network of the first node is
transmitted by all nodes of `ctxs` in turn, each on what the one before has sent. The last one
sends `out`. -/
inductive ForwardChain (pkt : PacketBuf) : List OlsrContext → PacketBuf → Prop
  | inject {ctx : OlsrContext} {out : PacketBuf} :
      ctx.handleLocalDataPkt pkt = some (.sendRemote out) → ForwardChain pkt [ctx] out
  | forward {ctxs : List OlsrContext} {ctx : OlsrContext} {q out : PacketBuf} :
      ForwardChain pkt ctxs q → ctx.handleRemoteDataPkt q = some (.sendRemote out) →
      ForwardChain pkt (ctxs ++ [ctx]) out

/-- The packets differ in `ttl` and checksum only. -/
def SameButTtl (pkt pkt' : PacketBuf) : Prop :=
  pkt' = { pkt with hdr.ttl := pkt'.hdr.ttl, hdr.check := pkt'.hdr.check }

/-- The packet with another `ttl`. -/
def PacketBuf.withTtl (pkt : PacketBuf) (ttl : Byte) : PacketBuf := { pkt with hdr.ttl := ttl }

/-- Encapsulation keeps `ttl` and does not depend on it. -/
theorem minimalMipEncap_ttl {pkt encap : PacketBuf} {newSrc newDst : InAddr}
    (h : minimalMipEncap pkt newSrc newDst = some encap) :
  encap.hdr.ttl = pkt.hdr.ttl ∧
    ∀ pkt', SameButTtl pkt pkt' → ∃ encap', minimalMipEncap pkt' newSrc newDst = some encap' ∧
      SameButTtl encap encap'
  := by
  rw [minimalMipEncap] at h
  split_ifs at h with hroom
  rw [← Option.some.inj h]
  refine ⟨rfl, ?_⟩
  intro pkt' hsame
  have hroom' : ¬ (pkt'.hdrLen < 20 ∨ pkt'.length < pkt'.hdrLen ∨
      packetBufSize < pkt'.length + 12) := by
    rw [hsame]
    apply hroom
  refine ⟨_, if_neg hroom', ?_⟩
  rw [hsame]
  rfl

/-- Decapsulation keeps `ttl` and does not depend on it. -/
theorem minimalMipDecap_ttl {pkt decap : PacketBuf} (h : minimalMipDecap pkt = some decap) :
  decap.hdr.ttl = pkt.hdr.ttl ∧
    ∀ pkt', SameButTtl pkt pkt' → ∃ decap', minimalMipDecap pkt' = some decap' ∧
      SameButTtl decap decap'
  := by
  rw [minimalMipDecap] at h
  split_ifs at h with hlen
  obtain ⟨mip, hmip, hdecap⟩ := Option.bind_eq_some_iff.mp h
  rw [← Option.some.inj hdecap]
  refine ⟨rfl, ?_⟩
  intro pkt' hsame
  have hlen' : ¬ (pkt'.hdrLen < 32 ∨ pkt'.length < pkt'.hdrLen) := by
    rw [hsame]
    apply hlen
  have hmip' : MinimalMobileIpHdr.ofBytes (pkt'.rest.drop (pkt'.hdrLen - 12 - 20)) = some mip := by
    rw [hsame]
    apply hmip
  refine ⟨_, (if_neg hlen').trans (Option.bind_eq_some_iff.mpr ⟨mip, hmip', rfl⟩), ?_⟩
  rw [hsame]
  rfl

namespace OlsrContext

/-- Routing keeps `ttl` and does not depend on it. -/
theorem ipRoute_ttl {ctx : OlsrContext} {pkt out : PacketBuf} {fromLocal : Bool}
    (h : ctx.ipRoute pkt fromLocal = some (.sendRemote out)) :
  out.hdr.ttl = pkt.hdr.ttl ∧
    ∀ pkt', SameButTtl pkt pkt' → ∃ out', ctx.ipRoute pkt' fromLocal = some (.sendRemote out') ∧
      SameButTtl out out'
  := by
  have hsearch : ∀ pkt', SameButTtl pkt pkt' → ctx.routingTable.search pkt'.hdr.daddr =
      ctx.routingTable.search pkt.hdr.daddr := by
    intro pkt' hsame
    rw [hsame]
  rw [ipRoute] at h
  cases hentry : ctx.routingTable.search pkt.hdr.daddr with
  | none =>
      simp [hentry] at h
  | some entry =>
      simp only [hentry] at h
      split_ifs at h with hhop
      · obtain rfl : pkt = out := by simpa using h
        refine ⟨rfl, ?_⟩
        intro pkt' hsame
        use pkt'
        simp only [ipRoute, hsearch pkt' hsame, hentry, if_pos hhop]
        exact ⟨trivial, hsame⟩
      · simp only [Option.bind_eq_bind, Option.bind_eq_some_iff, Option.pure_def,
          Option.some.injEq, DataAction.sendRemote.injEq] at h
        obtain ⟨nexthop, hnexthop, encap, hencap, rfl⟩ := h
        obtain ⟨httl, hothers⟩ := minimalMipEncap_ttl hencap
        refine ⟨httl, ?_⟩
        intro pkt' hsame
        obtain ⟨encap', hencap', hsame'⟩ := hothers pkt' hsame
        use encap'
        simp only [ipRoute, hsearch pkt' hsame, hentry, if_neg hhop, hnexthop, hencap',
          Option.bind_eq_bind, Option.bind_some, Option.pure_def]
        exact ⟨trivial, hsame'⟩

/-- A node that sends a received packet on keeps its `ttl` and does not look at it. -/
theorem handleRemoteDataPkt_ttl {ctx : OlsrContext} {pkt out : PacketBuf}
    (h : ctx.handleRemoteDataPkt pkt = some (.sendRemote out)) :
  out.hdr.ttl = pkt.hdr.ttl ∧
    ∀ pkt', SameButTtl pkt pkt' → ∃ out', ctx.handleRemoteDataPkt pkt' = some (.sendRemote out') ∧
      SameButTtl out out'
  := by
  rw [handleRemoteDataPkt] at h
  split_ifs at h with hdaddr hprotocol
  · simp at h
  · obtain ⟨decap, hdecap, h⟩ := Option.bind_eq_some_iff.mp h
    split_ifs at h with hmatch
    · simp at h
    · obtain ⟨hdecapTtl, hdecaps⟩ := minimalMipDecap_ttl hdecap
      obtain ⟨hrouteTtl, hroutes⟩ := ipRoute_ttl h
      refine ⟨hrouteTtl.trans hdecapTtl, ?_⟩
      intro pkt' hsame
      obtain ⟨decap', hdecap', hsame'⟩ := hdecaps pkt' hsame
      obtain ⟨out', hout', hsame''⟩ := hroutes decap' hsame'
      refine ⟨out', ?_, hsame''⟩
      have hdaddr' : ¬ (!ipCClassMatch ctx.ownIp pkt'.hdr.daddr) = true := by
        rw [hsame]
        apply hdaddr
      have hprotocol' : pkt'.hdr.protocol = ipprotoMobile := by
        rw [hsame]
        apply hprotocol
      have hmatch' : ¬ ipCClassMatch ctx.ownIp decap'.hdr.daddr = true := by
        rw [hsame']
        apply hmatch
      rw [handleRemoteDataPkt, if_neg hdaddr', if_pos hprotocol', hdecap']
      simp only [Option.bind_eq_bind, Option.bind_some, if_neg hmatch', hout']
  · simp at h

theorem handleLocalDataPkt_ttl {ctx : OlsrContext} {pkt out : PacketBuf}
    (h : ctx.handleLocalDataPkt pkt = some (.sendRemote out)) :
  out.hdr.ttl = pkt.hdr.ttl ∧
    ∀ pkt', SameButTtl pkt pkt' → ∃ out', ctx.handleLocalDataPkt pkt' = some (.sendRemote out') ∧
      SameButTtl out out'
  := by
  rw [handleLocalDataPkt] at h
  split_ifs at h with hmatch
  · simp at h
  · obtain ⟨httl, hroutes⟩ := ipRoute_ttl h
    refine ⟨httl, ?_⟩
    intro pkt' hsame
    have hmatch' : ¬ ipCClassMatch ctx.ownIp pkt'.hdr.daddr = true := by
      rw [hsame]
      apply hmatch
    rw [handleLocalDataPkt, if_neg hmatch']
    apply hroutes pkt' hsame

end OlsrContext

/-- All transmissions of a chain carry the `ttl` of the packet, and a packet that differs in
`ttl` and checksum only is transmitted by the same nodes. -/
theorem ForwardChain.ttl {pkt out : PacketBuf} {ctxs : List OlsrContext}
    (h : ForwardChain pkt ctxs out) :
  out.hdr.ttl = pkt.hdr.ttl ∧
    ∀ pkt', SameButTtl pkt pkt' → ∃ out', ForwardChain pkt' ctxs out' ∧ SameButTtl out out'
  := by
  induction h with
  | inject hinject =>
      obtain ⟨httl, hothers⟩ := OlsrContext.handleLocalDataPkt_ttl hinject
      refine ⟨httl, ?_⟩
      intro pkt' hsame
      obtain ⟨out', hout', hsame'⟩ := hothers pkt' hsame
      exact ⟨out', ForwardChain.inject hout', hsame'⟩
  | forward _ hforward ih =>
      obtain ⟨httl, hothers⟩ := OlsrContext.handleRemoteDataPkt_ttl hforward
      obtain ⟨ihttl, ihothers⟩ := ih
      refine ⟨httl.trans ihttl, ?_⟩
      intro pkt' hsame
      obtain ⟨q', hq', hsame'⟩ := ihothers pkt' hsame
      obtain ⟨out', hout', hsame''⟩ := hothers q' hsame'
      exact ⟨out', ForwardChain.forward hq' hout', hsame''⟩

/-- The nodes `u 0`, `u 1` and so on are each addressed as the next hop to `d` by the one before,
and none of them is `d`. -/
structure NextHops (d : InAddr) (u : ℕ → OlsrContext) : Prop where
  away : ∀ i, ipCClassMatch (u i).ownIp d = false
  next : ∀ i, ∃ entry nexthop, (u i).routingTable.search d = some entry ∧
    entry.route.head? = some nexthop ∧ ipCClassMatch (u (i + 1)).ownIp nexthop = true
  first : ∀ entry, (u 0).routingTable.search d = some entry → entry.hopCount ≠ 1

/-- As long as there is a next hop, the packet is sent on. -/
theorem NextHops.forwardChain {pkt : PacketBuf} (hpkt : pkt.WellFormed) {u : ℕ → OlsrContext}
    (h : NextHops pkt.hdr.daddr u) (n : ℕ) :
  ∃ out, ForwardChain pkt ((List.range (n + 1)).map u) out ∧ minimalMipDecap out = some pkt ∧
    out.hdr.protocol = ipprotoMobile ∧ ipCClassMatch (u (n + 1)).ownIp out.hdr.daddr = true
  := by
  -- What `ip_route` does at one of the nodes.
  have hroute : ∀ i fromLocal, (fromLocal = true → i = 0) → ∃ out,
      (u i).ipRoute pkt fromLocal = some (.sendRemote out) ∧ minimalMipDecap out = some pkt ∧
      out.hdr.protocol = ipprotoMobile ∧ ipCClassMatch (u (i + 1)).ownIp out.hdr.daddr = true := by
    intro i fromLocal hlocal
    obtain ⟨entry, nexthop, hentry, hnexthop, hmatch⟩ := h.next i
    obtain ⟨encap, hencap, henc⟩ := hpkt.encapsulates (u i).ownIp nexthop
    have hhop : ¬ (entry.hopCount = 1 ∧ fromLocal = true) := by
      rintro ⟨hone, hfrom⟩
      obtain rfl := hlocal hfrom
      apply h.first entry hentry hone
    refine ⟨encap, ?_, henc.decap, henc.protocol, ?_⟩
    · simp only [OlsrContext.ipRoute, hentry, if_neg hhop, hnexthop, hencap, Option.bind_eq_bind,
        Option.bind_some, Option.pure_def]
    · rw [henc.daddr]
      apply hmatch
  induction n with
  | zero =>
      obtain ⟨out, hout, hinner⟩ := hroute 0 true (fun _ => rfl)
      refine ⟨out, ForwardChain.inject ?_, hinner⟩
      simp [OlsrContext.handleLocalDataPkt, h.away, hout]
  | succ n ih =>
      obtain ⟨q, hq, hdecap, hprotocol, hmatch⟩ := ih
      obtain ⟨out, hout, hinner⟩ := hroute (n + 1) false (by simp)
      refine ⟨out, ?_, hinner⟩
      rw [List.range_succ, List.map_append]
      apply ForwardChain.forward hq
      simp [OlsrContext.handleRemoteDataPkt, hmatch, hprotocol, hdecap, h.away, hout]

/-- The IP `ttl` plays no part in the forwarding of data packets: every transmission in a chain
carries the `ttl` of the packet injected, and with any other `ttl` the packet is transmitted by
the same nodes, to the same next hops. Only the routing tables end a chain: as long as they
lead to a next hop, the packet is sent on. -/
theorem ForwardChain.ttl_unread :
  (∀ pkt ctxs out, ForwardChain pkt ctxs out → out.hdr.ttl = pkt.hdr.ttl ∧
    ∀ ttl, ∃ out', ForwardChain (pkt.withTtl ttl) ctxs out' ∧ out'.hdr.daddr = out.hdr.daddr) ∧
  ∀ pkt u, PacketBuf.WellFormed pkt → NextHops pkt.hdr.daddr u →
    ∀ n, ∃ out, ForwardChain pkt ((List.range (n + 1)).map u) out
  := by
  constructor
  · intro pkt ctxs out h
    obtain ⟨httl, hothers⟩ := h.ttl
    refine ⟨httl, ?_⟩
    intro ttl
    obtain ⟨out', hout', hsame⟩ := hothers (pkt.withTtl ttl) rfl
    refine ⟨out', hout', ?_⟩
    rw [hsame]
  · intro pkt u hpkt hnext n
    obtain ⟨out, hout, -⟩ := hnext.forwardChain hpkt n
    exact ⟨out, hout⟩

/-! ### A loop of two nodes -/

/-- Nodes 1 and 2, each with a route to node 3 over the other. -/
def loopNode (i : ℕ) : OlsrContext :=
  let (own, other) := if i % 2 = 0 then (nodeIp 1, nodeIp 2) else (nodeIp 2, nodeIp 1)
  { initOlsrContext own ⟨0, 0⟩ with
    routingTable := OrdMap.empty.insert (nodeIp 3) ⟨nodeIp 3, 2, [other, nodeIp 3]⟩ }

/-- A packet from node 1 to node 3 with `ttl` 1. -/
def loopPkt : PacketBuf := ⟨buildIpHdr 20 1 (nodeIp 1) (nodeIp 3) 17, []⟩

theorem loopPkt_wellFormed :
  loopPkt.WellFormed
  := by
  constructor
  all_goals decide +kernel

theorem loopNode_nextHops :
  NextHops loopPkt.hdr.daddr loopNode
  := by
  have hmod : ∀ i, loopNode i = loopNode (i % 2) := by
    intro i
    simp [loopNode]
  have heven : ∀ i, i % 2 = 0 → loopNode i = loopNode 0 ∧ loopNode (i + 1) = loopNode 1 := by
    intro i hi
    rw [hmod i, hmod (i + 1), hi, show (i + 1) % 2 = 1 by omega]
    exact ⟨rfl, rfl⟩
  have hodd : ∀ i, i % 2 = 1 → loopNode i = loopNode 1 ∧ loopNode (i + 1) = loopNode 0 := by
    intro i hi
    rw [hmod i, hmod (i + 1), hi, show (i + 1) % 2 = 0 by omega]
    exact ⟨rfl, rfl⟩
  constructor
  · intro i
    rcases Nat.mod_two_eq_zero_or_one i with hi | hi
    · rw [(heven i hi).1]
      decide +kernel
    · rw [(hodd i hi).1]
      decide +kernel
  · intro i
    rcases Nat.mod_two_eq_zero_or_one i with hi | hi
    · rw [(heven i hi).1, (heven i hi).2]
      exact ⟨⟨nodeIp 3, 2, [nodeIp 2, nodeIp 3]⟩, nodeIp 2, by decide +kernel⟩
    · rw [(hodd i hi).1, (hodd i hi).2]
      exact ⟨⟨nodeIp 3, 2, [nodeIp 1, nodeIp 3]⟩, nodeIp 1, by decide +kernel⟩
  · intro entry hentry
    have hsearch : (loopNode 0).routingTable.search loopPkt.hdr.daddr =
        some ⟨nodeIp 3, 2, [nodeIp 2, nodeIp 3]⟩ := by decide +kernel
    rw [← Option.some.inj (hsearch.symm.trans hentry)]
    decide

/-- The packet with `ttl` 1 is transmitted three times. -/
theorem ForwardChain.exceeds_ttl :
  ∃ pkt ctxs out, PacketBuf.WellFormed pkt ∧ ForwardChain pkt ctxs out ∧
    ¬ ctxs.length ≤ pkt.hdr.ttl.toNat
  := by
  obtain ⟨out, hout, -⟩ := loopNode_nextHops.forwardChain loopPkt_wellFormed 2
  refine ⟨loopPkt, _, out, loopPkt_wellFormed, hout, ?_⟩
  decide

/-- The packet goes on between the two nodes. -/
theorem ForwardChain.ttl_unread_loop :
  ∃ ctxs out, ForwardChain loopPkt ctxs out ∧ ctxs.length = 1000 ∧
    out.hdr.ttl = loopPkt.hdr.ttl
  := by
  obtain ⟨out, hout⟩ := ForwardChain.ttl_unread.2 loopPkt loopNode loopPkt_wellFormed
    loopNode_nextHops 999
  refine ⟨_, out, hout, ?_, (ForwardChain.ttl_unread.1 loopPkt _ out hout).1⟩
  rw [List.length_map, List.length_range]
