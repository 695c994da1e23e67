import SyNetsim.Lib.Bytes
import SyNetsim.Olsr.Proto

/-!
# IP packets

`netutil.c`: the IP header with its checksum, and the minimal encapsulation that carries a
packet to the next hop of its route. A packet is kept as its header (`IpHdr`) and the bytes
after the first 20; `PacketBuf.toBytes` are the bytes that are sent.

The functions give `none` where the source would read or write outside of a packet: when the
header length is too small or points behind the end, or when the result does not fit into a
`PacketBuf`.
-/

/-! ### Headers -/

/-- The IP header `struct iphdr`, with the values that its fields in network order stand for. -/
@[ext]
structure IpHdr where
  version : BitVec 4
  ihl : BitVec 4
  tos : Byte
  totLen : BitVec 16
  id : BitVec 16
  fragOff : BitVec 16
  ttl : Byte
  protocol : Byte
  check : BitVec 16
  saddr : InAddr
  daddr : InAddr
deriving DecidableEq

/-- The 20 bytes of a header. -/
def IpHdr.toBytes (hdr : IpHdr) : List Byte :=
  [hdr.version ++ hdr.ihl, hdr.tos] ++ be16 hdr.totLen ++ be16 hdr.id ++ be16 hdr.fragOff ++
    [hdr.ttl, hdr.protocol] ++ be16 hdr.check ++ le32 hdr.saddr ++ le32 hdr.daddr

/-- The size of `PacketBuf.data`, `MAX_IPPKT_SIZE + MAX_ETHER_HEADER_MARGIN`. -/
def packetBufSize : ℕ := 2000 + 50

/-- A packet `PacketBuf`: its header, and the bytes after it. -/
@[ext]
structure PacketBuf where
  hdr : IpHdr
  rest : List Byte
deriving DecidableEq

/-- The field `length`. -/
def PacketBuf.length (pkt : PacketBuf) : ℕ := 20 + pkt.rest.length

/-- The bytes of a packet. -/
def PacketBuf.toBytes (pkt : PacketBuf) : List Byte := pkt.hdr.toBytes ++ pkt.rest

/-- The length of the header in bytes, with its options. -/
def PacketBuf.hdrLen (pkt : PacketBuf) : ℕ := pkt.hdr.ihl.toNat * 4

/-- `MinimalMobileIpHdr`. -/
structure MinimalMobileIpHdr where
  ipproto : Byte
  recv : BitVec 7
  s : BitVec 1
  checksum : BitVec 16
  origDstIp : InAddr
  origSrcIp : InAddr
deriving DecidableEq

namespace MinimalMobileIpHdr

/-- The 12 bytes of a forwarding header. -/
def toBytes (mip : MinimalMobileIpHdr) : List Byte :=
  [mip.ipproto, mip.s ++ mip.recv] ++ be16 mip.checksum ++ le32 mip.origDstIp ++
    le32 mip.origSrcIp

/-- The forwarding header in the first 12 bytes. -/
def ofBytes : List Byte → Option MinimalMobileIpHdr
  | p :: f :: c :: c' :: d :: d' :: d'' :: d''' :: s :: s' :: s'' :: s''' :: _ =>
      some ⟨p, f.extractLsb' 0 7, f.extractLsb' 7 1, ofBe16 c c', ofLe32 d d' d'' d''',
        ofLe32 s s' s'' s'''⟩
  | _ => none

@[simp]
theorem length_toBytes (mip : MinimalMobileIpHdr) :
  mip.toBytes.length = 12
  := rfl

/-- Reading a forwarding header gives back what was written. -/
theorem ofBytes_toBytes (mip : MinimalMobileIpHdr) (rest : List Byte) :
  ofBytes (mip.toBytes ++ rest) = some mip
  := by
  have hrecv : (mip.s ++ mip.recv).extractLsb' 0 7 = mip.recv := BitVec.extractLsb'_append_eq_right
  have hs : (mip.s ++ mip.recv).extractLsb' 7 1 = mip.s := BitVec.extractLsb'_append_eq_left
  simp only [toBytes, be16, le32, List.cons_append, List.nil_append, ofBytes, hrecv, hs,
    ofBe16_extract, ofLe32_extract]

end MinimalMobileIpHdr

/-! ### Checksums -/

/-- Add a word to the accumulator of `calc_ip_checksum`. -/
def addWord (acc : ℕ) (word : BitVec 16) : ℕ :=
  if acc + word.toNat > 0xffff then acc + word.toNat - 0xffff else acc + word.toNat

/-- The loop of `calc_ip_checksum`, with the partial block at the end. -/
def sumWords (acc : ℕ) : List Byte → ℕ
  | hi :: lo :: data => sumWords (addWord acc (ofBe16 hi lo)) data
  | [hi] => addWord acc (ofBe16 hi 0)
  | [] => acc

/-- `calc_ip_checksum`, as the value that is stored in network order. -/
def calcIpChecksum (data : List Byte) : BitVec 16 := ~~~ BitVec.ofNat 16 (sumWords 0xffff data)

/-- The checksum of the header of a packet, options included, with the checksum field zero. -/
def PacketBuf.hdrChecksum (pkt : PacketBuf) : BitVec 16 :=
  calcIpChecksum (({ pkt.hdr with check := 0 }.toBytes ++ pkt.rest).take pkt.hdrLen)

/-- `build_ip_hdr`. -/
def buildIpHdr (len : ℕ) (ttl : Byte) (srcaddr dstaddr : InAddr) (ipproto : Byte) : IpHdr :=
  let hdr : IpHdr :=
    { version := 4, ihl := 5, tos := 0, totLen := BitVec.ofNat 16 len, id := 0, fragOff := 0,
      ttl := ttl, protocol := ipproto, check := 0, saddr := srcaddr, daddr := dstaddr }
  { hdr with check := calcIpChecksum hdr.toBytes }

/-- `struct udphdr`, with the values that its fields in network order stand for. -/
structure UdpHdr where
  source : BitVec 16
  dest : BitVec 16
  len : BitVec 16
  check : BitVec 16
deriving DecidableEq

/-- The 8 bytes of a UDP header. -/
def UdpHdr.toBytes (hdr : UdpHdr) : List Byte :=
  be16 hdr.source ++ be16 hdr.dest ++ be16 hdr.len ++ be16 hdr.check

/-- `build_udp_hdr_no_checksum`. -/
def buildUdpHdrNoChecksum (srcPort dstPort payloadLen : BitVec 16) : UdpHdr :=
  { source := srcPort, dest := dstPort, len := 8 + payloadLen, check := 0 }

/-- `IPPROTO_UDP`. -/
def ipprotoUdp : Byte := 17

/-! ### Encapsulation -/

/-- `IPPROTO_MOBILE`. -/
def ipprotoMobile : Byte := 55

/-- The forwarding header that `minimal_mip_encap` writes. -/
def mipHdrOf (hdr : IpHdr) : MinimalMobileIpHdr :=
  let mip : MinimalMobileIpHdr :=
    { ipproto := hdr.protocol, recv := 0, s := 1, checksum := 0, origDstIp := hdr.daddr,
      origSrcIp := hdr.saddr }
  { mip with checksum := calcIpChecksum mip.toBytes }

/-- `minimal_mip_encap`. -/
def minimalMipEncap (pkt : PacketBuf) (newSrc newDst : InAddr) : Option PacketBuf :=
  if pkt.hdrLen < 20 ∨ pkt.length < pkt.hdrLen ∨ packetBufSize < pkt.length + 12 then none
  else
    let newPkt : PacketBuf :=
      { hdr := { pkt.hdr with
          protocol := ipprotoMobile
          ihl := BitVec.ofNat 4 ((pkt.hdrLen + 12) / 4)
          totLen := BitVec.ofNat 16 (pkt.length + 12)
          saddr := newSrc
          daddr := newDst
          check := 0 }
        rest := pkt.rest.take (pkt.hdrLen - 20) ++ (mipHdrOf pkt.hdr).toBytes ++
          pkt.rest.drop (pkt.hdrLen - 20) }
    some { newPkt with hdr.check := calcIpChecksum (newPkt.toBytes.take (pkt.hdrLen + 12)) }

/-- `minimal_mip_decap`. -/
def minimalMipDecap (pkt : PacketBuf) : Option PacketBuf :=
  if pkt.hdrLen < 32 ∨ pkt.length < pkt.hdrLen then none
  else do
    let decapLen := pkt.hdrLen - 12
    let mip ← MinimalMobileIpHdr.ofBytes (pkt.rest.drop (decapLen - 20))
    let newPkt : PacketBuf :=
      { hdr := { pkt.hdr with
          protocol := mip.ipproto
          ihl := BitVec.ofNat 4 (decapLen / 4)
          totLen := BitVec.ofNat 16 (pkt.length - 12)
          saddr := mip.origSrcIp
          daddr := mip.origDstIp
          check := 0 }
        rest := pkt.rest.take (decapLen - 20) ++ pkt.rest.drop (pkt.hdrLen - 20) }
    return { newPkt with hdr.check := calcIpChecksum (newPkt.toBytes.take decapLen) }

/-- A packet that can be encapsulated: its header length leaves room for the forwarding header
and lies within the packet, the packet with it fits into a `PacketBuf`, and length and
checksum fields are as they should be. -/
structure PacketBuf.WellFormed (pkt : PacketBuf) : Prop where
  ihl_ge : 5 ≤ pkt.hdr.ihl.toNat
  ihl_le : pkt.hdr.ihl.toNat ≤ 12
  hdrLen_le : pkt.hdrLen ≤ pkt.length
  length_le : pkt.length ≤ 2038
  totLen : pkt.hdr.totLen = BitVec.ofNat 16 pkt.length
  check : pkt.hdr.check = pkt.hdrChecksum

/-- The packet that `minimal_mip_encap` makes of a well-formed one, addressed to the next hop. -/
structure Encapsulates (pkt encap : PacketBuf) (newSrc newDst : InAddr) : Prop where
  saddr : encap.hdr.saddr = newSrc
  daddr : encap.hdr.daddr = newDst
  protocol : encap.hdr.protocol = ipprotoMobile
  ttl : encap.hdr.ttl = pkt.hdr.ttl
  length : encap.length = pkt.length + 12
  decap : minimalMipDecap encap = some pkt

/-- `minimal_mip_decap` on a packet with a forwarding header after the options. -/
theorem PacketBuf.WellFormed.decap {pkt : PacketBuf} (h : pkt.WellFormed) (totLen check : BitVec 16)
    (saddr daddr : InAddr) (protocol : Byte) :
  minimalMipDecap
    { hdr := { pkt.hdr with
        protocol := protocol
        ihl := BitVec.ofNat 4 ((pkt.hdrLen + 12) / 4)
        totLen := totLen
        saddr := saddr
        daddr := daddr
        check := check }
      rest := pkt.rest.take (pkt.hdrLen - 20) ++ (mipHdrOf pkt.hdr).toBytes ++
        pkt.rest.drop (pkt.hdrLen - 20) } = some pkt
  := by
  have hihl := h.ihl_ge
  have hihl' := h.ihl_le
  have hle := h.hdrLen_le
  have hhdrLen : pkt.hdrLen = pkt.hdr.ihl.toNat * 4 := rfl
  have hlength : pkt.length = 20 + pkt.rest.length := rfl
  have htake : (pkt.rest.take (pkt.hdrLen - 20)).length = pkt.hdrLen - 20 := by
    rw [List.length_take]
    omega
  set encap : PacketBuf := ⟨_, pkt.rest.take (pkt.hdrLen - 20) ++ (mipHdrOf pkt.hdr).toBytes ++
    pkt.rest.drop (pkt.hdrLen - 20)⟩ with hencap
  have hhdrLen' : encap.hdrLen = pkt.hdrLen + 12 := by
    rw [hencap, hdrLen, BitVec.toNat_ofNat]
    omega
  have hlength' : encap.length = pkt.length + 12 := by
    rw [hencap, PacketBuf.length, List.length_append, List.length_append, htake,
      MinimalMobileIpHdr.length_toBytes, List.length_drop]
    omega
  have hdrop : encap.rest.drop (pkt.hdrLen - 20) =
      (mipHdrOf pkt.hdr).toBytes ++ pkt.rest.drop (pkt.hdrLen - 20) := by
    rw [hencap, List.append_assoc, List.drop_left' htake]
  have hrest : encap.rest.take (pkt.hdrLen - 20) ++ encap.rest.drop (pkt.hdrLen + 12 - 20) =
      pkt.rest := by
    have hsum : pkt.hdrLen + 12 - 20 = pkt.hdrLen - 20 + 12 := by omega
    rw [hsum, ← List.drop_drop, hdrop, List.drop_left' (MinimalMobileIpHdr.length_toBytes _),
      hencap, List.append_assoc, List.take_left' htake, List.take_append_drop]
  have hin : ¬ (encap.hdrLen < 32 ∨ encap.length < encap.hdrLen) := by omega
  have hihl4 : BitVec.ofNat 4 (pkt.hdrLen / 4) = pkt.hdr.ihl := by
    have hdiv : pkt.hdrLen / 4 = pkt.hdr.ihl.toNat := by omega
    rw [hdiv, BitVec.ofNat_toNat, BitVec.setWidth_eq]
  -- The header is the one of the packet, but for the checksum.
  have hhdr : { encap.hdr with
      protocol := (mipHdrOf pkt.hdr).ipproto
      ihl := BitVec.ofNat 4 (pkt.hdrLen / 4)
      totLen := BitVec.ofNat 16 pkt.length
      saddr := (mipHdrOf pkt.hdr).origSrcIp
      daddr := (mipHdrOf pkt.hdr).origDstIp
      check := 0 } = { pkt.hdr with check := 0 } := by
    rw [hihl4, ← h.totLen]
    rfl
  rw [minimalMipDecap, if_neg hin]
  simp only [hhdrLen', hlength', Nat.add_sub_cancel, hdrop, MinimalMobileIpHdr.ofBytes_toBytes,
    Option.bind_eq_bind, Option.bind_some, Option.pure_def, hrest, hhdr]
  have hcheck : calcIpChecksum (({ pkt.hdr with check := 0 }.toBytes ++ pkt.rest).take
      pkt.hdrLen) = pkt.hdr.check := h.check.symm
  rw [PacketBuf.toBytes, hcheck, hihl4, ← h.totLen]
  rfl

/-- `minimal_mip_decap` undoes `minimal_mip_encap`. -/
theorem PacketBuf.WellFormed.encapsulates {pkt : PacketBuf} (h : pkt.WellFormed)
    (newSrc newDst : InAddr) :
  ∃ encap, minimalMipEncap pkt newSrc newDst = some encap ∧ Encapsulates pkt encap newSrc newDst
  := by
  have hihl := h.ihl_ge
  have hlen := h.length_le
  have hle := h.hdrLen_le
  have hhdrLen : pkt.hdrLen = pkt.hdr.ihl.toNat * 4 := rfl
  have hlength : pkt.length = 20 + pkt.rest.length := rfl
  have hroom : ¬ (pkt.hdrLen < 20 ∨ pkt.length < pkt.hdrLen ∨
      packetBufSize < pkt.length + 12) := by
    rw [packetBufSize]
    omega
  refine ⟨_, if_neg hroom, rfl, rfl, rfl, rfl, ?_, ?_⟩
  · simp only [PacketBuf.length, List.length_append, List.length_take, List.length_drop,
      MinimalMobileIpHdr.length_toBytes]
    omega
  · apply h.decap
