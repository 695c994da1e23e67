import SyNetsim.Netutil

/-!
# Encapsulation in memory

`minimal_mip_encap` and `minimal_mip_decap` as they work on memory: they copy parts of a packet from
one `PacketBuf` to another, whose old contents are arbitrary, and write the fields of headers at
their offsets. On memory that holds a packet they do what `minimalMipEncap` and `minimalMipDecap` do
with the packet (`minimalMipEncapMem_holds`, `minimalMipDecapMem_holds`).

So decapsulation undoes encapsulation, byte for byte (`minimalMipDecapMem_encap`).
-/

/-! ### Packet buffers -/

/-- A `PacketBuf` as it lies in memory: the field `length`, and the bytes of the array `data`. -/
structure PacketMem where
  length : ℕ
  data : List Byte
  size : data.length = packetBufSize

namespace PacketMem

/-- Write bytes to `data`, within its bounds. -/
def store (buf : PacketMem) (off : ℕ) (bytes : List Byte) : Option PacketMem :=
  (Memory.store buf.data off bytes).attach.map (fun data =>
    { buf with data := data.val, size := (Memory.length_of_store data.property).trans buf.size })

/-- `memcpy` from the `data` of one buffer to that of another. -/
def memcpy (buf : PacketMem) (off : ℕ) (source : PacketMem) (sourceOff len : ℕ) :
    Option PacketMem := do
  let bytes ← Memory.load source.data sourceOff len
  buf.store off bytes

/-- The field `ihl` of the IP header, the low half of the first byte. -/
def ihl (buf : PacketMem) : Option (BitVec 4) := buf.data[0]?.map (fun b => b.extractLsb' 0 4)

/-- Write to the field `ihl`. -/
def setIhl (buf : PacketMem) (ihl : BitVec 4) : Option PacketMem := do
  let b ← buf.data[0]?
  buf.store 0 [b.extractLsb' 4 4 ++ ihl]

/-- The buffer holds the packet `bytes`. -/
structure Holds (buf : PacketMem) (bytes : List Byte) : Prop where
  length : buf.length = bytes.length
  data : ∃ back, buf.data = bytes ++ back

/-- Storing in a buffer is storing in its memory. -/
theorem store_eq_some {buf : PacketMem} {mem mem' bytes : List Byte} {off : ℕ}
    (hdata : buf.data = mem) (h : Memory.store mem off bytes = some mem') :
  ∃ buf', buf.store off bytes = some buf' ∧ buf'.length = buf.length ∧ buf'.data = mem'
  := by
  subst hdata
  refine ⟨⟨buf.length, mem', (Memory.length_of_store h).trans buf.size⟩, ?_, rfl, rfl⟩
  rw [store, Option.map_eq_some_iff]
  exact ⟨⟨mem', h⟩, Option.attach_eq_some_iff.mpr h, rfl⟩

end PacketMem

/-! ### The two functions -/

namespace PacketMem

/-- The fields of the forwarding header at `off` that `minimal_mip_encap` writes: those of the IP
header, and the checksum. -/
def writeMip (buf : PacketMem) (off : ℕ) (ipproto : Byte) (origDstIp origSrcIp : InAddr) :
    Option PacketMem := do
  let buf ← buf.store off [ipproto]
  let b ← buf.data[off + 1]?
  let buf ← buf.store (off + 1) [b.extractLsb' 7 1 ++ (0 : BitVec 7)]
  let b ← buf.data[off + 1]?
  let buf ← buf.store (off + 1) [(1 : BitVec 1) ++ b.extractLsb' 0 7]
  let buf ← buf.store (off + 2) (be16 0)
  let buf ← buf.store (off + 4) (le32 origDstIp)
  let buf ← buf.store (off + 8) (le32 origSrcIp)
  let mip ← Memory.load buf.data off 12
  buf.store (off + 2) (be16 (calcIpChecksum mip))

/-- The fields of the IP header that both functions write at the end, with its checksum. -/
def writeIpHdr (buf : PacketMem) (protocol : Byte) (hdrLen totLen : ℕ) (saddr daddr : InAddr) :
    Option PacketMem := do
  let buf ← buf.store 9 [protocol]
  let buf ← buf.setIhl (BitVec.ofNat 4 (hdrLen / 4))
  let buf ← buf.store 2 (be16 (BitVec.ofNat 16 totLen))
  let buf ← buf.store 12 (le32 saddr)
  let buf ← buf.store 16 (le32 daddr)
  let buf ← buf.store 10 (be16 0)
  let hdr ← Memory.load buf.data 0 hdrLen
  buf.store 10 (be16 (calcIpChecksum hdr))

end PacketMem

/-- `minimal_mip_encap`. -/
def minimalMipEncapMem (ipPkt encapIpPktBuf : PacketMem) (newSrc newDst : InAddr) :
    Option PacketMem := do
  let ihl ← ipPkt.ihl
  let oldIpHdrLen := ihl.toNat * 4
  let buf ← encapIpPktBuf.memcpy 0 ipPkt 0 oldIpHdrLen
  let protocol ← ipPkt.data[9]?
  let daddr ← le32At ipPkt.data 16
  let saddr ← le32At ipPkt.data 12
  let buf ← buf.writeMip oldIpHdrLen protocol daddr saddr
  let newIpHdrLen := oldIpHdrLen + 12
  let buf ← buf.memcpy newIpHdrLen ipPkt oldIpHdrLen (sizeSub ipPkt.length oldIpHdrLen)
  let buf ← buf.writeIpHdr ipprotoMobile newIpHdrLen (ipPkt.length + 12) newSrc newDst
  return { buf with length := (12 + ipPkt.length) % 2 ^ 64 }

/-- `minimal_mip_decap`. A header that is too short has a negative `decap_ip_hdr_len`, which is a
size beyond all bounds for `memcpy`. -/
def minimalMipDecapMem (encapIpPkt decapIpPktBuf : PacketMem) : Option PacketMem := do
  let ihl ← encapIpPkt.ihl
  let oldIpHdrLen := ihl.toNat * 4
  let decapIpHdrLen := intToSize (sizeToInt (sizeSub oldIpHdrLen 12))
  let buf ← decapIpPktBuf.memcpy 0 encapIpPkt 0 decapIpHdrLen
  let ipproto ← encapIpPkt.data[decapIpHdrLen]?
  let origDstIp ← le32At encapIpPkt.data (decapIpHdrLen + 4)
  let origSrcIp ← le32At encapIpPkt.data (decapIpHdrLen + 8)
  let buf ← buf.writeIpHdr ipproto decapIpHdrLen (sizeSub encapIpPkt.length 12) origSrcIp origDstIp
  let buf ← buf.memcpy decapIpHdrLen encapIpPkt oldIpHdrLen
    (sizeSub encapIpPkt.length oldIpHdrLen)
  return { buf with length := sizeSub encapIpPkt.length 12 }

/-! ### Headers in memory -/

namespace IpHdr

@[simp]
theorem length_toBytes (hdr : IpHdr) :
  hdr.toBytes.length = 20
  := rfl

/-- Any 20 bytes are those of a header. -/
theorem exists_toBytes {bytes : List Byte} (h : bytes.length = 20) :
  ∃ hdr : IpHdr, hdr.toBytes = bytes
  := by
  obtain ⟨b, rfl⟩ := exists_ofFn h
  have hb : (b 0).extractLsb' 4 4 ++ (b 0).extractLsb' 0 4 = b 0 :=
    BitVec.extractLsb'_append_extractLsb'
  refine ⟨⟨(b 0).extractLsb' 4 4, (b 0).extractLsb' 0 4, b 1, ofBe16 (b 2) (b 3),
    ofBe16 (b 4) (b 5), ofBe16 (b 6) (b 7), b 8, b 9, ofBe16 (b 10) (b 11),
    ofLe32 (b 12) (b 13) (b 14) (b 15), ofLe32 (b 16) (b 17) (b 18) (b 19)⟩, ?_⟩
  rw [toBytes, hb]
  simp only [be16_ofBe16, le32_ofLe32]
  rfl

theorem getElem?_protocol (hdr : IpHdr) (rest : List Byte) :
  (hdr.toBytes ++ rest)[9]? = some hdr.protocol
  := rfl

theorem be16At_totLen (hdr : IpHdr) (rest : List Byte) :
  be16At (hdr.toBytes ++ rest) 2 = some hdr.totLen
  := congrArg some (ofBe16_extract hdr.totLen)

theorem be16At_check (hdr : IpHdr) (rest : List Byte) :
  be16At (hdr.toBytes ++ rest) 10 = some hdr.check
  := congrArg some (ofBe16_extract hdr.check)

theorem le32At_saddr (hdr : IpHdr) (rest : List Byte) :
  le32At (hdr.toBytes ++ rest) 12 = some hdr.saddr
  := congrArg some (ofLe32_extract hdr.saddr)

theorem le32At_daddr (hdr : IpHdr) (rest : List Byte) :
  le32At (hdr.toBytes ++ rest) 16 = some hdr.daddr
  := congrArg some (ofLe32_extract hdr.daddr)

theorem store_protocol (hdr : IpHdr) (rest : List Byte) (protocol : Byte) :
  Memory.store (hdr.toBytes ++ rest) 9 [protocol] =
    some ({ hdr with protocol := protocol }.toBytes ++ rest)
  := Memory.store_append_left rfl rest

theorem store_totLen (hdr : IpHdr) (rest : List Byte) (totLen : BitVec 16) :
  Memory.store (hdr.toBytes ++ rest) 2 (be16 totLen) =
    some ({ hdr with totLen := totLen }.toBytes ++ rest)
  := Memory.store_append_left rfl rest

theorem store_saddr (hdr : IpHdr) (rest : List Byte) (saddr : InAddr) :
  Memory.store (hdr.toBytes ++ rest) 12 (le32 saddr) =
    some ({ hdr with saddr := saddr }.toBytes ++ rest)
  := Memory.store_append_left rfl rest

theorem store_daddr (hdr : IpHdr) (rest : List Byte) (daddr : InAddr) :
  Memory.store (hdr.toBytes ++ rest) 16 (le32 daddr) =
    some ({ hdr with daddr := daddr }.toBytes ++ rest)
  := Memory.store_append_left rfl rest

theorem store_check (hdr : IpHdr) (rest : List Byte) (check : BitVec 16) :
  Memory.store (hdr.toBytes ++ rest) 10 (be16 check) =
    some ({ hdr with check := check }.toBytes ++ rest)
  := Memory.store_append_left rfl rest

end IpHdr

/-- Any 12 bytes are those of a forwarding header. -/
theorem MinimalMobileIpHdr.exists_toBytes {bytes : List Byte} (h : bytes.length = 12) :
  ∃ mip : MinimalMobileIpHdr, mip.toBytes = bytes
  := by
  obtain ⟨b, rfl⟩ := exists_ofFn h
  have hb : (b 1).extractLsb' 7 1 ++ (b 1).extractLsb' 0 7 = b 1 :=
    BitVec.extractLsb'_append_extractLsb'
  refine ⟨⟨b 0, (b 1).extractLsb' 0 7, (b 1).extractLsb' 7 1, ofBe16 (b 2) (b 3),
    ofLe32 (b 4) (b 5) (b 6) (b 7), ofLe32 (b 8) (b 9) (b 10) (b 11)⟩, ?_⟩
  rw [toBytes, hb]
  simp only [be16_ofBe16, le32_ofLe32]
  rfl

namespace MinimalMobileIpHdr

/-- What is read as a forwarding header are its bytes. -/
theorem eq_append_of_ofBytes {bytes : List Byte} {mip : MinimalMobileIpHdr}
    (h : ofBytes bytes = some mip) :
  ∃ rest, bytes = mip.toBytes ++ rest
  := by
  have hlen : 12 ≤ bytes.length := by
    by_contra hlt
    match bytes, h with
    | _ :: _ :: _ :: _ :: _ :: _ :: _ :: _ :: _ :: _ :: _ :: _ :: _, _ =>
        simp at hlt
  obtain ⟨mip', hmip'⟩ := exists_toBytes (List.length_take_of_le hlen)
  have hbytes : bytes = mip'.toBytes ++ bytes.drop 12 := by
    rw [hmip', List.take_append_drop]
  rw [hbytes, ofBytes_toBytes] at h
  rw [← Option.some.inj h]
  exact ⟨_, hbytes⟩

end MinimalMobileIpHdr

namespace PacketMem

/-- The field `ihl` of a header in memory. -/
theorem ihl_eq {buf : PacketMem} {hdr : IpHdr} {rest : List Byte}
    (hdata : buf.data = hdr.toBytes ++ rest) :
  buf.ihl = some hdr.ihl
  := by
  have hfirst : (hdr.toBytes ++ rest)[0]? = some (hdr.version ++ hdr.ihl) := rfl
  rw [ihl, hdata, hfirst, Option.map_some, BitVec.extractLsb'_append_eq_right]

/-- Writing to the field `ihl` of a header in memory. -/
theorem setIhl_eq_some {buf : PacketMem} {hdr : IpHdr} {rest : List Byte}
    (hdata : buf.data = hdr.toBytes ++ rest) (ihl : BitVec 4) :
  ∃ buf', buf.setIhl ihl = some buf' ∧ buf'.length = buf.length ∧
    buf'.data = { hdr with ihl := ihl }.toBytes ++ rest
  := by
  have hfirst : (hdr.toBytes ++ rest)[0]? = some (hdr.version ++ hdr.ihl) := rfl
  rw [setIhl, hdata, hfirst, Option.bind_eq_bind, Option.bind_some,
    BitVec.extractLsb'_append_eq_left]
  apply store_eq_some hdata
  apply Memory.store_append_left rfl rest

/-- Copying part of a buffer over a part of the same length. -/
theorem memcpy_eq_some {buf source : PacketMem}
    {front old back bytes sourceFront sourceBack : List Byte}
    (hdata : buf.data = front ++ (old ++ back)) (hold : old.length = bytes.length)
    (hsource : source.data = sourceFront ++ (bytes ++ sourceBack)) :
  ∃ buf', buf.memcpy front.length source sourceFront.length bytes.length = some buf' ∧
    buf'.length = buf.length ∧ buf'.data = front ++ (bytes ++ back)
  := by
  rw [memcpy, hsource, Memory.load_append, Option.bind_eq_bind, Option.bind_some]
  apply store_eq_some hdata
  apply Memory.store_append hold

/-- The IP header after its fields have been written. -/
theorem writeIpHdr_eq_some {buf : PacketMem} {hdr : IpHdr} {rest : List Byte}
    (hdata : buf.data = hdr.toBytes ++ rest) (protocol : Byte) {hdrLen : ℕ}
    (hle : hdrLen ≤ packetBufSize) (totLen : ℕ) (saddr daddr : InAddr) {hdr' : IpHdr}
    (hhdr' : { hdr with
      protocol := protocol
      ihl := BitVec.ofNat 4 (hdrLen / 4)
      totLen := BitVec.ofNat 16 totLen
      saddr := saddr
      daddr := daddr
      check := 0 } = hdr') :
  ∃ buf', buf.writeIpHdr protocol hdrLen totLen saddr daddr = some buf' ∧
    buf'.length = buf.length ∧ buf'.data =
      { hdr' with check := calcIpChecksum ((hdr'.toBytes ++ rest).take hdrLen) }.toBytes ++ rest
  := by
  obtain ⟨buf₁, h₁, hlen₁, hdata₁⟩ := store_eq_some hdata (IpHdr.store_protocol _ _ protocol)
  obtain ⟨buf₂, h₂, hlen₂, hdata₂⟩ := setIhl_eq_some hdata₁ (BitVec.ofNat 4 (hdrLen / 4))
  obtain ⟨buf₃, h₃, hlen₃, hdata₃⟩ :=
    store_eq_some hdata₂ (IpHdr.store_totLen _ _ (BitVec.ofNat 16 totLen))
  obtain ⟨buf₄, h₄, hlen₄, hdata₄⟩ := store_eq_some hdata₃ (IpHdr.store_saddr _ _ saddr)
  obtain ⟨buf₅, h₅, hlen₅, hdata₅⟩ := store_eq_some hdata₄ (IpHdr.store_daddr _ _ daddr)
  obtain ⟨buf₆, h₆, hlen₆, hdata₆⟩ := store_eq_some hdata₅ (IpHdr.store_check _ _ 0)
  have hdata₆' : buf₆.data = hdr'.toBytes ++ rest := by
    rw [hdata₆, ← hhdr']
  have hload : Memory.load buf₆.data 0 hdrLen = some ((hdr'.toBytes ++ rest).take hdrLen) := by
    rw [Memory.load, if_pos (by rw [buf₆.size]; omega), hdata₆', List.drop_zero]
  obtain ⟨buf₇, h₇, hlen₇, hdata₇⟩ := store_eq_some hdata₆'
    (IpHdr.store_check _ _ (calcIpChecksum ((hdr'.toBytes ++ rest).take hdrLen)))
  refine ⟨buf₇, ?_, ?_, hdata₇⟩
  · simp only [writeIpHdr, h₁, h₂, h₃, h₄, h₅, h₆, hload, h₇, Option.bind_eq_bind,
      Option.bind_some]
  · rw [hlen₇, hlen₆, hlen₅, hlen₄, hlen₃, hlen₂, hlen₁]

/-- Writing to the forwarding header after `front`. -/
theorem store_mip {buf : PacketMem} {front rest bytes : List Byte} {mip mip' : MinimalMobileIpHdr}
    {off : ℕ} (hdata : buf.data = front ++ (mip.toBytes ++ rest))
    (h : Memory.store mip.toBytes off bytes = some mip'.toBytes) :
  ∃ buf', buf.store (front.length + off) bytes = some buf' ∧ buf'.length = buf.length ∧
    buf'.data = front ++ (mip'.toBytes ++ rest)
  := by
  apply store_eq_some hdata
  apply Memory.store_append_right
  apply Memory.store_append_left h

/-- The byte of the bit fields of the forwarding header after `front`. -/
theorem getElem?_mip {buf : PacketMem} {front rest : List Byte} {mip : MinimalMobileIpHdr}
    (hdata : buf.data = front ++ (mip.toBytes ++ rest)) :
  buf.data[front.length + 1]? = some (mip.s ++ mip.recv)
  := by
  rw [hdata, List.getElem?_append_right (Nat.le_add_right _ _), Nat.add_sub_cancel_left]
  rfl

/-- The forwarding header after its fields have been written. -/
theorem writeMip_eq_some {buf : PacketMem} {front rest : List Byte} {mip : MinimalMobileIpHdr}
    (hdata : buf.data = front ++ (mip.toBytes ++ rest)) (hdr : IpHdr) :
  ∃ buf', buf.writeMip front.length hdr.protocol hdr.daddr hdr.saddr = some buf' ∧
    buf'.length = buf.length ∧ buf'.data = front ++ ((mipHdrOf hdr).toBytes ++ rest)
  := by
  let mip₁ : MinimalMobileIpHdr := { mip with ipproto := hdr.protocol }
  let mip₂ : MinimalMobileIpHdr := { mip₁ with recv := 0 }
  let mip₃ : MinimalMobileIpHdr := { mip₂ with s := 1 }
  let mip₄ : MinimalMobileIpHdr := { mip₃ with checksum := 0 }
  let mip₅ : MinimalMobileIpHdr := { mip₄ with origDstIp := hdr.daddr }
  let mip₆ : MinimalMobileIpHdr := { mip₅ with origSrcIp := hdr.saddr }
  have hs : (mip₁.s ++ mip₁.recv).extractLsb' 7 1 = mip₁.s := BitVec.extractLsb'_append_eq_left
  have hrecv : (mip₂.s ++ mip₂.recv).extractLsb' 0 7 = mip₂.recv :=
    BitVec.extractLsb'_append_eq_right
  have hstore₁ : Memory.store mip.toBytes 0 [hdr.protocol] = some mip₁.toBytes := rfl
  have hstore₂ : Memory.store mip₁.toBytes 1 [mip₁.s ++ (0 : BitVec 7)] = some mip₂.toBytes := rfl
  have hstore₃ : Memory.store mip₂.toBytes 1 [(1 : BitVec 1) ++ mip₂.recv] =
      some mip₃.toBytes := rfl
  have hstore₄ : Memory.store mip₃.toBytes 2 (be16 0) = some mip₄.toBytes := rfl
  have hstore₅ : Memory.store mip₄.toBytes 4 (le32 hdr.daddr) = some mip₅.toBytes := rfl
  have hstore₆ : Memory.store mip₅.toBytes 8 (le32 hdr.saddr) = some mip₆.toBytes := rfl
  have hstore₇ : Memory.store mip₆.toBytes 2 (be16 (calcIpChecksum mip₆.toBytes)) =
      some (mipHdrOf hdr).toBytes := rfl
  obtain ⟨buf₁, h₁, hlen₁, hdata₁⟩ := store_mip hdata hstore₁
  obtain ⟨buf₂, h₂, hlen₂, hdata₂⟩ := store_mip hdata₁ hstore₂
  obtain ⟨buf₃, h₃, hlen₃, hdata₃⟩ := store_mip hdata₂ hstore₃
  obtain ⟨buf₄, h₄, hlen₄, hdata₄⟩ := store_mip hdata₃ hstore₄
  obtain ⟨buf₅, h₅, hlen₅, hdata₅⟩ := store_mip hdata₄ hstore₅
  obtain ⟨buf₆, h₆, hlen₆, hdata₆⟩ := store_mip hdata₅ hstore₆
  obtain ⟨buf₇, h₇, hlen₇, hdata₇⟩ := store_mip hdata₆ hstore₇
  have hload : Memory.load buf₆.data front.length 12 = some mip₆.toBytes := by
    rw [hdata₆]
    apply Memory.load_append
  refine ⟨buf₇, ?_, ?_, hdata₇⟩
  · rw [Nat.add_zero] at h₁
    simp only [writeMip, h₁, getElem?_mip hdata₁, hs, h₂, getElem?_mip hdata₂, hrecv, h₃, h₄, h₅,
      h₆, hload, h₇, Option.bind_eq_bind, Option.bind_some]
  · rw [hlen₇, hlen₆, hlen₅, hlen₄, hlen₃, hlen₂, hlen₁]

end PacketMem

/-! ### What the functions do -/

@[simp]
theorem PacketBuf.length_toBytes (pkt : PacketBuf) :
  pkt.toBytes.length = pkt.length
  := by
  rw [toBytes, List.length_append, IpHdr.length_toBytes]
  rfl

/-- Memory that holds a packet, at the end of its header. -/
theorem PacketMem.Holds.split {buf : PacketMem} {pkt : PacketBuf} (h : buf.Holds pkt.toBytes)
    {n : ℕ} (hn : 20 ≤ n) (hle : n ≤ pkt.length) :
  ∃ back, buf.data = pkt.hdr.toBytes ++ (pkt.rest ++ back) ∧
    buf.data = pkt.hdr.toBytes ++ pkt.rest.take (n - 20) ++ (pkt.rest.drop (n - 20) ++ back) ∧
    (∀ hdr : IpHdr, (hdr.toBytes ++ pkt.rest.take (n - 20)).length = n) ∧
    (pkt.rest.drop (n - 20)).length = pkt.length - n ∧
    pkt.length ≤ packetBufSize ∧ buf.length = pkt.length
  := by
  obtain ⟨back, hback⟩ := h.data
  have hlength : pkt.length = 20 + pkt.rest.length := rfl
  have hdata : buf.data = pkt.hdr.toBytes ++ (pkt.rest ++ back) := by
    rw [hback, PacketBuf.toBytes, List.append_assoc]
  refine ⟨back, hdata, ?_, ?_, ?_, ?_, ?_⟩
  · rw [hdata, List.append_assoc, ← List.append_assoc (pkt.rest.take (n - 20)),
      List.take_append_drop]
  · intro hdr
    rw [List.length_append, IpHdr.length_toBytes, List.length_take]
    omega
  · rw [List.length_drop]
    omega
  · have hsize := buf.size
    rw [hdata, List.length_append, IpHdr.length_toBytes, List.length_append] at hsize
    omega
  · rw [h.length, PacketBuf.length_toBytes]

/-- The first bytes of memory that holds a packet. -/
theorem take_toBytes {pkt : PacketBuf} {n : ℕ} (hle : n ≤ pkt.length) (back : List Byte) :
  (pkt.hdr.toBytes ++ (pkt.rest ++ back)).take n = pkt.toBytes.take n
  := by
  rw [← List.append_assoc, List.take_append_of_le_length]
  · rfl
  · rw [List.length_append, IpHdr.length_toBytes]
    apply hle

/-- Lengths within a packet do not wrap around. -/
theorem sizeSub_of_le_size {m n : ℕ} (hle : n ≤ m) (hm : m ≤ packetBufSize) :
  sizeSub m n = m - n
  := by
  apply sizeSub_of_le hle
  rw [packetBufSize] at hm
  omega

/-- Memory that holds a packet with a forwarding header, at both ends of the forwarding header. -/
theorem PacketMem.Holds.split_mip {buf : PacketMem} {pkt : PacketBuf} (h : buf.Holds pkt.toBytes)
    (hge : 32 ≤ pkt.hdrLen) (hle : pkt.hdrLen ≤ pkt.length) {mip : MinimalMobileIpHdr}
    (hmip : MinimalMobileIpHdr.ofBytes (pkt.rest.drop (pkt.hdrLen - 12 - 20)) = some mip) :
  ∃ back, buf.data = pkt.hdr.toBytes ++ pkt.rest.take (pkt.hdrLen - 12 - 20) ++
    (mip.toBytes ++ (pkt.rest.drop (pkt.hdrLen - 20) ++ back))
  := by
  obtain ⟨back, -, hsplit, -⟩ := h.split (n := pkt.hdrLen - 12) (by omega) (by omega)
  obtain ⟨payload, hpayload⟩ := MinimalMobileIpHdr.eq_append_of_ofBytes hmip
  have hdrop : pkt.rest.drop (pkt.hdrLen - 20) = payload := by
    have hsum : pkt.hdrLen - 20 = pkt.hdrLen - 12 - 20 + 12 := by omega
    rw [hsum, ← List.drop_drop, hpayload]
    rfl
  refine ⟨back, ?_⟩
  rw [hsplit, hpayload, hdrop, List.append_assoc mip.toBytes]

/-- The fields of the forwarding header after `front` that `minimal_mip_decap` reads. -/
theorem PacketMem.mip_fields {buf : PacketMem} {front rest : List Byte} {mip : MinimalMobileIpHdr}
    (hdata : buf.data = front ++ (mip.toBytes ++ rest)) :
  buf.data[front.length]? = some mip.ipproto ∧
    le32At buf.data (front.length + 4) = some mip.origDstIp ∧
    le32At buf.data (front.length + 8) = some mip.origSrcIp
  := by
  refine ⟨?_, ?_, ?_⟩
  · rw [hdata, List.getElem?_append_right (Nat.le_refl _), Nat.sub_self]
    rfl
  · rw [hdata, le32At_append_right]
    apply congrArg some (ofLe32_extract mip.origDstIp)
  · rw [hdata, le32At_append_right]
    apply congrArg some (ofLe32_extract mip.origSrcIp)

/-- The packet that `minimal_mip_encap` makes, before its checksum is set. -/
def encapPkt (pkt : PacketBuf) (newSrc newDst : InAddr) : PacketBuf where
  hdr := { pkt.hdr with
    protocol := ipprotoMobile
    ihl := BitVec.ofNat 4 ((pkt.hdrLen + 12) / 4)
    totLen := BitVec.ofNat 16 (pkt.length + 12)
    saddr := newSrc
    daddr := newDst
    check := 0 }
  rest := pkt.rest.take (pkt.hdrLen - 20) ++ (mipHdrOf pkt.hdr).toBytes ++
    pkt.rest.drop (pkt.hdrLen - 20)

/-- The packet that `minimal_mip_decap` makes, before its checksum is set. -/
def decapPkt (pkt : PacketBuf) (mip : MinimalMobileIpHdr) : PacketBuf where
  hdr := { pkt.hdr with
    protocol := mip.ipproto
    ihl := BitVec.ofNat 4 ((pkt.hdrLen - 12) / 4)
    totLen := BitVec.ofNat 16 (pkt.length - 12)
    saddr := mip.origSrcIp
    daddr := mip.origDstIp
    check := 0 }
  rest := pkt.rest.take (pkt.hdrLen - 12 - 20) ++ pkt.rest.drop (pkt.hdrLen - 20)

theorem minimalMipEncap_eq_some {pkt encap : PacketBuf} {newSrc newDst : InAddr}
    (h : minimalMipEncap pkt newSrc newDst = some encap) :
  20 ≤ pkt.hdrLen ∧ pkt.hdrLen ≤ pkt.length ∧ pkt.length + 12 ≤ packetBufSize ∧
    encap = { encapPkt pkt newSrc newDst with
      hdr.check := calcIpChecksum ((encapPkt pkt newSrc newDst).toBytes.take (pkt.hdrLen + 12)) }
  := by
  rw [minimalMipEncap] at h
  split_ifs at h with hbounds
  refine ⟨by omega, by omega, by omega, ?_⟩
  exact (Option.some.inj h).symm

theorem minimalMipDecap_eq_some {pkt decap : PacketBuf} (h : minimalMipDecap pkt = some decap) :
  32 ≤ pkt.hdrLen ∧ pkt.hdrLen ≤ pkt.length ∧
    ∃ mip, MinimalMobileIpHdr.ofBytes (pkt.rest.drop (pkt.hdrLen - 12 - 20)) = some mip ∧
      decap = { decapPkt pkt mip with
        hdr.check := calcIpChecksum ((decapPkt pkt mip).toBytes.take (pkt.hdrLen - 12)) }
  := by
  rw [minimalMipDecap] at h
  split_ifs at h with hbounds
  obtain ⟨mip, hmip, h⟩ := Option.bind_eq_some_iff.mp h
  refine ⟨by omega, by omega, mip, hmip, ?_⟩
  exact (Option.some.inj h).symm

theorem length_encapPkt {pkt : PacketBuf} (hle : 20 ≤ pkt.hdrLen) (hlen : pkt.hdrLen ≤ pkt.length)
    (newSrc newDst : InAddr) :
  (encapPkt pkt newSrc newDst).length = pkt.length + 12
  := by
  have hpkt : pkt.length = 20 + pkt.rest.length := rfl
  have hencap : (encapPkt pkt newSrc newDst).length =
      20 + (encapPkt pkt newSrc newDst).rest.length := rfl
  rw [hencap, encapPkt]
  simp only [List.length_append, MinimalMobileIpHdr.length_toBytes, List.length_take,
    List.length_drop]
  omega

theorem length_decapPkt {pkt : PacketBuf} (hle : 32 ≤ pkt.hdrLen) (hlen : pkt.hdrLen ≤ pkt.length)
    (mip : MinimalMobileIpHdr) :
  (decapPkt pkt mip).length = pkt.length - 12
  := by
  have hpkt : pkt.length = 20 + pkt.rest.length := rfl
  have hdecap : (decapPkt pkt mip).length = 20 + (decapPkt pkt mip).rest.length := rfl
  rw [hdecap, decapPkt]
  simp only [List.length_append, List.length_take, List.length_drop]
  omega

/-- On memory that holds a packet, `minimal_mip_encap` makes memory that holds the encapsulated
packet, whatever the other buffer held. -/
theorem minimalMipEncapMem_holds {pkt encap : PacketBuf} {newSrc newDst : InAddr}
    (h : minimalMipEncap pkt newSrc newDst = some encap) {ipPkt : PacketMem}
    (hpkt : ipPkt.Holds pkt.toBytes) (encapIpPktBuf : PacketMem) :
  ∃ encapIpPkt, minimalMipEncapMem ipPkt encapIpPktBuf newSrc newDst = some encapIpPkt ∧
    encapIpPkt.Holds encap.toBytes
  := by
  obtain ⟨hle, hlen, hfits, rfl⟩ := minimalMipEncap_eq_some h
  obtain ⟨back, hdata, hsplit, hfront, hpayload, hsize, hlength⟩ := hpkt.split hle hlen
  have hhdrLen : pkt.hdr.ihl.toNat * 4 = pkt.hdrLen := rfl
  have hnewLen := length_encapPkt hle hlen newSrc newDst
  set newPkt := encapPkt pkt newSrc newDst with hnewPkt
  set opts := pkt.rest.take (pkt.hdrLen - 20)
  set payload := pkt.rest.drop (pkt.hdrLen - 20)
  -- The other buffer, cut where the header, the forwarding header and the payload will be.
  obtain ⟨old₁, old₂, rest₂, hold, hlen₁, hlen₂⟩ :=
    Memory.exists_cut₂ (m := pkt.hdrLen) (n := 12) (by rw [encapIpPktBuf.size]; omega)
  have hroom : payload.length ≤ rest₂.length := by
    have hbufLen := encapIpPktBuf.size
    rw [hold, List.length_append, List.length_append] at hbufLen
    omega
  obtain ⟨old₃, rest₃, rfl, hlen₃⟩ := Memory.exists_cut hroom
  obtain ⟨mip, rfl⟩ := MinimalMobileIpHdr.exists_toBytes hlen₂
  have hsource : ipPkt.data = [] ++ (pkt.hdr.toBytes ++ opts ++ (payload ++ back)) := hsplit
  have hbuf : encapIpPktBuf.data = [] ++ (old₁ ++ (mip.toBytes ++ (old₃ ++ rest₃))) := hold
  obtain ⟨buf₁, h₁, -, hdata₁⟩ :=
    PacketMem.memcpy_eq_some hbuf (hlen₁.trans (hfront _).symm) hsource
  rw [List.nil_append] at hdata₁
  obtain ⟨buf₂, h₂, -, hdata₂⟩ := PacketMem.writeMip_eq_some hdata₁ pkt.hdr
  have hdata₂' : buf₂.data = pkt.hdr.toBytes ++ opts ++ (mipHdrOf pkt.hdr).toBytes ++
      (old₃ ++ rest₃) := by
    rw [hdata₂, List.append_assoc _ (mipHdrOf pkt.hdr).toBytes]
  obtain ⟨buf₃, h₃, -, hdata₃⟩ := PacketMem.memcpy_eq_some hdata₂' hlen₃ hsplit
  have hdata₃' : buf₃.data = pkt.hdr.toBytes ++ (newPkt.rest ++ rest₃) := by
    rw [hdata₃, hnewPkt, encapPkt]
    simp only [List.append_assoc]
    rfl
  obtain ⟨buf₄, h₄, -, hdata₄⟩ := PacketMem.writeIpHdr_eq_some hdata₃' ipprotoMobile
    (by omega : pkt.hdrLen + 12 ≤ packetBufSize) (pkt.length + 12) newSrc newDst
    (rfl : _ = newPkt.hdr)
  rw [take_toBytes (by omega)] at hdata₄
  have hsub : sizeSub pkt.length pkt.hdrLen = payload.length := by
    rw [hpayload]
    apply sizeSub_of_le_size hlen hsize
  refine ⟨{ buf₄ with length := (12 + ipPkt.length) % 2 ^ 64 }, ?_, ?_, rest₃, ?_⟩
  · rw [hfront, List.length_nil] at h₁
    rw [hfront] at h₂
    rw [List.length_append, MinimalMobileIpHdr.length_toBytes, hfront] at h₃
    simp only [minimalMipEncapMem, PacketMem.ihl_eq hdata, hhdrLen, h₁, hdata,
      IpHdr.getElem?_protocol, IpHdr.le32At_daddr, IpHdr.le32At_saddr, h₂, hlength, hsub, h₃, h₄,
      Option.bind_eq_bind, Option.bind_some, Option.pure_def]
  · have hlt : newPkt.length < 2 ^ 64 := by
      rw [hnewLen]
      rw [packetBufSize] at hfits
      omega
    rw [PacketBuf.length_toBytes, hlength, Nat.add_comm, ← hnewLen, Nat.mod_eq_of_lt hlt]
    rfl
  · apply hdata₄.trans (List.append_assoc _ _ _).symm

/-- On memory that holds a packet with a forwarding header, `minimal_mip_decap` makes memory that
holds the packet without it, whatever the other buffer held. -/
theorem minimalMipDecapMem_holds {pkt decap : PacketBuf} (h : minimalMipDecap pkt = some decap)
    {encapIpPkt : PacketMem} (hpkt : encapIpPkt.Holds pkt.toBytes) (decapIpPktBuf : PacketMem) :
  ∃ decapIpPkt, minimalMipDecapMem encapIpPkt decapIpPktBuf = some decapIpPkt ∧
    decapIpPkt.Holds decap.toBytes
  := by
  obtain ⟨hle, hlen, mip, hmip, rfl⟩ := minimalMipDecap_eq_some h
  obtain ⟨_, hdata, -, hfront, -, hsize, hlength⟩ :=
    hpkt.split (n := pkt.hdrLen - 12) (by omega) (by omega)
  obtain ⟨back, hsplit⟩ := hpkt.split_mip (by omega) (by omega) hmip
  obtain ⟨hmipAt, hdstAt, hsrcAt⟩ := PacketMem.mip_fields hsplit
  have hpayload : (pkt.rest.drop (pkt.hdrLen - 20)).length = pkt.length - pkt.hdrLen := by
    have hpktLen : pkt.length = 20 + pkt.rest.length := rfl
    rw [List.length_drop]
    omega
  have hhdrLen : pkt.hdr.ihl.toNat * 4 = pkt.hdrLen := rfl
  have hnewLen := length_decapPkt hle hlen mip
  set newPkt := decapPkt pkt mip with hnewPkt
  set opts := pkt.rest.take (pkt.hdrLen - 12 - 20)
  set payload := pkt.rest.drop (pkt.hdrLen - 20)
  rw [hfront] at hmipAt hdstAt hsrcAt
  -- The other buffer, cut where the header and the payload will be.
  obtain ⟨old₁, old₂, rest₂, hold, hlen₁, hlen₂⟩ :=
    Memory.exists_cut₂ (m := pkt.hdrLen - 12) (n := payload.length)
      (by rw [decapIpPktBuf.size]; omega)
  have hsource₁ : encapIpPkt.data = [] ++ (pkt.hdr.toBytes ++ opts ++
      (mip.toBytes ++ (payload ++ back))) := hsplit
  have hbuf : decapIpPktBuf.data = [] ++ (old₁ ++ (old₂ ++ rest₂)) := hold
  obtain ⟨buf₁, h₁, -, hdata₁⟩ :=
    PacketMem.memcpy_eq_some hbuf (hlen₁.trans (hfront _).symm) hsource₁
  rw [List.nil_append, List.append_assoc] at hdata₁
  obtain ⟨buf₂, h₂, -, hdata₂⟩ := PacketMem.writeIpHdr_eq_some hdata₁ mip.ipproto
    (by omega : pkt.hdrLen - 12 ≤ packetBufSize) (pkt.length - 12) mip.origSrcIp mip.origDstIp
    (rfl : _ = newPkt.hdr)
  -- The checksum is that of the header, whatever lies behind it in the other buffer.
  have htake : ∀ l, (newPkt.hdr.toBytes ++ (opts ++ l)).take (pkt.hdrLen - 12) =
      newPkt.hdr.toBytes ++ opts := by
    intro l
    rw [← List.append_assoc]
    apply List.take_left' (hfront _)
  have hnewTake : newPkt.toBytes.take (pkt.hdrLen - 12) = newPkt.hdr.toBytes ++ opts :=
    htake payload
  rw [htake, ← List.append_assoc] at hdata₂
  have hsource₂ : encapIpPkt.data = pkt.hdr.toBytes ++ opts ++ mip.toBytes ++
      (payload ++ back) := by
    rw [hsplit, List.append_assoc _ mip.toBytes]
  obtain ⟨buf₃, h₃, -, hdata₃⟩ := PacketMem.memcpy_eq_some hdata₂ hlen₂ hsource₂
  have hsub : sizeSub pkt.length pkt.hdrLen = payload.length := by
    rw [hpayload]
    apply sizeSub_of_le_size hlen hsize
  have hsub₁₂ : sizeSub pkt.length 12 = pkt.length - 12 := sizeSub_of_le_size (by omega) hsize
  have hdecapLen : intToSize (sizeToInt (sizeSub pkt.hdrLen 12)) = pkt.hdrLen - 12 := by
    rw [packetBufSize] at hsize
    rw [sizeSub_of_le (by omega) (by omega), sizeToInt_of_lt (by omega),
      intToSize_natCast (by omega)]
  refine ⟨{ buf₃ with length := sizeSub encapIpPkt.length 12 }, ?_, ?_, rest₂, ?_⟩
  · have hmid : (pkt.hdr.toBytes ++ opts ++ mip.toBytes).length = pkt.hdrLen := by
      rw [List.length_append, hfront, MinimalMobileIpHdr.length_toBytes]
      omega
    rw [hfront, List.length_nil] at h₁
    rw [hmid, hfront] at h₃
    rw [minimalMipDecapMem, PacketMem.ihl_eq hdata, Option.bind_eq_bind, Option.bind_some]
    dsimp only
    simp only [hhdrLen, hdecapLen, h₁, Option.bind_eq_bind, Option.bind_some, hmipAt, hdstAt,
      hsrcAt]
    rw [hlength, hsub₁₂, h₂, Option.bind_some, hsub, h₃]
    rfl
  · rw [PacketBuf.length_toBytes, hlength, hsub₁₂]
    apply hnewLen.symm
  · rw [hnewTake, hdata₃, List.append_assoc, ← List.append_assoc opts, ← List.append_assoc]
    rfl

/-! ### Decapsulation undoes encapsulation -/

/-- The bytes are those of an IP packet that can be encapsulated: the field `ihl` is between 5 and
12, the packet is no shorter than its header and has at most 2038 bytes, `tot_len` is its length,
and the checksum is that of the header with the field zeroed. -/
structure IsIpPacket (p : List Byte) (ihl : ℕ) : Prop where
  ihl_eq : p[0]?.map (fun b => (b.extractLsb' 0 4).toNat) = some ihl
  ihl_ge : 5 ≤ ihl
  ihl_le : ihl ≤ 12
  hdrLen_le : 4 * ihl ≤ p.length
  length_le : p.length ≤ 2038
  totLen : be16At p 2 = some (BitVec.ofNat 16 p.length)
  check : be16At p 10 = some (calcIpChecksum ((p.take 10 ++ [0, 0] ++ p.drop 12).take (4 * ihl)))

/-- Such bytes are those of a well-formed packet. -/
theorem IsIpPacket.wellFormed {p : List Byte} {ihl : ℕ} (h : IsIpPacket p ihl) :
  ∃ pkt : PacketBuf, pkt.WellFormed ∧ p = pkt.toBytes ∧ pkt.hdr.ihl.toNat = ihl
  := by
  have hge := h.ihl_ge
  have hle := h.ihl_le
  have hhdrLen := h.hdrLen_le
  obtain ⟨front, rest, rfl, hfront⟩ := Memory.exists_cut (by omega : 20 ≤ p.length)
  obtain ⟨hdr, rfl⟩ := IpHdr.exists_toBytes hfront
  have hihl : hdr.ihl.toNat = ihl := by
    have hfirst : (hdr.toBytes ++ rest)[0]? = some (hdr.version ++ hdr.ihl) := rfl
    have hfield := h.ihl_eq
    rw [hfirst, Option.map_some, BitVec.extractLsb'_append_eq_right] at hfield
    apply Option.some.inj hfield
  have hlength : (hdr.toBytes ++ rest).length = (PacketBuf.mk hdr rest).length :=
    PacketBuf.length_toBytes ⟨hdr, rest⟩
  have hzeroed : (hdr.toBytes ++ rest).take 10 ++ [0, 0] ++ (hdr.toBytes ++ rest).drop 12 =
      { hdr with check := 0 }.toBytes ++ rest := by
    have hzero : be16 0 = [0, 0] := by decide
    rw [← hzero]
    rfl
  refine ⟨⟨hdr, rest⟩, ?_, rfl, hihl⟩
  constructor
  · rw [hihl]
    apply hge
  · rw [hihl]
    apply hle
  · rw [PacketBuf.hdrLen, ← hlength]
    dsimp only
    omega
  · rw [← hlength]
    apply h.length_le
  · rw [← hlength]
    apply Option.some.inj ((IpHdr.be16At_totLen hdr rest).symm.trans h.totLen)
  · have hcheck := h.check
    rw [hzeroed, IpHdr.be16At_check] at hcheck
    rw [PacketBuf.hdrChecksum, PacketBuf.hdrLen, hihl, Nat.mul_comm]
    apply Option.some.inj hcheck

/-- The fields `ihl` and `tot_len` of an encapsulated packet. -/
theorem minimalMipEncap_fields {pkt encap : PacketBuf} {newSrc newDst : InAddr}
    (h : minimalMipEncap pkt newSrc newDst = some encap) :
  encap.hdr.ihl = BitVec.ofNat 4 ((pkt.hdrLen + 12) / 4) ∧
    encap.hdr.totLen = BitVec.ofNat 16 (pkt.length + 12)
  := by
  rw [minimalMipEncap] at h
  split_ifs at h
  obtain rfl := Option.some.inj h
  exact ⟨rfl, rfl⟩

/-- On memory that holds an IP packet, `minimal_mip_encap` makes a packet with a forwarding header,
12 bytes longer, of which `minimal_mip_decap` makes the same bytes again. The buffers that are
written may have held anything before. -/
theorem minimalMipDecapMem_encap {p : List Byte} {ihl : ℕ} (h : IsIpPacket p ihl)
    (newSrc newDst : InAddr) {ipPkt : PacketMem} (hp : ipPkt.Holds p)
    (encapIpPktBuf decapIpPktBuf : PacketMem) :
  ∃ q encapIpPkt decapIpPkt,
    minimalMipEncapMem ipPkt encapIpPktBuf newSrc newDst = some encapIpPkt ∧
    encapIpPkt.Holds q ∧ q.length = p.length + 12 ∧
    le32At q 12 = some newSrc ∧ le32At q 16 = some newDst ∧ q[9]? = some ipprotoMobile ∧
    q[0]?.map (fun b => (b.extractLsb' 0 4).toNat) = some (ihl + 3) ∧
    be16At q 2 = some (BitVec.ofNat 16 q.length) ∧
    minimalMipDecapMem encapIpPkt decapIpPktBuf = some decapIpPkt ∧ decapIpPkt.Holds p
  := by
  obtain ⟨pkt, hwf, rfl, hihl⟩ := h.wellFormed
  obtain ⟨encap, hencap, hencapsulates⟩ := hwf.encapsulates newSrc newDst
  obtain ⟨encapIpPkt, hencapMem, hencapHolds⟩ :=
    minimalMipEncapMem_holds hencap hp encapIpPktBuf
  obtain ⟨hihlEncap, htotLen⟩ := minimalMipEncap_fields hencap
  obtain ⟨decapIpPkt, hdecapMem, hdecapHolds⟩ :=
    minimalMipDecapMem_holds hencapsulates.decap hencapHolds decapIpPktBuf
  refine ⟨encap.toBytes, encapIpPkt, decapIpPkt, hencapMem, hencapHolds, ?_, ?_, ?_, ?_, ?_, ?_,
    hdecapMem, hdecapHolds⟩
  · rw [PacketBuf.length_toBytes, PacketBuf.length_toBytes, hencapsulates.length]
  · rw [PacketBuf.toBytes, IpHdr.le32At_saddr, hencapsulates.saddr]
  · rw [PacketBuf.toBytes, IpHdr.le32At_daddr, hencapsulates.daddr]
  · rw [PacketBuf.toBytes, IpHdr.getElem?_protocol, hencapsulates.protocol]
  · have hfirst : encap.toBytes[0]? = some (encap.hdr.version ++ encap.hdr.ihl) := rfl
    have hle := hwf.ihl_le
    have hdiv : (pkt.hdrLen + 12) / 4 = pkt.hdr.ihl.toNat + 3 := by
      rw [PacketBuf.hdrLen]
      omega
    rw [hfirst, Option.map_some, BitVec.extractLsb'_append_eq_right, hihlEncap, hdiv, hihl,
      BitVec.toNat_ofNat, Nat.mod_eq_of_lt (by omega)]
  · rw [PacketBuf.length_toBytes, PacketBuf.toBytes, IpHdr.be16At_totLen, htotLen,
      hencapsulates.length]

/-- A packet of 21 bytes from `192.168.1.1` to `192.168.3.1`. -/
def shortPacket : List Byte := (buildIpHdr 21 64 (nodeIp 1) (nodeIp 3) ipprotoUdp).toBytes ++ [0xAB]

/-- A buffer that holds it, with zeros after it. -/
def shortPacketMem : PacketMem where
  length := 21
  data := shortPacket ++ List.replicate 2029 0
  size := by
    rw [List.length_append, List.length_replicate]
    rfl

/-- The packet is recovered from a buffer that held the encapsulated packet, when the buffers held
copies of the packet before. -/
theorem minimalMipDecapMem_encap_short :
  ∃ q encapIpPkt decapIpPkt,
    minimalMipEncapMem shortPacketMem shortPacketMem (nodeIp 1) (nodeIp 2) = some encapIpPkt ∧
    encapIpPkt.Holds q ∧ q.length = 33 ∧
    le32At q 12 = some (nodeIp 1) ∧ le32At q 16 = some (nodeIp 2) ∧ q[9]? = some ipprotoMobile ∧
    q[0]?.map (fun b => (b.extractLsb' 0 4).toNat) = some 8 ∧
    be16At q 2 = some (BitVec.ofNat 16 q.length) ∧
    minimalMipDecapMem encapIpPkt shortPacketMem = some decapIpPkt ∧ decapIpPkt.Holds shortPacket
  := by
  have hpacket : IsIpPacket shortPacket 5 := by
    constructor <;> decide +kernel
  have hholds : shortPacketMem.Holds shortPacket := ⟨rfl, _, rfl⟩
  exact minimalMipDecapMem_encap hpacket (nodeIp 1) (nodeIp 2) hholds shortPacketMem shortPacketMem
