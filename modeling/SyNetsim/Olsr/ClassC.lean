import SyNetsim.Olsr.DataPath

/-!
# The network of a node

A node delivers packets for its own network and keeps packets for it off the air. The network is
meant to be the addresses with the first three octets of its own, but on a little-endian host the
mask of `IP_C_CLASS_MATCH` compares the last three (`ipCClassMatch_iff`).

So the handlers follow the network of a node for those destinations only for which it makes no
difference (`followsNetwork_iff`).
-/

/-- The octet number `i` of an address, from 0 on. The first one has the lowest address in memory,
so it is the lowest byte of the integer. -/
def octet (ip : InAddr) (i : ℕ) : Byte := ip.extractLsb' (8 * i) 8

/-- Two addresses agree in their first three octets. -/
def SameNetwork (ip1 ip2 : InAddr) : Prop :=
  octet ip1 0 = octet ip2 0 ∧ octet ip1 1 = octet ip2 1 ∧ octet ip1 2 = octet ip2 2

instance (ip1 ip2 : InAddr) : Decidable (SameNetwork ip1 ip2) :=
  inferInstanceAs (Decidable (_ ∧ _ ∧ _))

/-! ### The mask -/

/-- The mask lets every octet but the first one through. -/
theorem octet_mask (ip : InAddr) {i : ℕ} (hi : 1 ≤ i) (hi' : i < 4) :
  octet (ip &&& 0xffffff00) i = octet ip i
  := by
  have hmask : ∀ j < 4, 1 ≤ j → octet 0xffffff00 j = BitVec.allOnes 8 := by decide
  have hi'' := hmask i hi' hi
  rw [octet] at hi''
  rw [octet, BitVec.extractLsb'_and, hi'', BitVec.and_allOnes, octet]

/-- The bits that the mask lets through. -/
theorem getLsbD_mask {i : ℕ} (hi : i < 32) :
  (0xffffff00 : InAddr).getLsbD i = decide (8 ≤ i)
  := by
  have hall : ∀ i < 32, (0xffffff00 : InAddr).getLsbD i = decide (8 ≤ i) := by decide
  apply hall i hi

/-- The bits of an address are those of its octets. -/
theorem getLsbD_octet (ip : InAddr) (i : ℕ) :
  (octet ip (i / 8)).getLsbD (i % 8) = ip.getLsbD i
  := by
  have hlt : i % 8 < 8 := Nat.mod_lt i (by decide)
  rw [octet, BitVec.getLsbD_extractLsb', Nat.div_add_mod, decide_eq_true hlt, Bool.true_and]

/-- `IP_C_CLASS_MATCH` compares the last three octets. -/
theorem ipCClassMatch_iff {ip1 ip2 : InAddr} :
  ipCClassMatch ip1 ip2 = true ↔
    octet ip1 1 = octet ip2 1 ∧ octet ip1 2 = octet ip2 2 ∧ octet ip1 3 = octet ip2 3
  := by
  rw [ipCClassMatch, decide_eq_true_eq]
  constructor
  · intro h
    have hoctet : ∀ i, 1 ≤ i → i < 4 → octet ip1 i = octet ip2 i := by
      intro i hi hi'
      rw [← octet_mask ip1 hi hi', h, octet_mask ip2 hi hi']
    exact ⟨hoctet 1 (by decide) (by decide), hoctet 2 (by decide) (by decide),
      hoctet 3 (by decide) (by decide)⟩
  · rintro ⟨h1, h2, h3⟩
    apply BitVec.eq_of_getLsbD_eq
    intro i hi
    rw [BitVec.getLsbD_and, BitVec.getLsbD_and, getLsbD_mask hi]
    by_cases hge : 8 ≤ i
    · have hoctet : octet ip1 (i / 8) = octet ip2 (i / 8) := by
        rcases (by omega : i / 8 = 1 ∨ i / 8 = 2 ∨ i / 8 = 3) with hi' | hi' | hi'
        · rw [hi', h1]
        · rw [hi', h2]
        · rw [hi', h3]
      rw [← getLsbD_octet ip1, ← getLsbD_octet ip2, hoctet]
    · simp [hge]

/-! ### The handlers -/

namespace OlsrContext

/-- The handlers of the node `own` follow its network for the destination `d`. A packet that is
not encapsulated is delivered if `d` is in the network, and dropped otherwise; an encapsulated one
addressed to the node is delivered if its inner destination is in the network, and routed
otherwise; and a packet from the local network is kept off the air if `d` is in the network, and
routed otherwise. -/
structure FollowsNetwork (own d : InAddr) : Prop where
  remote : ∀ (ctx : OlsrContext) (pkt : PacketBuf), ctx.ownIp = own → pkt.hdr.daddr = d →
    pkt.hdr.protocol ≠ ipprotoMobile →
    ctx.handleRemoteDataPkt pkt = some (if SameNetwork own d then .sendLocal pkt else .drop)
  encapsulated : ∀ (ctx : OlsrContext) (pkt inner : PacketBuf), ctx.ownIp = own →
    pkt.hdr.daddr = own → pkt.hdr.protocol = ipprotoMobile → minimalMipDecap pkt = some inner →
    inner.hdr.daddr = d →
    ctx.handleRemoteDataPkt pkt =
      if SameNetwork own d then some (.sendLocal inner) else ctx.ipRoute inner false
  localData : ∀ (ctx : OlsrContext) (pkt : PacketBuf), ctx.ownIp = own → pkt.hdr.daddr = d →
    ctx.handleLocalDataPkt pkt =
      if SameNetwork own d then some .drop else ctx.ipRoute pkt true

/-- The handlers follow the network exactly if the mask does. -/
theorem followsNetwork_iff_match {own d : InAddr} :
  FollowsNetwork own d ↔ (ipCClassMatch own d = true ↔ SameNetwork own d)
  := by
  constructor
  · intro h
    -- A packet to the destination that is not encapsulated.
    let pkt : PacketBuf := ⟨buildIpHdr 20 64 own d ipprotoUdp, []⟩
    have hmobile : ¬ ipprotoUdp = ipprotoMobile := by decide
    have hremote := h.remote (initOlsrContext own ⟨0, 0⟩) pkt rfl rfl hmobile
    have hprotocol : pkt.hdr.protocol = ipprotoUdp := rfl
    have hdaddr : pkt.hdr.daddr = d := rfl
    have hown : (initOlsrContext own ⟨0, 0⟩).ownIp = own := rfl
    rw [handleRemoteDataPkt, hprotocol, if_neg hmobile, hdaddr, hown] at hremote
    by_cases hsame : SameNetwork own d <;> by_cases hmatch : ipCClassMatch own d = true <;>
      simp [hsame, hmatch] at hremote ⊢
  · intro h
    have hself : ipCClassMatch own own = true := by simp [ipCClassMatch]
    constructor
    · rintro ctx pkt rfl rfl hmobile
      rw [handleRemoteDataPkt]
      by_cases hsame : SameNetwork ctx.ownIp pkt.hdr.daddr
      · simp [h.mpr hsame, hsame, hmobile]
      · have hmatch := mt h.mp hsame
        simp [hmatch, hsame]
    · rintro ctx pkt inner rfl hdaddr hmobile hdecap rfl
      rw [handleRemoteDataPkt, hdaddr]
      by_cases hsame : SameNetwork ctx.ownIp inner.hdr.daddr
      · simp [hself, hmobile, hdecap, h.mpr hsame, hsame]
      · have hmatch := mt h.mp hsame
        simp [hself, hmobile, hdecap, hmatch, hsame]
    · rintro ctx pkt rfl rfl
      rw [handleLocalDataPkt]
      by_cases hsame : SameNetwork ctx.ownIp pkt.hdr.daddr
      · simp [h.mpr hsame, hsame]
      · have hmatch := mt h.mp hsame
        simp [hmatch, hsame]

/-- The handlers follow the network of a node exactly for the destinations that differ from its
address in the second or third octet, or agree with it in the first octet just if they do in the
last. -/
theorem followsNetwork_iff (own d : InAddr) :
  FollowsNetwork own d ↔ (octet own 1 = octet d 1 → octet own 2 = octet d 2 →
    (octet own 0 = octet d 0 ↔ octet own 3 = octet d 3))
  := by
  rw [followsNetwork_iff_match, ipCClassMatch_iff, SameNetwork]
  constructor
  · intro h h1 h2
    constructor
    · intro h0
      apply (h.mpr ⟨h0, h1, h2⟩).2.2
    · intro h3
      apply (h.mp ⟨h1, h2, h3⟩).1
  · intro h
    constructor
    · rintro ⟨h1, h2, h3⟩
      exact ⟨(h h1 h2).mpr h3, h1, h2⟩
    · rintro ⟨h0, h1, h2⟩
      exact ⟨h1, h2, (h h1 h2).mp h0⟩

/-- The node `192.168.1.1` does not follow its network for `192.168.1.2`, which is in it. -/
theorem not_followsNetwork :
  ¬ ∀ own d, FollowsNetwork own d
  := by
  intro hall
  have hfollows := (followsNetwork_iff_match.mp
    (hall (makeBe32Ip 192 168 1 1) (makeBe32Ip 192 168 1 2))).mpr (by decide)
  have hmatch : ipCClassMatch (makeBe32Ip 192 168 1 1) (makeBe32Ip 192 168 1 2) = false := by
    decide
  rw [hmatch] at hfollows
  contradiction

end OlsrContext
