import Mathlib.Order.Lattice
import Mathlib.Data.Nat.Size
import Mathlib.Data.BitVec

/-!
# Addresses, codes and messages

The vocabulary of `olsr_proto.h` and `olsr_mantissa.c`: addresses, the statuses of links
and neighbours with the code of a pair of them, the HELLO and TC messages, and the
mantissa and exponent form of a validity time.

A message is kept as the values its fields hold, not as bytes: a HELLO is a list of groups
of addresses, a TC a list of addresses. The length of such a message, as the field
`olsr_msgsize` holds it, is `OlsrMsg.msgsize`.
-/

/-! ### Addresses -/

/-- The unsigned order of bit vectors is linear. -/
instance instLinearOrderBitVec {w : ℕ} : LinearOrder (BitVec w) where
  le_refl a := Nat.le_refl a.toNat
  le_trans _ _ _ h h' := Nat.le_trans h h'
  lt_iff_le_not_ge _ _ := Nat.lt_iff_le_and_not_ge
  le_antisymm _ _ h h' := BitVec.eq_of_toNat_eq (Nat.le_antisymm h h')
  le_total a b := Nat.le_total a.toNat b.toNat
  toDecidableLE := inferInstance
  toDecidableEq := inferInstance
  toDecidableLT := inferInstance

/-- An address, as the 32-bit value of its four octets in network order on a little-endian
host: the first octet is the lowest byte. -/
abbrev InAddr : Type := BitVec 32

instance instLawfulBEqInAddr : LawfulBEq InAddr := inferInstance

/-- `MAKE_BE32_IP`: the address with the given octets. -/
def makeBe32Ip (o1 o2 o3 o4 : BitVec 8) : InAddr := o4 ++ o3 ++ o2 ++ o1

/-- The address `myip` of a node, `192.168.node_id.1`. -/
def nodeIp (nodeId : BitVec 8) : InAddr := makeBe32Ip 192 168 nodeId 1

theorem extractLsb_nodeIp :
  ∀ nodeId : BitVec 8, (nodeIp nodeId).extractLsb' 16 8 = nodeId
  := by decide +kernel

@[simp]
theorem nodeIp_inj {m n : BitVec 8} :
  nodeIp m = nodeIp n ↔ m = n
  := by
  constructor
  · intro h
    rw [← extractLsb_nodeIp m, h, extractLsb_nodeIp]
  · rintro rfl
    rfl

/-! ### Statuses and link codes -/

/-- The status of a neighbour, `NOT_NEIGH`, `SYM_NEIGH`, `MPR_NEIGH` or
`STATUS_UNAVAILABLE`. -/
inductive NeighborStatus where
  | notNeigh
  | symNeigh
  | mprNeigh
  | unavailable
deriving DecidableEq, Repr

/-- The value of a neighbour status. -/
def NeighborStatus.code : NeighborStatus → BitVec 8
  | notNeigh => 0
  | symNeigh => 1
  | mprNeigh => 2
  | unavailable => 255

/-- `NEIGHBOR_STATUS_END`. -/
def neighborStatusEnd : ℕ := 3

/-- The neighbour is `SYM_NEIGH` or `MPR_NEIGH`. -/
def NeighborStatus.isSym : NeighborStatus → Bool
  | symNeigh => true
  | mprNeigh => true
  | notNeigh => false
  | unavailable => false

@[simp]
theorem NeighborStatus.isSym_symNeigh : symNeigh.isSym = true := rfl

@[simp]
theorem NeighborStatus.isSym_mprNeigh : mprNeigh.isSym = true := rfl

@[simp]
theorem NeighborStatus.isSym_notNeigh : notNeigh.isSym = false := rfl

@[simp]
theorem NeighborStatus.isSym_unavailable : unavailable.isSym = false := rfl

theorem NeighborStatus.isSym_iff {s : NeighborStatus} :
  s.isSym = true ↔ s = symNeigh ∨ s = mprNeigh
  := by
  cases s <;> simp

/-- The status of a link, `UNSPEC_LINK`, `ASYM_LINK`, `SYM_LINK` or `LOST_LINK`. -/
inductive LinkStatus where
  | unspecLink
  | asymLink
  | symLink
  | lostLink
deriving DecidableEq, Repr

/-- The value of a link status. -/
def LinkStatus.code : LinkStatus → BitVec 8
  | unspecLink => 0
  | asymLink => 1
  | symLink => 2
  | lostLink => 3

/-- `LINK_STATUS_END`. -/
def linkStatusEnd : ℕ := 4

/-- `STATUS_UNAVAILABLE`, as a link code. -/
def statusUnavailable : BitVec 8 := 255

/-- `CREATE_LINK_CODE`. -/
def createLinkCode (status link : BitVec 8) : BitVec 8 := link ||| (status <<< 2)

/-- `EXTRACT_STATUS`. -/
def extractStatus (linkCode : BitVec 8) : BitVec 8 := (linkCode &&& 0xC) >>> 2

/-- `EXTRACT_LINK`. -/
def extractLink (linkCode : BitVec 8) : BitVec 8 := linkCode &&& 0x3

/-- The neighbour status is recovered from a link code. -/
theorem extractStatus_createLinkCode (nstat : NeighborStatus) (lstat : LinkStatus)
    (h : nstat ≠ .unavailable) :
  extractStatus (createLinkCode nstat.code lstat.code) = nstat.code
  := by
  cases nstat with
  | unavailable => contradiction
  | _ => cases lstat <;> rfl

/-- The link status is recovered from a link code. -/
theorem extractLink_createLinkCode (nstat : NeighborStatus) (lstat : LinkStatus)
    (h : nstat ≠ .unavailable) :
  extractLink (createLinkCode nstat.code lstat.code) = lstat.code
  := by
  cases nstat with
  | unavailable => contradiction
  | _ => cases lstat <;> rfl

/-! ### Validity times -/

/-- `me_to_reltime`: the time in milliseconds of a mantissa in the four highest bits and
an exponent in the four lowest. -/
def meToReltime (me : BitVec 8) : ℕ :=
  let a := (me >>> 4).toNat
  let b := (me &&& 0x0F).toNat
  if b ≥ 8 then ((16 + a) <<< (b - 8)) * 1000 else ((16 + a) * 1000) >>> (8 - b)

/-- `reltime_to_me`: the mantissa and exponent of a time in milliseconds. The loop of the
source ends at the number of binary digits of the unscaled interval. -/
def reltimeToMe (interval : ℕ) : BitVec 8 :=
  let b := (interval / 125 * 2).size
  if b = 0 then 0x10#8
  else
    let b := b - 1
    if b > 15 then 0xFF#8
    else
      let a :=
        if b ≥ 5 then (interval - 125 <<< (b - 1)) / (125 <<< (b - 5))
        else (interval - 125 <<< (b - 1)) * (1 <<< (5 - b)) / 125
      let a := BitVec.ofNat 8 a
      let b := BitVec.ofNat 8 b + a >>> 4
      ((a &&& 0x0F) <<< 4) ||| (b &&& 0x0F)

/-- `DEF_HELLO_INTERVAL_MS`. -/
def defHelloIntervalMs : ℕ := 500

/-- `DEF_REFRESH_INTERVAL_MS`. -/
def defRefreshIntervalMs : ℕ := 500

/-- `DEF_TC_INTERVAL_MS`. -/
def defTcIntervalMs : ℕ := 1250

/-- `DEF_HELLO_VTIME`, the time neighbours are held. -/
def defHelloVtime : ℕ := 3 * defRefreshIntervalMs

/-- `DEF_TC_VTIME`, the time topology entries are held. -/
def defTcVtime : ℕ := 3 * defTcIntervalMs

/-- `DEF_DUP_HOLD_TIME_MS`. -/
def defDupHoldTimeMs : ℕ := 10 * 1000

/-- `WILL_DEFAULT`. -/
def willDefault : BitVec 8 := 3

/-! ### Messages -/

/-- A group of a HELLO: the addresses listed under one link code. Its field `size` is the
number of addresses. -/
structure HelloInfo where
  /-- The field `link_code`. -/
  linkCode : BitVec 8
  /-- The array `neigh_addr`. -/
  neighAddr : List InAddr
deriving DecidableEq

/-- The payload of a HELLO. -/
structure HelloMsg where
  /-- The field `htime`. -/
  htime : BitVec 8
  /-- The field `willingness`. -/
  willingness : BitVec 8
  /-- The groups `hello_info`. -/
  helloInfo : List HelloInfo
deriving DecidableEq

/-- The payload of a TC. -/
structure TcMsg where
  /-- The field `ansn`, the advertised neighbour sequence number. -/
  ansn : BitVec 16
  /-- The array `neigh` of advertised neighbours. -/
  neigh : List InAddr
deriving DecidableEq

/-- The payload of a message, with the type of the message. -/
inductive MsgPayload where
  | hello (msg : HelloMsg)
  | tc (msg : TcMsg)
  /-- A message of another type, with its payload length. -/
  | other (msgtype : BitVec 8) (length : ℕ)
deriving DecidableEq

/-- A message with its header `OlsrMsgHeader`. -/
structure OlsrMsg where
  /-- The field `olsr_vtime`. -/
  vtime : BitVec 8
  originator : InAddr
  ttl : BitVec 8
  hopcnt : BitVec 8
  seqno : BitVec 16
  payload : MsgPayload
deriving DecidableEq

/-- The size of a HELLO group in bytes. -/
def HelloInfo.bytes (info : HelloInfo) : ℕ := 4 + 4 * info.neighAddr.length

/-- The size of a payload in bytes. -/
def MsgPayload.bytes : MsgPayload → ℕ
  | hello msg => 4 + (msg.helloInfo.map HelloInfo.bytes).sum
  | tc msg => 4 + 4 * msg.neigh.length
  | other _ length => length

/-- The field `olsr_msgsize`: the size of the message in bytes, header included. -/
def OlsrMsg.msgsize (msg : OlsrMsg) : ℕ := 12 + msg.payload.bytes
