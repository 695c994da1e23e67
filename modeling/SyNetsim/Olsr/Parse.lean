import SyNetsim.Lib.Bytes
import SyNetsim.Olsr.Route

/-!
# Parsing received packets

`handle_route_pkt` of `olsr_route.c` with `process_olsr_hello`, `process_olsr_tc` and
`olsr_msg_forwarding` on the bytes of a packet. A read outside the packet, the call of `exit` and
a null pointer that is followed end the parsing (`Fault`).

A `Walk` is the way the loops over the groups of a HELLO take inside the packet
(`walk_iff`).
-/

/-! ### Faults -/

/-- What ends the parsing of a packet before its end. -/
inductive Fault where
  /-- A byte outside the packet is read. -/
  | outside
  /-- `exit` is called. -/
  | exited
  /-- A null pointer is followed. -/
  | null
deriving DecidableEq

/-- The value, or the fault if there is none. -/
def orFault {α : Type} (fault : Fault) : Option α → Except Fault α
  | none => .error fault
  | some a => .ok a

@[simp]
theorem orFault_eq_ok {α : Type} {fault : Fault} {x : Option α} {a : α} :
  orFault fault x = .ok a ↔ x = some a
  := by
  cases x <;> simp [orFault]

/-- Two steps succeed if the first one does, and the second one after it. -/
theorem except_bind_eq_ok {α β : Type} {x : Except Fault α} {f : α → Except Fault β} {b : β} :
  x >>= f = .ok b ↔ ∃ a, x = .ok a ∧ f a = .ok b
  := by
  cases x with
  | error fault => simp [bind, Except.bind]
  | ok a => simp [bind, Except.bind]

/-- `MSG_TYPE_HELLO`. -/
def msgTypeHello : Byte := 1

/-- `MSG_TYPE_TC`. -/
def msgTypeTc : Byte := 2

/-- `IPUDP_HDRLEN`. -/
def ipudpHdrlen : ℕ := 28

/-! ### Reading -/

/-- The addresses from `off` on, `n` at most, up to the first one that is the address `stop`. -/
def readAddrs (stop : Option InAddr) (data : List Byte) : ℕ → ℕ → Option (List InAddr)
  | _, 0 => some []
  | off, n + 1 => do
      let addr ← le32At data off
      if stop = some addr then return [addr]
      else
        let addrs ← readAddrs stop data (off + 4) n
        return addr :: addrs

/-- The loops of `populate_linkset`, with the own address for `stop`, and of `populate_neigh2set`,
with none, over `len` bytes from `start` on: the groups they read. A group that lists the own
address is the last one, unless its link code is `STATUS_UNAVAILABLE`. -/
def readInfos (stop : Option InAddr) (data : List Byte) (start len off : ℕ) :
    Option (List HelloInfo) :=
  if len > off - start then do
    let entrynum ← be16At data (off + 2)
    let neighAddr ← readAddrs stop data (off + 4) entrynum.toNat
    let linkCode ← data[off]?
    if (∃ addr ∈ neighAddr, stop = some addr) ∧ linkCode ≠ statusUnavailable then
      return [⟨linkCode, neighAddr⟩]
    else
      let infos ← readInfos stop data start len (off + 4 + 4 * entrynum.toNat)
      return ⟨linkCode, neighAddr⟩ :: infos
  else some []
termination_by start + len - off

/-- Among the `n` addresses from `off` on is the address `stop`. -/
def ListsAt (stop : Option InAddr) (data : List Byte) (off n : ℕ) : Prop :=
  ∃ i < n, ∃ addr, stop = some addr ∧ le32At data (off + 4 * i) = some addr

/-- From `off` on groups lie in the packet, one behind the other, up to the offset `fin` or to a
group that lists the address `stop`: then `code` is its link code, and `STATUS_UNAVAILABLE`
otherwise. Of a group that lists the address only the part before it must lie in the packet. -/
inductive Walk (stop : Option InAddr) (data : List Byte) (fin : ℕ) : ℕ → BitVec 8 → Prop
  | done {off : ℕ} : fin ≤ off → Walk stop data fin off statusUnavailable
  | found {off : ℕ} {entrynum : BitVec 16} {code : BitVec 8} : off < fin →
      be16At data (off + 2) = some entrynum → data[off]? = some code →
      ListsAt stop data (off + 4) entrynum.toNat → code ≠ statusUnavailable →
      Walk stop data fin off code
  | next {off : ℕ} {entrynum : BitVec 16} {linkCode code : BitVec 8} : off < fin →
      be16At data (off + 2) = some entrynum → data[off]? = some linkCode →
      (ListsAt stop data (off + 4) entrynum.toNat ∨
        off + 4 + 4 * entrynum.toNat ≤ data.length) →
      (ListsAt stop data (off + 4) entrynum.toNat → linkCode = statusUnavailable) →
      Walk stop data fin (off + 4 + 4 * entrynum.toNat) code → Walk stop data fin off code

/-! ### Walks and reading -/

theorem lists_succ {stop : Option InAddr} {data : List Byte} {off n : ℕ} :
  ListsAt stop data off (n + 1) ↔
    (∃ addr, stop = some addr ∧ le32At data off = some addr) ∨ ListsAt stop data (off + 4) n
  := by
  constructor
  · rintro ⟨i, hi, addr, hstop, haddr⟩
    cases i with
    | zero =>
        left
        exact ⟨addr, hstop, haddr⟩
    | succ i =>
        right
        refine ⟨i, Nat.lt_of_succ_lt_succ hi, addr, hstop, ?_⟩
        rw [← haddr, Nat.mul_succ, Nat.add_comm (4 * i), Nat.add_assoc]
  · rintro (⟨addr, hstop, haddr⟩ | ⟨i, hi, addr, hstop, haddr⟩)
    · exact ⟨0, Nat.succ_pos n, addr, hstop, haddr⟩
    · refine ⟨i + 1, Nat.succ_lt_succ hi, addr, hstop, ?_⟩
      rw [← haddr, Nat.mul_succ, Nat.add_comm (4 * i), Nat.add_assoc]

/-- An address that is listed lies in the packet. -/
theorem ListsAt.lt_length {stop : Option InAddr} {data : List Byte} {off n : ℕ}
    (h : ListsAt stop data off n) :
  off + 3 < data.length
  := by
  obtain ⟨i, -, addr, -, haddr⟩ := h
  have hlt := exists_le32At.mp ⟨addr, haddr⟩
  omega

/-- Addresses can be read if they lie in the packet, or if the address that ends the reading is
among them. -/
theorem exists_readAddrs {stop : Option InAddr} {data : List Byte} {off n : ℕ}
    (hoff : off ≤ data.length) :
  (∃ addrs, readAddrs stop data off n = some addrs) ↔
    ListsAt stop data off n ∨ off + 4 * n ≤ data.length
  := by
  induction n generalizing off with
  | zero => simp [readAddrs, hoff]
  | succ n ih =>
      rw [lists_succ]
      constructor
      · rintro ⟨addrs, haddrs⟩
        simp only [readAddrs, Option.bind_eq_bind, Option.bind_eq_some_iff] at haddrs
        obtain ⟨addr, haddr, hrest⟩ := haddrs
        have hlt := exists_le32At.mp ⟨addr, haddr⟩
        split_ifs at hrest with hstop
        · left
          left
          exact ⟨addr, hstop, haddr⟩
        · obtain ⟨addrs', haddrs', -⟩ := Option.bind_eq_some_iff.mp hrest
          rcases (ih (by omega)).mp ⟨addrs', haddrs'⟩ with hlists | hle
          · left
            right
            apply hlists
          · right
            omega
      · intro h
        have hlt : off + 3 < data.length := by
          rcases h with (⟨addr, -, haddr⟩ | hlists) | hle
          · apply exists_le32At.mp ⟨addr, haddr⟩
          · have hlt := hlists.lt_length
            omega
          · omega
        obtain ⟨addr, haddr⟩ := exists_le32At.mpr hlt
        simp only [readAddrs, haddr, Option.bind_eq_bind, Option.bind_some]
        split_ifs with hstop
        · exact ⟨_, rfl⟩
        · have hrest : ListsAt stop data (off + 4) n ∨ off + 4 + 4 * n ≤ data.length := by
            rcases h with (⟨addr', hstop', haddr'⟩ | hlists) | hle
            · obtain rfl := Option.some.inj (haddr.symm.trans haddr')
              contradiction
            · left
              apply hlists
            · right
              omega
          obtain ⟨addrs, haddrs⟩ := (ih (by omega)).mpr hrest
          rw [haddrs]
          exact ⟨_, rfl⟩

/-- The addresses that are read contain the address `addr` if it is listed, when the reading ends at
this address or at none. -/
theorem mem_readAddrs {stop : Option InAddr} {addr : InAddr} {data : List Byte} {off n : ℕ}
    {addrs : List InAddr} (hstop : ∀ a, stop = some a → a = addr)
    (h : readAddrs stop data off n = some addrs) :
  addr ∈ addrs ↔ ListsAt (some addr) data off n
  := by
  induction n generalizing off addrs with
  | zero =>
      obtain rfl := Option.some.inj h
      simp [ListsAt]
  | succ n ih =>
      simp only [readAddrs, Option.bind_eq_bind, Option.bind_eq_some_iff] at h
      obtain ⟨a, ha, hrest⟩ := h
      rw [lists_succ, ha]
      split_ifs at hrest with hend
      · obtain rfl := Option.some.inj hrest
        obtain rfl := hstop a hend
        simp
      · obtain ⟨addrs', haddrs', heq⟩ := Option.bind_eq_some_iff.mp hrest
        obtain rfl := Option.some.inj heq
        rw [List.mem_cons, ih haddrs']
        simp [eq_comm]

/-- The link code that `populate_linkset` finds in the groups read up to the address `stop`. -/
def foundCode (stop : Option InAddr) (infos : List HelloInfo) : BitVec 8 :=
  stop.elim statusUnavailable (fun own => OlsrContext.linkcodeToMe own infos)

theorem foundCode_cons (stop : Option InAddr) (info : HelloInfo) (infos : List HelloInfo) :
  foundCode stop (info :: infos) =
    if (∃ addr ∈ info.neighAddr, stop = some addr) ∧ info.linkCode ≠ statusUnavailable then
      info.linkCode
    else foundCode stop infos
  := by
  cases stop with
  | none => simp [foundCode]
  | some own => simp [foundCode, OlsrContext.linkcodeToMe]

/-- What reading ends at is listed. -/
theorem exists_mem_readAddrs {stop : Option InAddr} {data : List Byte} {off n : ℕ}
    {addrs : List InAddr} (h : readAddrs stop data off n = some addrs) :
  (∃ addr ∈ addrs, stop = some addr) ↔ ListsAt stop data off n
  := by
  cases stop with
  | none => simp [ListsAt]
  | some own =>
      rw [← mem_readAddrs (fun a ha => (Option.some.inj ha).symm) h]
      simp

/-- Groups that are read are a walk. -/
theorem walk_of_readInfos {stop : Option InAddr} {data : List Byte} {start len off : ℕ}
    {infos : List HelloInfo} (hoff : start ≤ off)
    (h : readInfos stop data start len off = some infos) :
  Walk stop data (start + len) off (foundCode stop infos)
  := by
  induction hm : start + len - off using Nat.strong_induction_on generalizing off infos with
  | _ m ih =>
      rw [readInfos] at h
      split_ifs at h with hlen
      · simp only [Option.bind_eq_bind, Option.bind_eq_some_iff] at h
        obtain ⟨entrynum, hentrynum, addrs, haddrs, linkCode, hlinkCode, h⟩ := h
        have hfin : off < start + len := by omega
        have hlists := exists_mem_readAddrs haddrs
        have hsize := exists_be16At.mp ⟨entrynum, hentrynum⟩
        split_ifs at h with hfound
        · obtain rfl := Option.some.inj h
          rw [foundCode_cons, if_pos hfound]
          apply Walk.found hfin hentrynum hlinkCode (hlists.mp hfound.1) hfound.2
        · obtain ⟨infos', hinfos', heq⟩ := Option.bind_eq_some_iff.mp h
          obtain rfl := Option.some.inj heq
          rw [foundCode_cons, if_neg hfound]
          apply Walk.next hfin hentrynum hlinkCode
          · apply (exists_readAddrs (by omega)).mp ⟨addrs, haddrs⟩
          · intro hin
            by_contra hcode
            apply hfound ⟨hlists.mpr hin, hcode⟩
          · apply ih _ _ _ hinfos' rfl
            · omega
            · omega
      · obtain rfl := Option.some.inj h
        have hcode : foundCode stop [] = statusUnavailable := by
          cases stop <;> rfl
        rw [hcode]
        apply Walk.done
        omega

/-- The groups of a walk can be read. -/
theorem Walk.exists_readInfos {stop : Option InAddr} {data : List Byte} {start len off : ℕ}
    {code : BitVec 8} (h : Walk stop data (start + len) off code) (hoff : start ≤ off) :
  ∃ infos, readInfos stop data start len off = some infos ∧ foundCode stop infos = code
  := by
  induction h with
  | done hfin =>
      refine ⟨[], ?_, ?_⟩
      · rw [readInfos, if_neg (by omega)]
      · cases stop <;> rfl
  | @found off entrynum code hfin hentrynum hcode hlists hne =>
      have hsize := exists_be16At.mp ⟨entrynum, hentrynum⟩
      obtain ⟨addrs, haddrs⟩ := (exists_readAddrs (by omega)).mpr (Or.inl hlists)
      have hfound : (∃ addr ∈ addrs, stop = some addr) ∧ code ≠ statusUnavailable :=
        ⟨(exists_mem_readAddrs haddrs).mpr hlists, hne⟩
      refine ⟨[⟨code, addrs⟩], ?_, ?_⟩
      · rw [readInfos, if_pos (by omega)]
        simp only [hentrynum, haddrs, hcode, Option.bind_eq_bind, Option.bind_some, if_pos hfound,
          Option.pure_def]
      · rw [foundCode_cons, if_pos hfound]
  | @next off entrynum linkCode code hfin hentrynum hcode hin hunavailable _ ih =>
      have hsize := exists_be16At.mp ⟨entrynum, hentrynum⟩
      obtain ⟨addrs, haddrs⟩ := (exists_readAddrs (by omega)).mpr hin
      have hfound : ¬ ((∃ addr ∈ addrs, stop = some addr) ∧ linkCode ≠ statusUnavailable) := by
        rintro ⟨hmem, hne⟩
        apply hne (hunavailable ((exists_mem_readAddrs haddrs).mp hmem))
      obtain ⟨infos, hinfos, hfoundCode⟩ := ih (by omega)
      refine ⟨⟨linkCode, addrs⟩ :: infos, ?_, ?_⟩
      · rw [readInfos, if_pos (by omega)]
        simp only [hentrynum, haddrs, hcode, hinfos, Option.bind_eq_bind, Option.bind_some,
          if_neg hfound, Option.pure_def]
      · rw [foundCode_cons, if_neg hfound, hfoundCode]

/-- Groups can be read exactly when they are a walk, whose link code is the one found. -/
theorem walk_iff {stop : Option InAddr} {data : List Byte} {start len : ℕ} {code : BitVec 8} :
  Walk stop data (start + len) start code ↔
    ∃ infos, readInfos stop data start len start = some infos ∧ foundCode stop infos = code
  := by
  constructor
  · intro h
    apply h.exists_readInfos (Nat.le_refl start)
  · rintro ⟨infos, hinfos, rfl⟩
    apply walk_of_readInfos (Nat.le_refl start) hinfos

/-- The link code found in all groups is the one found in the groups up to the own address. -/
theorem Walk.linkcodeToMe_eq {own : InAddr} {data : List Byte} {start len off : ℕ}
    {code : BitVec 8} (h : Walk (some own) data (start + len) off code) (hoff : start ≤ off)
    {infos : List HelloInfo} (hinfos : readInfos none data start len off = some infos) :
  OlsrContext.linkcodeToMe own infos = code
  := by
  -- A group that is read whole lists the own address if it does in the walk.
  have hgroup : ∀ {off : ℕ} {entrynum : BitVec 16} {linkCode : BitVec 8} {infos : List HelloInfo},
      start ≤ off → off < start + len → be16At data (off + 2) = some entrynum →
      data[off]? = some linkCode → readInfos none data start len off = some infos →
      ∃ addrs infos', infos = ⟨linkCode, addrs⟩ :: infos' ∧
        (own ∈ addrs ↔ ListsAt (some own) data (off + 4) entrynum.toNat) ∧
        readInfos none data start len (off + 4 + 4 * entrynum.toNat) = some infos' := by
    intro off entrynum linkCode infos hoff hfin hentrynum hcode hread
    rw [readInfos, if_pos (by omega)] at hread
    simp only [hentrynum, hcode, Option.bind_eq_bind, Option.bind_some, and_false, exists_false,
      false_and, if_false, Option.bind_eq_some_iff, Option.pure_def, Option.some.injEq,
      reduceCtorEq] at hread
    obtain ⟨addrs, haddrs, infos', hinfos', rfl⟩ := hread
    refine ⟨addrs, infos', rfl, mem_readAddrs ?_ haddrs, hinfos'⟩
    intro a ha
    contradiction
  induction h generalizing infos with
  | done hfin =>
      rw [readInfos, if_neg (by omega)] at hinfos
      obtain rfl := Option.some.inj hinfos
      rfl
  | found hfin hentrynum hcode hlists hne =>
      obtain ⟨addrs, infos', rfl, hmem, -⟩ := hgroup hoff hfin hentrynum hcode hinfos
      rw [OlsrContext.linkcodeToMe, if_pos ⟨hmem.mpr hlists, hne⟩]
  | next hfin hentrynum hcode _ hunavailable _ ih =>
      obtain ⟨addrs, infos', rfl, hmem, hinfos'⟩ := hgroup hoff hfin hentrynum hcode hinfos
      rw [OlsrContext.linkcodeToMe, if_neg]
      · apply ih (by omega) hinfos'
      · rintro ⟨hin, hne⟩
        apply hne (hunavailable (hmem.mp hin))

/-- The payload of a message of the size `msgsize`, as a receiver reads it if its parts fill the
message. -/
def payloadAt (data : List Byte) (off : ℕ) (msgtype : Byte) (msgsize : ℕ) : MsgPayload :=
  let payload : Option MsgPayload :=
    if msgtype = msgTypeHello then do
      let htime ← data[off + 14]?
      let willingness ← data[off + 15]?
      let infos ← readInfos none data (off + 16) (msgsize - 16) (off + 16)
      return .hello ⟨htime, willingness, infos⟩
    else if msgtype = msgTypeTc then do
      let ansn ← be16At data (off + 12)
      let neigh ← readAddrs none data (off + 16) ((msgsize - 16) / 4)
      return .tc ⟨ansn, neigh⟩
    else none
  (payload.filter (fun payload => 12 + payload.bytes = msgsize)).getD
    (.other msgtype (msgsize - 12))

/-- The message at `off`, with its header. -/
def msgAt (data : List Byte) (off msgsize : ℕ) : Option OlsrMsg := do
  let seqno ← be16At data (off + 10)
  let msgtype ← data[off]?
  let vtime ← data[off + 1]?
  let originator ← le32At data (off + 4)
  let ttl ← data[off + 8]?
  let hopcnt ← data[off + 9]?
  return {
    vtime := vtime
    originator := originator
    ttl := ttl
    hopcnt := hopcnt
    seqno := seqno
    payload := payloadAt data off msgtype msgsize }

/-! ### Handling -/

/-- A node that goes through a packet. -/
structure RouteState where
  ctx : OlsrContext
  /-- The bytes of the packet. Forwarding a message writes to its header. -/
  data : List Byte
  /-- The offsets and sizes of the messages handed to `process_olsr_msg`. -/
  processed : List (ℕ × ℕ)

/-- `msgsize - sizeof(HelloMsg)` in `process_olsr_hello`, a `size_t`. -/
def helloInfoLen (payloadsize : ℕ) : ℕ := (payloadsize + 2 ^ 64 - 4) % 2 ^ 64

/-- `payloadsize` in `process_olsr_msg`, an `uint16_t`. -/
def payloadsize (msgsize : ℕ) : ℕ := (msgsize + 2 ^ 16 - 12) % 2 ^ 16

namespace OlsrContext

/-- `populate_neigh2set`, with the groups at `helloInfo`. -/
def populateNeigh2setAt (ctx : OlsrContext) (data : List Byte) (addr : InAddr)
    (helloInfo len vtime : ℕ) : Except Fault OlsrContext := do
  let infos ← orFault .outside (readInfos none data helloInfo len helloInfo)
  orFault .null (ctx.populateNeigh2set addr infos vtime)

/-- `process_olsr_hello`, with the payload at `hello`. The groups are read up to this node's address
for `populate_linkset`, and once more for `populate_neigh2set`. -/
def processOlsrHelloAt (ctx : OlsrContext) (data : List Byte) (src orig : InAddr)
    (hello vtime msgsize : ℕ) : Except Fault OlsrContext := do
  let willingness ← orFault .outside data[hello + 3]?
  let ctx := ctx.findNeighbor src willingness
  let ctx ← orFault .null (ctx.touchLink src vtime)
  let infos ← orFault .outside
    (readInfos (some ctx.ownIp) data (hello + 4) (helloInfoLen msgsize) (hello + 4))
  let ctx ← orFault .null (ctx.populateLinkset src orig infos vtime)
  let ctx ← orFault .null (ctx.updateNeighborStatus src)
  let neigh ← orFault .null (ctx.neighborTree.search src)
  let ctx ← (if neigh.status.isSym then
      ctx.populateNeigh2setAt data src (hello + 4) (helloInfoLen msgsize) vtime
    else .ok ctx)
  orFault .null ctx.populateMprSet

/-- Whether a TC of `orig` with the number `ansn` is older than the topology entry. -/
def isOldTc (ctx : OlsrContext) (orig : InAddr) (ansn : BitVec 16) : Bool :=
  (ctx.topologyTree.search orig).any (fun telem => ansn < telem.seq)

/-- `process_olsr_tc`, with the payload at `msg`. -/
def processOlsrTcAt (ctx : OlsrContext) (data : List Byte) (msg tcSize : ℕ) (src orig : InAddr)
    (vtime : ℕ) : Except Fault OlsrContext :=
  match ctx.neighborTree.search src with
  | none => .ok ctx
  | some neigh =>
      if neigh.status.isSym then do
        let ansn ← orFault .outside (be16At data msg)
        let neigh ← (if ctx.isOldTc orig ansn then .ok []
          else orFault .outside (readAddrs none data (msg + 4) (tcSize / 4 - 1)))
        orFault .null (ctx.processOlsrTc ⟨ansn, neigh⟩ src orig vtime)
      else .ok ctx

/-- `process_olsr_msg`, with the message at `off`. -/
def processOlsrMsgAt (ctx : OlsrContext) (data : List Byte) (off msgsize : ℕ) (msg : OlsrMsg)
    (src : InAddr) : Except Fault OlsrContext :=
  if ctx.isAlreadyProcessed msg then .ok ctx
  else do
    let vtime := meToReltime msg.vtime
    let msgtype ← orFault .outside data[off]?
    if msgtype = msgTypeHello then
      ctx.processOlsrHelloAt data src msg.originator (off + 12) vtime (payloadsize msgsize)
    else if msgtype = msgTypeTc then
      ctx.processOlsrTcAt data (off + 12) (payloadsize msgsize) src msg.originator vtime
    else .ok ctx

/-- Whether `olsr_msg_forwarding` comes to the end: the message is not yet retransmitted, and the
sender chose this node as a relay. -/
def retransmits (ctx : OlsrContext) (msg : OlsrMsg) (src : InAddr) : Bool :=
  ¬ (ctx.dupTree.search msg.dkey).any DuplicateSetElem.retransmitted ∧ ctx.isMprSelector src

/-- Whether `RingBuffer_push` has room for `size` bytes. -/
def hasRoom (ctx : OlsrContext) (size : ℕ) : Bool :=
  size ≤ olsrTxMsgbufSize - (ctx.olsrTxMsgbuf.map OlsrMsg.msgsize).sum

end OlsrContext

namespace RouteState

/-- `olsr_msg_forwarding`, with the message at `off`: its bytes are copied if the ring buffer has
room for them. -/
def olsrMsgForwardingAt (st : RouteState) (off msgsize : ℕ) (msg : OlsrMsg) (src : InAddr) :
    Except Fault RouteState :=
  if st.ctx.retransmits msg src then
    if st.ctx.hasRoom msgsize ∧ st.data.length < off + msgsize then .error .outside
    else do
      let ctx ← orFault .null (st.ctx.olsrMsgForwarding msg src)
      return { st with
        ctx := ctx
        data := (st.data.set (off + 8) (msg.ttl - 1)).set (off + 9) (msg.hopcnt + 1) }
  else do
    let ctx ← orFault .null (st.ctx.olsrMsgForwarding msg src)
    return { st with ctx := ctx }

/-- `handle_olsr_msg`, with the message at `off`. -/
def handleOlsrMsgAt (st : RouteState) (off msgsize : ℕ) (src : InAddr) :
    Except Fault RouteState := do
  let originator ← orFault .outside (le32At st.data (off + 4))
  if originator = st.ctx.ownIp then return st
  else
    let msg ← orFault .outside (msgAt st.data off msgsize)
    let ctx ← st.ctx.processOlsrMsgAt st.data off msgsize msg src
    let st := { st with ctx := ctx, processed := st.processed ++ [(off, msgsize)] }
    if msg.ttl > 1 then st.olsrMsgForwardingAt off msgsize msg src else return st

theorem olsrMsgForwardingAt_length {st st' : RouteState} {off msgsize : ℕ} {msg : OlsrMsg}
    {src : InAddr} (h : st.olsrMsgForwardingAt off msgsize msg src = .ok st') :
  st'.data.length = st.data.length
  := by
  rw [olsrMsgForwardingAt] at h
  split_ifs at h
  · obtain ⟨ctx, -, heq⟩ := except_bind_eq_ok.mp h
    obtain rfl := Except.ok.inj heq
    simp
  · obtain ⟨ctx, -, heq⟩ := except_bind_eq_ok.mp h
    obtain rfl := Except.ok.inj heq
    rfl

/-- Handling a message leaves the length of the packet as it is. -/
theorem handleOlsrMsgAt_length {st st' : RouteState} {off msgsize : ℕ} {src : InAddr}
    (h : st.handleOlsrMsgAt off msgsize src = .ok st') :
  st'.data.length = st.data.length
  := by
  obtain ⟨originator, -, h⟩ := except_bind_eq_ok.mp h
  split_ifs at h
  · obtain rfl := Except.ok.inj h
    rfl
  · obtain ⟨msg, -, h⟩ := except_bind_eq_ok.mp h
    obtain ⟨ctx, -, h⟩ := except_bind_eq_ok.mp h
    dsimp only at h
    split_ifs at h
    · apply olsrMsgForwardingAt_length h
    · obtain rfl := Except.ok.inj h
      rfl

set_option linter.unusedVariables false in
/-- The loop of `handle_route_pkt`, from `off` on. -/
def handleMsgs (st : RouteState) (src : InAddr) (off : ℕ) : Except Fault RouteState :=
  if off < st.data.length then
    match be16At st.data (off + 2) with
    | none => .error .outside
    | some msgsize =>
        if msgsize.toNat = 0 then .error .exited
        else
          match hst : st.handleOlsrMsgAt off msgsize.toNat src with
          | .error fault => .error fault
          | .ok st' => handleMsgs st' src (off + msgsize.toNat)
  else .ok st
termination_by st.data.length - off
decreasing_by
  rw [handleOlsrMsgAt_length hst]
  omega

end RouteState

/-- `handle_route_pkt`. -/
def OlsrContext.handleRoutePktAt (ctx : OlsrContext) (data : List Byte) :
    Except Fault RouteState :=
  if data.length ≤ ipudpHdrlen then .ok ⟨ctx, data, []⟩
  else do
    let saddr ← orFault .outside (le32At data 12)
    -- The header of the packet, four bytes, is skipped.
    RouteState.handleMsgs ⟨ctx, data, []⟩ saddr (ipudpHdrlen + 4)
