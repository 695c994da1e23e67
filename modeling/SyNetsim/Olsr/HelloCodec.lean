import Mathlib.Algebra.Order.BigOperators.Group.List
import Mathlib.Algebra.Order.Group.Nat
import Mathlib.Data.List.Perm.Basic
import SyNetsim.Lib.Bytes
import SyNetsim.Olsr.Hello

/-!
# HELLO messages as bytes

`build_olsr_hello` and the loops of `populate_linkset` and `populate_neigh2set` on the level of
bytes. The builder goes through all links once for every link code, writes the addresses with
that code behind the header of a group, and takes the header back if there are none. The field
`size` of a group is written last, and `reserved` never. The readers go from group to group by
that field.

Neither builder nor readers check bounds, so the memory is taken to have no end. The result
`buildOlsrHello_read` says that the readers find the groups `OlsrContext.helloWriteLinks`, with
which the model of a node (`Olsr.Hello`) works.
-/

/-! ### Building -/

/-- A message that is being written: the memory from its start on, and `offset`. -/
structure HelloBuf where
  mem : ℕ → Byte
  offset : ℕ

/-- The body of the loops of `hello_write_links_with_code`, for the link to `lelem.1`. The group
starts at `helloInfo`, and `write_count` counts its addresses in 16 bits. -/
def HelloBuf.writeLink (ctx : OlsrContext) (code : BitVec 8) (helloInfo : ℕ)
    (s : HelloBuf × BitVec 16) (lelem : InAddr × LinkElem) : HelloBuf × BitVec 16 :=
  let (buf, writeCount) := s
  let neighborStatus := (ctx.getNeighborStatus lelem.1).code
  if neighborStatus = statusUnavailable then s
  else if createLinkCode neighborStatus lelem.2.status.code = code then
    (⟨Memory.write buf.mem (helloInfo + 4 + 4 * writeCount.toNat) (le32 lelem.1),
      buf.offset + 4⟩, writeCount + 1)
  else s

/-- `hello_write_links_with_code`. -/
def HelloBuf.helloWriteLinksWithCode (ctx : OlsrContext) (buf : HelloBuf) (code : BitVec 8) :
    HelloBuf :=
  let helloInfo := buf.offset
  let buf : HelloBuf := ⟨Memory.write buf.mem helloInfo [code], buf.offset + 4⟩
  let (buf, writeCount) := ctx.localIfaceTree.entries.foldl
    (fun s ielem => ielem.2.ifaceLinkTree.entries.foldl (writeLink ctx code helloInfo) s) (buf, 0)
  if writeCount = 0 then { buf with offset := buf.offset - 4 }
  else { buf with mem := Memory.write buf.mem (helloInfo + 2) (be16 writeCount) }

/-- `hello_write_links`. -/
def HelloBuf.helloWriteLinks (ctx : OlsrContext) (buf : HelloBuf) : HelloBuf :=
  (List.range neighborStatusEnd).foldl
    (fun buf nstat => (List.range linkStatusEnd).foldl
      (fun buf lstat =>
        buf.helloWriteLinksWithCode ctx (createLinkCode (.ofNat 8 nstat) (.ofNat 8 lstat))) buf)
    buf

/-- `build_olsr_hello`: the memory from `buf` on and `*len`. -/
def HelloBuf.buildOlsrHello (ctx : OlsrContext) (mem : ℕ → Byte) : (ℕ → Byte) × ℕ :=
  let mem := Memory.write mem 0
    ([0, 0] ++ [reltimeToMe defHelloIntervalMs] ++ [ctx.param.willingness])
  let buf := helloWriteLinks ctx ⟨mem, 4⟩
  (buf.mem, buf.offset)

/-- The bytes for a HELLO in the buffer of `olsr_hello_timer_cb`: `MAX_IPPKT_SIZE` without the
header of the message. -/
def helloBufSize : ℕ := 2000 - 12

/-! ### Reading -/

/-- The group at `offset`, with `ntohs(size)` addresses. -/
def readHelloInfo (mem : ℕ → Byte) (offset : ℕ) : HelloInfo where
  linkCode := mem offset
  neighAddr := (List.range (be16In mem (offset + 2)).toNat).map
    (fun i => le32In mem (offset + 4 + 4 * i))

/-- The loop of `populate_neigh2set` over `len` bytes from `start` on: the groups it reads, and
`offset` at the end. -/
def readHelloInfos (mem : ℕ → Byte) (start len offset : ℕ) : List HelloInfo × ℕ :=
  if len > offset - start then
    let entrynum := (be16In mem (offset + 2)).toNat
    let (infos, offset') := readHelloInfos mem start len (offset + 4 + 4 * entrynum)
    (readHelloInfo mem offset :: infos, offset')
  else ([], offset)
termination_by start + len - offset

/-- The loop of `populate_linkset`, which ends when it has found the own address. -/
def readLinkcodeToMe (ownIp : InAddr) (mem : ℕ → Byte) (start len offset : ℕ) : BitVec 8 :=
  if len > offset - start then
    let entrynum := (be16In mem (offset + 2)).toNat
    let found := (List.range entrynum).any (fun i => le32In mem (offset + 4 + 4 * i) = ownIp)
    let linkcodeToMe := if found then mem offset else statusUnavailable
    if linkcodeToMe ≠ statusUnavailable then linkcodeToMe
    else readLinkcodeToMe ownIp mem start len (offset + 4 + 4 * entrynum)
  else statusUnavailable
termination_by start + len - offset

/-! ### Groups in memory -/

/-- The group `info` lies at `off`. -/
structure InfoAt (mem : ℕ → Byte) (off : ℕ) (info : HelloInfo) : Prop where
  linkCode : mem off = info.linkCode
  size : (be16In mem (off + 2)).toNat = info.neighAddr.length
  neighAddr : ∀ i a, info.neighAddr[i]? = some a → le32In mem (off + 4 + 4 * i) = a

/-- The size of groups in bytes. -/
def infosBytes (infos : List HelloInfo) : ℕ := (infos.map HelloInfo.bytes).sum

/-- The groups lie one after the other from `off` on. -/
def InfosAt (mem : ℕ → Byte) : ℕ → List HelloInfo → Prop
  | _, [] => True
  | off, info :: infos => InfoAt mem off info ∧ InfosAt mem (off + info.bytes) infos

@[simp]
theorem infosBytes_nil :
  infosBytes [] = 0
  := rfl

@[simp]
theorem infosBytes_cons (info : HelloInfo) (infos : List HelloInfo) :
  infosBytes (info :: infos) = info.bytes + infosBytes infos
  := rfl

theorem infosBytes_append (infos infos' : List HelloInfo) :
  infosBytes (infos ++ infos') = infosBytes infos + infosBytes infos'
  := by
  rw [infosBytes, List.map_append, List.sum_append]
  rfl

/-- A group is determined by its bytes. -/
theorem InfoAt.congr {mem mem' : ℕ → Byte} {off : ℕ} {info : HelloInfo} (h : InfoAt mem off info)
    (hmem : ∀ i, off ≤ i → i < off + info.bytes → mem' i = mem i) :
  InfoAt mem' off info
  := by
  have hbytes : info.bytes = 4 + 4 * info.neighAddr.length := rfl
  constructor
  · rw [hmem off (by omega) (by omega)]
    apply h.linkCode
  · rw [be16In_congr (fun i _ _ => hmem i (by omega) (by omega))]
    apply h.size
  · intro i a ha
    have hi : i < info.neighAddr.length := (List.getElem?_eq_some_iff.mp ha).1
    rw [le32In_congr (fun j _ _ => hmem j (by omega) (by omega))]
    apply h.neighAddr i a ha

theorem InfosAt.congr {mem mem' : ℕ → Byte} {infos : List HelloInfo} {off : ℕ}
    (h : InfosAt mem off infos)
    (hmem : ∀ i, off ≤ i → i < off + infosBytes infos → mem' i = mem i) :
  InfosAt mem' off infos
  := by
  induction infos generalizing off with
  | nil => trivial
  | cons info infos ih =>
      rw [infosBytes_cons] at hmem
      refine ⟨h.1.congr (fun i _ _ => hmem i (by omega) (by omega)), ih h.2 ?_⟩
      intro i hle hlt
      apply hmem i (by omega) (by omega)

theorem InfosAt.append {mem : ℕ → Byte} {infos infos' : List HelloInfo} {off : ℕ}
    (h : InfosAt mem off infos) (h' : InfosAt mem (off + infosBytes infos) infos') :
  InfosAt mem off (infos ++ infos')
  := by
  induction infos generalizing off with
  | nil => apply h'
  | cons info infos ih =>
      rw [infosBytes_cons, ← Nat.add_assoc] at h'
      exact ⟨h.1, ih h.2 h'⟩

/-! ### Reading groups -/

theorem readHelloInfo_eq {mem : ℕ → Byte} {off : ℕ} {info : HelloInfo} (h : InfoAt mem off info) :
  readHelloInfo mem off = info
  := by
  have haddrs : (List.range info.neighAddr.length).map (fun i => le32In mem (off + 4 + 4 * i)) =
      info.neighAddr := by
    apply List.ext_getElem?
    intro i
    rw [List.getElem?_map]
    rcases Nat.lt_or_ge i info.neighAddr.length with hlt | hge
    · have hget := List.getElem?_eq_getElem hlt
      rw [List.getElem?_range hlt, hget, Option.map_some, h.neighAddr i _ hget]
    · rw [List.getElem?_eq_none (by rwa [List.length_range]), List.getElem?_eq_none hge,
        Option.map_none]
  rw [readHelloInfo, h.linkCode, h.size, haddrs]

/-- The loop reads the groups that lie in the bytes, and ends after them. -/
theorem readHelloInfos_eq {mem : ℕ → Byte} {start len off : ℕ} {infos : List HelloInfo}
    (h : InfosAt mem off infos) (hstart : start ≤ off)
    (hlen : off + infosBytes infos = start + len) :
  readHelloInfos mem start len off = (infos, start + len)
  := by
  induction infos generalizing off with
  | nil =>
      rw [infosBytes_nil, Nat.add_zero] at hlen
      rw [readHelloInfos, if_neg (by omega), hlen]
  | cons info infos ih =>
      rw [infosBytes_cons, HelloInfo.bytes] at hlen
      have hnext : off + 4 + 4 * info.neighAddr.length = off + info.bytes := by
        rw [HelloInfo.bytes, Nat.add_assoc]
      rw [readHelloInfos, if_pos (by omega)]
      simp only [h.1.size]
      rw [hnext, ih h.2 (by omega) (by rw [HelloInfo.bytes]; omega), readHelloInfo_eq h.1]

/-- The loop that looks for the own address finds what it would find in the groups. -/
theorem readLinkcodeToMe_eq {mem : ℕ → Byte} {start len off : ℕ} {infos : List HelloInfo}
    (ownIp : InAddr) (h : InfosAt mem off infos) (hstart : start ≤ off)
    (hlen : off + infosBytes infos = start + len) :
  readLinkcodeToMe ownIp mem start len off = OlsrContext.linkcodeToMe ownIp infos
  := by
  induction infos generalizing off with
  | nil =>
      rw [infosBytes_nil, Nat.add_zero] at hlen
      rw [readLinkcodeToMe, if_neg (by omega)]
      rfl
  | cons info infos ih =>
      rw [infosBytes_cons, HelloInfo.bytes] at hlen
      have hnext : off + 4 + 4 * info.neighAddr.length = off + info.bytes := by
        rw [HelloInfo.bytes, Nat.add_assoc]
      have hrest := ih h.2 (by omega) (by rw [HelloInfo.bytes]; omega)
      have hfound : ((List.range info.neighAddr.length).any (fun i =>
          decide (le32In mem (off + 4 + 4 * i) = ownIp)) = true) ↔ ownIp ∈ info.neighAddr := by
        have haddrs := congrArg HelloInfo.neighAddr (readHelloInfo_eq h.1)
        simp only [readHelloInfo, h.1.size] at haddrs
        rw [← haddrs, List.any_eq_true, List.mem_map]
        simp only [decide_eq_true_eq]
        rw [haddrs]
      rw [readLinkcodeToMe, if_pos (by omega)]
      simp only [h.1.size, h.1.linkCode]
      rw [OlsrContext.linkcodeToMe, hnext, hrest]
      by_cases hmem : ownIp ∈ info.neighAddr
      · rw [if_pos (hfound.mpr hmem)]
        by_cases hcode : info.linkCode = statusUnavailable
        · rw [if_neg (by simp [hcode]), if_neg (by simp [hcode])]
        · rw [if_pos hcode, if_pos ⟨hmem, hcode⟩]
      · rw [if_neg (fun h => hmem (hfound.mp h)), if_neg (by simp), if_neg (by simp [hmem])]

/-! ### Writing a group -/

namespace OlsrContext

/-- The links of all local interfaces, each with the address of its neighbour. -/
def links (ctx : OlsrContext) : List (InAddr × LinkElem) :=
  ctx.localIfaceTree.entries.flatMap (fun ielem => ielem.2.ifaceLinkTree.entries)

/-- The link has a neighbour with a status. -/
def hasStatus (ctx : OlsrContext) (lelem : InAddr × LinkElem) : Bool :=
  ctx.getNeighborStatus lelem.1 ≠ .unavailable

/-- The code of a link. -/
def linkCode (ctx : OlsrContext) (lelem : InAddr × LinkElem) : BitVec 8 :=
  createLinkCode (ctx.getNeighborStatus lelem.1).code lelem.2.status.code

/-- Those of the links that a HELLO lists under `code`. -/
def listed (ctx : OlsrContext) (code : BitVec 8) (l : List (InAddr × LinkElem)) : List InAddr :=
  (l.filter (fun lelem => ctx.hasStatus lelem ∧ ctx.linkCode lelem = code)).map Prod.fst

theorem helloWriteLinksWithCode_eq (ctx : OlsrContext) (code : BitVec 8) :
  ctx.helloWriteLinksWithCode code =
    if (ctx.listed code ctx.links).length = 0 then [] else [⟨code, ctx.listed code ctx.links⟩]
  := by
  have hlisted : ctx.localIfaceTree.entries.flatMap (fun ielem =>
      (ielem.2.ifaceLinkTree.entries.filter (fun lelem =>
        ctx.getNeighborStatus lelem.1 ≠ .unavailable ∧
          createLinkCode (ctx.getNeighborStatus lelem.1).code lelem.2.status.code = code)).map
        Prod.fst) = ctx.listed code ctx.links := by
    rw [listed, links, List.filter_flatMap, List.map_flatMap]
    simp only [hasStatus, linkCode, decide_eq_true_eq]
  rw [helloWriteLinksWithCode, hlisted]

end OlsrContext

namespace HelloBuf

/-- The group that starts at `helloInfo` has been given the addresses `addrs`: they are counted
and lie behind its header, and the rest of the memory is as it was in `mem`. -/
structure Holds (mem : ℕ → Byte) (helloInfo : ℕ) (addrs : List InAddr)
    (s : HelloBuf × BitVec 16) : Prop where
  offset : s.1.offset = helloInfo + 4 + 4 * addrs.length
  count : s.2.toNat = addrs.length
  addr : ∀ i a, addrs[i]? = some a → le32In s.1.mem (helloInfo + 4 + 4 * i) = a
  before : ∀ i < helloInfo + 4, s.1.mem i = mem i
  after : ∀ i, helloInfo + 4 + 4 * addrs.length ≤ i → s.1.mem i = mem i

/-- An address is added. -/
theorem Holds.write {mem : ℕ → Byte} {helloInfo : ℕ} {addrs : List InAddr} {buf : HelloBuf}
    {writeCount : BitVec 16} (h : Holds mem helloInfo addrs (buf, writeCount))
    (hcount : addrs.length + 1 < 2 ^ 16) (a : InAddr) :
  Holds mem helloInfo (addrs ++ [a])
    (⟨Memory.write buf.mem (helloInfo + 4 + 4 * writeCount.toNat) (le32 a), buf.offset + 4⟩,
      writeCount + 1)
  := by
  have hwrite : writeCount.toNat = addrs.length := h.count
  have hoffset : buf.offset = helloInfo + 4 + 4 * addrs.length := h.offset
  have hlength : (addrs ++ [a]).length = addrs.length + 1 := List.length_append
  rw [hwrite]
  constructor
  · simp only [hlength, hoffset]
    omega
  · rw [hlength, BitVec.toNat_add, hwrite]
    apply Nat.mod_eq_of_lt hcount
  · intro i b hb
    rcases Nat.lt_or_ge i addrs.length with hlt | hge
    · rw [List.getElem?_append_left hlt] at hb
      rw [le32In_congr (fun j _ _ => Memory.write_of_lt _ _ (by omega))]
      apply h.addr i b hb
    · have hi : i = addrs.length := by
        have hlt := (List.getElem?_eq_some_iff.mp hb).1
        omega
      subst hi
      rw [List.getElem?_append_right (Nat.le_refl _), Nat.sub_self] at hb
      obtain rfl := Option.some.inj hb
      apply le32In_write
  · intro i hi
    have hkeep := Memory.write_of_lt buf.mem (le32 a)
      (by omega : i < helloInfo + 4 + 4 * addrs.length)
    apply hkeep.trans (h.before i hi)
  · intro i hi
    rw [hlength] at hi
    have hkeep := Memory.write_of_le buf.mem (le32 a)
      (by rw [length_le32]; omega : helloInfo + 4 + 4 * addrs.length + (le32 a).length ≤ i)
    apply hkeep.trans (h.after i (by omega))

theorem code_ne_statusUnavailable {s : NeighborStatus} :
  s.code ≠ statusUnavailable ↔ s ≠ .unavailable
  := by
  cases s <;> decide

/-- A link is written if it has a neighbour with a status and the code of the group. -/
theorem Holds.writeLink {ctx : OlsrContext} {code : BitVec 8} {mem : ℕ → Byte} {helloInfo : ℕ}
    {addrs : List InAddr} {s : HelloBuf × BitVec 16} (h : Holds mem helloInfo addrs s)
    (lelem : InAddr × LinkElem)
    (hcount : (addrs ++ ctx.listed code [lelem]).length < 2 ^ 16) :
  Holds mem helloInfo (addrs ++ ctx.listed code [lelem]) (writeLink ctx code helloInfo s lelem)
  := by
  obtain ⟨buf, writeCount⟩ := s
  by_cases hlisted : ctx.hasStatus lelem = true ∧ ctx.linkCode lelem = code
  · have heq : ctx.listed code [lelem] = [lelem.1] := by simp [OlsrContext.listed, hlisted]
    have hstatus : (ctx.getNeighborStatus lelem.1).code ≠ statusUnavailable :=
      code_ne_statusUnavailable.mpr (of_decide_eq_true hlisted.1)
    have hcode : createLinkCode (ctx.getNeighborStatus lelem.1).code lelem.2.status.code = code :=
      hlisted.2
    rw [heq, List.length_append, List.length_singleton] at hcount
    rw [heq, HelloBuf.writeLink]
    simp only [if_neg hstatus, if_pos hcode]
    apply h.write hcount
  · have heq : ctx.listed code [lelem] = [] := by simp [OlsrContext.listed, hlisted]
    have hsame : HelloBuf.writeLink ctx code helloInfo (buf, writeCount) lelem =
        (buf, writeCount) := by
      rw [HelloBuf.writeLink]
      by_cases hstatus : (ctx.getNeighborStatus lelem.1).code = statusUnavailable
      · simp only [if_pos hstatus]
      · have hcode :
            createLinkCode (ctx.getNeighborStatus lelem.1).code lelem.2.status.code ≠ code := by
          intro hcode
          apply hlisted ⟨decide_eq_true (code_ne_statusUnavailable.mp hstatus), hcode⟩
        simp only [if_neg hstatus, if_neg hcode]
    rw [heq, hsame, List.append_nil]
    apply h

/-- Going through links writes those that have the code of the group. -/
theorem Holds.foldl {ctx : OlsrContext} {code : BitVec 8} {mem : ℕ → Byte} {helloInfo : ℕ}
    {addrs : List InAddr} {s : HelloBuf × BitVec 16} (h : Holds mem helloInfo addrs s)
    (l : List (InAddr × LinkElem)) (hcount : (addrs ++ ctx.listed code l).length < 2 ^ 16) :
  Holds mem helloInfo (addrs ++ ctx.listed code l)
    (l.foldl (HelloBuf.writeLink ctx code helloInfo) s)
  := by
  induction l generalizing addrs s with
  | nil =>
      have hnil : ctx.listed code [] = [] := rfl
      rw [hnil, List.append_nil]
      apply h
  | cons lelem l ih =>
      have hcons : ctx.listed code (lelem :: l) = ctx.listed code [lelem] ++ ctx.listed code l := by
        rw [OlsrContext.listed, ← List.singleton_append, List.filter_append, List.map_append]
        rfl
      rw [hcons, ← List.append_assoc] at hcount ⊢
      rw [List.foldl_cons]
      apply ih _ hcount
      apply h.writeLink lelem
      rw [List.length_append] at hcount
      omega

/-- From `buf` to `buf'` the groups have been written. The byte at the new `offset` may have been
written too, as the link code of a group that was taken back, but no byte behind it. -/
structure Writes (buf buf' : HelloBuf) (infos : List HelloInfo) : Prop where
  offset : buf'.offset = buf.offset + infosBytes infos
  infos : InfosAt buf'.mem buf.offset infos
  before : ∀ i < buf.offset, buf'.mem i = buf.mem i
  after : ∀ i > buf'.offset, buf'.mem i = buf.mem i

theorem Writes.refl (buf : HelloBuf) :
  Writes buf buf []
  := ⟨rfl, trivial, fun _ _ => rfl, fun _ _ => rfl⟩

theorem Writes.trans {buf buf' buf'' : HelloBuf} {infos infos' : List HelloInfo}
    (h : Writes buf buf' infos) (h' : Writes buf' buf'' infos') :
  Writes buf buf'' (infos ++ infos')
  := by
  have hoffset := h.offset
  have hoffset' := h'.offset
  constructor
  · rw [infosBytes_append, hoffset', hoffset]
    omega
  · apply InfosAt.append
    · apply h.infos.congr
      intro i _ hi
      apply h'.before i (by omega)
    · rw [← hoffset]
      apply h'.infos
  · intro i hi
    rw [h'.before i (by omega), h.before i hi]
  · intro i hi
    rw [h'.after i hi, h.after i (by omega)]

/-- The two loops of `hello_write_links_with_code` go through all links. -/
theorem foldl_links (ctx : OlsrContext) (code : BitVec 8) (helloInfo : ℕ)
    (s : HelloBuf × BitVec 16) :
  ctx.localIfaceTree.entries.foldl
      (fun s ielem => ielem.2.ifaceLinkTree.entries.foldl (writeLink ctx code helloInfo) s) s =
    ctx.links.foldl (writeLink ctx code helloInfo) s
  := by
  rw [OlsrContext.links, List.foldl_flatMap]

/-- The header of a group without addresses is taken back. Its link code has been written. -/
theorem Holds.takeBack {buf buf' : HelloBuf} {code : BitVec 8} {writeCount : BitVec 16}
    (h : Holds (Memory.write buf.mem buf.offset [code]) buf.offset [] (buf', writeCount)) :
  Writes buf ⟨buf'.mem, buf'.offset - 4⟩ []
  := by
  have hoffset : buf'.offset - 4 = buf.offset := by
    have hoffset : buf'.offset = buf.offset + 4 := h.offset
    omega
  rw [hoffset]
  refine ⟨rfl, trivial, ?_, ?_⟩
  · intro i hi
    apply (h.before i (by omega)).trans (Memory.write_of_lt _ _ hi)
  · intro i hi
    have hkeep : Memory.write buf.mem buf.offset [code] i = buf.mem i :=
      Memory.write_of_le _ _ hi
    rcases Nat.lt_or_ge i (buf.offset + 4) with hlt | hge
    · apply (h.before i hlt).trans hkeep
    · apply (h.after i hge).trans hkeep

/-- A group with addresses is complete when its field `size` is written. -/
theorem Holds.finish {buf buf' : HelloBuf} {code : BitVec 8} {addrs : List InAddr}
    {writeCount : BitVec 16}
    (h : Holds (Memory.write buf.mem buf.offset [code]) buf.offset addrs (buf', writeCount)) :
  Writes buf ⟨Memory.write buf'.mem (buf.offset + 2) (be16 writeCount), buf'.offset⟩
    [⟨code, addrs⟩]
  := by
  have hoffset : buf'.offset = buf.offset + 4 + 4 * addrs.length := h.offset
  have hkeep : ∀ i, i ≠ buf.offset + 2 → i ≠ buf.offset + 3 →
      Memory.write buf'.mem (buf.offset + 2) (be16 writeCount) i = buf'.mem i := by
    intro i h2 h3
    rcases Nat.lt_or_ge i (buf.offset + 2) with hlt | hge
    · apply Memory.write_of_lt _ _ hlt
    · apply Memory.write_of_le _ _
      rw [length_be16]
      omega
  have hbytes : infosBytes [⟨code, addrs⟩] = 4 + 4 * addrs.length := rfl
  constructor
  · simp only [hbytes, hoffset]
    omega
  · refine ⟨⟨?_, ?_, ?_⟩, trivial⟩
    · have hcode : [code][0]? = some code := rfl
      apply (hkeep buf.offset (by omega) (by omega)).trans
      apply (h.before buf.offset (by omega)).trans
      apply Memory.write_add buf.mem buf.offset hcode
    · rw [be16In_write]
      apply h.count
    · intro i a ha
      rw [le32In_congr (fun j _ _ => hkeep j (by omega) (by omega))]
      apply h.addr i a ha
  · intro i hi
    apply (hkeep i (by omega) (by omega)).trans
    apply (h.before i (by omega)).trans (Memory.write_of_lt _ _ hi)
  · intro i hi
    simp only [hoffset] at hi
    apply (hkeep i (by omega) (by omega)).trans
    apply (h.after i (by omega)).trans
    apply Memory.write_of_le
    rw [List.length_singleton]
    omega

/-- `hello_write_links_with_code` writes its group, unless it is empty. -/
theorem helloWriteLinksWithCode_writes (ctx : OlsrContext) (buf : HelloBuf) (code : BitVec 8)
    (hcount : (ctx.listed code ctx.links).length < 2 ^ 16) :
  Writes buf (buf.helloWriteLinksWithCode ctx code) (ctx.helloWriteLinksWithCode code)
  := by
  have hstart : Holds (Memory.write buf.mem buf.offset [code]) buf.offset []
      (⟨Memory.write buf.mem buf.offset [code], buf.offset + 4⟩, 0) :=
    ⟨rfl, rfl, by simp, fun _ _ => rfl, fun _ _ => rfl⟩
  have hholds : Holds (Memory.write buf.mem buf.offset [code]) buf.offset
      (ctx.listed code ctx.links) _ := hstart.foldl ctx.links hcount
  rw [OlsrContext.helloWriteLinksWithCode_eq, HelloBuf.helloWriteLinksWithCode]
  simp only [foldl_links]
  generalize ctx.links.foldl (writeLink ctx code buf.offset)
    (⟨Memory.write buf.mem buf.offset [code], buf.offset + 4⟩, 0) = s at hholds
  generalize ctx.listed code ctx.links = addrs at hholds hcount
  obtain ⟨buf', writeCount⟩ := s
  have hzero : writeCount = 0 ↔ addrs.length = 0 := by
    rw [← hholds.count, ← BitVec.toNat_inj]
    rfl
  by_cases hempty : addrs.length = 0
  · simp only [if_pos hempty, if_pos (hzero.mpr hempty)]
    rw [List.eq_nil_of_length_eq_zero hempty] at hholds
    apply hholds.takeBack
  · simp only [if_neg hempty, if_neg (fun h => hempty (hzero.mp h))]
    apply hholds.finish

/-- `hello_write_links_with_code`, for one code after the other. -/
theorem foldl_writes (ctx : OlsrContext) (buf : HelloBuf) (codes : List (BitVec 8))
    (hcount : ∀ code ∈ codes, (ctx.listed code ctx.links).length < 2 ^ 16) :
  Writes buf (codes.foldl (helloWriteLinksWithCode ctx) buf)
    (codes.flatMap ctx.helloWriteLinksWithCode)
  := by
  induction codes generalizing buf with
  | nil => apply Writes.refl
  | cons code codes ih =>
      rw [List.foldl_cons, List.flatMap_cons]
      have hhead := helloWriteLinksWithCode_writes ctx buf code (hcount code List.mem_cons_self)
      apply hhead.trans
      apply ih
      intro code' hcode'
      apply hcount code' (List.mem_cons_of_mem code hcode')

end HelloBuf

/-! ### The groups of a HELLO -/

/-- The link codes, in the order of `hello_write_links`. -/
def linkCodes : List (BitVec 8) :=
  (List.range neighborStatusEnd).flatMap (fun nstat =>
    (List.range linkStatusEnd).map (fun lstat =>
      createLinkCode (.ofNat 8 nstat) (.ofNat 8 lstat)))

theorem linkCodes_sorted :
  linkCodes.Pairwise (· < ·)
  := by decide

theorem OlsrContext.helloWriteLinks_eq (ctx : OlsrContext) :
  ctx.helloWriteLinks = linkCodes.flatMap ctx.helloWriteLinksWithCode
  := by
  rw [linkCodes, List.flatMap_assoc]
  simp only [List.flatMap_map]
  rfl

theorem HelloBuf.helloWriteLinks_eq (ctx : OlsrContext) (buf : HelloBuf) :
  buf.helloWriteLinks ctx = linkCodes.foldl (helloWriteLinksWithCode ctx) buf
  := by
  rw [linkCodes, List.foldl_flatMap]
  simp only [List.foldl_map]
  rfl

/-- Collecting the elements of a list key by key is a rearrangement of those with one of the
keys. -/
theorem List.flatMap_filter_perm {α κ : Type*} [DecidableEq κ] (key : α → κ) (l : List α)
    {keys : List κ} (h : keys.Nodup) :
  (keys.flatMap (fun k => l.filter (fun x => key x = k))).Perm
    (l.filter (fun x => key x ∈ keys))
  := by
  induction keys with
  | nil => simp
  | cons k keys ih =>
      obtain ⟨hk, hkeys⟩ := List.nodup_cons.mp h
      have hsplit := List.filter_append_perm (fun x => decide (key x = k))
        (l.filter (fun x => key x ∈ k :: keys))
      have hfirst : (l.filter (fun x => key x ∈ k :: keys)).filter (fun x => key x = k) =
          l.filter (fun x => key x = k) := by
        rw [List.filter_filter]
        apply List.filter_congr
        intro x _
        simp only [List.mem_cons, Bool.decide_or, Bool.and_or_distrib_left, Bool.and_self]
        by_cases hx : key x = k <;> simp [hx]
      have hrest : (l.filter (fun x => key x ∈ k :: keys)).filter (fun x => !decide (key x = k)) =
          l.filter (fun x => key x ∈ keys) := by
        rw [List.filter_filter]
        apply List.filter_congr
        intro x _
        by_cases hx : key x = k
        · simp [hx, hk]
        · simp [hx]
      rw [hfirst, hrest] at hsplit
      rw [List.flatMap_cons]
      apply ((ih hkeys).append_left _).trans hsplit

namespace OlsrContext

/-- What a list of groups says: every address with the neighbour status and the link status of
the code it is listed under. -/
def listing (infos : List HelloInfo) : List (InAddr × BitVec 8 × BitVec 8) :=
  infos.flatMap (fun info => info.neighAddr.map (fun addr =>
    (addr, extractStatus info.linkCode, extractLink info.linkCode)))

theorem mem_linkCodes (nstat : NeighborStatus) (lstat : LinkStatus) (h : nstat ≠ .unavailable) :
  createLinkCode nstat.code lstat.code ∈ linkCodes
  := by
  cases nstat with
  | unavailable => contradiction
  | _ => cases lstat <;> decide

theorem hasStatus_iff {ctx : OlsrContext} {lelem : InAddr × LinkElem} :
  ctx.hasStatus lelem = decide ((ctx.getNeighborStatus lelem.1).code.toNat < neighborStatusEnd)
  := by
  rw [hasStatus]
  cases ctx.getNeighborStatus lelem.1 <;> rfl

/-- The groups have increasing link codes. -/
theorem helloWriteLinks_sorted (ctx : OlsrContext) :
  ctx.helloWriteLinks.Pairwise (fun info info' => info.linkCode < info'.linkCode)
  := by
  have hcode : ∀ code, ∀ info ∈ ctx.helloWriteLinksWithCode code, info.linkCode = code := by
    intro code info hinfo
    rw [helloWriteLinksWithCode_eq] at hinfo
    split_ifs at hinfo
    · contradiction
    · rw [List.mem_singleton.mp hinfo]
  rw [helloWriteLinks_eq, List.pairwise_flatMap]
  constructor
  · intro code _
    rw [helloWriteLinksWithCode_eq]
    split_ifs
    · apply List.Pairwise.nil
    · apply List.pairwise_singleton
  · apply linkCodes_sorted.imp
    intro code code' hlt info hinfo info' hinfo'
    rw [hcode code info hinfo, hcode code' info' hinfo']
    apply hlt

/-- No group is empty. -/
theorem helloWriteLinks_ne_nil {ctx : OlsrContext} {info : HelloInfo}
    (h : info ∈ ctx.helloWriteLinks) :
  info.neighAddr ≠ []
  := by
  rw [helloWriteLinks_eq] at h
  obtain ⟨code, -, hinfo⟩ := List.mem_flatMap.mp h
  rw [helloWriteLinksWithCode_eq] at hinfo
  split_ifs at hinfo with hempty
  · contradiction
  · rw [List.mem_singleton.mp hinfo]
    intro hnil
    apply hempty (List.length_eq_zero_iff.mpr hnil)

theorem listing_helloWriteLinksWithCode (ctx : OlsrContext) (code : BitVec 8) :
  listing (ctx.helloWriteLinksWithCode code) =
    ((ctx.links.filter ctx.hasStatus).filter (fun lelem => ctx.linkCode lelem = code)).map
      (fun lelem => (lelem.1, (ctx.getNeighborStatus lelem.1).code, lelem.2.status.code))
  := by
  have hlisting : listing (ctx.helloWriteLinksWithCode code) =
      (ctx.listed code ctx.links).map (fun addr =>
        (addr, extractStatus code, extractLink code)) := by
    rw [helloWriteLinksWithCode_eq]
    split_ifs with hempty
    · rw [List.eq_nil_of_length_eq_zero hempty]
      rfl
    · rw [listing, List.flatMap_singleton]
  rw [hlisting, listed, List.map_map, List.filter_filter]
  have hfilter : (fun lelem => decide (ctx.hasStatus lelem = true ∧ ctx.linkCode lelem = code)) =
      (fun lelem => decide (ctx.linkCode lelem = code) && ctx.hasStatus lelem) := by
    funext lelem
    rw [Bool.decide_and, Bool.and_comm, Bool.decide_eq_true]
  rw [hfilter]
  apply List.map_congr_left
  intro lelem hlelem
  obtain ⟨-, hlisted⟩ := List.mem_filter.mp hlelem
  rw [Bool.and_eq_true, decide_eq_true_eq] at hlisted
  have hstatus : ctx.getNeighborStatus lelem.1 ≠ .unavailable := of_decide_eq_true hlisted.2
  rw [Function.comp_apply, ← hlisted.1, linkCode, extractStatus_createLinkCode _ _ hstatus,
    extractLink_createLinkCode _ _ hstatus]

/-- The groups list the links with a neighbour status, each once, with both of its statuses. -/
theorem listing_helloWriteLinks (ctx : OlsrContext) :
  (listing ctx.helloWriteLinks).Perm
    ((ctx.links.filter ctx.hasStatus).map
      (fun lelem => (lelem.1, (ctx.getNeighborStatus lelem.1).code, lelem.2.status.code)))
  := by
  have heq : listing ctx.helloWriteLinks =
      (linkCodes.flatMap (fun code => (ctx.links.filter ctx.hasStatus).filter
        (fun lelem => ctx.linkCode lelem = code))).map
        (fun lelem => (lelem.1, (ctx.getNeighborStatus lelem.1).code, lelem.2.status.code)) := by
    have hcodes := List.flatMap_congr (fun code (_ : code ∈ linkCodes) =>
      listing_helloWriteLinksWithCode ctx code)
    rw [List.map_flatMap, ← hcodes, helloWriteLinks_eq, listing, List.flatMap_assoc]
    rfl
  have hall : (ctx.links.filter ctx.hasStatus).filter
      (fun lelem => ctx.linkCode lelem ∈ linkCodes) =
      ctx.links.filter ctx.hasStatus := by
    apply List.filter_eq_self.mpr
    intro lelem hlelem
    have hstatus := of_decide_eq_true (List.mem_filter.mp hlelem).2
    apply decide_eq_true (mem_linkCodes _ _ hstatus)
  have hperm := List.flatMap_filter_perm ctx.linkCode (ctx.links.filter ctx.hasStatus)
    (linkCodes_sorted.imp ne_of_lt)
  rw [hall] at hperm
  rw [heq]
  apply hperm.map

end OlsrContext

/-! ### Reading what was built -/

/-- A HELLO whose groups fit into 65535 bytes has no group with too many addresses to count. -/
theorem OlsrContext.length_listed_lt {ctx : OlsrContext} {code : BitVec 8}
    (hcode : code ∈ linkCodes)
    (hfits : infosBytes ctx.helloWriteLinks < 2 ^ 16) :
  (ctx.listed code ctx.links).length < 2 ^ 16
  := by
  by_cases hempty : (ctx.listed code ctx.links).length = 0
  · omega
  · have hmem : (⟨code, ctx.listed code ctx.links⟩ : HelloInfo) ∈ ctx.helloWriteLinks := by
      rw [helloWriteLinks_eq]
      apply List.mem_flatMap.mpr
      refine ⟨code, hcode, ?_⟩
      rw [helloWriteLinksWithCode_eq, if_neg hempty]
      apply List.mem_singleton_self
    have hle : 4 + 4 * (ctx.listed code ctx.links).length ≤ infosBytes ctx.helloWriteLinks :=
      List.single_le_sum (fun _ _ => Nat.zero_le _) _
        (List.mem_map_of_mem (f := HelloInfo.bytes) hmem)
    omega

/-- `build_olsr_hello` writes the fixed fields and the groups. -/
theorem buildOlsrHello_writes (ctx : OlsrContext) (mem : ℕ → Byte)
    (hfits : infosBytes ctx.helloWriteLinks < 2 ^ 16) :
  HelloBuf.Writes ⟨Memory.write mem 0
      ([0, 0] ++ [reltimeToMe defHelloIntervalMs] ++ [ctx.param.willingness]), 4⟩
    ⟨(HelloBuf.buildOlsrHello ctx mem).1, (HelloBuf.buildOlsrHello ctx mem).2⟩ ctx.helloWriteLinks
  := by
  rw [OlsrContext.helloWriteLinks_eq, HelloBuf.buildOlsrHello, HelloBuf.helloWriteLinks_eq]
  apply HelloBuf.foldl_writes
  intro code hcode
  apply OlsrContext.length_listed_lt hcode hfits

/-- For every node whose HELLO fits into the buffer, whatever was in the buffer before: `*len` is
the size of the HELLO, and going through the groups in the bytes after its fixed fields

* ends at the end of the message,
* finds the groups of the HELLO, with increasing link codes and at least one address each,
* lists the links whose neighbour has a status below `NEIGHBOR_STATUS_END`, each once, under a
  code that gives back both of its statuses, and nothing else.

The loop that looks for the own address finds what it would find in these groups. -/
theorem buildOlsrHello_read (ctx : OlsrContext) (mem mem' : ℕ → Byte) (len : ℕ)
    (hfits : (MsgPayload.hello ctx.buildOlsrHello).bytes ≤ helloBufSize)
    (hbuild : HelloBuf.buildOlsrHello ctx mem = (mem', len)) :
  len = (MsgPayload.hello ctx.buildOlsrHello).bytes ∧
    ∃ infos, readHelloInfos mem' 4 (len - 4) 4 = (infos, len) ∧
      infos = ctx.buildOlsrHello.helloInfo ∧
      infos.Pairwise (fun info info' => info.linkCode < info'.linkCode) ∧
      (∀ info ∈ infos, info.neighAddr ≠ []) ∧
      (OlsrContext.listing infos).Perm
        ((ctx.links.filter (fun lelem =>
          (ctx.getNeighborStatus lelem.1).code.toNat < neighborStatusEnd)).map
            (fun lelem => (lelem.1, (ctx.getNeighborStatus lelem.1).code, lelem.2.status.code))) ∧
      ∀ ownIp, readLinkcodeToMe ownIp mem' 4 (len - 4) 4 = OlsrContext.linkcodeToMe ownIp infos
  := by
  have hbytes : (MsgPayload.hello ctx.buildOlsrHello).bytes = 4 + infosBytes ctx.helloWriteLinks :=
    rfl
  rw [hbytes, helloBufSize] at hfits
  have hwrites := buildOlsrHello_writes ctx mem (by omega)
  rw [hbuild] at hwrites
  have hlen : len = 4 + infosBytes ctx.helloWriteLinks := hwrites.offset
  have hend : 4 + infosBytes ctx.helloWriteLinks = 4 + (len - 4) := by omega
  have hinfos : InfosAt mem' 4 ctx.helloWriteLinks := hwrites.infos
  refine ⟨hlen, ctx.helloWriteLinks, ?_, rfl, ctx.helloWriteLinks_sorted, ?_, ?_, ?_⟩
  · rw [readHelloInfos_eq hinfos (Nat.le_refl 4) hend, ← hend, ← hlen]
  · intro info hinfo
    apply OlsrContext.helloWriteLinks_ne_nil hinfo
  · have hfilter : (fun lelem : InAddr × LinkElem =>
        decide ((ctx.getNeighborStatus lelem.1).code.toNat < neighborStatusEnd)) =
        ctx.hasStatus := by
      funext lelem
      rw [OlsrContext.hasStatus_iff]
    rw [hfilter]
    apply ctx.listing_helloWriteLinks
  · intro ownIp
    apply readLinkcodeToMe_eq ownIp hinfos (Nat.le_refl 4) hend

/-- A node with a symmetric link to a relay and an asymmetric link. -/
def twoLinks : OlsrContext :=
  { initOlsrContext (nodeIp 1) ⟨0, 0⟩ with
    localIfaceTree := OrdMap.empty.insert (nodeIp 1) ⟨(OrdMap.empty.insert (nodeIp 2)
      ⟨0, nodeIp 1, .symLink, none, none, none⟩).insert (nodeIp 3)
      ⟨1, nodeIp 1, .asymLink, none, none, none⟩⟩
    neighborTree := (OrdMap.empty.insert (nodeIp 2) ⟨.mprNeigh, willDefault, .empty⟩).insert
      (nodeIp 3) ⟨.notNeigh, willDefault, .empty⟩ }

theorem buildOlsrHello_read_two :
  ∃ mem' infos, HelloBuf.buildOlsrHello twoLinks (fun _ => 7) = (mem', 20) ∧
    readHelloInfos mem' 4 16 4 = (infos, 20) ∧ infos.map HelloInfo.linkCode = [1, 10]
  := by
  have hfits : (MsgPayload.hello twoLinks.buildOlsrHello).bytes ≤ helloBufSize := by decide +kernel
  have hlen : (HelloBuf.buildOlsrHello twoLinks (fun _ => 7)).2 = 20 := by decide +kernel
  obtain ⟨-, infos, hread, rfl, -⟩ :=
    buildOlsrHello_read twoLinks (fun _ => 7) _ 20 hfits (Prod.ext rfl hlen)
  exact ⟨_, _, Prod.ext rfl hlen, hread, by decide +kernel⟩
