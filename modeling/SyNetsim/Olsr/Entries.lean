import Mathlib.Logic.Relation
import SyNetsim.Olsr.Node

/-!
# Entries and their timers

Links, two-hop neighbours, topology entries, duplicate entries and MPR selectors each have
timers whose callback removes them (`Owns`). While a node handles a message it changes entries
and timers in a few ways only (`Change`): it starts a timer for an entry, writes to a link, enters
an MPR selector, or stops the timer of a symmetric link.

What entries and timers keep true throughout a run is thus a matter of single changes. As a first
case, every timer of an entry stays allocated (`Backed.change`).
-/

/-- The callback removes a table entry. -/
def Callback.isExpiry : Callback → Bool
  | linkTimerExpire _ => true
  | neigh2ElemExpire _ => true
  | topologyInfoTimerExpireCb _ => true
  | expireDupEntryCb _ => true
  | mprSelectorExpire _ => true
  | olsrHelloTimerCb => false
  | olsrTcTimerCb => false
  | olsrSendFromQueueCb => false
  | dumpDebuginfoCb => false

/-- The timer `p` is one of the three timers of a link. -/
def LinkElem.HasTimer (link : LinkElem) (p : ℕ) : Prop :=
  link.expireTimer = some p ∨ link.asymTimer = some p ∨ link.symTimer = some p

namespace OlsrContext

/-! ### Entries and their timers -/

/-- The entry that is the argument of an expiry callback is in its table and holds the
timer `p`. -/
def Owns (ctx : OlsrContext) : Callback → ℕ → Prop
  | .linkTimerExpire arg, p => ∃ link, ctx.followLink arg = some link ∧ link.HasTimer p
  | .neigh2ElemExpire arg, p =>
      ∃ n2elem, ctx.followNeigh2 arg = some n2elem ∧ n2elem.expireTimer = p
  | .topologyInfoTimerExpireCb arg, p =>
      ∃ telem, ctx.followTopology arg = some telem ∧ telem.expireTimer = p
  | .expireDupEntryCb arg, p => ∃ delem, ctx.followDup arg = some delem ∧ delem.expireTimer = p
  | .mprSelectorExpire arg, p =>
      ∃ selem, ctx.selectorElems.search arg = some selem ∧ selem.expireTimer = p
  | _, _ => False

theorem followLink_eq_some {ctx : OlsrContext} {arg : Ptr (InAddr × InAddr)} {link : LinkElem} :
  ctx.followLink arg = some link ↔
    ctx.searchLink arg.key.1 arg.key.2 = some link ∧ link.id = arg.id
  := by
  simp [followLink, Option.filter_eq_some_iff]

theorem followNeigh2_eq_some {ctx : OlsrContext} {arg : Ptr (InAddr × InAddr)}
    {n2elem : Neighbor2Elem} :
  ctx.followNeigh2 arg = some n2elem ↔
    ctx.searchNeigh2 arg.key.1 arg.key.2 = some n2elem ∧ n2elem.id = arg.id
  := by
  simp [followNeigh2, Option.filter_eq_some_iff]

theorem followTopology_eq_some {ctx : OlsrContext} {arg : Ptr InAddr} {telem : TopologyInfoElem} :
  ctx.followTopology arg = some telem ↔
    ctx.topologyTree.search arg.key = some telem ∧ telem.id = arg.id
  := by
  simp [followTopology, Option.filter_eq_some_iff]

theorem followDup_eq_some {ctx : OlsrContext} {arg : Ptr DuplicateSetKey}
    {delem : DuplicateSetElem} :
  ctx.followDup arg = some delem ↔ ctx.dupTree.search arg.key = some delem ∧ delem.id = arg.id
  := by
  simp [followDup, Option.filter_eq_some_iff]

theorem searchNeigh2_modify (ctx : OlsrContext) {neighbors : OrdMap InAddr NeighborElem}
    (hneighbors : ctx.neighborTree = neighbors) (addr : InAddr)
    (f : OrdMap InAddr Neighbor2Elem → OrdMap InAddr Neighbor2Elem) (a x : InAddr) :
  OlsrContext.searchNeigh2 { ctx with
      neighborTree := neighbors.modify addr (fun n =>
        { n with neighbor2Tree := f n.neighbor2Tree }) } a x =
    if a = addr then (neighbors.search addr).bind (fun n => (f n.neighbor2Tree).search x)
    else ctx.searchNeigh2 a x
  := by
  subst hneighbors
  rw [searchNeigh2, OrdMap.search_modify]
  split_ifs with ha
  · cases ctx.neighborTree.search addr <;> rfl
  · rfl

/-- Two-hop neighbours are found alike when neighbours differ by their status only. -/
theorem searchNeigh2_congr {ctx ctx' : OlsrContext}
    (h : ∀ a, (ctx'.neighborTree.search a).map NeighborElem.neighbor2Tree =
      (ctx.neighborTree.search a).map NeighborElem.neighbor2Tree) (a x : InAddr) :
  ctx'.searchNeigh2 a x = ctx.searchNeigh2 a x
  := by
  have ha := h a
  rw [searchNeigh2, searchNeigh2]
  cases hn : ctx.neighborTree.search a with
  | none =>
      rw [hn, Option.map_none, Option.map_eq_none_iff] at ha
      rw [ha]
  | some n =>
      rw [hn, Option.map_some, Option.map_eq_some_iff] at ha
      obtain ⟨n', hn', heq⟩ := ha
      simp [hn', heq]


/-- What an element found is known by, when two tables agree on it. -/
theorem exists_map_congr {β γ : Type} {found found' : Option β} (key : β → γ)
    (h : found'.map key = found.map key) {P : β → Prop} (hP : ∀ e e', key e = key e' → P e → P e') :
  (∃ e, found' = some e ∧ P e) ↔ ∃ e, found = some e ∧ P e
  := by
  cases hfound : found with
  | none =>
      rw [hfound, Option.map_none, Option.map_eq_none_iff] at h
      rw [h]
  | some e =>
      rw [hfound, Option.map_some, Option.map_eq_some_iff] at h
      obtain ⟨e', rfl, hkey⟩ := h
      simp only [Option.some.injEq, exists_eq_left']
      exact ⟨hP e' e hkey, hP e e' hkey.symm⟩

/-- Timers belong to the same entries when links, two-hop neighbours and MPR selectors are the
same, and the other entries keep their numbers and timers. -/
theorem owns_congr {ctx ctx' : OlsrContext}
    (hlink : ∀ i a, ctx'.searchLink i a = ctx.searchLink i a)
    (hneigh2 : ∀ a x, ctx'.searchNeigh2 a x = ctx.searchNeigh2 a x)
    (htopology : ∀ d, (ctx'.topologyTree.search d).map (fun t => (t.id, t.expireTimer)) =
      (ctx.topologyTree.search d).map (fun t => (t.id, t.expireTimer)))
    (hdup : ∀ d, (ctx'.dupTree.search d).map (fun t => (t.id, t.expireTimer)) =
      (ctx.dupTree.search d).map (fun t => (t.id, t.expireTimer)))
    (helems : ctx'.selectorElems = ctx.selectorElems) (c : Callback) (p : ℕ) :
  ctx'.Owns c p ↔ ctx.Owns c p
  := by
  cases c with
  | linkTimerExpire arg => simp only [Owns, followLink_eq_some, hlink]
  | neigh2ElemExpire arg => simp only [Owns, followNeigh2_eq_some, hneigh2]
  | topologyInfoTimerExpireCb arg =>
      simp only [Owns, followTopology_eq_some, and_assoc]
      apply exists_map_congr _ (htopology arg.key)
      intro e e' heq
      rw [Prod.mk.injEq] at heq
      rw [heq.1, heq.2]
      intro h
      apply h
  | expireDupEntryCb arg =>
      simp only [Owns, followDup_eq_some, and_assoc]
      apply exists_map_congr _ (hdup arg.key)
      intro e e' heq
      rw [Prod.mk.injEq] at heq
      rw [heq.1, heq.2]
      intro h
      apply h
  | mprSelectorExpire arg => simp only [Owns, helems]
  | _ => rfl

/-! ### The kinds of changes -/

/-- Between `ctx` and `ctx'` links and MPR selectors are the same. -/
structure Aside (ctx ctx' : OlsrContext) : Prop where
  searchLink : ∀ i a, ctx'.searchLink i a = ctx.searchLink i a
  selectorElems : ctx'.selectorElems = ctx.selectorElems
  selectorTree : ctx'.selectorTree = ctx.selectorTree

/-- Between `ctx` and `ctx'` entries and timers are the same. -/
structure SameEntries (ctx ctx' : OlsrContext) : Prop extends Aside ctx ctx' where
  timerqueue : ctx'.timerqueue = ctx.timerqueue
  owns : ∀ c p, ctx'.Owns c p ↔ ctx.Owns c p
  nextId : ctx'.nextId = ctx.nextId

/-- From `ctx` to `ctx'` the timer `p` has been started, and it belongs to the entry that is the
argument of `c`. -/
structure Starts (c : Callback) (p : ℕ) (ctx ctx' : OlsrContext) : Prop where
  wf : ctx'.timerqueue.Wf none
  grows : ctx.timerqueue.Grows ctx'.timerqueue
  safe : ctx.Owns c p ∨ ctx'.timerqueue.Safe c p
  armed : ∀ d q, ctx'.timerqueue.Armed d q ↔ ctx.timerqueue.Armed d q ∨ d = c ∧ q = p
  owns : ∀ d q, ctx'.Owns d q ↔ ctx.Owns d q ∨ d = c ∧ q = p
  nextId : ctx.nextId ≤ ctx'.nextId

/-- From `ctx` to `ctx'` the timer `p` has been made inactive. -/
structure Stops (p : ℕ) (ctx ctx' : OlsrContext) : Prop where
  wf : ctx'.timerqueue.Wf none
  grows : ctx.timerqueue.Grows ctx'.timerqueue
  armed : ∀ d q, ctx'.timerqueue.Armed d q ↔ q ≠ p ∧ ctx.timerqueue.Armed d q
  owns : ∀ d q, ctx'.Owns d q ↔ ctx.Owns d q
  nextId : ctx'.nextId = ctx.nextId

/-- From `ctx` to `ctx'` the link of `iface` to `addr` has become `link`. -/
structure WritesLink (iface addr : InAddr) (link : LinkElem) (ctx ctx' : OlsrContext) :
    Prop where
  searchLink : ∀ i a, ctx'.searchLink i a =
    if i = iface ∧ a = addr then some link else ctx.searchLink i a
  selectorElems : ctx'.selectorElems = ctx.selectorElems
  selectorTree : ctx'.selectorTree = ctx.selectorTree

/-- A link whose timer `p` is set: which timer it is, and what happens to the status. The timer
is `fresh` if the link did not have it. -/
inductive SetsTimer (fresh : Prop) (p : ℕ) (link : LinkElem) : LinkElem → Prop
  | expire : link.expireTimer = some p → SetsTimer fresh p link link
  | asym : link.asymTimer = some p ∨ link.asymTimer = none ∧ fresh →
      SetsTimer fresh p link { link with
        status := if link.status ≠ .symLink then .asymLink else link.status
        asymTimer := some p }
  | sym : link.symTimer = some p ∨ link.symTimer = none ∧ fresh →
      SetsTimer fresh p link { link with status := .symLink, symTimer := some p }

/-- A change of entries and timers while a message is handled. Unless the message is `foreign`,
no timer is stopped, and an MPR selector is entered only under an address that has none. -/
inductive Change (foreign : Prop) (ctx ctx' : OlsrContext) : Prop
  | same : SameEntries ctx ctx' → Change foreign ctx ctx'
  | start {c : Callback} {p : ℕ} : (∀ arg, c ≠ .linkTimerExpire arg) → Starts c p ctx ctx' →
      Aside ctx ctx' → Change foreign ctx ctx'
  | newLink {i a : InAddr} {p : ℕ} : ctx.searchLink i a = none → p ∉ ctx.timerqueue.elems →
      Starts (.linkTimerExpire ⟨(i, a), ctx.nextId⟩) p ctx ctx' →
      WritesLink i a ⟨ctx.nextId, i, .lostLink, none, none, some p⟩ ctx ctx' →
      Change foreign ctx ctx'
  | setTimer {i a : InAddr} {link link' : LinkElem} {p : ℕ} : ctx.searchLink i a = some link →
      SetsTimer (p ∉ ctx.timerqueue.elems) p link link' →
      Starts (.linkTimerExpire ⟨(i, a), link.id⟩) p ctx ctx' →
      WritesLink i a link' ctx ctx' → Change foreign ctx ctx'
  | stopSym {i a : InAddr} {link : LinkElem} {status : LinkStatus} {p : ℕ} : foreign →
      ctx.searchLink i a = some link → link.symTimer = some p → status ≠ .symLink →
      Stops p ctx ctx' → WritesLink i a { link with status := status } ctx ctx' →
      Change foreign ctx ctx'
  | selector {orig : InAddr} {p : ℕ} : foreign ∨ ctx.selectorTree.search orig = none →
      Starts (.mprSelectorExpire ctx.nextId) p ctx ctx' →
      (∀ i a, ctx'.searchLink i a = ctx.searchLink i a) →
      ctx'.selectorElems = ctx.selectorElems.insert ctx.nextId ⟨orig, p⟩ →
      ctx'.selectorTree = ctx.selectorTree.insert orig ctx.nextId →
      ctx'.nextId = ctx.nextId + 1 → Change foreign ctx ctx'

/-- Changes one after the other. -/
abbrev Changes (foreign : Prop) : OlsrContext → OlsrContext → Prop :=
  Relation.ReflTransGen (Change foreign)

/-- What the handlers of messages rely on: the timers of entries are allocated, every link has an
expiry timer, and the tree of MPR selectors holds allocated elements. -/
structure Backed (ctx : OlsrContext) : Prop where
  wf : ctx.timerqueue.Wf none
  has : ∀ c p, ctx.Owns c p → ctx.timerqueue.Has c p
  expire : ∀ iface addr link, ctx.searchLink iface addr = some link →
    ∃ p, link.expireTimer = some p
  elems : ∀ id ∈ ctx.selectorElems, id < ctx.nextId
  tree : ∀ a id, ctx.selectorTree.search a = some id →
    ∃ selem, ctx.selectorElems.search id = some selem ∧ selem.selectorAddr = a

theorem SetsTimer.expire_some {fresh : Prop} {p : ℕ} {link link' : LinkElem}
    (h : SetsTimer fresh p link link') (hexpire : ∃ q, link.expireTimer = some q) :
  ∃ q, link'.expireTimer = some q
  := by
  cases h with
  | expire => apply hexpire
  | asym => apply hexpire
  | sym => apply hexpire

theorem SetsTimer.id {fresh : Prop} {p : ℕ} {link link' : LinkElem}
    (h : SetsTimer fresh p link link') :
  link'.id = link.id
  := by
  cases h <;> rfl

/-- A timer started belongs to an entry that is allocated. -/
theorem Starts.has {c : Callback} {p : ℕ} {ctx ctx' : OlsrContext} (hs : Starts c p ctx ctx')
    (hhas : ∀ d q, ctx.Owns d q → ctx.timerqueue.Has d q) :
  ∀ d q, ctx'.Owns d q → ctx'.timerqueue.Has d q
  := by
  intro d q hq
  rcases (hs.owns d q).mp hq with hq | ⟨rfl, rfl⟩
  · apply hs.grows.has d q (hhas d q hq)
  · rcases hs.safe with hq | hsafe
    · apply hs.grows.has d q (hhas d q hq)
    · apply hsafe.has

theorem Stops.has {p : ℕ} {ctx ctx' : OlsrContext} (hs : Stops p ctx ctx')
    (hhas : ∀ d q, ctx.Owns d q → ctx.timerqueue.Has d q) :
  ∀ d q, ctx'.Owns d q → ctx'.timerqueue.Has d q
  := by
  intro d q hq
  apply hs.grows.has d q (hhas d q ((hs.owns d q).mp hq))

/-- Every link still has an expiry timer when the link written has one. -/
theorem WritesLink.expire {iface addr : InAddr} {link : LinkElem} {ctx ctx' : OlsrContext}
    (hwrites : WritesLink iface addr link ctx ctx') (hlink : ∃ p, link.expireTimer = some p)
    (hexpire : ∀ i a l, ctx.searchLink i a = some l → ∃ p, l.expireTimer = some p) :
  ∀ i a l, ctx'.searchLink i a = some l → ∃ p, l.expireTimer = some p
  := by
  intro i a l hl
  rw [hwrites.searchLink] at hl
  split_ifs at hl
  · rw [← Option.some.inj hl]
    apply hlink
  · apply hexpire i a l hl

/-- Handlers can still rely on entries and timers when MPR selectors are the same. -/
theorem Backed.of_selectors {ctx ctx' : OlsrContext} (h : ctx.Backed)
    (hwf : ctx'.timerqueue.Wf none) (hhas : ∀ c p, ctx'.Owns c p → ctx'.timerqueue.Has c p)
    (hexpire : ∀ i a link, ctx'.searchLink i a = some link → ∃ p, link.expireTimer = some p)
    (helems : ctx'.selectorElems = ctx.selectorElems)
    (htree : ctx'.selectorTree = ctx.selectorTree) (hnext : ctx.nextId ≤ ctx'.nextId) :
  ctx'.Backed
  := by
  refine ⟨hwf, hhas, hexpire, ?_, ?_⟩
  · rw [helems]
    intro id hid
    apply lt_of_lt_of_le (h.elems id hid) hnext
  · rw [helems, htree]
    apply h.tree

/-- The tree of MPR selectors still holds allocated elements when a selector has been entered. -/
theorem Backed.tree_insert {ctx ctx' : OlsrContext} (h : ctx.Backed) {orig : InAddr} {p : ℕ}
    (helems : ctx'.selectorElems = ctx.selectorElems.insert ctx.nextId ⟨orig, p⟩)
    (htree : ctx'.selectorTree = ctx.selectorTree.insert orig ctx.nextId) :
  ∀ a id, ctx'.selectorTree.search a = some id →
    ∃ selem, ctx'.selectorElems.search id = some selem ∧ selem.selectorAddr = a
  := by
  have hfresh : ctx.selectorElems.search ctx.nextId = none :=
    OrdMap.search_eq_none.mpr (fun hmem => lt_irrefl _ (h.elems _ hmem))
  -- An element that was in the tree has not been overwritten.
  have hold : ∀ b id, ctx.selectorTree.search b = some id →
      ∃ selem, ctx'.selectorElems.search id = some selem ∧ selem.selectorAddr = b := by
    intro b id hb
    obtain ⟨selem, hselem, haddr⟩ := h.tree b id hb
    refine ⟨selem, ?_, haddr⟩
    rw [helems, OrdMap.search_insert, if_neg]
    · apply hselem
    · apply ne_of_lt (h.elems id (OrdMap.mem_of_search hselem))
  intro a id hid
  rw [htree, OrdMap.search_insert] at hid
  split_ifs at hid with ha
  · cases horig : ctx.selectorTree.search orig with
    | some id' =>
        rw [horig, Option.getD_some, Option.some.injEq] at hid
        subst hid
        rw [ha]
        apply hold orig id' horig
    | none =>
        rw [horig, Option.getD_none, Option.some.injEq] at hid
        refine ⟨⟨orig, p⟩, ?_, ha.symm⟩
        rw [helems, OrdMap.search_insert, if_pos hid.symm, hfresh, Option.getD_none]
  · apply hold a id hid

/-- Handlers can still rely on entries and timers after a change. -/
theorem Backed.change {foreign : Prop} {ctx ctx' : OlsrContext} (h : ctx.Backed)
    (hchange : Change foreign ctx ctx') :
  ctx'.Backed
  := by
  cases hchange with
  | same hsame =>
      apply h.of_selectors
      · rw [hsame.timerqueue]
        apply h.wf
      · intro c p hp
        rw [hsame.timerqueue]
        apply h.has c p ((hsame.owns c p).mp hp)
      · intro i a link hlink
        rw [hsame.searchLink] at hlink
        apply h.expire i a link hlink
      · apply hsame.selectorElems
      · apply hsame.selectorTree
      · apply hsame.nextId.ge
  | start _ hs haside =>
      apply h.of_selectors hs.wf (hs.has h.has)
      · intro i a link hlink
        rw [haside.searchLink] at hlink
        apply h.expire i a link hlink
      · apply haside.selectorElems
      · apply haside.selectorTree
      · apply hs.nextId
  | newLink hnone _ hs hwrites =>
      apply h.of_selectors hs.wf (hs.has h.has) (hwrites.expire ⟨_, rfl⟩ h.expire)
        hwrites.selectorElems hwrites.selectorTree hs.nextId
  | setTimer hold hsets hs hwrites =>
      have hexpire := hsets.expire_some (h.expire _ _ _ hold)
      apply h.of_selectors hs.wf (hs.has h.has) (hwrites.expire hexpire h.expire)
        hwrites.selectorElems hwrites.selectorTree hs.nextId
  | stopSym _ hold _ _ hs hwrites =>
      have hexpire := h.expire _ _ _ hold
      apply h.of_selectors hs.wf (hs.has h.has) (hwrites.expire hexpire h.expire)
        hwrites.selectorElems hwrites.selectorTree hs.nextId.ge
  | selector _ hs hlink helems htree hnext =>
      refine ⟨hs.wf, hs.has h.has, ?_, ?_, h.tree_insert helems htree⟩
      · intro i a link hl
        rw [hlink] at hl
        apply h.expire i a link hl
      · intro id hid
        rw [helems, OrdMap.mem_insert] at hid
        rw [hnext]
        rcases hid with rfl | hid
        · apply Nat.lt_succ_self
        · apply Nat.lt_succ_of_lt (h.elems id hid)

theorem Backed.changes {foreign : Prop} {ctx ctx' : OlsrContext} (h : ctx.Backed)
    (hchanges : Changes foreign ctx ctx') :
  ctx'.Backed
  := by
  induction hchanges with
  | refl => apply h
  | tail _ hchange ih => apply ih.change hchange

/-- Writing to a link keeps links under their numbers. -/
theorem WritesLink.link_stays {i a : InAddr} {link : LinkElem} {ctx ctx' : OlsrContext}
    (h : WritesLink i a link ctx ctx')
    (hid : ∀ old, ctx.searchLink i a = some old → link.id = old.id) {x y : InAddr}
    {old : LinkElem} (hold : ctx.searchLink x y = some old) :
  ∃ link', ctx'.searchLink x y = some link' ∧ link'.id = old.id
  := by
  rw [h.searchLink]
  split_ifs with hkey
  · refine ⟨link, rfl, hid old ?_⟩
    rw [← hkey.1, ← hkey.2]
    apply hold
  · exact ⟨old, hold, rfl⟩

/-- No change removes a link. -/
theorem Change.link_stays {foreign : Prop} {ctx ctx' : OlsrContext} (h : Change foreign ctx ctx')
    {x y : InAddr} {old : LinkElem} (hold : ctx.searchLink x y = some old) :
  ∃ link', ctx'.searchLink x y = some link' ∧ link'.id = old.id
  := by
  cases h with
  | same hsame =>
      rw [hsame.searchLink]
      exact ⟨old, hold, rfl⟩
  | start _ _ haside =>
      rw [haside.searchLink]
      exact ⟨old, hold, rfl⟩
  | newLink hnone _ _ hwrites =>
      apply hwrites.link_stays _ hold
      intro link hlink
      rw [hnone] at hlink
      contradiction
  | setTimer hlink hsets _ hwrites =>
      apply hwrites.link_stays _ hold
      intro link hlink'
      rw [hlink, Option.some.injEq] at hlink'
      rw [hsets.id, hlink']
  | stopSym _ hlink _ _ _ hwrites =>
      apply hwrites.link_stays _ hold
      intro link hlink'
      rw [hlink, Option.some.injEq] at hlink'
      rw [← hlink']
  | selector _ _ hlink =>
      rw [hlink]
      exact ⟨old, hold, rfl⟩

theorem Changes.link_stays {foreign : Prop} {ctx ctx' : OlsrContext}
    (h : Changes foreign ctx ctx') {x y : InAddr} {old : LinkElem}
    (hold : ctx.searchLink x y = some old) :
  ∃ link', ctx'.searchLink x y = some link' ∧ link'.id = old.id
  := by
  induction h with
  | refl => exact ⟨old, hold, rfl⟩
  | tail _ hchange ih =>
      obtain ⟨link₁, hlink₁, hid₁⟩ := ih
      obtain ⟨link', hlink', hid'⟩ := hchange.link_stays hlink₁
      exact ⟨link', hlink', hid'.trans hid₁⟩


/-! ### Changes that touch no timer -/

/-- Queue of messages, counters, statistics, routing table and clock are no part of entries and
timers. -/
theorem SameEntries.of_eq {ctx : OlsrContext} {msgs : List OlsrMsg} {msgSeq ansn : BitVec 16}
    {info : List NeighborInfo} {stats : OrdMap InAddr ℕ} {table : OrdMap InAddr RoutingEntry}
    {clock : Timespec} {sent : List OlsrPacket} :
  SameEntries ctx { ctx with
    olsrTxMsgbuf := msgs, msgSeq := msgSeq, ansn := ansn, nodeInfo := info,
    nodeStatTree := stats, routingTable := table, clock := clock, sent := sent }
  where
  searchLink _ _ := rfl
  selectorElems := rfl
  selectorTree := rfl
  timerqueue := rfl
  owns c p := by cases c <;> rfl
  nextId := rfl

/-- A change of statuses, relays and the routing table keeps entries and timers. -/
theorem SameEntries.of_core {ctx ctx' : OlsrContext} {neighbors : OrdMap InAddr NeighborElem}
    {mprs : OrdMap InAddr Unit} {ansn : BitVec 16}
    (hcore : ctx'.core =
      { ctx.core with neighborTree := neighbors, mprTree := mprs, ansn := ansn })
    (hneigh2 : ∀ a x, ctx'.searchNeigh2 a x = ctx.searchNeigh2 a x) :
  SameEntries ctx ctx'
  := by
  have hlink : ∀ i a, ctx'.searchLink i a = ctx.searchLink i a := by
    intro i a
    have hifaces := congrArg OlsrContext.localIfaceTree hcore
    apply congrArg (fun t => (OrdMap.search t i).bind (fun ielem =>
      ielem.ifaceLinkTree.search a)) hifaces
  have helems : ctx'.selectorElems = ctx.selectorElems := by
    have helems := congrArg OlsrContext.selectorElems hcore
    apply helems
  refine ⟨⟨hlink, helems, ?_⟩, ?_, ?_, ?_⟩
  · have htree := congrArg OlsrContext.selectorTree hcore
    apply htree
  · have htq := congrArg OlsrContext.timerqueue hcore
    apply htq
  · have htopology := congrArg OlsrContext.topologyTree hcore
    have hdup := congrArg OlsrContext.dupTree hcore
    apply owns_congr hlink hneigh2 _ _ helems
    · intro d
      apply congrArg (fun t => (OrdMap.search t d).map (fun t => (t.id, t.expireTimer))) htopology
    · intro d
      apply congrArg (fun t => (OrdMap.search t d).map (fun t => (t.id, t.expireTimer))) hdup
  · have hnext := congrArg OlsrContext.nextId hcore
    apply hnext

/-- Two-hop neighbours are found alike after the status of a neighbour has been updated. -/
theorem updateNeighborStatus_searchNeigh2 {ctx ctx' : OlsrContext} {addr : InAddr}
    (h : ctx.updateNeighborStatus addr = some ctx') (hdup : NotDuplicated ctx.topologyTree)
    (a x : InAddr) :
  ctx'.searchNeigh2 a x = ctx.searchNeigh2 a x
  := by
  obtain ⟨neigh, hneigh, hcore, -⟩ := updateNeighborStatus_inv h hdup
  apply searchNeigh2_congr
  intro a
  have hneighbor := congrArg OlsrContext.neighborTree hcore
  have hsearch := congrArg (fun t => (OrdMap.search t a).map NeighborElem.neighbor2Tree) hneighbor
  apply Eq.trans hsearch
  rw [OrdMap.search_modify]
  split_ifs with ha
  · rw [ha, Option.map_map]
    rfl
  · rfl

theorem updateNeighborStatus_same {ctx ctx' : OlsrContext} {addr : InAddr}
    (h : ctx.updateNeighborStatus addr = some ctx') (hdup : NotDuplicated ctx.topologyTree) :
  SameEntries ctx ctx'
  := by
  obtain ⟨_, -, hcore, -⟩ := updateNeighborStatus_inv h hdup
  apply SameEntries.of_core hcore (updateNeighborStatus_searchNeigh2 h hdup)

/-- Two-hop neighbours are found alike after the choice of relays. -/
theorem MprSelected.searchNeigh2 {ctx ctx' : OlsrContext} (h : ctx.MprSelected ctx')
    (a x : InAddr) :
  ctx'.searchNeigh2 a x = ctx.searchNeigh2 a x
  := by
  apply searchNeigh2_congr
  intro a
  rw [h.neighbor, Option.map_map]
  congr 1
  funext n
  simp only [Function.comp_apply]
  split_ifs
  · rfl
  · rfl
  · rfl

theorem MprSelected.same {ctx ctx' : OlsrContext} (h : ctx.MprSelected ctx') :
  SameEntries ctx ctx'
  := SameEntries.of_core h.core h.searchNeigh2

/-- A neighbour that has been made has no two-hop neighbours. -/
theorem searchNeigh2_findNeighbor (ctx : OlsrContext) (src : InAddr) (willingness : BitVec 8)
    (a x : InAddr) :
  (ctx.findNeighbor src willingness).searchNeigh2 a x = ctx.searchNeigh2 a x
  := by
  simp only [searchNeigh2, findNeighbor, OrdMap.search_insert, Option.bind_eq_bind]
  split_ifs with ha
  · rw [ha]
    cases ctx.neighborTree.search src <;> rfl
  · rfl

theorem findNeighbor_same (ctx : OlsrContext) (src : InAddr) (willingness : BitVec 8) :
  SameEntries ctx (ctx.findNeighbor src willingness)
  := by
  have hlink := searchLink_findNeighbor ctx src willingness
  refine ⟨⟨hlink, rfl, rfl⟩, rfl, ?_, rfl⟩
  apply owns_congr hlink (searchNeigh2_findNeighbor ctx src willingness) (fun _ => rfl)
    (fun _ => rfl) rfl

theorem calcRoutingTable_same (ctx : OlsrContext) (hdup : NotDuplicated ctx.topologyTree) :
  SameEntries ctx ctx.calcRoutingTable
  := by
  obtain ⟨info, tree, heq⟩ := calcRoutingTable_eq ctx hdup
  rw [heq]
  apply SameEntries.of_eq

theorem pushMsg_same (ctx : OlsrContext) (msg : OlsrMsg) :
  SameEntries ctx (ctx.pushMsg msg)
  := by
  obtain ⟨msgs, hpush⟩ := pushMsg_eq ctx msg
  rw [hpush]
  apply SameEntries.of_eq

theorem SameEntries.refl (ctx : OlsrContext) :
  SameEntries ctx ctx
  := ⟨⟨fun _ _ => rfl, rfl, rfl⟩, rfl, fun _ _ => Iff.rfl, rfl⟩

theorem SameEntries.trans {ctx ctx' ctx'' : OlsrContext} (h : SameEntries ctx ctx')
    (h' : SameEntries ctx' ctx'') :
  SameEntries ctx ctx''
  where
  searchLink i a := (h'.searchLink i a).trans (h.searchLink i a)
  selectorElems := h'.selectorElems.trans h.selectorElems
  selectorTree := h'.selectorTree.trans h.selectorTree
  timerqueue := h'.timerqueue.trans h.timerqueue
  owns c p := (h'.owns c p).trans (h.owns c p)
  nextId := h'.nextId.trans h.nextId

/-- Marking a message as retransmitted, and queueing it, keeps entries and timers. -/
theorem retransmit_same (ctx : OlsrContext) (msg : OlsrMsg) (src : InAddr) :
  SameEntries ctx (ctx.retransmit msg src)
  := by
  rw [retransmit]
  split_ifs
  · let ctx₁ : OlsrContext := { ctx with
      dupTree := ctx.dupTree.modify msg.dkey (fun delem =>
        { delem with retransmitted := true }) }
    have h₁ : SameEntries ctx ctx₁ := by
      refine ⟨⟨fun _ _ => rfl, rfl, rfl⟩, rfl, ?_, rfl⟩
      refine owns_congr (fun _ _ => rfl) (fun _ _ => rfl) (fun _ => rfl) ?_ rfl
      intro d
      simp only [ctx₁, OrdMap.search_modify]
      split_ifs with hd
      · rw [hd, Option.map_map]
        rfl
      · rfl
    dsimp only
    split_ifs
    · apply h₁
    · apply h₁.trans (pushMsg_same _ _)
  · apply SameEntries.refl

/-- A periodic callback keeps entries and timers. -/
theorem runPeriodic_same (ctx : OlsrContext) {c : Callback} (hc : c.isExpiry = false) :
  ∃ ctx', runCallback c ctx = some ctx' ∧ SameEntries ctx ctx'
  := by
  cases c with
  | olsrHelloTimerCb => exact ⟨_, rfl, pushMsg_same _ _⟩
  | olsrTcTimerCb => exact ⟨_, rfl, SameEntries.of_eq.trans (pushMsg_same _ _)⟩
  | olsrSendFromQueueCb =>
      refine ⟨_, rfl, ?_⟩
      rw [olsrSendFromQueueCb]
      split_ifs
      · apply SameEntries.refl
      · apply SameEntries.of_eq
  | dumpDebuginfoCb => exact ⟨ctx, rfl, SameEntries.refl ctx⟩
  | _ => contradiction

end OlsrContext
