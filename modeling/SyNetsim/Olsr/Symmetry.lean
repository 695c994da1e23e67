import SyNetsim.Olsr.Expiry
import SyNetsim.Olsr.Seqno

/-!
# No false symmetric link

A network of nodes that exchange messages (`HelloNet`). Everything a node has sent can be
delivered to any node, at any later time and any number of times; what is lost is never
delivered. The network also records the HELLOs that were built, with the relays of the builder at
that time, and the HELLOs that were processed.

For a single node, `Learns` says which links, symmetric links and MPR selectors a step may bring:
only those of the sender of a HELLO, and a symmetric link or a selector only when the HELLO lists
this node. As a node lists only nodes it has a link to, a symmetric link has been confirmed by
both ends (`HelloNet.no_false_symmetric_link`).
-/

namespace OlsrContext

/-! ### What a step can learn -/

/-- There is a link to `addr`. -/
def HasLink (ctx : OlsrContext) (addr : InAddr) : Prop :=
  ∃ iface link, ctx.searchLink iface addr = some link

/-- `addr` is in the tree of MPR selectors, or an element bears it that may be entered again. -/
def BearsSelector (ctx : OlsrContext) (addr : InAddr) : Prop :=
  addr ∈ ctx.selectorTree ∨
    ∃ id elem, ctx.selectorElems.search id = some elem ∧ elem.selectorAddr = addr

/-- From `ctx` to `ctx'` links may have come to the addresses in `links`, symmetric links to those
in `syms` and selectors to those in `selectors`, but to no others. -/
structure Learns (links syms selectors : Set InAddr) (ctx ctx' : OlsrContext) : Prop where
  ownIp : ctx'.ownIp = ctx.ownIp
  link : ∀ a, ctx'.HasLink a → ctx.HasLink a ∨ a ∈ links
  sym : ∀ a, ctx'.HasSymLink a → ctx.HasSymLink a ∨ a ∈ syms
  selector : ∀ a, ctx'.BearsSelector a → ctx.BearsSelector a ∨ a ∈ selectors

namespace Learns

variable {links syms selectors : Set InAddr} {ctx ctx' ctx'' : OlsrContext}

theorem trans (h : Learns links syms selectors ctx ctx')
    (h' : Learns links syms selectors ctx' ctx'') :
  Learns links syms selectors ctx ctx''
  where
  ownIp := h'.ownIp.trans h.ownIp
  link a ha := by
    rcases h'.link a ha with ha | ha
    · apply h.link a ha
    · right
      apply ha
  sym a ha := by
    rcases h'.sym a ha with ha | ha
    · apply h.sym a ha
    · right
      apply ha
  selector a ha := by
    rcases h'.selector a ha with ha | ha
    · apply h.selector a ha
    · right
      apply ha

/-- Nothing is learned when links and selectors do not change. -/
theorem of_eq (hown : ctx'.ownIp = ctx.ownIp)
    (hlink : ∀ i a, ctx'.searchLink i a = ctx.searchLink i a)
    (hselectors : ctx'.selectorTree = ctx.selectorTree)
    (helems : ctx'.selectorElems = ctx.selectorElems) :
  Learns links syms selectors ctx ctx'
  where
  ownIp := hown
  link a ha := by
    simp only [HasLink, hlink] at ha
    left
    apply ha
  sym a ha := by
    simp only [HasSymLink, hlink] at ha
    left
    apply ha
  selector a ha := by
    rw [BearsSelector, hselectors, helems] at ha
    left
    apply ha

theorem refl (ctx : OlsrContext) :
  Learns links syms selectors ctx ctx
  := of_eq rfl (fun _ _ => rfl) rfl rfl

/-- Nothing is learned from a change of timers, neighbours, relays and topology. -/
theorem of_core {tq : TimerqueueContext Callback} {nextId : ℕ}
    {neighbors : OrdMap InAddr NeighborElem} {mprs : OrdMap InAddr Unit} {ansn : BitVec 16}
    {topo : OrdMap InAddr TopologyInfoElem}
    (h : ctx'.core = { ctx.core with
      timerqueue := tq, nextId := nextId, neighborTree := neighbors, mprTree := mprs,
      ansn := ansn, topologyTree := topo }) :
  Learns links syms selectors ctx ctx'
  := by
  apply of_eq
  · have hown := congrArg OlsrContext.ownIp h
    apply hown
  · intro i a
    have hifaces := congrArg OlsrContext.localIfaceTree h
    apply congrArg (fun t => (OrdMap.search t i).bind (fun ielem =>
      ielem.ifaceLinkTree.search a)) hifaces
  · have hselectors := congrArg OlsrContext.selectorTree h
    apply hselectors
  · have helems := congrArg OlsrContext.selectorElems h
    apply helems

/-- Writing to the link to `src` makes it symmetric only if it was, or if `src` is in `syms`. -/
theorem of_setLink {tq : TimerqueueContext Callback} {src : InAddr} {link : LinkElem}
    (hsym : link.status = .symLink → ctx.HasSymLink src ∨ src ∈ syms) :
  Learns links syms selectors ctx
    (OlsrContext.setLink { ctx with timerqueue := tq } ctx.ownIp src link)
  where
  ownIp := rfl
  link := by
    rintro a ⟨i, l, hl⟩
    rw [searchLink_setLink] at hl
    left
    split_ifs at hl with hi
    · obtain ⟨l₀, hl₀, -⟩ := Option.map_eq_some_iff.mp hl
      rw [hi.2]
      exact ⟨_, l₀, hl₀⟩
    · exact ⟨i, l, hl⟩
  sym := by
    rintro a ⟨i, l, hl, hstatus⟩
    rw [searchLink_setLink] at hl
    split_ifs at hl with hi
    · obtain ⟨-, -, rfl⟩ := Option.map_eq_some_iff.mp hl
      rw [hi.2]
      apply hsym hstatus
    · left
      exact ⟨i, l, hl, hstatus⟩
  selector a ha := Or.inl ha

end Learns

/-! ### The parts of `process_olsr_hello` -/

variable {links syms selectors : Set InAddr} {ctx ctx' : OlsrContext} {src : InAddr}

theorem findNeighbor_learns (ctx : OlsrContext) (src : InAddr) (willingness : BitVec 8) :
  Learns links syms selectors ctx (ctx.findNeighbor src willingness)
  := Learns.of_eq rfl (searchLink_findNeighbor ctx src willingness) rfl rfl

theorem updateNeighborStatus_learns (hdup : NotDuplicated ctx.topologyTree)
    (h : ctx.updateNeighborStatus src = some ctx') :
  Learns links syms selectors ctx ctx'
  := by
  obtain ⟨neigh, -, hcore, -⟩ := updateNeighborStatus_inv h hdup
  apply Learns.of_core hcore

/-- A link to the sender of a HELLO may be made, and is not symmetric when it is new. -/
theorem touchLink_learns {vtime : ℕ} (hiface : ctx.ownIp ∈ ctx.localIfaceTree)
    (hsrc : src ∈ links) (h : ctx.touchLink src vtime = some ctx') :
  Learns links syms selectors ctx ctx'
  := by
  simp only [touchLink, findLink, Option.bind_eq_bind, Option.bind_eq_some_iff,
    Option.pure_def] at h
  obtain ⟨⟨link, ctx₁⟩, hfind, ⟨link', ctx₂⟩, hasym, h⟩ := h
  simp only [linkElemAsymTimerSet, Option.bind_eq_bind, Option.bind_eq_some_iff, Option.pure_def,
    Option.some.injEq, Prod.mk.injEq] at hasym
  obtain ⟨⟨timer, tq⟩, -, rfl, rfl⟩ := hasym
  obtain rfl := Option.some.inj h
  cases hlink : ctx.searchLink ctx.ownIp src with
  | none =>
      simp only [hlink, Option.bind_eq_some_iff, Option.some.injEq, Prod.mk.injEq,
        makeLinkElem] at hfind
      obtain ⟨⟨link, ctx₂⟩, hmake, rfl, rfl⟩ := hfind
      obtain ⟨timer', tq', rfl, rfl⟩ := linkElemExpireTimerSet_inv hmake
      let ctx₃ : OlsrContext := { ctx with nextId := ctx.nextId + 1, timerqueue := tq' }
      let link₀ : LinkElem := ⟨ctx.nextId, ctx.ownIp, .lostLink, none, none, timer'⟩
      have hsearch : ∀ i a, (ctx₃.insertLink ctx.ownIp src link₀).searchLink i a =
          if i = ctx.ownIp ∧ a = src then some link₀ else ctx.searchLink i a :=
        searchLink_insertLink ctx₃ link₀ hiface hlink
      have hinsert : Learns links syms selectors ctx (ctx₃.insertLink ctx.ownIp src link₀) := by
        refine ⟨rfl, ?_, ?_, fun a ha => Or.inl ha⟩
        · rintro a ⟨i, l, hl⟩
          rw [hsearch] at hl
          split_ifs at hl with hi
          · right
            rw [hi.2]
            apply hsrc
          · left
            exact ⟨i, l, hl⟩
        · rintro a ⟨i, l, hl, hstatus⟩
          rw [hsearch] at hl
          split_ifs at hl with hi
          · obtain rfl := Option.some.inj hl
            contradiction
          · left
            exact ⟨i, l, hl, hstatus⟩
      apply hinsert.trans
      apply Learns.of_setLink
      intro hstatus
      simp at hstatus
  | some link₀ =>
      rw [hlink] at hfind
      obtain ⟨timer', tq', rfl, rfl⟩ := linkElemExpireTimerSet_inv hfind
      apply Learns.of_setLink
      intro hstatus
      left
      refine ⟨ctx.ownIp, link₀, hlink, ?_⟩
      simp only at hstatus
      split_ifs at hstatus with hsym
      · apply hstatus

theorem setSymLink_learns {vtime : ℕ} (hsrc : src ∈ syms)
    (h : ctx.setSymLink src vtime = some ctx') :
  Learns links syms selectors ctx ctx'
  := by
  simp only [setSymLink, Option.bind_eq_bind, Option.bind_eq_some_iff, Option.pure_def] at h
  obtain ⟨link, hlink, ⟨link', ctx₁⟩, hsym, h⟩ := h
  obtain ⟨timer, tq, rfl, rfl⟩ := linkElemSymTimerSet_inv hsym
  obtain rfl := Option.some.inj h
  apply Learns.of_setLink
  intro _
  right
  apply hsrc

theorem setLostLink_learns (hdup : NotDuplicated ctx.topologyTree)
    (h : ctx.setLostLink src = some ctx') :
  Learns links syms selectors ctx ctx'
  := by
  simp only [setLostLink, symLinkTimerExpire, Option.bind_eq_bind, Option.bind_eq_some_iff] at h
  obtain ⟨link, hlink, symTimer, -, -, -, link', hlink', -, -, asymElem, -, h⟩ := h
  refine Learns.trans (Learns.of_setLink ?_) (updateNeighborStatus_learns hdup h)
  intro hstatus
  simp only at hstatus
  split_ifs at hstatus

/-- The element for an MPR selector is known, or bears the originator of the HELLO. -/
theorem findMprSelector_learns {orig : InAddr} {id : ℕ} {ctx₁ : OlsrContext}
    (horig : orig ∈ selectors) (h : ctx.findMprSelector src orig = some (id, ctx₁)) :
  ctx₁.ownIp = ctx.ownIp ∧ (∀ i a, ctx₁.searchLink i a = ctx.searchLink i a) ∧
    ctx₁.selectorTree = ctx.selectorTree ∧
    ∀ id elem, ctx₁.selectorElems.search id = some elem →
      ctx.BearsSelector elem.selectorAddr ∨ elem.selectorAddr ∈ selectors
  := by
  rw [findMprSelector] at h
  cases hsearch : ctx.selectorTree.search src with
  | some id' =>
      simp only [hsearch, Option.some.injEq, Prod.mk.injEq] at h
      obtain ⟨-, rfl⟩ := h
      refine ⟨rfl, fun _ _ => rfl, rfl, ?_⟩
      intro id elem helem
      left
      right
      exact ⟨id, elem, helem, rfl⟩
  | none =>
      simp only [hsearch, Option.bind_eq_bind, Option.bind_eq_some_iff, Option.pure_def,
        Option.some.injEq, Prod.mk.injEq] at h
      obtain ⟨⟨timer, tq⟩, -, -, rfl⟩ := h
      refine ⟨rfl, fun _ _ => rfl, rfl, ?_⟩
      intro id elem helem
      rw [OrdMap.search_insert] at helem
      split_ifs at helem with hid
      · obtain rfl := Option.some.inj helem
        cases hold : ctx.selectorElems.search ctx.nextId with
        | none =>
            right
            apply horig
        | some elem =>
            left
            right
            exact ⟨ctx.nextId, elem, hold, rfl⟩
      · left
        right
        exact ⟨id, elem, helem, rfl⟩

/-- The originator of a HELLO may become an MPR selector. -/
theorem populateMprSelector_learns {orig : InAddr} {vtime : ℕ} (horig : orig ∈ selectors)
    (h : ctx.populateMprSelector src orig vtime = some ctx') :
  Learns links syms selectors ctx ctx'
  := by
  simp only [populateMprSelector, Option.bind_eq_bind, Option.bind_eq_some_iff,
    Option.pure_def] at h
  obtain ⟨⟨id, ctx₁⟩, hfind, mprSelector, helem, tq, -, h⟩ := h
  obtain rfl := Option.some.inj h
  obtain ⟨hown, hlink, htree, hknown⟩ := findMprSelector_learns horig hfind
  refine ⟨hown, ?_, ?_, ?_⟩
  · rintro a ⟨i, l, hl⟩
    left
    exact ⟨i, l, (hlink i a).symm.trans hl⟩
  · rintro a ⟨i, l, hl, hstatus⟩
    left
    exact ⟨i, l, (hlink i a).symm.trans hl, hstatus⟩
  · rintro a (ha | ⟨id', elem, helem', rfl⟩)
    · rcases OrdMap.mem_insert.mp ha with rfl | ha
      · apply hknown id mprSelector helem
      · left
        left
        rw [← htree]
        apply ha
    · apply hknown id' elem helem'

/-- `populate_linkset` brings a symmetric link to the sender and an MPR selector only if the
HELLO lists this node. -/
theorem populateLinkset_learns {orig : InAddr} {helloInfo : List HelloInfo} {vtime : ℕ}
    (hdup : NotDuplicated ctx.topologyTree)
    (hsym : linkcodeToMe ctx.ownIp helloInfo ≠ statusUnavailable → src ∈ syms)
    (hsel : linkcodeToMe ctx.ownIp helloInfo ≠ statusUnavailable →
      extractStatus (linkcodeToMe ctx.ownIp helloInfo) = NeighborStatus.mprNeigh.code →
      orig ∈ selectors)
    (h : ctx.populateLinkset src orig helloInfo vtime = some ctx') :
  Learns links syms selectors ctx ctx'
  := by
  rw [populateLinkset] at h
  by_cases hcode : linkcodeToMe ctx.ownIp helloInfo = statusUnavailable
  · rw [if_pos hcode] at h
    obtain rfl := Option.some.inj h
    apply Learns.refl
  · rw [if_neg hcode] at h
    obtain ⟨ctx₁, hlinkstat, hneighstat⟩ := Option.bind_eq_some_iff.mp h
    have hlearns : Learns links syms selectors ctx ctx₁ := by
      rw [populateLinkStatus] at hlinkstat
      split_ifs at hlinkstat
      · apply setSymLink_learns (hsym hcode) hlinkstat
      · apply setLostLink_learns hdup hlinkstat
      · obtain rfl := Option.some.inj hlinkstat
        apply Learns.refl
    split_ifs at hneighstat with hmpr
    · apply hlearns.trans (populateMprSelector_learns (hsel hcode hmpr) hneighstat)
    · obtain rfl := Option.some.inj hneighstat
      apply hlearns

theorem neigh2Change_learns {tree : OrdMap InAddr Neighbor2Elem}
    (h : Neigh2Change ctx ctx' src tree) :
  Learns links syms selectors ctx ctx'
  := by
  obtain ⟨tq, nextId, rfl⟩ := h.eq
  exact Learns.of_eq rfl (fun _ _ => rfl) rfl rfl

theorem populateNeigh2set_learns {helloInfo : List HelloInfo} {vtime : ℕ}
    (h : ctx.populateNeigh2set src helloInfo vtime = some ctx') :
  Learns links syms selectors ctx ctx'
  := by
  rw [populateNeigh2set] at h
  generalize helloInfo.flatMap HelloInfo.neighAddr = l at h
  induction l generalizing ctx with
  | nil =>
      obtain rfl := Option.some.inj h
      apply Learns.refl
  | cons n2addr l ih =>
      rw [List.foldlM_cons] at h
      obtain ⟨ctx₁, hone, hrest⟩ := Option.bind_eq_some_iff.mp h
      split_ifs at hone
      · obtain rfl := Option.some.inj hone
        apply ih hrest
      · obtain ⟨neigh, tree, -, hchange, -⟩ := updateNeigh2Tuple_inv hone
        apply (neigh2Change_learns hchange).trans (ih hrest)

/-- A HELLO brings a link to its sender, and a symmetric link to it or an MPR selector only if it
lists this node. -/
theorem processOlsrHello_learns {orig : InAddr} {hello : HelloMsg} {vtime : ℕ} (h : ctx.Sound)
    (hsrc : src ∈ links)
    (hsym : linkcodeToMe ctx.ownIp hello.helloInfo ≠ statusUnavailable → src ∈ syms)
    (hsel : linkcodeToMe ctx.ownIp hello.helloInfo ≠ statusUnavailable →
      extractStatus (linkcodeToMe ctx.ownIp hello.helloInfo) = NeighborStatus.mprNeigh.code →
      orig ∈ selectors)
    (hstep : ctx.processOlsrHello src orig hello vtime = some ctx') :
  Learns links syms selectors ctx ctx'
  := by
  simp only [processOlsrHello, Option.bind_eq_bind, Option.bind_eq_some_iff] at hstep
  obtain ⟨ctx₁, htouch, ctx₂, hlinkset, ctx₃, hupdate, neigh, -, hstep⟩ := hstep
  have hlearns₀ : Learns links syms selectors ctx (ctx.findNeighbor src hello.willingness) :=
    findNeighbor_learns ctx src hello.willingness
  have hlearns₁ : Learns links syms selectors _ ctx₁ :=
    touchLink_learns (OrdMap.mem_insert.mpr (Or.inl rfl)) hsrc htouch
  have hown₁ : ctx₁.ownIp = ctx.ownIp := hlearns₁.ownIp
  -- The topology is not touched, so that the status of a neighbour can be updated throughout.
  obtain ⟨h₁, hlocal₁⟩ := (h.consistent.findNeighbor src hello.willingness).touchLink
    (OrdMap.mem_insert.mpr (Or.inl rfl)) (OrdMap.mem_insert.mpr (Or.inl rfl)) htouch
  have hdup₁ : NotDuplicated ctx₁.topologyTree := by
    rw [hlocal₁.topologyTree]
    apply h.notDuplicated
  obtain ⟨h₂, hlocal₂⟩ := h₁.populateLinkset hdup₁ hlinkset
  have hdup₂ : NotDuplicated ctx₂.topologyTree := by
    rw [hlocal₂.topologyTree]
    apply hdup₁
  have hlearns₂ : Learns links syms selectors ctx₁ ctx₂ := by
    apply populateLinkset_learns hdup₁ _ _ hlinkset
    · rw [hown₁]
      apply hsym
    · rw [hown₁]
      apply hsel
  have hlearns₃ : Learns links syms selectors ctx₂ ctx₃ := updateNeighborStatus_learns hdup₂ hupdate
  obtain ⟨-, -, -, hlocal₃⟩ := updateNeighborStatus_inv hupdate hdup₂
  have hlearns : Learns links syms selectors ctx ctx₃ :=
    hlearns₀.trans (hlearns₁.trans (hlearns₂.trans hlearns₃))
  obtain ⟨ctx₄, hlearns₄, hdup₄, hmpr⟩ : ∃ ctx₄, Learns links syms selectors ctx₃ ctx₄ ∧
      NotDuplicated ctx₄.topologyTree ∧ ctx₄.populateMprSet = some ctx' := by
    have hdup₃ : NotDuplicated ctx₃.topologyTree := by
      rw [hlocal₃.topologyTree]
      apply hdup₂
    split_ifs at hstep
    · obtain ⟨ctx₄, hneigh2, hmpr⟩ := Option.bind_eq_some_iff.mp hstep
      refine ⟨ctx₄, populateNeigh2set_learns hneigh2, ?_, hmpr⟩
      rw [((h₂.updateNeighborStatus hupdate hdup₂).populateNeigh2set hneigh2).2.topologyTree]
      apply hdup₃
    · exact ⟨ctx₃, Learns.refl ctx₃, hdup₃, hstep⟩
  obtain ⟨ctx'', hmpr', hselected⟩ := populateMprSet_spec ctx₄ hdup₄
  obtain rfl := Option.some.inj (hmpr.symm.trans hmpr')
  apply hlearns.trans (hlearns₄.trans (Learns.of_core hselected.core))

/-! ### The other handlers -/

theorem linkTimerExpire_learns {arg : Ptr (InAddr × InAddr)} (h : ctx.Sound)
    (hstep : ctx.linkTimerExpire arg = some ctx') :
  Learns links syms selectors ctx ctx'
  := by
  simp only [linkTimerExpire, updateNeighborStateByLinkChange, Option.bind_eq_bind,
    Option.bind_eq_some_iff] at hstep
  obtain ⟨link, -, tq₁, -, tq₂, -, tq₃, -, -, -, hupdate⟩ := hstep
  have hlearns : Learns links syms selectors _ ctx' :=
    updateNeighborStatus_learns (by apply h.notDuplicated) hupdate
  refine Learns.trans ?_ hlearns
  refine ⟨rfl, ?_, ?_, fun a ha => Or.inl ha⟩
  · rintro a ⟨i, l, hl⟩
    rw [searchLink_eraseLink] at hl
    split_ifs at hl
    left
    exact ⟨i, l, hl⟩
  · rintro a ⟨i, l, hl, hstatus⟩
    rw [searchLink_eraseLink] at hl
    split_ifs at hl
    left
    exact ⟨i, l, hl, hstatus⟩

/-- The expiry of an MPR selector only removes. -/
theorem mprSelectorExpire_learns {arg : ℕ} (h : ctx.mprSelectorExpire arg = some ctx') :
  Learns links syms selectors ctx ctx'
  := by
  simp only [mprSelectorExpire, Option.bind_eq_bind, Option.bind_eq_some_iff, Option.pure_def,
    Option.some.injEq] at h
  obtain ⟨expElem, -, tq, -, rfl⟩ := h
  refine ⟨rfl, fun a ha => Or.inl ha, fun a ha => Or.inl ha, ?_⟩
  rintro a (ha | ⟨id, elem, helem, rfl⟩)
  · left
    left
    apply (OrdMap.mem_erase.mp ha).2
  · left
    right
    rw [OrdMap.search_erase] at helem
    split_ifs at helem
    exact ⟨id, elem, helem, rfl⟩

theorem pushMsg_learns (ctx : OlsrContext) (msg : OlsrMsg) :
  Learns links syms selectors ctx (ctx.pushMsg msg)
  := by
  obtain ⟨msgs, hpush⟩ := pushMsg_eq ctx msg
  rw [hpush]
  exact Learns.of_eq rfl (fun _ _ => rfl) rfl rfl

theorem retransmit_learns (ctx : OlsrContext) (msg : OlsrMsg) (src : InAddr) :
  Learns links syms selectors ctx (ctx.retransmit msg src)
  := by
  rw [retransmit]
  split_ifs
  · dsimp only
    split_ifs
    · exact Learns.of_eq rfl (fun _ _ => rfl) rfl rfl
    · refine Learns.trans ?_ (pushMsg_learns _ _)
      exact Learns.of_eq rfl (fun _ _ => rfl) rfl rfl
  · apply Learns.refl

theorem olsrMsgForwarding_learns {msg : OlsrMsg} (h : ctx.olsrMsgForwarding msg src = some ctx') :
  Learns links syms selectors ctx ctx'
  := by
  rw [olsrMsgForwarding] at h
  cases hsearch : ctx.dupTree.search msg.dkey with
  | some delem =>
      simp only [hsearch] at h
      split_ifs at h
      · obtain rfl := Option.some.inj h
        apply Learns.refl
      · obtain rfl := Option.some.inj h
        apply retransmit_learns
  | none =>
      simp only [hsearch, createDupEntry, Option.bind_eq_bind, Option.bind_eq_some_iff,
        Option.pure_def, Option.some.injEq] at h
      obtain ⟨ctx₁, ⟨⟨timer, tq⟩, -, rfl⟩, rfl⟩ := h
      refine Learns.trans ?_ (retransmit_learns _ _ _)
      exact Learns.of_eq rfl (fun _ _ => rfl) rfl rfl

/-- A callback brings no link and no selector. -/
theorem runCallback_learns {c : Callback} (h : ctx.Sound) (hrun : runCallback c ctx = some ctx') :
  Learns links syms selectors ctx ctx'
  := by
  cases c with
  | linkTimerExpire arg => apply linkTimerExpire_learns h hrun
  | neigh2ElemExpire arg =>
      obtain ⟨neigh, -, -, hchange⟩ := neigh2ElemExpire_inv h.consistent hrun
      apply neigh2Change_learns hchange
  | topologyInfoTimerExpireCb arg =>
      obtain ⟨topo, ⟨tq, nextId, hcore⟩, -⟩ := topologyInfoTimerExpireCb_inv hrun h.notDuplicated
      apply Learns.of_core hcore
  | expireDupEntryCb arg =>
      simp only [runCallback, expireDupEntryCb, Option.bind_eq_bind, Option.bind_eq_some_iff,
        Option.pure_def, Option.some.injEq] at hrun
      obtain ⟨delem, -, tq, -, rfl⟩ := hrun
      exact Learns.of_eq rfl (fun _ _ => rfl) rfl rfl
  | mprSelectorExpire arg => apply mprSelectorExpire_learns hrun
  | olsrHelloTimerCb =>
      obtain rfl := Option.some.inj hrun
      apply pushMsg_learns
  | olsrTcTimerCb =>
      obtain rfl := Option.some.inj hrun
      refine Learns.trans ?_ (pushMsg_learns _ _)
      exact Learns.of_eq rfl (fun _ _ => rfl) rfl rfl
  | olsrSendFromQueueCb =>
      obtain rfl := Option.some.inj hrun
      rw [olsrSendFromQueueCb]
      split_ifs
      · apply Learns.refl
      · exact Learns.of_eq rfl (fun _ _ => rfl) rfl rfl
  | dumpDebuginfoCb =>
      obtain rfl := Option.some.inj hrun
      apply Learns.refl

/-- A round of the timer queue brings no link and no selector. -/
theorem work_learns {now currtime : Timespec} {rand : ℕ} (h : ctx.Sound)
    (hstep : nodeStep ctx (.work now currtime rand) = some ctx') :
  Learns links syms selectors ctx ctx'
  := by
  rcases client.workRound_inv hstep with ⟨q, rfl⟩ | ⟨c, q, ctx₂, q', -, hrun, rfl⟩
  · exact Learns.of_eq rfl (fun _ _ => rfl) rfl rfl
  · have hsound : (client.setTq { ctx with clock := now } q).Sound := h.quiet Quiet.of_eq
    have hbefore : Learns links syms selectors ctx (client.setTq { ctx with clock := now } q) :=
      Learns.of_eq rfl (fun _ _ => rfl) rfl rfl
    have hafter : Learns links syms selectors ctx₂ (client.setTq ctx₂ q') :=
      Learns.of_eq rfl (fun _ _ => rfl) rfl rfl
    apply hbefore.trans ((runCallback_learns hsound hrun).trans hafter)

/-- The handler is `process_olsr_hello`. -/
def Handler.isHello : Handler → Bool
  | hello _ _ _ _ => true
  | _ => false

/-- The node gives the message to `process_olsr_hello`. -/
def processesHello (ctx : OlsrContext) (src : InAddr) (msg : OlsrMsg) : Bool :=
  (ctx.msgHandler src msg).any Handler.isHello

theorem processesHello_iff {msg : OlsrMsg} :
  ctx.processesHello src msg = true ↔
    msg.originator ≠ ctx.ownIp ∧ ctx.isAlreadyProcessed msg = false ∧
      ∃ hello, msg.payload = .hello hello
  := by
  rw [processesHello, msgHandler]
  split_ifs with hskip
  · simp only [Option.any_none, Bool.false_eq_true, false_iff]
    rintro ⟨hown, hdup, -⟩
    rcases hskip with hskip | hskip
    · apply hown hskip
    · rw [hdup] at hskip
      contradiction
  · rw [not_or, Bool.not_eq_true] at hskip
    cases hpayload : msg.payload with
    | hello hello => simp [hskip, Handler.isHello]
    | tc tc => simp [Handler.isHello]
    | other msgtype length => simp

/-- A received message brings a link to its sender only if it is a HELLO that is processed, and
a symmetric link or an MPR selector only if that HELLO lists this node. -/
theorem recv_learns {now : Timespec} {msg : OlsrMsg} (h : ctx.Sound)
    (hsrc : ctx.processesHello src msg = true → src ∈ links)
    (hsym : ctx.processesHello src msg = true → ∀ hello, msg.payload = .hello hello →
      linkcodeToMe ctx.ownIp hello.helloInfo ≠ statusUnavailable → src ∈ syms)
    (hsel : ctx.processesHello src msg = true → ∀ hello, msg.payload = .hello hello →
      linkcodeToMe ctx.ownIp hello.helloInfo ≠ statusUnavailable →
      extractStatus (linkcodeToMe ctx.ownIp hello.helloInfo) = NeighborStatus.mprNeigh.code →
      msg.originator ∈ selectors)
    (hstep : nodeStep ctx (.recv now src msg) = some ctx') :
  Learns links syms selectors ctx ctx'
  := by
  have hbefore : Learns links syms selectors ctx { ctx with clock := now } :=
    Learns.of_eq rfl (fun _ _ => rfl) rfl rfl
  apply hbefore.trans
  have hclock : OlsrContext.Sound { ctx with clock := now } := h.quiet Quiet.of_eq
  simp only [nodeStep, handleOlsrMsg] at hstep
  by_cases hown : msg.originator = ctx.ownIp
  · rw [if_pos hown] at hstep
    obtain rfl := Option.some.inj hstep
    apply Learns.refl
  · rw [if_neg hown] at hstep
    obtain ⟨ctx₁, hprocess, hforward⟩ := Option.bind_eq_some_iff.mp hstep
    have hafter : Learns links syms selectors ctx₁ ctx' := by
      split_ifs at hforward
      · apply olsrMsgForwarding_learns hforward
      · obtain rfl := Option.some.inj hforward
        apply Learns.refl
    refine Learns.trans ?_ hafter
    rw [processOlsrMsg] at hprocess
    split_ifs at hprocess with hdup
    · obtain rfl := Option.some.inj hprocess
      apply Learns.refl
    · have hfresh : ctx.isAlreadyProcessed msg = false := Bool.not_eq_true _ ▸ hdup
      cases hpayload : msg.payload with
      | hello hello =>
          have hprocesses : ctx.processesHello src msg = true :=
            processesHello_iff.mpr ⟨hown, hfresh, hello, hpayload⟩
          simp only [hpayload] at hprocess
          apply processOlsrHello_learns hclock (hsrc hprocesses) _ _ hprocess
          · apply hsym hprocesses hello hpayload
          · apply hsel hprocesses hello hpayload
      | tc tc =>
          simp only [hpayload] at hprocess
          obtain ⟨topo, ⟨tq, nextId, hcore⟩, -⟩ := processOlsrTc_inv hprocess hclock.notDuplicated
          apply Learns.of_core hcore
      | other msgtype length =>
          simp only [hpayload] at hprocess
          obtain rfl := Option.some.inj hprocess
          apply Learns.refl

/-! ### What a HELLO lists -/

/-- A HELLO lists an address under the code of its neighbour status and the status of a link
to it. -/
theorem mem_helloWriteLinks {info : HelloInfo} {a : InAddr} (hinfo : info ∈ ctx.helloWriteLinks)
    (ha : a ∈ info.neighAddr) :
  ctx.HasLink a ∧ ctx.getNeighborStatus a ≠ .unavailable ∧
    ∃ lstat : LinkStatus, info.linkCode = createLinkCode (ctx.getNeighborStatus a).code lstat.code
  := by
  simp only [helloWriteLinks, List.mem_flatMap, helloWriteLinksWithCode] at hinfo
  obtain ⟨nstat, -, lstat, -, hinfo⟩ := hinfo
  split_ifs at hinfo
  · contradiction
  · obtain rfl := List.mem_singleton.mp hinfo
    simp only [List.mem_flatMap, List.mem_map, List.mem_filter, decide_eq_true_eq] at ha
    obtain ⟨⟨iface, ielem⟩, hiface, ⟨a', link⟩, ⟨hlink, hstatus, hcode⟩, rfl⟩ := ha
    refine ⟨⟨iface, link, ?_⟩, hstatus, link.status, hcode.symm⟩
    rw [searchLink, OrdMap.search_eq_some.mpr hiface]
    apply OrdMap.search_eq_some.mpr hlink

/-- A node listed as a relay is a relay. -/
theorem mem_mprTree_of_listed {info : HelloInfo} {a : InAddr} (h : ctx.Sound)
    (hinfo : info ∈ ctx.helloWriteLinks) (ha : a ∈ info.neighAddr)
    (hmpr : extractStatus info.linkCode = NeighborStatus.mprNeigh.code) :
  a ∈ ctx.mprTree
  := by
  obtain ⟨-, hknown, lstat, hcode⟩ := mem_helloWriteLinks hinfo ha
  rw [hcode, extractStatus_createLinkCode _ _ hknown] at hmpr
  have hstatus : ctx.getNeighborStatus a = .mprNeigh := by
    cases hstat : ctx.getNeighborStatus a with
    | mprNeigh => rfl
    | _ =>
        rw [hstat] at hmpr
        contradiction
  rw [getNeighborStatus] at hstatus
  cases hsearch : ctx.neighborTree.search a with
  | none =>
      rw [hsearch] at hstatus
      contradiction
  | some n =>
      rw [hsearch] at hstatus
      apply h.consistent.relay a n hsearch hstatus

end OlsrContext

/-! ### The network -/

/-- A message that was built, with the relays of the builder at that time. -/
structure BuiltMsg (ι : Type) where
  builder : ι
  msg : OlsrMsg
  mprTree : OrdMap InAddr Unit

/-- A HELLO that was processed, with the node that had sent it. -/
structure ProcessedHello (ι : Type) where
  receiver : ι
  sender : ι
  msg : OlsrMsg

/-- A network of nodes, with a record of the messages built and the HELLOs processed. -/
structure HelloNet (ι : Type) where
  nodes : ι → OlsrContext
  built : List (BuiltMsg ι)
  processed : List (ProcessedHello ι)

/-- What happens in a network: a round of the timer queue of the node `u`, or the arrival at `u`
of the message at place `i` of the packet at place `k` of all packets that `v` has sent. -/
inductive HelloEvent (ι : Type) where
  | work (u : ι) (now currtime : Timespec) (rand : ℕ)
  | deliver (u v : ι) (k i : ℕ) (now : Timespec)

namespace HelloNet

variable {ι : Type} [DecidableEq ι]

/-- What an event does to a network. -/
def step (net : HelloNet ι) : HelloEvent ι → Option (HelloNet ι)
  | .work u now currtime rand => do
      let ctx ← nodeStep (net.nodes u) (.work now currtime rand)
      return { net with
        nodes := Function.update net.nodes u ctx
        built := net.built ++
          ((net.nodes u).originates (.node (.work now currtime rand))).toList.map
            (fun msg => ⟨u, msg, (net.nodes u).mprTree⟩) }
  | .deliver u v k i now => do
      let pkt ← (net.nodes v).sent[k]?
      let msg ← pkt.msgs[i]?
      let ctx ← nodeStep (net.nodes u) (.recv now pkt.src msg)
      return { net with
        nodes := Function.update net.nodes u ctx
        processed := net.processed ++
          if (net.nodes u).processesHello pkt.src msg then [⟨u, v, msg⟩] else [] }

/-- The nodes have just started, with the addresses `ip`. -/
structure Starts (ip : ι → InAddr) (net : HelloNet ι) : Prop where
  nodes : ∀ u, ∃ now, OlsrContext.olsrStart (ip u) now = some (net.nodes u)
  built : net.built = []
  processed : net.processed = []

/-- The node `u` has processed a HELLO that `v` has built. -/
def HasProcessed (net : HelloNet ι) (u v : ι) : Prop :=
  ∃ b ∈ net.built, b.builder = v ∧ ⟨u, v, b.msg⟩ ∈ net.processed

/-- The node `u` has processed a HELLO that `v` has built when it had chosen `u` as a relay. -/
def WasSelected (ip : ι → InAddr) (net : HelloNet ι) (u v : ι) : Prop :=
  ∃ b ∈ net.built, b.builder = v ∧ ⟨u, v, b.msg⟩ ∈ net.processed ∧ ip u ∈ b.mprTree

/-- Everything that was built or processed in `net` is recorded in `net'`. -/
structure Records (net net' : HelloNet ι) : Prop where
  built : net.built ⊆ net'.built
  processed : net.processed ⊆ net'.processed

omit [DecidableEq ι] in
theorem HasProcessed.mono {net net' : HelloNet ι} {u v : ι} (h : net.HasProcessed u v)
    (hrecords : net.Records net') :
  net'.HasProcessed u v
  := by
  obtain ⟨b, hb, hv, hprocessed⟩ := h
  exact ⟨b, hrecords.built hb, hv, hrecords.processed hprocessed⟩

omit [DecidableEq ι] in
theorem WasSelected.mono {ip : ι → InAddr} {net net' : HelloNet ι} {u v : ι}
    (h : WasSelected ip net u v) (hrecords : net.Records net') :
  WasSelected ip net' u v
  := by
  obtain ⟨b, hb, hv, hprocessed, hmpr⟩ := h
  exact ⟨b, hrecords.built hb, hv, hrecords.processed hprocessed, hmpr⟩

/-- A HELLO lists only nodes whose HELLOs the builder has processed, and as relays only its
relays. It travels one hop. -/
structure Truthful (ip : ι → InAddr) (net : HelloNet ι) (b : BuiltMsg ι) (hello : HelloMsg) :
    Prop where
  originator : b.msg.originator = ip b.builder
  ttl : b.msg.ttl = 1
  heard : ∀ info ∈ hello.helloInfo, ∀ a ∈ info.neighAddr,
    ∃ w, ip w = a ∧ net.HasProcessed b.builder w
  relay : ∀ info ∈ hello.helloInfo, ∀ a ∈ info.neighAddr,
    extractStatus info.linkCode = NeighborStatus.mprNeigh.code → a ∈ b.mprTree

/-- What a network keeps true: links, symmetric links and MPR selectors have their cause in a
HELLO that was built and processed, and every HELLO that is waiting or sent has been built by
its sender. -/
structure Caused (ip : ι → InAddr) (net : HelloNet ι) : Prop where
  ownIp : ∀ u, (net.nodes u).ownIp = ip u
  sound : ∀ u, (net.nodes u).Sound
  link : ∀ u a, (net.nodes u).HasLink a → ∃ v, ip v = a ∧ net.HasProcessed u v
  sym : ∀ u a, (net.nodes u).HasSymLink a → ∃ v, ip v = a ∧ net.HasProcessed v u
  selector : ∀ u a, (net.nodes u).BearsSelector a → ∃ v, ip v = a ∧ WasSelected ip net u v
  built : ∀ b ∈ net.built, ∀ hello, b.msg.payload = .hello hello → Truthful ip net b hello
  src : ∀ v, ∀ pkt ∈ (net.nodes v).sent, pkt.src = ip v
  queued : ∀ v, ∀ msg ∈ (net.nodes v).queued, ∀ hello, msg.payload = .hello hello →
    ∃ b ∈ net.built, b.builder = v ∧ b.msg = msg

omit [DecidableEq ι] in
theorem Truthful.mono {ip : ι → InAddr} {net net' : HelloNet ι} {b : BuiltMsg ι} {hello : HelloMsg}
    (h : Truthful ip net b hello) (hrecords : net.Records net') :
  Truthful ip net' b hello
  where
  originator := h.originator
  ttl := h.ttl
  heard info hinfo a ha := by
    obtain ⟨w, hw, hprocessed⟩ := h.heard info hinfo a ha
    exact ⟨w, hw, hprocessed.mono hrecords⟩
  relay := h.relay

/-! ### Steps of the network -/

/-- A step of one node keeps the invariant if what the node learns has a cause, and the new HELLOs
are built truthfully. -/
theorem Caused.update {ip : ι → InAddr} {net net' : HelloNet ι} {u : ι} {ctx : OlsrContext}
    (h : Caused ip net) (hnodes : net'.nodes = Function.update net.nodes u ctx)
    (hrecords : net.Records net') (hsound : ctx.Sound)
    (hlearns : OlsrContext.Learns {a | ∃ v, ip v = a ∧ net'.HasProcessed u v}
      {a | ∃ v, ip v = a ∧ net'.HasProcessed v u}
      {a | ∃ v, ip v = a ∧ WasSelected ip net' u v} (net.nodes u) ctx)
    (hbuilt : ∀ b ∈ net'.built, b ∈ net.built ∨
      ∀ hello, b.msg.payload = .hello hello → Truthful ip net' b hello)
    (hsrc : ∀ pkt ∈ ctx.sent, pkt ∈ (net.nodes u).sent ∨ pkt.src = ip u)
    (hqueued : ∀ msg ∈ ctx.queued, msg ∈ (net.nodes u).queued ∨
      ∀ hello, msg.payload = .hello hello → ∃ b ∈ net'.built, b.builder = u ∧ b.msg = msg) :
  Caused ip net'
  := by
  have hnode : ∀ v, v = u ∧ net'.nodes v = ctx ∨ net'.nodes v = net.nodes v := by
    intro v
    by_cases hv : v = u
    · left
      rw [hv, hnodes, Function.update_self]
      exact ⟨rfl, rfl⟩
    · right
      rw [hnodes, Function.update_of_ne hv]
  have hlearns' : ∀ v, OlsrContext.Learns {a | ∃ w, ip w = a ∧ net'.HasProcessed v w}
      {a | ∃ w, ip w = a ∧ net'.HasProcessed w v}
      {a | ∃ w, ip w = a ∧ WasSelected ip net' v w} (net.nodes v) (net'.nodes v) := by
    intro v
    rcases hnode v with ⟨rfl, hv⟩ | hv
    · rw [hv]
      apply hlearns
    · rw [hv]
      apply OlsrContext.Learns.refl
  constructor
  · intro v
    rw [(hlearns' v).ownIp]
    apply h.ownIp
  · intro v
    rcases hnode v with ⟨rfl, hv⟩ | hv
    · rw [hv]
      apply hsound
    · rw [hv]
      apply h.sound
  · intro v a ha
    rcases (hlearns' v).link a ha with hold | hnew
    · obtain ⟨w, hw, hprocessed⟩ := h.link v a hold
      exact ⟨w, hw, hprocessed.mono hrecords⟩
    · apply hnew
  · intro v a ha
    rcases (hlearns' v).sym a ha with hold | hnew
    · obtain ⟨w, hw, hprocessed⟩ := h.sym v a hold
      exact ⟨w, hw, hprocessed.mono hrecords⟩
    · apply hnew
  · intro v a ha
    rcases (hlearns' v).selector a ha with hold | hnew
    · obtain ⟨w, hw, hselected⟩ := h.selector v a hold
      exact ⟨w, hw, hselected.mono hrecords⟩
    · apply hnew
  · intro b hb hello hhello
    rcases hbuilt b hb with hold | hnew
    · apply (h.built b hold hello hhello).mono hrecords
    · apply hnew hello hhello
  · intro v pkt hpkt
    rcases hnode v with ⟨rfl, hv⟩ | hv
    · rw [hv] at hpkt
      rcases hsrc pkt hpkt with hold | hnew
      · apply h.src v pkt hold
      · apply hnew
    · rw [hv] at hpkt
      apply h.src v pkt hpkt
  · intro v msg hmsg hello hhello
    have hold : msg ∈ (net.nodes v).queued → ∃ b ∈ net'.built, b.builder = v ∧ b.msg = msg := by
      intro hold
      obtain ⟨b, hb, hbuilder, rfl⟩ := h.queued v msg hold hello hhello
      exact ⟨b, hrecords.built hb, hbuilder, rfl⟩
    rcases hnode v with ⟨rfl, hv⟩ | hv
    · rw [hv] at hmsg
      rcases hqueued msg hmsg with hmsg | hnew
      · apply hold hmsg
      · apply hnew hello hhello
    · rw [hv] at hmsg
      apply hold hmsg

/-- The messages in the queue and in the packets of a node after its queue has changed. -/
theorem queued_of_enqueues {ctx ctx' : OlsrContext} {msgs : List OlsrMsg}
    (h : OlsrContext.Enqueues ctx ctx' msgs) :
  ctx'.queued = ctx.queued ++ msgs
  := by
  rw [OlsrContext.queued, h.sent, h.olsrTxMsgbuf, OlsrContext.queued, List.append_assoc]

theorem queued_of_flushes {ctx ctx' : OlsrContext} (h : OlsrContext.Flushes ctx ctx') :
  ctx'.queued = ctx.queued
  := by
  rw [OlsrContext.queued, h.sent, h.olsrTxMsgbuf, List.append_nil, List.flatMap_append,
    List.flatMap_singleton, OlsrContext.queued]

/-- A round of the timer queue of a node keeps the invariant. -/
theorem Caused.work {ip : ι → InAddr} {net net' : HelloNet ι} {u : ι} {now currtime : Timespec}
    {rand : ℕ} (h : Caused ip net) (hstep : net.step (.work u now currtime rand) = some net') :
  Caused ip net'
  := by
  obtain ⟨ctx, hctx, hnet⟩ := Option.bind_eq_some_iff.mp hstep
  obtain rfl := Option.some.inj hnet
  obtain ⟨hqueue, -⟩ := OlsrContext.workRound_queue (h.sound u) hctx
  have hrecords : net.Records { net with
      nodes := Function.update net.nodes u ctx
      built := net.built ++
        ((net.nodes u).originates (.node (.work now currtime rand))).toList.map
          (fun msg => ⟨u, msg, (net.nodes u).mprTree⟩) } :=
    ⟨List.subset_append_left _ _, List.Subset.refl _⟩
  apply h.update rfl hrecords ((h.sound u).step hctx) (OlsrContext.work_learns (h.sound u) hctx)
  · intro b hb
    rcases List.mem_append.mp hb with hb | hb
    · left
      apply hb
    · right
      intro hello hhello
      obtain ⟨msg, hmsg, rfl⟩ := List.mem_map.mp hb
      -- Of the messages a callback builds, only the one of the HELLO timer is a HELLO.
      have hown : msg = (net.nodes u).ownHello := by
        obtain ⟨c, -, hbuilds⟩ := Option.bind_eq_some_iff.mp (Option.mem_toList.mp hmsg)
        cases c with
        | olsrHelloTimerCb => apply (Option.some.inj hbuilds).symm
        | olsrTcTimerCb =>
            obtain rfl := Option.some.inj hbuilds
            contradiction
        | _ => contradiction
      subst hown
      obtain rfl := MsgPayload.hello.inj hhello
      refine ⟨h.ownIp u, rfl, ?_, ?_⟩
      · intro info hinfo a ha
        obtain ⟨w, hw, hprocessed⟩ := h.link u a (OlsrContext.mem_helloWriteLinks hinfo ha).1
        exact ⟨w, hw, hprocessed.mono hrecords⟩
      · intro info hinfo a ha hmpr
        apply OlsrContext.mem_mprTree_of_listed (h.sound u) hinfo ha hmpr
  · intro pkt hpkt
    rcases hqueue with hqueue | ⟨m, -, -, hqueue⟩ | hqueue
    · left
      rw [← hqueue.sent]
      apply hpkt
    · left
      rw [← hqueue.sent]
      apply hpkt
    · rw [hqueue.sent] at hpkt
      rcases List.mem_append.mp hpkt with hpkt | hpkt
      · left
        apply hpkt
      · right
        rw [List.mem_singleton.mp hpkt]
        apply h.ownIp
  · intro msg hmsg
    rcases hqueue with hqueue | ⟨m, horiginates, -, hqueue⟩ | hqueue
    · left
      rw [queued_of_enqueues hqueue, List.append_nil] at hmsg
      apply hmsg
    · rw [queued_of_enqueues hqueue] at hmsg
      rcases List.mem_append.mp hmsg with hmsg | hmsg
      · left
        apply hmsg
      · right
        intro hello _
        obtain rfl := List.mem_singleton.mp hmsg
        refine ⟨⟨u, msg, (net.nodes u).mprTree⟩, ?_, rfl, rfl⟩
        simp [horiginates]
    · left
      rw [queued_of_flushes hqueue] at hmsg
      apply hmsg

/-- A node that receives a message sends nothing, and forwards no HELLO if HELLOs travel one
hop. -/
theorem recv_queued {ctx ctx' : OlsrContext} {now : Timespec} {src : InAddr} {msg : OlsrMsg}
    (h : ctx.Sound) (httl : ∀ hello, msg.payload = .hello hello → msg.ttl = 1)
    (hstep : nodeStep ctx (.recv now src msg) = some ctx') :
  ctx'.sent = ctx.sent ∧
    ∀ m ∈ ctx'.queued, m ∈ ctx.queued ∨ ∀ hello, m.payload ≠ .hello hello
  := by
  have hkeeps : OlsrContext.Enqueues ctx ctx' [] → ctx'.sent = ctx.sent ∧
      ∀ m ∈ ctx'.queued, m ∈ ctx.queued ∨ ∀ hello, m.payload ≠ .hello hello := by
    intro hqueue
    refine ⟨hqueue.sent, ?_⟩
    intro m hm
    left
    rw [queued_of_enqueues hqueue, List.append_nil] at hm
    apply hm
  have hclock : OlsrContext.Sound { ctx with clock := now } := h.quiet OlsrContext.Quiet.of_eq
  simp only [nodeStep, OlsrContext.handleOlsrMsg] at hstep
  by_cases hown : msg.originator = ctx.ownIp
  · rw [if_pos hown] at hstep
    obtain rfl := Option.some.inj hstep
    apply hkeeps OlsrContext.Enqueues.of_eq
  · rw [if_neg hown] at hstep
    obtain ⟨ctx₁, hprocess, hforward⟩ := Option.bind_eq_some_iff.mp hstep
    obtain ⟨henqueues, -⟩ := OlsrContext.processOlsrMsg_enqueues hclock hprocess
    split_ifs at hforward with hhops
    · rcases (OlsrContext.olsrMsgForwarding_forwards hforward).queue with
        hqueue | ⟨m, hcopy, hqueue⟩
      · apply hkeeps (OlsrContext.Enqueues.of_eq.trans (henqueues.trans hqueue))
      · have hqueue' : OlsrContext.Enqueues ctx ctx' [m] :=
          OlsrContext.Enqueues.of_eq.trans (henqueues.trans hqueue)
        refine ⟨hqueue'.sent, ?_⟩
        intro m' hm'
        rw [queued_of_enqueues hqueue'] at hm'
        rcases List.mem_append.mp hm' with hm' | hm'
        · left
          apply hm'
        · right
          obtain rfl := List.mem_singleton.mp hm'
          intro hello hhello
          have hpayload : m'.payload = msg.payload := by
            rw [OlsrMsg.CopyOf] at hcopy
            rw [hcopy]
          rw [httl hello (hpayload.symm.trans hhello)] at hhops
          apply absurd hhops (by decide)
    · obtain rfl := Option.some.inj hforward
      apply hkeeps (OlsrContext.Enqueues.of_eq.trans henqueues)

/-- The arrival of a message keeps the invariant. -/
theorem Caused.deliver {ip : ι → InAddr} (hip : Function.Injective ip) {net net' : HelloNet ι}
    {u v : ι} {k i : ℕ} {now : Timespec} (h : Caused ip net)
    (hstep : net.step (.deliver u v k i now) = some net') :
  Caused ip net'
  := by
  obtain ⟨pkt, hpkt, hstep⟩ := Option.bind_eq_some_iff.mp hstep
  obtain ⟨msg, hmsg, hstep⟩ := Option.bind_eq_some_iff.mp hstep
  obtain ⟨ctx, hctx, hnet⟩ := Option.bind_eq_some_iff.mp hstep
  have hpkt' := List.mem_of_getElem? hpkt
  have hsrc : pkt.src = ip v := h.src v pkt hpkt'
  have hqueued : msg ∈ (net.nodes v).queued :=
    List.mem_append_left _ (List.mem_flatMap.mpr ⟨pkt, hpkt', List.mem_of_getElem? hmsg⟩)
  have hbuilt := h.queued v msg hqueued
  have hrecords : net.Records net' := by
    obtain rfl := Option.some.inj hnet
    exact ⟨List.Subset.refl _, List.subset_append_left _ _⟩
  -- A HELLO that is processed is recorded.
  have hprocessed : (net.nodes u).processesHello pkt.src msg = true →
      ⟨u, v, msg⟩ ∈ net'.processed := by
    intro hprocesses
    obtain rfl := Option.some.inj hnet
    rw [if_pos hprocesses]
    apply List.mem_append_right _ (List.mem_singleton_self _)
  have hown := h.ownIp u
  have hqueue := recv_queued (h.sound u) (by
    intro hello hhello
    obtain ⟨b, hb, -, rfl⟩ := hbuilt hello hhello
    apply (h.built b hb hello hhello).ttl) hctx
  have hnodes : net'.nodes = Function.update net.nodes u ctx := by
    obtain rfl := Option.some.inj hnet
    rfl
  apply h.update hnodes hrecords ((h.sound u).step hctx)
  · apply OlsrContext.recv_learns (h.sound u) _ _ _ hctx
    · intro hprocesses
      obtain ⟨-, -, hello, hhello⟩ := OlsrContext.processesHello_iff.mp hprocesses
      obtain ⟨b, hb, rfl, rfl⟩ := hbuilt hello hhello
      exact ⟨b.builder, hsrc.symm, b, hrecords.built hb, rfl, hprocessed hprocesses⟩
    · intro _ hello hhello hlisted
      obtain ⟨b, hb, rfl, rfl⟩ := hbuilt hello hhello
      obtain ⟨info, hinfo, hme, -⟩ := OlsrContext.linkcodeToMe_mem hlisted
      rw [hown] at hme
      obtain ⟨w, hw, hheard⟩ := (h.built b hb hello hhello).heard info hinfo (ip u) hme
      rw [hip hw] at hheard
      exact ⟨b.builder, hsrc.symm, hheard.mono hrecords⟩
    · intro hprocesses hello hhello hlisted hmpr
      obtain ⟨b, hb, rfl, rfl⟩ := hbuilt hello hhello
      obtain ⟨info, hinfo, hme, hcode⟩ := OlsrContext.linkcodeToMe_mem hlisted
      rw [hown] at hme
      rw [← hcode] at hmpr
      have htruthful := h.built b hb hello hhello
      exact ⟨b.builder, htruthful.originator.symm, b, hrecords.built hb, rfl,
        hprocessed hprocesses, htruthful.relay info hinfo (ip u) hme hmpr⟩
  · intro b hb
    left
    obtain rfl := Option.some.inj hnet
    apply hb
  · intro pkt' hpkt''
    left
    rw [← hqueue.1]
    apply hpkt''
  · intro m hm
    rcases hqueue.2 m hm with hold | hother
    · left
      apply hold
    · right
      intro hello hhello
      apply absurd hhello (hother hello)

theorem Caused.step {ip : ι → InAddr} (hip : Function.Injective ip) {net net' : HelloNet ι}
    {e : HelloEvent ι} (h : Caused ip net) (hstep : net.step e = some net') :
  Caused ip net'
  := by
  cases e with
  | work u now currtime rand => apply h.work hstep
  | deliver u v k i now => apply h.deliver hip hstep

omit [DecidableEq ι] in
/-- A network of nodes that have just started has nothing to explain. -/
theorem Starts.caused {ip : ι → InAddr} {net : HelloNet ι} (h : Starts ip net) :
  Caused ip net
  := by
  have hempty : ∀ u, (net.nodes u).ownIp = ip u ∧ (net.nodes u).localIfaceTree = .empty ∧
      (net.nodes u).selectorTree = .empty ∧ (net.nodes u).selectorElems = .empty ∧
      (net.nodes u).sent = [] ∧ (net.nodes u).olsrTxMsgbuf = [] := by
    intro u
    obtain ⟨now, hstart⟩ := h.nodes u
    obtain ⟨tq, htq⟩ := OlsrContext.olsrStart_inv hstart
    rw [htq]
    exact ⟨rfl, rfl, rfl, rfl, rfl, rfl⟩
  have hlink : ∀ u i a, (net.nodes u).searchLink i a = none := by
    intro u i a
    rw [OlsrContext.searchLink, (hempty u).2.1]
    rfl
  constructor
  · intro u
    apply (hempty u).1
  · intro u
    obtain ⟨now, hstart⟩ := h.nodes u
    apply OlsrContext.olsrStart_sound hstart
  · rintro u a ⟨i, link, hl⟩
    rw [hlink] at hl
    contradiction
  · rintro u a ⟨i, link, hl, -⟩
    rw [hlink] at hl
    contradiction
  · rintro u a (ha | ⟨id, elem, helem, -⟩)
    · rw [(hempty u).2.2.1] at ha
      apply absurd ha (OrdMap.not_mem_empty a)
    · rw [(hempty u).2.2.2.1] at helem
      contradiction
  · intro b hb
    rw [h.built] at hb
    contradiction
  · intro v pkt hpkt
    rw [(hempty v).2.2.2.2.1] at hpkt
    contradiction
  · intro v msg hmsg
    rw [OlsrContext.queued, (hempty v).2.2.2.2.1, (hempty v).2.2.2.2.2] at hmsg
    contradiction

/-- In every network of nodes with different addresses, however their steps and the arrivals of
their messages are ordered, and whatever is lost or arrives twice:

* a node has a neighbour as symmetric exactly when it has a symmetric link to it;
* a node with a symmetric link to `v` is one whose HELLO `v` has processed;
* a node with the MPR selector `v` has processed a HELLO that `v` built when it had chosen the
  node as a relay. -/
theorem no_false_symmetric_link {ip : ι → InAddr} (hip : Function.Injective ip)
    {start net : HelloNet ι} (hstart : Starts ip start)
    (h : Reaches step (fun _ _ => True) start net) (u v : ι) :
  ((∃ n, (net.nodes u).neighborTree.search (ip v) = some n ∧ n.status.isSym = true) ↔
      (net.nodes u).HasSymLink (ip v)) ∧
    ((net.nodes u).HasSymLink (ip v) → net.HasProcessed v u) ∧
    (ip v ∈ (net.nodes u).selectorTree → WasSelected ip net u v)
  := by
  have hcaused : Caused ip net :=
    h.invariant (fun _ _ _ hs _ hstep => hs.step hip hstep) hstart.caused
  have hconsistent := (hcaused.sound u).consistent
  refine ⟨⟨?_, ?_⟩, ?_, ?_⟩
  · rintro ⟨n, hn, hsym⟩
    apply (hconsistent.status (ip v) n hn (by simp)).2.mp hsym
  · intro hsym
    obtain ⟨i, link, hlink, hstatus⟩ := hsym
    obtain ⟨n, hn⟩ := OrdMap.mem_iff.mp (hconsistent.neighbor i (ip v) link hlink)
    refine ⟨n, hn, (hconsistent.status (ip v) n hn (by simp)).2.mpr ?_⟩
    exact ⟨i, link, hlink, hstatus⟩
  · intro hsym
    obtain ⟨w, hw, hprocessed⟩ := hcaused.sym u (ip v) hsym
    rw [← hip hw]
    apply hprocessed
  · intro hselector
    obtain ⟨w, hw, hselected⟩ := hcaused.selector u (ip v) (Or.inl hselector)
    rw [← hip hw]
    apply hselected

/-! ### Three nodes in a line -/

/-- The addresses of three nodes. -/
def threeIp (u : Fin 3) : InAddr := nodeIp (.ofNat 8 (u.val + 1))

/-- Three nodes that have just started. -/
def threeStart : HelloNet (Fin 3) where
  nodes u := (OlsrContext.olsrStart (threeIp u) ⟨0, 0⟩).getD (initOlsrContext (threeIp u) ⟨0, 0⟩)
  built := []
  processed := []

/-- The rounds of the timer queue in which a node builds and sends its first HELLO. -/
def firstHello (u : Fin 3) : List (HelloEvent (Fin 3)) :=
  List.replicate 11 (.work u ⟨0, 500000000⟩ ⟨0, 500000000⟩ 0)

/-- The rounds in which it builds and sends its second HELLO. -/
def secondHello (u : Fin 3) : List (HelloEvent (Fin 3)) :=
  List.replicate 10 (.work u ⟨0, 950000000⟩ ⟨0, 950000000⟩ 0)

/-- Nodes 0 and 2 are heard by node 1, which lists both. Node 0 chooses it as a relay to reach
node 2, and says so. -/
def threeEvents : List (HelloEvent (Fin 3)) :=
  firstHello 1 ++ [.deliver 0 1 0 0 ⟨0, 500000000⟩] ++
  firstHello 0 ++ [.deliver 1 0 0 0 ⟨0, 500000000⟩] ++
  firstHello 2 ++ [.deliver 1 2 0 0 ⟨0, 500000000⟩] ++
  secondHello 1 ++ [.deliver 0 1 1 0 ⟨0, 950000000⟩] ++
  secondHello 0 ++ [.deliver 1 0 1 0 ⟨0, 950000000⟩]

theorem threeStart_starts :
  Starts threeIp threeStart
  := by
  refine ⟨?_, rfl, rfl⟩
  have hsome : ∀ u, (OlsrContext.olsrStart (threeIp u) ⟨0, 0⟩).isSome = true := by
    decide +kernel
  intro u
  obtain ⟨ctx, hctx⟩ := Option.isSome_iff_exists.mp (hsome u)
  refine ⟨⟨0, 0⟩, ?_⟩
  simp only [threeStart, hctx, Option.getD_some]

theorem no_false_symmetric_link_three :
  ∃ net, Reaches step (fun _ _ => True) threeStart net ∧
    (net.nodes 0).HasSymLink (threeIp 1) ∧ net.HasProcessed 1 0 ∧
    threeIp 0 ∈ (net.nodes 1).selectorTree ∧ WasSelected threeIp net 1 0
  := by
  have hip : Function.Injective threeIp := by
    rw [Function.Injective]
    decide +kernel
  have hrun : ((threeEvents.foldlM (fun net e => if true then net.step e else none)
      threeStart).map (fun net =>
        (((net.nodes 0).searchLink (threeIp 0) (threeIp 1)).map LinkElem.status,
          decide (threeIp 0 ∈ (net.nodes 1).selectorTree)))) =
      some (some LinkStatus.symLink, true) := by
    decide +kernel
  obtain ⟨net, hnet, hvalues⟩ := Option.map_eq_some_iff.mp hrun
  obtain ⟨hlink, hselector⟩ := Prod.mk.inj hvalues
  obtain ⟨link, hlink, hstatus⟩ := Option.map_eq_some_iff.mp hlink
  have hreach : Reaches step (fun _ _ => True) threeStart net :=
    Reaches.of_checked (fun _ _ _ => trivial) hnet
  have hsym : (net.nodes 0).HasSymLink (threeIp 1) := ⟨threeIp 0, link, hlink, hstatus⟩
  have hmem : threeIp 0 ∈ (net.nodes 1).selectorTree := of_decide_eq_true hselector
  exact ⟨net, hreach, hsym,
    (no_false_symmetric_link hip threeStart_starts hreach 0 1).2.1 hsym, hmem,
    (no_false_symmetric_link hip threeStart_starts hreach 1 0).2.2 hmem⟩

end HelloNet
