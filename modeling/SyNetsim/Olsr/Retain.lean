import SyNetsim.Olsr.Behind
import SyNetsim.Olsr.TwoHop

/-!
# What a node retains

A node gives up links, two-hop neighbours, MPR selectors and entries of its topology only when one
of them expires, or when a neighbour reports that it has lost this node. As long as neither happens
(`ForgetsNothing`), the node only gets to know more (`Retains`). No link is lost then, and the
relays that the node has chosen reach all its two-hop neighbours and are listed as relays in its
HELLOs (`Steady`).
-/

/-- The callbacks that take something from what a node knows of the network. -/
def Callback.forgets : Callback → Bool
  | linkTimerExpire _ => true
  | neigh2ElemExpire _ => true
  | topologyInfoTimerExpireCb _ => true
  | mprSelectorExpire _ => true
  | _ => false

namespace OlsrContext

variable {ctx ctx₁ ctx₂ ctx₃ ctx₄ ctx' : OlsrContext} {src orig : InAddr} {hello : HelloMsg}
  {vtime : ℕ}

/-! ### MPR selectors -/

/-- No change that a message makes takes an MPR selector away. -/
theorem Change.selector_stays {foreign : Prop} (h : Change foreign ctx ctx') {a : InAddr}
    (ha : a ∈ ctx.selectorTree) :
  a ∈ ctx'.selectorTree
  := by
  cases h with
  | same hsame => rwa [hsame.selectorTree]
  | start _ _ haside => rwa [haside.selectorTree]
  | newLink _ _ _ hwrites => rwa [hwrites.selectorTree]
  | setTimer _ _ _ hwrites => rwa [hwrites.selectorTree]
  | stopSym _ _ _ _ _ hwrites => rwa [hwrites.selectorTree]
  | selector _ _ _ _ htree _ =>
      rw [htree]
      apply OrdMap.mem_insert.mpr (Or.inr ha)

theorem Changes.selector_stays {foreign : Prop} (h : Changes foreign ctx ctx') {a : InAddr}
    (ha : a ∈ ctx.selectorTree) :
  a ∈ ctx'.selectorTree
  := by
  induction h with
  | refl => apply ha
  | tail _ hchange ih => apply hchange.selector_stays ih

/-- The originator of a HELLO that lists this node as a relay becomes an MPR selector. -/
theorem populateMprSelector_mem (helems : ∀ id ∈ ctx.selectorElems, id < ctx.nextId)
    (htree : ∀ a id, ctx.selectorTree.search a = some id →
      ∃ selem, ctx.selectorElems.search id = some selem ∧ selem.selectorAddr = a)
    (hstep : ctx.populateMprSelector src src vtime = some ctx') :
  src ∈ ctx'.selectorTree
  := by
  simp only [populateMprSelector, findMprSelector, Option.bind_eq_bind, Option.bind_eq_some_iff,
    Option.pure_def] at hstep
  obtain ⟨⟨id, ctx₁⟩, hfind, selem, hselem, tq, -, hstep⟩ := hstep
  obtain rfl := Option.some.inj hstep
  apply OrdMap.mem_insert.mpr
  left
  cases hsearch : ctx.selectorTree.search src with
  | some id' =>
      simp only [hsearch, Option.some.injEq, Prod.mk.injEq] at hfind
      obtain ⟨rfl, rfl⟩ := hfind
      obtain ⟨selem', hselem', haddr⟩ := htree src id' hsearch
      rw [← haddr, ← Option.some.inj (hselem.symm.trans hselem')]
  | none =>
      simp only [hsearch, Option.bind_eq_some_iff, Option.some.injEq, Prod.mk.injEq] at hfind
      obtain ⟨⟨timer, tq'⟩, -, rfl, rfl⟩ := hfind
      have hnew : ctx.selectorElems.search ctx.nextId = none := by
        apply OrdMap.search_eq_none.mpr
        intro hmem
        apply lt_irrefl _ (helems _ hmem)
      rw [OrdMap.search_insert, if_pos rfl, hnew, Option.getD_none] at hselem
      rw [← Option.some.inj hselem]

/-! ### What a HELLO leaves behind -/

/-- The links after a HELLO: the link to the sender has been written to, and it is symmetric if the
sender hears this node, or was so and the sender has not lost this node. -/
theorem HelloStages.searchLink
    (h : HelloStages ctx ctx₁ ctx₂ ctx₃ ctx₄ ctx' src orig hello vtime) :
  ∃ link q, link.asymTimer = some q ∧
    (link.status = .symLink ↔ ctx.HearsMe hello.helloInfo ∨ ¬ ctx.LosesMe hello.helloInfo ∧
      ∃ old, ctx.searchLink ctx.ownIp src = some old ∧ old.status = .symLink) ∧
    ∀ i a, ctx'.searchLink i a =
      if i = ctx.ownIp ∧ a = src then some link else ctx.searchLink i a
  := by
  have hdup₁ : NotDuplicated ctx₁.topologyTree := by
    rw [h.local₁.topologyTree]
    apply h.notDuplicated
  have hiface₀ : (ctx.findNeighbor src hello.willingness).ownIp ∈
      (ctx.findNeighbor src hello.willingness).localIfaceTree := OrdMap.mem_insert.mpr (Or.inl rfl)
  obtain ⟨hown₁, link₁, hsym₁, hsearch₁⟩ := touchLink_setsStatus hiface₀ h.touch
  simp only [searchLink_findNeighbor] at hsearch₁ hsym₁
  have hown₁' : ctx₁.ownIp = ctx.ownIp := hown₁
  have hlink₁ : ctx₁.searchLink ctx₁.ownIp src = some link₁ := by
    rw [hsearch₁, if_pos ⟨hown₁, rfl⟩]
  obtain ⟨hown₂, link₂, hsym₂, hsearch₂⟩ := populateLinkset_setsStatus hdup₁ hlink₁ h.linkset
  obtain ⟨link, -, q, hlink₂, -, hasym, -⟩ := h.link_expiresAt.1
  rw [hsearch₂, if_pos ⟨hown₂, rfl⟩, Option.some.injEq] at hlink₂
  refine ⟨link₂, q, by rw [hlink₂, hasym], ?_, ?_⟩
  · rw [hsym₂, HearsMe, LosesMe, HearsMe, LosesMe, hown₁', hsym₁]
    rfl
  · intro i a
    rw [h.keepsExpiry.1.searchLink, hsearch₂, hown₁', hsearch₁]
    split_ifs with hkey hkey'
    · rfl
    · exact absurd hkey' hkey
    · rfl

/-- Every link is asymmetric or symmetric: the node has heard from the other end, and none is
lost. -/
def LinksHeard (ctx : OlsrContext) : Prop :=
  ∀ i a link, ctx.searchLink i a = some link → link.status = .asymLink ∨ link.status = .symLink

/-- A link that is written to without being lost is asymmetric or symmetric once its timer
`asym_timer` is set. -/
theorem Change.heard (h : Change False ctx ctx')
    (hheard : ∀ i a link, ctx.searchLink i a = some link → link.asymTimer ≠ none →
      link.status = .asymLink ∨ link.status = .symLink) :
  ∀ i a link, ctx'.searchLink i a = some link → link.asymTimer ≠ none →
    link.status = .asymLink ∨ link.status = .symLink
  := by
  have hwrite : ∀ {i a : InAddr} {link' : LinkElem}, WritesLink i a link' ctx ctx' →
      (link'.asymTimer ≠ none → link'.status = .asymLink ∨ link'.status = .symLink) →
      ∀ x y link, ctx'.searchLink x y = some link → link.asymTimer ≠ none →
        link.status = .asymLink ∨ link.status = .symLink := by
    intro i a link' hwrites hlink' x y link hlink
    rw [hwrites.searchLink] at hlink
    split_ifs at hlink
    · rw [← Option.some.inj hlink]
      apply hlink'
    · apply hheard x y link hlink
  cases h with
  | same hsame =>
      intro i a link hlink
      rw [hsame.searchLink] at hlink
      apply hheard i a link hlink
  | start _ _ haside =>
      intro i a link hlink
      rw [haside.searchLink] at hlink
      apply hheard i a link hlink
  | newLink _ _ _ hwrites =>
      apply hwrite hwrites
      intro htimer
      contradiction
  | setTimer hlink hsets _ hwrites =>
      apply hwrite hwrites
      cases hsets with
      | expire _ => apply hheard _ _ _ hlink
      | asym _ =>
          intro _
          dsimp only
          split_ifs with hsym
          · left
            rfl
          · right
            apply not_not.mp hsym
      | sym _ =>
          intro _
          right
          rfl
  | stopSym hforeign _ _ _ _ _ => contradiction
  | selector _ _ hlink =>
      intro i a link hlink'
      rw [hlink] at hlink'
      apply hheard i a link hlink'

theorem Changes.heard (h : Changes False ctx ctx')
    (hheard : ∀ i a link, ctx.searchLink i a = some link → link.asymTimer ≠ none →
      link.status = .asymLink ∨ link.status = .symLink) :
  ∀ i a link, ctx'.searchLink i a = some link → link.asymTimer ≠ none →
    link.status = .asymLink ∨ link.status = .symLink
  := by
  induction h with
  | refl => apply hheard
  | tail _ hchange ih => apply hchange.heard ih

/-- A HELLO that does not report a loss leaves no link lost. -/
theorem HelloStages.linksHeard
    (h : HelloStages ctx ctx₁ ctx₂ ctx₃ ctx₄ ctx' src orig hello vtime)
    (hchanges : Changes False ctx ctx') (hheard : ctx.LinksHeard) :
  ctx'.LinksHeard
  := by
  obtain ⟨link₁, q, hasym, -, hsearch⟩ := h.searchLink
  have hafter := hchanges.heard (fun i a link hlink _ => hheard i a link hlink)
  intro i a link hlink
  by_cases hkey : i = ctx.ownIp ∧ a = src
  · apply hafter i a link hlink
    rw [hsearch, if_pos hkey] at hlink
    rw [← Option.some.inj hlink, hasym]
    simp
  · rw [hsearch, if_neg hkey] at hlink
    apply hheard i a link hlink

/-! ### What only grows -/

/-- From `ctx` to `ctx'` nothing has been forgotten: links, symmetric links, two-hop neighbours
and MPR selectors are still there. -/
structure Retains (ctx ctx' : OlsrContext) : Prop where
  ownIp : ctx'.ownIp = ctx.ownIp
  link : ∀ a, ctx.HasLink a → ctx'.HasLink a
  symLink : ∀ a, ctx.HasSymLink a → ctx'.HasSymLink a
  neigh2 : ∀ a x, ctx.searchNeigh2 a x ≠ none → ctx'.searchNeigh2 a x ≠ none
  selector : ∀ a ∈ ctx.selectorTree, a ∈ ctx'.selectorTree

/-- Between `ctx` and `ctx'` links, neighbours, relays and MPR selectors are the same. -/
structure SameLinks (ctx ctx' : OlsrContext) : Prop where
  ownIp : ctx'.ownIp = ctx.ownIp
  localIfaceTree : ctx'.localIfaceTree = ctx.localIfaceTree
  neighborTree : ctx'.neighborTree = ctx.neighborTree
  mprTree : ctx'.mprTree = ctx.mprTree
  selectorTree : ctx'.selectorTree = ctx.selectorTree

theorem SameLinks.searchLink (h : SameLinks ctx ctx') :
  ctx'.searchLink = ctx.searchLink
  := by
  funext i a
  rw [OlsrContext.searchLink, OlsrContext.searchLink, h.localIfaceTree]

theorem SameLinks.retains (h : SameLinks ctx ctx') :
  Retains ctx ctx'
  := by
  refine ⟨h.ownIp, ?_, ?_, ?_, ?_⟩
  · intro a ha
    rwa [HasLink, h.searchLink]
  · intro a ha
    rwa [HasSymLink, h.searchLink]
  · intro a x hx
    rwa [searchNeigh2, h.neighborTree]
  · intro a ha
    rwa [h.selectorTree]

/-- A change of the topology does not touch links. -/
theorem TopologyChange.sameLinks {topo : OrdMap InAddr TopologyInfoElem}
    (h : TopologyChange ctx ctx' topo) :
  SameLinks ctx ctx' ∧ ctx'.ansn = ctx.ansn
  := by
  obtain ⟨tq, nextId, hcore⟩ := h
  refine ⟨⟨?_, ?_, ?_, ?_, ?_⟩, ?_⟩
  · have hown := congrArg OlsrContext.ownIp hcore
    apply hown
  · have hifaces := congrArg OlsrContext.localIfaceTree hcore
    apply hifaces
  · have hneighbors := congrArg OlsrContext.neighborTree hcore
    apply hneighbors
  · have hmprs := congrArg OlsrContext.mprTree hcore
    apply hmprs
  · have hselectors := congrArg OlsrContext.selectorTree hcore
    apply hselectors
  · have hansn := congrArg OlsrContext.ansn hcore
    apply hansn

theorem Retains.trans {ctx'' : OlsrContext} (h : Retains ctx ctx') (h' : Retains ctx' ctx'') :
  Retains ctx ctx''
  where
  ownIp := h'.ownIp.trans h.ownIp
  link a ha := h'.link a (h.link a ha)
  symLink a ha := h'.symLink a (h.symLink a ha)
  neigh2 a x hx := h'.neigh2 a x (h.neigh2 a x hx)
  selector a ha := h'.selector a (h.selector a ha)

/-- A HELLO that does not report a loss makes a node forget nothing. -/
theorem HelloStages.retains
    (h : HelloStages ctx ctx₁ ctx₂ ctx₃ ctx₄ ctx' src orig hello vtime)
    (hchanges : Changes False ctx ctx') (hloses : ¬ ctx.LosesMe hello.helloInfo) :
  Retains ctx ctx'
  := by
  obtain ⟨link₁, -, -, hsym, hsearch⟩ := h.searchLink
  refine ⟨?_, ?_, ?_, ?_, fun a ha => hchanges.selector_stays ha⟩
  · rw [h.mpr.local.ownIp, h.local₄.ownIp, h.local₃.ownIp, h.local₂.ownIp, h.local₁.ownIp]
  · rintro a ⟨i, link, hlink⟩
    by_cases hkey : i = ctx.ownIp ∧ a = src
    · exact ⟨i, link₁, by rw [hsearch, if_pos hkey]⟩
    · exact ⟨i, link, by rw [hsearch, if_neg hkey, hlink]⟩
  · rintro a ⟨i, link, hlink, hstatus⟩
    by_cases hkey : i = ctx.ownIp ∧ a = src
    · refine ⟨i, link₁, by rw [hsearch, if_pos hkey], hsym.mpr (Or.inr ⟨hloses, link, ?_, hstatus⟩)⟩
      rw [← hkey.1, ← hkey.2, hlink]
    · exact ⟨i, link, by rw [hsearch, if_neg hkey, hlink], hstatus⟩
  · intro a x hx
    by_cases hlisted : a = src ∧ x ∈ hello.helloInfo.flatMap HelloInfo.neighAddr ∧
        x ≠ ctx.ownIp ∧ ctx.SymmetricAfter src hello.helloInfo
    · obtain ⟨rfl, hmem, hne, hafter⟩ := hlisted
      obtain ⟨n2elem, hn2elem, -⟩ :=
        h.keepsExpiry.2.2 (h.isSymNeigh_after.mpr hafter) x hmem hne
      rw [hn2elem]
      simp
    · rwa [(h.keepsNeigh2 hlisted).1]

/-! ### The sequence number of the advertised neighbours -/

theorem updateNeighborStatus_ansn {addr : InAddr} (hdup : NotDuplicated ctx.topologyTree)
    (hstep : ctx.updateNeighborStatus addr = some ctx') :
  ctx'.ansn = ctx.ansn
  := by
  obtain ⟨neigh, -, hcore, -⟩ := updateNeighborStatus_inv hstep hdup
  have hansn := congrArg OlsrContext.ansn hcore
  apply hansn

theorem populateLinkset_ansn {helloInfo : List HelloInfo} (hdup : NotDuplicated ctx.topologyTree)
    (hstep : ctx.populateLinkset src orig helloInfo vtime = some ctx') :
  ctx'.ansn = ctx.ansn
  := by
  rw [populateLinkset] at hstep
  by_cases hcode : linkcodeToMe ctx.ownIp helloInfo = statusUnavailable
  · rw [if_pos hcode] at hstep
    obtain rfl := Option.some.inj hstep
    rfl
  · rw [if_neg hcode] at hstep
    obtain ⟨ctx₁, hlinkstat, hneighstat⟩ := Option.bind_eq_some_iff.mp hstep
    have h₁ : ctx₁.ansn = ctx.ansn := by
      rw [populateLinkStatus] at hlinkstat
      split_ifs at hlinkstat
      · obtain ⟨tq, ifaces, rfl⟩ := setSymLink_inv hlinkstat
        rfl
      · obtain ⟨tq, link, -, hupdate⟩ := setLostLink_inv hlinkstat
        have hset : NotDuplicated
            (OlsrContext.setLink { ctx with timerqueue := tq } ctx.ownIp src link).topologyTree :=
          hdup
        apply updateNeighborStatus_ansn hset hupdate
      · obtain rfl := Option.some.inj hlinkstat
        rfl
    split_ifs at hneighstat
    · obtain ⟨tq, nextId, elems, selectors, rfl⟩ := populateMprSelector_inv hneighstat
      apply h₁
    · obtain rfl := Option.some.inj hneighstat
      apply h₁

theorem populateNeigh2set_ansn {addr : InAddr} {helloInfo : List HelloInfo}
    (hstep : ctx.populateNeigh2set addr helloInfo vtime = some ctx') :
  ctx'.ansn = ctx.ansn
  := by
  rw [populateNeigh2set] at hstep
  generalize helloInfo.flatMap HelloInfo.neighAddr = l at hstep
  induction l generalizing ctx with
  | nil =>
      obtain rfl := Option.some.inj hstep
      rfl
  | cons n2addr l ih =>
      rw [List.foldlM_cons] at hstep
      obtain ⟨ctx₁, hone, hrest⟩ := Option.bind_eq_some_iff.mp hstep
      rw [ih hrest]
      split_ifs at hone
      · obtain rfl := Option.some.inj hone
        rfl
      · obtain ⟨neigh, tree, -, hchange, -⟩ := updateNeigh2Tuple_inv hone
        obtain ⟨tq, nextId, rfl⟩ := hchange.eq
        rfl

/-- A HELLO counts the sequence number on by one at most: when the relays change. -/
theorem HelloStages.ansn (h : HelloStages ctx ctx₁ ctx₂ ctx₃ ctx₄ ctx' src orig hello vtime) :
  ctx'.ansn = ctx.ansn ∨ ctx'.ansn = ctx.ansn + 1
  := by
  have hdup₁ : NotDuplicated ctx₁.topologyTree := by
    rw [h.local₁.topologyTree]
    apply h.notDuplicated
  have hdup₂ : NotDuplicated ctx₂.topologyTree := by
    rw [h.local₂.topologyTree]
    apply hdup₁
  have h₁ : ctx₁.ansn = ctx.ansn := by
    obtain ⟨tq, nextId, ifaces, rfl⟩ := touchLink_inv h.touch
    rfl
  have h₄ : ctx₄.ansn = ctx₃.ansn := by
    by_cases hsym : IsSymNeigh ctx₃.neighborTree src
    · apply populateNeigh2set_ansn (h.neigh2 hsym)
    · rw [h.skip hsym]
  have hansn : ctx₄.ansn = ctx.ansn := by
    rw [h₄, updateNeighborStatus_ansn hdup₂ h.status, populateLinkset_ansn hdup₁ h.linkset, h₁]
  rw [h.mpr.ansn, hansn]
  split_ifs
  · right
    rfl
  · left
    rfl

/-! ### Steps -/

/-- A quiet change that keeps the MPR selectors and the sequence number. -/
structure Calm (ctx ctx' : OlsrContext) : Prop extends Quiet ctx ctx' where
  selectorTree : ctx'.selectorTree = ctx.selectorTree
  ansn : ctx'.ansn = ctx.ansn

theorem Calm.trans {ctx'' : OlsrContext} (h : Calm ctx ctx') (h' : Calm ctx' ctx'') :
  Calm ctx ctx''
  := ⟨h.toQuiet.trans h'.toQuiet, h'.selectorTree.trans h.selectorTree, h'.ansn.trans h.ansn⟩

theorem Calm.sameLinks (h : Calm ctx ctx') :
  SameLinks ctx ctx'
  := ⟨h.ownIp, h.localIfaceTree, h.neighborTree, h.mprTree, h.selectorTree⟩

theorem Calm.of_eq {tq : TimerqueueContext Callback} {msgs : List OlsrMsg} {msgSeq : BitVec 16}
    {dup : OrdMap DuplicateSetKey DuplicateSetElem} {clock : Timespec} {nextId : ℕ}
    {sent : List OlsrPacket} :
  Calm ctx { ctx with
    timerqueue := tq, olsrTxMsgbuf := msgs, msgSeq := msgSeq, dupTree := dup, clock := clock,
    nextId := nextId, sent := sent }
  := ⟨⟨rfl, rfl, rfl, rfl, rfl, rfl⟩, rfl, rfl⟩

theorem pushMsg_calm (ctx : OlsrContext) (msg : OlsrMsg) :
  Calm ctx (ctx.pushMsg msg)
  := by
  obtain ⟨msgs, hmsgs⟩ := pushMsg_eq ctx msg
  rw [hmsgs]
  apply Calm.of_eq

theorem retransmit_calm (ctx : OlsrContext) (msg : OlsrMsg) (src : InAddr) :
  Calm ctx (ctx.retransmit msg src)
  := by
  rw [retransmit]
  split_ifs
  · dsimp only
    split_ifs
    · apply Calm.of_eq
    · apply Calm.trans Calm.of_eq (pushMsg_calm _ _)
  · apply Calm.of_eq

theorem olsrMsgForwarding_calm {msg : OlsrMsg} (h : ctx.olsrMsgForwarding msg src = some ctx') :
  Calm ctx ctx'
  := by
  rw [olsrMsgForwarding] at h
  cases hsearch : ctx.dupTree.search msg.dkey with
  | some delem =>
      simp only [hsearch] at h
      split_ifs at h
      · obtain rfl := Option.some.inj h
        apply Calm.of_eq
      · obtain rfl := Option.some.inj h
        apply retransmit_calm
  | none =>
      simp only [hsearch, createDupEntry, Option.bind_eq_bind, Option.bind_eq_some_iff,
        Option.pure_def, Option.some.injEq] at h
      obtain ⟨ctx₁, ⟨⟨timer, tq⟩, -, rfl⟩, rfl⟩ := h
      apply Calm.trans Calm.of_eq (retransmit_calm _ _ _)

/-- A message is given to its handler, if there is one, with calm changes after it. -/
theorem handleOlsrMsg_calm {msg : OlsrMsg} (h : ctx.handleOlsrMsg msg src = some ctx') :
  ctx.msgHandler src msg = none ∧ Calm ctx ctx' ∨
    ∃ handler ctx₁, ctx.msgHandler src msg = some handler ∧ handler.run ctx = some ctx₁ ∧
      Calm ctx₁ ctx'
  := by
  rw [handleOlsrMsg] at h
  by_cases hown : msg.originator = ctx.ownIp
  · rw [if_pos hown] at h
    obtain rfl := Option.some.inj h
    left
    exact ⟨if_pos (Or.inl hown), Calm.of_eq⟩
  · rw [if_neg hown] at h
    obtain ⟨ctx₁, hprocess, h⟩ := Option.bind_eq_some_iff.mp h
    have hforward : Calm ctx₁ ctx' := by
      split_ifs at h
      · apply olsrMsgForwarding_calm h
      · obtain rfl := Option.some.inj h
        apply Calm.of_eq
    rw [processOlsrMsg] at hprocess
    by_cases hdup : ctx.isAlreadyProcessed msg = true
    · rw [if_pos hdup] at hprocess
      obtain rfl := Option.some.inj hprocess
      left
      exact ⟨if_pos (Or.inr hdup), Calm.of_eq.trans hforward⟩
    · rw [if_neg hdup] at hprocess
      cases hpayload : msg.payload with
      | hello hello =>
          right
          refine ⟨.hello src msg.originator hello (meToReltime msg.vtime), ctx₁, ?_, ?_, hforward⟩
          · simp [msgHandler, hown, hdup, hpayload]
          · simp only [hpayload] at hprocess
            apply hprocess
      | tc tc =>
          right
          refine ⟨.tc src msg.originator tc (meToReltime msg.vtime), ctx₁, ?_, ?_, hforward⟩
          · simp [msgHandler, hown, hdup, hpayload]
          · simp only [hpayload] at hprocess
            apply hprocess
      | other msgtype length =>
          simp only [hpayload] at hprocess
          obtain rfl := Option.some.inj hprocess
          left
          refine ⟨?_, Calm.of_eq.trans hforward⟩
          simp [msgHandler, hpayload]

/-- The handler of a message is given what the message holds. -/
theorem msgHandler_inv {msg : OlsrMsg} {handler : Handler}
    (h : ctx.msgHandler src msg = some handler) :
  (∃ hello, msg.payload = .hello hello ∧
      handler = .hello src msg.originator hello (meToReltime msg.vtime)) ∨
    ∃ tc, msg.payload = .tc tc ∧ handler = .tc src msg.originator tc (meToReltime msg.vtime)
  := by
  rw [msgHandler] at h
  split_ifs at h
  cases hpayload : msg.payload with
  | hello hello =>
      rw [hpayload] at h
      left
      exact ⟨hello, rfl, (Option.some.inj h).symm⟩
  | tc tc =>
      rw [hpayload] at h
      right
      exact ⟨tc, rfl, (Option.some.inj h).symm⟩
  | other msgtype length =>
      rw [hpayload] at h
      contradiction

/-- What a node does when a message arrives. -/
theorem recv_inv {now : Timespec} {msg : OlsrMsg}
    (h : nodeStep ctx (.recv now src msg) = some ctx') :
  ctx.msgHandler src msg = none ∧ Calm ctx ctx' ∨
    ∃ handler ctx₁, ctx.msgHandler src msg = some handler ∧
      handler.run { ctx with clock := now } = some ctx₁ ∧ Calm ctx₁ ctx'
  := by
  rcases handleOlsrMsg_calm h with ⟨hnone, hcalm⟩ | hhandler
  · left
    exact ⟨hnone, Calm.of_eq.trans hcalm⟩
  · right
    apply hhandler

/-- The callback that a round of the timer queue runs forgets nothing. -/
def KeepsEntries (ctx : OlsrContext) (currtime : Timespec) : Prop :=
  ∀ c, ctx.timerqueue.fired currtime = some c → c.forgets = false

/-- A callback that forgets nothing is calm, but for the sequence number when a TC is built. -/
theorem runCallback_calm {c : Callback} (hforgets : c.forgets = false)
    (h : runCallback c ctx = some ctx') :
  c ≠ .olsrTcTimerCb ∧ Calm ctx ctx' ∨
    c = .olsrTcTimerCb ∧ Calm { ctx with ansn := ctx.ansn + 1 } ctx'
  := by
  cases c with
  | olsrTcTimerCb =>
      obtain rfl := Option.some.inj h
      right
      exact ⟨rfl, pushMsg_calm _ _⟩
  | olsrHelloTimerCb =>
      obtain rfl := Option.some.inj h
      left
      exact ⟨by simp, pushMsg_calm _ _⟩
  | olsrSendFromQueueCb =>
      obtain rfl := Option.some.inj h
      left
      refine ⟨by simp, ?_⟩
      rw [olsrSendFromQueueCb]
      split_ifs
      · apply Calm.of_eq
      · apply Calm.of_eq
  | dumpDebuginfoCb =>
      obtain rfl := Option.some.inj h
      left
      exact ⟨by simp, Calm.of_eq⟩
  | expireDupEntryCb arg =>
      simp only [runCallback, expireDupEntryCb, Option.bind_eq_bind, Option.bind_eq_some_iff,
        Option.pure_def, Option.some.injEq] at h
      obtain ⟨delem, -, tq, -, rfl⟩ := h
      left
      exact ⟨by simp, Calm.of_eq⟩
  | linkTimerExpire arg => contradiction
  | neigh2ElemExpire arg => contradiction
  | topologyInfoTimerExpireCb arg => contradiction
  | mprSelectorExpire arg => contradiction

/-- A round of the timer queue that forgets nothing is calm, but for the sequence number, which it
counts on exactly if it builds a TC. -/
theorem workRound_calm {currtime : Timespec} {rand : ℕ} (hkeeps : ctx.KeepsEntries currtime)
    (h : client.workRound currtime rand ctx = some ctx') :
  ctx.timerqueue.fired currtime ≠ some .olsrTcTimerCb ∧ Calm ctx ctx' ∨
    ctx.timerqueue.fired currtime = some .olsrTcTimerCb ∧
      Calm { ctx with ansn := ctx.ansn + 1 } ctx'
  := by
  cases hdue : ctx.timerqueue.firstDue currtime with
  | none =>
      rw [client.workRound_idle hdue] at h
      obtain rfl := Option.some.inj h
      left
      refine ⟨?_, Calm.of_eq⟩
      simp [TimerqueueContext.fired, hdue]
  | some k =>
      rw [client.workRound_due hdue] at h
      rcases client.fire_inv h with
        ⟨e, q, he, hactive, rfl⟩ | ⟨e, c, ctx₁, q, he, hactive, hc, hrun, rfl⟩
      · have he' : ctx.timerqueue.elems.search k.ptr = some e := he
        left
        refine ⟨?_, Calm.of_eq⟩
        simp [TimerqueueContext.fired, hdue, he', hactive]
      · have he' : ctx.timerqueue.elems.search k.ptr = some e := he
        have hfired : ctx.timerqueue.fired currtime = some c := by
          simp [TimerqueueContext.fired, hdue, he', hactive, hc]
        have hafter : Calm ctx₁ (client.setTq ctx₁ q) := Calm.of_eq
        rw [hfired, ne_eq, Option.some.injEq]
        rcases runCallback_calm (hkeeps c hfired) hrun with ⟨hne, hcalm⟩ | ⟨heq, hcalm⟩
        · left
          exact ⟨hne, Calm.of_eq.trans (hcalm.trans hafter)⟩
        · right
          exact ⟨heq, Calm.of_eq.trans (hcalm.trans hafter)⟩

theorem work_inv {now currtime : Timespec} {rand : ℕ} (hkeeps : ctx.KeepsEntries currtime)
    (h : nodeStep ctx (.work now currtime rand) = some ctx') :
  (∀ msg, ctx.originates (.node (.work now currtime rand)) = some msg → msg = ctx.ownHello) ∧
      Calm ctx ctx' ∨
    ctx.originates (.node (.work now currtime rand)) = some ctx.ownTc ∧
      Calm { ctx with ansn := ctx.ansn + 1 } ctx'
  := by
  have hclock : KeepsEntries { ctx with clock := now } currtime := hkeeps
  rcases workRound_calm hclock h with ⟨hne, hcalm⟩ | ⟨hfired, hcalm⟩
  · left
    refine ⟨?_, Calm.of_eq.trans hcalm⟩
    intro msg hmsg
    obtain ⟨c, hc, hbuilds⟩ := Option.bind_eq_some_iff.mp hmsg
    cases c with
    | olsrHelloTimerCb => apply (Option.some.inj hbuilds).symm
    | olsrTcTimerCb => apply absurd hc hne
    | _ => contradiction
  · right
    have hfired' : ctx.timerqueue.fired currtime = some .olsrTcTimerCb := hfired
    refine ⟨?_, Calm.trans Calm.of_eq hcalm⟩
    rw [originates, hfired', Option.bind_some]
    rfl

/-! ### Runs that forget nothing -/

/-- The event takes nothing from what the node knows: nothing expires, and a HELLO comes from its
originator and does not list this node as lost. -/
def ForgetsNothing (ctx : OlsrContext) : NodeEvent → Prop
  | .recv _ src msg => ∀ hello, msg.payload = .hello hello →
      msg.originator = src ∧ ¬ ListsAsLost ctx.ownIp hello
  | .work _ currtime _ => ctx.KeepsEntries currtime

/-- Where nothing is forgotten, the relays are not touched by an expiry. -/
theorem ForgetsNothing.keepsRelays {e : NodeEvent} (h : ctx.ForgetsNothing e) :
  ctx.KeepsRelays e
  := by
  rw [KeepsRelays]
  cases hhandler : ctx.handlerOf e with
  | none => trivial
  | some handler =>
      cases e with
      | recv now src msg =>
          rcases msgHandler_inv hhandler with ⟨hello, -, rfl⟩ | ⟨tc, -, rfl⟩
          · trivial
          · trivial
      | work now currtime rand =>
          obtain ⟨c, hfired, hc⟩ := Option.bind_eq_some_iff.mp hhandler
          have hforgets := h c hfired
          cases c with
          | linkTimerExpire arg => contradiction
          | neigh2ElemExpire arg => contradiction
          | topologyInfoTimerExpireCb arg => contradiction
          | _ => contradiction

/-- What holds of a node that has never forgotten anything. -/
structure Steady (ctx : OlsrContext) : Prop where
  sound : ctx.Sound
  held : ctx.Held none
  linksHeard : ctx.LinksHeard
  mprCurrent : ctx.MprCurrent
  status : ∀ a ∈ ctx.mprTree, ctx.getNeighborStatus a = .mprNeigh
  nearlyFresh : ctx.NearlyFresh

/-- In a state that is steady, a HELLO that does not report a loss is handled in stages, and no
timer is stopped. -/
theorem Steady.processOlsrHello (h : ctx.Steady) (hlost : ¬ ListsAsLost ctx.ownIp hello)
    (hrun : ctx.processOlsrHello src src hello vtime = some ctx') :
  ∃ ctx₁ ctx₂ ctx₃ ctx₄, HelloStages ctx ctx₁ ctx₂ ctx₃ ctx₄ ctx' src src hello vtime ∧
    Changes False ctx ctx'
  := by
  obtain ⟨ctx₁, ctx₂, ctx₃, ctx₄, hst⟩ := processOlsrHello_stages h.held.backed h.sound hrun
  have hnull : ¬ ctx.FollowsNull src hello.helloInfo := fun hnull => hlost hnull.listsAsLost
  obtain ⟨ctx'', hctx'', hchanges⟩ := h.held.backed.processOlsrHello h.sound src src
    (fun _ => ⟨rfl, hlost⟩ : ¬ False → _) hnull vtime
  obtain rfl := Option.some.inj (hrun.symm.trans hctx'')
  exact ⟨ctx₁, ctx₂, ctx₃, ctx₄, hst, hchanges⟩

theorem LosesMe.listsAsLost (h : ctx.LosesMe hello.helloInfo) :
  ListsAsLost ctx.ownIp hello
  := by
  obtain ⟨info, hinfo, hme, hcode⟩ := linkcodeToMe_mem h.1
  exact ⟨info, hinfo, hme, by rw [hcode, h.2]⟩

/-- The relays chosen have the status of relays. -/
theorem MprSelected.status (h : ctx.MprSelected ctx') :
  ∀ a ∈ ctx'.mprTree, ctx'.getNeighborStatus a = .mprNeigh
  := by
  intro a ha
  obtain ⟨n, hn, hsym⟩ := h.relay a ha
  have hsearch := h.neighbor a
  rw [hn, Option.map_some, if_pos hsym, if_pos ha] at hsearch
  rw [getNeighborStatus, hsearch]
  rfl

/-- What a step that forgets nothing does to links, neighbours and relays. -/
theorem Steady.step_links {e : NodeEvent} (h : ctx.Steady) (hok : ctx.ForgetsNothing e)
    (hstep : nodeStep ctx e = some ctx') :
  SameLinks ctx ctx' ∨ ∃ now src msg hello ctx₁, e = .recv now src msg ∧
    msg.payload = .hello hello ∧ ¬ ListsAsLost ctx.ownIp hello ∧
    OlsrContext.processOlsrHello { ctx with clock := now } src src hello (meToReltime msg.vtime) =
      some ctx₁ ∧ Calm ctx₁ ctx'
  := by
  cases e with
  | work now currtime rand =>
      left
      rcases work_inv hok hstep with ⟨-, hcalm⟩ | ⟨-, hcalm⟩
      · apply hcalm.sameLinks
      · have hlinks := hcalm.sameLinks
        exact ⟨hlinks.ownIp, hlinks.localIfaceTree, hlinks.neighborTree, hlinks.mprTree,
          hlinks.selectorTree⟩
  | recv now src msg =>
      rcases recv_inv hstep with ⟨-, hcalm⟩ | ⟨handler, ctx₁, hhandler, hrun, hcalm⟩
      · left
        apply hcalm.sameLinks
      · rcases msgHandler_inv hhandler with ⟨hello, hpayload, rfl⟩ | ⟨tc, hpayload, rfl⟩
        · right
          obtain ⟨horig, hlost⟩ := hok hello hpayload
          rw [horig] at hrun
          exact ⟨now, src, msg, hello, ctx₁, rfl, hpayload, hlost, hrun, hcalm⟩
        · left
          obtain ⟨topo, hchange, -⟩ := processOlsrTc_inv hrun h.sound.notDuplicated
          have hlinks := hchange.sameLinks.1
          have hafter := hcalm.sameLinks
          exact ⟨hafter.ownIp.trans hlinks.ownIp, hafter.localIfaceTree.trans hlinks.localIfaceTree,
            hafter.neighborTree.trans hlinks.neighborTree, hafter.mprTree.trans hlinks.mprTree,
            hafter.selectorTree.trans hlinks.selectorTree⟩

theorem SameLinks.steady_links (h : SameLinks ctx ctx') (hheard : ctx.LinksHeard)
    (hstatus : ∀ a ∈ ctx.mprTree, ctx.getNeighborStatus a = .mprNeigh) :
  ctx'.LinksHeard ∧ ∀ a ∈ ctx'.mprTree, ctx'.getNeighborStatus a = .mprNeigh
  := by
  refine ⟨?_, ?_⟩
  · rwa [LinksHeard, h.searchLink]
  · intro a ha
    rw [h.mprTree] at ha
    rw [getNeighborStatus, h.neighborTree]
    apply hstatus a ha

theorem Steady.calm (h : ctx.Steady) (hcalm : Calm ctx ctx') (hsame : SameEntries ctx ctx') :
  ctx'.Steady
  := by
  obtain ⟨hheard, hstatus⟩ := hcalm.sameLinks.steady_links h.linksHeard h.status
  exact ⟨h.sound.quiet hcalm.toQuiet, h.held.same hsame, hheard, h.mprCurrent.quiet hcalm.toQuiet,
    hstatus, h.nearlyFresh.quiet hcalm.toQuiet⟩

theorem Steady.setClock (h : ctx.Steady) (now : Timespec) :
  OlsrContext.Steady { ctx with clock := now }
  := h.calm Calm.of_eq SameEntries.of_eq

/-- A step that forgets nothing keeps a node steady, and the node gets to know more. -/
theorem Steady.step {e : NodeEvent} (h : ctx.Steady) (hok : ctx.ForgetsNothing e)
    (hstep : nodeStep ctx e = some ctx') :
  ctx'.Steady ∧ Retains ctx ctx'
  := by
  have hlinks : ctx'.LinksHeard ∧ (∀ a ∈ ctx'.mprTree, ctx'.getNeighborStatus a = .mprNeigh) ∧
      Retains ctx ctx' := by
    rcases h.step_links hok hstep with
      hsame | ⟨now, src, msg, hello, ctx₅, -, -, hlost, hrun, hcalm⟩
    · obtain ⟨hheard, hstatus⟩ := hsame.steady_links h.linksHeard h.status
      exact ⟨hheard, hstatus, hsame.retains⟩
    · have hclock := h.setClock now
      obtain ⟨ctx₁, ctx₂, ctx₃, ctx₄, hst, hchanges⟩ := hclock.processOlsrHello hlost hrun
      obtain ⟨hheard, hstatus⟩ := hcalm.sameLinks.steady_links
        (hst.linksHeard hchanges hclock.linksHeard) hst.mpr.status
      refine ⟨hheard, hstatus, ?_⟩
      have hretains := hst.retains hchanges (fun hloses => hlost hloses.listsAsLost)
      apply (SameLinks.retains (Calm.of_eq : Calm ctx { ctx with clock := now }).sameLinks).trans
      apply hretains.trans hcalm.sameLinks.retains
  obtain ⟨hheard, hstatus, hretains⟩ := hlinks
  refine ⟨⟨h.sound.step hstep, (h.held.step h.sound hstep).1, hheard, ?_, hstatus,
    h.nearlyFresh.step h.sound hstep⟩, hretains⟩
  apply h.mprCurrent.step h.sound hok.keepsRelays hstep

/-! ### What a HELLO brings about -/

/-- What the HELLO of `src` has brought about: a link to `src`, a symmetric one and the two-hop
neighbours if `src` hears this node, and an MPR selector if this node is a relay of `src`. -/
structure Greeted (ctx ctx' : OlsrContext) (src : InAddr) (hello : HelloMsg) : Prop where
  link : ctx'.HasLink src
  sym : ctx.HearsMe hello.helloInfo → ctx'.HasSymLink src ∧
    ∀ x ∈ hello.helloInfo.flatMap HelloInfo.neighAddr, x ≠ ctx.ownIp →
      ctx'.searchNeigh2 src x ≠ none
  selector : linkcodeToMe ctx.ownIp hello.helloInfo ≠ statusUnavailable →
    extractStatus (linkcodeToMe ctx.ownIp hello.helloInfo) = NeighborStatus.mprNeigh.code →
    src ∈ ctx'.selectorTree

theorem Greeted.retains {ctx'' : OlsrContext} (h : Greeted ctx ctx' src hello)
    (hretains : Retains ctx' ctx'') :
  Greeted ctx ctx'' src hello
  := by
  constructor
  · apply hretains.link src h.link
  · intro hhears
    obtain ⟨hsym, hneigh2⟩ := h.sym hhears
    exact ⟨hretains.symLink src hsym, fun x hx hne => hretains.neigh2 src x (hneigh2 x hx hne)⟩
  · intro hcode hmpr
    apply hretains.selector src (h.selector hcode hmpr)

theorem HelloStages.mem_selectorTree
    (h : HelloStages ctx ctx₁ ctx₂ ctx₃ ctx₄ ctx' src src hello vtime)
    (hcode : linkcodeToMe ctx.ownIp hello.helloInfo ≠ statusUnavailable)
    (hmpr : extractStatus (linkcodeToMe ctx.ownIp hello.helloInfo) =
      NeighborStatus.mprNeigh.code) :
  src ∈ ctx'.selectorTree
  := by
  have hown₁ : ctx₁.ownIp = ctx.ownIp := h.local₁.ownIp
  have hdup₁ : NotDuplicated ctx₁.topologyTree := by
    rw [h.local₁.topologyTree]
    apply h.notDuplicated
  have hdup₂ : NotDuplicated ctx₂.topologyTree := by
    rw [h.local₂.topologyTree]
    apply hdup₁
  have h₂ : src ∈ ctx₂.selectorTree := by
    have hiface₀ : (ctx.findNeighbor src hello.willingness).ownIp ∈
        (ctx.findNeighbor src hello.willingness).localIfaceTree :=
      OrdMap.mem_insert.mpr (Or.inl rfl)
    obtain ⟨⟨link₁, p, q, hlink₁, -, hasym₁, -⟩, -⟩ :=
      touchLink_expiresAt h.backed₀ hiface₀ h.touch
    have hsrc₁ := h.consistent₁.neighbor _ _ link₁ hlink₁
    have hlinkset := h.linkset
    rw [populateLinkset, hown₁, if_neg hcode] at hlinkset
    obtain ⟨ctx₁', hlinkstat, hneighstat⟩ := Option.bind_eq_some_iff.mp hlinkset
    rw [if_pos hmpr] at hneighstat
    have hbacked := h.backed₁.of_populateLinkStatus hdup₁ hsrc₁ hlink₁ hasym₁ hlinkstat
    apply populateMprSelector_mem hbacked.elems hbacked.tree hneighstat
  have h₃ : src ∈ ctx₃.selectorTree := by
    rwa [(updateNeighborStatus_same h.status hdup₂).selectorTree]
  have h₄ : src ∈ ctx₄.selectorTree := by
    by_cases hsym : IsSymNeigh ctx₃.neighborTree src
    · obtain ⟨n, hn, -⟩ := id hsym
      obtain ⟨ctx₄', hctx₄', hchanges⟩ := h.backed₃.populateNeigh2set (OrdMap.mem_of_search hn)
        hello.helloInfo vtime False
      obtain rfl := Option.some.inj ((h.neigh2 hsym).symm.trans hctx₄')
      apply hchanges.selector_stays h₃
    · rwa [h.skip hsym]
  rwa [h.mpr.same.selectorTree]

theorem HelloStages.greeted
    (h : HelloStages ctx ctx₁ ctx₂ ctx₃ ctx₄ ctx' src src hello vtime) :
  Greeted ctx ctx' src hello
  := by
  obtain ⟨link₁, -, -, hsym, hsearch⟩ := h.searchLink
  have hlink₁ : ctx'.searchLink ctx.ownIp src = some link₁ := by
    rw [hsearch, if_pos ⟨rfl, rfl⟩]
  refine ⟨⟨ctx.ownIp, link₁, hlink₁⟩, ?_, h.mem_selectorTree⟩
  intro hhears
  refine ⟨⟨ctx.ownIp, link₁, hlink₁, hsym.mpr (Or.inl hhears)⟩, ?_⟩
  intro x hx hne
  obtain ⟨n2elem, hn2elem, -⟩ :=
    h.keepsExpiry.2.2 (h.isSymNeigh_after.mpr (Or.inl hhears)) x hx hne
  rw [hn2elem]
  simp

/-- A HELLO that a steady node hands to `process_olsr_hello`. -/
theorem Steady.greeted {now : Timespec} {msg : OlsrMsg} (h : ctx.Steady)
    (hok : ctx.ForgetsNothing (.recv now src msg)) (hpayload : msg.payload = .hello hello)
    (hprocesses : ctx.processesHello src msg = true)
    (hstep : nodeStep ctx (.recv now src msg) = some ctx') :
  Greeted ctx ctx' src hello
  := by
  obtain ⟨horig, hlost⟩ := hok hello hpayload
  rcases recv_inv hstep with ⟨hnone, -⟩ | ⟨handler, ctx₅, hhandler, hrun, hcalm⟩
  · rw [processesHello, hnone] at hprocesses
    contradiction
  · rcases msgHandler_inv hhandler with ⟨hello', hpayload', rfl⟩ | ⟨tc, hpayload', rfl⟩
    · obtain rfl := MsgPayload.hello.inj (hpayload.symm.trans hpayload')
      rw [horig] at hrun
      obtain ⟨ctx₁, ctx₂, ctx₃, ctx₄, hst, -⟩ := (h.setClock now).processOlsrHello hlost hrun
      have hgreeted := hst.greeted.retains hcalm.sameLinks.retains
      exact ⟨hgreeted.link, hgreeted.sym, hgreeted.selector⟩
    · rw [hpayload] at hpayload'
      contradiction

/-- A node that has just started is steady. -/
theorem olsrStart_steady {ownIp : InAddr} {now : Timespec} (h : olsrStart ownIp now = some ctx) :
  ctx.Steady
  := by
  have hheld : ctx.Held none := olsrStart_held h
  obtain ⟨tq, htq⟩ := olsrStart_inv h
  refine ⟨olsrStart_sound h, hheld, ?_, olsrStart_mprCurrent h, ?_, olsrStart_nearlyFresh h⟩
  · intro i a link hlink
    rw [htq] at hlink
    contradiction
  · intro a ha
    rw [htq] at ha
    apply absurd ha (OrdMap.not_mem_empty a)

/-! ### What a HELLO lists -/

/-- Every link is listed. -/
theorem exists_listed (h : ctx.Sound) {a : InAddr} (ha : ctx.HasLink a) :
  ∃ info ∈ ctx.helloWriteLinks, a ∈ info.neighAddr
  := by
  obtain ⟨i, link, hlink⟩ := ha
  obtain ⟨ielem, hielem, hlelem⟩ := Option.bind_eq_some_iff.mp hlink
  obtain ⟨n, hn⟩ := OrdMap.mem_iff.mp (h.consistent.neighbor i a link hlink)
  have hstatus : ctx.getNeighborStatus a ≠ .unavailable := by
    rw [getNeighborStatus, hn]
    apply (h.consistent.status a n hn (by simp)).1
  have hnstat : ∃ nstat ∈ List.range neighborStatusEnd,
      BitVec.ofNat 8 nstat = (ctx.getNeighborStatus a).code := by
    cases hcode : ctx.getNeighborStatus a with
    | notNeigh => exact ⟨0, by decide, rfl⟩
    | symNeigh => exact ⟨1, by decide, rfl⟩
    | mprNeigh => exact ⟨2, by decide, rfl⟩
    | unavailable => contradiction
  have hlstat : ∃ lstat ∈ List.range linkStatusEnd, BitVec.ofNat 8 lstat = link.status.code := by
    cases link.status with
    | unspecLink => exact ⟨0, by decide, rfl⟩
    | asymLink => exact ⟨1, by decide, rfl⟩
    | symLink => exact ⟨2, by decide, rfl⟩
    | lostLink => exact ⟨3, by decide, rfl⟩
  obtain ⟨nstat, hnstat, hncode⟩ := hnstat
  obtain ⟨lstat, hlstat, hlcode⟩ := hlstat
  let neighAddr := ctx.localIfaceTree.entries.flatMap (fun ielem =>
    (ielem.2.ifaceLinkTree.entries.filter (fun lelem =>
      ctx.getNeighborStatus lelem.1 ≠ .unavailable ∧
        createLinkCode (ctx.getNeighborStatus lelem.1).code lelem.2.status.code =
          createLinkCode (.ofNat 8 nstat) (.ofNat 8 lstat))).map Prod.fst)
  have hmem : a ∈ neighAddr := by
    apply List.mem_flatMap.mpr
    refine ⟨(i, ielem), OrdMap.search_eq_some.mp hielem, ?_⟩
    apply List.mem_map.mpr
    refine ⟨(a, link), ?_, rfl⟩
    apply List.mem_filter.mpr
    refine ⟨OrdMap.search_eq_some.mp hlelem, decide_eq_true ⟨hstatus, ?_⟩⟩
    rw [hncode, hlcode]
  refine ⟨⟨createLinkCode (.ofNat 8 nstat) (.ofNat 8 lstat), neighAddr⟩, ?_, hmem⟩
  simp only [helloWriteLinks, List.mem_flatMap]
  refine ⟨nstat, hnstat, lstat, hlstat, ?_⟩
  rw [helloWriteLinksWithCode]
  split_ifs with hempty
  · have hnil : neighAddr = [] := List.length_eq_zero_iff.mp hempty
    rw [hnil] at hmem
    contradiction
  · apply List.mem_singleton_self

/-- The code under which an address is listed is made of the statuses of the neighbour and of one
of its links. -/
theorem listed_code {info : HelloInfo} {a : InAddr} (hinfo : info ∈ ctx.helloWriteLinks)
    (ha : a ∈ info.neighAddr) :
  ∃ i link, ctx.searchLink i a = some link ∧ ctx.getNeighborStatus a ≠ .unavailable ∧
    info.linkCode = createLinkCode (ctx.getNeighborStatus a).code link.status.code
  := by
  simp only [helloWriteLinks, List.mem_flatMap, helloWriteLinksWithCode] at hinfo
  obtain ⟨nstat, -, lstat, -, hinfo⟩ := hinfo
  split_ifs at hinfo
  · contradiction
  · obtain rfl := List.mem_singleton.mp hinfo
    simp only [List.mem_flatMap, List.mem_map, List.mem_filter, decide_eq_true_eq] at ha
    obtain ⟨⟨iface, ielem⟩, hiface, ⟨a', link⟩, ⟨hlink, hstatus, hcode⟩, rfl⟩ := ha
    refine ⟨iface, link, ?_, hstatus, hcode.symm⟩
    rw [OlsrContext.searchLink, OrdMap.search_eq_some.mpr hiface]
    apply OrdMap.search_eq_some.mpr hlink

theorem createLinkCode_ne_unavailable {nstat : NeighborStatus} (h : nstat ≠ .unavailable)
    (lstat : LinkStatus) :
  createLinkCode nstat.code lstat.code ≠ statusUnavailable
  := by
  cases nstat with
  | unavailable => contradiction
  | _ => cases lstat <;> decide

/-- An address that is listed finds a code for itself. -/
theorem linkcodeToMe_ne {ownIp : InAddr} {helloInfo : List HelloInfo}
    (hcode : ∀ info ∈ helloInfo, ownIp ∈ info.neighAddr → info.linkCode ≠ statusUnavailable)
    (hlisted : ∃ info ∈ helloInfo, ownIp ∈ info.neighAddr) :
  linkcodeToMe ownIp helloInfo ≠ statusUnavailable
  := by
  induction helloInfo with
  | nil =>
      obtain ⟨info, hinfo, -⟩ := hlisted
      contradiction
  | cons info rest ih =>
      rw [linkcodeToMe]
      split_ifs with hme
      · apply hme.2
      · apply ih (fun info' hinfo' => hcode info' (List.mem_cons_of_mem _ hinfo'))
        obtain ⟨info', hinfo', hmem⟩ := hlisted
        rcases List.mem_cons.mp hinfo' with rfl | hrest
        · apply absurd ⟨hmem, hcode info' List.mem_cons_self hmem⟩ hme
        · exact ⟨info', hrest, hmem⟩

/-- What the HELLO of a steady node says to a neighbour with a link: that it is heard, and whether
it is a relay. -/
theorem Steady.linkcodeToMe (h : ctx.Steady) {a : InAddr} (ha : ctx.HasLink a) :
  OlsrContext.linkcodeToMe a ctx.helloWriteLinks ≠ statusUnavailable ∧
    (extractLink (OlsrContext.linkcodeToMe a ctx.helloWriteLinks) = LinkStatus.symLink.code ∨
      extractLink (OlsrContext.linkcodeToMe a ctx.helloWriteLinks) = LinkStatus.asymLink.code) ∧
    (a ∈ ctx.mprTree → extractStatus (OlsrContext.linkcodeToMe a ctx.helloWriteLinks) =
      NeighborStatus.mprNeigh.code)
  := by
  have hne : OlsrContext.linkcodeToMe a ctx.helloWriteLinks ≠ statusUnavailable := by
    apply linkcodeToMe_ne _ (exists_listed h.sound ha)
    intro info hinfo hmem
    obtain ⟨i, link, -, hstatus, hcode⟩ := listed_code hinfo hmem
    rw [hcode]
    apply createLinkCode_ne_unavailable hstatus
  obtain ⟨info, hinfo, hmem, hcode⟩ := linkcodeToMe_mem hne
  obtain ⟨i, link, hlink, hstatus, hcode'⟩ := listed_code hinfo hmem
  rw [← hcode, hcode', extractLink_createLinkCode _ _ hstatus,
    extractStatus_createLinkCode _ _ hstatus]
  refine ⟨createLinkCode_ne_unavailable hstatus _, ?_, ?_⟩
  · rcases h.linksHeard i a link hlink with hasym | hsym
    · right
      rw [hasym]
    · left
      rw [hsym]
  · intro hmpr
    rw [h.status a hmpr]

/-- The HELLO of a steady node does not report a loss. -/
theorem Steady.not_listsAsLost (h : ctx.Steady) (a : InAddr) :
  ¬ ListsAsLost a ctx.buildOlsrHello
  := by
  rintro ⟨info, hinfo, hmem, hlost⟩
  obtain ⟨i, link, hlink, hstatus, hcode⟩ := listed_code hinfo hmem
  rw [hcode, extractLink_createLinkCode _ _ hstatus] at hlost
  rcases h.linksHeard i a link hlink with hasym | hsym
  · rw [hasym] at hlost
    contradiction
  · rw [hsym] at hlost
    contradiction

end OlsrContext
