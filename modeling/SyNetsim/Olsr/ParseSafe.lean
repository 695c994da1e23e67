import SyNetsim.Olsr.LinkTimers
import SyNetsim.Olsr.Parse

/-!
# When received packets are parsed safely

The loop of `handle_route_pkt` checks nothing against the length of the packet. It comes to the end
of the packet without a fault, and processes only messages that have the size of a header and lie
in the packet, exactly when every message it comes to fits (`MsgFits`) in the state in which it
comes to it: `parsedSafely_iff_pktFits`, for the states of every run (`pktStep`).
-/

namespace OlsrContext

/-! ### Whether the sender of a HELLO becomes symmetric -/

/-- The link of `iface` to `addr` is symmetric. -/
def SymLinkAt (ctx : OlsrContext) (iface addr : InAddr) : Prop :=
  ∃ link, ctx.searchLink iface addr = some link ∧ link.status = .symLink

theorem SymLinkAt.congr {ctx ctx' : OlsrContext}
    (h : ∀ i a, ctx'.searchLink i a = ctx.searchLink i a) (iface addr : InAddr) :
  ctx'.SymLinkAt iface addr ↔ ctx.SymLinkAt iface addr
  := by
  rw [SymLinkAt, h, SymLinkAt]

/-- Writing to a link decides whether it is symmetric. -/
theorem symLinkAt_setLink {ctx : OlsrContext} {iface addr : InAddr} {old : LinkElem}
    (hold : ctx.searchLink iface addr = some old) (tq : TimerqueueContext Callback)
    (link : LinkElem) (i a : InAddr) :
  (OlsrContext.setLink { ctx with timerqueue := tq } iface addr link).SymLinkAt i a ↔
    if i = iface ∧ a = addr then link.status = .symLink else ctx.SymLinkAt i a
  := by
  have hold' : OlsrContext.searchLink { ctx with timerqueue := tq } iface addr = some old := hold
  rw [SymLinkAt, searchLink_setLink, hold']
  split_ifs with hkey
  · simp
  · rfl

/-- Setting the timer `asym_timer` does not decide whether a link is symmetric. -/
theorem symLinkAt_setLink_asym {ctx : OlsrContext} {iface addr : InAddr} {old link : LinkElem}
    (hold : ctx.searchLink iface addr = some old) (hstatus : link.status = old.status)
    (tq : TimerqueueContext Callback) (timer : Option ℕ) (i a : InAddr) :
  (OlsrContext.setLink { ctx with timerqueue := tq } iface addr { link with
    status := if link.status ≠ .symLink then .asymLink else link.status
    asymTimer := timer }).SymLinkAt i a ↔ ctx.SymLinkAt i a
  := by
  rw [symLinkAt_setLink hold]
  by_cases hkey : i = iface ∧ a = addr
  · rw [if_pos hkey, SymLinkAt, hkey.1, hkey.2, hold]
    by_cases hsym : old.status = .symLink <;> simp [hstatus, hsym]
  · rw [if_neg hkey]

/-- Setting the timers `expire_timer` and `asym_timer` makes no link symmetric or not. -/
theorem touchLink_symLinkAt {ctx ctx' : OlsrContext} {src : InAddr} {vtime : ℕ}
    (hiface : ctx.ownIp ∈ ctx.localIfaceTree) (h : ctx.touchLink src vtime = some ctx')
    (i a : InAddr) :
  ctx'.SymLinkAt i a ↔ ctx.SymLinkAt i a
  := by
  simp only [touchLink, findLink, Option.bind_eq_bind, Option.bind_eq_some_iff,
    Option.pure_def] at h
  obtain ⟨⟨link, ctx₁⟩, hfind, ⟨link', ctx₂⟩, hasym, h⟩ := h
  simp only [linkElemAsymTimerSet, Option.bind_eq_bind, Option.bind_eq_some_iff, Option.pure_def,
    Option.some.injEq, Prod.mk.injEq] at hasym
  obtain ⟨⟨timer, tq⟩, -, rfl, rfl⟩ := hasym
  obtain rfl := Option.some.inj h
  cases hlink : ctx.searchLink ctx.ownIp src with
  | none =>
      simp only [hlink, Option.bind_eq_some_iff, Option.some.injEq, Prod.mk.injEq,
        makeLinkElem] at hfind
      obtain ⟨⟨link, ctx₂⟩, hmake, rfl, rfl⟩ := hfind
      obtain ⟨timer', tq', rfl, rfl⟩ := linkElemExpireTimerSet_inv hmake
      clear hmake
      let ctx₃ : OlsrContext := { ctx with nextId := ctx.nextId + 1, timerqueue := tq' }
      let link₀ : LinkElem := ⟨ctx.nextId, ctx.ownIp, .lostLink, none, none, timer'⟩
      have hsearch : ∀ i a, (ctx₃.insertLink ctx.ownIp src link₀).searchLink i a =
          if i = ctx.ownIp ∧ a = src then some link₀ else ctx.searchLink i a :=
        searchLink_insertLink ctx₃ link₀ hiface hlink
      have hnew := (hsearch ctx.ownIp src).trans (if_pos ⟨rfl, rfl⟩)
      refine (symLinkAt_setLink_asym hnew rfl tq timer i a).trans ?_
      rw [SymLinkAt, hsearch]
      split_ifs with hkey
      · rw [SymLinkAt, hkey.1, hkey.2, hlink]
        simp [link₀]
      · rfl
  | some link₀ =>
      rw [hlink] at hfind
      obtain ⟨timer', tq', rfl, rfl⟩ := linkElemExpireTimerSet_inv hfind
      have hstatus : ({ link₀ with expireTimer := timer' } : LinkElem).status = link₀.status := rfl
      apply symLinkAt_setLink_asym hlink hstatus

/-- A HELLO with the link code `code` for this node says that the sender hears it. -/
def SaysHeard (code : BitVec 8) : Prop :=
  code ≠ statusUnavailable ∧ (extractLink code = LinkStatus.symLink.code ∨
    extractLink code = LinkStatus.asymLink.code)

/-- A HELLO with the link code `code` for this node says that the link is lost. -/
def SaysLost (code : BitVec 8) : Prop :=
  code ≠ statusUnavailable ∧ extractLink code = LinkStatus.lostLink.code

/-- `populate_linkset` makes the link to the sender symmetric or not by the link code. -/
theorem populateLinkset_symLinkAt {ctx ctx' : OlsrContext} {src orig : InAddr}
    {infos : List HelloInfo} {vtime : ℕ} (hdup : NotDuplicated ctx.topologyTree)
    (h : ctx.populateLinkset src orig infos vtime = some ctx') (i a : InAddr) :
  ctx'.SymLinkAt i a ↔
    if i = ctx.ownIp ∧ a = src then SaysHeard (linkcodeToMe ctx.ownIp infos) ∨
      ctx.SymLinkAt i a ∧ ¬ SaysLost (linkcodeToMe ctx.ownIp infos)
    else ctx.SymLinkAt i a
  := by
  rw [populateLinkset] at h
  by_cases hcode : linkcodeToMe ctx.ownIp infos = statusUnavailable
  · rw [if_pos hcode] at h
    obtain rfl := Option.some.inj h
    simp [SaysHeard, SaysLost, hcode]
  · rw [if_neg hcode] at h
    obtain ⟨ctx₁, hlinkstat, hneighstat⟩ := Option.bind_eq_some_iff.mp h
    have hselector : ctx'.SymLinkAt i a ↔ ctx₁.SymLinkAt i a := by
      split_ifs at hneighstat
      · obtain ⟨tq, nextId, elems, selectors, rfl⟩ := populateMprSelector_inv hneighstat
        rfl
      · obtain rfl := Option.some.inj hneighstat
        rfl
    rw [hselector]
    rw [populateLinkStatus] at hlinkstat
    split_ifs at hlinkstat with hsym hlost
    · simp only [setSymLink, Option.bind_eq_bind, Option.bind_eq_some_iff,
        Option.pure_def] at hlinkstat
      obtain ⟨link, hlink, ⟨link', ctx₂⟩, hset, hlinkstat⟩ := hlinkstat
      obtain ⟨timer, tq, rfl, rfl⟩ := linkElemSymTimerSet_inv hset
      obtain rfl := Option.some.inj hlinkstat
      refine (symLinkAt_setLink hlink _ _ i a).trans ?_
      simp [SaysHeard, hcode, hsym]
    · simp only [setLostLink, symLinkTimerExpire, Option.bind_eq_bind,
        Option.bind_eq_some_iff] at hlinkstat
      obtain ⟨link, hlink, symTimer, -, -, -, link', -, -, -, asymElem, -, hupdate⟩ := hlinkstat
      refine (SymLinkAt.congr (updateNeighborStatus_same hupdate hdup).searchLink i a).trans ?_
      refine (symLinkAt_setLink hlink _ _ i a).trans ?_
      have hheard : ¬ SaysHeard (linkcodeToMe ctx.ownIp infos) := fun hheard => hsym hheard.2
      have hsaysLost : SaysLost (linkcodeToMe ctx.ownIp infos) := ⟨hcode, hlost⟩
      split_ifs <;> simp [hheard, hsaysLost]
    · obtain rfl := Option.some.inj hlinkstat
      have hheard : ¬ SaysHeard (linkcodeToMe ctx.ownIp infos) := fun hheard => hsym hheard.2
      have hsaysLost : ¬ SaysLost (linkcodeToMe ctx.ownIp infos) := fun hsays => hlost hsays.2
      simp [hheard, hsaysLost]

/-- After a HELLO with the link code `code` for this node the sender is symmetric: it hears this
node, or has a symmetric link that it does not call lost. -/
def BecomesSym (ctx : OlsrContext) (src : InAddr) (code : BitVec 8) : Prop :=
  SaysHeard code ∨ ∃ iface, ctx.SymLinkAt iface src ∧ ¬ (iface = ctx.ownIp ∧ SaysLost code)

/-- `process_olsr_hello` goes on to the two-hop neighbours exactly if the sender becomes
symmetric. -/
theorem isSym_iff_becomesSym {ctx ctx₁ ctx₂ ctx₃ : OlsrContext} (hsound : ctx.Sound)
    {src orig : InAddr} {willingness : BitVec 8} {infos : List HelloInfo} {vtime : ℕ}
    {neigh : NeighborElem}
    (htouch : (ctx.findNeighbor src willingness).touchLink src vtime = some ctx₁)
    (hlinkset : ctx₁.populateLinkset src orig infos vtime = some ctx₂)
    (hupdate : ctx₂.updateNeighborStatus src = some ctx₃)
    (hneigh : ctx₃.neighborTree.search src = some neigh) :
  neigh.status.isSym = true ↔ ctx.BecomesSym src (linkcodeToMe ctx.ownIp infos)
  := by
  have hiface : (ctx.findNeighbor src willingness).ownIp ∈
      (ctx.findNeighbor src willingness).localIfaceTree := OrdMap.mem_insert.mpr (Or.inl rfl)
  obtain ⟨hc₁, hlocal₁⟩ := (hsound.consistent.findNeighbor src willingness).touchLink hiface
    (OrdMap.mem_insert.mpr (Or.inl rfl)) htouch
  have hdup₁ : NotDuplicated ctx₁.topologyTree := by
    rw [hlocal₁.topologyTree]
    apply hsound.notDuplicated
  obtain ⟨hc₂, hlocal₂⟩ := hc₁.populateLinkset hdup₁ hlinkset
  have hdup₂ : NotDuplicated ctx₂.topologyTree := by
    rw [hlocal₂.topologyTree]
    apply hdup₁
  have hc₃ := hc₂.updateNeighborStatus hupdate hdup₂
  have hown₁ : ctx₁.ownIp = ctx.ownIp := hlocal₁.ownIp
  have hlinks : ∀ i a, ctx₃.SymLinkAt i a ↔
      if i = ctx.ownIp ∧ a = src then SaysHeard (linkcodeToMe ctx.ownIp infos) ∨
        ctx.SymLinkAt i a ∧ ¬ SaysLost (linkcodeToMe ctx.ownIp infos)
      else ctx.SymLinkAt i a := by
    intro i a
    have hold : ctx₁.SymLinkAt i a ↔ ctx.SymLinkAt i a :=
      (touchLink_symLinkAt hiface htouch i a).trans
        (SymLinkAt.congr (searchLink_findNeighbor ctx src willingness) i a)
    rw [SymLinkAt.congr (updateNeighborStatus_same hupdate hdup₂).searchLink,
      populateLinkset_symLinkAt hdup₁ hlinkset, hold, hown₁]
  rw [(hc₃.status src neigh hneigh (by simp)).2]
  constructor
  · rintro ⟨i, link, hlink, hstatus⟩
    have hsym := (hlinks i src).mp ⟨link, hlink, hstatus⟩
    split_ifs at hsym with hi
    · rcases hsym with hheard | ⟨hsym, hlost⟩
      · left
        apply hheard
      · right
        exact ⟨i, hsym, fun hboth => hlost hboth.2⟩
    · right
      exact ⟨i, hsym, fun hboth => hi ⟨hboth.1, rfl⟩⟩
  · rintro (hheard | ⟨i, hsym, hlost⟩)
    · have hlink : ctx₃.SymLinkAt ctx.ownIp src := by
        rw [hlinks, if_pos ⟨rfl, rfl⟩]
        left
        apply hheard
      obtain ⟨link, hlink, hstatus⟩ := hlink
      exact ⟨ctx.ownIp, link, hlink, hstatus⟩
    · have hlink : ctx₃.SymLinkAt i src := by
        rw [hlinks]
        split_ifs with hi
        · right
          exact ⟨hsym, fun hsays => hlost ⟨hi.1, hsays⟩⟩
        · apply hsym
      obtain ⟨link, hlink, hstatus⟩ := hlink
      exact ⟨i, link, hlink, hstatus⟩

/-! ### HELLO messages -/

/-- A HELLO at `hello` can be processed: its fixed part lies in the packet, and so do its groups up
to this node's address; if they call the link lost, it has a timer `sym_timer`; and if the sender
becomes symmetric, all groups lie in the packet. -/
def HelloFits (ctx : OlsrContext) (data : List Byte) (src : InAddr) (hello msgsize : ℕ) : Prop :=
  hello + 3 < data.length ∧
  ∃ code, Walk (some ctx.ownIp) data (hello + 4 + helloInfoLen msgsize) (hello + 4) code ∧
    (SaysLost code → (ctx.searchLink ctx.ownIp src).bind LinkElem.symTimer ≠ none) ∧
    (ctx.BecomesSym src code →
      ∃ code', Walk none data (hello + 4 + helloInfoLen msgsize) (hello + 4) code')

/-- `populate_linkset` depends on the link code it finds only. -/
theorem populateLinkset_congr (ctx : OlsrContext) (src orig : InAddr)
    {infos infos' : List HelloInfo} (vtime : ℕ)
    (h : linkcodeToMe ctx.ownIp infos' = linkcodeToMe ctx.ownIp infos) :
  ctx.populateLinkset src orig infos' vtime = ctx.populateLinkset src orig infos vtime
  := by
  rw [populateLinkset, h, populateLinkset]

/-- A HELLO that is processed fits, and is processed as the groups that are read. -/
theorem processOlsrHelloAt_inv {ctx ctx' : OlsrContext} (h : ctx.Backed) (hsound : ctx.Sound)
    {data : List Byte} {src orig : InAddr} {hello vtime msgsize : ℕ}
    (hstep : ctx.processOlsrHelloAt data src orig hello vtime msgsize = .ok ctx') :
  ctx.HelloFits data src hello msgsize ∧
    ∃ msg, ctx.processOlsrHello src orig msg vtime = some ctx'
  := by
  simp only [processOlsrHelloAt, except_bind_eq_ok, orFault_eq_ok] at hstep
  obtain ⟨willingness, hwill, ctx₁, htouch, infos, hinfos, ctx₂, hlinkset, ctx₃, hupdate, neigh,
    hneigh, ctx₄, hneigh2, hmpr⟩ := hstep
  have hlocal₁ := ((hsound.consistent.findNeighbor src willingness).touchLink
    (OrdMap.mem_insert.mpr (Or.inl rfl)) (OrdMap.mem_insert.mpr (Or.inl rfl)) htouch).2
  have hown₁ : ctx₁.ownIp = ctx.ownIp := hlocal₁.ownIp
  rw [hown₁] at hinfos
  have hwalk := walk_of_readInfos (Nat.le_refl _) hinfos
  have hsym := isSym_iff_becomesSym hsound htouch hlinkset hupdate hneigh
  obtain ⟨msg, hcode, hrun, hrest⟩ : ∃ msg : HelloMsg,
      linkcodeToMe ctx.ownIp msg.helloInfo = linkcodeToMe ctx.ownIp infos ∧
      ctx.processOlsrHello src orig msg vtime = some ctx' ∧
      (neigh.status.isSym = true →
        ∃ code', Walk none data (hello + 4 + helloInfoLen msgsize) (hello + 4) code') := by
    split_ifs at hneigh2 with hs
    · simp only [populateNeigh2setAt, except_bind_eq_ok, orFault_eq_ok] at hneigh2
      obtain ⟨infos', hinfos', hneigh2⟩ := hneigh2
      have hcode : linkcodeToMe ctx.ownIp infos' = linkcodeToMe ctx.ownIp infos :=
        hwalk.linkcodeToMe_eq (Nat.le_refl _) hinfos'
      have hlinkset' : ctx₁.populateLinkset src orig infos' vtime = some ctx₂ := by
        rw [← hlinkset]
        apply populateLinkset_congr
        rw [hown₁, hcode]
      refine ⟨⟨0, willingness, infos'⟩, hcode, ?_,
        fun _ => ⟨_, walk_of_readInfos (Nat.le_refl _) hinfos'⟩⟩
      simp only [processOlsrHello, htouch, hlinkset', hupdate, hneigh, hs, if_true, hneigh2,
        Option.bind_eq_bind, Option.bind_some, hmpr]
    · obtain rfl := Except.ok.inj hneigh2
      refine ⟨⟨0, willingness, infos⟩, rfl, ?_, fun hs' => absurd hs' hs⟩
      simp only [processOlsrHello, htouch, hlinkset, hupdate, hneigh, if_neg hs,
        Option.bind_eq_bind, Option.bind_some, hmpr]
  refine ⟨⟨(List.getElem?_eq_some_iff.mp hwill).1, _, hwalk, ?_, ?_⟩, msg, hrun⟩
  · intro hlost hnull
    have hfollows : ctx.FollowsNull src msg.helloInfo := by
      rw [FollowsNull, hcode]
      exact ⟨hlost.1, hlost.2, hnull⟩
    rw [h.processOlsrHello_null hsound src orig hfollows vtime] at hrun
    contradiction
  · intro hbecomes
    apply hrest (hsym.mpr hbecomes)

/-- A HELLO that fits is processed. -/
theorem HelloFits.processOlsrHelloAt {ctx : OlsrContext} (h : ctx.Backed) (hsound : ctx.Sound)
    {data : List Byte} {src : InAddr} {hello msgsize : ℕ}
    (hfits : ctx.HelloFits data src hello msgsize) (orig : InAddr) (vtime : ℕ) :
  ∃ ctx', ctx.processOlsrHelloAt data src orig hello vtime msgsize = .ok ctx'
  := by
  obtain ⟨hlt, code, hwalk, hnull, hrest⟩ := hfits
  obtain ⟨infos, hinfos, hcode⟩ := walk_iff.mp hwalk
  have hcode' : linkcodeToMe ctx.ownIp infos = code := hcode
  obtain ⟨willingness, hwill⟩ : ∃ willingness, data[hello + 3]? = some willingness :=
    ⟨_, List.getElem?_eq_getElem hlt⟩
  -- The groups that are read in the end.
  obtain ⟨infos', hread, hcode''⟩ : ∃ infos', (ctx.BecomesSym src code →
      readInfos none data (hello + 4) (helloInfoLen msgsize) (hello + 4) = some infos') ∧
      linkcodeToMe ctx.ownIp infos' = code := by
    by_cases hbecomes : ctx.BecomesSym src code
    · obtain ⟨code', hwalk'⟩ := hrest hbecomes
      obtain ⟨infos', hinfos', -⟩ := walk_iff.mp hwalk'
      exact ⟨infos', fun _ => hinfos', hwalk.linkcodeToMe_eq (Nat.le_refl _) hinfos'⟩
    · exact ⟨infos, fun hbecomes' => absurd hbecomes' hbecomes, hcode'⟩
  have hfollows : ¬ ctx.FollowsNull src infos' := by
    rw [FollowsNull, hcode'']
    rintro ⟨hne, hlost, hsym⟩
    apply hnull ⟨hne, hlost⟩ hsym
  have hforeign : ¬ True → src = orig ∧ ¬ ListsAsLost ctx.ownIp ⟨0, willingness, infos'⟩ := by
    intro hnot
    apply absurd trivial hnot
  obtain ⟨ctx', hrun, -⟩ := h.processOlsrHello hsound src orig hforeign hfollows vtime
  use ctx'
  simp only [OlsrContext.processOlsrHello, Option.bind_eq_bind, Option.bind_eq_some_iff] at hrun
  obtain ⟨ctx₁, htouch, ctx₂, hlinkset, ctx₃, hupdate, neigh, hneigh, hrun⟩ := hrun
  have hlocal₁ := ((hsound.consistent.findNeighbor src willingness).touchLink
    (OrdMap.mem_insert.mpr (Or.inl rfl)) (OrdMap.mem_insert.mpr (Or.inl rfl)) htouch).2
  have hown₁ : ctx₁.ownIp = ctx.ownIp := hlocal₁.ownIp
  have hsym := isSym_iff_becomesSym hsound htouch hlinkset hupdate hneigh
  rw [hcode''] at hsym
  have hlinkset' : ctx₁.populateLinkset src orig infos vtime = some ctx₂ := by
    rw [← hlinkset]
    apply populateLinkset_congr
    rw [hown₁, hcode', hcode'']
  simp only [OlsrContext.processOlsrHelloAt, except_bind_eq_ok, orFault_eq_ok]
  refine ⟨willingness, hwill, ctx₁, htouch, infos, by rw [hown₁]; apply hinfos, ctx₂, hlinkset',
    ctx₃, hupdate, neigh, hneigh, ?_⟩
  split_ifs at hrun ⊢ with hs
  · obtain ⟨ctx₄, hneigh2, hmpr⟩ := Option.bind_eq_some_iff.mp hrun
    refine ⟨ctx₄, ?_, hmpr⟩
    simp only [populateNeigh2setAt, except_bind_eq_ok, orFault_eq_ok]
    exact ⟨infos', hread (hsym.mp hs), hneigh2⟩
  · exact ⟨ctx₃, rfl, hrun⟩

/-! ### TC messages -/

/-- A TC at `msg` can be processed: if the sender is a symmetric neighbour, the field `ansn` lies in
the packet. -/
def TcFits (ctx : OlsrContext) (data : List Byte) (src : InAddr) (msg : ℕ) : Prop :=
  ∀ neigh, ctx.neighborTree.search src = some neigh → neigh.status.isSym = true →
    msg + 1 < data.length

/-- A TC that is processed fits, and is processed as the addresses that are read. -/
theorem processOlsrTcAt_inv {ctx ctx' : OlsrContext} {data : List Byte} {msg tcSize : ℕ}
    {src orig : InAddr} {vtime : ℕ}
    (hstep : ctx.processOlsrTcAt data msg tcSize src orig vtime = .ok ctx') :
  ctx.TcFits data src msg ∧ ∃ tc, ctx.processOlsrTc tc src orig vtime = some ctx'
  := by
  rw [processOlsrTcAt] at hstep
  cases hsearch : ctx.neighborTree.search src with
  | none =>
      simp only [hsearch] at hstep
      obtain rfl := Except.ok.inj hstep
      refine ⟨?_, ⟨0, []⟩, ?_⟩
      · intro neigh hneigh
        rw [hsearch] at hneigh
        contradiction
      · simp only [processOlsrTc, hsearch]
  | some neigh =>
      simp only [hsearch] at hstep
      split_ifs at hstep with hsym
      · simp only [except_bind_eq_ok, orFault_eq_ok] at hstep
        obtain ⟨ansn, hansn, addrs, -, hrun⟩ := hstep
        refine ⟨?_, ⟨ansn, addrs⟩, hrun⟩
        intro _ _ _
        apply exists_be16At.mp ⟨ansn, hansn⟩
      · obtain rfl := Except.ok.inj hstep
        refine ⟨?_, ⟨0, []⟩, ?_⟩
        · intro neigh' hneigh' hsym'
          obtain rfl := Option.some.inj (hsearch.symm.trans hneigh')
          contradiction
        · simp only [processOlsrTc, hsearch, if_neg hsym]

/-- A TC that fits is processed. -/
theorem TcFits.processOlsrTcAt {ctx : OlsrContext} (h : ctx.Backed) (hsound : ctx.Sound)
    {data : List Byte} {src : InAddr} {msg : ℕ} (hfits : ctx.TcFits data src msg) {tcSize : ℕ}
    (hin : msg + tcSize ≤ data.length) (orig : InAddr) (vtime : ℕ) :
  ∃ ctx', ctx.processOlsrTcAt data msg tcSize src orig vtime = .ok ctx'
  := by
  rw [OlsrContext.processOlsrTcAt]
  cases hsearch : ctx.neighborTree.search src with
  | none => exact ⟨ctx, rfl⟩
  | some neigh =>
      dsimp only
      split_ifs with hsym
      · obtain ⟨ansn, hansn⟩ := exists_be16At.mpr (hfits neigh hsearch hsym)
        obtain ⟨addrs, haddrs⟩ : ∃ addrs,
            readAddrs none data (msg + 4) (tcSize / 4 - 1) = some addrs := by
          by_cases hsize : tcSize / 4 - 1 = 0
          · rw [hsize]
            exact ⟨[], rfl⟩
          · apply (exists_readAddrs (by omega)).mpr
            right
            omega
        obtain ⟨addrs', haddrs'⟩ : ∃ addrs', (if ctx.isOldTc orig ansn then .ok []
            else orFault .outside (readAddrs none data (msg + 4) (tcSize / 4 - 1))) =
            (.ok addrs' : Except Fault (List InAddr)) := by
          split_ifs
          · exact ⟨[], rfl⟩
          · rw [haddrs]
            exact ⟨addrs, rfl⟩
        obtain ⟨ctx', hrun, -⟩ := h.processOlsrTc hsound.notDuplicated ⟨ansn, addrs'⟩ src orig
          vtime True
        use ctx'
        simp only [except_bind_eq_ok, orFault_eq_ok]
        exact ⟨ansn, hansn, addrs', haddrs', hrun⟩
      · exact ⟨ctx, rfl⟩

/-! ### What is held -/

/-- What a node keeps true while it goes through a packet. -/
def Kept (ctx : OlsrContext) : Prop := ctx.Sound ∧ ctx.Held none

theorem Kept.processOlsrHello {ctx ctx' : OlsrContext} (h : ctx.Kept) {src orig : InAddr}
    {msg : HelloMsg} {vtime : ℕ} (hrun : ctx.processOlsrHello src orig msg vtime = some ctx') :
  ctx'.Kept
  := by
  have hhandler : (Handler.hello src orig msg vtime).run ctx = some ctx' := hrun
  refine ⟨h.1.handler hhandler, ?_⟩
  have hfollows : ¬ ctx.FollowsNull src msg.helloInfo := by
    intro hfollows
    rw [h.2.backed.processOlsrHello_null h.1 src orig hfollows vtime] at hrun
    contradiction
  have hforeign : ¬ True → src = orig ∧ ¬ ListsAsLost ctx.ownIp msg := by
    intro hnot
    apply absurd trivial hnot
  obtain ⟨ctx'', hctx'', hchanges⟩ := h.2.backed.processOlsrHello h.1 src orig hforeign hfollows
    vtime
  obtain rfl := Option.some.inj (hctx''.symm.trans hrun)
  apply h.2.changes hchanges

theorem Kept.processOlsrTc {ctx ctx' : OlsrContext} (h : ctx.Kept) {src orig : InAddr}
    {msg : TcMsg} {vtime : ℕ} (hrun : ctx.processOlsrTc msg src orig vtime = some ctx') :
  ctx'.Kept
  := by
  have hhandler : (Handler.tc src orig msg vtime).run ctx = some ctx' := hrun
  refine ⟨h.1.handler hhandler, ?_⟩
  obtain ⟨ctx'', hctx'', hchanges⟩ := h.2.backed.processOlsrTc h.1.notDuplicated msg src orig vtime
    True
  obtain rfl := Option.some.inj (hctx''.symm.trans hrun)
  apply h.2.changes hchanges

theorem Kept.olsrMsgForwarding {ctx ctx' : OlsrContext} (h : ctx.Kept) {msg : OlsrMsg}
    {src : InAddr} (hrun : ctx.olsrMsgForwarding msg src = some ctx') :
  ctx'.Kept
  := by
  refine ⟨h.1.quiet (olsrMsgForwarding_quiet hrun), ?_⟩
  obtain ⟨ctx'', hctx'', hchanges⟩ := h.2.backed.olsrMsgForwarding msg src True
  obtain rfl := Option.some.inj (hctx''.symm.trans hrun)
  apply h.2.changes hchanges

theorem Kept.clock {ctx : OlsrContext} (h : ctx.Kept) (now : Timespec) :
  OlsrContext.Kept { ctx with clock := now }
  := ⟨h.1.quiet Quiet.of_eq, h.2.same SameEntries.of_eq⟩

end OlsrContext

/-! ### Messages -/

/-- The payload of a message that is processed can be processed, unless the message is a
duplicate. -/
def PayloadFits (ctx : OlsrContext) (data : List Byte) (off msgsize : ℕ) (originator src : InAddr) :
    Prop :=
  ∀ seqno, be16At data (off + 10) = some seqno →
    (⟨originator, seqno⟩ : DuplicateSetKey) ∉ ctx.dupTree →
    (data[off]? = some msgTypeHello →
      ctx.HelloFits data src (off + 12) (payloadsize msgsize)) ∧
    (data[off]? = some msgTypeTc → ctx.TcFits data src (off + 12))

/-- The message at `off` can be handled: its size and originator lie in the packet, the size is not
zero, and the message comes from this node, or has its size in the packet and a payload that can be
processed. -/
def MsgFits (ctx : OlsrContext) (data : List Byte) (src : InAddr) (off : ℕ) : Prop :=
  ∃ msgsize originator, be16At data (off + 2) = some msgsize ∧ msgsize.toNat ≠ 0 ∧
    le32At data (off + 4) = some originator ∧
    (originator = ctx.ownIp ∨ 12 ≤ msgsize.toNat ∧ off + msgsize.toNat ≤ data.length ∧
      PayloadFits ctx data off msgsize.toNat originator src)

open OlsrContext

/-- The key of a message in the duplicate set. -/
theorem msgAt_dkey {data : List Byte} {off msgsize : ℕ} {msg : OlsrMsg}
    (h : msgAt data off msgsize = some msg) {originator : InAddr}
    (horig : le32At data (off + 4) = some originator) :
  msg.originator = originator ∧ ∃ seqno, be16At data (off + 10) = some seqno ∧
    msg.dkey = ⟨originator, seqno⟩
  := by
  simp only [msgAt, horig, Option.bind_eq_bind, Option.bind_eq_some_iff, Option.pure_def,
    Option.some.injEq] at h
  obtain ⟨seqno, hseqno, _, -, _, -, _, rfl, _, -, _, -, rfl⟩ := h
  exact ⟨rfl, seqno, hseqno, rfl⟩

/-- The header of a message that lies in the packet can be read. -/
theorem exists_msgAt {data : List Byte} {off : ℕ} (h : off + 12 ≤ data.length) (msgsize : ℕ) :
  ∃ msg, msgAt data off msgsize = some msg
  := by
  obtain ⟨seqno, hseqno⟩ := exists_be16At.mpr (by omega : off + 10 + 1 < data.length)
  obtain ⟨originator, horig⟩ := exists_le32At.mpr (by omega : off + 4 + 3 < data.length)
  simp only [msgAt, hseqno, horig, Option.bind_eq_bind, Option.bind_some,
    List.getElem?_eq_getElem (by omega : off < data.length),
    List.getElem?_eq_getElem (by omega : off + 1 < data.length),
    List.getElem?_eq_getElem (by omega : off + 8 < data.length),
    List.getElem?_eq_getElem (by omega : off + 9 < data.length)]
  exact ⟨_, rfl⟩

/-- A message that is processed has a payload that fits, and what is held is kept. -/
theorem processOlsrMsgAt_inv {ctx ctx' : OlsrContext} (h : ctx.Kept) {data : List Byte}
    {off msgsize : ℕ} {msg : OlsrMsg} {originator src : InAddr}
    (hmsg : msgAt data off msgsize = some msg) (horig : le32At data (off + 4) = some originator)
    (hstep : ctx.processOlsrMsgAt data off msgsize msg src = .ok ctx') :
  ctx'.Kept ∧ PayloadFits ctx data off msgsize originator src
  := by
  obtain ⟨-, seqno, hseqno, hdkey⟩ := msgAt_dkey hmsg horig
  rw [processOlsrMsgAt] at hstep
  split_ifs at hstep with hdup
  · obtain rfl := Except.ok.inj hstep
    refine ⟨h, ?_⟩
    intro seqno' hseqno' hnew
    obtain rfl := Option.some.inj (hseqno.symm.trans hseqno')
    simp only [isAlreadyProcessed, hdkey, decide_eq_true_eq] at hdup
    contradiction
  · simp only [except_bind_eq_ok, orFault_eq_ok] at hstep
    obtain ⟨msgtype, hmsgtype, hstep⟩ := hstep
    have hother : ∀ t, msgtype ≠ t → data[off]? ≠ some t := by
      rintro t hne heq
      apply hne (Option.some.inj (hmsgtype.symm.trans heq))
    split_ifs at hstep with hhello htc
    · obtain ⟨hfits, tc, hrun⟩ := processOlsrHelloAt_inv h.2.backed h.1 hstep
      refine ⟨h.processOlsrHello hrun, ?_⟩
      intro _ _ _
      refine ⟨fun _ => hfits, ?_⟩
      intro heq
      apply absurd heq (hother _ _)
      rw [hhello]
      decide
    · obtain ⟨hfits, tc, hrun⟩ := processOlsrTcAt_inv hstep
      refine ⟨h.processOlsrTc hrun, ?_⟩
      intro _ _ _
      exact ⟨fun heq => absurd heq (hother _ hhello), fun _ => hfits⟩
    · obtain rfl := Except.ok.inj hstep
      refine ⟨h, ?_⟩
      intro _ _ _
      exact ⟨fun heq => absurd heq (hother _ hhello), fun heq => absurd heq (hother _ htc)⟩

/-- A message with a payload that fits is processed. -/
theorem PayloadFits.processOlsrMsgAt {ctx : OlsrContext} (h : ctx.Kept) {data : List Byte}
    {off msgsize : ℕ} {msg : OlsrMsg} {originator src : InAddr}
    (hfits : PayloadFits ctx data off msgsize originator src)
    (hmsg : msgAt data off msgsize = some msg) (horig : le32At data (off + 4) = some originator)
    (hsize : 12 ≤ msgsize) (hin : off + msgsize ≤ data.length) (hlt : msgsize < 2 ^ 16) :
  ∃ ctx', ctx.processOlsrMsgAt data off msgsize msg src = .ok ctx'
  := by
  obtain ⟨-, seqno, hseqno, hdkey⟩ := msgAt_dkey hmsg horig
  rw [OlsrContext.processOlsrMsgAt]
  split_ifs with hdup
  · exact ⟨ctx, rfl⟩
  · have hnew : (⟨originator, seqno⟩ : DuplicateSetKey) ∉ ctx.dupTree := by
      simpa [isAlreadyProcessed, hdkey] using hdup
    obtain ⟨hhello, htc⟩ := hfits seqno hseqno hnew
    have hmsgtype := List.getElem?_eq_getElem (by omega : off < data.length)
    simp only [hmsgtype, Option.some.injEq] at hhello htc
    simp only [hmsgtype, orFault, bind, Except.bind]
    split_ifs with hh ht
    · apply (hhello hh).processOlsrHelloAt h.2.backed h.1
    · apply (htc ht).processOlsrTcAt h.2.backed h.1
      rw [payloadsize]
      omega
    · exact ⟨ctx, rfl⟩

namespace RouteState

/-- Forwarding a message that lies in the packet succeeds. -/
theorem exists_olsrMsgForwardingAt {st : RouteState} (h : st.ctx.Kept) {off msgsize : ℕ}
    (hin : off + msgsize ≤ st.data.length) (msg : OlsrMsg) (src : InAddr) :
  ∃ st', st.olsrMsgForwardingAt off msgsize msg src = .ok st'
  := by
  obtain ⟨ctx, hctx, -⟩ := h.2.backed.olsrMsgForwarding msg src True
  rw [olsrMsgForwardingAt]
  split_ifs with _ hout
  · omega
  · simp only [except_bind_eq_ok, orFault_eq_ok]
    exact ⟨_, ctx, hctx, rfl⟩
  · simp only [except_bind_eq_ok, orFault_eq_ok]
    exact ⟨_, ctx, hctx, rfl⟩

theorem olsrMsgForwardingAt_inv {st st' : RouteState} (h : st.ctx.Kept) {off msgsize : ℕ}
    {msg : OlsrMsg} {src : InAddr} (hstep : st.olsrMsgForwardingAt off msgsize msg src = .ok st') :
  st'.ctx.Kept ∧ st'.processed = st.processed
  := by
  rw [olsrMsgForwardingAt] at hstep
  split_ifs at hstep
  · simp only [except_bind_eq_ok, orFault_eq_ok] at hstep
    obtain ⟨ctx, hctx, heq⟩ := hstep
    obtain rfl := Except.ok.inj heq
    exact ⟨h.olsrMsgForwarding hctx, rfl⟩
  · simp only [except_bind_eq_ok, orFault_eq_ok] at hstep
    obtain ⟨ctx, hctx, heq⟩ := hstep
    obtain rfl := Except.ok.inj heq
    exact ⟨h.olsrMsgForwarding hctx, rfl⟩

/-- A message that is handled comes from this node, or is processed and has a payload that fits. -/
theorem handleOlsrMsgAt_inv {st st' : RouteState} (h : st.ctx.Kept) {off msgsize : ℕ}
    {src : InAddr} (hstep : st.handleOlsrMsgAt off msgsize src = .ok st') :
  st'.ctx.Kept ∧ ∃ originator, le32At st.data (off + 4) = some originator ∧
    (originator = st.ctx.ownIp ∧ st'.processed = st.processed ∨
      st'.processed = st.processed ++ [(off, msgsize)] ∧
      PayloadFits st.ctx st.data off msgsize originator src)
  := by
  simp only [handleOlsrMsgAt, except_bind_eq_ok, orFault_eq_ok] at hstep
  obtain ⟨originator, horig, hstep⟩ := hstep
  split_ifs at hstep with hown
  · obtain rfl := Except.ok.inj hstep
    exact ⟨h, originator, horig, Or.inl ⟨hown, rfl⟩⟩
  · simp only [except_bind_eq_ok, orFault_eq_ok] at hstep
    obtain ⟨msg, hmsg, ctx, hprocess, hstep⟩ := hstep
    obtain ⟨hkept, hfits⟩ := processOlsrMsgAt_inv h hmsg horig hprocess
    split_ifs at hstep
    · obtain ⟨hkept', hprocessed⟩ := olsrMsgForwardingAt_inv (by apply hkept) hstep
      exact ⟨hkept', originator, horig, Or.inr ⟨hprocessed, hfits⟩⟩
    · obtain rfl := Except.ok.inj hstep
      exact ⟨hkept, originator, horig, Or.inr ⟨rfl, hfits⟩⟩

/-- The messages that were processed have at least the size of a header and lie in the packet. -/
def WellSized (st : RouteState) : Prop :=
  ∀ m ∈ st.processed, 12 ≤ m.2 ∧ m.1 + m.2 ≤ st.data.length

end RouteState

/-- A message that fits is handled, and well sized if it is processed. -/
theorem MsgFits.handleOlsrMsgAt {st : RouteState} (h : st.ctx.Kept) (hsized : st.WellSized)
    {src : InAddr} {off : ℕ} (hfits : MsgFits st.ctx st.data src off) :
  ∃ msgsize st', be16At st.data (off + 2) = some msgsize ∧ msgsize.toNat ≠ 0 ∧
    st.handleOlsrMsgAt off msgsize.toNat src = .ok st' ∧ st'.WellSized
  := by
  obtain ⟨msgsize, originator, hmsgsize, hzero, horig, hcase⟩ := hfits
  refine ⟨msgsize, ?_⟩
  by_cases hown : originator = st.ctx.ownIp
  · refine ⟨st, hmsgsize, hzero, ?_, hsized⟩
    simp only [RouteState.handleOlsrMsgAt, except_bind_eq_ok, orFault_eq_ok]
    exact ⟨originator, horig, if_pos hown⟩
  · obtain ⟨hsize, hin, hpayload⟩ := hcase.resolve_left hown
    obtain ⟨msg, hmsg⟩ := exists_msgAt (by omega : off + 12 ≤ st.data.length) msgsize.toNat
    obtain ⟨ctx, hprocess⟩ := hpayload.processOlsrMsgAt h hmsg horig hsize hin msgsize.isLt
    have hkept := (processOlsrMsgAt_inv h hmsg horig hprocess).1
    let st₁ : RouteState :=
      { st with ctx := ctx, processed := st.processed ++ [(off, msgsize.toNat)] }
    obtain ⟨st', hst', hlength, hprocessed⟩ : ∃ st', (if msg.ttl > 1 then
        st₁.olsrMsgForwardingAt off msgsize.toNat msg src else .ok st₁) = .ok st' ∧
        st'.data.length = st.data.length ∧ st'.processed = st₁.processed := by
      split_ifs
      · obtain ⟨st', hst'⟩ := RouteState.exists_olsrMsgForwardingAt
          (by apply hkept : st₁.ctx.Kept) (by apply hin) msg src
        have hlength := RouteState.olsrMsgForwardingAt_length hst'
        exact ⟨st', hst', hlength, (RouteState.olsrMsgForwardingAt_inv (by apply hkept) hst').2⟩
      · exact ⟨st₁, rfl, rfl, rfl⟩
    refine ⟨st', hmsgsize, hzero, ?_, ?_⟩
    · simp only [RouteState.handleOlsrMsgAt, except_bind_eq_ok, orFault_eq_ok]
      refine ⟨originator, horig, ?_⟩
      rw [if_neg hown]
      simp only [except_bind_eq_ok, orFault_eq_ok]
      exact ⟨msg, hmsg, ctx, hprocess, hst'⟩
    · rw [RouteState.WellSized, hprocessed, hlength, List.forall_mem_append,
        List.forall_mem_singleton]
      exact ⟨hsized, hsize, hin⟩

/-- A message that is handled, and well sized if it is processed, fits. -/
theorem msgFits_of_handleOlsrMsgAt {st st' : RouteState} (h : st.ctx.Kept) {src : InAddr} {off : ℕ}
    {msgsize : BitVec 16} (hmsgsize : be16At st.data (off + 2) = some msgsize)
    (hzero : msgsize.toNat ≠ 0) (hstep : st.handleOlsrMsgAt off msgsize.toNat src = .ok st')
    (hsized : st'.WellSized) :
  MsgFits st.ctx st.data src off
  := by
  obtain ⟨-, originator, horig, hcase⟩ := RouteState.handleOlsrMsgAt_inv h hstep
  refine ⟨msgsize, originator, hmsgsize, hzero, horig, ?_⟩
  rcases hcase with ⟨hown, -⟩ | ⟨hprocessed, hfits⟩
  · left
    apply hown
  · right
    obtain ⟨hsize, hin⟩ := hsized (off, msgsize.toNat) (by rw [hprocessed]; simp)
    rw [RouteState.handleOlsrMsgAt_length hstep] at hin
    exact ⟨hsize, hin, hfits⟩

/-! ### Packets -/

/-- The step of the loop of `handle_route_pkt` from one message to the next one. -/
def Next (src : InAddr) (p q : RouteState × ℕ) : Prop :=
  p.2 < p.1.data.length ∧ ∃ msgsize, be16At p.1.data (p.2 + 2) = some msgsize ∧
    msgsize.toNat ≠ 0 ∧ p.1.handleOlsrMsgAt p.2 msgsize.toNat src = .ok q.1 ∧
    q.2 = p.2 + msgsize.toNat

/-- Every message that the loop comes to from `off` on fits in the state in which it comes to it. -/
def RouteState.MsgsFit (st : RouteState) (src : InAddr) (off : ℕ) : Prop :=
  ∀ q, Relation.ReflTransGen (Next src) (st, off) q → q.2 < q.1.data.length →
    MsgFits q.1.ctx q.1.data src q.2

namespace RouteState

theorem Next.unique {src : InAddr} {p q q' : RouteState × ℕ} (h : Next src p q)
    (h' : Next src p q') :
  q = q'
  := by
  obtain ⟨-, msgsize, hmsgsize, -, hst, hoff⟩ := h
  obtain ⟨-, msgsize', hmsgsize', -, hst', hoff'⟩ := h'
  obtain rfl := Option.some.inj (hmsgsize.symm.trans hmsgsize')
  apply Prod.ext
  · apply Except.ok.inj (hst.symm.trans hst')
  · rw [hoff, hoff']

/-- The messages from `off` on fit exactly when the first one does, and then the others. -/
theorem msgsFit_iff {st st' : RouteState} {src : InAddr} {off off' : ℕ}
    (h : Next src (st, off) (st', off')) :
  st.MsgsFit src off ↔ MsgFits st.ctx st.data src off ∧ st'.MsgsFit src off'
  := by
  constructor
  · intro hfits
    refine ⟨hfits (st, off) .refl h.1, ?_⟩
    intro q hq
    apply hfits q (.head h hq)
  · rintro ⟨hfits, hrest⟩ q hq hlt
    rcases Relation.ReflTransGen.cases_head hq with rfl | ⟨p, hp, hq⟩
    · apply hfits
    · obtain rfl := Next.unique h hp
      apply hrest q hq hlt

/-- The loop goes on after a message that was handled. -/
theorem handleMsgs_next {st st' : RouteState} {src : InAddr} {off off' : ℕ}
    (h : Next src (st, off) (st', off')) :
  st.handleMsgs src off = st'.handleMsgs src off'
  := by
  obtain ⟨hlt, msgsize, hmsgsize, hzero, hst, hoff⟩ := h
  dsimp only at hlt hmsgsize hst hoff
  subst hoff
  rw [handleMsgs, if_pos hlt]
  split
  · rename_i hnone
    rw [hmsgsize] at hnone
    contradiction
  · rename_i msgsize' hsome
    obtain rfl := Option.some.inj (hmsgsize.symm.trans hsome)
    rw [if_neg hzero]
    split
    · rename_i hfault
      rw [hst] at hfault
      contradiction
    · rename_i st₁ hst₁
      rw [Except.ok.inj (hst.symm.trans hst₁)]

/-- The loop is at the end of the packet, or has handled a message. -/
theorem handleMsgs_inv {st st' : RouteState} {src : InAddr} {off : ℕ}
    (h : st.handleMsgs src off = .ok st') :
  st.data.length ≤ off ∧ st' = st ∨
    off < st.data.length ∧ ∃ st₁ off', Next src (st, off) (st₁, off') ∧
      st₁.handleMsgs src off' = .ok st'
  := by
  rw [handleMsgs] at h
  split_ifs at h with hlt
  · right
    refine ⟨hlt, ?_⟩
    split at h
    · contradiction
    · rename_i msgsize hmsgsize
      split_ifs at h with hzero
      split at h
      · contradiction
      · rename_i st₁ hst₁
        exact ⟨st₁, _, ⟨hlt, msgsize, hmsgsize, hzero, hst₁, rfl⟩, h⟩
  · left
    exact ⟨Nat.le_of_not_lt hlt, (Except.ok.inj h).symm⟩

/-- A step of the loop keeps what is held and the length of the packet, and only adds to the
messages that were processed. -/
theorem Next.kept {src : InAddr} {st st' : RouteState} {off off' : ℕ}
    (h : Next src (st, off) (st', off')) (hkept : st.ctx.Kept) :
  st'.ctx.Kept ∧ (st'.WellSized → st.WellSized) ∧ st'.data.length = st.data.length ∧
    st'.data.length - off' < st.data.length - off
  := by
  obtain ⟨hlt, msgsize, -, hzero, hst, hoff⟩ := h
  dsimp only at hlt hst hoff
  obtain ⟨hkept', originator, -, hcase⟩ := handleOlsrMsgAt_inv hkept hst
  have hlength := handleOlsrMsgAt_length hst
  refine ⟨hkept', ?_, hlength, by omega⟩
  intro hsized m hm
  rw [← hlength]
  apply hsized
  rcases hcase with ⟨-, hprocessed⟩ | ⟨hprocessed, -⟩
  · rw [hprocessed]
    apply hm
  · rw [hprocessed]
    apply List.mem_append_left _ hm

/-- The loop keeps what is held and the length of the packet, and only adds to the messages that
were processed. -/
theorem handleMsgs_kept {st st' : RouteState} {src : InAddr} {off : ℕ} (hkept : st.ctx.Kept)
    (h : st.handleMsgs src off = .ok st') :
  st'.ctx.Kept ∧ (st'.WellSized → st.WellSized) ∧ st'.data.length = st.data.length
  := by
  induction hm : st.data.length - off using Nat.strong_induction_on generalizing st off with
  | _ m ih =>
      rcases handleMsgs_inv h with ⟨-, rfl⟩ | ⟨-, st₁, off', hnext, hrest⟩
      · exact ⟨hkept, id, rfl⟩
      · obtain ⟨hkept₁, hsized₁, hlength₁, hlt⟩ := Next.kept hnext hkept
        obtain ⟨hkept', hsized', hlength'⟩ := ih _ (by omega) hkept₁ hrest rfl
        exact ⟨hkept', fun hsized => hsized₁ (hsized' hsized), hlength'.trans hlength₁⟩

/-- The loop comes to its end, with all messages that are processed well sized, exactly when the
messages fit. -/
theorem handleMsgs_iff {st : RouteState} (hkept : st.ctx.Kept) (hsized : st.WellSized)
    (src : InAddr) (off : ℕ) :
  (∃ st', st.handleMsgs src off = .ok st' ∧ st'.WellSized) ↔ st.MsgsFit src off
  := by
  induction hm : st.data.length - off using Nat.strong_induction_on generalizing st off with
  | _ m ih =>
      constructor
      · rintro ⟨st', hrun, hsized'⟩
        rcases handleMsgs_inv hrun with ⟨hend, rfl⟩ | ⟨hlt, st₁, off', hnext, hrest⟩
        · intro q hq hlt
          rcases Relation.ReflTransGen.cases_head hq with rfl | ⟨p, hp, -⟩
          · dsimp only at hlt
            omega
          · have hlt' := hp.1
            dsimp only at hlt'
            omega
        · obtain ⟨hkept₁, -, -, hless⟩ := Next.kept hnext hkept
          have hsized₁ := (handleMsgs_kept hkept₁ hrest).2.1 hsized'
          rw [msgsFit_iff hnext]
          constructor
          · obtain ⟨-, msgsize, hmsgsize, hzero, hst, -⟩ := hnext
            apply msgFits_of_handleOlsrMsgAt hkept hmsgsize hzero hst hsized₁
          · rw [← ih _ (by omega) hkept₁ hsized₁ off' rfl]
            exact ⟨st', hrest, hsized'⟩
      · intro hfits
        by_cases hlt : off < st.data.length
        · have hfirst := hfits (st, off) .refl hlt
          obtain ⟨msgsize, st₁, hmsgsize, hzero, hst, hsized₁⟩ :=
            hfirst.handleOlsrMsgAt hkept hsized
          have hnext : Next src (st, off) (st₁, off + msgsize.toNat) :=
            ⟨hlt, msgsize, hmsgsize, hzero, hst, rfl⟩
          obtain ⟨hkept₁, -, -, hless⟩ := Next.kept hnext hkept
          rw [handleMsgs_next hnext]
          apply (ih _ (by omega) hkept₁ hsized₁ _ rfl).mpr
          apply ((msgsFit_iff hnext).mp hfits).2
        · refine ⟨st, ?_, hsized⟩
          rw [handleMsgs, if_neg hlt]

end RouteState

/-! ### Runs -/

/-- What happens to a node: it receives a packet, or its timer queue goes through a round. -/
inductive PktEvent where
  | recv (now : Timespec) (data : List Byte)
  | work (now currtime : Timespec) (rand : ℕ)

/-- What an event does to a node, or `none` if there is a fault. -/
def pktStep (ctx : OlsrContext) : PktEvent → Option OlsrContext
  | .recv now data => ({ ctx with clock := now }.handleRoutePktAt data).toOption.map RouteState.ctx
  | .work now currtime rand => nodeStep ctx (.work now currtime rand)

/-- The packet is parsed without a fault, and the messages that are processed have at least the size
of a header and lie in the packet. -/
def ParsedSafely (ctx : OlsrContext) (data : List Byte) : Prop :=
  ∃ st, ctx.handleRoutePktAt data = .ok st ∧
    ∀ m ∈ st.processed, 12 ≤ m.2 ∧ m.1 + m.2 ≤ data.length

/-- Every message of the packet fits in the state in which the loop comes to it. -/
def PktFits (ctx : OlsrContext) (data : List Byte) : Prop :=
  ∀ saddr, le32At data 12 = some saddr →
    RouteState.MsgsFit ⟨ctx, data, []⟩ saddr (ipudpHdrlen + 4)

/-- A packet is parsed safely exactly when its messages fit. -/
theorem OlsrContext.Kept.parsedSafely_iff {ctx : OlsrContext} (h : ctx.Kept) (data : List Byte) :
  ParsedSafely ctx data ↔ PktFits ctx data
  := by
  have hnil : RouteState.WellSized ⟨ctx, data, []⟩ := by
    intro m hm
    contradiction
  have hloop := fun src => RouteState.handleMsgs_iff (by apply h) hnil src (ipudpHdrlen + 4)
  rw [ParsedSafely, handleRoutePktAt]
  split_ifs with hlen
  · constructor
    · intro _ saddr _
      rw [← hloop]
      refine ⟨⟨ctx, data, []⟩, ?_, hnil⟩
      rw [RouteState.handleMsgs, if_neg]
      dsimp only
      omega
    · intro _
      exact ⟨⟨ctx, data, []⟩, rfl, hnil⟩
  · rw [ipudpHdrlen] at hlen
    obtain ⟨saddr, hsaddr⟩ := exists_le32At.mpr (by omega : 12 + 3 < data.length)
    rw [PktFits, hsaddr]
    simp only [except_bind_eq_ok, orFault_eq_ok, Option.some.injEq, exists_eq_left',
      forall_eq']
    rw [← hloop]
    constructor
    · rintro ⟨st, hst, hsized⟩
      have hlength := (RouteState.handleMsgs_kept (by apply h) hst).2.2
      refine ⟨st, hst, ?_⟩
      rw [RouteState.WellSized, hlength]
      apply hsized
    · rintro ⟨st, hst, hsized⟩
      have hlength := (RouteState.handleMsgs_kept (by apply h) hst).2.2
      rw [RouteState.WellSized, hlength] at hsized
      exact ⟨st, hst, hsized⟩

/-- An event keeps what is held. -/
theorem OlsrContext.Kept.pktStep {ctx ctx' : OlsrContext} (h : ctx.Kept) {e : PktEvent}
    (hstep : pktStep ctx e = some ctx') :
  ctx'.Kept
  := by
  cases e with
  | recv now data =>
      obtain ⟨st, hst, rfl⟩ := Option.map_eq_some_iff.mp hstep
      have hrun : OlsrContext.handleRoutePktAt { ctx with clock := now } data = .ok st := by
        cases hrun : OlsrContext.handleRoutePktAt { ctx with clock := now } data with
        | error fault =>
            rw [hrun] at hst
            contradiction
        | ok st' =>
            rw [hrun] at hst
            rw [Option.some.inj hst]
      rw [handleRoutePktAt] at hrun
      split_ifs at hrun
      · rw [← Except.ok.inj hrun]
        apply h.clock
      · simp only [except_bind_eq_ok] at hrun
        obtain ⟨saddr, -, hrun⟩ := hrun
        apply (RouteState.handleMsgs_kept (by apply h.clock) hrun).1
  | work now currtime rand =>
      have hstep' : nodeStep ctx (.work now currtime rand) = some ctx' := hstep
      exact ⟨h.1.step hstep', (h.2.step h.1 hstep').1⟩

/-- In every state a node reaches, whatever packets it receives, a packet is parsed without reading
outside it and without stopping the node, and no message is processed that is smaller than its
header or larger than the rest of the packet, exactly when every message of the packet fits in the
state in which the loop comes to it. -/
theorem parsedSafely_iff_pktFits {ownIp : InAddr} {now : Timespec} {start ctx : OlsrContext}
    (hstart : olsrStart ownIp now = some start)
    (h : Reaches pktStep (fun _ _ => True) start ctx) (clock : Timespec) (data : List Byte) :
  ParsedSafely { ctx with clock := clock } data ↔ PktFits { ctx with clock := clock } data
  := by
  have hkept : ctx.Kept := by
    apply h.invariant
    · intro ctx e ctx' hkept _ hstep
      apply hkept.pktStep hstep
    · exact ⟨olsrStart_sound hstart, olsrStart_held hstart⟩
  apply (hkept.clock clock).parsedSafely_iff

/-- A packet of node 2 with a HELLO that lists nothing. -/
def emptyHelloPkt : List Byte :=
  List.replicate 12 0 ++ le32 (nodeIp 2) ++ List.replicate 16 0 ++
    [msgTypeHello, 0, 0, 16] ++ le32 (nodeIp 2) ++ [1, 0, 0, 0] ++ [0, 0, 0, 3]

/-- A node that has just started parses a HELLO that lists nothing safely. -/
theorem parsedSafely_emptyHello :
  ∃ start, olsrStart (nodeIp 1) ⟨0, 0⟩ = some start ∧
    ParsedSafely { start with clock := ⟨0, 0⟩ } emptyHelloPkt
  := by
  obtain ⟨start, hstart⟩ := Option.isSome_iff_exists.mp
    (by decide +kernel : (olsrStart (nodeIp 1) ⟨0, 0⟩).isSome = true)
  refine ⟨start, hstart, ?_⟩
  rw [parsedSafely_iff_pktFits hstart .refl]
  have hmsgsize : be16At emptyHelloPkt (32 + 2) = some 16 := by decide
  have horig : le32At emptyHelloPkt (32 + 4) = some (nodeIp 2) := by decide
  have hin : 32 + 16 ≤ emptyHelloPkt.length := by decide
  have hwillingness : 32 + 12 + 3 < emptyHelloPkt.length := by decide
  have hhello : emptyHelloPkt[32]? ≠ some msgTypeTc := by decide
  have hend : 32 + 16 + helloInfoLen (payloadsize 16) ≤ 32 + 16 := by decide
  intro saddr _ q hq hlt
  rcases Relation.ReflTransGen.cases_head hq with rfl | ⟨⟨st, off⟩, hnext, hq⟩
  · refine ⟨16, nodeIp 2, hmsgsize, by decide, horig, Or.inr ⟨by decide, hin, ?_⟩⟩
    intro seqno _ _
    constructor
    · intro _
      exact ⟨hwillingness, _, .done hend, fun hlost => absurd rfl hlost.1,
        fun _ => ⟨_, .done hend⟩⟩
    · intro htc
      apply absurd htc hhello
  · -- The only message is the last one.
    have hlast : ¬ off < st.data.length := by
      obtain ⟨-, msgsize, hmsgsize', -, hst, hoff⟩ := hnext
      obtain rfl := Option.some.inj (hmsgsize.symm.trans hmsgsize')
      have hlength : st.data.length = emptyHelloPkt.length := RouteState.handleOlsrMsgAt_length hst
      have hoff' : off = 32 + 16 := hoff
      rw [hlength, hoff']
      decide
    rcases Relation.ReflTransGen.cases_head hq with rfl | ⟨_, hnext', _⟩
    · apply absurd hlt hlast
    · apply absurd hnext'.1 hlast

/-- A packet whose last byte is the first one of a message. -/
def cutPkt : List Byte := List.replicate 33 0

/-- A packet that ends in the header of a message is read outside. -/
theorem parser_reads_outside :
  ¬ ∀ ownIp now start ctx, olsrStart ownIp now = some start →
    Reaches pktStep (fun _ _ => True) start ctx → ∀ (clock : Timespec) (data : List Byte),
    ipudpHdrlen < data.length → ParsedSafely { ctx with clock := clock } data
  := by
  intro hsafe
  obtain ⟨start, hstart⟩ := Option.isSome_iff_exists.mp
    (by decide +kernel : (olsrStart (nodeIp 1) ⟨0, 0⟩).isSome = true)
  obtain ⟨st, hst, -⟩ := hsafe _ _ start start hstart .refl ⟨0, 0⟩ cutPkt (by decide)
  have hsaddr : le32At cutPkt 12 = some 0 := by decide
  have hheader : be16At cutPkt (32 + 2) = none := by decide
  have hlength : ¬ cutPkt.length ≤ 32 := by decide
  rw [handleRoutePktAt, if_neg (by decide), hsaddr] at hst
  rcases RouteState.handleMsgs_inv hst with ⟨hend, -⟩ | ⟨-, st₁, off, hnext, -⟩
  · apply hlength hend
  · obtain ⟨-, msgsize, hmsgsize, -⟩ := hnext
    have hread : be16At cutPkt (32 + 2) = some msgsize := hmsgsize
    rw [hheader] at hread
    contradiction
