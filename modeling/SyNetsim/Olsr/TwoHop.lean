import SyNetsim.Olsr.LostLink

/-!
# What a HELLO records as two-hop neighbours

`populate_neigh2set` enters every address of a HELLO but its own as a two-hop neighbour, whatever
link code the address is listed under, while `populate_linkset` reads the link codes of the same
HELLO. So asymmetric and lost neighbours of a neighbour are recorded as well.

A HELLO records symmetric two-hop neighbours only, exactly if the sender is not symmetric itself,
or lists all addresses as symmetric (`OlsrContext.recordsSymmetric_reaches_iff`).
-/

namespace OlsrContext

/-! ### Whether the sender is symmetric -/

/-- The link code under which the HELLO lists this node says that the sender hears it. -/
def HearsMe (ctx : OlsrContext) (helloInfo : List HelloInfo) : Prop :=
  linkcodeToMe ctx.ownIp helloInfo ≠ statusUnavailable ∧
    (extractLink (linkcodeToMe ctx.ownIp helloInfo) = LinkStatus.symLink.code ∨
      extractLink (linkcodeToMe ctx.ownIp helloInfo) = LinkStatus.asymLink.code)

/-- The link code under which the HELLO lists this node says that the link is lost. -/
def LosesMe (ctx : OlsrContext) (helloInfo : List HelloInfo) : Prop :=
  linkcodeToMe ctx.ownIp helloInfo ≠ statusUnavailable ∧
    extractLink (linkcodeToMe ctx.ownIp helloInfo) = LinkStatus.lostLink.code

/-- The sender of the HELLO is a symmetric neighbour when the HELLO has been handled: it hears this
node, or a link to it is symmetric that the HELLO does not report lost. -/
def SymmetricAfter (ctx : OlsrContext) (src : InAddr) (helloInfo : List HelloInfo) : Prop :=
  ctx.HearsMe helloInfo ∨
    ∃ iface link, ctx.searchLink iface src = some link ∧ link.status = .symLink ∧
      (iface = ctx.ownIp → ¬ ctx.LosesMe helloInfo)

/-- From `ctx` to `ctx'` a link to `src` has been written, which is symmetric if `sym` holds. -/
def SetsStatus (sym : Prop) (src : InAddr) (ctx ctx' : OlsrContext) : Prop :=
  ctx'.ownIp = ctx.ownIp ∧ ∃ link, (link.status = .symLink ↔ sym) ∧
    ∀ i a, ctx'.searchLink i a =
      if i = ctx.ownIp ∧ a = src then some link else ctx.searchLink i a

/-- Writing to the link to `src`, which is there. -/
theorem setLink_setsStatus {ctx ctx₀ : OlsrContext} {src : InAddr} {link link' : LinkElem}
    {tq : TimerqueueContext Callback} {sym : Prop} (hown : ctx₀.ownIp = ctx.ownIp)
    (hsearch : ∀ i a, ctx₀.searchLink i a =
      if i = ctx.ownIp ∧ a = src then some link else ctx.searchLink i a)
    (hsym : link'.status = .symLink ↔ sym) :
  SetsStatus sym src ctx (OlsrContext.setLink { ctx₀ with timerqueue := tq } ctx₀.ownIp src link')
  := by
  refine ⟨hown, link', hsym, ?_⟩
  intro i a
  apply Eq.trans (searchLink_setLink { ctx₀ with timerqueue := tq } ctx₀.ownIp src link' i a)
  have hlink : OlsrContext.searchLink { ctx₀ with timerqueue := tq } ctx₀.ownIp src = some link :=
    (hsearch _ _).trans (if_pos ⟨hown, rfl⟩)
  rw [hlink, hown]
  split_ifs with hkey
  · rfl
  · exact (hsearch i a).trans (if_neg hkey)

/-- Finding the link to the sender does not change whether it is symmetric. -/
theorem findLink_status {ctx ctx' : OlsrContext} {src : InAddr} {link : LinkElem} {vtime : ℕ}
    (hiface : ctx.ownIp ∈ ctx.localIfaceTree)
    (hfind : ctx.findLink src vtime = some (link, ctx')) :
  ctx'.ownIp = ctx.ownIp ∧
    (∃ link₀, ∀ i a, ctx'.searchLink i a =
      if i = ctx.ownIp ∧ a = src then some link₀ else ctx.searchLink i a) ∧
    (link.status = .symLink ↔
      ∃ link, ctx.searchLink ctx.ownIp src = some link ∧ link.status = .symLink)
  := by
  cases hlink : ctx.searchLink ctx.ownIp src with
  | none =>
      simp only [findLink, hlink, Option.bind_eq_bind, Option.bind_eq_some_iff, Option.pure_def,
        Option.some.injEq, Prod.mk.injEq, makeLinkElem] at hfind
      obtain ⟨⟨link₀, ctx₀⟩, hmake, rfl, rfl⟩ := hfind
      obtain ⟨timer, tq, rfl, rfl⟩ := linkElemExpireTimerSet_inv hmake
      refine ⟨rfl, ⟨_, searchLink_insertLink
        { ctx with nextId := ctx.nextId + 1, timerqueue := tq } _ hiface hlink⟩, by simp⟩
  | some link₀ =>
      simp only [findLink, hlink] at hfind
      obtain ⟨timer, tq, rfl, rfl⟩ := linkElemExpireTimerSet_inv hfind
      refine ⟨rfl, ⟨link₀, ?_⟩, by simp⟩
      intro i a
      split_ifs with hkey
      · rw [hkey.1, hkey.2]
        apply hlink
      · rfl

/-- Finding the link and setting its timers does not change whether it is symmetric. -/
theorem touchLink_setsStatus {ctx ctx' : OlsrContext} {src : InAddr} {vtime : ℕ}
    (hiface : ctx.ownIp ∈ ctx.localIfaceTree) (hstep : ctx.touchLink src vtime = some ctx') :
  SetsStatus (∃ link, ctx.searchLink ctx.ownIp src = some link ∧ link.status = .symLink) src
    ctx ctx'
  := by
  simp only [touchLink, Option.bind_eq_bind, Option.bind_eq_some_iff, Option.pure_def] at hstep
  obtain ⟨⟨link, ctx₁⟩, hfind, ⟨link', ctx₂⟩, hasym, hstep⟩ := hstep
  obtain rfl := Option.some.inj hstep
  obtain ⟨hown, ⟨link₀, hsearch⟩, hstatus⟩ := findLink_status hiface hfind
  simp only [linkElemAsymTimerSet, Option.bind_eq_bind, Option.bind_eq_some_iff, Option.pure_def,
    Option.some.injEq, Prod.mk.injEq] at hasym
  obtain ⟨⟨timer, tq⟩, -, rfl, rfl⟩ := hasym
  apply setLink_setsStatus hown hsearch
  rw [← hstatus]
  dsimp only
  split_ifs with hlost
  · simp [hlost]
  · rfl

/-- The switch on the link status makes the link symmetric if the sender hears this node, and not
symmetric if the sender has lost it. -/
theorem populateLinkStatus_setsStatus {ctx ctx' : OlsrContext} {src : InAddr}
    {linkstat : BitVec 8} {vtime : ℕ} (hdup : NotDuplicated ctx.topologyTree) {link : LinkElem}
    (hlink : ctx.searchLink ctx.ownIp src = some link)
    (hstep : ctx.populateLinkStatus src linkstat vtime = some ctx') :
  SetsStatus ((linkstat = LinkStatus.symLink.code ∨ linkstat = LinkStatus.asymLink.code) ∨
    linkstat ≠ LinkStatus.lostLink.code ∧ link.status = .symLink) src ctx ctx'
  := by
  have hsearch : ∀ i a, ctx.searchLink i a =
      if i = ctx.ownIp ∧ a = src then some link else ctx.searchLink i a := by
    intro i a
    split_ifs with hkey
    · rw [hkey.1, hkey.2, hlink]
    · rfl
  rw [populateLinkStatus] at hstep
  split_ifs at hstep with hsym hlost
  · simp only [setSymLink, Option.bind_eq_bind, Option.bind_eq_some_iff, Option.pure_def] at hstep
    obtain ⟨link', hlink', ⟨_, ctx₁⟩, hset, hstep⟩ := hstep
    obtain ⟨timer, tq, rfl, rfl⟩ := linkElemSymTimerSet_inv hset
    obtain rfl := Option.some.inj hstep
    apply setLink_setsStatus rfl hsearch
    simp [hsym]
  · simp only [setLostLink, symLinkTimerExpire, Option.bind_eq_bind, Option.bind_eq_some_iff]
      at hstep
    obtain ⟨_, -, p, -, e, -, link', hlink', q, -, e', -, hupdate⟩ := hstep
    have hsame := updateNeighborStatus_same hupdate hdup
    obtain ⟨-, -, -, hlocal⟩ := updateNeighborStatus_inv hupdate hdup
    let lost : LinkElem :=
      { link' with status := if e'.active then LinkStatus.asymLink else .lostLink }
    have hstatus : lost.status = .symLink ↔
        (linkstat = LinkStatus.symLink.code ∨ linkstat = LinkStatus.asymLink.code) ∨
          linkstat ≠ LinkStatus.lostLink.code ∧ link.status = .symLink := by
      constructor
      · intro hstatus
        simp only [lost] at hstatus
        split_ifs at hstatus
      · rintro (hhears | ⟨hnot, -⟩)
        · contradiction
        · contradiction
    obtain ⟨-, link'', hsym'', hsearch''⟩ := setLink_setsStatus rfl hsearch hstatus
    refine ⟨hlocal.ownIp, link'', hsym'', ?_⟩
    intro i a
    apply (hsame.searchLink i a).trans (hsearch'' i a)
  · obtain rfl := Option.some.inj hstep
    exact ⟨rfl, link, by simp [hsym, hlost], hsearch⟩

/-- `populate_linkset` makes the link symmetric if the sender hears this node, and not symmetric if
the sender has lost it. -/
theorem populateLinkset_setsStatus {ctx ctx' : OlsrContext} {src orig : InAddr}
    {helloInfo : List HelloInfo} {vtime : ℕ} (hdup : NotDuplicated ctx.topologyTree)
    {link : LinkElem} (hlink : ctx.searchLink ctx.ownIp src = some link)
    (hstep : ctx.populateLinkset src orig helloInfo vtime = some ctx') :
  SetsStatus (ctx.HearsMe helloInfo ∨ ¬ ctx.LosesMe helloInfo ∧ link.status = .symLink) src ctx ctx'
  := by
  rw [populateLinkset] at hstep
  by_cases hcode : linkcodeToMe ctx.ownIp helloInfo = statusUnavailable
  · rw [if_pos hcode] at hstep
    obtain rfl := Option.some.inj hstep
    refine ⟨rfl, link, by simp [HearsMe, LosesMe, hcode], ?_⟩
    intro i a
    split_ifs with hkey
    · rw [hkey.1, hkey.2, hlink]
    · rfl
  · rw [if_neg hcode] at hstep
    obtain ⟨ctx₁, hstatus, hselector⟩ := Option.bind_eq_some_iff.mp hstep
    obtain ⟨hown₁, link₁, hsym₁, hsearch₁⟩ := populateLinkStatus_setsStatus hdup hlink hstatus
    have hsym : link₁.status = .symLink ↔
        ctx.HearsMe helloInfo ∨ ¬ ctx.LosesMe helloInfo ∧ link.status = .symLink := by
      rw [hsym₁]
      simp [HearsMe, LosesMe, hcode]
    split_ifs at hselector
    · obtain ⟨tq, nextId, elems, selectors, rfl⟩ := populateMprSelector_inv hselector
      exact ⟨hown₁, link₁, hsym, hsearch₁⟩
    · obtain rfl := Option.some.inj hselector
      exact ⟨hown₁, link₁, hsym, hsearch₁⟩

/-- When a HELLO has been handled, its sender is symmetric exactly if `SymmetricAfter` holds. -/
theorem HelloStages.isSymNeigh_iff {ctx ctx₁ ctx₂ ctx₃ ctx₄ ctx' : OlsrContext}
    {src orig : InAddr} {hello : HelloMsg} {vtime : ℕ}
    (h : HelloStages ctx ctx₁ ctx₂ ctx₃ ctx₄ ctx' src orig hello vtime) :
  IsSymNeigh ctx₃.neighborTree src ↔ ctx.SymmetricAfter src hello.helloInfo
  := by
  have hdup₁ : NotDuplicated ctx₁.topologyTree := by
    rw [h.local₁.topologyTree]
    apply h.notDuplicated
  have hdup₂ : NotDuplicated ctx₂.topologyTree := by
    rw [h.local₂.topologyTree]
    apply hdup₁
  have hiface₀ : (ctx.findNeighbor src hello.willingness).ownIp ∈
      (ctx.findNeighbor src hello.willingness).localIfaceTree := OrdMap.mem_insert.mpr (Or.inl rfl)
  obtain ⟨hown₁, link₁, hsym₁, hsearch₁⟩ := touchLink_setsStatus hiface₀ h.touch
  simp only [searchLink_findNeighbor] at hsearch₁ hsym₁
  have hown₁' : ctx₁.ownIp = ctx.ownIp := hown₁
  have hlink₁ : ctx₁.searchLink ctx₁.ownIp src = some link₁ := by
    rw [hsearch₁, if_pos ⟨hown₁, rfl⟩]
  obtain ⟨-, link₂, hsym₂, hsearch₂⟩ := populateLinkset_setsStatus hdup₁ hlink₁ h.linkset
  rw [HearsMe, LosesMe, hown₁', hsym₁] at hsym₂
  have hsearch₃ : ∀ i a, ctx₃.searchLink i a =
      if i = ctx.ownIp ∧ a = src then some link₂ else ctx.searchLink i a := by
    intro i a
    rw [(updateNeighborStatus_same h.status hdup₂).searchLink, hsearch₂, hown₁', hsearch₁]
    split_ifs with hkey hkey'
    · rfl
    · exact absurd hkey' hkey
    · rfl
  have hlink₃ : ctx₃.searchLink ctx.ownIp src = some link₂ := by
    rw [hsearch₃, if_pos ⟨rfl, rfl⟩]
  rw [h.consistent₃.isSymNeigh_iff hlink₃, HasSymLink, SymmetricAfter]
  constructor
  · rintro ⟨i, l, hl, hlsym⟩
    rw [hsearch₃] at hl
    split_ifs at hl with hkey
    · rw [← Option.some.inj hl, hsym₂] at hlsym
      rcases hlsym with hhears | ⟨hnot, link, hlink, hlsym⟩
      · left
        apply hhears
      · right
        exact ⟨ctx.ownIp, link, hlink, hlsym, fun _ => hnot⟩
    · right
      exact ⟨i, l, hl, hlsym, fun hi => absurd ⟨hi, rfl⟩ hkey⟩
  · rintro (hhears | ⟨i, l, hl, hlsym, hnot⟩)
    · exact ⟨ctx.ownIp, link₂, hlink₃, hsym₂.mpr (Or.inl hhears)⟩
    · by_cases hi : i = ctx.ownIp
      · subst hi
        exact ⟨ctx.ownIp, link₂, hlink₃, hsym₂.mpr (Or.inr ⟨hnot rfl, l, hl, hlsym⟩)⟩
      · refine ⟨i, l, ?_, hlsym⟩
        rw [hsearch₃, if_neg (fun hkey => hi hkey.1), hl]

/-! ### What a HELLO leaves as it is -/

/-- Restarting a timer leaves the others as they are. -/
theorem restartTimer_other {tq tq' : TimerqueueContext Callback} {now : Timespec} {p : ℕ}
    {intervalUs : ℤ} (h : tq.restartTimer now p intervalUs = some tq') {q : ℕ} (hq : q ≠ p) :
  tq'.elems.search q = tq.elems.search q
  := by
  cases he : tq.elems.search p with
  | none =>
      simp [TimerqueueContext.restartTimer, TimerqueueContext.timerqueueReactivateTimer,
        TimerqueueContext.search_update, he] at h
  | some e =>
      let f : TimerqueueElem Callback → TimerqueueElem Callback :=
        fun e => { e with intervalUs := intervalUs }
      have hself : (tq.update p f).elems.search p = some (f e) :=
        TimerqueueContext.search_update_self he f
      rw [TimerqueueContext.search_reactivate hself h, if_neg hq,
        TimerqueueContext.search_update, if_neg hq]

/-- Between `ctx` and `ctx'` the two-hop neighbour `x` of `addr` and its timer are the same, or
neither has it. -/
def KeepsNeigh2 (addr x : InAddr) (ctx ctx' : OlsrContext) : Prop :=
  ctx'.searchNeigh2 addr x = ctx.searchNeigh2 addr x ∧
    ∀ n2elem, ctx.searchNeigh2 addr x = some n2elem →
      ctx'.timerqueue.elems.search n2elem.expireTimer =
        ctx.timerqueue.elems.search n2elem.expireTimer

theorem KeepsNeigh2.trans {addr x : InAddr} {ctx ctx' ctx'' : OlsrContext}
    (h : KeepsNeigh2 addr x ctx ctx') (h' : KeepsNeigh2 addr x ctx' ctx'') :
  KeepsNeigh2 addr x ctx ctx''
  := by
  refine ⟨h'.1.trans h.1, ?_⟩
  intro n2elem hn2elem
  rw [h'.2 n2elem (h.1.trans hn2elem), h.2 n2elem hn2elem]

/-- Nothing happens to two-hop neighbours when they and the timers are the same. -/
theorem KeepsNeigh2.of_eq {addr x : InAddr} {ctx ctx' : OlsrContext}
    (hneigh2 : ctx'.searchNeigh2 addr x = ctx.searchNeigh2 addr x)
    (htq : ctx'.timerqueue = ctx.timerqueue) :
  KeepsNeigh2 addr x ctx ctx'
  := ⟨hneigh2, fun _ _ => by rw [htq]⟩

/-- The timer of a two-hop neighbour is allocated. -/
theorem Backed.has_neigh2Timer {ctx : OlsrContext} (h : ctx.Backed) {addr x : InAddr}
    {n2elem : Neighbor2Elem} (hn2elem : ctx.searchNeigh2 addr x = some n2elem) :
  ctx.timerqueue.Has (.neigh2ElemExpire ⟨(addr, x), n2elem.id⟩) n2elem.expireTimer
  := by
  apply h.has
  exact ⟨n2elem, followNeigh2_eq_some.mpr ⟨hn2elem, rfl⟩, rfl⟩

/-- Starting a new timer leaves the two-hop neighbours as they are. -/
theorem Backed.startTimer_keepsNeigh2 {ctx ctx' : OlsrContext} (h : ctx.Backed) {c : Callback}
    {intervalUs : ℤ} {useOnce : Bool} {p : ℕ} {tq : TimerqueueContext Callback} {addr x : InAddr}
    (hstart : ctx.timerqueue.startTimer ctx.clock c intervalUs useOnce = some (p, tq))
    (htq : ctx'.timerqueue = tq) (hneigh2 : ctx'.searchNeigh2 addr x = ctx.searchNeigh2 addr x) :
  KeepsNeigh2 addr x ctx ctx'
  := by
  refine ⟨hneigh2, ?_⟩
  intro n2elem hn2elem
  obtain ⟨e, he, -⟩ := h.has_neigh2Timer hn2elem
  obtain ⟨tq', htq', -, hsearch⟩ :=
    TimerqueueContext.startTimer_search h.wf ctx.clock c intervalUs useOnce
  obtain ⟨rfl, rfl⟩ := Prod.mk.inj (Option.some.inj (htq'.symm.trans hstart))
  rw [htq, hsearch, if_neg]
  apply Nat.ne_of_lt
  apply h.wf.fresh _ (OrdMap.mem_of_search he)

/-- Restarting the timer of another entry leaves the two-hop neighbours as they are. -/
theorem Backed.restartTimer_keepsNeigh2 {ctx ctx' : OlsrContext} (h : ctx.Backed) {c : Callback}
    {intervalUs : ℤ} {p : ℕ} {tq : TimerqueueContext Callback} {addr x : InAddr}
    (hp : ctx.timerqueue.Has c p) (hc : ∀ id, c ≠ .neigh2ElemExpire ⟨(addr, x), id⟩)
    (hrestart : ctx.timerqueue.restartTimer ctx.clock p intervalUs = some tq)
    (htq : ctx'.timerqueue = tq) (hneigh2 : ctx'.searchNeigh2 addr x = ctx.searchNeigh2 addr x) :
  KeepsNeigh2 addr x ctx ctx'
  := by
  refine ⟨hneigh2, ?_⟩
  intro n2elem hn2elem
  have hne : n2elem.expireTimer ≠ p := by
    rintro rfl
    apply hc _ (hp.unique (h.has_neigh2Timer hn2elem))
  rw [htq, restartTimer_other hrestart hne]

/-- Setting a timer of a link leaves the two-hop neighbours as they are. -/
theorem Backed.linkTimerSet_keepsNeigh2 {ctx ctx' : OlsrContext} (h : ctx.Backed)
    {i a addr x : InAddr} {link : LinkElem} (hlink : ctx.searchLink i a = some link)
    {arg : Ptr (InAddr × InAddr)} {timer timer' : Option ℕ}
    (htimer : ∀ p, timer = some p → link.HasTimer p) {vtime : ℕ}
    {tq : TimerqueueContext Callback}
    (hset : OlsrContext.linkTimerSet ctx.timerqueue ctx.clock arg timer vtime = some (timer', tq))
    (htq : ctx'.timerqueue = tq) (hneigh2 : ctx'.searchNeigh2 addr x = ctx.searchNeigh2 addr x) :
  KeepsNeigh2 addr x ctx ctx'
  := by
  cases timer with
  | none =>
      simp only [OlsrContext.linkTimerSet, Option.bind_eq_bind, Option.bind_eq_some_iff,
        Option.pure_def, Option.some.injEq, Prod.mk.injEq] at hset
      obtain ⟨⟨p, tq₁⟩, hstart, rfl, rfl⟩ := hset
      apply h.startTimer_keepsNeigh2 hstart htq hneigh2
  | some p =>
      simp only [OlsrContext.linkTimerSet, Option.bind_eq_bind, Option.bind_eq_some_iff,
        Option.pure_def, Option.some.injEq, Prod.mk.injEq] at hset
      obtain ⟨tq₁, hrestart, rfl, rfl⟩ := hset
      apply h.restartTimer_keepsNeigh2 (h.has _ p (owns_link hlink (htimer p rfl))) _ hrestart htq
        hneigh2
      intro id heq
      contradiction

/-- Finding the link and setting its timers leaves the two-hop neighbours as they are. -/
theorem Backed.touchLink_keepsNeigh2 {ctx ctx' : OlsrContext} (h : ctx.Backed) {src : InAddr}
    (hiface : ctx.ownIp ∈ ctx.localIfaceTree) {vtime : ℕ}
    (hstep : ctx.touchLink src vtime = some ctx') (addr x : InAddr) :
  KeepsNeigh2 addr x ctx ctx'
  := by
  simp only [OlsrContext.touchLink, Option.bind_eq_bind, Option.bind_eq_some_iff,
    Option.pure_def] at hstep
  obtain ⟨⟨link, ctx₁⟩, hfind, ⟨link', ctx₂⟩, hasym, hstep⟩ := hstep
  obtain rfl := Option.some.inj hstep
  obtain ⟨link₀, ctx₀, hfind₀, hchanges, hown, hlink, -⟩ := h.findLink hiface vtime False
  obtain ⟨rfl, rfl⟩ := Prod.mk.inj (Option.some.inj (hfind.symm.trans hfind₀))
  have h₁ : KeepsNeigh2 addr x ctx ctx₁ := by
    cases hsearch : ctx.searchLink ctx.ownIp src with
    | none =>
        simp only [OlsrContext.findLink, hsearch, Option.bind_eq_bind, Option.bind_eq_some_iff,
          Option.pure_def, Option.some.injEq, Prod.mk.injEq] at hfind
        obtain ⟨⟨link₁, ctx₂⟩, hmake, rfl, rfl⟩ := hfind
        simp only [makeLinkElem, linkElemExpireTimerSet, OlsrContext.linkTimerSet,
          Option.bind_eq_bind, Option.bind_eq_some_iff, Option.pure_def, Option.some.injEq,
          Prod.mk.injEq] at hmake
        obtain ⟨⟨timer, tq⟩, ⟨⟨p, tq₁⟩, hstart, rfl, rfl⟩, -, rfl⟩ := hmake
        exact h.startTimer_keepsNeigh2 hstart rfl rfl
    | some link₀ =>
        simp only [OlsrContext.findLink, hsearch, linkElemExpireTimerSet, Option.bind_eq_bind,
          Option.bind_eq_some_iff, Option.pure_def, Option.some.injEq, Prod.mk.injEq] at hfind
        obtain ⟨⟨timer, tq⟩, hset, -, rfl⟩ := hfind
        exact h.linkTimerSet_keepsNeigh2 hsearch (fun p hp => Or.inl hp) hset rfl rfl
  apply h₁.trans
  simp only [linkElemAsymTimerSet, Option.bind_eq_bind, Option.bind_eq_some_iff, Option.pure_def,
    Option.some.injEq, Prod.mk.injEq] at hasym
  obtain ⟨⟨timer, tq⟩, hset, rfl, rfl⟩ := hasym
  rw [← hown] at hlink
  exact (h.changes hchanges).linkTimerSet_keepsNeigh2 hlink (fun p hp => Or.inr (Or.inl hp)) hset
    rfl rfl

/-- Writing to a timer of a link leaves the two-hop neighbours as they are. -/
theorem Backed.updateTimer_keepsNeigh2 {ctx ctx' : OlsrContext} (h : ctx.Backed)
    {c : Callback} {p : ℕ} {f : TimerqueueElem Callback → TimerqueueElem Callback}
    {addr x : InAddr} (hp : ctx.timerqueue.Has c p)
    (hc : ∀ id, c ≠ .neigh2ElemExpire ⟨(addr, x), id⟩)
    (htq : ctx'.timerqueue = ctx.timerqueue.update p f)
    (hneigh2 : ctx'.searchNeigh2 addr x = ctx.searchNeigh2 addr x) :
  KeepsNeigh2 addr x ctx ctx'
  := by
  refine ⟨hneigh2, ?_⟩
  intro n2elem hn2elem
  rw [htq, TimerqueueContext.search_update, if_neg]
  rintro rfl
  apply hc _ (hp.unique (h.has_neigh2Timer hn2elem))

/-- The switch on the link status leaves the two-hop neighbours as they are. -/
theorem Backed.populateLinkStatus_keepsNeigh2 {ctx ctx' : OlsrContext} (h : ctx.Backed)
    (hdup : NotDuplicated ctx.topologyTree) {src : InAddr} {linkstat : BitVec 8} {vtime : ℕ}
    (hstep : ctx.populateLinkStatus src linkstat vtime = some ctx') (addr x : InAddr) :
  KeepsNeigh2 addr x ctx ctx'
  := by
  rw [populateLinkStatus] at hstep
  split_ifs at hstep with hsym hlost
  · simp only [OlsrContext.setSymLink, linkElemSymTimerSet, Option.bind_eq_bind,
      Option.bind_eq_some_iff, Option.pure_def, Option.some.injEq] at hstep
    obtain ⟨link, hlink, ⟨_, ctx₁⟩, ⟨⟨timer, tq⟩, hset, heq⟩, rfl⟩ := hstep
    obtain ⟨rfl, rfl⟩ := Prod.mk.inj heq
    exact h.linkTimerSet_keepsNeigh2 hlink (fun p hp => Or.inr (Or.inr hp)) hset rfl rfl
  · simp only [OlsrContext.setLostLink, symLinkTimerExpire, Option.bind_eq_bind,
      Option.bind_eq_some_iff] at hstep
    obtain ⟨link, hlink, p, hp, e, -, link', hlink', q, -, e', -, hupdate⟩ := hstep
    apply KeepsNeigh2.trans _ (KeepsNeigh2.of_eq
      (updateNeighborStatus_searchNeigh2 hupdate hdup addr x)
      (updateNeighborStatus_same hupdate hdup).timerqueue)
    refine h.updateTimer_keepsNeigh2 (h.has _ p (owns_link hlink (Or.inr (Or.inr hp)))) ?_ rfl rfl
    intro id heq
    contradiction
  · obtain rfl := Option.some.inj hstep
    exact KeepsNeigh2.of_eq rfl rfl

/-- Entering an MPR selector leaves the two-hop neighbours as they are. -/
theorem Backed.populateMprSelector_keepsNeigh2 {ctx ctx' : OlsrContext} (h : ctx.Backed)
    {src orig : InAddr} {vtime : ℕ} (hstep : ctx.populateMprSelector src orig vtime = some ctx')
    (addr x : InAddr) :
  KeepsNeigh2 addr x ctx ctx'
  := by
  simp only [OlsrContext.populateMprSelector, findMprSelector, Option.bind_eq_bind,
    Option.bind_eq_some_iff, Option.pure_def] at hstep
  obtain ⟨⟨id, ctx₁⟩, hfind, selem, hselem, tq, hrestart, hstep⟩ := hstep
  obtain rfl := Option.some.inj hstep
  cases hsearch : ctx.selectorTree.search src with
  | some id₀ =>
      simp only [hsearch, Option.some.injEq, Prod.mk.injEq] at hfind
      obtain ⟨rfl, rfl⟩ := hfind
      have howns : ctx.Owns (.mprSelectorExpire id₀) selem.expireTimer := ⟨selem, hselem, rfl⟩
      refine h.restartTimer_keepsNeigh2 (h.has _ _ howns) ?_ hrestart rfl rfl
      intro id heq
      contradiction
  | none =>
      simp only [hsearch, Option.bind_eq_some_iff, Option.some.injEq, Prod.mk.injEq] at hfind
      obtain ⟨⟨timer, tq₁⟩, hstart, rfl, rfl⟩ := hfind
      obtain ⟨tq₂, htq₂, -, hsearch₂⟩ := TimerqueueContext.startTimer_search h.wf ctx.clock
        (.mprSelectorExpire ctx.nextId) 0 false
      obtain ⟨rfl, rfl⟩ := Prod.mk.inj (Option.some.inj (htq₂.symm.trans hstart))
      have hfresh : ctx.selectorElems.search ctx.nextId = none :=
        OrdMap.search_eq_none.mpr (fun hmem => lt_irrefl _ (h.elems _ hmem))
      have htimer : selem.expireTimer = ctx.timerqueue.nextPtr := by
        rw [OrdMap.search_insert, if_pos rfl, hfresh, Option.getD_none, Option.some.injEq] at hselem
        rw [← hselem]
      refine ⟨rfl, ?_⟩
      intro n2elem hn2elem
      obtain ⟨e, he, -⟩ := h.has_neigh2Timer hn2elem
      have hne : n2elem.expireTimer ≠ ctx.timerqueue.nextPtr :=
        Nat.ne_of_lt (h.wf.fresh _ (OrdMap.mem_of_search he))
      rw [restartTimer_other hrestart (by rw [htimer]; apply hne), hsearch₂, if_neg hne]

/-- `populate_linkset` leaves the two-hop neighbours as they are. -/
theorem Backed.populateLinkset_keepsNeigh2 {ctx ctx' : OlsrContext} (h : ctx.Backed)
    (hdup : NotDuplicated ctx.topologyTree) {src orig : InAddr} (hneigh : src ∈ ctx.neighborTree)
    {link : LinkElem} {q : ℕ} (hlink : ctx.searchLink ctx.ownIp src = some link)
    (hasym : link.asymTimer = some q) {helloInfo : List HelloInfo} {vtime : ℕ}
    (hstep : ctx.populateLinkset src orig helloInfo vtime = some ctx') (addr x : InAddr) :
  KeepsNeigh2 addr x ctx ctx'
  := by
  rw [OlsrContext.populateLinkset] at hstep
  by_cases hcode : linkcodeToMe ctx.ownIp helloInfo = statusUnavailable
  · rw [if_pos hcode] at hstep
    obtain rfl := Option.some.inj hstep
    exact KeepsNeigh2.of_eq rfl rfl
  · rw [if_neg hcode] at hstep
    obtain ⟨ctx₁, hstatus, hselector⟩ := Option.bind_eq_some_iff.mp hstep
    have h₁ := h.populateLinkStatus_keepsNeigh2 hdup hstatus addr x
    split_ifs at hselector
    · apply h₁.trans
      have hbacked₁ := h.of_populateLinkStatus hdup hneigh hlink hasym hstatus
      apply hbacked₁.populateMprSelector_keepsNeigh2 hselector
    · obtain rfl := Option.some.inj hselector
      apply h₁

/-- Entering a two-hop neighbour leaves the others as they are. -/
theorem Backed.updateNeigh2Tuple_keepsNeigh2 {ctx ctx' : OlsrContext} (h : ctx.Backed)
    {src n2addr : InAddr} {vtime : ℕ} (hstep : ctx.updateNeigh2Tuple src n2addr vtime = some ctx')
    {addr x : InAddr} (hne : ¬ (addr = src ∧ x = n2addr)) :
  KeepsNeigh2 addr x ctx ctx'
  := by
  simp only [OlsrContext.updateNeigh2Tuple, Option.bind_eq_bind, Option.bind_eq_some_iff] at hstep
  obtain ⟨neigh, hneigh, hstep⟩ := hstep
  cases hn2 : neigh.neighbor2Tree.search n2addr with
  | none =>
      simp only [hn2, Option.bind_eq_some_iff, Option.pure_def] at hstep
      obtain ⟨⟨timer, tq⟩, hstart, hstep⟩ := hstep
      obtain rfl := Option.some.inj hstep
      apply h.startTimer_keepsNeigh2 hstart rfl
      rw [searchNeigh2_insert hneigh hn2, if_neg hne]
  | some n2elem =>
      simp only [hn2, Option.bind_eq_some_iff, Option.pure_def] at hstep
      obtain ⟨tq, hrestart, hstep⟩ := hstep
      obtain rfl := Option.some.inj hstep
      have hsearch : ctx.searchNeigh2 src n2addr = some n2elem := by
        simp [searchNeigh2, hneigh, hn2]
      refine h.restartTimer_keepsNeigh2 (h.has_neigh2Timer hsearch) ?_ hrestart rfl rfl
      intro id heq
      apply hne
      simp only [Callback.neigh2ElemExpire.injEq, Ptr.mk.injEq, Prod.mk.injEq] at heq
      exact ⟨heq.1.1.symm, heq.1.2.symm⟩

/-- `populate_neigh2set` leaves two-hop neighbours that are not listed as they are. -/
theorem Backed.populateNeigh2set_keepsNeigh2 {ctx ctx' : OlsrContext} (h : ctx.Backed)
    {src : InAddr} (hsrc : src ∈ ctx.neighborTree) {helloInfo : List HelloInfo} {vtime : ℕ}
    (hstep : ctx.populateNeigh2set src helloInfo vtime = some ctx') {addr x : InAddr}
    (hne : ¬ (addr = src ∧ x ∈ helloInfo.flatMap HelloInfo.neighAddr ∧ x ≠ ctx.ownIp)) :
  KeepsNeigh2 addr x ctx ctx'
  := by
  rw [OlsrContext.populateNeigh2set] at hstep
  generalize helloInfo.flatMap HelloInfo.neighAddr = l at hstep hne
  induction l generalizing ctx with
  | nil =>
      obtain rfl := Option.some.inj hstep
      exact KeepsNeigh2.of_eq rfl rfl
  | cons n2addr l ih =>
      rw [List.foldlM_cons] at hstep
      obtain ⟨ctx₁, hone, hrest⟩ := Option.bind_eq_some_iff.mp hstep
      have hne' : ¬ (addr = src ∧ x ∈ l ∧ x ≠ ctx.ownIp) := by
        rintro ⟨ha, hx, hown⟩
        exact hne ⟨ha, List.mem_cons_of_mem _ hx, hown⟩
      split_ifs at hone with hskip
      · obtain rfl := Option.some.inj hone
        apply ih h hsrc hrest hne'
      · obtain ⟨ctx₂, hctx₂, hchange⟩ := h.updateNeigh2Tuple hsrc n2addr vtime False
        obtain rfl := Option.some.inj (hone.symm.trans hctx₂)
        obtain ⟨neigh, tree, -, hneigh2, -⟩ := updateNeigh2Tuple_inv hone
        obtain ⟨tq, nextId, heq⟩ := hneigh2.eq
        have hsrc₁ : src ∈ ctx₁.neighborTree := by
          rw [heq]
          apply OrdMap.mem_modify.mpr hsrc
        have hown₁ : ctx₁.ownIp = ctx.ownIp := by rw [heq]
        have hother : ¬ (addr = src ∧ x = n2addr) := by
          rintro ⟨ha, rfl⟩
          exact hne ⟨ha, List.mem_cons_self, hskip⟩
        rw [← hown₁] at hne'
        apply (h.updateNeigh2Tuple_keepsNeigh2 hone hother).trans
        apply ih (h.change hchange) hsrc₁ hrest hne'

/-- A HELLO leaves a two-hop neighbour of `addr` and its timer as they are unless `addr` is its
sender, a symmetric neighbour, and lists the address. -/
theorem HelloStages.keepsNeigh2 {ctx ctx₁ ctx₂ ctx₃ ctx₄ ctx' : OlsrContext}
    {src orig : InAddr} {hello : HelloMsg} {vtime : ℕ}
    (h : HelloStages ctx ctx₁ ctx₂ ctx₃ ctx₄ ctx' src orig hello vtime) {addr x : InAddr}
    (hne : ¬ (addr = src ∧ x ∈ hello.helloInfo.flatMap HelloInfo.neighAddr ∧ x ≠ ctx.ownIp ∧
      ctx.SymmetricAfter src hello.helloInfo)) :
  KeepsNeigh2 addr x ctx ctx'
  := by
  have hdup₁ : NotDuplicated ctx₁.topologyTree := by
    rw [h.local₁.topologyTree]
    apply h.notDuplicated
  have hdup₂ : NotDuplicated ctx₂.topologyTree := by
    rw [h.local₂.topologyTree]
    apply hdup₁
  have hiface₀ : (ctx.findNeighbor src hello.willingness).ownIp ∈
      (ctx.findNeighbor src hello.willingness).localIfaceTree := OrdMap.mem_insert.mpr (Or.inl rfl)
  have hown₃ : ctx₃.ownIp = ctx.ownIp := by
    rw [h.local₃.ownIp, h.local₂.ownIp, h.local₁.ownIp]
  have hkeeps₀ : KeepsNeigh2 addr x ctx (ctx.findNeighbor src hello.willingness) :=
    KeepsNeigh2.of_eq (searchNeigh2_findNeighbor ctx src hello.willingness addr x) rfl
  have hkeeps₁ := h.backed₀.touchLink_keepsNeigh2 hiface₀ h.touch addr x
  obtain ⟨⟨link₁, -, q, hlink₁, -, hasym, -, -⟩, -, -⟩ :=
    touchLink_expiresAt h.backed₀ hiface₀ h.touch
  have hkeeps₂ := h.backed₁.populateLinkset_keepsNeigh2 hdup₁
    (h.consistent₁.neighbor _ _ link₁ hlink₁) hlink₁ hasym h.linkset addr x
  have hkeeps₃ : KeepsNeigh2 addr x ctx₂ ctx₃ :=
    KeepsNeigh2.of_eq (updateNeighborStatus_searchNeigh2 h.status hdup₂ addr x)
      (updateNeighborStatus_same h.status hdup₂).timerqueue
  have hkeeps' : KeepsNeigh2 addr x ctx₄ ctx' :=
    KeepsNeigh2.of_eq (h.mpr.searchNeigh2 addr x) h.mpr.same.timerqueue
  apply (((hkeeps₀.trans hkeeps₁).trans hkeeps₂).trans hkeeps₃).trans
  refine KeepsNeigh2.trans ?_ hkeeps'
  by_cases hsym : IsSymNeigh ctx₃.neighborTree src
  · obtain ⟨n, hn, -⟩ := id hsym
    apply h.backed₃.populateNeigh2set_keepsNeigh2 (OrdMap.mem_of_search hn) (h.neigh2 hsym)
    rintro ⟨ha, hx, hown⟩
    rw [hown₃] at hown
    exact hne ⟨ha, hx, hown, h.isSymNeigh_iff.mp hsym⟩
  · rw [h.skip hsym]
    exact KeepsNeigh2.of_eq rfl rfl

/-! ### What is recorded -/

/-- The HELLO lists `x` in a group whose link code has the neighbour type `SYM_NEIGH` or
`MPR_NEIGH`. -/
def ReportsSymmetric (helloInfo : List HelloInfo) (x : InAddr) : Prop :=
  ∃ info ∈ helloInfo, x ∈ info.neighAddr ∧
    (extractStatus info.linkCode = NeighborStatus.symNeigh.code ∨
      extractStatus info.linkCode = NeighborStatus.mprNeigh.code)

/-- All addresses that the HELLO lists, except this node's own, are listed as symmetric. -/
def ListsOnlySymmetric (ownIp : InAddr) (helloInfo : List HelloInfo) : Prop :=
  ∀ x ∈ helloInfo.flatMap HelloInfo.neighAddr, x ≠ ownIp → ReportsSymmetric helloInfo x

/-- `populate_neigh2set` changes the status of no neighbour. -/
theorem populateNeigh2set_isSymNeigh {ctx ctx' : OlsrContext} {src : InAddr}
    {helloInfo : List HelloInfo} {vtime : ℕ}
    (hstep : ctx.populateNeigh2set src helloInfo vtime = some ctx') (a : InAddr) :
  IsSymNeigh ctx'.neighborTree a ↔ IsSymNeigh ctx.neighborTree a
  := by
  rw [populateNeigh2set] at hstep
  generalize helloInfo.flatMap HelloInfo.neighAddr = l at hstep
  induction l generalizing ctx with
  | nil =>
      obtain rfl := Option.some.inj hstep
      rfl
  | cons n2addr l ih =>
      rw [List.foldlM_cons] at hstep
      obtain ⟨ctx₁, hone, hrest⟩ := Option.bind_eq_some_iff.mp hstep
      rw [ih hrest]
      split_ifs at hone
      · rw [Option.some.inj hone]
      · obtain ⟨neigh, tree, -, hchange, -⟩ := updateNeigh2Tuple_inv hone
        obtain ⟨tq, nextId, rfl⟩ := hchange.eq
        apply isSymNeigh_modify
        intro n
        rfl

/-- The sender of a HELLO is a symmetric neighbour in the end exactly if it was when
`populate_neigh2set` was called. -/
theorem HelloStages.isSymNeigh_after {ctx ctx₁ ctx₂ ctx₃ ctx₄ ctx' : OlsrContext}
    {src orig : InAddr} {hello : HelloMsg} {vtime : ℕ}
    (h : HelloStages ctx ctx₁ ctx₂ ctx₃ ctx₄ ctx' src orig hello vtime) :
  IsSymNeigh ctx'.neighborTree src ↔ ctx.SymmetricAfter src hello.helloInfo
  := by
  rw [h.mpr.isSymNeigh, ← h.isSymNeigh_iff]
  by_cases hsym : IsSymNeigh ctx₃.neighborTree src
  · apply populateNeigh2set_isSymNeigh (h.neigh2 hsym)
  · rw [h.skip hsym]

/-- The reports that the event brings: the neighbour that sends a HELLO, with each address that the
HELLO lists as symmetric. -/
def reportsOf (ctx : OlsrContext) (e : NodeEvent) : Set (InAddr × InAddr) :=
  { r | ∃ orig hello vtime, ctx.handlerOf e = some (.hello r.1 orig hello vtime) ∧
    ReportsSymmetric hello.helloInfo r.2 }

/-- A step of a node, with the reports received so far. -/
def reportStep (s : OlsrContext × Set (InAddr × InAddr)) (e : NodeEvent) :
    Option (OlsrContext × Set (InAddr × InAddr)) :=
  (nodeStep s.1 e).map (fun ctx => (ctx, s.2 ∪ s.1.reportsOf e))

/-- If the event is a HELLO, its sender is not symmetric after it, or lists all addresses as
symmetric. -/
def ReportsOnlySymmetric (s : OlsrContext × Set (InAddr × InAddr)) (e : NodeEvent) : Prop :=
  ∀ src orig hello vtime, s.1.handlerOf e = some (.hello src orig hello vtime) →
    s.1.SymmetricAfter src hello.helloInfo → ListsOnlySymmetric s.1.ownIp hello.helloInfo

/-- No handler but that of HELLO messages enters two-hop neighbours. -/
theorem Handler.searchNeigh2 {ctx ctx' : OlsrContext} {handler : Handler} (hsound : ctx.Sound)
    (hrun : handler.run ctx = some ctx')
    (hhello : ∀ src orig hello vtime, handler ≠ .hello src orig hello vtime) {addr x : InAddr}
    (hx : ctx'.searchNeigh2 addr x ≠ none) :
  ctx.searchNeigh2 addr x ≠ none
  := by
  cases handler with
  | hello src orig hello vtime => exact absurd rfl (hhello src orig hello vtime)
  | tc src orig msg vtime =>
      obtain ⟨topo, ⟨tq, nextId, hcore⟩, -⟩ := processOlsrTc_inv hrun hsound.notDuplicated
      have hneighbors : ctx'.neighborTree = ctx.neighborTree := by
        have hneighbors := congrArg OlsrContext.neighborTree hcore
        apply hneighbors
      rwa [OlsrContext.searchNeigh2, hneighbors] at hx
  | link arg =>
      obtain ⟨link, ctx₁, -, hlocal, hchange, -, hupdate⟩ :=
        linkTimerExpire_inv hsound.consistent hrun
      have hdup : NotDuplicated ctx₁.topologyTree := by
        rw [hlocal.topologyTree]
        apply hsound.notDuplicated
      rwa [updateNeighborStatus_searchNeigh2 hupdate hdup, OlsrContext.searchNeigh2,
        hchange.neighborTree] at hx
  | neigh2 arg =>
      obtain ⟨neigh, hneigh, -, hchange⟩ := neigh2ElemExpire_inv hsound.consistent hrun
      obtain ⟨tq, nextId, rfl⟩ := hchange.eq
      simp only [OlsrContext.searchNeigh2, OrdMap.search_modify] at hx ⊢
      split_ifs at hx with haddr
      · subst haddr
        simp only [hneigh, Option.map_some, Option.bind_eq_bind, Option.bind_some,
          OrdMap.search_erase] at hx ⊢
        split_ifs at hx
        · contradiction
        · apply hx
      · apply hx
  | topology arg =>
      obtain ⟨topo, ⟨tq, nextId, hcore⟩, -⟩ :=
        topologyInfoTimerExpireCb_inv hrun hsound.notDuplicated
      have hneighbors : ctx'.neighborTree = ctx.neighborTree := by
        have hneighbors := congrArg OlsrContext.neighborTree hcore
        apply hneighbors
      rwa [OlsrContext.searchNeigh2, hneighbors] at hx

/-- A quiet change enters no two-hop neighbours. -/
theorem Quiet.searchNeigh2 {ctx ctx' : OlsrContext} (h : Quiet ctx ctx') (addr x : InAddr) :
  ctx'.searchNeigh2 addr x = ctx.searchNeigh2 addr x
  := by
  rw [OlsrContext.searchNeigh2, OlsrContext.searchNeigh2, h.neighborTree]

/-- The two-hop neighbours after a step were there before, or a HELLO of a neighbour that is
symmetric after it lists them. -/
theorem nodeStep_searchNeigh2 {ctx ctx' : OlsrContext} (h : ctx.Backed) (hsound : ctx.Sound)
    {e : NodeEvent} (hstep : nodeStep ctx e = some ctx') {addr x : InAddr}
    (hx : ctx'.searchNeigh2 addr x ≠ none) :
  ctx.searchNeigh2 addr x ≠ none ∨
    ∃ orig hello vtime, ctx.handlerOf e = some (.hello addr orig hello vtime) ∧
      x ∈ hello.helloInfo.flatMap HelloInfo.neighAddr ∧ x ≠ ctx.ownIp ∧
      ctx.SymmetricAfter addr hello.helloInfo
  := by
  have hother : ∀ {handler : Handler} {ctx₁ ctx₂ : OlsrContext}, Quiet ctx ctx₁ →
      handler.run ctx₁ = some ctx₂ → Quiet ctx₂ ctx' →
      (∀ src orig hello vtime, handler ≠ .hello src orig hello vtime) →
      ctx.searchNeigh2 addr x ≠ none := by
    intro handler ctx₁ ctx₂ hbefore hrun hafter hhello
    rw [hafter.searchNeigh2] at hx
    rw [← hbefore.searchNeigh2]
    apply Handler.searchNeigh2 (hsound.quiet hbefore) hrun hhello hx
  cases e with
  | recv now src msg =>
      let ctx₀ : OlsrContext := { ctx with clock := now }
      have h₀ : ctx₀.Backed := h.change (Change.same SameEntries.of_eq : Change False _ _)
      have hbefore : Quiet ctx ctx₀ := Quiet.of_eq
      rcases handleOlsrMsg_inv hstep with hquiet | ⟨handler, ctx₁, hhandler, hrun, hafter⟩
      · left
        rwa [hquiet.searchNeigh2] at hx
      · cases handler with
        | hello src' orig hello vtime =>
            obtain ⟨ctx₁', ctx₂, ctx₃, ctx₄, hst⟩ :=
              processOlsrHello_stages h₀ (hsound.quiet hbefore) hrun
            by_cases hlisted : addr = src' ∧ x ∈ hello.helloInfo.flatMap HelloInfo.neighAddr ∧
                x ≠ ctx₀.ownIp ∧ ctx₀.SymmetricAfter src' hello.helloInfo
            · obtain ⟨rfl, hlisted⟩ := hlisted
              right
              exact ⟨orig, hello, vtime, hhandler, hlisted⟩
            · left
              rw [hafter.searchNeigh2, (hst.keepsNeigh2 hlisted).1] at hx
              apply hx
        | tc src' orig msg vtime =>
            left
            apply hother hbefore hrun hafter (by simp)
        | link arg =>
            left
            apply hother hbefore hrun hafter (by simp)
        | neigh2 arg =>
            left
            apply hother hbefore hrun hafter (by simp)
        | topology arg =>
            left
            apply hother hbefore hrun hafter (by simp)
  | work now currtime rand =>
      left
      rcases nodeStep_inv hstep with
        hquiet | ⟨handler, ctx₁, ctx₂, hhandler, hbefore, hrun, hafter⟩
      · rwa [hquiet.searchNeigh2] at hx
      · apply hother hbefore hrun hafter
        rintro src orig hello vtime rfl
        obtain ⟨c, -, hc⟩ := Option.bind_eq_some_iff.mp hhandler
        cases c <;> simp [callbackHandler] at hc

/-- Each two-hop neighbour has been reported as symmetric. -/
structure HasReports (s : OlsrContext × Set (InAddr × InAddr)) : Prop where
  sound : s.1.Sound
  held : s.1.Held none
  reported : ∀ addr x, s.1.searchNeigh2 addr x ≠ none → (addr, x) ∈ s.2

/-- A step keeps all two-hop neighbours reported if a HELLO lists symmetric neighbours only. -/
theorem HasReports.step {s s' : OlsrContext × Set (InAddr × InAddr)} (h : HasReports s)
    {e : NodeEvent} (hok : ReportsOnlySymmetric s e) (hstep : reportStep s e = some s') :
  HasReports s'
  := by
  obtain ⟨ctx', hnode, rfl⟩ := Option.map_eq_some_iff.mp hstep
  refine ⟨h.sound.step hnode, (h.held.step h.sound hnode).1, ?_⟩
  intro addr x hx
  rcases nodeStep_searchNeigh2 h.held.backed h.sound hnode hx with
    hold | ⟨orig, hello, vtime, hhandler, hlisted, hne, hsym⟩
  · left
    apply h.reported addr x hold
  · right
    exact ⟨orig, hello, vtime, hhandler, hok addr orig hello vtime hhandler hsym x hlisted hne⟩

/-- A strict two-hop neighbour has been reported by a symmetric neighbour that reaches it. -/
theorem HasReports.bridges {s : OlsrContext × Set (InAddr × InAddr)} (h : HasReports s) {x : InAddr}
    (hx : IsN2 s.1.ownIp s.1.neighborTree x) :
  ∃ n, Bridges s.1.neighborTree n x ∧ (n, x) ∈ s.2
  := by
  obtain ⟨-, -, n, hbridges⟩ := hx
  refine ⟨n, hbridges, h.reported n x ?_⟩
  obtain ⟨neigh, hneigh, -, hmem⟩ := hbridges
  obtain ⟨n2elem, hn2elem⟩ := OrdMap.mem_iff.mp hmem
  simp [searchNeigh2, hneigh, hn2elem]

end OlsrContext
