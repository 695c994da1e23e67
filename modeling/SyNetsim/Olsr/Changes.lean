import SyNetsim.Olsr.Entries

/-!
# How handlers change entries and timers

The handlers of messages, gone through once. As long as the timers of entries are allocated
(`Backed`), a message is handled, and what it does to entries and timers is a sequence of changes
(`Backed.handleOlsrMsg`). The only exception is a HELLO that makes `populate_linkset` follow a
null pointer (`FollowsNull`).

An expiry callback, if it succeeds, removes its entry with the timers of the entry
(`runExpiry_removes`).
-/

namespace OlsrContext

/-! ### Starting timers -/

/-- A new timer can be started. It is the change if it belongs to an entry then. -/
theorem Backed.startTimer {ctx : OlsrContext} (h : ctx.Backed) (c : Callback) (intervalUs : ℤ)
    (useOnce : Bool) :
  ∃ p tq, ctx.timerqueue.startTimer ctx.clock c intervalUs useOnce = some (p, tq) ∧
    p ∉ ctx.timerqueue.elems ∧ tq.Has c p ∧ tq.Wf none ∧
    ∀ ctx' : OlsrContext, ctx'.timerqueue = tq →
      (∀ d q, ctx'.Owns d q ↔ ctx.Owns d q ∨ d = c ∧ q = p) → ctx.nextId ≤ ctx'.nextId →
      Starts c p ctx ctx'
  := by
  obtain ⟨tq, htq, hwf, hgrows, hsafe, hnew, harmed⟩ :=
    TimerqueueContext.startTimer_grows h.wf ctx.clock c intervalUs useOnce
  refine ⟨_, tq, htq, hnew, hsafe.has, hwf, ?_⟩
  rintro ctx' rfl howns hnext
  exact ⟨hwf, hgrows, Or.inr hsafe, harmed, howns, hnext⟩

/-- No entry gets a timer when a known one is started again. -/
theorem owns_known {ctx ctx' : OlsrContext} {c : Callback} {p : ℕ} (hp : ctx.Owns c p)
    (howns : ∀ d q, ctx'.Owns d q ↔ ctx.Owns d q) (d : Callback) (q : ℕ) :
  ctx'.Owns d q ↔ ctx.Owns d q ∨ d = c ∧ q = p
  := by
  rw [howns]
  constructor
  · intro hd
    left
    apply hd
  · rintro (hd | ⟨rfl, rfl⟩)
    · apply hd
    · apply hp

/-- The timer of an entry can be reactivated. -/
theorem Backed.reactivateTimer {ctx : OlsrContext} (h : ctx.Backed) {c : Callback} {p : ℕ}
    (hp : ctx.Owns c p) :
  ∃ tq, ctx.timerqueue.timerqueueReactivateTimer ctx.clock p = some tq ∧
    ∀ ctx' : OlsrContext, ctx'.timerqueue = tq → (∀ d q, ctx'.Owns d q ↔ ctx.Owns d q) →
      ctx.nextId ≤ ctx'.nextId → Starts c p ctx ctx'
  := by
  obtain ⟨tq, htq, hwf, hgrows, harmed⟩ :=
    TimerqueueContext.reactivate_grows h.wf (h.has c p hp) ctx.clock
  refine ⟨tq, htq, ?_⟩
  rintro ctx' rfl howns hnext
  exact ⟨hwf, hgrows, Or.inl hp, harmed, owns_known hp howns, hnext⟩

/-- The timer of an entry can be restarted. -/
theorem Backed.restartTimer {ctx : OlsrContext} (h : ctx.Backed) {c : Callback} {p : ℕ}
    (hp : ctx.Owns c p) (intervalUs : ℤ) :
  ∃ tq, ctx.timerqueue.restartTimer ctx.clock p intervalUs = some tq ∧
    ∀ ctx' : OlsrContext, ctx'.timerqueue = tq → (∀ d q, ctx'.Owns d q ↔ ctx.Owns d q) →
      ctx.nextId ≤ ctx'.nextId → Starts c p ctx ctx'
  := by
  obtain ⟨tq, htq, hwf, hgrows, harmed⟩ :=
    TimerqueueContext.restart_grows h.wf (h.has c p hp) ctx.clock intervalUs
  refine ⟨tq, htq, ?_⟩
  rintro ctx' rfl howns hnext
  exact ⟨hwf, hgrows, Or.inl hp, harmed, owns_known hp howns, hnext⟩

/-! ### Links -/

/-- The timers of a link that is found belong to it. -/
theorem owns_link {ctx : OlsrContext} {i a : InAddr} {link : LinkElem}
    (hlink : ctx.searchLink i a = some link) {p : ℕ} (hp : link.HasTimer p) :
  ctx.Owns (.linkTimerExpire ⟨(i, a), link.id⟩) p
  := ⟨link, followLink_eq_some.mpr ⟨hlink, rfl⟩, hp⟩

/-- The timers of entries after a link has been entered, or written to with its number kept. -/
theorem owns_writeLink {ctx ctx' : OlsrContext} {i a : InAddr} {link' : LinkElem}
    (hsearch : ∀ x y, ctx'.searchLink x y =
      if x = i ∧ y = a then some link' else ctx.searchLink x y)
    (hneighbors : ctx'.neighborTree = ctx.neighborTree)
    (htopology : ctx'.topologyTree = ctx.topologyTree) (hdup : ctx'.dupTree = ctx.dupTree)
    (helems : ctx'.selectorElems = ctx.selectorElems)
    (hid : ∀ link, ctx.searchLink i a = some link → link.id = link'.id)
    {started : ℕ → Prop}
    (htimer : ∀ q, link'.HasTimer q ↔
      (∃ link, ctx.searchLink i a = some link ∧ link.HasTimer q) ∨ started q)
    (c : Callback) (q : ℕ) :
  ctx'.Owns c q ↔ ctx.Owns c q ∨ c = .linkTimerExpire ⟨(i, a), link'.id⟩ ∧ started q
  := by
  cases c with
  | linkTimerExpire arg =>
      obtain ⟨⟨x, y⟩, id⟩ := arg
      simp only [Owns, followLink_eq_some, hsearch, Callback.linkTimerExpire.injEq,
        Ptr.mk.injEq, Prod.mk.injEq]
      by_cases hkey : x = i ∧ y = a
      · obtain ⟨rfl, rfl⟩ := hkey
        simp only [and_self, if_true, Option.some.injEq, true_and]
        constructor
        · rintro ⟨link, ⟨rfl, rfl⟩, hq⟩
          rcases (htimer q).mp hq with ⟨old, hold, hq⟩ | hq
          · left
            exact ⟨old, ⟨hold, hid old hold⟩, hq⟩
          · right
            exact ⟨rfl, hq⟩
        · rintro (⟨old, ⟨hold, rfl⟩, hq⟩ | ⟨rfl, hq⟩)
          · exact ⟨link', ⟨rfl, (hid old hold).symm⟩, (htimer q).mpr (Or.inl ⟨old, hold, hq⟩)⟩
          · exact ⟨link', ⟨rfl, rfl⟩, (htimer q).mpr (Or.inr hq)⟩
      · simp only [hkey, if_false, false_and, or_false]
  | neigh2ElemExpire arg => simp [Owns, followNeigh2, searchNeigh2, hneighbors]
  | topologyInfoTimerExpireCb arg => simp [Owns, followTopology, htopology]
  | expireDupEntryCb arg => simp [Owns, followDup, hdup]
  | mprSelectorExpire arg => simp [Owns, helems]
  | _ => simp [Owns]

/-- Writing to a link that is there. -/
theorem writesLink_setLink {ctx : OlsrContext} {i a : InAddr} {link : LinkElem}
    (hlink : ctx.searchLink i a = some link) (tq : TimerqueueContext Callback)
    (link' : LinkElem) :
  WritesLink i a link' ctx (OlsrContext.setLink { ctx with timerqueue := tq } i a link')
  := by
  refine ⟨?_, rfl, rfl⟩
  intro x y
  have hlink' : OlsrContext.searchLink { ctx with timerqueue := tq } i a = some link := hlink
  rw [searchLink_setLink, hlink', Option.map_some]
  rfl

/-- A timer of a link can be set. It is the change once the link holds the timer. -/
theorem Backed.linkTimerSet {ctx : OlsrContext} (h : ctx.Backed) {i a : InAddr} {link : LinkElem}
    (hlink : ctx.searchLink i a = some link) {timer : Option ℕ}
    (htimer : ∀ p, timer = some p → link.HasTimer p) (vtime : ℕ) :
  ∃ p tq, OlsrContext.linkTimerSet ctx.timerqueue ctx.clock ⟨(i, a), link.id⟩ timer vtime =
      some (some p, tq) ∧
    (timer = some p ∨ timer = none ∧ p ∉ ctx.timerqueue.elems) ∧
    ∀ ctx' link', ctx'.timerqueue = tq → WritesLink i a link' ctx ctx' →
      ctx'.neighborTree = ctx.neighborTree → ctx'.topologyTree = ctx.topologyTree →
      ctx'.dupTree = ctx.dupTree → ctx.nextId ≤ ctx'.nextId → link'.id = link.id →
      (∀ q, link'.HasTimer q ↔ link.HasTimer q ∨ q = p) →
      Starts (.linkTimerExpire ⟨(i, a), link.id⟩) p ctx ctx'
  := by
  have howns : ∀ ctx' link', WritesLink i a link' ctx ctx' →
      ctx'.neighborTree = ctx.neighborTree → ctx'.topologyTree = ctx.topologyTree →
      ctx'.dupTree = ctx.dupTree → link'.id = link.id → ∀ p,
      (∀ q, link'.HasTimer q ↔ link.HasTimer q ∨ q = p) → ∀ c q,
      ctx'.Owns c q ↔ ctx.Owns c q ∨ c = .linkTimerExpire ⟨(i, a), link.id⟩ ∧ q = p := by
    intro ctx' link' hwrites hneighbors htopology hdup hid p hp c q
    rw [← hid]
    apply owns_writeLink hwrites.searchLink hneighbors htopology hdup hwrites.selectorElems
    · intro old hold
      rw [hlink, Option.some.injEq] at hold
      rw [hid, hold]
    · intro q
      rw [hp, hlink]
      simp
  cases timer with
  | none =>
      obtain ⟨p, tq, htq, hnew, -, -, hstarts⟩ :=
        h.startTimer (.linkTimerExpire ⟨(i, a), link.id⟩) (vtimeInterval vtime) true
      refine ⟨p, tq, ?_, Or.inr ⟨rfl, hnew⟩, ?_⟩
      · simp [OlsrContext.linkTimerSet, htq]
      · intro ctx' link' hctx' hwrites hneighbors htopology hdup hnext hid hp
        apply hstarts ctx' hctx' _ hnext
        apply howns ctx' link' hwrites hneighbors htopology hdup hid p hp
  | some p =>
      have hp := owns_link hlink (htimer p rfl)
      obtain ⟨tq, htq, hstarts⟩ := h.restartTimer hp (vtimeInterval vtime)
      refine ⟨p, tq, ?_, Or.inl rfl, ?_⟩
      · simp [OlsrContext.linkTimerSet, htq]
      · intro ctx' link' hctx' hwrites hneighbors htopology hdup hnext hid hp'
        apply hstarts ctx' hctx' _ hnext
        intro d q
        rw [howns ctx' link' hwrites hneighbors htopology hdup hid p hp',
          ← owns_known hp (fun _ _ => Iff.rfl)]

/-- Finding the link to the sender, or making it, sets its timer `expire_timer`. -/
theorem Backed.findLink {ctx : OlsrContext} (h : ctx.Backed) {src : InAddr}
    (hiface : ctx.ownIp ∈ ctx.localIfaceTree) (vtime : ℕ) (foreign : Prop) :
  ∃ link ctx', ctx.findLink src vtime = some (link, ctx') ∧ Changes foreign ctx ctx' ∧
    ctx'.ownIp = ctx.ownIp ∧ ctx'.searchLink ctx.ownIp src = some link ∧
    link.symTimer = (ctx.searchLink ctx.ownIp src).bind LinkElem.symTimer
  := by
  cases hlink : ctx.searchLink ctx.ownIp src with
  | none =>
      obtain ⟨p, tq, htq, hnew, -, -, hstarts⟩ :=
        h.startTimer (.linkTimerExpire ⟨(ctx.ownIp, src), ctx.nextId⟩) (vtimeInterval vtime) true
      let link : LinkElem := ⟨ctx.nextId, ctx.ownIp, .lostLink, none, none, some p⟩
      let ctx₁ : OlsrContext := { ctx with nextId := ctx.nextId + 1, timerqueue := tq }
      have hwrites : WritesLink ctx.ownIp src link ctx (ctx₁.insertLink ctx.ownIp src link) :=
        ⟨searchLink_insertLink ctx₁ link hiface hlink, rfl, rfl⟩
      refine ⟨link, ctx₁.insertLink ctx.ownIp src link, ?_, ?_, rfl, ?_, rfl⟩
      · simp only [OlsrContext.findLink, hlink, makeLinkElem, linkElemExpireTimerSet,
          OlsrContext.linkTimerSet, htq, Option.bind_eq_bind, Option.bind_some, Option.pure_def]
        rfl
      · apply Relation.ReflTransGen.single
        apply Change.newLink hlink hnew _ hwrites
        apply hstarts _ rfl _ (Nat.le_succ _)
        intro c q
        apply owns_writeLink hwrites.searchLink rfl rfl rfl rfl
        · intro old hold
          rw [hlink] at hold
          contradiction
        · intro q
          rw [hlink]
          simp [LinkElem.HasTimer, link, eq_comm]
      · rw [hwrites.searchLink, if_pos ⟨rfl, rfl⟩]
  | some link =>
      obtain ⟨q, hq⟩ := h.expire _ _ link hlink
      obtain ⟨p, tq, htq, hp, hset⟩ := h.linkTimerSet hlink
        (fun p hp => Or.inl hp : ∀ p, link.expireTimer = some p → link.HasTimer p) vtime
      obtain rfl : q = p := by
        rcases hp with hp | ⟨hnone, -⟩
        · rw [hq, Option.some.injEq] at hp
          apply hp
        · rw [hq] at hnone
          contradiction
      have hwrites : WritesLink ctx.ownIp src link ctx { ctx with timerqueue := tq } := by
        refine ⟨?_, rfl, rfl⟩
        intro x y
        split_ifs with hkey
        · rw [hkey.1, hkey.2]
          apply hlink
        · rfl
      refine ⟨link, { ctx with timerqueue := tq }, ?_, ?_, rfl, hlink, rfl⟩
      · simp only [OlsrContext.findLink, hlink, linkElemExpireTimerSet, htq, Option.bind_eq_bind,
          Option.bind_some, Option.pure_def]
        rw [← hq]
      · apply Relation.ReflTransGen.single
        apply Change.setTimer hlink (.expire hq) _ hwrites
        apply hset _ link rfl hwrites rfl rfl rfl (Nat.le_refl _) rfl
        intro q'
        constructor
        · intro hq'
          left
          apply hq'
        · rintro (hq' | rfl)
          · apply hq'
          · left
            apply hq

/-- Finding the link to the sender and setting its timers succeeds. The link has a timer
`asym_timer` then, and keeps its timer `sym_timer`. -/
theorem Backed.touchLink {ctx : OlsrContext} (h : ctx.Backed) {src : InAddr}
    (hiface : ctx.ownIp ∈ ctx.localIfaceTree) (vtime : ℕ) (foreign : Prop) :
  ∃ ctx' link p, ctx.touchLink src vtime = some ctx' ∧ Changes foreign ctx ctx' ∧
    ctx'.searchLink ctx.ownIp src = some link ∧ link.asymTimer = some p ∧
    link.symTimer = (ctx.searchLink ctx.ownIp src).bind LinkElem.symTimer
  := by
  obtain ⟨link, ctx₁, hfind, hchanges, hown, hlink, hsym⟩ := h.findLink hiface vtime foreign
  rw [← hown] at hlink
  obtain ⟨p, tq, htq, hp, hset⟩ := (h.changes hchanges).linkTimerSet hlink
    (fun p hp => Or.inr (Or.inl hp) : ∀ p, link.asymTimer = some p → link.HasTimer p) vtime
  let link' : LinkElem := { link with
    status := if link.status ≠ .symLink then .asymLink else link.status
    asymTimer := some p }
  let ctx' : OlsrContext :=
    OlsrContext.setLink { ctx₁ with timerqueue := tq } ctx₁.ownIp src link'
  have hwrites : WritesLink ctx₁.ownIp src link' ctx₁ ctx' := writesLink_setLink hlink tq link'
  refine ⟨ctx', link', p, ?_, ?_, ?_, rfl, hsym⟩
  · simp only [OlsrContext.touchLink, hfind, linkElemAsymTimerSet, htq, Option.bind_eq_bind,
      Option.bind_some, Option.pure_def]
    rfl
  · apply hchanges.tail
    apply Change.setTimer hlink (.asym hp) _ hwrites
    apply hset ctx' link' rfl hwrites rfl rfl rfl (Nat.le_refl _) rfl
    intro q
    constructor
    · rintro (hq | hq | hq)
      · left
        left
        apply hq
      · right
        apply (Option.some.inj hq).symm
      · left
        right
        right
        apply hq
    · rintro ((hq | hq | hq) | rfl)
      · left
        apply hq
      · right
        left
        rcases hp with hp | ⟨hnone, -⟩
        · rw [← hq, hp]
        · rw [hnone] at hq
          contradiction
      · right
        right
        apply hq
      · right
        left
        rfl
  · rw [← hown, hwrites.searchLink, if_pos ⟨rfl, rfl⟩]

/-- Marking the link to the sender as symmetric succeeds. -/
theorem Backed.setSymLink {ctx : OlsrContext} (h : ctx.Backed) {src : InAddr} {link : LinkElem}
    (hlink : ctx.searchLink ctx.ownIp src = some link) (vtime : ℕ) (foreign : Prop) :
  ∃ ctx', ctx.setSymLink src vtime = some ctx' ∧ Changes foreign ctx ctx'
  := by
  obtain ⟨p, tq, htq, hp, hset⟩ := h.linkTimerSet hlink
    (fun p hp => Or.inr (Or.inr hp) : ∀ p, link.symTimer = some p → link.HasTimer p) vtime
  let link' : LinkElem := { link with status := .symLink, symTimer := some p }
  let ctx' : OlsrContext :=
    OlsrContext.setLink { ctx with timerqueue := tq } ctx.ownIp src link'
  have hwrites : WritesLink ctx.ownIp src link' ctx ctx' := writesLink_setLink hlink tq link'
  use ctx'
  constructor
  · simp only [OlsrContext.setSymLink, hlink, linkElemSymTimerSet, htq, Option.bind_eq_bind,
      Option.bind_some, Option.pure_def]
    rfl
  · apply Relation.ReflTransGen.single
    apply Change.setTimer hlink (.sym hp) _ hwrites
    apply hset ctx' link' rfl hwrites rfl rfl rfl (Nat.le_refl _) rfl
    intro q
    constructor
    · rintro (hq | hq | hq)
      · left
        left
        apply hq
      · left
        right
        left
        apply hq
      · right
        apply (Option.some.inj hq).symm
    · rintro ((hq | hq | hq) | rfl)
      · left
        apply hq
      · right
        left
        apply hq
      · right
        right
        rcases hp with hp | ⟨hnone, -⟩
        · rw [← hq, hp]
        · rw [hnone] at hq
          contradiction
      · right
        right
        rfl

/-! ### HELLO messages -/

/-- The HELLO lists `ownIp` with status `LOST_LINK`. -/
def ListsAsLost (ownIp : InAddr) (hello : HelloMsg) : Prop :=
  ∃ info ∈ hello.helloInfo, ownIp ∈ info.neighAddr ∧
    extractLink info.linkCode = LinkStatus.lostLink.code

/-- The link code found is one of a group that lists the address. -/
theorem linkcodeToMe_mem {ownIp : InAddr} {helloInfo : List HelloInfo}
    (h : linkcodeToMe ownIp helloInfo ≠ statusUnavailable) :
  ∃ info ∈ helloInfo, ownIp ∈ info.neighAddr ∧ info.linkCode = linkcodeToMe ownIp helloInfo
  := by
  induction helloInfo with
  | nil => contradiction
  | cons info rest ih =>
      rw [linkcodeToMe] at h ⊢
      split_ifs at h ⊢ with hinfo
      · exact ⟨info, List.mem_cons_self, hinfo.1, rfl⟩
      · obtain ⟨info', hmem, hlisted, hcode⟩ := ih h
        exact ⟨info', List.mem_cons_of_mem _ hmem, hlisted, hcode⟩

/-- Marking the link to the sender as lost succeeds if the link has a timer `sym_timer`, which is
stopped. -/
theorem Backed.setLostLink {ctx : OlsrContext} (h : ctx.Backed)
    (hdup : NotDuplicated ctx.topologyTree) {src : InAddr} {link : LinkElem} {p q : ℕ}
    (hlink : ctx.searchLink ctx.ownIp src = some link) (hsym : link.symTimer = some p)
    (hasym : link.asymTimer = some q) (hneigh : src ∈ ctx.neighborTree) {foreign : Prop}
    (hforeign : foreign) :
  ∃ ctx', ctx.setLostLink src = some ctx' ∧ Changes foreign ctx ctx'
  := by
  obtain ⟨id, localIfaceAddr, status₀, symTimer, asymTimer, expireTimer⟩ := link
  dsimp only at hsym hasym
  subst hsym hasym
  have hp := h.has _ p (owns_link hlink (Or.inr (Or.inr rfl)))
  have hq := h.has _ q (owns_link hlink (Or.inr (Or.inl rfl)))
  obtain ⟨hwf, hgrows, harmed⟩ := TimerqueueContext.inactive_grows h.wf hp
  let tq : TimerqueueContext Callback :=
    ctx.timerqueue.update p (fun e => { e with active := false })
  obtain ⟨e, he, -⟩ := hp
  obtain ⟨e', he', -⟩ := hgrows.has _ q hq
  let status : LinkStatus := if e'.active then .asymLink else .lostLink
  have hstatus : status ≠ .symLink := by
    simp only [status]
    split_ifs
    · simp
    · simp
  let link' : LinkElem := ⟨id, localIfaceAddr, status, some p, some q, expireTimer⟩
  let ctx₁ : OlsrContext := OlsrContext.setLink { ctx with timerqueue := tq } ctx.ownIp src link'
  have hwrites : WritesLink ctx.ownIp src link' ctx ctx₁ := writesLink_setLink hlink tq link'
  have hstops : Stops p ctx ctx₁ := by
    refine ⟨hwf, hgrows, harmed, ?_, rfl⟩
    intro c r
    have hid : ∀ old, ctx.searchLink ctx.ownIp src = some old → old.id = link'.id := by
      intro old hold
      rw [hlink, Option.some.injEq] at hold
      rw [← hold]
    have htimer : ∀ r, link'.HasTimer r ↔
        (∃ old, ctx.searchLink ctx.ownIp src = some old ∧ old.HasTimer r) ∨ False := by
      intro r
      rw [hlink]
      simp [LinkElem.HasTimer, link']
    rw [owns_writeLink hwrites.searchLink rfl rfl rfl rfl hid htimer]
    simp
  obtain ⟨neigh, hneigh⟩ := OrdMap.mem_iff.mp hneigh
  have hneigh₁ : ctx₁.neighborTree.search src = some neigh := hneigh
  have hdup₁ : NotDuplicated ctx₁.topologyTree := hdup
  obtain ⟨ctx', hupdate, -⟩ := updateNeighborStatus_spec hdup₁ hneigh₁
  refine ⟨ctx', ?_, ?_⟩
  · have hlink₁ : OlsrContext.searchLink { ctx with timerqueue := tq } ctx.ownIp src =
        some ⟨id, localIfaceAddr, status₀, some p, some q, expireTimer⟩ := hlink
    simp only [tq] at hlink₁ he'
    simp only [OlsrContext.setLostLink, hlink, he, symLinkTimerExpire, hlink₁, he',
      Option.bind_eq_bind, Option.bind_some]
    apply hupdate
  · apply Relation.ReflTransGen.tail _ (Change.same (updateNeighborStatus_same hupdate hdup₁))
    apply Relation.ReflTransGen.single
    apply Change.stopSym hforeign hlink rfl hstatus hstops hwrites

/-- Entering the sender as an MPR selector succeeds. -/
theorem Backed.populateMprSelector {ctx : OlsrContext} (h : ctx.Backed) (src orig : InAddr)
    (vtime : ℕ) {foreign : Prop} (hforeign : foreign ∨ src = orig) :
  ∃ ctx', ctx.populateMprSelector src orig vtime = some ctx' ∧ Changes foreign ctx ctx'
  := by
  cases hsearch : ctx.selectorTree.search src with
  | some id =>
      obtain ⟨selem, hselem, haddr⟩ := h.tree src id hsearch
      have hp : ctx.Owns (.mprSelectorExpire id) selem.expireTimer := ⟨selem, hselem, rfl⟩
      obtain ⟨tq, htq, hstarts⟩ := h.restartTimer hp (vtimeInterval vtime)
      have htree : ctx.selectorTree.insert selem.selectorAddr id = ctx.selectorTree := by
        apply OrdMap.insert_of_mem
        rw [haddr]
        apply OrdMap.mem_of_search hsearch
      refine ⟨{ ctx with timerqueue := tq, selectorTree := ctx.selectorTree }, ?_, ?_⟩
      · simp only [OlsrContext.populateMprSelector, findMprSelector, hsearch, hselem, htq, htree,
          Option.bind_eq_bind, Option.bind_some, Option.pure_def]
      · apply Relation.ReflTransGen.single
        refine Change.start (c := .mprSelectorExpire id) ?_ (hstarts _ rfl ?_ (Nat.le_refl _))
          ⟨fun _ _ => rfl, rfl, rfl⟩
        · intro arg heq
          contradiction
        · intro d q
          cases d <;> rfl
  | none =>
      obtain ⟨p, tq, htq, hnew, hhas, hwf, hstarts⟩ :=
        h.startTimer (.mprSelectorExpire ctx.nextId) 0 false
      obtain ⟨tq', htq', hwf', hgrows', harmed'⟩ :=
        TimerqueueContext.restart_grows hwf hhas ctx.clock (vtimeInterval vtime)
      have hfresh : ctx.selectorElems.search ctx.nextId = none :=
        OrdMap.search_eq_none.mpr (fun hmem => lt_irrefl _ (h.elems _ hmem))
      let selem : MprSelectorElem := ⟨orig, p⟩
      have hselem : ∀ id, (ctx.selectorElems.insert ctx.nextId selem).search id =
          if id = ctx.nextId then some selem else ctx.selectorElems.search id := by
        intro id
        rw [OrdMap.search_insert, hfresh, Option.getD_none]
      let ctx' : OlsrContext := { ctx with
        timerqueue := tq'
        nextId := ctx.nextId + 1
        selectorElems := ctx.selectorElems.insert ctx.nextId selem
        selectorTree := ctx.selectorTree.insert orig ctx.nextId }
      have howns : ∀ d q, ctx'.Owns d q ↔
          ctx.Owns d q ∨ d = .mprSelectorExpire ctx.nextId ∧ q = p := by
        intro d q
        cases d with
        | mprSelectorExpire id =>
            simp only [Owns, ctx', hselem, Callback.mprSelectorExpire.injEq]
            by_cases hid : id = ctx.nextId
            · simp [hid, hfresh, selem, eq_comm]
            · simp [hid]
        | _ => simp [ctx', Owns, followNeigh2, followTopology, followDup, followLink, searchNeigh2,
            searchLink]
      refine ⟨ctx', ?_, ?_⟩
      · have hself := hselem ctx.nextId
        rw [if_pos rfl] at hself
        simp only [selem] at hself
        simp only [OlsrContext.populateMprSelector, findMprSelector, hsearch, htq, hself, htq',
          Option.bind_eq_bind, Option.bind_some, Option.pure_def]
        rfl
      · apply Relation.ReflTransGen.single
        have hfirst := hstarts { ctx' with timerqueue := tq } rfl (by
          intro d q
          rw [← howns]
          cases d <;> rfl) (Nat.le_succ _)
        refine Change.selector ?_ ⟨hwf', ?_, ?_, ?_, howns, Nat.le_succ _⟩ (fun _ _ => rfl) rfl rfl
          rfl
        · rcases hforeign with hforeign | rfl
          · left
            apply hforeign
          · right
            apply hsearch
        · apply hfirst.grows.trans hgrows'
        · right
          rcases hfirst.safe with hp | hsafe
          · obtain ⟨selem', hselem', -⟩ := hp
            rw [hfresh] at hselem'
            contradiction
          · apply hgrows'.safe _ _ hsafe
        · intro d q
          rw [harmed', hfirst.armed]
          tauto

/-- The HELLO of `src` lists this node as lost, but the link to `src` has no timer `sym_timer`:
`populate_linkset` follows a null pointer. -/
def FollowsNull (ctx : OlsrContext) (src : InAddr) (helloInfo : List HelloInfo) : Prop :=
  linkcodeToMe ctx.ownIp helloInfo ≠ statusUnavailable ∧
    extractLink (linkcodeToMe ctx.ownIp helloInfo) = LinkStatus.lostLink.code ∧
    (ctx.searchLink ctx.ownIp src).bind LinkElem.symTimer = none

theorem FollowsNull.listsAsLost {ctx : OlsrContext} {src : InAddr} {hello : HelloMsg}
    (h : ctx.FollowsNull src hello.helloInfo) :
  ListsAsLost ctx.ownIp hello
  := by
  obtain ⟨hcode, hlost, -⟩ := h
  obtain ⟨info, hinfo, hlisted, heq⟩ := linkcodeToMe_mem hcode
  refine ⟨info, hinfo, hlisted, ?_⟩
  rw [heq]
  apply hlost

/-- `populate_linkset` succeeds unless it follows a null pointer. -/
theorem Backed.populateLinkset {ctx : OlsrContext} (h : ctx.Backed)
    (hdup : NotDuplicated ctx.topologyTree) {src orig : InAddr} {link : LinkElem} {q : ℕ}
    (hlink : ctx.searchLink ctx.ownIp src = some link) (hasym : link.asymTimer = some q)
    (hneigh : src ∈ ctx.neighborTree) {hello : HelloMsg} {foreign : Prop}
    (hforeign : ¬ foreign → src = orig ∧ ¬ ListsAsLost ctx.ownIp hello)
    (hnull : ¬ ctx.FollowsNull src hello.helloInfo) (vtime : ℕ) :
  ∃ ctx', ctx.populateLinkset src orig hello.helloInfo vtime = some ctx' ∧
    Changes foreign ctx ctx'
  := by
  rw [OlsrContext.populateLinkset]
  by_cases hcode : linkcodeToMe ctx.ownIp hello.helloInfo = statusUnavailable
  · exact ⟨ctx, if_pos hcode, Relation.ReflTransGen.refl⟩
  · rw [if_neg hcode]
    obtain ⟨ctx₁, hctx₁, hchanges₁⟩ : ∃ ctx₁, ctx.populateLinkStatus src
        (extractLink (linkcodeToMe ctx.ownIp hello.helloInfo)) vtime = some ctx₁ ∧
        Changes foreign ctx ctx₁ := by
      rw [populateLinkStatus]
      split_ifs with hsym hlost
      · apply h.setSymLink hlink
      · obtain ⟨p, hp⟩ : ∃ p, link.symTimer = some p := by
          apply Option.ne_none_iff_exists'.mp
          intro hnone
          apply hnull
          refine ⟨hcode, hlost, ?_⟩
          rw [hlink, Option.bind_some, hnone]
        apply h.setLostLink hdup hlink hp hasym hneigh
        by_contra hnot
        apply (hforeign hnot).2
        obtain ⟨info, hinfo, hlisted, heq⟩ := linkcodeToMe_mem hcode
        refine ⟨info, hinfo, hlisted, ?_⟩
        rw [heq]
        apply hlost
      · exact ⟨ctx, rfl, Relation.ReflTransGen.refl⟩
    rw [hctx₁]
    simp only [Option.bind_eq_bind, Option.bind_some, Option.pure_def]
    split_ifs
    · obtain ⟨ctx', hctx', hchanges'⟩ := (h.changes hchanges₁).populateMprSelector src orig vtime
        (by
          rw [or_iff_not_imp_left]
          intro hnot
          apply (hforeign hnot).1)
      exact ⟨ctx', hctx', hchanges₁.trans hchanges'⟩
    · exact ⟨ctx₁, rfl, hchanges₁⟩

/-- The two-hop neighbours after one has been entered. -/
theorem searchNeigh2_insert {ctx : OlsrContext} {addr n2addr : InAddr} {neigh : NeighborElem}
    (hneigh : ctx.neighborTree.search addr = some neigh)
    (hn2 : neigh.neighbor2Tree.search n2addr = none) (tq : TimerqueueContext Callback)
    (nextId : ℕ) (n2elem : Neighbor2Elem) (a x : InAddr) :
  searchNeigh2 { ctx with
    timerqueue := tq
    nextId := nextId
    neighborTree := ctx.neighborTree.modify addr (fun neigh =>
      { neigh with neighbor2Tree := neigh.neighbor2Tree.insert n2addr n2elem }) } a x
    = if a = addr ∧ x = n2addr then some n2elem else ctx.searchNeigh2 a x
  := by
  apply Eq.trans (searchNeigh2_modify { ctx with timerqueue := tq, nextId := nextId }
    rfl addr (fun t => t.insert n2addr n2elem) a x)
  by_cases ha : a = addr
  · subst ha
    by_cases hx : x = n2addr
    · simp [hx, hneigh, OrdMap.search_insert, hn2]
    · simp [hx, hneigh, OrdMap.search_insert, searchNeigh2]
  · simp [ha, searchNeigh2]

/-- Entering a two-hop neighbour of a neighbour succeeds. -/
theorem Backed.updateNeigh2Tuple {ctx : OlsrContext} (h : ctx.Backed) {addr : InAddr}
    (haddr : addr ∈ ctx.neighborTree) (n2addr : InAddr) (vtime : ℕ) (foreign : Prop) :
  ∃ ctx', ctx.updateNeigh2Tuple addr n2addr vtime = some ctx' ∧ Change foreign ctx ctx'
  := by
  obtain ⟨neigh, hneigh⟩ := OrdMap.mem_iff.mp haddr
  cases hn2 : neigh.neighbor2Tree.search n2addr with
  | some n2elem =>
      have hsearch : ctx.searchNeigh2 addr n2addr = some n2elem := by
        simp [searchNeigh2, hneigh, hn2]
      have hp : ctx.Owns (.neigh2ElemExpire ⟨(addr, n2addr), n2elem.id⟩) n2elem.expireTimer :=
        ⟨n2elem, followNeigh2_eq_some.mpr ⟨hsearch, rfl⟩, rfl⟩
      obtain ⟨tq, htq, hstarts⟩ := h.restartTimer hp (vtimeInterval vtime)
      refine ⟨{ ctx with timerqueue := tq }, ?_, ?_⟩
      · simp only [OlsrContext.updateNeigh2Tuple, hneigh, hn2, htq, Option.bind_eq_bind,
          Option.bind_some, Option.pure_def]
      · refine Change.start ?_ (hstarts _ rfl ?_ (Nat.le_refl _)) ⟨fun _ _ => rfl, rfl, rfl⟩
        · intro arg heq
          contradiction
        · intro d q
          cases d <;> rfl
  | none =>
      obtain ⟨p, tq, htq, -, -, -, hstarts⟩ :=
        h.startTimer (.neigh2ElemExpire ⟨(addr, n2addr), ctx.nextId⟩) (vtimeInterval vtime) true
      let n2elem : Neighbor2Elem := ⟨ctx.nextId, addr, p⟩
      let ctx' : OlsrContext := { ctx with
        timerqueue := tq
        nextId := ctx.nextId + 1
        neighborTree := ctx.neighborTree.modify addr (fun neigh =>
          { neigh with neighbor2Tree := neigh.neighbor2Tree.insert n2addr n2elem }) }
      have hsearch : ∀ a x, ctx'.searchNeigh2 a x =
          if a = addr ∧ x = n2addr then some n2elem else ctx.searchNeigh2 a x :=
        searchNeigh2_insert hneigh hn2 tq (ctx.nextId + 1) n2elem
      have hnone : ctx.searchNeigh2 addr n2addr = none := by
        simp [searchNeigh2, hneigh, hn2]
      refine ⟨ctx', ?_, ?_⟩
      · simp only [OlsrContext.updateNeigh2Tuple, hneigh, hn2, htq, Option.bind_eq_bind,
          Option.bind_some, Option.pure_def]
        rfl
      · refine Change.start ?_ (hstarts _ rfl ?_ (Nat.le_succ _)) ⟨fun _ _ => rfl, rfl, rfl⟩
        · intro arg heq
          contradiction
        · intro c q
          cases c with
          | neigh2ElemExpire arg =>
              obtain ⟨⟨a, x⟩, id⟩ := arg
              simp only [Owns, followNeigh2_eq_some, hsearch, Callback.neigh2ElemExpire.injEq,
                Ptr.mk.injEq, Prod.mk.injEq]
              by_cases hkey : a = addr ∧ x = n2addr
              · obtain ⟨rfl, rfl⟩ := hkey
                simp [hnone, n2elem, eq_comm]
              · simp [hkey]
          | _ => simp [ctx', Owns, followLink, followTopology, followDup, searchLink]

/-- `populate_neigh2set` succeeds for a neighbour. -/
theorem Backed.populateNeigh2set {ctx : OlsrContext} (h : ctx.Backed) {addr : InAddr}
    (haddr : addr ∈ ctx.neighborTree) (helloInfo : List HelloInfo) (vtime : ℕ) (foreign : Prop) :
  ∃ ctx', ctx.populateNeigh2set addr helloInfo vtime = some ctx' ∧ Changes foreign ctx ctx'
  := by
  rw [OlsrContext.populateNeigh2set]
  generalize helloInfo.flatMap HelloInfo.neighAddr = l
  induction l generalizing ctx with
  | nil => exact ⟨ctx, rfl, Relation.ReflTransGen.refl⟩
  | cons n2addr l ih =>
      rw [List.foldlM_cons]
      split_ifs
      · apply ih h haddr
      · obtain ⟨ctx₁, hctx₁, hchange₁⟩ := h.updateNeigh2Tuple haddr n2addr vtime foreign
        obtain ⟨neigh, tree, -, hchange, -⟩ := updateNeigh2Tuple_inv hctx₁
        obtain ⟨tq, nextId, heq⟩ := hchange.eq
        obtain ⟨ctx', hctx', hchanges'⟩ := ih (h.change hchange₁)
          (by rw [heq]; apply OrdMap.mem_modify.mpr haddr)
        refine ⟨ctx', ?_, Relation.ReflTransGen.head hchange₁ hchanges'⟩
        rw [hctx₁]
        apply hctx'

/-- A HELLO is handled unless `populate_linkset` follows a null pointer. -/
theorem Backed.processOlsrHello {ctx : OlsrContext} (h : ctx.Backed) (hsound : ctx.Sound)
    (src orig : InAddr) {hello : HelloMsg} {foreign : Prop}
    (hforeign : ¬ foreign → src = orig ∧ ¬ ListsAsLost ctx.ownIp hello)
    (hnull : ¬ ctx.FollowsNull src hello.helloInfo) (vtime : ℕ) :
  ∃ ctx', ctx.processOlsrHello src orig hello vtime = some ctx' ∧ Changes foreign ctx ctx'
  := by
  let ctx₀ := ctx.findNeighbor src hello.willingness
  have hiface₀ : ctx₀.ownIp ∈ ctx₀.localIfaceTree := OrdMap.mem_insert.mpr (Or.inl rfl)
  have hsrc₀ : src ∈ ctx₀.neighborTree := OrdMap.mem_insert.mpr (Or.inl rfl)
  have hc₀ := hsound.consistent.findNeighbor src hello.willingness
  have hlocal₀ := findNeighbor_local ctx src hello.willingness
  have hchange₀ : Changes foreign ctx ctx₀ :=
    Relation.ReflTransGen.single (Change.same (findNeighbor_same ctx src hello.willingness))
  have h₀ : ctx₀.Backed := h.changes hchange₀
  obtain ⟨ctx₁, link, q, htouch, hchanges₁, hlink, hasym, hsym⟩ :=
    h₀.touchLink hiface₀ vtime foreign
  have h₁ : ctx₁.Backed := h₀.changes hchanges₁
  obtain ⟨hc₁, hlocal₁⟩ := hc₀.touchLink hiface₀ hsrc₀ htouch
  have hown₁ : ctx₁.ownIp = ctx.ownIp := hlocal₁.ownIp
  have hlink₁ : ctx₁.searchLink ctx₁.ownIp src = some link := by
    rw [hown₁]
    apply hlink
  have hdup₁ : NotDuplicated ctx₁.topologyTree := by
    rw [(hlocal₀.trans hlocal₁).topologyTree]
    apply hsound.notDuplicated
  have hnull₁ : ¬ ctx₁.FollowsNull src hello.helloInfo := by
    rw [FollowsNull, hlink₁, Option.bind_some, hsym, hown₁]
    intro hfollows
    apply hnull
    rw [FollowsNull, ← searchLink_findNeighbor ctx src hello.willingness]
    apply hfollows
  obtain ⟨ctx₂, hlinkset, hchanges₂⟩ := h₁.populateLinkset hdup₁ hlink₁ hasym
    (hc₁.neighbor _ _ link hlink₁) (by rw [hown₁]; apply hforeign) hnull₁ vtime
  have h₂ : ctx₂.Backed := h₁.changes hchanges₂
  obtain ⟨hc₂, hlocal₂⟩ := hc₁.populateLinkset hdup₁ hlinkset
  have hdup₂ : NotDuplicated ctx₂.topologyTree := by
    rw [hlocal₂.topologyTree]
    apply hdup₁
  obtain ⟨link₂, hlink₂, -⟩ := hchanges₂.link_stays hlink₁
  have hsrc₂ : src ∈ ctx₂.neighborTree := hc₂.neighbor _ _ link₂ hlink₂
  obtain ⟨neigh, hneigh⟩ := OrdMap.mem_iff.mp hsrc₂
  obtain ⟨ctx₃, hupdate, hcore₃, -⟩ := updateNeighborStatus_spec hdup₂ hneigh
  have hsame₃ := updateNeighborStatus_same hupdate hdup₂
  have h₃ : ctx₃.Backed := h₂.change (Change.same hsame₃ : Change foreign ctx₂ ctx₃)
  obtain ⟨-, -, -, hlocal₃⟩ := updateNeighborStatus_inv hupdate hdup₂
  have hsrc₃ : src ∈ ctx₃.neighborTree := by
    have hneighbor₃ := congrArg OlsrContext.neighborTree hcore₃
    apply (congrArg (src ∈ ·) hneighbor₃).mpr
    apply OrdMap.mem_modify.mpr hsrc₂
  obtain ⟨neigh₃, hneigh₃⟩ := OrdMap.mem_iff.mp hsrc₃
  have hdup₃ : NotDuplicated ctx₃.topologyTree := by
    rw [hlocal₃.topologyTree]
    apply hdup₂
  obtain ⟨ctx₄, hneigh2, hchanges₄, hdup₄⟩ : ∃ ctx₄,
      (if neigh₃.status.isSym then ctx₃.populateNeigh2set src hello.helloInfo vtime
        else some ctx₃) = some ctx₄ ∧ Changes foreign ctx₃ ctx₄ ∧
        NotDuplicated ctx₄.topologyTree := by
    split_ifs
    · obtain ⟨ctx₄, hctx₄, hchanges₄⟩ := h₃.populateNeigh2set hsrc₃ hello.helloInfo vtime foreign
      refine ⟨ctx₄, hctx₄, hchanges₄, ?_⟩
      obtain ⟨-, hlocal₄⟩ := (hc₂.updateNeighborStatus hupdate hdup₂).populateNeigh2set hctx₄
      rw [hlocal₄.topologyTree]
      apply hdup₃
    · exact ⟨ctx₃, rfl, Relation.ReflTransGen.refl, hdup₃⟩
  obtain ⟨ctx', hmpr, hsel⟩ := populateMprSet_spec ctx₄ hdup₄
  refine ⟨ctx', ?_, ?_⟩
  · simp only [OlsrContext.processOlsrHello, Option.bind_eq_bind]
    rw [htouch, Option.bind_some, hlinkset, Option.bind_some, hupdate, Option.bind_some, hneigh₃,
      Option.bind_some]
    split_ifs at hneigh2 ⊢
    · rw [hneigh2, Option.bind_some, hmpr]
    · rw [hneigh2, Option.bind_some, hmpr]
  · apply Relation.ReflTransGen.tail _ (Change.same hsel.same)
    apply Relation.ReflTransGen.trans _ hchanges₄
    apply Relation.ReflTransGen.tail _ (Change.same hsame₃)
    apply hchange₀.trans (hchanges₁.trans hchanges₂)

/-! ### TC messages and forwarding -/

/-- Finding the topology entry of an originator succeeds. -/
theorem Backed.findTopology {ctx : OlsrContext} (h : ctx.Backed) (orig : InAddr)
    (ansn : BitVec 16) (vtime : ℕ) (foreign : Prop) :
  ∃ ctx', ctx.findTopology orig ansn vtime = some ctx' ∧ Changes foreign ctx ctx' ∧
    orig ∈ ctx'.topologyTree
  := by
  cases hsearch : ctx.topologyTree.search orig with
  | some telem =>
      refine ⟨ctx, ?_, Relation.ReflTransGen.refl, OrdMap.mem_of_search hsearch⟩
      simp only [OlsrContext.findTopology, hsearch]
  | none =>
      obtain ⟨p, tq, htq, -, -, -, hstarts⟩ := h.startTimer
        (.topologyInfoTimerExpireCb ⟨orig, ctx.nextId⟩) (vtimeInterval vtime) true
      let telem : TopologyInfoElem := ⟨ctx.nextId, ansn, .empty, p⟩
      let ctx' : OlsrContext := { ctx with
        timerqueue := tq
        nextId := ctx.nextId + 1
        topologyTree := ctx.topologyTree.insert orig telem }
      have hinsert : ∀ d, ctx'.topologyTree.search d =
          if d = orig then some telem else ctx.topologyTree.search d := by
        intro d
        simp only [ctx', OrdMap.search_insert, hsearch, Option.getD_none]
      refine ⟨ctx', ?_, ?_, OrdMap.mem_insert.mpr (Or.inl rfl)⟩
      · simp only [OlsrContext.findTopology, hsearch, htq, Option.bind_eq_bind, Option.bind_some,
          Option.pure_def]
        rfl
      · apply Relation.ReflTransGen.single
        refine Change.start ?_ (hstarts _ rfl ?_ (Nat.le_succ _)) ⟨fun _ _ => rfl, rfl, rfl⟩
        · intro arg heq
          contradiction
        · intro c q
          cases c with
          | topologyInfoTimerExpireCb arg =>
              obtain ⟨d, id⟩ := arg
              simp only [Owns, followTopology_eq_some, hinsert,
                Callback.topologyInfoTimerExpireCb.injEq, Ptr.mk.injEq]
              by_cases hd : d = orig
              · simp [hd, hsearch, telem, eq_comm]
              · simp [hd]
          | _ => simp [ctx', Owns, followLink, followNeigh2, followDup, searchLink, searchNeigh2]

/-- Taking over a TC succeeds. -/
theorem Backed.acceptTc {ctx : OlsrContext} (h : ctx.Backed)
    (hdup : NotDuplicated ctx.topologyTree) {orig : InAddr} {telem : TopologyInfoElem}
    (htelem : ctx.topologyTree.search orig = some telem) (msg : TcMsg) (foreign : Prop) :
  ∃ ctx', ctx.acceptTc orig telem msg = some ctx' ∧ Changes foreign ctx ctx'
  := by
  have hp : ctx.Owns (.topologyInfoTimerExpireCb ⟨orig, telem.id⟩) telem.expireTimer :=
    ⟨telem, followTopology_eq_some.mpr ⟨htelem, rfl⟩, rfl⟩
  obtain ⟨tq, htq, hstarts⟩ := h.reactivateTimer hp
  let ctx₁ : OlsrContext := { ctx with
    timerqueue := tq
    topologyTree := acceptedTopology ctx.topologyTree orig telem msg }
  have h₁ : Change foreign ctx ctx₁ := by
    refine Change.start ?_ (hstarts ctx₁ rfl ?_ (Nat.le_refl _)) ⟨fun _ _ => rfl, rfl, rfl⟩
    · intro arg heq
      contradiction
    · refine owns_congr (fun _ _ => rfl) (fun _ _ => rfl) ?_ (fun _ => rfl) rfl
      intro d
      simp only [ctx₁, acceptedTopology, OrdMap.search_modify]
      split_ifs with hd
      · rw [hd, Option.map_map]
        rfl
      · rfl
  simp only [OlsrContext.acceptTc, htq, Option.bind_eq_bind, Option.bind_some, Option.pure_def]
  refine ⟨_, rfl, ?_⟩
  split_ifs
  · apply Relation.ReflTransGen.tail (Relation.ReflTransGen.single h₁)
    apply Change.same
    apply calcRoutingTable_same ctx₁ (notDuplicated_acceptedTopology hdup htelem msg)
  · apply Relation.ReflTransGen.single h₁

/-- A TC is handled, whatever it says and whoever sent it. -/
theorem Backed.processOlsrTc {ctx : OlsrContext} (h : ctx.Backed)
    (hdup : NotDuplicated ctx.topologyTree) (msg : TcMsg) (src orig : InAddr) (vtime : ℕ)
    (foreign : Prop) :
  ∃ ctx', ctx.processOlsrTc msg src orig vtime = some ctx' ∧ Changes foreign ctx ctx'
  := by
  rw [OlsrContext.processOlsrTc]
  cases ctx.neighborTree.search src with
  | none => exact ⟨ctx, rfl, Relation.ReflTransGen.refl⟩
  | some neigh =>
      dsimp only
      split_ifs
      · obtain ⟨ctx₁, hctx₁, hchanges₁, horig⟩ := h.findTopology orig msg.ansn vtime foreign
        obtain ⟨telem, htelem⟩ := OrdMap.mem_iff.mp horig
        obtain ⟨tq, nextId, topo, heq, hdup₁, -⟩ := findTopology_inv hctx₁ htelem hdup
        simp only [hctx₁, htelem, Option.bind_eq_bind, Option.bind_some]
        split_ifs
        · exact ⟨ctx₁, rfl, hchanges₁⟩
        · obtain ⟨ctx', hctx', hchanges'⟩ := (h.changes hchanges₁).acceptTc
            (by rw [heq]; apply hdup₁) htelem msg foreign
          exact ⟨ctx', hctx', hchanges₁.trans hchanges'⟩
      · exact ⟨ctx, rfl, Relation.ReflTransGen.refl⟩

/-- Entering a message in the duplicate set succeeds. -/
theorem Backed.createDupEntry {ctx : OlsrContext} (h : ctx.Backed) {dkey : DuplicateSetKey}
    (hnew : ctx.dupTree.search dkey = none) (foreign : Prop) :
  ∃ ctx', ctx.createDupEntry dkey = some ctx' ∧ Change foreign ctx ctx'
  := by
  obtain ⟨p, tq, htq, -, -, -, hstarts⟩ := h.startTimer
    (.expireDupEntryCb ⟨dkey, ctx.nextId⟩) (toInt (defDupHoldTimeMs * 1000)) true
  let delem : DuplicateSetElem := ⟨ctx.nextId, false, [ctx.ownIp], p⟩
  let ctx' : OlsrContext := { ctx with
    timerqueue := tq
    nextId := ctx.nextId + 1
    dupTree := ctx.dupTree.insert dkey delem }
  have hinsert : ∀ d, ctx'.dupTree.search d =
      if d = dkey then some delem else ctx.dupTree.search d := by
    intro d
    simp only [ctx', OrdMap.search_insert, hnew, Option.getD_none]
  refine ⟨ctx', ?_, ?_⟩
  · simp only [OlsrContext.createDupEntry, htq, Option.bind_eq_bind, Option.bind_some,
      Option.pure_def]
    rfl
  · refine Change.start ?_ (hstarts _ rfl ?_ (Nat.le_succ _)) ⟨fun _ _ => rfl, rfl, rfl⟩
    · intro arg heq
      contradiction
    · intro c q
      cases c with
      | expireDupEntryCb arg =>
          obtain ⟨d, id⟩ := arg
          simp only [Owns, followDup_eq_some, hinsert, Callback.expireDupEntryCb.injEq,
            Ptr.mk.injEq]
          by_cases hd : d = dkey
          · simp [hd, hnew, delem, eq_comm]
          · simp [hd]
      | _ => simp [ctx', Owns, followLink, followNeigh2, followTopology, searchLink, searchNeigh2]

theorem Backed.olsrMsgForwarding {ctx : OlsrContext} (h : ctx.Backed) (msg : OlsrMsg)
    (src : InAddr) (foreign : Prop) :
  ∃ ctx', ctx.olsrMsgForwarding msg src = some ctx' ∧ Changes foreign ctx ctx'
  := by
  rw [OlsrContext.olsrMsgForwarding]
  cases hsearch : ctx.dupTree.search msg.dkey with
  | some delem =>
      dsimp only
      split_ifs
      · exact ⟨ctx, rfl, Relation.ReflTransGen.refl⟩
      · exact ⟨_, rfl, Relation.ReflTransGen.single (Change.same (retransmit_same ctx msg src))⟩
  | none =>
      obtain ⟨ctx₁, hctx₁, h₁⟩ := h.createDupEntry hsearch foreign
      simp only [hctx₁, Option.bind_eq_bind, Option.bind_some, Option.pure_def]
      refine ⟨_, rfl, ?_⟩
      apply Relation.ReflTransGen.head h₁
      apply Relation.ReflTransGen.single (Change.same (retransmit_same ctx₁ msg src))

/-- The message is a HELLO that is processed and makes `populate_linkset` follow a null pointer. -/
def MsgFollowsNull (ctx : OlsrContext) (msg : OlsrMsg) (src : InAddr) : Prop :=
  msg.originator ≠ ctx.ownIp ∧ ctx.isAlreadyProcessed msg = false ∧
    ∃ hello, msg.payload = .hello hello ∧ ctx.FollowsNull src hello.helloInfo

/-- A message is handled unless it makes `populate_linkset` follow a null pointer. -/
theorem Backed.handleOlsrMsg {ctx : OlsrContext} (h : ctx.Backed) (hsound : ctx.Sound)
    {msg : OlsrMsg} {src : InAddr} {foreign : Prop}
    (hforeign : ¬ foreign → ∀ hello, msg.payload = .hello hello →
      src = msg.originator ∧ ¬ ListsAsLost ctx.ownIp hello)
    (hnull : ¬ ctx.MsgFollowsNull msg src) :
  ∃ ctx', ctx.handleOlsrMsg msg src = some ctx' ∧ Changes foreign ctx ctx'
  := by
  rw [OlsrContext.handleOlsrMsg]
  by_cases hown : msg.originator = ctx.ownIp
  · exact ⟨ctx, if_pos hown, Relation.ReflTransGen.refl⟩
  · rw [if_neg hown]
    obtain ⟨ctx₁, hctx₁, h₁⟩ : ∃ ctx₁, ctx.processOlsrMsg msg src = some ctx₁ ∧
        Changes foreign ctx ctx₁ := by
      rw [processOlsrMsg]
      by_cases hdup : ctx.isAlreadyProcessed msg = true
      · exact ⟨ctx, if_pos hdup, Relation.ReflTransGen.refl⟩
      · rw [if_neg hdup]
        cases hpayload : msg.payload with
        | hello hello =>
            apply h.processOlsrHello hsound
            · intro hnot
              apply hforeign hnot hello hpayload
            · intro hfollows
              apply hnull
              exact ⟨hown, Bool.eq_false_of_not_eq_true hdup, hello, hpayload, hfollows⟩
        | tc tc => apply h.processOlsrTc hsound.notDuplicated
        | other msgtype length => exact ⟨ctx, rfl, Relation.ReflTransGen.refl⟩
    rw [hctx₁]
    simp only [Option.bind_eq_bind, Option.bind_some, Option.pure_def]
    split_ifs
    · obtain ⟨ctx', hctx', h'⟩ := (h.changes h₁).olsrMsgForwarding msg src foreign
      exact ⟨ctx', hctx', h₁.trans h'⟩
    · exact ⟨ctx₁, rfl, h₁⟩

/-- `populate_linkset` crashes when it follows a null pointer. -/
theorem populateLinkset_null {ctx : OlsrContext} {src orig : InAddr} {link : LinkElem}
    (hlink : ctx.searchLink ctx.ownIp src = some link) {helloInfo : List HelloInfo}
    (hnull : ctx.FollowsNull src helloInfo) (vtime : ℕ) :
  ctx.populateLinkset src orig helloInfo vtime = none
  := by
  obtain ⟨hcode, hlost, hsym⟩ := hnull
  rw [hlink, Option.bind_some] at hsym
  have hnot : ¬ (LinkStatus.lostLink.code = LinkStatus.symLink.code ∨
      LinkStatus.lostLink.code = LinkStatus.asymLink.code) := by
    decide
  rw [OlsrContext.populateLinkset]
  simp only [if_neg hcode, hlost, populateLinkStatus, if_neg hnot, if_true, OlsrContext.setLostLink,
    hlink, hsym, Option.bind_eq_bind, Option.bind_some, Option.bind_none]

/-- A HELLO that makes `populate_linkset` follow a null pointer crashes the node. -/
theorem Backed.processOlsrHello_null {ctx : OlsrContext} (h : ctx.Backed) (hsound : ctx.Sound)
    (src orig : InAddr) {hello : HelloMsg} (hnull : ctx.FollowsNull src hello.helloInfo)
    (vtime : ℕ) :
  ctx.processOlsrHello src orig hello vtime = none
  := by
  let ctx₀ := ctx.findNeighbor src hello.willingness
  have hiface₀ : ctx₀.ownIp ∈ ctx₀.localIfaceTree := OrdMap.mem_insert.mpr (Or.inl rfl)
  have hsrc₀ : src ∈ ctx₀.neighborTree := OrdMap.mem_insert.mpr (Or.inl rfl)
  have hc₀ := hsound.consistent.findNeighbor src hello.willingness
  have h₀ : ctx₀.Backed :=
    h.change (Change.same (findNeighbor_same ctx src hello.willingness) : Change False ctx ctx₀)
  obtain ⟨ctx₁, link, q, htouch, -, hlink, -, hsym⟩ := h₀.touchLink hiface₀ vtime False
  obtain ⟨-, hlocal₁⟩ := hc₀.touchLink hiface₀ hsrc₀ htouch
  have hown₁ : ctx₁.ownIp = ctx.ownIp := hlocal₁.ownIp
  have hlink₁ : ctx₁.searchLink ctx₁.ownIp src = some link := by
    rw [hown₁]
    apply hlink
  have hnull₁ : ctx₁.FollowsNull src hello.helloInfo := by
    rw [FollowsNull, ← searchLink_findNeighbor ctx src hello.willingness] at hnull
    rw [FollowsNull, hlink₁, Option.bind_some, hsym, hown₁]
    apply hnull
  simp only [OlsrContext.processOlsrHello, Option.bind_eq_bind]
  rw [htouch, Option.bind_some, populateLinkset_null hlink₁ hnull₁, Option.bind_none]

/-- The states that a HELLO of `src` leads through from `ctx` to `ctx'`: after the link, after the
link code, after the status of the neighbour and after the two-hop neighbours. -/
structure HelloStages (ctx ctx₁ ctx₂ ctx₃ ctx₄ ctx' : OlsrContext) (src orig : InAddr)
    (hello : HelloMsg) (vtime : ℕ) : Prop where
  touch : (ctx.findNeighbor src hello.willingness).touchLink src vtime = some ctx₁
  linkset : ctx₁.populateLinkset src orig hello.helloInfo vtime = some ctx₂
  status : ctx₂.updateNeighborStatus src = some ctx₃
  neigh2 : IsSymNeigh ctx₃.neighborTree src →
    ctx₃.populateNeigh2set src hello.helloInfo vtime = some ctx₄
  skip : ¬ IsSymNeigh ctx₃.neighborTree src → ctx₄ = ctx₃
  mpr : ctx₄.MprSelected ctx'
  backed₀ : (ctx.findNeighbor src hello.willingness).Backed
  backed₁ : ctx₁.Backed
  backed₃ : ctx₃.Backed
  consistent₁ : ctx₁.Consistent (some src)
  consistent₃ : ctx₃.Consistent none
  local₁ : ctx.Local ctx₁
  local₂ : ctx₁.Local ctx₂
  local₃ : ctx₂.Local ctx₃
  local₄ : ctx₃.Local ctx₄
  notDuplicated : NotDuplicated ctx.topologyTree

/-- A HELLO that is handled leads through its stages. -/
theorem processOlsrHello_stages {ctx ctx' : OlsrContext} (h : ctx.Backed) (hsound : ctx.Sound)
    {src orig : InAddr} {hello : HelloMsg} {vtime : ℕ}
    (hstep : ctx.processOlsrHello src orig hello vtime = some ctx') :
  ∃ ctx₁ ctx₂ ctx₃ ctx₄, HelloStages ctx ctx₁ ctx₂ ctx₃ ctx₄ ctx' src orig hello vtime
  := by
  simp only [processOlsrHello, Option.bind_eq_bind, Option.bind_eq_some_iff] at hstep
  obtain ⟨ctx₁, htouch, ctx₂, hlinkset, ctx₃, hupdate, neigh, hneigh, hstep⟩ := hstep
  have hdup := hsound.notDuplicated
  let ctx₀ := ctx.findNeighbor src hello.willingness
  have hiface₀ : ctx₀.ownIp ∈ ctx₀.localIfaceTree := OrdMap.mem_insert.mpr (Or.inl rfl)
  have hsrc₀ : src ∈ ctx₀.neighborTree := OrdMap.mem_insert.mpr (Or.inl rfl)
  have hlocal₀ := findNeighbor_local ctx src hello.willingness
  have h₀ : ctx₀.Backed :=
    h.change (Change.same (findNeighbor_same ctx src hello.willingness) : Change False ctx ctx₀)
  obtain ⟨hc₁, hlocal₁⟩ :=
    (hsound.consistent.findNeighbor src hello.willingness).touchLink hiface₀ hsrc₀ htouch
  obtain ⟨ctx₁', link, q, htouch', hchanges₁, hlink, hasym, hsym⟩ :=
    h₀.touchLink hiface₀ vtime False
  obtain rfl := Option.some.inj (htouch.symm.trans htouch')
  have h₁ : ctx₁.Backed := h₀.changes hchanges₁
  have hown₁ : ctx₁.ownIp = ctx.ownIp := hlocal₁.ownIp
  have hlink₁ : ctx₁.searchLink ctx₁.ownIp src = some link := by
    rw [hown₁]
    apply hlink
  have hdup₁ : NotDuplicated ctx₁.topologyTree := by
    rw [(hlocal₀.trans hlocal₁).topologyTree]
    apply hdup
  have hnull₁ : ¬ ctx₁.FollowsNull src hello.helloInfo := by
    intro hnull
    rw [populateLinkset_null hlink₁ hnull] at hlinkset
    contradiction
  have hforeign : ¬ True → src = orig ∧ ¬ ListsAsLost ctx₁.ownIp hello := by
    intro hnot
    contradiction
  obtain ⟨ctx₂', hlinkset', hchanges₂⟩ := h₁.populateLinkset hdup₁ hlink₁ hasym
    (hc₁.neighbor _ _ link hlink₁) hforeign hnull₁ vtime
  obtain rfl := Option.some.inj (hlinkset.symm.trans hlinkset')
  obtain ⟨hc₂, hlocal₂⟩ := hc₁.populateLinkset hdup₁ hlinkset
  have hdup₂ : NotDuplicated ctx₂.topologyTree := by
    rw [hlocal₂.topologyTree]
    apply hdup₁
  have hc₃ := hc₂.updateNeighborStatus hupdate hdup₂
  obtain ⟨-, -, -, hlocal₃⟩ := updateNeighborStatus_inv hupdate hdup₂
  have h₃ : ctx₃.Backed := (h₁.changes hchanges₂).change
    (Change.same (updateNeighborStatus_same hupdate hdup₂) : Change True ctx₂ ctx₃)
  have hdup₃ : NotDuplicated ctx₃.topologyTree := by
    rw [hlocal₃.topologyTree]
    apply hdup₂
  obtain ⟨ctx₄, hneigh2, hskip, hlocal₄, hmpr⟩ : ∃ ctx₄,
      (IsSymNeigh ctx₃.neighborTree src →
        ctx₃.populateNeigh2set src hello.helloInfo vtime = some ctx₄) ∧
      (¬ IsSymNeigh ctx₃.neighborTree src → ctx₄ = ctx₃) ∧ ctx₃.Local ctx₄ ∧
      ctx₄.populateMprSet = some ctx' := by
    split_ifs at hstep with hstatus
    · obtain ⟨ctx₄, hneigh2, hmpr⟩ := Option.bind_eq_some_iff.mp hstep
      refine ⟨ctx₄, fun _ => hneigh2, ?_, (hc₃.populateNeigh2set hneigh2).2, hmpr⟩
      intro hnot
      exact absurd ⟨neigh, hneigh, hstatus⟩ hnot
    · refine ⟨ctx₃, ?_, fun _ => rfl, Local.of_eq, hstep⟩
      rintro ⟨neigh', hneigh', hstatus'⟩
      rw [hneigh, Option.some.injEq] at hneigh'
      rw [hneigh'] at hstatus
      contradiction
  obtain ⟨ctx'', hmpr', hselected⟩ := populateMprSet_spec ctx₄
    (by rw [hlocal₄.topologyTree]; apply hdup₃)
  obtain rfl := Option.some.inj (hmpr.symm.trans hmpr')
  exact ⟨ctx₁, ctx₂, ctx₃, ctx₄, htouch, hlinkset, hupdate, hneigh2, hskip, hselected, h₀, h₁, h₃,
    hc₁, hc₃, hlocal₀.trans hlocal₁, hlocal₂, hlocal₃, hlocal₄, hdup⟩

/-- A message is handled if and only if it does not make `populate_linkset` follow a null
pointer. -/
theorem Backed.handleOlsrMsg_iff {ctx : OlsrContext} (h : ctx.Backed) (hsound : ctx.Sound)
    (msg : OlsrMsg) (src : InAddr) :
  (∃ ctx', ctx.handleOlsrMsg msg src = some ctx') ↔ ¬ ctx.MsgFollowsNull msg src
  := by
  constructor
  · rintro ⟨ctx', hctx'⟩ ⟨hown, hdup, hello, hpayload, hnull⟩
    rw [OlsrContext.handleOlsrMsg, if_neg hown, processOlsrMsg, hdup] at hctx'
    simp only [Bool.false_eq_true, if_false, hpayload, h.processOlsrHello_null hsound src
      msg.originator hnull, Option.bind_eq_bind, Option.bind_none] at hctx'
    contradiction
  · intro hnull
    have hforeign : ¬ True → ∀ hello, msg.payload = .hello hello →
        src = msg.originator ∧ ¬ ListsAsLost ctx.ownIp hello := by
      intro hnot
      contradiction
    obtain ⟨ctx', hctx', -⟩ := h.handleOlsrMsg hsound hforeign hnull
    exact ⟨ctx', hctx'⟩

/-! ### Expiry callbacks -/

/-- From `ctx` to `ctx'` the entry that is the argument of `c₀` has been removed and its timers
have been freed. With an MPR selector its address leaves the tree, whichever element is there. -/
structure Removes (c₀ : Callback) (ctx ctx' : OlsrContext) : Prop where
  drops : TimerqueueContext.Drops (ctx.Owns c₀) ctx.timerqueue ctx'.timerqueue
  owns : ∀ c p, ctx'.Owns c p ↔ c ≠ c₀ ∧ ctx.Owns c p
  searchLink : ∀ i a link, ctx'.searchLink i a = some link ↔
    ctx.searchLink i a = some link ∧ c₀ ≠ .linkTimerExpire ⟨(i, a), link.id⟩
  elems : ∀ id selem, ctx'.selectorElems.search id = some selem ↔
    ctx.selectorElems.search id = some selem ∧ c₀ ≠ .mprSelectorExpire id
  tree : ∀ a id, ctx'.selectorTree.search a = some id ↔ ctx.selectorTree.search a = some id ∧
    ∀ id₀ selem₀, c₀ = .mprSelectorExpire id₀ → ctx.selectorElems.search id₀ = some selem₀ →
      selem₀.selectorAddr ≠ a
  nextId : ctx'.nextId = ctx.nextId

/-- An entry that has been removed stays so when entries and timers do not change. -/
theorem Removes.same {c₀ : Callback} {ctx ctx₁ ctx₂ : OlsrContext} (h : Removes c₀ ctx ctx₁)
    (hsame : SameEntries ctx₁ ctx₂) :
  Removes c₀ ctx ctx₂
  where
  drops := by
    rw [hsame.timerqueue]
    apply h.drops
  owns c p := by rw [hsame.owns, h.owns]
  searchLink i a link := by rw [hsame.searchLink, h.searchLink]
  elems id selem := by rw [hsame.selectorElems, h.elems]
  tree a id := by rw [hsame.selectorTree, h.tree]
  nextId := by rw [hsame.nextId, h.nextId]

/-- Removing an entry that is neither a link nor an MPR selector. -/
theorem Removes.of_aside {c₀ : Callback} {ctx ctx' : OlsrContext}
    (hlink : ∀ arg, c₀ ≠ .linkTimerExpire arg) (hselector : ∀ id, c₀ ≠ .mprSelectorExpire id)
    (haside : Aside ctx ctx') (hnext : ctx'.nextId = ctx.nextId) {t : ℕ}
    (howner : ∀ q, ctx.Owns c₀ q ↔ q = t)
    (htq : ctx.timerqueue.timerqueueFreeTimer t = some ctx'.timerqueue)
    (howns : ∀ c p, ctx'.Owns c p ↔ c ≠ c₀ ∧ ctx.Owns c p) :
  Removes c₀ ctx ctx'
  where
  drops := by
    have heq : ctx.Owns c₀ = fun q => q = t := by
      funext q
      apply propext (howner q)
    rw [heq]
    apply TimerqueueContext.free_drops htq
  owns := howns
  searchLink i a link := by
    rw [haside.searchLink]
    simp [hlink]
  elems id selem := by
    rw [haside.selectorElems]
    simp [hselector]
  tree a id := by
    rw [haside.selectorTree]
    simp [hselector]
  nextId := hnext

/-- Erasing what is found under a key takes away the pointer to it and no other. -/
theorem exists_erased_iff {β : Type} {same : Prop} {_ : Decidable same} {found : Option β}
    {elem : β} {id : β → ℕ} {i₀ : ℕ} (hfound : same → found = some elem) (hid : id elem = i₀)
    (i : ℕ) (P : β → Prop) :
  (∃ e, ((if same then none else found) = some e ∧ id e = i) ∧ P e) ↔
    ¬ (same ∧ i = i₀) ∧ ∃ e, (found = some e ∧ id e = i) ∧ P e
  := by
  by_cases hsame : same
  · simp only [hsame, if_true, reduceCtorEq, false_and, exists_false, true_and, false_iff, not_and]
    rintro hne ⟨e, ⟨he, hi⟩, -⟩
    apply hne
    rw [← hi, ← hid, Option.some.inj ((hfound hsame).symm.trans he)]
  · simp only [hsame, if_false, false_and, not_false_eq_true, true_and]

/-- `neigh2_elem_expire` removes a two-hop neighbour. -/
theorem neigh2ElemExpire_removes {ctx ctx' : OlsrContext} (hc : ctx.Consistent none)
    {arg : Ptr (InAddr × InAddr)} (h : ctx.neigh2ElemExpire arg = some ctx') :
  Removes (.neigh2ElemExpire arg) ctx ctx'
  := by
  simp only [neigh2ElemExpire, Option.bind_eq_bind, Option.bind_eq_some_iff, Option.pure_def,
    Option.some.injEq] at h
  obtain ⟨n2elem, hfollow, -, -, tq, htq, rfl⟩ := h
  obtain ⟨⟨addr, n2addr⟩, id⟩ := arg
  obtain ⟨hsearch, hid⟩ := followNeigh2_eq_some.mp hfollow
  obtain ⟨neigh, hneigh, hx⟩ := Option.bind_eq_some_iff.mp hsearch
  have hbridge : n2elem.bridgeAddr = addr := hc.bridge _ neigh hneigh _ n2elem hx
  rw [hbridge]
  refine Removes.of_aside (by simp) (by simp) ⟨fun _ _ => rfl, rfl, rfl⟩ rfl ?_ htq ?_
  · intro q
    simp [Owns, hfollow, eq_comm]
  · intro c p
    cases c with
    | neigh2ElemExpire arg =>
        obtain ⟨⟨a, x⟩, id'⟩ := arg
        have hsearch' : OlsrContext.searchNeigh2 { ctx with
              timerqueue := tq
              neighborTree := ctx.neighborTree.modify addr (fun neigh =>
                { neigh with neighbor2Tree := neigh.neighbor2Tree.erase n2addr }) } a x =
            if a = addr ∧ x = n2addr then none else ctx.searchNeigh2 a x := by
          apply Eq.trans (searchNeigh2_modify { ctx with timerqueue := tq } rfl addr
            (fun t => t.erase n2addr) a x)
          by_cases ha : a = addr
          · subst ha
            by_cases hx : x = n2addr
            · simp [hx, OrdMap.search_erase]
            · simp [hx, OrdMap.search_erase, searchNeigh2]
          · simp [ha, searchNeigh2]
        simp only [Owns, followNeigh2_eq_some, hsearch', ne_eq, Callback.neigh2ElemExpire.injEq,
          Ptr.mk.injEq, Prod.mk.injEq]
        apply exists_erased_iff _ hid
        rintro ⟨rfl, rfl⟩
        apply hsearch
    | _ => simp [Owns, followLink, followTopology, followDup, searchLink]

/-- `topology_info_timer_expire_cb` removes a topology entry. -/
theorem topologyInfoTimerExpireCb_removes {ctx ctx' : OlsrContext}
    (hdup : NotDuplicated ctx.topologyTree) {arg : Ptr InAddr}
    (h : ctx.topologyInfoTimerExpireCb arg = some ctx') :
  Removes (.topologyInfoTimerExpireCb arg) ctx ctx'
  := by
  simp only [topologyInfoTimerExpireCb, Option.bind_eq_bind, Option.bind_eq_some_iff,
    Option.pure_def, Option.some.injEq] at h
  obtain ⟨telem, hfollow, tq, htq, rfl⟩ := h
  obtain ⟨orig, id⟩ := arg
  obtain ⟨hsearch, hid⟩ := followTopology_eq_some.mp hfollow
  let ctx₁ : OlsrContext := { ctx with
    timerqueue := tq, topologyTree := ctx.topologyTree.erase orig }
  have hdup₁ : NotDuplicated ctx₁.topologyTree := by
    intro d telem' hd
    simp only [ctx₁, OrdMap.search_erase] at hd
    split_ifs at hd
    apply hdup d telem' hd
  apply Removes.same _ (calcRoutingTable_same ctx₁ hdup₁)
  refine Removes.of_aside (by simp) (by simp) ⟨fun _ _ => rfl, rfl, rfl⟩ rfl ?_ htq ?_
  · intro q
    simp [Owns, hfollow, eq_comm]
  · intro c p
    cases c with
    | topologyInfoTimerExpireCb arg =>
        obtain ⟨d, id'⟩ := arg
        simp only [Owns, followTopology_eq_some, ctx₁, OrdMap.search_erase, ne_eq,
          Callback.topologyInfoTimerExpireCb.injEq, Ptr.mk.injEq]
        apply exists_erased_iff _ hid
        rintro rfl
        apply hsearch
    | _ => simp [ctx₁, Owns, followLink, followNeigh2, followDup, searchLink, searchNeigh2]

/-- `expire_dup_entry_cb` removes a duplicate entry. -/
theorem expireDupEntryCb_removes {ctx ctx' : OlsrContext} {arg : Ptr DuplicateSetKey}
    (h : ctx.expireDupEntryCb arg = some ctx') :
  Removes (.expireDupEntryCb arg) ctx ctx'
  := by
  simp only [expireDupEntryCb, Option.bind_eq_bind, Option.bind_eq_some_iff, Option.pure_def,
    Option.some.injEq] at h
  obtain ⟨delem, hfollow, tq, htq, rfl⟩ := h
  obtain ⟨dkey, id⟩ := arg
  obtain ⟨hsearch, hid⟩ := followDup_eq_some.mp hfollow
  refine Removes.of_aside (by simp) (by simp) ⟨fun _ _ => rfl, rfl, rfl⟩ rfl ?_ htq ?_
  · intro q
    simp [Owns, hfollow, eq_comm]
  · intro c p
    cases c with
    | expireDupEntryCb arg =>
        obtain ⟨d, id'⟩ := arg
        simp only [Owns, followDup_eq_some, OrdMap.search_erase, ne_eq,
          Callback.expireDupEntryCb.injEq, Ptr.mk.injEq]
        apply exists_erased_iff _ hid
        rintro rfl
        apply hsearch
    | _ => simp [Owns, followLink, followNeigh2, followTopology, searchLink, searchNeigh2]

/-- `mpr_selector_expire` removes an MPR selector. -/
theorem mprSelectorExpire_removes {ctx ctx' : OlsrContext} {arg : ℕ}
    (h : ctx.mprSelectorExpire arg = some ctx') :
  Removes (.mprSelectorExpire arg) ctx ctx'
  := by
  simp only [mprSelectorExpire, Option.bind_eq_bind, Option.bind_eq_some_iff, Option.pure_def,
    Option.some.injEq] at h
  obtain ⟨selem, hselem, tq, htq, rfl⟩ := h
  constructor
  · have heq : ctx.Owns (.mprSelectorExpire arg) = fun q => q = selem.expireTimer := by
      funext q
      simp [Owns, hselem, eq_comm]
    rw [heq]
    apply TimerqueueContext.free_drops htq
  · intro c p
    cases c with
    | mprSelectorExpire id =>
        simp only [Owns, OrdMap.search_erase, ne_eq, Callback.mprSelectorExpire.injEq]
        by_cases hid : id = arg
        · simp [hid]
        · simp [hid]
    | _ => simp [Owns, followLink, followNeigh2, followTopology, followDup, searchLink,
        searchNeigh2]
  · intro i a link
    simp [OlsrContext.searchLink]
  · intro id selem'
    simp only [OrdMap.search_erase, ne_eq, Callback.mprSelectorExpire.injEq]
    split_ifs with hid
    · simp [hid]
    · simp [Ne.symm hid]
  · intro a id
    simp only [OrdMap.search_erase, Callback.mprSelectorExpire.injEq]
    split_ifs with ha
    · constructor
      · intro hfalse
        contradiction
      · rintro ⟨-, hne⟩
        apply absurd ha.symm (hne arg selem rfl hselem)
    · constructor
      · intro hid
        refine ⟨hid, ?_⟩
        rintro id₀ selem₀ rfl hselem₀ rfl
        rw [hselem, Option.some.injEq] at hselem₀
        rw [hselem₀] at ha
        contradiction
      · intro hid
        apply hid.1
  · rfl

theorem freeLinkTimer_drops {tq tq' : TimerqueueContext Callback} {timer : Option ℕ}
    (h : freeLinkTimer tq timer = some tq') :
  TimerqueueContext.Drops (fun q => timer = some q) tq tq'
  := by
  cases timer with
  | none =>
      obtain rfl := Option.some.inj h
      simpa using TimerqueueContext.Drops.refl tq
  | some p =>
      have hdrops := TimerqueueContext.free_drops h
      simpa only [Option.some.injEq, eq_comm] using hdrops

/-- `link_timer_expire` removes a link with its three timers. -/
theorem linkTimerExpire_removes {ctx ctx' : OlsrContext} (hsound : ctx.Sound)
    {arg : Ptr (InAddr × InAddr)} (h : ctx.linkTimerExpire arg = some ctx') :
  Removes (.linkTimerExpire arg) ctx ctx'
  := by
  simp only [linkTimerExpire, Option.bind_eq_bind, Option.bind_eq_some_iff] at h
  obtain ⟨link, hfollow, tq₁, htq₁, tq₂, htq₂, tq₃, htq₃, -, -, hupdate⟩ := h
  obtain ⟨⟨iface, addr⟩, id⟩ := arg
  obtain ⟨hsearch, hid⟩ := followLink_eq_some.mp hfollow
  have hiface : link.localIfaceAddr = iface := hsound.consistent.iface _ _ link hsearch
  rw [hiface] at hupdate
  let ctx₀ : OlsrContext := { ctx with timerqueue := tq₃ }
  let ctx₁ : OlsrContext := ctx₀.eraseLink iface addr
  have hsearch₁ : ∀ i a, ctx₁.searchLink i a =
      if i = iface ∧ a = addr then none else ctx.searchLink i a :=
    searchLink_eraseLink ctx₀ iface addr
  have hdup₁ : NotDuplicated ctx₁.topologyTree := hsound.notDuplicated
  have hremoves : Removes (.linkTimerExpire ⟨(iface, addr), id⟩) ctx ctx₁ := by
    constructor
    · have heq : ctx.Owns (.linkTimerExpire ⟨(iface, addr), id⟩) = fun q =>
          (link.expireTimer = some q ∨ link.asymTimer = some q) ∨ link.symTimer = some q := by
        funext q
        simp [Owns, hfollow, LinkElem.HasTimer, or_assoc]
      rw [heq]
      apply ((freeLinkTimer_drops htq₁).trans (freeLinkTimer_drops htq₂)).trans
        (freeLinkTimer_drops htq₃)
    · intro c p
      cases c with
      | linkTimerExpire arg =>
          obtain ⟨⟨i, a⟩, id'⟩ := arg
          simp only [Owns, followLink_eq_some, hsearch₁, ne_eq, Callback.linkTimerExpire.injEq,
            Ptr.mk.injEq, Prod.mk.injEq]
          apply exists_erased_iff _ hid
          rintro ⟨rfl, rfl⟩
          apply hsearch
      | _ => simp [ctx₁, ctx₀, eraseLink, Owns, followNeigh2, followTopology, followDup,
          searchNeigh2]
    · intro i a link'
      simp only [hsearch₁, ne_eq, Callback.linkTimerExpire.injEq, Ptr.mk.injEq, Prod.mk.injEq]
      by_cases hkey : i = iface ∧ a = addr
      · obtain ⟨rfl, rfl⟩ := hkey
        simp only [and_self, if_true, reduceCtorEq, true_and, false_iff, not_and, not_not]
        intro hlink'
        rw [hsearch, Option.some.injEq] at hlink'
        rw [← hlink', hid]
      · rw [if_neg hkey]
        constructor
        · intro hlink'
          refine ⟨hlink', ?_⟩
          rintro ⟨⟨rfl, rfl⟩, -⟩
          apply hkey ⟨rfl, rfl⟩
        · intro hlink'
          apply hlink'.1
    · intro id' selem
      simp [ctx₁, ctx₀, eraseLink]
    · intro a id'
      simp [ctx₁, ctx₀, eraseLink]
    · rfl
  apply hremoves.same (updateNeighborStatus_same hupdate hdup₁)

/-- An expiry callback removes the entry that is its argument. -/
theorem runExpiry_removes {ctx ctx' : OlsrContext} (hsound : ctx.Sound) {c : Callback}
    (hc : c.isExpiry = true) (h : runCallback c ctx = some ctx') :
  Removes c ctx ctx'
  := by
  cases c with
  | linkTimerExpire arg => apply linkTimerExpire_removes hsound h
  | neigh2ElemExpire arg => apply neigh2ElemExpire_removes hsound.consistent h
  | topologyInfoTimerExpireCb arg => apply topologyInfoTimerExpireCb_removes hsound.notDuplicated h
  | expireDupEntryCb arg => apply expireDupEntryCb_removes h
  | mprSelectorExpire arg => apply mprSelectorExpire_removes h
  | _ => contradiction

end OlsrContext
