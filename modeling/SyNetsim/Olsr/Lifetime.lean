import SyNetsim.Olsr.Expiry

/-!
# Lifetimes of table entries

The handlers keep entries and expiry timers in correspondence (`Timed`), and the expiry
callbacks retire an entry together with its timers (`Retired`). It follows that a node that
receives well-sent HELLO messages never fails (`Timed.step`), that every entry has an armed
expiry timer, and that an expiry callback removes an entry that is in its table.
-/

namespace OlsrContext

/-! ### Messages -/

/-- Queue of messages, counters, statistics, routing table and clock are no part of the
correspondence. -/
theorem Timed.of_eq {ctx : OlsrContext} {hole : Option ℕ} (h : ctx.Timed hole)
    {msgs : List OlsrMsg} {msgSeq ansn : BitVec 16} {info : List NeighborInfo}
    {stats : OrdMap InAddr ℕ} {table : OrdMap InAddr RoutingEntry} {clock : Timespec}
    {sent : List OlsrPacket} :
  OlsrContext.Timed { ctx with
    olsrTxMsgbuf := msgs, msgSeq := msgSeq, ansn := ansn, nodeInfo := info,
    nodeStatTree := stats, routingTable := table, clock := clock, sent := sent } hole
  := h.same SameEntries.of_eq

/-- A TC is handled, whatever it says and whoever sent it. -/
theorem Timed.processOlsrTc {ctx : OlsrContext} (h : ctx.Timed none)
    (hdup : NotDuplicated ctx.topologyTree) (msg : TcMsg) (src orig : InAddr) (vtime : ℕ) :
  ∃ ctx', ctx.processOlsrTc msg src orig vtime = some ctx' ∧ ctx'.Timed none
  := by
  obtain ⟨ctx', hctx', hchanges⟩ := h.backed.processOlsrTc hdup msg src orig vtime False
  exact ⟨ctx', hctx', h.changes hchanges⟩

/-! ### Expiry -/

/-- The entry that is the argument of an expiry callback is in its table. -/
def InTable (ctx : OlsrContext) : Callback → Prop
  | .linkTimerExpire arg => ∃ link, ctx.followLink arg = some link
  | .neigh2ElemExpire arg => ∃ n2elem, ctx.followNeigh2 arg = some n2elem
  | .topologyInfoTimerExpireCb arg => ∃ telem, ctx.followTopology arg = some telem
  | .expireDupEntryCb arg => ∃ delem, ctx.followDup arg = some delem
  | .mprSelectorExpire arg => ∃ a, ctx.selectorTree.search a = some arg
  | _ => False

/-- An entry that owns a timer is in its table. -/
theorem Timed.inTable {ctx : OlsrContext} {hole : Option ℕ} (h : ctx.Timed hole) {c : Callback}
    {p : ℕ} (howns : ctx.Owns c p) :
  ctx.InTable c
  := by
  cases c with
  | linkTimerExpire arg =>
      obtain ⟨link, hlink, -⟩ := howns
      exact ⟨link, hlink⟩
  | neigh2ElemExpire arg =>
      obtain ⟨n2elem, hn2elem, -⟩ := howns
      exact ⟨n2elem, hn2elem⟩
  | topologyInfoTimerExpireCb arg =>
      obtain ⟨telem, htelem, -⟩ := howns
      exact ⟨telem, htelem⟩
  | expireDupEntryCb arg =>
      obtain ⟨delem, hdelem, -⟩ := howns
      exact ⟨delem, hdelem⟩
  | mprSelectorExpire arg =>
      obtain ⟨selem, hselem, -⟩ := howns
      obtain ⟨-, htree⟩ := h.elems arg selem hselem
      exact ⟨selem.selectorAddr, htree⟩
  | _ => contradiction

/-- From `ctx` to `ctx'` the entry that is the argument of an expiry callback has been removed
and its timers disarmed. -/
structure Retired (ctx ctx' : OlsrContext) (c : Callback) (hole : Option ℕ) : Prop where
  timed : ctx'.Timed hole
  attached : ∀ q, ctx.timerqueue.Attached q → ctx'.timerqueue.Attached q
  disarmed : ∀ q, ctx.Owns c q → ∀ d, ¬ ctx'.timerqueue.Armed d q
  removed : ¬ ctx'.InTable c

/-- An entry in its table owns a timer. -/
theorem Timed.owns_of_inTable {ctx : OlsrContext} {hole : Option ℕ} (h : ctx.Timed hole)
    {c : Callback} (hin : ctx.InTable c) :
  ∃ p, ctx.Owns c p
  := by
  cases c with
  | linkTimerExpire arg =>
      obtain ⟨link, hfollow⟩ := hin
      obtain ⟨hlink, -⟩ := followLink_eq_some.mp hfollow
      obtain ⟨p, hp⟩ := h.expire _ _ link hlink
      exact ⟨p, link, hfollow, Or.inl hp⟩
  | neigh2ElemExpire arg =>
      obtain ⟨n2elem, hfollow⟩ := hin
      exact ⟨_, n2elem, hfollow, rfl⟩
  | topologyInfoTimerExpireCb arg =>
      obtain ⟨telem, hfollow⟩ := hin
      exact ⟨_, telem, hfollow, rfl⟩
  | expireDupEntryCb arg =>
      obtain ⟨delem, hfollow⟩ := hin
      exact ⟨_, delem, hfollow, rfl⟩
  | mprSelectorExpire arg =>
      obtain ⟨a, ha⟩ := hin
      obtain ⟨selem, hselem, -⟩ := h.tree a arg ha
      exact ⟨_, selem, hselem, rfl⟩
  | _ => contradiction

/-- An entry that has been removed is retired. -/
theorem Timed.retired {ctx ctx' : OlsrContext} {hole : Option ℕ} (h : ctx.Timed hole)
    {c₀ : Callback} (hc₀ : c₀.isExpiry = true) (hr : Removes c₀ ctx ctx') :
  Retired ctx ctx' c₀ hole
  := by
  have htimed : ctx'.Timed hole := by
    constructor
    · apply hr.drops.wf hole h.wf
    · apply h.armed_of_remove hc₀ hr.owns hr.drops.armed
    · intro i a link hlink
      apply h.expire i a link ((hr.searchLink i a link).mp hlink).1
    · intro id selem hid
      obtain ⟨hselem, hne⟩ := (hr.elems id selem).mp hid
      obtain ⟨hlt, hsearch⟩ := h.elems id selem hselem
      rw [hr.nextId]
      refine ⟨hlt, (hr.tree _ id).mpr ⟨hsearch, ?_⟩⟩
      rintro id₀ selem₀ rfl hselem₀ heq
      obtain ⟨-, hsearch₀⟩ := h.elems id₀ selem₀ hselem₀
      rw [heq, hsearch, Option.some.injEq] at hsearch₀
      apply hne
      rw [hsearch₀]
    · intro a id hid
      obtain ⟨hsearch, hne⟩ := (hr.tree a id).mp hid
      obtain ⟨selem, hselem, haddr⟩ := h.tree a id hsearch
      refine ⟨selem, (hr.elems id selem).mpr ⟨hselem, ?_⟩, haddr⟩
      intro heq
      apply hne id selem heq hselem haddr
  refine ⟨htimed, hr.drops.attached, ?_, ?_⟩
  · intro q hq d hd
    apply ((hr.drops.armed d q).mp hd).1 hq
  · intro hin
    obtain ⟨p, hp⟩ := htimed.owns_of_inTable hin
    apply ((hr.owns c₀ p).mp hp).1 rfl

theorem freeLinkTimer_attached {tq : TimerqueueContext Callback} {timer : Option ℕ}
    (htimer : ∀ p, timer = some p → tq.Attached p) :
  ∃ tq', freeLinkTimer tq timer = some tq' ∧ ∀ q, tq.Attached q → tq'.Attached q
  := by
  cases timer with
  | none => exact ⟨tq, rfl, fun q hq => hq⟩
  | some p =>
      obtain ⟨tq', htq'⟩ := (htimer p rfl).free
      exact ⟨tq', htq', (TimerqueueContext.free_drops htq').attached⟩

/-- `link_timer_expire` succeeds for a link in its table. -/
theorem Timed.linkTimerExpire {ctx : OlsrContext} {hole : Option ℕ} (h : ctx.Timed hole)
    (hsound : ctx.Sound) {arg : Ptr (InAddr × InAddr)}
    (hin : ctx.InTable (.linkTimerExpire arg)) :
  ∃ ctx', ctx.linkTimerExpire arg = some ctx'
  := by
  obtain ⟨link, hfollow⟩ := hin
  obtain ⟨hsearch, hid⟩ := followLink_eq_some.mp hfollow
  obtain ⟨ielem, hielem, -⟩ := Option.bind_eq_some_iff.mp hsearch
  have hiface : link.localIfaceAddr = arg.key.1 := hsound.consistent.iface _ _ link hsearch
  have hneigh : arg.key.2 ∈ ctx.neighborTree := hsound.consistent.neighbor _ _ link hsearch
  have hattach : ∀ q, link.HasTimer q → ctx.timerqueue.Attached q := by
    intro q hq
    have harmed := (h.armed (.linkTimerExpire arg) q rfl).mp ⟨link, hfollow, hq⟩
    apply harmed.attached
  obtain ⟨tq₁, htq₁, hattached₁⟩ := freeLinkTimer_attached (fun p hp => hattach p (Or.inl hp))
  obtain ⟨tq₂, htq₂, hattached₂⟩ := freeLinkTimer_attached
    (fun p hp => hattached₁ p (hattach p (Or.inr (Or.inl hp))))
  obtain ⟨tq₃, htq₃, -⟩ := freeLinkTimer_attached
    (fun p hp => hattached₂ p (hattached₁ p (hattach p (Or.inr (Or.inr hp)))))
  obtain ⟨neigh, hneigh⟩ := OrdMap.mem_iff.mp hneigh
  let ctx₁ : OlsrContext :=
    OlsrContext.eraseLink { ctx with timerqueue := tq₃ } arg.key.1 arg.key.2
  have hneigh₁ : ctx₁.neighborTree.search arg.key.2 = some neigh := hneigh
  have hdup₁ : NotDuplicated ctx₁.topologyTree := hsound.notDuplicated
  obtain ⟨ctx', hupdate, -⟩ := updateNeighborStatus_spec hdup₁ hneigh₁
  use ctx'
  simp only [OlsrContext.linkTimerExpire, hfollow, htq₁, htq₂, htq₃, hiface, hielem,
    Option.bind_eq_bind, Option.bind_some]
  apply hupdate

/-- An expiry callback succeeds for an entry in its table. -/
theorem Timed.runs {ctx : OlsrContext} {hole : Option ℕ} (h : ctx.Timed hole)
    (hsound : ctx.Sound) {c : Callback} (hc : c.isExpiry = true) (hin : ctx.InTable c) :
  ∃ ctx', runCallback c ctx = some ctx'
  := by
  obtain ⟨p, hp⟩ := h.owns_of_inTable hin
  obtain ⟨tq, htq⟩ := ((h.armed c p hc).mp hp).attached.free
  cases c with
  | linkTimerExpire arg => apply h.linkTimerExpire hsound hin
  | neigh2ElemExpire arg =>
      obtain ⟨n2elem, hfollow, rfl⟩ := hp
      obtain ⟨hsearch, -⟩ := followNeigh2_eq_some.mp hfollow
      obtain ⟨neigh, hneigh, hx⟩ := Option.bind_eq_some_iff.mp hsearch
      have hbridge := hsound.consistent.bridge _ neigh hneigh _ n2elem hx
      simp [runCallback, neigh2ElemExpire, hfollow, hbridge, hneigh, htq]
  | topologyInfoTimerExpireCb arg =>
      obtain ⟨telem, hfollow, rfl⟩ := hp
      simp [runCallback, topologyInfoTimerExpireCb, hfollow, htq]
  | expireDupEntryCb arg =>
      obtain ⟨delem, hfollow, rfl⟩ := hp
      simp [runCallback, expireDupEntryCb, hfollow, htq]
  | mprSelectorExpire arg =>
      obtain ⟨selem, hselem, rfl⟩ := hp
      simp [runCallback, mprSelectorExpire, hselem, htq]
  | _ => contradiction

/-! ### Steps -/

/-- A HELLO is well sent if it comes from its originator and does not list this node as lost. -/
def WellSent (ctx : OlsrContext) : NodeEvent → Prop
  | .recv _ src msg => ∀ hello, msg.payload = .hello hello →
      msg.originator = src ∧ ¬ ListsAsLost ctx.ownIp hello
  | .work .. => True

/-- Handling a message succeeds. -/
theorem Timed.handleOlsrMsg {ctx : OlsrContext} (h : ctx.Timed none) (hsound : ctx.Sound)
    (msg : OlsrMsg) {src : InAddr}
    (hsent : ∀ hello, msg.payload = .hello hello →
      msg.originator = src ∧ ¬ ListsAsLost ctx.ownIp hello) :
  ∃ ctx', ctx.handleOlsrMsg msg src = some ctx' ∧ ctx'.Timed none
  := by
  have hforeign : ¬ False → ∀ hello, msg.payload = .hello hello →
      src = msg.originator ∧ ¬ ListsAsLost ctx.ownIp hello := by
    intro _ hello hpayload
    obtain ⟨horig, hlost⟩ := hsent hello hpayload
    exact ⟨horig.symm, hlost⟩
  have hnull : ¬ ctx.MsgFollowsNull msg src := by
    rintro ⟨-, -, hello, hpayload, hfollows⟩
    apply (hsent hello hpayload).2 hfollows.listsAsLost
  obtain ⟨ctx', hctx', hchanges⟩ := h.backed.handleOlsrMsg hsound hforeign hnull
  exact ⟨ctx', hctx', h.changes hchanges⟩

/-- An expiry callback retires its entry. -/
theorem Timed.runExpiry {ctx : OlsrContext} {hole : Option ℕ} (h : ctx.Timed hole)
    (hsound : ctx.Sound) {c : Callback} (hc : c.isExpiry = true) (hin : ctx.InTable c) :
  ∃ ctx', runCallback c ctx = some ctx' ∧ Retired ctx ctx' c hole
  := by
  obtain ⟨ctx', hrun⟩ := h.runs hsound hc hin
  exact ⟨ctx', hrun, h.retired hc (runExpiry_removes hsound hc hrun)⟩

/-- A periodic callback touches neither entries nor timers. -/
theorem Timed.runPeriodic {ctx : OlsrContext} {hole : Option ℕ} (h : ctx.Timed hole)
    {c : Callback} (hc : c.isExpiry = false) :
  ∃ ctx', runCallback c ctx = some ctx' ∧ ctx'.Timed hole ∧ ctx'.timerqueue = ctx.timerqueue
  := by
  obtain ⟨ctx', hctx', hsame⟩ := runPeriodic_same ctx hc
  exact ⟨ctx', hctx', h.same hsame, hsame.timerqueue⟩

/-- The callback of the timer that is being fired succeeds. Afterwards the timer is armed with no
expiry callback, and an expiry callback has removed an entry that was in its table. -/
theorem Timed.runFiring {ctx : OlsrContext} {c : Callback} {p : ℕ} (h : ctx.Timed (some p))
    (hsound : ctx.Sound) (harmed : ctx.timerqueue.Armed c p) :
  ∃ ctx', runCallback c ctx = some ctx' ∧ ctx'.Timed (some p) ∧ ctx'.timerqueue.Attached p ∧
    (∀ d, d.isExpiry = true → ¬ ctx'.timerqueue.Armed d p) ∧
    (c.isExpiry = true → ctx.InTable c ∧ ¬ ctx'.InTable c)
  := by
  cases hexpiry : c.isExpiry with
  | true =>
      have howns : ctx.Owns c p := (h.armed c p hexpiry).mpr harmed
      have hin := h.inTable howns
      obtain ⟨ctx', hrun, hretired⟩ := h.runExpiry hsound hexpiry hin
      refine ⟨ctx', hrun, hretired.timed, hretired.attached _ harmed.attached, ?_, ?_⟩
      · intro d _
        apply hretired.disarmed p howns
      · intro _
        exact ⟨hin, hretired.removed⟩
  | false =>
      obtain ⟨ctx', hrun, h', htq⟩ := h.runPeriodic hexpiry
      refine ⟨ctx', hrun, h', ?_, ?_, ?_⟩
      · rw [htq]
        apply harmed.attached
      · intro d hd hd'
        rw [htq] at hd'
        rw [hd'.unique harmed, hexpiry] at hd
        contradiction
      · intro hfalse
        contradiction

/-- One round of the timer queue succeeds, and an expiry callback it runs removes an entry that
is in its table. -/
theorem Timed.workRound {ctx : OlsrContext} (h : ctx.Timed none) (hsound : ctx.Sound)
    (currtime : Timespec) (rand : ℕ) :
  ∃ ctx', client.workRound currtime rand ctx = some ctx' ∧ ctx'.Timed none ∧
    ∀ c, c.isExpiry = true → ctx.timerqueue.fired currtime = some c →
      ctx.InTable c ∧ ¬ ctx'.InTable c
  := by
  rcases h.wf.firstDue_cases currtime with hdue |
    ⟨k, e, hdue, hk, he, hattached, -, hwf₁, hactive | ⟨hactive, c, hc, harmed⟩⟩
  · refine ⟨ctx, client.workRound_idle hdue rand, h, ?_⟩
    intro c _ hfired
    simp [TimerqueueContext.fired, hdue] at hfired
  · obtain ⟨q', hfire, hwf, harmed⟩ := client.fire_inactive h.wf hk he hactive rand
    refine ⟨_, (client.workRound_due hdue rand).trans hfire,
      h.setTq hwf (fun c p _ => harmed c p), ?_⟩
    intro c _ hfired
    simp [TimerqueueContext.fired, hdue, he, hactive] at hfired
  · have h₁ : Timed { ctx with timerqueue.rbt := ctx.timerqueue.rbt.erase k } (some k.ptr) :=
      h.setTq hwf₁ (fun c p _ => Iff.rfl)
    obtain ⟨ctx₂, hrun, h₂, hattached₂, hdisarmed, hremoved⟩ :=
      h₁.runFiring (hsound.quiet Quiet.of_eq) harmed
    obtain ⟨q', hfire, hwf', hself, hother⟩ := client.fire_active he hactive hc hrun
      h₂.wf hattached₂ rand
    refine ⟨_, (client.workRound_due hdue rand).trans hfire, ?_, ?_⟩
    · apply h₂.setTq hwf'
      intro d p hd
      by_cases hp : p = k.ptr
      · subst hp
        constructor
        · intro hd'
          apply hself d hd'
        · intro hd'
          apply absurd hd' (hdisarmed d hd)
      · apply hother d p hp
    · intro d hd hfired
      have hfired' : some c = some d := by
        rw [← hfired]
        simp [TimerqueueContext.fired, hdue, he, hactive, hc]
      obtain rfl := Option.some.inj hfired'
      apply hremoved hd

/-- A step on a well-sent event succeeds and keeps entries and timers in correspondence. An
expiry callback it runs removes an entry that is in its table. -/
theorem Timed.step {ctx : OlsrContext} (h : ctx.Timed none) (hsound : ctx.Sound) {e : NodeEvent}
    (hsent : ctx.WellSent e) :
  ∃ ctx', nodeStep ctx e = some ctx' ∧ ctx'.Timed none ∧
    ∀ now currtime rand c, e = .work now currtime rand → c.isExpiry = true →
      ctx.timerqueue.fired currtime = some c → ctx.InTable c ∧ ¬ ctx'.InTable c
  := by
  cases e with
  | recv now src msg =>
      have hclock : OlsrContext.Sound { ctx with clock := now } := hsound.quiet Quiet.of_eq
      obtain ⟨ctx', hctx', h'⟩ := h.of_eq.handleOlsrMsg hclock msg hsent
      refine ⟨ctx', hctx', h', ?_⟩
      intro now' currtime rand c heq
      clear hctx'
      contradiction
  | work now currtime rand =>
      have hclock : OlsrContext.Sound { ctx with clock := now } := hsound.quiet Quiet.of_eq
      obtain ⟨ctx', hctx', h', hfired⟩ := h.of_eq.workRound hclock currtime rand
      refine ⟨ctx', hctx', h', ?_⟩
      rintro now' currtime' rand' c ⟨⟩ hc hfired'
      obtain ⟨hin, hout⟩ := hfired c hc hfired'
      refine ⟨?_, hout⟩
      cases c <;> apply hin

/-! ### Runs -/

theorem Timed.startPeriodicTimer {ctx : OlsrContext} (h : ctx.Timed none) {c : Callback}
    (hc : c.isExpiry = false) (intervalUs maxJitter : ℤ) :
  ∃ ctx', ctx.startPeriodicTimer c intervalUs maxJitter = some ctx' ∧ ctx'.Timed none
  := by
  obtain ⟨tq, htq, hwf, harmed⟩ := TimerqueueContext.startTimer_spec h.wf ctx.clock c intervalUs
    false
  let f : TimerqueueElem Callback → TimerqueueElem Callback :=
    fun e => { e with maxJitter := maxJitter }
  have hnew : tq.Armed c ctx.timerqueue.nextPtr := (harmed _ _).mpr (Or.inr ⟨rfl, rfl⟩)
  obtain ⟨e, he, hactive, hattached, hcallback⟩ := hnew
  refine ⟨{ ctx with timerqueue := tq.update ctx.timerqueue.nextPtr f }, ?_, ?_⟩
  · simp only [OlsrContext.startPeriodicTimer, htq, Option.bind_eq_bind, Option.bind_some,
      Option.pure_def]
    rfl
  · apply h.setTq
    · apply hwf.update he f (Or.inr ⟨rfl, rfl⟩)
      apply hwf.callback _ e he
    · intro d p hd
      rw [TimerqueueContext.armed_update he]
      split_ifs with hp
      · subst hp
        simp only [f, hactive, hattached, hcallback, true_and, Option.some.injEq]
        constructor
        · rintro rfl
          rw [hc] at hd
          contradiction
        · rintro ⟨e', he', -⟩
          have hfresh := h.wf.fresh _ (OrdMap.mem_of_search he')
          apply absurd hfresh (lt_irrefl _)
      · rw [harmed]
        simp [hp]

/-- A node starts with entries and timers in correspondence. -/
theorem olsrStart_timed (ownIp : InAddr) (now : Timespec) :
  ∃ ctx, olsrStart ownIp now = some ctx ∧ ctx.Timed none
  := by
  have h : (initOlsrContext ownIp now).Timed none := by
    constructor
    · apply TimerqueueContext.createTimerqueue_wf
    · intro c p _
      simp only [TimerqueueContext.Armed, initOlsrContext, createTimerqueue, OrdMap.search_empty,
        reduceCtorEq, false_and, exists_false, iff_false]
      intro howns
      cases c with
      | linkTimerExpire arg => obtain ⟨link, hlink, -⟩ := howns; contradiction
      | neigh2ElemExpire arg => obtain ⟨n2elem, hn2elem, -⟩ := howns; contradiction
      | topologyInfoTimerExpireCb arg => obtain ⟨telem, htelem, -⟩ := howns; contradiction
      | expireDupEntryCb arg => obtain ⟨delem, hdelem, -⟩ := howns; contradiction
      | mprSelectorExpire arg => obtain ⟨selem, hselem, -⟩ := howns; contradiction
      | _ => contradiction
    · intro i a link hlink
      contradiction
    · intro id selem hid
      contradiction
    · intro a id hid
      contradiction
  obtain ⟨ctx₁, hctx₁, h₁⟩ := h.startPeriodicTimer (c := .olsrHelloTimerCb) rfl
    (defHelloIntervalMs * 1000) (defHelloIntervalMs * 1000 / 8)
  obtain ⟨ctx₂, hctx₂, h₂⟩ := h₁.startPeriodicTimer (c := .olsrTcTimerCb) rfl
    (ctx₁.param.tcIntervalMs * 1000) (ctx₁.param.tcIntervalMs * 1000 / 8)
  obtain ⟨ctx₃, hctx₃, h₃⟩ := h₂.startPeriodicTimer (c := .olsrSendFromQueueCb) rfl
    (50 * 1000) 0
  obtain ⟨ctx, hctx, h'⟩ := h₃.startPeriodicTimer (c := .dumpDebuginfoCb) rfl
    (6000 * 1000) (100 * 1000)
  use ctx
  refine ⟨?_, h'⟩
  simp only [olsrStart, olsrStartTimer, Option.bind_eq_bind]
  apply Option.bind_eq_some_iff.mpr ⟨ctx₁, hctx₁, _⟩
  rw [hctx₂, Option.bind_some, hctx₃, Option.bind_some, hctx]

/-- Entries and timers correspond in every state that a node reaches with well-sent HELLO
messages. -/
theorem timed_of_reaches {ownIp : InAddr} {now : Timespec} {start ctx : OlsrContext}
    (hstart : olsrStart ownIp now = some start) (h : Reaches nodeStep WellSent start ctx) :
  ctx.Timed none
  := by
  have hinv : ctx.Sound ∧ ctx.Timed none := by
    apply h.invariant
    · rintro ctx e ctx' ⟨hsound, htimed⟩ hsent hstep
      obtain ⟨ctx'', hstep', htimed', -⟩ := htimed.step hsound hsent
      obtain rfl := Option.some.inj (hstep.symm.trans hstep')
      exact ⟨hsound.step hstep, htimed'⟩
    · obtain ⟨start', hstart', htimed⟩ := olsrStart_timed ownIp now
      obtain rfl := Option.some.inj (hstart.symm.trans hstart')
      exact ⟨olsrStart_sound hstart, htimed⟩
  apply hinv.2

/-- In every state a node reaches with well-sent HELLO messages: a link has a neighbour; a
neighbour is symmetric exactly when it has a symmetric link; relays and neighbours with
status `MPR_NEIGH` agree; and every relay and every bridge is a neighbour. No lookup the
handlers rely on fails. -/
theorem tables_consistent {ownIp : InAddr} {now : Timespec} {start ctx : OlsrContext}
    (hstart : olsrStart ownIp now = some start) (h : Reaches nodeStep WellSent start ctx) :
  (∀ iface addr link, ctx.searchLink iface addr = some link → addr ∈ ctx.neighborTree) ∧
  (∀ addr neigh, ctx.neighborTree.search addr = some neigh →
    (neigh.status = .notNeigh ∨ neigh.status = .symNeigh ∨ neigh.status = .mprNeigh) ∧
    (neigh.status = .symNeigh ∨ neigh.status = .mprNeigh ↔
      ∃ iface link, ctx.searchLink iface addr = some link ∧ link.status = .symLink) ∧
    (neigh.status = .mprNeigh → addr ∈ ctx.mprTree) ∧
    ∀ n2addr n2elem, neigh.neighbor2Tree.search n2addr = some n2elem →
      n2elem.bridgeAddr ∈ ctx.neighborTree) ∧
  (∀ addr ∈ ctx.mprTree, addr ∈ ctx.neighborTree) ∧
  ∀ e, ctx.WellSent e → ∃ ctx', nodeStep ctx e = some ctx'
  := by
  have hsound := sound_of_reaches hstart h
  have htimed := timed_of_reaches hstart h
  have hc := hsound.consistent
  refine ⟨hc.neighbor, ?_, hc.mpr, ?_⟩
  · intro addr neigh hneigh
    obtain ⟨hstatus, hsym⟩ := hc.status addr neigh hneigh (by simp)
    rw [← NeighborStatus.isSym_iff]
    refine ⟨?_, hsym, hc.relay addr neigh hneigh, ?_⟩
    · cases hs : neigh.status with
      | unavailable => apply absurd hs hstatus
      | _ => simp
    · intro n2addr n2elem hn2elem
      rw [hc.bridge addr neigh hneigh n2addr n2elem hn2elem]
      apply OrdMap.mem_of_search hneigh
  · intro e hsent
    obtain ⟨ctx', hctx', -⟩ := htimed.step hsound hsent
    exact ⟨ctx', hctx'⟩

/-- A test for well-sent messages. -/
def wellSentCheck (ctx : OlsrContext) : NodeEvent → Bool
  | .recv _ src msg =>
      match msg.payload with
      | .hello hello => msg.originator = src ∧ ∀ info ∈ hello.helloInfo,
          ctx.ownIp ∈ info.neighAddr → extractLink info.linkCode ≠ LinkStatus.lostLink.code
      | _ => true
  | .work .. => true

theorem wellSent_of_check (ctx : OlsrContext) (e : NodeEvent)
    (h : ctx.wellSentCheck e = true) :
  ctx.WellSent e
  := by
  cases e with
  | recv now src msg =>
      intro hello hpayload
      simp only [wellSentCheck, hpayload, decide_eq_true_eq] at h
      refine ⟨h.1, ?_⟩
      rintro ⟨info, hinfo, hlisted, hcode⟩
      apply h.2 info hinfo hlisted hcode
  | work now currtime rand => trivial

/-- A run with well-sent messages: a HELLO of node 2 that lists node 3, a TC of node 3, and a
round of the timer queue. -/
theorem reaches_wellSent :
  ∃ start ctx, olsrStart (nodeIp 1) ⟨0, 0⟩ = some start ∧ Reaches nodeStep WellSent start ctx ∧
    ctx.mprTree.keys = [nodeIp 2] ∧ ctx.topologyTree.keys = [nodeIp 3] ∧
    ctx.dupTree.keys = [⟨nodeIp 3, 1⟩]
  := by
  have hrun : (olsrStart (nodeIp 1) ⟨0, 0⟩).bind (fun start =>
      ([NodeEvent.recv ⟨0, 0⟩ (nodeIp 2) (helloOfTwo [nodeIp 3]),
        .recv ⟨0, 0⟩ (nodeIp 2) (tcOf (nodeIp 3) 1 63 [nodeIp 2]),
        .work ⟨0, 60000000⟩ ⟨0, 60000000⟩ 0].foldlM
        (fun ctx e => if wellSentCheck ctx e then nodeStep ctx e else none) start).map
        (fun ctx => (ctx.mprTree.keys, ctx.topologyTree.keys, ctx.dupTree.keys))) =
      some ([nodeIp 2], [nodeIp 3], [⟨nodeIp 3, 1⟩]) := by
    decide +kernel
  obtain ⟨start, hstart, hrun⟩ := Option.bind_eq_some_iff.mp hrun
  obtain ⟨ctx, hctx, hkeys⟩ := Option.map_eq_some_iff.mp hrun
  simp only [Prod.mk.injEq] at hkeys
  exact ⟨start, ctx, hstart, Reaches.of_checked wellSent_of_check hctx, hkeys⟩

/-- After a HELLO of node 2 that lists node 3, and a TC, the relay node 2 is a neighbour. -/
theorem tables_consistent_two :
  ∃ start ctx, olsrStart (nodeIp 1) ⟨0, 0⟩ = some start ∧ Reaches nodeStep WellSent start ctx ∧
    nodeIp 2 ∈ ctx.mprTree ∧ nodeIp 2 ∈ ctx.neighborTree
  := by
  obtain ⟨start, ctx, hstart, hreach, hmprs, -⟩ := reaches_wellSent
  have hmpr : nodeIp 2 ∈ ctx.mprTree := by
    rw [← OrdMap.mem_keys, hmprs]
    apply List.mem_singleton_self
  obtain ⟨-, -, hneighbor, -⟩ := tables_consistent hstart hreach
  exact ⟨start, ctx, hstart, hreach, hmpr, hneighbor _ hmpr⟩

/-- In every state a node reaches with well-sent HELLO messages: every link, two-hop neighbour,
topology entry, duplicate entry and MPR selector has an armed expiry timer whose argument it
is, and the argument of every armed expiry timer is in its table. So an expiry callback
removes an entry that is in its table. -/
theorem expireTimers_armed {ownIp : InAddr} {now : Timespec} {start ctx : OlsrContext}
    (hstart : olsrStart ownIp now = some start) (h : Reaches nodeStep WellSent start ctx) :
  (∀ iface addr link, ctx.searchLink iface addr = some link → ∃ p, link.expireTimer = some p ∧
    ctx.timerqueue.Armed (.linkTimerExpire ⟨(iface, addr), link.id⟩) p) ∧
  (∀ addr n2addr n2elem, ctx.searchNeigh2 addr n2addr = some n2elem →
    ctx.timerqueue.Armed (.neigh2ElemExpire ⟨(addr, n2addr), n2elem.id⟩) n2elem.expireTimer) ∧
  (∀ orig telem, ctx.topologyTree.search orig = some telem →
    ctx.timerqueue.Armed (.topologyInfoTimerExpireCb ⟨orig, telem.id⟩) telem.expireTimer) ∧
  (∀ dkey delem, ctx.dupTree.search dkey = some delem →
    ctx.timerqueue.Armed (.expireDupEntryCb ⟨dkey, delem.id⟩) delem.expireTimer) ∧
  (∀ addr id, ctx.selectorTree.search addr = some id →
    ∃ selem, ctx.selectorElems.search id = some selem ∧ selem.selectorAddr = addr ∧
      ctx.timerqueue.Armed (.mprSelectorExpire id) selem.expireTimer) ∧
  (∀ c p, c.isExpiry = true → ctx.timerqueue.Armed c p → ctx.InTable c) ∧
  ∀ now currtime rand c, c.isExpiry = true → ctx.timerqueue.fired currtime = some c →
    ∃ ctx', nodeStep ctx (.work now currtime rand) = some ctx' ∧ ctx.InTable c ∧ ¬ ctx'.InTable c
  := by
  have hsound := sound_of_reaches hstart h
  have htimed := timed_of_reaches hstart h
  and_intros
  · intro iface addr link hlink
    obtain ⟨p, hp⟩ := htimed.expire iface addr link hlink
    exact ⟨p, hp, htimed.hasTimer hlink (Or.inl hp)⟩
  · intro addr n2addr n2elem hn2elem
    rw [← htimed.armed _ _ rfl]
    exact ⟨n2elem, followNeigh2_eq_some.mpr ⟨hn2elem, rfl⟩, rfl⟩
  · intro orig telem htelem
    rw [← htimed.armed _ _ rfl]
    exact ⟨telem, followTopology_eq_some.mpr ⟨htelem, rfl⟩, rfl⟩
  · intro dkey delem hdelem
    rw [← htimed.armed _ _ rfl]
    exact ⟨delem, followDup_eq_some.mpr ⟨hdelem, rfl⟩, rfl⟩
  · intro addr id hid
    obtain ⟨selem, hselem, haddr⟩ := htimed.tree addr id hid
    refine ⟨selem, hselem, haddr, ?_⟩
    rw [← htimed.armed _ _ rfl]
    exact ⟨selem, hselem, rfl⟩
  · intro c p hc harmed
    apply htimed.inTable ((htimed.armed c p hc).mpr harmed)
  · intro now currtime rand c hc hfired
    obtain ⟨ctx', hctx', -, hexpiry⟩ := htimed.step hsound (e := .work now currtime rand) trivial
    obtain ⟨hin, hout⟩ := hexpiry now currtime rand c rfl hc hfired
    exact ⟨ctx', hctx', hin, hout⟩

/-- After a HELLO of node 2, and a TC of node 3, the topology entry of node 3 has an armed
timer. -/
theorem expireTimers_armed_three :
  ∃ start ctx telem, olsrStart (nodeIp 1) ⟨0, 0⟩ = some start ∧
    Reaches nodeStep WellSent start ctx ∧ ctx.topologyTree.search (nodeIp 3) = some telem ∧
    ctx.timerqueue.Armed (.topologyInfoTimerExpireCb ⟨nodeIp 3, telem.id⟩) telem.expireTimer
  := by
  obtain ⟨start, ctx, hstart, hreach, -, htopology, -⟩ := reaches_wellSent
  have hmem : nodeIp 3 ∈ ctx.topologyTree := by
    rw [← OrdMap.mem_keys, htopology]
    apply List.mem_singleton_self
  obtain ⟨telem, htelem⟩ := OrdMap.mem_iff.mp hmem
  obtain ⟨-, -, htimer, -⟩ := expireTimers_armed hstart hreach
  exact ⟨start, ctx, telem, hstart, hreach, htelem, htimer _ telem htelem⟩

end OlsrContext
