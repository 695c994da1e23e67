import SyNetsim.Olsr.Lifetime

/-!
# Validity times

The timers that a HELLO or a TC arms for its validity time: those of the link to the sender, of the
two-hop neighbours, of the MPR selector and of a new topology entry. Their interval is an `int` of
microseconds, which holds the validity times up to 2147483 ms. A longer one becomes negative, and
`timespec_add_usec` takes it for an unsigned number.

So the timers expire when the validity time has passed exactly if its microseconds fit an `int`
(`OlsrContext.honoursValidity_iff`).
-/

/-! ### Times -/

/-- A time as `clock_gettime` gives it, with seconds below `2 ^ 62`. -/
structure Timespec.Normalised (t : Timespec) : Prop where
  nsec : t.tvNsec < 1000000000
  sec : t.tvSec < 2 ^ 62

/-- The time is `ms` milliseconds after `now`, with nanoseconds in their range and seconds that fit
the type `time_t`. -/
structure Timespec.IsAfter (t now : Timespec) (ms : ℕ) : Prop where
  nanos : t.ns = now.ns + ms * 1000000
  nsec : t.tvNsec < 1000000000
  sec : t.tvSec < 2 ^ 63

/-- The time of expiry of a timer that is armed at `now` for a validity time in milliseconds. -/
def validUntil (now : Timespec) (vtime : ℕ) : Timespec :=
  timespecAddUsec now (toUlong (vtimeInterval vtime))

/-- Microseconds that fit an `int` are the interval of a timer. -/
theorem toUlong_vtimeInterval_of_lt {vtime : ℕ} (h : vtime * 1000 < 2 ^ 31) :
  toUlong (vtimeInterval vtime) = vtime * 1000
  := by
  have hnat : (BitVec.ofNat 32 (vtime * 1000)).toNat = vtime * 1000 := by
    rw [BitVec.toNat_ofNat]
    apply Nat.mod_eq_of_lt
    omega
  rw [vtimeInterval, toInt, BitVec.toInt_eq_toNat_of_lt (by omega), hnat]
  apply toUlong_natCast
  omega

/-- Microseconds from `2 ^ 31` on become negative, and then a number close to `2 ^ 64`. -/
theorem toUlong_vtimeInterval_of_ge {vtime : ℕ} (hle : 2 ^ 31 ≤ vtime * 1000)
    (hlt : vtime * 1000 < 2 ^ 32) :
  toUlong (vtimeInterval vtime) = 2 ^ 64 - (2 ^ 32 - vtime * 1000)
  := by
  have hint : vtimeInterval vtime = -((2 ^ 32 - vtime * 1000 : ℕ) : ℤ) := by
    rw [vtimeInterval, toInt, BitVec.toInt_eq_toNat_cond, BitVec.toNat_ofNat,
      Nat.mod_eq_of_lt hlt, if_neg (by omega)]
    omega
  rw [hint]
  apply toUlong_neg
  · omega
  · omega

/-- Nanoseconds carry into seconds. -/
theorem timespecAddUsec_carry (t : Timespec) (usec : ℕ) :
  (timespecAddUsec t usec).ns = t.tvSec * 1000000000 + (t.tvNsec + usec * 1000) % 2 ^ 64
  := by
  simp only [timespecAddUsec, Timespec.ns]
  generalize (t.tvNsec + usec * 1000) % 2 ^ 64 = add
  omega

/-- A timer that is armed for a validity time expires when it has passed, if and only if the
microseconds fit an `int`. -/
theorem validUntil_isAfter_iff {now : Timespec} (hnow : now.Normalised) {vtime : ℕ}
    (hvtime : vtime ≤ 3968000) :
  (validUntil now vtime).IsAfter now vtime ↔ vtime * 1000 < 2 ^ 31
  := by
  have hnsec := hnow.nsec
  constructor
  · intro hafter
    by_contra hge
    -- the sum is short of `2 ^ 64` by the microseconds that are missing to `2 ^ 32`
    have hmissing : now.tvNsec < (2 ^ 32 - vtime * 1000) * 1000 ∧
        (2 ^ 32 - vtime * 1000) * 1000 ≤ 2 ^ 64 := by
      omega
    have hnanos := hafter.nanos
    rw [validUntil, toUlong_vtimeInterval_of_ge (by omega) (by omega), timespecAddUsec_carry,
      add_mul_mod_wrapped hmissing.1 hmissing.2, Timespec.ns] at hnanos
    omega
  · intro hlt
    have hsec := hnow.sec
    have hsum : (now.tvNsec + vtime * 1000 * 1000) % 2 ^ 64 = now.tvNsec + vtime * 1000 * 1000 := by
      apply Nat.mod_eq_of_lt
      omega
    rw [validUntil, toUlong_vtimeInterval_of_lt hlt]
    refine ⟨?_, ?_, ?_⟩
    · rw [timespecAddUsec_carry, hsum, Timespec.ns]
      omega
    · apply Nat.mod_lt
      decide
    · simp only [timespecAddUsec, hsum]
      omega

/-- The validity time of a mantissa and an exponent, rounded down to milliseconds. -/
theorem meToReltime_eq (me : BitVec 8) :
  meToReltime me
    = (16 + (me >>> 4).toNat) * 2 ^ (me &&& 0x0F).toNat * 1000 / 256
  := by
  revert me
  decide

/-- The longest validity time. -/
theorem meToReltime_le (me : BitVec 8) :
  meToReltime me ≤ 3968000
  := by
  revert me
  decide

/-! ### Timers -/

namespace TimerqueueContext

variable {κ : Type}

/-- The timer `p` is in the queue, and expires at `t`. -/
def ExpiresAt (tq : TimerqueueContext κ) (t : Timespec) (p : ℕ) : Prop :=
  ∃ e, tq.elems.search p = some e ∧ e.attached = true ∧ e.expire = t

/-- A timer expires at one time. -/
theorem ExpiresAt.unique {tq : TimerqueueContext κ} {t t' : Timespec} {p : ℕ}
    (h : tq.ExpiresAt t p) (h' : tq.ExpiresAt t' p) :
  t = t'
  := by
  obtain ⟨e, he, -, rfl⟩ := h
  obtain ⟨e', he', -, rfl⟩ := h'
  rw [Option.some.inj (he.symm.trans he')]

/-- In `tq'` the timer `p` expires at `t`, as do the timers that do so in `tq`. -/
structure SetsExpiry (t : Timespec) (p : ℕ) (tq tq' : TimerqueueContext κ) : Prop where
  set : tq'.ExpiresAt t p
  kept : ∀ q, tq.ExpiresAt t q → tq'.ExpiresAt t q

/-- A timer has been written to, and expires at `t` then. -/
theorem SetsExpiry.of_search {tq tq' : TimerqueueContext κ} {t : Timespec} {p : ℕ}
    {e : TimerqueueElem κ}
    (hsearch : ∀ q, tq'.elems.search q = if q = p then some e else tq.elems.search q)
    (hattached : e.attached = true) (hexpire : e.expire = t) :
  SetsExpiry t p tq tq'
  := by
  constructor
  · exact ⟨e, by rw [hsearch, if_pos rfl], hattached, hexpire⟩
  · rintro q ⟨e', he', hattached', hexpire'⟩
    by_cases hq : q = p
    · exact ⟨e, by rw [hsearch, if_pos hq], hattached, hexpire⟩
    · exact ⟨e', by rw [hsearch, if_neg hq, he'], hattached', hexpire'⟩

/-- Starting a new timer sets its time of expiry. -/
theorem startTimer_setsExpiry {tq tq' : TimerqueueContext κ} (h : tq.Wf none) {now : Timespec}
    {c : κ} {intervalUs : ℤ} {useOnce : Bool} {p : ℕ}
    (hstart : tq.startTimer now c intervalUs useOnce = some (p, tq')) :
  SetsExpiry (timespecAddUsec now (toUlong intervalUs)) p tq tq'
  := by
  obtain ⟨tq₁, htq₁, -, hsearch⟩ := startTimer_search h now c intervalUs useOnce
  rw [htq₁, Option.some.injEq, Prod.mk.injEq] at hstart
  obtain ⟨rfl, rfl⟩ := hstart
  apply SetsExpiry.of_search hsearch rfl rfl

/-- Reactivating a timer sets its time of expiry. -/
theorem reactivateTimer_setsExpiry {tq tq' : TimerqueueContext κ} {now : Timespec} {p : ℕ}
    {e : TimerqueueElem κ} (he : tq.elems.search p = some e)
    (hreactivate : tq.timerqueueReactivateTimer now p = some tq') :
  SetsExpiry (timespecAddUsec now (toUlong e.intervalUs)) p tq tq'
  := SetsExpiry.of_search (search_reactivate he hreactivate) rfl rfl

/-- Restarting a timer sets its time of expiry. -/
theorem restartTimer_setsExpiry {tq tq' : TimerqueueContext κ} {now : Timespec} {p : ℕ}
    {intervalUs : ℤ} (hrestart : tq.restartTimer now p intervalUs = some tq') :
  SetsExpiry (timespecAddUsec now (toUlong intervalUs)) p tq tq'
  := by
  cases he : tq.elems.search p with
  | none =>
      simp [restartTimer, timerqueueReactivateTimer, search_update, he] at hrestart
  | some e =>
      let f : TimerqueueElem κ → TimerqueueElem κ := fun e => { e with intervalUs := intervalUs }
      have hsearch : (tq.update p f).elems.search p = some (f e) := search_update_self he f
      have hset := reactivateTimer_setsExpiry hsearch hrestart
      refine ⟨hset.set, ?_⟩
      rintro q ⟨e', he', hattached, hexpire⟩
      by_cases hq : q = p
      · rw [hq]
        apply hset.set
      · apply hset.kept q
        refine ⟨e', ?_, hattached, hexpire⟩
        rw [search_update, if_neg hq, he']

/-- Writing to a timer without moving it keeps the times of expiry. -/
theorem ExpiresAt.update {tq : TimerqueueContext κ} {t : Timespec} {q : ℕ}
    (h : tq.ExpiresAt t q) (p : ℕ) {f : TimerqueueElem κ → TimerqueueElem κ}
    (hattached : ∀ e, (f e).attached = e.attached) (hexpire : ∀ e, (f e).expire = e.expire) :
  (tq.update p f).ExpiresAt t q
  := by
  obtain ⟨e, he, hattached', hexpire'⟩ := h
  by_cases hq : q = p
  · subst hq
    exact ⟨f e, search_update_self he f, (hattached e).trans hattached', (hexpire e).trans hexpire'⟩
  · refine ⟨e, ?_, hattached', hexpire'⟩
    rw [search_update, if_neg hq, he]

/-- Starting a new timer keeps the times of expiry of the others. -/
theorem ExpiresAt.startTimer {tq tq' : TimerqueueContext κ} {t : Timespec} {q : ℕ}
    (h : tq.ExpiresAt t q) (hwf : tq.Wf none) {now : Timespec} {c : κ} {intervalUs : ℤ}
    {useOnce : Bool} {p : ℕ}
    (hstart : tq.startTimer now c intervalUs useOnce = some (p, tq')) :
  tq'.ExpiresAt t q
  := by
  obtain ⟨e, he, hattached, hexpire⟩ := h
  obtain ⟨tq₁, htq₁, -, hsearch⟩ := startTimer_search hwf now c intervalUs useOnce
  rw [htq₁, Option.some.injEq, Prod.mk.injEq] at hstart
  obtain ⟨rfl, rfl⟩ := hstart
  refine ⟨e, ?_, hattached, hexpire⟩
  rw [hsearch, if_neg, he]
  apply Nat.ne_of_lt
  apply hwf.fresh q (OrdMap.mem_of_search he)

end TimerqueueContext

namespace OlsrContext

/-! ### The link to the sender -/

/-- Setting a timer of a link sets its time of expiry. -/
theorem linkTimerSet_setsExpiry {tq tq' : TimerqueueContext Callback} (h : tq.Wf none)
    {now : Timespec} {arg : Ptr (InAddr × InAddr)} {timer timer' : Option ℕ} {vtime : ℕ}
    (hset : linkTimerSet tq now arg timer vtime = some (timer', tq')) :
  ∃ p, timer' = some p ∧ TimerqueueContext.SetsExpiry (validUntil now vtime) p tq tq'
  := by
  cases timer with
  | none =>
      simp only [linkTimerSet, Option.bind_eq_bind, Option.bind_eq_some_iff, Option.pure_def,
        Option.some.injEq, Prod.mk.injEq] at hset
      obtain ⟨⟨p, tq₁⟩, hstart, rfl, rfl⟩ := hset
      exact ⟨p, rfl, TimerqueueContext.startTimer_setsExpiry h hstart⟩
  | some p =>
      simp only [linkTimerSet, Option.bind_eq_bind, Option.bind_eq_some_iff, Option.pure_def,
        Option.some.injEq, Prod.mk.injEq] at hset
      obtain ⟨tq₁, hrestart, rfl, rfl⟩ := hset
      exact ⟨p, rfl, TimerqueueContext.restartTimer_setsExpiry hrestart⟩

/-- Setting the timer `expire_timer` of a link. -/
theorem linkElemExpireTimerSet_setsExpiry {ctx ctx' : OlsrContext} (h : ctx.timerqueue.Wf none)
    {iface addr : InAddr} {link link' : LinkElem} {vtime : ℕ}
    (hset : ctx.linkElemExpireTimerSet iface addr link vtime = some (link', ctx')) :
  ∃ p tq, link' = { link with expireTimer := some p } ∧ ctx' = { ctx with timerqueue := tq } ∧
    TimerqueueContext.SetsExpiry (validUntil ctx.clock vtime) p ctx.timerqueue tq
  := by
  simp only [linkElemExpireTimerSet, Option.bind_eq_bind, Option.bind_eq_some_iff, Option.pure_def,
    Option.some.injEq, Prod.mk.injEq] at hset
  obtain ⟨⟨timer, tq⟩, hset, rfl, rfl⟩ := hset
  obtain ⟨p, rfl, hsets⟩ := linkTimerSet_setsExpiry h hset
  exact ⟨p, tq, rfl, rfl, hsets⟩

/-- Setting the timer `asym_timer` of a link. -/
theorem linkElemAsymTimerSet_setsExpiry {ctx ctx' : OlsrContext} (h : ctx.timerqueue.Wf none)
    {iface addr : InAddr} {link link' : LinkElem} {vtime : ℕ}
    (hset : ctx.linkElemAsymTimerSet iface addr link vtime = some (link', ctx')) :
  ∃ p tq status, link' = { link with status := status, asymTimer := some p } ∧
    ctx' = { ctx with timerqueue := tq } ∧
    TimerqueueContext.SetsExpiry (validUntil ctx.clock vtime) p ctx.timerqueue tq
  := by
  simp only [linkElemAsymTimerSet, Option.bind_eq_bind, Option.bind_eq_some_iff, Option.pure_def,
    Option.some.injEq, Prod.mk.injEq] at hset
  obtain ⟨⟨timer, tq⟩, hset, rfl, rfl⟩ := hset
  obtain ⟨p, rfl, hsets⟩ := linkTimerSet_setsExpiry h hset
  exact ⟨p, tq, _, rfl, rfl, hsets⟩

/-- Setting the timer `sym_timer` of a link. -/
theorem linkElemSymTimerSet_setsExpiry {ctx ctx' : OlsrContext} (h : ctx.timerqueue.Wf none)
    {iface addr : InAddr} {link link' : LinkElem} {vtime : ℕ}
    (hset : ctx.linkElemSymTimerSet iface addr link vtime = some (link', ctx')) :
  ∃ p tq, link' = { link with status := .symLink, symTimer := some p } ∧
    ctx' = { ctx with timerqueue := tq } ∧
    TimerqueueContext.SetsExpiry (validUntil ctx.clock vtime) p ctx.timerqueue tq
  := by
  simp only [linkElemSymTimerSet, Option.bind_eq_bind, Option.bind_eq_some_iff, Option.pure_def,
    Option.some.injEq, Prod.mk.injEq] at hset
  obtain ⟨⟨timer, tq⟩, hset, rfl, rfl⟩ := hset
  obtain ⟨p, rfl, hsets⟩ := linkTimerSet_setsExpiry h hset
  exact ⟨p, tq, rfl, rfl, hsets⟩

/-- The timers `expire_timer` and `asym_timer` of the link to `src` expire at `t`. -/
def LinkExpiresAt (ctx : OlsrContext) (t : Timespec) (src : InAddr) : Prop :=
  ∃ link p q, ctx.searchLink ctx.ownIp src = some link ∧ link.expireTimer = some p ∧
    link.asymTimer = some q ∧ ctx.timerqueue.ExpiresAt t p ∧ ctx.timerqueue.ExpiresAt t q

/-- Finding the link to the sender sets its timer `expire_timer`. -/
theorem findLink_expiresAt {ctx ctx' : OlsrContext} (h : ctx.timerqueue.Wf none) {src : InAddr}
    {link : LinkElem} {vtime : ℕ} (hfind : ctx.findLink src vtime = some (link, ctx')) :
  ctx'.clock = ctx.clock ∧ ctx'.ownIp = ctx.ownIp ∧ ctx'.selectorElems = ctx.selectorElems ∧
    ctx'.selectorTree = ctx.selectorTree ∧
    ∃ p, link.expireTimer = some p ∧ ctx'.timerqueue.ExpiresAt (validUntil ctx.clock vtime) p
  := by
  cases hlink : ctx.searchLink ctx.ownIp src with
  | none =>
      simp only [findLink, hlink, Option.bind_eq_bind, Option.bind_eq_some_iff, Option.pure_def,
        Option.some.injEq, Prod.mk.injEq] at hfind
      obtain ⟨⟨link₀, ctx₀⟩, hmake, rfl, rfl⟩ := hfind
      have hwf : TimerqueueContext.Wf { ctx with nextId := ctx.nextId + 1 }.timerqueue none := h
      obtain ⟨p, tq, rfl, rfl, hsets⟩ := linkElemExpireTimerSet_setsExpiry hwf hmake
      exact ⟨rfl, rfl, rfl, rfl, p, rfl, hsets.set⟩
  | some link₀ =>
      simp only [findLink, hlink] at hfind
      obtain ⟨p, tq, rfl, rfl, hsets⟩ := linkElemExpireTimerSet_setsExpiry h hfind
      exact ⟨rfl, rfl, rfl, rfl, p, rfl, hsets.set⟩

/-- Finding the link to the sender and setting its timers. -/
theorem touchLink_expiresAt {ctx ctx' : OlsrContext} (h : ctx.Backed) {src : InAddr}
    (hiface : ctx.ownIp ∈ ctx.localIfaceTree) {vtime : ℕ}
    (htouch : ctx.touchLink src vtime = some ctx') :
  ctx'.LinkExpiresAt (validUntil ctx.clock vtime) src ∧
    ctx'.selectorElems = ctx.selectorElems ∧ ctx'.selectorTree = ctx.selectorTree
  := by
  simp only [touchLink, Option.bind_eq_bind, Option.bind_eq_some_iff, Option.pure_def] at htouch
  obtain ⟨⟨link, ctx₁⟩, hfind, ⟨link', ctx₂⟩, hasym, htouch⟩ := htouch
  obtain rfl := Option.some.inj htouch
  obtain ⟨link₀, ctx₀, hfind₀, hchanges, -, hlink, -⟩ := h.findLink hiface vtime False
  rw [hfind, Option.some.injEq, Prod.mk.injEq] at hfind₀
  obtain ⟨rfl, rfl⟩ := hfind₀
  obtain ⟨hclock, hown, helems, htree, p, hp, hexpire⟩ := findLink_expiresAt h.wf hfind
  obtain ⟨q, tq, status, rfl, rfl, hsets⟩ :=
    linkElemAsymTimerSet_setsExpiry (h.changes hchanges).wf hasym
  rw [hclock] at hsets
  refine ⟨⟨{ link with status := status, asymTimer := some q }, p, q, ?_, hp, rfl,
    hsets.kept p hexpire, hsets.set⟩, helems, htree⟩
  have hlink₁ : OlsrContext.searchLink { ctx₁ with timerqueue := tq } ctx₁.ownIp src =
      some link := by
    rw [hown]
    apply hlink
  apply Eq.trans (searchLink_setLink { ctx₁ with timerqueue := tq } ctx₁.ownIp src _ _ _)
  rw [if_pos ⟨rfl, rfl⟩, hlink₁, Option.map_some]

/-- From `ctx` to `ctx'` links and times of expiry `t` stay. -/
structure KeepsExpiry (t : Timespec) (ctx ctx' : OlsrContext) : Prop where
  searchLink : ∀ i a, ctx'.searchLink i a = ctx.searchLink i a
  ownIp : ctx'.ownIp = ctx.ownIp
  clock : ctx'.clock = ctx.clock
  expiresAt : ∀ q, ctx.timerqueue.ExpiresAt t q → ctx'.timerqueue.ExpiresAt t q

theorem KeepsExpiry.trans {t : Timespec} {ctx ctx' ctx'' : OlsrContext}
    (h : KeepsExpiry t ctx ctx') (h' : KeepsExpiry t ctx' ctx'') :
  KeepsExpiry t ctx ctx''
  where
  searchLink i a := (h'.searchLink i a).trans (h.searchLink i a)
  ownIp := h'.ownIp.trans h.ownIp
  clock := h'.clock.trans h.clock
  expiresAt q hq := h'.expiresAt q (h.expiresAt q hq)

/-- A change that leaves entries and timers as they are. -/
theorem KeepsExpiry.of_same {t : Timespec} {ctx ctx' : OlsrContext} (h : SameEntries ctx ctx')
    (hlocal : ctx.Local ctx') :
  KeepsExpiry t ctx ctx'
  where
  searchLink := h.searchLink
  ownIp := hlocal.ownIp
  clock := hlocal.clock
  expiresAt q hq := by
    rw [h.timerqueue]
    apply hq

/-- The timer `sym_timer` of the link to `src` expires at `t`. -/
def SymExpiresAt (ctx : OlsrContext) (t : Timespec) (src : InAddr) : Prop :=
  ∃ link p, ctx.searchLink ctx.ownIp src = some link ∧ link.symTimer = some p ∧
    ctx.timerqueue.ExpiresAt t p

theorem LinkExpiresAt.keeps {t : Timespec} {ctx ctx' : OlsrContext} {src : InAddr}
    (h : ctx.LinkExpiresAt t src) (hkeeps : KeepsExpiry t ctx ctx') :
  ctx'.LinkExpiresAt t src
  := by
  obtain ⟨link, p, q, hlink, hp, hq, hexpire, hasym⟩ := h
  refine ⟨link, p, q, ?_, hp, hq, hkeeps.expiresAt p hexpire, hkeeps.expiresAt q hasym⟩
  rw [hkeeps.ownIp, hkeeps.searchLink, hlink]

theorem SymExpiresAt.keeps {t : Timespec} {ctx ctx' : OlsrContext} {src : InAddr}
    (h : ctx.SymExpiresAt t src) (hkeeps : KeepsExpiry t ctx ctx') :
  ctx'.SymExpiresAt t src
  := by
  obtain ⟨link, p, hlink, hp, hsym⟩ := h
  refine ⟨link, p, ?_, hp, hkeeps.expiresAt p hsym⟩
  rw [hkeeps.ownIp, hkeeps.searchLink, hlink]

/-- Writing the status and the timer `sym_timer` of the link to the sender. -/
theorem LinkExpiresAt.setLink {ctx : OlsrContext} {t : Timespec} {src : InAddr}
    (h : ctx.LinkExpiresAt t src) {tq : TimerqueueContext Callback}
    (hkept : ∀ q, ctx.timerqueue.ExpiresAt t q → tq.ExpiresAt t q) {link link' : LinkElem}
    (hlink : ctx.searchLink ctx.ownIp src = some link)
    (hexpire : link'.expireTimer = link.expireTimer) (hasym : link'.asymTimer = link.asymTimer) :
  (OlsrContext.setLink { ctx with timerqueue := tq } ctx.ownIp src link').LinkExpiresAt t src
  := by
  obtain ⟨link₀, p, q, hlink₀, hp, hq, hexpire₀, hasym₀⟩ := h
  rw [hlink, Option.some.injEq] at hlink₀
  subst hlink₀
  refine ⟨link', p, q, ?_, hexpire.trans hp, hasym.trans hq, hkept p hexpire₀, hkept q hasym₀⟩
  apply Eq.trans ((writesLink_setLink hlink tq link').searchLink _ _)
  rw [if_pos ⟨rfl, rfl⟩]

/-- The case `SYM_LINK` or `ASYM_LINK` of `populate_linkset` sets the timer `sym_timer`. -/
theorem setSymLink_expiresAt {ctx ctx' : OlsrContext} (h : ctx.timerqueue.Wf none)
    {src : InAddr} {vtime : ℕ} (hlink : ctx.LinkExpiresAt (validUntil ctx.clock vtime) src)
    (hstep : ctx.setSymLink src vtime = some ctx') :
  ctx'.LinkExpiresAt (validUntil ctx.clock vtime) src ∧
    ctx'.SymExpiresAt (validUntil ctx.clock vtime) src ∧ ctx'.clock = ctx.clock ∧
    ctx'.selectorElems = ctx.selectorElems ∧ ctx'.selectorTree = ctx.selectorTree
  := by
  simp only [setSymLink, Option.bind_eq_bind, Option.bind_eq_some_iff, Option.pure_def] at hstep
  obtain ⟨link, hsearch, ⟨link', ctx₁⟩, hset, hstep⟩ := hstep
  obtain ⟨p, tq, rfl, rfl, hsets⟩ := linkElemSymTimerSet_setsExpiry h hset
  obtain rfl := Option.some.inj hstep
  refine ⟨hlink.setLink hsets.kept hsearch rfl rfl, ?_, rfl, rfl, rfl⟩
  refine ⟨{ link with status := .symLink, symTimer := some p }, p, ?_, rfl, hsets.set⟩
  apply Eq.trans ((writesLink_setLink hsearch tq _).searchLink _ _)
  rw [if_pos ⟨rfl, rfl⟩]

/-- The case `LOST_LINK` of `populate_linkset` leaves the times of expiry as they are. -/
theorem setLostLink_expiresAt {ctx ctx' : OlsrContext} (hdup : NotDuplicated ctx.topologyTree)
    {src : InAddr} {t : Timespec} (hlink : ctx.LinkExpiresAt t src)
    (hstep : ctx.setLostLink src = some ctx') :
  ctx'.LinkExpiresAt t src ∧ ctx'.clock = ctx.clock ∧ ctx'.selectorElems = ctx.selectorElems ∧
    ctx'.selectorTree = ctx.selectorTree
  := by
  simp only [setLostLink, symLinkTimerExpire, Option.bind_eq_bind, Option.bind_eq_some_iff]
    at hstep
  obtain ⟨link, hsearch, p, -, e, -, link', hsearch', q, -, e', -, hupdate⟩ := hstep
  obtain rfl : link = link' := Option.some.inj (hsearch.symm.trans hsearch')
  have hsame := updateNeighborStatus_same hupdate hdup
  obtain ⟨-, -, -, hlocal⟩ := updateNeighborStatus_inv hupdate hdup
  have hkeeps : KeepsExpiry t _ ctx' := KeepsExpiry.of_same hsame hlocal
  refine ⟨LinkExpiresAt.keeps ?_ hkeeps, hkeeps.clock, hsame.selectorElems, hsame.selectorTree⟩
  refine hlink.setLink ?_ hsearch ?_ ?_
  · intro q hq
    apply hq.update p
    · exact fun _ => rfl
    · exact fun _ => rfl
  · rfl
  · rfl

/-! ### MPR selectors -/

/-- The timers of the MPR selectors that are entered under `src`, or have been made since `ctx`,
expire at `t`. -/
def SelectorExpiresAt (ctx ctx' : OlsrContext) (t : Timespec) (src : InAddr) : Prop :=
  ∀ id selem, ctx.selectorTree.search src = some id ∨ id ∉ ctx.selectorElems →
    ctx'.selectorElems.search id = some selem → ctx'.timerqueue.ExpiresAt t selem.expireTimer

/-- Entering the sender as an MPR selector sets the timer of the selector. -/
theorem populateMprSelector_expiresAt {ctx ctx' : OlsrContext} (h : ctx.timerqueue.Wf none)
    {src orig : InAddr} {vtime : ℕ} (hstep : ctx.populateMprSelector src orig vtime = some ctx') :
  ctx.SelectorExpiresAt ctx' (validUntil ctx.clock vtime) src ∧
    (∀ q, ctx.timerqueue.ExpiresAt (validUntil ctx.clock vtime) q →
      ctx'.timerqueue.ExpiresAt (validUntil ctx.clock vtime) q)
  := by
  simp only [populateMprSelector, Option.bind_eq_bind, Option.bind_eq_some_iff,
    Option.pure_def] at hstep
  obtain ⟨⟨id, ctx₁⟩, hfind, selem, hselem, tq, hrestart, hstep⟩ := hstep
  obtain rfl := Option.some.inj hstep
  have hsets := TimerqueueContext.restartTimer_setsExpiry hrestart
  rw [findMprSelector] at hfind
  cases hsearch : ctx.selectorTree.search src with
  | some id₀ =>
      simp only [hsearch, Option.some.injEq, Prod.mk.injEq] at hfind
      obtain ⟨rfl, rfl⟩ := hfind
      refine ⟨?_, hsets.kept⟩
      rintro id selem' (hid | hnew) hselem'
      · rw [hsearch, Option.some.injEq] at hid
        subst hid
        rw [hselem, Option.some.injEq] at hselem'
        rw [← hselem']
        apply hsets.set
      · exact absurd (OrdMap.mem_of_search hselem') hnew
  | none =>
      simp only [hsearch, Option.bind_eq_bind, Option.bind_eq_some_iff, Option.pure_def,
        Option.some.injEq, Prod.mk.injEq] at hfind
      obtain ⟨⟨timer, tq₁⟩, hstart, rfl, rfl⟩ := hfind
      refine ⟨?_, ?_⟩
      · rintro id selem' (hid | hnew) hselem'
        · rw [hsearch] at hid
          contradiction
        · by_cases hid : id = ctx.nextId
          · subst hid
            rw [hselem, Option.some.injEq] at hselem'
            rw [← hselem']
            apply hsets.set
          · rw [OrdMap.search_insert, if_neg hid] at hselem'
            exact absurd (OrdMap.mem_of_search hselem') hnew
      · intro q hq
        apply hsets.kept q
        apply hq.startTimer h hstart

/-- The switch of `populate_linkset` keeps what the handlers rely on. -/
theorem Backed.of_populateLinkStatus {ctx ctx' : OlsrContext} (h : ctx.Backed)
    (hdup : NotDuplicated ctx.topologyTree) {src : InAddr} (hneigh : src ∈ ctx.neighborTree)
    {link : LinkElem} {q : ℕ} (hlink : ctx.searchLink ctx.ownIp src = some link)
    (hasym : link.asymTimer = some q) {linkstat : BitVec 8} {vtime : ℕ}
    (hstep : ctx.populateLinkStatus src linkstat vtime = some ctx') :
  ctx'.Backed
  := by
  rw [populateLinkStatus] at hstep
  split_ifs at hstep
  · obtain ⟨ctx₁, hctx₁, hchanges⟩ := h.setSymLink hlink vtime False
    obtain rfl := Option.some.inj (hstep.symm.trans hctx₁)
    apply h.changes hchanges
  · cases hsym : link.symTimer with
    | none => simp [OlsrContext.setLostLink, hlink, hsym] at hstep
    | some p =>
        obtain ⟨ctx₁, hctx₁, hchanges⟩ := h.setLostLink hdup hlink hsym hasym hneigh trivial
        obtain rfl := Option.some.inj (hstep.symm.trans hctx₁)
        apply h.changes hchanges
  · obtain rfl := Option.some.inj hstep
    apply h

/-- The switch of `populate_linkset` sets the timer `sym_timer` of the link if the sender hears this
node. -/
theorem populateLinkStatus_expiresAt {ctx ctx' : OlsrContext} (h : ctx.Backed)
    (hdup : NotDuplicated ctx.topologyTree) {src : InAddr} {linkstat : BitVec 8} {vtime : ℕ}
    (hlink : ctx.LinkExpiresAt (validUntil ctx.clock vtime) src)
    (hstep : ctx.populateLinkStatus src linkstat vtime = some ctx') :
  ctx'.LinkExpiresAt (validUntil ctx.clock vtime) src ∧
    (linkstat = LinkStatus.symLink.code ∨ linkstat = LinkStatus.asymLink.code →
      ctx'.SymExpiresAt (validUntil ctx.clock vtime) src) ∧ ctx'.clock = ctx.clock ∧
    ctx'.selectorElems = ctx.selectorElems ∧ ctx'.selectorTree = ctx.selectorTree
  := by
  rw [populateLinkStatus] at hstep
  split_ifs at hstep with hsym hlost
  · obtain ⟨hlink', hsym', hclock, hselectors⟩ := setSymLink_expiresAt h.wf hlink hstep
    exact ⟨hlink', fun _ => hsym', hclock, hselectors⟩
  · obtain ⟨hlink', hclock, hselectors⟩ := setLostLink_expiresAt hdup hlink hstep
    exact ⟨hlink', fun hnot => absurd hnot hsym, hclock, hselectors⟩
  · obtain rfl := Option.some.inj hstep
    exact ⟨hlink, fun hnot => absurd hnot hsym, rfl, rfl, rfl⟩

/-- `populate_linkset` sets the timers of the link and of the MPR selector. -/
theorem populateLinkset_expiresAt {ctx ctx' : OlsrContext} (h : ctx.Backed)
    (hdup : NotDuplicated ctx.topologyTree) {src orig : InAddr} (hneigh : src ∈ ctx.neighborTree)
    {helloInfo : List HelloInfo} {vtime : ℕ}
    (hlink : ctx.LinkExpiresAt (validUntil ctx.clock vtime) src)
    (hstep : ctx.populateLinkset src orig helloInfo vtime = some ctx') :
  ctx'.LinkExpiresAt (validUntil ctx.clock vtime) src ∧
    (linkcodeToMe ctx.ownIp helloInfo ≠ statusUnavailable →
      (extractLink (linkcodeToMe ctx.ownIp helloInfo) = LinkStatus.symLink.code ∨
        extractLink (linkcodeToMe ctx.ownIp helloInfo) = LinkStatus.asymLink.code →
        ctx'.SymExpiresAt (validUntil ctx.clock vtime) src) ∧
      (extractStatus (linkcodeToMe ctx.ownIp helloInfo) = NeighborStatus.mprNeigh.code →
        ctx.SelectorExpiresAt ctx' (validUntil ctx.clock vtime) src))
  := by
  rw [populateLinkset] at hstep
  by_cases hcode : linkcodeToMe ctx.ownIp helloInfo = statusUnavailable
  · rw [if_pos hcode] at hstep
    obtain rfl := Option.some.inj hstep
    exact ⟨hlink, fun hnot => absurd hcode hnot⟩
  · rw [if_neg hcode] at hstep
    obtain ⟨ctx₁, hstatus, hselector⟩ := Option.bind_eq_some_iff.mp hstep
    obtain ⟨link, -, q, hsearch, -, hasym, -, -⟩ := id hlink
    have hwf₁ := (h.of_populateLinkStatus hdup hneigh hsearch hasym hstatus).wf
    obtain ⟨hlink₁, hsym₁, hclock₁, helems₁, htree₁⟩ :=
      populateLinkStatus_expiresAt h hdup hlink hstatus
    split_ifs at hselector with hmpr
    · obtain ⟨hselector', hkept⟩ := populateMprSelector_expiresAt hwf₁ hselector
      obtain ⟨tq, nextId, elems, selectors, rfl⟩ := populateMprSelector_inv hselector
      rw [hclock₁] at hselector' hkept
      have hkeeps : KeepsExpiry (validUntil ctx.clock vtime) ctx₁ { ctx₁ with
          timerqueue := tq, nextId := nextId, selectorElems := elems, selectorTree := selectors } :=
        ⟨fun _ _ => rfl, rfl, rfl, hkept⟩
      refine ⟨hlink₁.keeps hkeeps, fun _ => ⟨fun hsym => (hsym₁ hsym).keeps hkeeps, fun _ => ?_⟩⟩
      rw [SelectorExpiresAt, htree₁, helems₁] at hselector'
      apply hselector'
    · obtain rfl := Option.some.inj hselector
      exact ⟨hlink₁, fun _ => ⟨hsym₁, fun hnot => absurd hnot hmpr⟩⟩

/-! ### Two-hop neighbours -/

/-- The timer of the two-hop neighbour `x` of `addr` expires at `t`. -/
def Neigh2ExpiresAt (ctx : OlsrContext) (t : Timespec) (addr x : InAddr) : Prop :=
  ∃ n2elem, ctx.searchNeigh2 addr x = some n2elem ∧ ctx.timerqueue.ExpiresAt t n2elem.expireTimer

/-- Entering a two-hop neighbour sets its timer, and keeps the others. -/
theorem updateNeigh2Tuple_expiresAt {ctx ctx' : OlsrContext} (h : ctx.timerqueue.Wf none)
    {addr n2addr : InAddr} {vtime : ℕ}
    (hstep : ctx.updateNeigh2Tuple addr n2addr vtime = some ctx') :
  ctx'.Neigh2ExpiresAt (validUntil ctx.clock vtime) addr n2addr ∧
    (∀ x, ctx.Neigh2ExpiresAt (validUntil ctx.clock vtime) addr x →
      ctx'.Neigh2ExpiresAt (validUntil ctx.clock vtime) addr x) ∧
    KeepsExpiry (validUntil ctx.clock vtime) ctx ctx' ∧ ctx'.selectorElems = ctx.selectorElems
  := by
  simp only [updateNeigh2Tuple, Option.bind_eq_bind, Option.bind_eq_some_iff] at hstep
  obtain ⟨neigh, hneigh, hstep⟩ := hstep
  cases hn2 : neigh.neighbor2Tree.search n2addr with
  | none =>
      simp only [hn2, Option.bind_eq_some_iff, Option.pure_def] at hstep
      obtain ⟨⟨timer, tq⟩, hstart, hstep⟩ := hstep
      obtain rfl := Option.some.inj hstep
      have hsets := TimerqueueContext.startTimer_setsExpiry h hstart
      have hsearch := searchNeigh2_insert hneigh hn2 tq (ctx.nextId + 1) ⟨ctx.nextId, addr, timer⟩
      refine ⟨⟨_, (hsearch _ _).trans (if_pos ⟨rfl, rfl⟩), hsets.set⟩, ?_,
        ⟨fun _ _ => rfl, rfl, rfl, hsets.kept⟩, rfl⟩
      rintro x ⟨n2elem, hx, hexpires⟩
      by_cases hxn : x = n2addr
      · subst hxn
        exact ⟨_, (hsearch _ _).trans (if_pos ⟨rfl, rfl⟩), hsets.set⟩
      · refine ⟨n2elem, (hsearch _ _).trans ?_, hsets.kept _ hexpires⟩
        rw [if_neg (fun hkey => hxn hkey.2), hx]
  | some n2elem =>
      simp only [hn2, Option.bind_eq_some_iff, Option.pure_def] at hstep
      obtain ⟨tq, hrestart, hstep⟩ := hstep
      obtain rfl := Option.some.inj hstep
      have hsets := TimerqueueContext.restartTimer_setsExpiry hrestart
      have hsearch : ctx.searchNeigh2 addr n2addr = some n2elem := by
        simp [searchNeigh2, hneigh, hn2]
      refine ⟨⟨n2elem, hsearch, hsets.set⟩, ?_, ⟨fun _ _ => rfl, rfl, rfl, hsets.kept⟩, rfl⟩
      rintro x ⟨n2elem', hx, hexpires⟩
      exact ⟨n2elem', hx, hsets.kept _ hexpires⟩

/-- The loop of `populate_neigh2set` sets the timers of the two-hop neighbours in the list, and
keeps those that are set. -/
theorem foldlM_updateNeigh2Tuple_expiresAt {t : Timespec} {vtime : ℕ} {addr ownIp : InAddr}
    {l : List InAddr} {ctx ctx' : OlsrContext} (h : ctx.Backed) (haddr : addr ∈ ctx.neighborTree)
    (ht : t = validUntil ctx.clock vtime) (hown : ownIp = ctx.ownIp)
    (hstep : l.foldlM (fun ctx n2addr =>
      if n2addr = ctx.ownIp then some ctx else ctx.updateNeigh2Tuple addr n2addr vtime) ctx
      = some ctx') :
  (∀ x, x ∈ l ∧ x ≠ ownIp ∨ ctx.Neigh2ExpiresAt t addr x → ctx'.Neigh2ExpiresAt t addr x) ∧
    KeepsExpiry t ctx ctx' ∧ ctx'.selectorElems = ctx.selectorElems
  := by
  induction l generalizing ctx with
  | nil =>
      obtain rfl := Option.some.inj hstep
      refine ⟨?_, ⟨fun _ _ => rfl, rfl, rfl, fun _ hq => hq⟩, rfl⟩
      rintro x (⟨hx, -⟩ | hx)
      · contradiction
      · apply hx
  | cons n2addr l ih =>
      rw [List.foldlM_cons] at hstep
      obtain ⟨ctx₁, hone, hrest⟩ := Option.bind_eq_some_iff.mp hstep
      split_ifs at hone with hskip
      · obtain rfl := Option.some.inj hone
        obtain ⟨hlisted, hkeeps⟩ := ih h haddr ht hown hrest
        refine ⟨?_, hkeeps⟩
        rintro x (⟨hx, hne⟩ | hx)
        · apply hlisted x
          left
          refine ⟨(List.mem_cons.mp hx).resolve_left ?_, hne⟩
          rintro rfl
          apply hne
          rw [hown, hskip]
        · apply hlisted x (Or.inr hx)
      · obtain ⟨ctx₂, hctx₂, hchange⟩ := h.updateNeigh2Tuple haddr n2addr vtime False
        obtain rfl := Option.some.inj (hone.symm.trans hctx₂)
        obtain ⟨neigh, tree, -, hneigh2, -⟩ := updateNeigh2Tuple_inv hone
        obtain ⟨tq, nextId, heq⟩ := hneigh2.eq
        have haddr₁ : addr ∈ ctx₁.neighborTree := by
          rw [heq]
          apply OrdMap.mem_modify.mpr haddr
        obtain ⟨hset, hkept, hkeeps, helems⟩ := updateNeigh2Tuple_expiresAt h.wf hone
        rw [← ht] at hset hkept hkeeps
        obtain ⟨hlisted, hkeeps', helems'⟩ := ih (h.change hchange) haddr₁
          (by rw [hkeeps.clock, ht]) (by rw [hkeeps.ownIp, hown]) hrest
        refine ⟨?_, hkeeps.trans hkeeps', helems'.trans helems⟩
        rintro x (⟨hx, hne⟩ | hx)
        · rcases List.mem_cons.mp hx with rfl | hx
          · apply hlisted x (Or.inr hset)
          · apply hlisted x (Or.inl ⟨hx, hne⟩)
        · apply hlisted x (Or.inr (hkept x hx))

/-! ### Messages -/

/-- The timers that a HELLO of `src`, which has led from `ctx` to `ctx'`, has armed for its validity
time: the timers `expire_timer` and `asym_timer` of the link, and the timer `sym_timer` if the
sender hears this node; the timer of the MPR selector, entered before or made by the HELLO, if this
node is a relay of the sender; and the timers of the two-hop neighbours listed, if the sender is
symmetric. -/
inductive HelloTimer (ctx ctx' : OlsrContext) (src : InAddr) (helloInfo : List HelloInfo) :
    ℕ → Prop
  | expire {link : LinkElem} {p : ℕ} : ctx'.searchLink ctx.ownIp src = some link →
      link.expireTimer = some p → HelloTimer ctx ctx' src helloInfo p
  | asym {link : LinkElem} {p : ℕ} : ctx'.searchLink ctx.ownIp src = some link →
      link.asymTimer = some p → HelloTimer ctx ctx' src helloInfo p
  | sym {link : LinkElem} {p : ℕ} : linkcodeToMe ctx.ownIp helloInfo ≠ statusUnavailable →
      extractLink (linkcodeToMe ctx.ownIp helloInfo) = LinkStatus.symLink.code ∨
        extractLink (linkcodeToMe ctx.ownIp helloInfo) = LinkStatus.asymLink.code →
      ctx'.searchLink ctx.ownIp src = some link → link.symTimer = some p →
      HelloTimer ctx ctx' src helloInfo p
  | selector {id : ℕ} {selem : MprSelectorElem} :
      linkcodeToMe ctx.ownIp helloInfo ≠ statusUnavailable →
      extractStatus (linkcodeToMe ctx.ownIp helloInfo) = NeighborStatus.mprNeigh.code →
      ctx.selectorTree.search src = some id ∨ id ∉ ctx.selectorElems →
      ctx'.selectorElems.search id = some selem →
      HelloTimer ctx ctx' src helloInfo selem.expireTimer
  | neigh2 {x : InAddr} {n2elem : Neighbor2Elem} :
      x ∈ helloInfo.flatMap HelloInfo.neighAddr → x ≠ ctx.ownIp →
      IsSymNeigh ctx'.neighborTree src → ctx'.searchNeigh2 src x = some n2elem →
      HelloTimer ctx ctx' src helloInfo n2elem.expireTimer

/-- The timer that a TC of `orig`, which has led from `ctx` to `ctx'`, has armed for its validity
time: that of the topology entry it has made. -/
inductive TcTimer (ctx ctx' : OlsrContext) (orig : InAddr) : ℕ → Prop
  | topology {telem : TopologyInfoElem} : orig ∉ ctx.topologyTree →
      ctx'.topologyTree.search orig = some telem → TcTimer ctx ctx' orig telem.expireTimer

/-- The link and the link code of a HELLO set the timers of the link and of the MPR selector. -/
theorem HelloStages.link_expiresAt {ctx ctx₁ ctx₂ ctx₃ ctx₄ ctx' : OlsrContext}
    {src orig : InAddr} {hello : HelloMsg} {vtime : ℕ}
    (h : HelloStages ctx ctx₁ ctx₂ ctx₃ ctx₄ ctx' src orig hello vtime) :
  ctx₂.LinkExpiresAt (validUntil ctx.clock vtime) src ∧
    (linkcodeToMe ctx.ownIp hello.helloInfo ≠ statusUnavailable →
      (extractLink (linkcodeToMe ctx.ownIp hello.helloInfo) = LinkStatus.symLink.code ∨
        extractLink (linkcodeToMe ctx.ownIp hello.helloInfo) = LinkStatus.asymLink.code →
        ctx₂.SymExpiresAt (validUntil ctx.clock vtime) src) ∧
      (extractStatus (linkcodeToMe ctx.ownIp hello.helloInfo) = NeighborStatus.mprNeigh.code →
        ctx.SelectorExpiresAt ctx₂ (validUntil ctx.clock vtime) src))
  := by
  have hdup₁ : NotDuplicated ctx₁.topologyTree := by
    rw [h.local₁.topologyTree]
    apply h.notDuplicated
  have hiface₀ : (ctx.findNeighbor src hello.willingness).ownIp ∈
      (ctx.findNeighbor src hello.willingness).localIfaceTree := OrdMap.mem_insert.mpr (Or.inl rfl)
  obtain ⟨hlink₁, helems₁, htree₁⟩ := touchLink_expiresAt h.backed₀ hiface₀ h.touch
  have hclock₁ : ctx₁.clock = ctx.clock := h.local₁.clock
  have hown₁ : ctx₁.ownIp = ctx.ownIp := h.local₁.ownIp
  obtain ⟨link₁, -, -, hsearch₁, -⟩ := id hlink₁
  have hsrc₁ := h.consistent₁.neighbor _ _ link₁ hsearch₁
  obtain ⟨hlink₂, hcode₂⟩ := populateLinkset_expiresAt h.backed₁ hdup₁ hsrc₁
    (by rw [hclock₁]; apply hlink₁) h.linkset
  simp only [hclock₁, hown₁, SelectorExpiresAt, htree₁, helems₁] at hlink₂ hcode₂
  exact ⟨hlink₂, hcode₂⟩

/-- The rest of the handler sets the timers of the two-hop neighbours, and keeps what has been
set. -/
theorem HelloStages.keepsExpiry {ctx ctx₁ ctx₂ ctx₃ ctx₄ ctx' : OlsrContext}
    {src orig : InAddr} {hello : HelloMsg} {vtime : ℕ}
    (h : HelloStages ctx ctx₁ ctx₂ ctx₃ ctx₄ ctx' src orig hello vtime) :
  KeepsExpiry (validUntil ctx.clock vtime) ctx₂ ctx' ∧ ctx'.selectorElems = ctx₂.selectorElems ∧
    (IsSymNeigh ctx'.neighborTree src →
      ∀ x ∈ hello.helloInfo.flatMap HelloInfo.neighAddr, x ≠ ctx.ownIp →
        ctx'.Neigh2ExpiresAt (validUntil ctx.clock vtime) src x)
  := by
  have hdup₂ : NotDuplicated ctx₂.topologyTree := by
    rw [h.local₂.topologyTree, h.local₁.topologyTree]
    apply h.notDuplicated
  have hsame₃ := updateNeighborStatus_same h.status hdup₂
  have hkeeps₃ : KeepsExpiry (validUntil ctx.clock vtime) ctx₂ ctx₃ :=
    KeepsExpiry.of_same hsame₃ h.local₃
  have hclock₃ : ctx₃.clock = ctx.clock := by
    rw [h.local₃.clock, h.local₂.clock, h.local₁.clock]
  have hown₃ : ctx₃.ownIp = ctx.ownIp := by
    rw [h.local₃.ownIp, h.local₂.ownIp, h.local₁.ownIp]
  obtain ⟨link₃, -, -, hsearch₃, -⟩ := h.link_expiresAt.1.keeps hkeeps₃
  have hmpr : KeepsExpiry (validUntil ctx.clock vtime) ctx₄ ctx' :=
    KeepsExpiry.of_same h.mpr.same h.mpr.local
  by_cases hsym : IsSymNeigh ctx₃.neighborTree src
  · obtain ⟨hlisted, hkeeps₄, helems₄⟩ := foldlM_updateNeigh2Tuple_expiresAt h.backed₃
      (h.consistent₃.neighbor _ _ link₃ hsearch₃) (congrArg (validUntil · vtime) hclock₃.symm)
      hown₃.symm (h.neigh2 hsym)
    refine ⟨(hkeeps₃.trans hkeeps₄).trans hmpr, ?_, ?_⟩
    · rw [h.mpr.same.selectorElems, helems₄, hsame₃.selectorElems]
    · intro _ x hx hne
      obtain ⟨n2elem, hn2elem, hexpires⟩ := hlisted x (Or.inl ⟨hx, hne⟩)
      refine ⟨n2elem, ?_, hmpr.expiresAt _ hexpires⟩
      rw [h.mpr.searchNeigh2, hn2elem]
  · obtain rfl := h.skip hsym
    refine ⟨hkeeps₃.trans hmpr, ?_, ?_⟩
    · rw [h.mpr.same.selectorElems, hsame₃.selectorElems]
    · intro hsym'
      rw [h.mpr.isSymNeigh] at hsym'
      contradiction

/-- A HELLO that is handled arms timers, which expire when its validity time has passed. -/
theorem processOlsrHello_expiresAt {ctx ctx' : OlsrContext} (h : ctx.Backed) (hsound : ctx.Sound)
    {src orig : InAddr} {hello : HelloMsg} {vtime : ℕ}
    (hstep : ctx.processOlsrHello src orig hello vtime = some ctx') :
  (∃ p, HelloTimer ctx ctx' src hello.helloInfo p) ∧
    ∀ p, HelloTimer ctx ctx' src hello.helloInfo p →
      ctx'.timerqueue.ExpiresAt (validUntil ctx.clock vtime) p
  := by
  obtain ⟨ctx₁, ctx₂, ctx₃, ctx₄, hst⟩ := processOlsrHello_stages h hsound hstep
  obtain ⟨hlink₂, hcode₂⟩ := hst.link_expiresAt
  obtain ⟨hkeeps, helems, hneigh2⟩ := hst.keepsExpiry
  have hown : ctx'.ownIp = ctx.ownIp := by
    rw [hkeeps.ownIp, hst.local₂.ownIp, hst.local₁.ownIp]
  have hlink := hlink₂.keeps hkeeps
  rw [LinkExpiresAt, hown] at hlink
  obtain ⟨link', r, r', hsearch', hr, hr', hexpire', hasym'⟩ := hlink
  refine ⟨⟨r, .expire hsearch' hr⟩, ?_⟩
  intro p hp
  cases hp with
  | expire hlink htimer =>
      rw [hsearch', Option.some.injEq] at hlink
      rw [← hlink, hr, Option.some.injEq] at htimer
      rw [← htimer]
      apply hexpire'
  | asym hlink htimer =>
      rw [hsearch', Option.some.injEq] at hlink
      rw [← hlink, hr', Option.some.injEq] at htimer
      rw [← htimer]
      apply hasym'
  | sym hcode hstat hlink htimer =>
      obtain ⟨link, q, hsearch, hq, hexpires⟩ := ((hcode₂ hcode).1 hstat).keeps hkeeps
      rw [hown, hlink, Option.some.injEq] at hsearch
      rw [← hsearch, htimer, Option.some.injEq] at hq
      rw [hq]
      apply hexpires
  | selector hcode hstat hid hselem =>
      rw [helems] at hselem
      apply hkeeps.expiresAt
      apply (hcode₂ hcode).2 hstat _ _ hid hselem
  | neigh2 hx hne hsym hn2elem =>
      obtain ⟨n2elem', hsearch, hexpires⟩ := hneigh2 hsym _ hx hne
      rw [hn2elem, Option.some.injEq] at hsearch
      rw [hsearch]
      apply hexpires

/-- The timer of a new topology entry is set when the entry is made, and set again with the same
interval when the TC is taken over. -/
theorem newTopology_expiresAt {ctx ctx₁ ctx' : OlsrContext} (h : ctx.Backed) (hsound : ctx.Sound)
    {orig : InAddr} {tc : TcMsg} {vtime : ℕ} {telem₁ telem : TopologyInfoElem}
    (hnone : ctx.topologyTree.search orig = none)
    (hfind : ctx.findTopology orig tc.ansn vtime = some ctx₁)
    (htelem₁ : ctx₁.topologyTree.search orig = some telem₁)
    (haccept : (if tc.ansn < telem₁.seq then some ctx₁ else ctx₁.acceptTc orig telem₁ tc)
      = some ctx')
    (htelem : ctx'.topologyTree.search orig = some telem) :
  ctx'.timerqueue.ExpiresAt (validUntil ctx.clock vtime) telem.expireTimer
  := by
  obtain ⟨_, _, topo, hctx₁, hdup₁, -, -⟩ := findTopology_inv hfind htelem₁ hsound.notDuplicated
  have htopology : ctx₁.topologyTree = topo := by rw [hctx₁]
  simp only [findTopology, hnone, Option.bind_eq_bind, Option.bind_eq_some_iff,
    Option.pure_def] at hfind
  obtain ⟨⟨timer, tq⟩, hstart, hfind⟩ := hfind
  obtain rfl := Option.some.inj hfind
  obtain ⟨tq₁, htq₁, -, hsearch⟩ := TimerqueueContext.startTimer_search h.wf ctx.clock
    (.topologyInfoTimerExpireCb ⟨orig, ctx.nextId⟩) (vtimeInterval vtime) true
  rw [htq₁, Option.some.injEq, Prod.mk.injEq] at hstart
  obtain ⟨rfl, rfl⟩ := hstart
  have hnew : telem₁ = ⟨ctx.nextId, tc.ansn, .empty, ctx.timerqueue.nextPtr⟩ := by
    rw [OrdMap.search_insert, if_pos rfl, hnone, Option.getD_none, Option.some.injEq] at htelem₁
    apply htelem₁.symm
  rw [if_neg (by rw [hnew]; apply lt_irrefl)] at haccept
  obtain ⟨tq', table, info, stats, hreactivate, rfl⟩ :=
    acceptTc_eq haccept htelem₁ (by rw [htopology]; apply hdup₁)
  have htimer : telem.expireTimer = ctx.timerqueue.nextPtr := by
    rw [acceptedTopology, OrdMap.search_modify, if_pos rfl, htelem₁, Option.map_some,
      Option.some.injEq] at htelem
    rw [← htelem, hnew]
  rw [hnew] at hreactivate
  rw [htimer]
  have hself := hsearch ctx.timerqueue.nextPtr
  rw [if_pos rfl] at hself
  apply (TimerqueueContext.reactivateTimer_setsExpiry hself hreactivate).set

/-- A new topology entry expires when the validity time of the TC has passed. -/
theorem processOlsrTc_expiresAt {ctx ctx' : OlsrContext} (h : ctx.Backed) (hsound : ctx.Sound)
    {src orig : InAddr} {tc : TcMsg} {vtime : ℕ}
    (hstep : ctx.processOlsrTc tc src orig vtime = some ctx') {p : ℕ}
    (hp : TcTimer ctx ctx' orig p) :
  ctx'.timerqueue.ExpiresAt (validUntil ctx.clock vtime) p
  := by
  obtain ⟨hnew, htelem⟩ := hp
  have hnone : ctx.topologyTree.search orig = none := OrdMap.search_eq_none.mpr hnew
  rw [processOlsrTc] at hstep
  cases hneigh : ctx.neighborTree.search src with
  | none =>
      rw [hneigh] at hstep
      obtain rfl := Option.some.inj hstep
      exact absurd (OrdMap.mem_of_search htelem) hnew
  | some neigh =>
      simp only [hneigh] at hstep
      split_ifs at hstep
      · obtain ⟨ctx₁, hfind, hstep⟩ := Option.bind_eq_some_iff.mp hstep
        obtain ⟨telem₁, htelem₁, hstep⟩ := Option.bind_eq_some_iff.mp hstep
        apply newTopology_expiresAt h hsound hnone hfind htelem₁ hstep htelem
      · obtain rfl := Option.some.inj hstep
        exact absurd (OrdMap.mem_of_search htelem) hnew

/-- Validity times are honoured at the time `ctx.clock`: each timer that is armed for the validity
time of a HELLO or TC expires exactly when it has passed. -/
def HonoursValidity (ctx : OlsrContext) (vtime : BitVec 8) : Prop :=
  (∀ src orig hello ctx',
    ctx.processOlsrHello src orig hello (meToReltime vtime) = some ctx' →
    ∀ p, HelloTimer ctx ctx' src hello.helloInfo p →
      ∃ t : Timespec, ctx'.timerqueue.ExpiresAt t p ∧ t.IsAfter ctx.clock (meToReltime vtime)) ∧
  ∀ src orig tc ctx', ctx.processOlsrTc tc src orig (meToReltime vtime) = some ctx' →
    ∀ p, TcTimer ctx ctx' orig p →
      ∃ t : Timespec, ctx'.timerqueue.ExpiresAt t p ∧ t.IsAfter ctx.clock (meToReltime vtime)

/-- A node that honours a validity time can hold its microseconds in an `int`: a HELLO that lists
nobody sets the timers of the link to its sender. -/
theorem HonoursValidity.lt {ctx : OlsrContext} {vtime : BitVec 8}
    (hvalid : ctx.HonoursValidity vtime) (h : ctx.Backed) (hsound : ctx.Sound)
    (hclock : ctx.clock.Normalised) :
  meToReltime vtime * 1000 < 2 ^ 31
  := by
  let hello : HelloMsg := ⟨0, 0, []⟩
  have hnull : ¬ ctx.FollowsNull 0 hello.helloInfo := by
    rintro ⟨hcode, -⟩
    contradiction
  have hforeign : ¬ True → (0 : InAddr) = 0 ∧ ¬ ListsAsLost ctx.ownIp hello := by
    intro hnot
    contradiction
  obtain ⟨ctx', hstep, -⟩ := h.processOlsrHello hsound 0 0 hforeign hnull (meToReltime vtime)
  obtain ⟨⟨p, hp⟩, hexpires⟩ := processOlsrHello_expiresAt h hsound hstep
  obtain ⟨t, ht, hafter⟩ := hvalid.1 0 0 hello ctx' hstep p hp
  rw [← validUntil_isAfter_iff hclock (meToReltime_le vtime), ← ht.unique (hexpires p hp)]
  apply hafter

/-- Whatever the clock, a node honours a validity time if and only if its microseconds fit an
`int`. Every state a node reaches is backed and sound. -/
theorem honoursValidity_iff {ctx : OlsrContext} (h : ctx.Backed) (hsound : ctx.Sound)
    (hclock : ctx.clock.Normalised) (vtime : BitVec 8) :
  ctx.HonoursValidity vtime ↔ meToReltime vtime * 1000 < 2 ^ 31
  := by
  constructor
  · intro hvalid
    apply hvalid.lt h hsound hclock
  · intro hlt
    have hafter := (validUntil_isAfter_iff hclock (meToReltime_le vtime)).mpr hlt
    constructor
    · intro src orig hello ctx' hstep p hp
      exact ⟨_, (processOlsrHello_expiresAt h hsound hstep).2 p hp, hafter⟩
    · intro src orig tc ctx' hstep p hp
      exact ⟨_, processOlsrTc_expiresAt h hsound hstep hp, hafter⟩

/-- A node that has just started is backed and sound, and has the clock of its start. -/
theorem olsrStart_backed (ownIp : InAddr) (now : Timespec) :
  ∃ ctx, olsrStart ownIp now = some ctx ∧ ctx.Backed ∧ ctx.Sound ∧ ctx.clock = now
  := by
  obtain ⟨ctx, hctx, htimed⟩ := olsrStart_timed ownIp now
  refine ⟨ctx, hctx, htimed.backed, olsrStart_sound hctx, ?_⟩
  obtain ⟨tq, rfl⟩ := olsrStart_inv hctx
  rfl

/-- A node that starts 1000 s after the start of the clock honours the validity time of 6 s that the
code `0x86` stands for. -/
theorem honoursValidity_started :
  ∃ ctx : OlsrContext, olsrStart (nodeIp 1) ⟨1000, 0⟩ = some ctx ∧
    (ctx.HonoursValidity 0x86 ↔ meToReltime 0x86 * 1000 < 2 ^ 31)
  := by
  obtain ⟨ctx, hctx, hbacked, hsound, hclock⟩ := olsrStart_backed (nodeIp 1) ⟨1000, 0⟩
  have hnormalised : ctx.clock.Normalised := by
    rw [hclock]
    exact ⟨by decide, by decide⟩
  exact ⟨ctx, hctx, honoursValidity_iff hbacked hsound hnormalised 0x86⟩

/-- The timers for the validity time of 2176 s that the code `0x1F` stands for expire after more
than 500 years. -/
example :
  meToReltime 0x1F = 2176000 ∧
    validUntil ⟨1000, 0⟩ (meToReltime 0x1F) = ⟨18446742954, 742255616⟩
  := by decide

/-- Not every validity time is honoured. -/
theorem not_honoursValidity :
  ∃ ctx : OlsrContext, olsrStart (nodeIp 1) ⟨1000, 0⟩ = some ctx ∧ ctx.Backed ∧ ctx.Sound ∧
    ctx.clock.Normalised ∧ ¬ ctx.HonoursValidity 0x1F
  := by
  obtain ⟨ctx, hctx, hbacked, hsound, hclock⟩ := olsrStart_backed (nodeIp 1) ⟨1000, 0⟩
  have hnormalised : ctx.clock.Normalised := by
    rw [hclock]
    exact ⟨by decide, by decide⟩
  refine ⟨ctx, hctx, hbacked, hsound, hnormalised, ?_⟩
  intro hvalid
  have hlt := hvalid.lt hbacked hsound hnormalised
  have hge : ¬ meToReltime 0x1F * 1000 < 2 ^ 31 := by decide
  exact hge hlt

end OlsrContext
