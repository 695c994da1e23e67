import SyNetsim.Olsr.Changes

/-!
# Links and their timers

What a link keeps true of its three timers, whatever messages are received (`Held`): the timers
are distinct, and the link is symmetric exactly as long as its timer `sym_timer` is active.

All three timers are armed with `link_timer_expire`, so a link is removed when the first of them
expires. A step follows the link state machine (`LinkLaw`) exactly when no timer `sym_timer` or
`asym_timer` expires in it (`link_follows_timers`).
-/

namespace OlsrContext

/-! ### The timers of entries -/

/-- The three timers of a link are distinct, and the link, which `arg` points to, is symmetric as
long as the timer `sym_timer` is armed. -/
structure Follows (tq : TimerqueueContext Callback) (arg : Ptr (InAddr × InAddr))
    (link : LinkElem) : Prop where
  asym_ne : ∀ p, link.asymTimer = some p → link.expireTimer ≠ some p
  sym_ne : ∀ p, link.symTimer = some p → link.expireTimer ≠ some p ∧ link.asymTimer ≠ some p
  sym : link.status = .symLink ↔
    ∃ p, link.symTimer = some p ∧ tq.Armed (.linkTimerExpire arg) p

/-- Timers of entries are allocated and safe, timers armed with an expiry callback belong to
entries, and links follow their timers. The queue is well formed but for the timer `hole`. -/
structure Held (ctx : OlsrContext) (hole : Option ℕ) : Prop where
  wf : ctx.timerqueue.Wf hole
  safe : ∀ c p, ctx.Owns c p → ctx.timerqueue.Safe c p
  armed : ∀ c p, c.isExpiry = true → ctx.timerqueue.Armed c p → ctx.Owns c p
  expire : ∀ iface addr link, ctx.searchLink iface addr = some link →
    ∃ p, link.expireTimer = some p
  follows : ∀ iface addr link, ctx.searchLink iface addr = some link →
    Follows ctx.timerqueue ⟨(iface, addr), link.id⟩ link
  elems : ∀ id ∈ ctx.selectorElems, id < ctx.nextId
  tree : ∀ a id, ctx.selectorTree.search a = some id →
    ∃ selem, ctx.selectorElems.search id = some selem ∧ selem.selectorAddr = a

theorem Held.backed {ctx : OlsrContext} (h : ctx.Held none) :
  ctx.Backed
  where
  wf := h.wf
  has c p hp := (h.safe c p hp).has
  expire := h.expire
  elems := h.elems
  tree := h.tree

/-- A timer belongs to one entry. -/
theorem Held.owns_unique {ctx : OlsrContext} {hole : Option ℕ} (h : ctx.Held hole)
    {c d : Callback} {p : ℕ} (hc : ctx.Owns c p) (hd : ctx.Owns d p) :
  c = d
  := (h.safe c p hc).has.unique (h.safe d p hd).has

/-- A link follows its timers when they are armed as before. -/
theorem Follows.congr {tq tq' : TimerqueueContext Callback} {arg : Ptr (InAddr × InAddr)}
    {link : LinkElem} (h : Follows tq arg link)
    (harmed : ∀ p, link.symTimer = some p →
      (tq'.Armed (.linkTimerExpire arg) p ↔ tq.Armed (.linkTimerExpire arg) p)) :
  Follows tq' arg link
  where
  asym_ne := h.asym_ne
  sym_ne := h.sym_ne
  sym := by
    rw [h.sym]
    constructor
    · rintro ⟨p, hp, hp'⟩
      exact ⟨p, hp, (harmed p hp).mpr hp'⟩
    · rintro ⟨p, hp, hp'⟩
      exact ⟨p, hp, (harmed p hp).mp hp'⟩

/-- A change of the queue that leaves the timers of entries as they are, and arms no other timer
with an expiry callback. -/
theorem Held.setTq {ctx : OlsrContext} {hole hole' : Option ℕ} (h : ctx.Held hole)
    {tq : TimerqueueContext Callback} (hwf : tq.Wf hole')
    (hsafe : ∀ c p, ctx.Owns c p → tq.Safe c p)
    (harmed : ∀ c p, ctx.Owns c p → (tq.Armed c p ↔ ctx.timerqueue.Armed c p))
    (hother : ∀ c p, c.isExpiry = true → tq.Armed c p → ctx.timerqueue.Armed c p) :
  OlsrContext.Held { ctx with timerqueue := tq } hole'
  := by
  have howns : ∀ c p, OlsrContext.Owns { ctx with timerqueue := tq } c p ↔ ctx.Owns c p := by
    intro c p
    cases c <;> rfl
  constructor
  · apply hwf
  · intro c p hp
    apply hsafe c p ((howns c p).mp hp)
  · intro c p hc hp
    apply (howns c p).mpr (h.armed c p hc (hother c p hc hp))
  · apply h.expire
  · intro i a link hlink
    have hlink₀ : ctx.searchLink i a = some link := hlink
    apply (h.follows i a link hlink).congr
    intro p hp
    apply harmed _ p (owns_link hlink₀ (Or.inr (Or.inr hp)))
  · apply h.elems
  · apply h.tree

/-! ### Changes -/

/-- What is held is kept when entries and timers do not change. -/
theorem Held.same {ctx ctx' : OlsrContext} {hole : Option ℕ} (h : ctx.Held hole)
    (hsame : SameEntries ctx ctx') :
  ctx'.Held hole
  where
  wf := by
    rw [hsame.timerqueue]
    apply h.wf
  safe c p hp := by
    rw [hsame.timerqueue]
    apply h.safe c p ((hsame.owns c p).mp hp)
  armed c p hc hp := by
    rw [hsame.timerqueue] at hp
    rw [hsame.owns]
    apply h.armed c p hc hp
  expire i a link hlink := by
    rw [hsame.searchLink] at hlink
    apply h.expire i a link hlink
  follows i a link hlink := by
    rw [hsame.searchLink] at hlink
    rw [hsame.timerqueue]
    apply h.follows i a link hlink
  elems := by
    rw [hsame.selectorElems, hsame.nextId]
    apply h.elems
  tree := by
    rw [hsame.selectorElems, hsame.selectorTree]
    apply h.tree

/-- What is held is kept when a timer is started for the entry it belongs to, if links still follow
their timers. -/
theorem Held.starts {ctx ctx' : OlsrContext} (h : ctx.Held none) {c₀ : Callback} {p₀ : ℕ}
    (hs : Starts c₀ p₀ ctx ctx') (hbacked : ctx'.Backed)
    (hfollows : ∀ i a link, ctx'.searchLink i a = some link →
      Follows ctx'.timerqueue ⟨(i, a), link.id⟩ link) :
  ctx'.Held none
  where
  wf := hs.wf
  safe c p hp := by
    rcases (hs.owns c p).mp hp with hp | ⟨rfl, rfl⟩
    · apply hs.grows.safe c p (h.safe c p hp)
    · rcases hs.safe with hp | hp
      · apply hs.grows.safe c p (h.safe c p hp)
      · apply hp
  armed c p hc hp := by
    rw [hs.owns]
    rcases (hs.armed c p).mp hp with hp | hp
    · left
      apply h.armed c p hc hp
    · right
      apply hp
  expire := hbacked.expire
  follows := hfollows
  elems := hbacked.elems
  tree := hbacked.tree

/-- A link that the timer started does not belong to follows its timers as before. -/
theorem Follows.of_starts {ctx ctx' : OlsrContext} {c₀ : Callback} {p₀ : ℕ}
    {arg : Ptr (InAddr × InAddr)} {link : LinkElem} (h : Follows ctx.timerqueue arg link)
    (hs : Starts c₀ p₀ ctx ctx') (hne : c₀ ≠ .linkTimerExpire arg) :
  Follows ctx'.timerqueue arg link
  := by
  apply h.congr
  intro p _
  rw [hs.armed]
  constructor
  · rintro (hp | ⟨heq, -⟩)
    · apply hp
    · apply absurd heq.symm hne
  · intro hp
    left
    apply hp

/-- A timer that a link gets is not yet one of its timers. -/
theorem Held.fresh_ne {ctx : OlsrContext} {hole : Option ℕ} (h : ctx.Held hole) {i a : InAddr}
    {link : LinkElem} (hlink : ctx.searchLink i a = some link) {p : ℕ}
    (hp : p ∉ ctx.timerqueue.elems) :
  ¬ link.HasTimer p
  := by
  intro htimer
  obtain ⟨e, he, -⟩ := h.safe _ p (owns_link hlink htimer)
  apply hp (OrdMap.mem_of_search he)

/-- A link that has a timer set follows its timers. -/
theorem Held.setTimer_follows {ctx ctx' : OlsrContext} (h : ctx.Held none) {i a : InAddr}
    {link link' : LinkElem} {p : ℕ} (hlink : ctx.searchLink i a = some link)
    (hsets : SetsTimer (p ∉ ctx.timerqueue.elems) p link link')
    (hs : Starts (.linkTimerExpire ⟨(i, a), link.id⟩) p ctx ctx') :
  Follows ctx'.timerqueue ⟨(i, a), link'.id⟩ link'
  := by
  have hold := h.follows i a link hlink
  have hne : ∀ q, link.symTimer = some q → p ≠ q →
      (ctx'.timerqueue.Armed (.linkTimerExpire ⟨(i, a), link.id⟩) q ↔
        ctx.timerqueue.Armed (.linkTimerExpire ⟨(i, a), link.id⟩) q) := by
    intro q _ hpq
    rw [hs.armed]
    simp [Ne.symm hpq]
  cases hsets with
  | expire hexpire =>
      apply hold.congr
      intro q hq
      apply hne q hq
      rintro rfl
      apply (hold.sym_ne p hq).1 hexpire
  | asym hasym =>
      have hsym : ∀ q, link.symTimer = some q → p ≠ q := by
        rintro q hq rfl
        rcases hasym with hasym | ⟨-, hfresh⟩
        · apply (hold.sym_ne p hq).2 hasym
        · apply h.fresh_ne hlink hfresh (Or.inr (Or.inr hq))
      refine ⟨?_, ?_, ?_⟩
      · intro q hq hexpire
        rw [Option.some.injEq] at hq
        subst hq
        rcases hasym with hasym | ⟨-, hfresh⟩
        · apply hold.asym_ne p hasym hexpire
        · apply h.fresh_ne hlink hfresh (Or.inl hexpire)
      · intro q hq
        refine ⟨(hold.sym_ne q hq).1, ?_⟩
        intro heq
        apply hsym q hq (Option.some.inj heq)
      · have hsame := (hold.congr (fun q hq => hne q hq (hsym q hq))).sym
        rw [← hsame]
        dsimp only
        split_ifs with hstatus
        · simp [hstatus]
        · rfl
  | sym hsym =>
      refine ⟨hold.asym_ne, ?_, ?_⟩
      · intro q hq
        rw [Option.some.injEq] at hq
        subst hq
        rcases hsym with hsym | ⟨-, hfresh⟩
        · apply hold.sym_ne p hsym
        · constructor
          · intro hexpire
            apply h.fresh_ne hlink hfresh (Or.inl hexpire)
          · intro hasym
            apply h.fresh_ne hlink hfresh (Or.inr (Or.inl hasym))
      · constructor
        · intro _
          refine ⟨p, rfl, ?_⟩
          rw [hs.armed]
          right
          exact ⟨rfl, rfl⟩
        · intro _
          rfl

/-- What is held is kept by every change. -/
theorem Held.change {foreign : Prop} {ctx ctx' : OlsrContext} (h : ctx.Held none)
    (hchange : Change foreign ctx ctx') :
  ctx'.Held none
  := by
  have hbacked := h.backed.change hchange
  cases hchange with
  | same hsame => apply h.same hsame
  | start hc hs haside =>
      apply h.starts hs hbacked
      intro i a link hlink
      rw [haside.searchLink] at hlink
      apply (h.follows i a link hlink).of_starts hs (hc _)
  | @newLink i a p hnone _ hs hwrites =>
      apply h.starts hs hbacked
      intro x y link hlink
      rw [hwrites.searchLink] at hlink
      split_ifs at hlink with hkey
      · rw [← Option.some.inj hlink]
        constructor
        · intro q hq
          contradiction
        · intro q hq
          contradiction
        · simp
      · apply (h.follows x y link hlink).of_starts hs
        simp only [ne_eq, Callback.linkTimerExpire.injEq, Ptr.mk.injEq, Prod.mk.injEq]
        rintro ⟨⟨rfl, rfl⟩, -⟩
        apply hkey ⟨rfl, rfl⟩
  | @setTimer i a old link' p hold hsets hs hwrites =>
      apply h.starts hs hbacked
      intro x y link hlink
      rw [hwrites.searchLink] at hlink
      split_ifs at hlink with hkey
      · rw [← Option.some.inj hlink, hkey.1, hkey.2]
        apply h.setTimer_follows hold hsets hs
      · apply (h.follows x y link hlink).of_starts hs
        simp only [ne_eq, Callback.linkTimerExpire.injEq, Ptr.mk.injEq, Prod.mk.injEq]
        rintro ⟨⟨rfl, rfl⟩, -⟩
        apply hkey ⟨rfl, rfl⟩
  | @stopSym i a old status p _ hold hsym hstatus hs hwrites =>
      have hp : ctx.Owns (.linkTimerExpire ⟨(i, a), old.id⟩) p :=
        owns_link hold (Or.inr (Or.inr hsym))
      refine ⟨hs.wf, ?_, ?_, hbacked.expire, ?_, hbacked.elems, hbacked.tree⟩
      · intro c q hq
        apply hs.grows.safe c q (h.safe c q ((hs.owns c q).mp hq))
      · intro c q hc hq
        rw [hs.owns]
        apply h.armed c q hc ((hs.armed c q).mp hq).2
      · intro x y link hlink
        rw [hwrites.searchLink] at hlink
        split_ifs at hlink with hkey
        · obtain rfl := Option.some.inj hlink
          have hfollows := h.follows i a old hold
          refine ⟨hfollows.asym_ne, hfollows.sym_ne, ?_⟩
          constructor
          · intro heq
            apply absurd heq hstatus
          · rintro ⟨q, hq, harmed⟩
            rw [hsym, Option.some.injEq] at hq
            apply absurd hq.symm ((hs.armed _ q).mp harmed).1
        · apply (h.follows x y link hlink).congr
          intro q hq
          rw [hs.armed]
          have hne : q ≠ p := by
            rintro rfl
            have heq := h.owns_unique hp (owns_link hlink (Or.inr (Or.inr hq)))
            simp only [Callback.linkTimerExpire.injEq, Ptr.mk.injEq, Prod.mk.injEq] at heq
            apply hkey ⟨heq.1.1.symm, heq.1.2.symm⟩
          simp [hne]
  | selector _ hs hlink =>
      apply h.starts hs hbacked
      intro i a link hl
      rw [hlink] at hl
      apply (h.follows i a link hl).of_starts hs
      intro heq
      contradiction

theorem Held.changes {foreign : Prop} {ctx ctx' : OlsrContext} (h : ctx.Held none)
    (hchanges : Changes foreign ctx ctx') :
  ctx'.Held none
  := by
  induction hchanges with
  | refl => apply h
  | tail _ hchange ih => apply ih.change hchange

/-- What is held is kept when an entry is removed with its timers. -/
theorem Held.removes {ctx ctx' : OlsrContext} {hole : Option ℕ} (h : ctx.Held hole)
    {c₀ : Callback} (hr : Removes c₀ ctx ctx') :
  ctx'.Held hole
  := by
  have hother : ∀ c p, c ≠ c₀ → ctx.Owns c p → ¬ ctx.Owns c₀ p := by
    intro c p hne hp hp₀
    apply hne (h.owns_unique hp hp₀)
  constructor
  · apply hr.drops.wf hole h.wf
  · intro c p hp
    obtain ⟨hne, hp⟩ := (hr.owns c p).mp hp
    apply hr.drops.safe c p (hother c p hne hp) (h.safe c p hp)
  · intro c p hc hp
    obtain ⟨hp₀, hp⟩ := (hr.drops.armed c p).mp hp
    rw [hr.owns]
    refine ⟨?_, h.armed c p hc hp⟩
    rintro rfl
    apply hp₀ (h.armed c p hc hp)
  · intro i a link hlink
    apply h.expire i a link ((hr.searchLink i a link).mp hlink).1
  · intro i a link hlink
    obtain ⟨hlink, hne⟩ := (hr.searchLink i a link).mp hlink
    apply (h.follows i a link hlink).congr
    intro p hp
    rw [hr.drops.armed]
    have hp₀ := hother _ p hne.symm (owns_link hlink (Or.inr (Or.inr hp)))
    simp [hp₀]
  · intro id hid
    obtain ⟨selem, hselem⟩ := OrdMap.mem_iff.mp hid
    rw [hr.nextId]
    apply h.elems id (OrdMap.mem_of_search ((hr.elems id selem).mp hselem).1)
  · intro a id hid
    obtain ⟨hsearch, hne⟩ := (hr.tree a id).mp hid
    obtain ⟨selem, hselem, haddr⟩ := h.tree a id hsearch
    refine ⟨selem, (hr.elems id selem).mpr ⟨hselem, ?_⟩, haddr⟩
    intro heq
    apply hne id selem heq hselem haddr

/-! ### Steps -/

/-- After the round that fires a timer which belongs to no entry then. -/
theorem Held.fired {ctx : OlsrContext} {p : ℕ} (h : ctx.Held (some p))
    (hp : ∀ c, ¬ ctx.Owns c p) {tq : TimerqueueContext Callback} (hwf : tq.Wf none)
    (hself : ∀ c, tq.Armed c p → ctx.timerqueue.Armed c p)
    (hother : ∀ c q, q ≠ p → (tq.Armed c q ↔ ctx.timerqueue.Armed c q))
    (hsearch : ∀ q, q ≠ p → tq.elems.search q = ctx.timerqueue.elems.search q) :
  OlsrContext.Held { ctx with timerqueue := tq } none
  := by
  have hne : ∀ c q, ctx.Owns c q → q ≠ p := by
    rintro c q hq rfl
    apply hp c hq
  apply h.setTq hwf
  · intro c q hq
    obtain ⟨e, he, hsafe⟩ := h.safe c q hq
    exact ⟨e, (hsearch q (hne c q hq)).trans he, hsafe⟩
  · intro c q hq
    apply hother c q (hne c q hq)
  · intro c q _ hq
    by_cases heq : q = p
    · subst heq
      apply hself c hq
    · apply (hother c q heq).mp hq

/-- The callback of the timer that is being fired leaves the timer to no entry. It is no expiry
callback and leaves links as they are, or it removes the entry the timer belongs to. -/
theorem Held.runFiring {ctx ctx' : OlsrContext} {c : Callback} {p : ℕ} (h : ctx.Held (some p))
    (hsound : ctx.Sound) (harmed : ctx.timerqueue.Armed c p)
    (hrun : runCallback c ctx = some ctx') :
  ctx'.Held (some p) ∧ ctx'.timerqueue.Attached p ∧ (∀ d, ¬ ctx'.Owns d p) ∧
    ((∀ d, ¬ ctx.Owns d p) ∧ (∀ i a, ctx'.searchLink i a = ctx.searchLink i a) ∨
      ctx.Owns c p ∧ ∀ i a link, ctx'.searchLink i a = some link ↔
        ctx.searchLink i a = some link ∧ c ≠ .linkTimerExpire ⟨(i, a), link.id⟩)
  := by
  cases hexpiry : c.isExpiry with
  | false =>
      obtain ⟨ctx'', hrun', hsame⟩ := runPeriodic_same ctx hexpiry
      obtain rfl := Option.some.inj (hrun.symm.trans hrun')
      have hnot : ∀ d, ¬ ctx.Owns d p := by
        intro d hd
        obtain rfl := (h.safe d p hd).has.unique harmed.has
        cases d <;> contradiction
      refine ⟨h.same hsame, ?_, ?_, Or.inl ⟨hnot, hsame.searchLink⟩⟩
      · rw [hsame.timerqueue]
        apply harmed.attached
      · intro d hd
        apply hnot d ((hsame.owns d p).mp hd)
  | true =>
      have hr := runExpiry_removes hsound hexpiry hrun
      have howns : ctx.Owns c p := h.armed c p hexpiry harmed
      refine ⟨h.removes hr, hr.drops.attached _ harmed.attached, ?_, Or.inr ⟨howns, hr.searchLink⟩⟩
      intro d hd
      obtain ⟨hne, hd'⟩ := (hr.owns d p).mp hd
      apply hne (h.owns_unique hd' howns)

/-- A round of the timer queue runs no expiry callback and leaves links as they are, or it runs the
callback of a timer, which removes the entry the timer belongs to. -/
theorem Held.workRound {ctx ctx' : OlsrContext} (h : ctx.Held none) (hsound : ctx.Sound)
    {currtime : Timespec} {rand : ℕ} (hstep : client.workRound currtime rand ctx = some ctx') :
  ctx'.Held none ∧
    ((∀ p, ctx.timerqueue.Fires currtime p → ∀ c, ¬ ctx.Owns c p) ∧
      (∀ i a, ctx'.searchLink i a = ctx.searchLink i a) ∨
    ∃ p c, ctx.timerqueue.Fires currtime p ∧ ctx.Owns c p ∧
      ∀ i a link, ctx'.searchLink i a = some link ↔
        ctx.searchLink i a = some link ∧ c ≠ .linkTimerExpire ⟨(i, a), link.id⟩)
  := by
  rcases h.wf.firstDue_cases currtime with hdue |
    ⟨k, e, hdue, hk, he, hattached, -, hwf₁, hactive | ⟨hactive, c, hc, harmed⟩⟩
  · rw [client.workRound_idle hdue rand] at hstep
    obtain rfl := Option.some.inj hstep
    refine ⟨h, Or.inl ⟨?_, fun _ _ => rfl⟩⟩
    rintro p ⟨k, elem, hk, -⟩
    rw [hdue] at hk
    contradiction
  · have hfire : client.fire rand k ctx = some ctx' :=
      (client.workRound_due hdue rand).symm.trans hstep
    obtain ⟨q', hfire', hwf, harmed⟩ := client.fire_inactive h.wf hk he hactive rand
    obtain rfl := Option.some.inj (hfire'.symm.trans hfire)
    refine ⟨?_, Or.inl ⟨?_, fun _ _ => rfl⟩⟩
    · apply h.setTq hwf
      · intro c p hp
        apply client.fire_inactive_safe hfire he hactive (h.safe c p hp)
      · intro c p _
        apply harmed c p
      · intro c p _ hp
        apply (harmed c p).mp hp
    · rintro p ⟨k', elem, hk', rfl, helem, hactive'⟩
      rw [hdue, Option.some.injEq] at hk'
      rw [← hk', he, Option.some.injEq] at helem
      rw [← helem, hactive] at hactive'
      contradiction
  · have hfire : client.fire rand k ctx = some ctx' :=
      (client.workRound_due hdue rand).symm.trans hstep
    have h₁ : Held { ctx with timerqueue.rbt := ctx.timerqueue.rbt.erase k } (some k.ptr) :=
      h.setTq hwf₁ h.safe (fun _ _ _ => Iff.rfl) (fun _ _ _ hp => hp)
    -- The callback that runs is the one of the timer.
    obtain ⟨ctx₂, hrun⟩ : ∃ ctx₂, runCallback c
        { ctx with timerqueue.rbt := ctx.timerqueue.rbt.erase k } = some ctx₂ := by
      rcases client.fire_inv hfire with ⟨e', -, he', hactive', -⟩ |
        ⟨e', c', ctx₂, -, he', -, hc', hrun, -⟩
      · obtain rfl := Option.some.inj (he.symm.trans he')
        rw [hactive] at hactive'
        contradiction
      · obtain rfl := Option.some.inj (he.symm.trans he')
        obtain rfl := Option.some.inj (hc.symm.trans hc')
        exact ⟨ctx₂, hrun⟩
    obtain ⟨h₂, hattached₂, hnot, hcase⟩ := h₁.runFiring (hsound.quiet Quiet.of_eq) harmed hrun
    obtain ⟨q', hfire', hwf', hself, hother⟩ := client.fire_active he hactive hc hrun
      h₂.wf hattached₂ rand
    obtain rfl := Option.some.inj (hfire'.symm.trans hfire)
    refine ⟨?_, ?_⟩
    · apply h₂.fired hnot hwf' hself hother
      intro q hq
      apply client.fire_search hfire he hactive hc hrun hq
    · rcases hcase with ⟨hnot₁, hlinks⟩ | ⟨howns, hlinks⟩
      · left
        refine ⟨?_, hlinks⟩
        rintro p ⟨k', elem, hk', rfl, -⟩ d hd
        rw [hdue, Option.some.injEq] at hk'
        subst hk'
        apply hnot₁ d
        cases d <;> apply hd
      · right
        refine ⟨k.ptr, c, ⟨k, e, hdue, rfl, he, hactive⟩, ?_, hlinks⟩
        cases c <;> apply howns

/-- In the event `e` the timer `p` expires. -/
def Expires (ctx : OlsrContext) (e : NodeEvent) (p : ℕ) : Prop :=
  ∃ now currtime rand, e = .work now currtime rand ∧ ctx.timerqueue.Fires currtime p

theorem Expires.unique {ctx : OlsrContext} {e : NodeEvent} {p q : ℕ} (h : ctx.Expires e p)
    (h' : ctx.Expires e q) :
  p = q
  := by
  obtain ⟨now, currtime, rand, rfl, hfires⟩ := h
  obtain ⟨now', currtime', rand', ⟨rfl⟩, hfires'⟩ := h'
  apply hfires.unique hfires'

/-- A received message removes no link. -/
theorem Held.recv {ctx ctx' : OlsrContext} (h : ctx.Held none) (hsound : ctx.Sound)
    {now : Timespec} {src : InAddr} {msg : OlsrMsg}
    (hstep : nodeStep ctx (.recv now src msg) = some ctx') :
  ctx'.Held none ∧ ∀ i a link, ctx.searchLink i a = some link →
    ∃ link', ctx'.searchLink i a = some link' ∧ link'.id = link.id
  := by
  let ctx₀ : OlsrContext := { ctx with clock := now }
  have h₀ : ctx₀.Held none := h.same SameEntries.of_eq
  have hsound₀ : ctx₀.Sound := hsound.quiet Quiet.of_eq
  have hnull := (h₀.backed.handleOlsrMsg_iff hsound₀ msg src).mp ⟨ctx', hstep⟩
  have hforeign : ¬ True → ∀ hello, msg.payload = .hello hello →
      src = msg.originator ∧ ¬ ListsAsLost ctx₀.ownIp hello := by
    intro hnot
    contradiction
  obtain ⟨ctx'', hctx'', hchanges⟩ := h₀.backed.handleOlsrMsg hsound₀ hforeign hnull
  obtain rfl := Option.some.inj (hctx''.symm.trans hstep)
  refine ⟨h₀.changes hchanges, ?_⟩
  intro i a link hlink
  have hlink₀ : ctx₀.searchLink i a = some link := hlink
  apply hchanges.link_stays hlink₀

/-- Every step keeps what is held, and removes a link only when one of the timers of the link
expires. -/
theorem Held.step {ctx ctx' : OlsrContext} (h : ctx.Held none) (hsound : ctx.Sound)
    {e : NodeEvent} (hstep : nodeStep ctx e = some ctx') :
  ctx'.Held none ∧ ∀ i a link, ctx.searchLink i a = some link →
    ((∀ link', ctx'.searchLink i a = some link' → link'.id ≠ link.id) ↔
      ∃ p, link.HasTimer p ∧ ctx.Expires e p)
  := by
  cases e with
  | recv now src msg =>
      obtain ⟨h', hstays⟩ := h.recv hsound hstep
      refine ⟨h', ?_⟩
      intro i a link hlink
      constructor
      · intro hgone
        obtain ⟨link', hlink', hid⟩ := hstays i a link hlink
        apply absurd hid (hgone link' hlink')
      · rintro ⟨p, -, now', currtime, rand, heq, -⟩
        contradiction
  | work now currtime rand =>
      let ctx₀ : OlsrContext := { ctx with clock := now }
      have h₀ : ctx₀.Held none := h.same SameEntries.of_eq
      have hsound₀ : ctx₀.Sound := hsound.quiet Quiet.of_eq
      obtain ⟨h', hround⟩ := h₀.workRound hsound₀ hstep
      refine ⟨h', ?_⟩
      intro i a link hlink
      have hlink₀ : ctx₀.searchLink i a = some link := hlink
      rcases hround with ⟨hnone, hsame⟩ | ⟨p, c, hfires, howns, hremoved⟩
      · constructor
        · intro hgone
          apply absurd rfl (hgone link ((hsame i a).trans hlink₀))
        · rintro ⟨p, hp, now', currtime', rand', ⟨rfl⟩, hfires⟩
          apply absurd (owns_link hlink₀ hp) (hnone p hfires _)
      · constructor
        · intro hgone
          have heq : c = .linkTimerExpire ⟨(i, a), link.id⟩ := by
            by_contra hne
            apply absurd rfl (hgone link ((hremoved i a link).mpr ⟨hlink₀, hne⟩))
          subst heq
          obtain ⟨link', hfollow, hp⟩ := howns
          obtain ⟨hlink', -⟩ := followLink_eq_some.mp hfollow
          obtain rfl := Option.some.inj (hlink₀.symm.trans hlink')
          exact ⟨p, hp, now, currtime, rand, rfl, hfires⟩
        · rintro ⟨q, hq, now', currtime', rand', ⟨rfl⟩, hfires'⟩ link' hlink' hid
          obtain rfl := hfires.unique hfires'
          have heq := h₀.owns_unique howns (owns_link hlink₀ hq)
          obtain ⟨-, hne⟩ := (hremoved i a link').mp hlink'
          apply hne
          rw [heq, hid]

/-! ### Runs -/

theorem Held.startPeriodicTimer {ctx ctx' : OlsrContext} (h : ctx.Held none) {c : Callback}
    (hc : c.isExpiry = false) {intervalUs maxJitter : ℤ}
    (hstep : ctx.startPeriodicTimer c intervalUs maxJitter = some ctx') :
  ctx'.Held none
  := by
  obtain ⟨tq, htq, hwf, hsearch⟩ := TimerqueueContext.startTimer_search h.wf ctx.clock c intervalUs
    false
  simp only [OlsrContext.startPeriodicTimer, htq, Option.bind_eq_bind, Option.bind_some,
    Option.pure_def, Option.some.injEq] at hstep
  obtain rfl := hstep
  have hfresh : ctx.timerqueue.elems.search ctx.timerqueue.nextPtr = none :=
    (TimerqueueContext.newTimer_spec h.wf).1
  have hnew := (hsearch ctx.timerqueue.nextPtr).trans (if_pos rfl)
  have hold : ∀ p, p ≠ ctx.timerqueue.nextPtr →
      (tq.update ctx.timerqueue.nextPtr fun e => { e with maxJitter := maxJitter }).elems.search p =
        ctx.timerqueue.elems.search p := by
    intro p hp
    rw [TimerqueueContext.search_update, if_neg hp, hsearch, if_neg hp]
  have howned : ∀ d p, ctx.Owns d p → p ≠ ctx.timerqueue.nextPtr := by
    rintro d p hp rfl
    obtain ⟨e, he, -⟩ := h.safe d _ hp
    rw [hfresh] at he
    contradiction
  have hsame : ∀ d p, p ≠ ctx.timerqueue.nextPtr →
      ((tq.update ctx.timerqueue.nextPtr fun e => { e with maxJitter := maxJitter }).Armed d p ↔
        ctx.timerqueue.Armed d p) := by
    intro d p hp
    simp only [TimerqueueContext.Armed, hold p hp]
  apply h.setTq
  · apply hwf.update hnew _ (Or.inr ⟨rfl, rfl⟩)
    apply hwf.callback _ _ hnew
  · intro d p hp
    obtain ⟨e, he, hsafe⟩ := h.safe d p hp
    exact ⟨e, (hold p (howned d p hp)).trans he, hsafe⟩
  · intro d p hp
    apply hsame d p (howned d p hp)
  · intro d p hd hp
    by_cases heq : p = ctx.timerqueue.nextPtr
    · subst heq
      rw [TimerqueueContext.armed_update hnew, if_pos rfl] at hp
      rw [← Option.some.inj hp.2.2, hc] at hd
      contradiction
    · apply (hsame d p heq).mp hp

/-- A node that has just been created has no entries. -/
theorem initOlsrContext_owns (ownIp : InAddr) (now : Timespec) (c : Callback) (p : ℕ) :
  ¬ (initOlsrContext ownIp now).Owns c p
  := by
  intro howns
  cases c with
  | linkTimerExpire arg =>
      obtain ⟨link, hlink, -⟩ := howns
      contradiction
  | neigh2ElemExpire arg =>
      obtain ⟨n2elem, hn2elem, -⟩ := howns
      contradiction
  | topologyInfoTimerExpireCb arg =>
      obtain ⟨telem, htelem, -⟩ := howns
      contradiction
  | expireDupEntryCb arg =>
      obtain ⟨delem, hdelem, -⟩ := howns
      contradiction
  | mprSelectorExpire arg =>
      obtain ⟨selem, hselem, -⟩ := howns
      contradiction
  | _ => contradiction

theorem initOlsrContext_held (ownIp : InAddr) (now : Timespec) :
  (initOlsrContext ownIp now).Held none
  := by
  constructor
  · apply TimerqueueContext.createTimerqueue_wf
  · intro c p howns
    apply absurd howns (initOlsrContext_owns ownIp now c p)
  · rintro c p - ⟨e, he, -⟩
    simp [initOlsrContext, createTimerqueue] at he
  · intro i a link hlink
    contradiction
  · intro i a link hlink
    contradiction
  · intro id hid
    apply absurd hid (OrdMap.not_mem_empty id)
  · intro a id hid
    contradiction

/-- What is held when a node starts. -/
theorem olsrStart_held {ownIp : InAddr} {now : Timespec} {ctx : OlsrContext}
    (hstart : olsrStart ownIp now = some ctx) :
  ctx.Held none
  := by
  simp only [olsrStart, olsrStartTimer, Option.bind_eq_bind, Option.bind_eq_some_iff] at hstart
  obtain ⟨ctx₁, h₁, ctx₂, h₂, ctx₃, h₃, h₄⟩ := hstart
  have hheld₁ := (initOlsrContext_held ownIp now).startPeriodicTimer rfl h₁
  have hheld₂ := hheld₁.startPeriodicTimer rfl h₂
  have hheld₃ := hheld₂.startPeriodicTimer rfl h₃
  apply hheld₃.startPeriodicTimer rfl h₄

/-- What is held in every state a node reaches, whatever it receives. -/
theorem held_of_reaches {ownIp : InAddr} {now : Timespec} {start ctx : OlsrContext}
    {ok : OlsrContext → NodeEvent → Prop} (hstart : olsrStart ownIp now = some start)
    (h : Reaches nodeStep ok start ctx) :
  ctx.Held none
  := by
  have hinv : ctx.Sound ∧ ctx.Held none := by
    apply h.invariant
    · rintro ctx e ctx' ⟨hsound, hheld⟩ - hstep
      exact ⟨hsound.step hstep, (hheld.step hsound hstep).1⟩
    · exact ⟨olsrStart_sound hstart, olsrStart_held hstart⟩
  apply hinv.2

/-! ### The link state machine -/

/-- In a step that the event `e` makes from `ctx` to `ctx'` links follow their timers: when
`sym_timer` expires while `asym_timer` is active, the link stays and becomes asymmetric; when
`asym_timer` expires, the link becomes lost; and a link is removed only when its `expire_timer`
expires. -/
structure LinkLaw (ctx : OlsrContext) (e : NodeEvent) (ctx' : OlsrContext) : Prop where
  sym : ∀ iface addr link, ctx.searchLink iface addr = some link →
    ∀ p q elem, link.symTimer = some p → ctx.Expires e p → link.asymTimer = some q →
    ctx.timerqueue.elems.search q = some elem → elem.active = true →
    ∃ link', ctx'.searchLink iface addr = some link' ∧ link'.id = link.id ∧
      link'.status = .asymLink
  asym : ∀ iface addr link, ctx.searchLink iface addr = some link →
    ∀ q, link.asymTimer = some q → ctx.Expires e q →
    ∃ link', ctx'.searchLink iface addr = some link' ∧ link'.id = link.id ∧
      link'.status = .lostLink
  removed : ∀ iface addr link, ctx.searchLink iface addr = some link →
    (∀ link', ctx'.searchLink iface addr = some link' → link'.id ≠ link.id) →
    ∃ p, link.expireTimer = some p ∧ ctx.Expires e p

/-- A link is symmetric if and only if its timer `sym_timer` is active. -/
def SymIffActive (ctx : OlsrContext) : Prop :=
  ∀ iface addr link, ctx.searchLink iface addr = some link →
    (link.status = .symLink ↔ ∃ p elem, link.symTimer = some p ∧
      ctx.timerqueue.elems.search p = some elem ∧ elem.active = true)

/-- In the event `e` neither the timer `sym_timer` nor the timer `asym_timer` of a link
expires. -/
def OnlyExpireTimer (ctx : OlsrContext) (e : NodeEvent) : Prop :=
  ∀ iface addr link, ctx.searchLink iface addr = some link → ∀ p, ctx.Expires e p →
    link.symTimer ≠ some p ∧ link.asymTimer ≠ some p

theorem Held.symIffActive {ctx : OlsrContext} {hole : Option ℕ} (h : ctx.Held hole) :
  ctx.SymIffActive
  := by
  intro i a link hlink
  rw [(h.follows i a link hlink).sym]
  constructor
  · rintro ⟨p, hp, e, he, hactive, -⟩
    exact ⟨p, e, hp, he, hactive⟩
  · rintro ⟨p, e, hp, he, hactive⟩
    refine ⟨p, hp, ?_⟩
    obtain ⟨e', he', hc, -, hattached⟩ := h.safe _ p (owns_link hlink (Or.inr (Or.inr hp)))
    obtain rfl := Option.some.inj (he.symm.trans he')
    exact ⟨e, he, hactive, hattached hactive, hc⟩

/-- A step follows the link state machine if and only if it fires no timer but `expire_timer`. -/
theorem Held.linkLaw_iff {ctx ctx' : OlsrContext} (h : ctx.Held none) (hsound : ctx.Sound)
    {e : NodeEvent} (hstep : nodeStep ctx e = some ctx') :
  ctx.LinkLaw e ctx' ↔ ctx.OnlyExpireTimer e
  := by
  obtain ⟨-, hgone⟩ := h.step hsound hstep
  constructor
  · intro hlaw i a link hlink p hp
    have hfollows := h.follows i a link hlink
    -- A timer that fires removes its link, so it is the expiry timer.
    have hexpire : link.HasTimer p → link.expireTimer = some p := by
      intro htimer
      obtain ⟨q, hq, hfires⟩ := hlaw.removed i a link hlink
        ((hgone i a link hlink).mpr ⟨p, htimer, hp⟩)
      rw [hq, hp.unique hfires]
    constructor
    · intro hsym
      apply (hfollows.sym_ne p hsym).1 (hexpire (Or.inr (Or.inr hsym)))
    · intro hasym
      apply hfollows.asym_ne p hasym (hexpire (Or.inr (Or.inl hasym)))
  · intro honly
    constructor
    · intro i a link hlink p q elem hsym hp
      apply absurd hsym (honly i a link hlink p hp).1
    · intro i a link hlink q hasym hq
      apply absurd hasym (honly i a link hlink q hq).2
    · intro i a link hlink hremoved
      obtain ⟨p, htimer, hp⟩ := (hgone i a link hlink).mp hremoved
      obtain ⟨hsym, hasym⟩ := honly i a link hlink p hp
      rcases htimer with hexpire | hasym' | hsym'
      · exact ⟨p, hexpire, hp⟩
      · contradiction
      · contradiction

/-- When the timer `expire_timer` of a link expires, no timer `sym_timer` or `asym_timer` does. -/
theorem Held.onlyExpireTimer {ctx : OlsrContext} (h : ctx.Held none) {e : NodeEvent}
    {iface addr : InAddr} {link : LinkElem} (hlink : ctx.searchLink iface addr = some link) {p : ℕ}
    (hexpire : link.expireTimer = some p) (hp : ctx.Expires e p) :
  ctx.OnlyExpireTimer e
  := by
  intro i a link' hlink' q hq
  obtain rfl := hp.unique hq
  have hsame : link'.HasTimer p → link' = link := by
    intro htimer
    have heq := h.owns_unique (owns_link hlink (Or.inl hexpire)) (owns_link hlink' htimer)
    simp only [Callback.linkTimerExpire.injEq, Ptr.mk.injEq, Prod.mk.injEq] at heq
    obtain ⟨⟨rfl, rfl⟩, -⟩ := heq
    apply Option.some.inj (hlink'.symm.trans hlink)
  have hfollows := h.follows i a link' hlink'
  constructor
  · intro hsym
    apply (hfollows.sym_ne p hsym).1
    rw [hsame (Or.inr (Or.inr hsym)), hexpire]
  · intro hasym
    apply hfollows.asym_ne p hasym
    rw [hsame (Or.inr (Or.inl hasym)), hexpire]

/-- In every state a node reaches, whatever it receives, a link is symmetric if and only if its
timer `sym_timer` is active. A step from there follows the link state machine if and only if no
timer `sym_timer` or `asym_timer` expires in it. -/
theorem link_follows_timers {ownIp : InAddr} {now : Timespec} {start ctx : OlsrContext}
    (hstart : olsrStart ownIp now = some start)
    (h : Reaches nodeStep (fun _ _ => True) start ctx) :
  ctx.SymIffActive ∧ ∀ e ctx', nodeStep ctx e = some ctx' →
    (ctx.LinkLaw e ctx' ↔ ctx.OnlyExpireTimer e)
  := by
  have hheld := held_of_reaches hstart h
  refine ⟨hheld.symIffActive, ?_⟩
  intro e ctx' hstep
  apply hheld.linkLaw_iff (sound_of_reaches hstart h) hstep

/-- The first timer that is due, with its flag `active`. -/
def firstTimer (ctx : OlsrContext) (currtime : Timespec) : Option (ℕ × Bool) := do
  let k ← ctx.timerqueue.firstDue currtime
  let elem ← ctx.timerqueue.elems.search k.ptr
  return (k.ptr, elem.active)

theorem expires_of_firstTimer {ctx : OlsrContext} {currtime : Timespec} {p : ℕ}
    (h : ctx.firstTimer currtime = some (p, true)) (now : Timespec) (rand : ℕ) :
  ctx.Expires (.work now currtime rand) p
  := by
  simp only [firstTimer, Option.bind_eq_bind, Option.bind_eq_some_iff, Option.pure_def,
    Option.some.injEq, Prod.mk.injEq] at h
  obtain ⟨k, hk, elem, helem, rfl, hactive⟩ := h
  exact ⟨now, currtime, rand, rfl, k, elem, hk, rfl, helem, hactive⟩

/-- The timers `expire_timer`, `asym_timer` and `sym_timer` of the link to node 2 at node 1, and
the flags `active` of the last two. -/
def timersOfTwo (ctx : OlsrContext) : Option (ℕ × ℕ × ℕ × Bool × Bool) := do
  let link ← ctx.searchLink (nodeIp 1) (nodeIp 2)
  let expireTimer ← link.expireTimer
  let asymTimer ← link.asymTimer
  let symTimer ← link.symTimer
  let asymElem ← ctx.timerqueue.elems.search asymTimer
  let symElem ← ctx.timerqueue.elems.search symTimer
  return (expireTimer, asymTimer, symTimer, asymElem.active, symElem.active)

theorem timersOfTwo_eq_some {ctx : OlsrContext} {x q p : ℕ} {b c : Bool}
    (h : ctx.timersOfTwo = some (x, q, p, b, c)) :
  ∃ link eq ep, ctx.searchLink (nodeIp 1) (nodeIp 2) = some link ∧ link.expireTimer = some x ∧
    link.asymTimer = some q ∧ ctx.timerqueue.elems.search q = some eq ∧ eq.active = b ∧
    link.symTimer = some p ∧ ctx.timerqueue.elems.search p = some ep ∧ ep.active = c
  := by
  simp only [timersOfTwo, Option.bind_eq_bind, Option.bind_eq_some_iff, Option.pure_def,
    Option.some.injEq, Prod.mk.injEq] at h
  obtain ⟨link, hlink, _, hx, _, hq, _, hp, eq, heq, ep, hep, rfl, rfl, rfl, hb, hc⟩ := h
  exact ⟨link, eq, ep, hlink, hx, hq, heq, hb, hp, hep, hc⟩

/-- Node 2 lists node 1 in a HELLO, and the flush timer is due before the link's timers: then
`expire_timer` expires, and the link is removed as it should be. -/
theorem link_follows_timers_two :
  ∃ start ctx ctx' link, olsrStart (nodeIp 1) ⟨0, 0⟩ = some start ∧
    Reaches nodeStep (fun _ _ => True) start ctx ∧
    ctx.searchLink (nodeIp 1) (nodeIp 2) = some link ∧ link.status = .symLink ∧
    nodeStep ctx (.work ⟨0, 63000000⟩ ⟨0, 63000000⟩ 0) = some ctx' ∧
    ctx'.searchLink (nodeIp 1) (nodeIp 2) = none ∧
    ctx.LinkLaw (.work ⟨0, 63000000⟩ ⟨0, 63000000⟩ 0) ctx'
  := by
  have hrun : (olsrStart (nodeIp 1) ⟨0, 0⟩).bind (fun start =>
      ([NodeEvent.recv ⟨0, 0⟩ (nodeIp 2) (helloOfTwo []),
        .work ⟨0, 63000000⟩ ⟨0, 63000000⟩ 0].foldlM nodeStep start).bind (fun ctx =>
        (nodeStep ctx (.work ⟨0, 63000000⟩ ⟨0, 63000000⟩ 0)).map (fun ctx' =>
          decide (ctx.timersOfTwo = some (4, 5, 6, true, true) ∧
            ctx.firstTimer ⟨0, 63000000⟩ = some (4, true) ∧
            (ctx'.searchLink (nodeIp 1) (nodeIp 2)).isNone)))) = some true := by
    decide +kernel
  obtain ⟨start, hstart, hrun⟩ := Option.bind_eq_some_iff.mp hrun
  obtain ⟨ctx, hctx, hrun⟩ := Option.bind_eq_some_iff.mp hrun
  obtain ⟨ctx', hctx', hobs⟩ := Option.map_eq_some_iff.mp hrun
  obtain ⟨htimers, hfirst, hgone⟩ := of_decide_eq_true hobs
  obtain ⟨link, eq, ep, hlink, hx, -, -, -, hp, hep, hactive⟩ := timersOfTwo_eq_some htimers
  have hreach : Reaches nodeStep (fun _ _ => True) start ctx := Reaches.of_foldlM hctx
  obtain ⟨hsym, hlaw⟩ := link_follows_timers hstart hreach
  refine ⟨start, ctx, ctx', link, hstart, hreach, hlink, ?_, hctx',
    Option.isNone_iff_eq_none.mp hgone, ?_⟩
  · rw [hsym _ _ link hlink]
    exact ⟨6, ep, hp, hep, hactive⟩
  · rw [hlaw _ ctx' hctx']
    apply (held_of_reaches hstart hreach).onlyExpireTimer hlink hx
    apply expires_of_firstTimer hfirst

/-- A HELLO of node 2 without any link. -/
def helloOfNone : OlsrMsg :=
  { helloOfTwo [] with payload := .hello ⟨0, willDefault, []⟩ }

/-- Node 2 lists node 1 in a HELLO, and does not in the next one. The timer `sym_timer` expires
while `asym_timer` is active, and the link is removed. -/
theorem symTimer_removes_link :
  ¬ ∀ ownIp now start ctx, olsrStart ownIp now = some start →
    Reaches nodeStep (fun _ _ => True) start ctx → ∀ e ctx', nodeStep ctx e = some ctx' →
    ctx.LinkLaw e ctx'
  := by
  intro hlaw
  have hrun : (olsrStart (nodeIp 1) ⟨0, 0⟩).bind (fun start =>
      ([NodeEvent.recv ⟨0, 0⟩ (nodeIp 2) (helloOfTwo []),
        .recv ⟨0, 30000000⟩ (nodeIp 2) helloOfNone,
        .work ⟨0, 63000000⟩ ⟨0, 63000000⟩ 0].foldlM nodeStep start).bind (fun ctx =>
        (nodeStep ctx (.work ⟨0, 63000000⟩ ⟨0, 63000000⟩ 0)).map (fun ctx' =>
          decide (ctx.timersOfTwo = some (4, 5, 6, true, true) ∧
            ctx.firstTimer ⟨0, 63000000⟩ = some (6, true) ∧
            (ctx'.searchLink (nodeIp 1) (nodeIp 2)).isNone)))) = some true := by
    decide +kernel
  obtain ⟨start, hstart, hrun⟩ := Option.bind_eq_some_iff.mp hrun
  obtain ⟨ctx, hctx, hrun⟩ := Option.bind_eq_some_iff.mp hrun
  obtain ⟨ctx', hctx', hobs⟩ := Option.map_eq_some_iff.mp hrun
  obtain ⟨htimers, hfirst, hgone⟩ := of_decide_eq_true hobs
  obtain ⟨link, eq, ep, hlink, -, hq, heq, hactive, hp, -, -⟩ := timersOfTwo_eq_some htimers
  have hstep := hlaw _ _ start ctx hstart (Reaches.of_foldlM hctx) _ ctx' hctx'
  obtain ⟨link', hlink', -⟩ := hstep.sym _ _ link hlink 6 5 eq hp
    (expires_of_firstTimer hfirst _ _) hq heq hactive
  apply Option.some_ne_none link' (hlink'.symm.trans (Option.isNone_iff_eq_none.mp hgone))

end OlsrContext
