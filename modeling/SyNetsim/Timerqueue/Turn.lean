import SyNetsim.Timerqueue.Callbacks

/-!
# The turn of a timer

What a round of `timerqueue_work` does when a timer is due, with callbacks that use the queue as in
`TimerqueueContext.Acts`. The timer that has its turn is the one with the first key, and the keys
that are still due afterwards are later (`TqClient.AfterTurn`). The timer is detached or queued
again, and the other timers change only as its callback changes them.

The queue stays one that the loop deals with (`TimerqueueContext.Sound`): some timer is kept, so the
tree is never empty at the end of a turn.
-/

variable {σ κ : Type}

namespace TimerqueueContext

/-- A queue that the loop deals with: it is well formed, the loop moves on with the timers that are
due, and the timer `keeper` is kept. -/
structure Sound (tq : TimerqueueContext κ) (currtime : Timespec) (keeper : ℕ) : Prop where
  wf : tq.Wf none
  regular : ∀ p e, tq.elems.search p = some e → e.attached = true →
    checkExpire e.expire currtime = true → e.Regular
  keeper : tq.Keeps keeper

/-- The timer `p` is detached and inactive, or has been freed. -/
def Out (tq : TimerqueueContext κ) (p : ℕ) : Prop :=
  ∀ e, tq.elems.search p = some e → e.attached = false ∧ e.active = false

/-- The first timer that is due comes before every other one in the tree. -/
theorem le_of_firstDue {tq : TimerqueueContext κ} {currtime : Timespec} {k k' : TqKey}
    (h : tq.firstDue currtime = some k) (hk' : k' ∈ tq.rbt) :
  k ≤ k'
  := by
  obtain ⟨k₀, u, hfirst, hle⟩ := OrdMap.first_of_mem hk'
  rw [firstDue, hfirst] at h
  simp only at h
  split_ifs at h
  rw [← Option.some.inj h]
  apply hle

end TimerqueueContext

namespace TqClient

open TimerqueueContext

variable (C : TqClient σ κ)

/-! ### What a turn does to the timer that has it -/

/-- At its end a turn frees the timer or leaves it. -/
theorem detach_search_self {p : ℕ} {s s' : σ} (h : C.detach p s = some s') {e : TimerqueueElem κ}
    (he : (C.tq s).elems.search p = some e) :
  (∀ e', (C.tq s').elems.search p = some e' → e' = e) ∧ (e.attached = true → s' = s)
  := by
  simp only [detach, he, Option.bind_eq_bind, Option.bind_some, Option.pure_def] at h
  split_ifs at h with hfree
  · obtain rfl := Option.some.inj h
    constructor
    · intro e' he'
      rw [C.tq_setTq, OrdMap.search_erase, if_pos rfl] at he'
      contradiction
    · intro hattached
      simp [hattached] at hfree
  · obtain rfl := Option.some.inj h
    constructor
    · intro e' he'
      apply Option.some.inj (he'.symm.trans he)
    · intro _
      rfl

/-- The turn of an inactive timer detaches it, and changes no other timer. -/
theorem fire_search_inactive {rand : ℕ} {k : TqKey} {s s' : σ} (h : C.fire rand k s = some s')
    {e : TimerqueueElem κ} (he : (C.tq s).elems.search k.ptr = some e)
    (hactive : e.active = false) :
  (C.tq s').Out k.ptr ∧
    ∀ p, p ≠ k.ptr → (C.tq s').elems.search p = (C.tq s).elems.search p
  := by
  simp only [fire, C.tq_setTq, he, Option.bind_eq_bind, Option.bind_some, hactive,
    Bool.false_eq_true, if_false, C.setTq_setTq] at h
  constructor
  · intro e' he'
    have hself := (C.detach_search_self h (e := { e with attached := false }) (by
      rw [C.tq_setTq]
      apply search_update_self he)).1 e' he'
    rw [hself]
    exact ⟨rfl, hactive⟩
  · intro p hp
    rw [C.detach_search h hp, C.tq_setTq]
    apply Eq.trans (search_update _ k.ptr _ p)
    rw [if_neg hp]

/-- The turn of an active timer ends with the timer detached if it is for one call only, and else
with a new time of expiry. -/
theorem fire_search_active {rand : ℕ} {k : TqKey} {s s₁ s' : σ} (h : C.fire rand k s = some s')
    {e e₁ : TimerqueueElem κ} {c : κ} (he : (C.tq s).elems.search k.ptr = some e)
    (hactive : e.active = true) (hc : e.callback = some c)
    (hs₁ : C.callback c (C.takeOut k s) = some s₁)
    (he₁ : (C.tq s₁).elems.search k.ptr = some e₁) :
  (e₁.useOnce = true → (C.tq s').Out k.ptr) ∧
    (e₁.useOnce = false → e₁.attached = true → (C.tq s').elems.search k.ptr = some { e₁ with
      expire := timespecAddUsec e₁.expire (toUlong (newInterval e₁ rand)) })
  := by
  have hrun : C.callback c (C.setTq s { C.tq s with rbt := (C.tq s).rbt.erase k }) = some s₁ := hs₁
  simp only [fire, C.tq_setTq, he, Option.bind_eq_bind, Option.bind_some, hactive, if_true, hc,
    hrun, requeue, he₁, Option.pure_def] at h
  constructor
  · intro honce
    simp only [honce, if_true, Option.bind_some] at h
    intro e' he'
    have hself := (C.detach_search_self h (e := { e₁ with active := false, attached := false }) (by
      rw [C.tq_setTq]
      apply search_update_self he₁)).1 e' he'
    rw [hself]
    exact ⟨rfl, rfl⟩
  · intro honce hattached
    simp only [honce, Bool.false_eq_true, if_false, Option.bind_some] at h
    have hsearch := search_update_self he₁ (fun e => { e with
      expire := timespecAddUsec e₁.expire (toUlong (newInterval e₁ rand)) })
    have hself := (C.detach_search_self h (e := { e₁ with
      expire := timespecAddUsec e₁.expire (toUlong (newInterval e₁ rand)) }) (by
      rw [C.tq_setTq]
      apply hsearch)).2 hattached
    rw [hself, C.tq_setTq]
    apply hsearch

/-! ### Turns -/

/-- In a round from `s` at `currtime` the timer with key `k` has its turn, and its callback leads to
`s₁`. -/
def CallsBack (currtime : Timespec) (k : TqKey) (s s₁ : σ) : Prop :=
  (C.tq s).firstDue currtime = some k ∧
    ∃ e c, (C.tq s).elems.search k.ptr = some e ∧ e.active = true ∧ e.callback = some c ∧
      C.callback c (C.takeOut k s) = some s₁

/-- If the timer with key `k` is active, its callback uses the queue as it may. -/
def CallbackActs (currtime : Timespec) (keeper : ℕ) (k : TqKey) (s : σ) : Prop :=
  ∀ e c, (C.tq s).elems.search k.ptr = some e → e.active = true → e.callback = some c →
    ∃ s₁, C.callback c (C.takeOut k s) = some s₁ ∧
      Acts currtime k.ptr keeper (C.tq (C.takeOut k s)) (C.tq s₁)

/-- The state `s'` after the turn of the timer with key `k` in `s`. The keys that are still due are
later, and belong to timers that were due. A timer has changed only if it had the turn or the
callback changed it. The timer that had the turn is out if it was inactive or was to be called once;
if it was active and periodic, it is queued again at a later time. -/
structure AfterTurn (currtime : Timespec) (keeper : ℕ) (k : TqKey) (s s' : σ) : Prop where
  sound : (C.tq s').Sound currtime keeper
  later : ∀ k' ∈ (C.tq s').rbt, checkExpire k'.expire currtime = true → k < k'
  due : ∀ p, (C.tq s').Due currtime p → (C.tq s).Due currtime p
  other : ∀ p, p ≠ k.ptr →
    (∀ s₁, C.CallsBack currtime k s s₁ →
      (C.tq s₁).elems.search p = (C.tq s).elems.search p) →
    (C.tq s').elems.search p = (C.tq s).elems.search p
  quiet : ∀ e, (C.tq s).elems.search k.ptr = some e → e.active = false → ∃ q, s' = C.setTq s q
  out : ∀ e, (C.tq s).elems.search k.ptr = some e → e.active = false ∨ e.useOnce = true →
    (C.tq s').Out k.ptr
  again : ∀ e, (C.tq s).elems.search k.ptr = some e → e.active = true → e.useOnce = false →
    ∃ k' ∈ (C.tq s').rbt, k'.ptr = k.ptr ∧ checkExpire k'.expire k.expire = false

variable {currtime : Timespec} {keeper : ℕ}

/-- The turn of an inactive timer. -/
theorem afterTurn_inactive {s : σ} (h : (C.tq s).Sound currtime keeper) {k : TqKey}
    (hdue : (C.tq s).firstDue currtime = some k) {e : TimerqueueElem κ}
    (he : (C.tq s).elems.search k.ptr = some e) (hactive : e.active = false) (rand : ℕ) :
  ∃ s', C.fire rand k s = some s' ∧ C.AfterTurn currtime keeper k s s'
  := by
  have hk := mem_of_firstDue hdue
  obtain ⟨q, hfire, hwf, -⟩ := C.fire_inactive h.wf hk he hactive rand
  obtain ⟨s₂, hs₂, hrbt⟩ := C.fire_rbt_inactive rand he hactive
  obtain rfl := Option.some.inj (hfire.symm.trans hs₂)
  obtain ⟨hout, hother⟩ := C.fire_search_inactive hfire he hactive
  have hne : ∀ p e', (C.tq (C.setTq s q)).elems.search p = some e' → e'.attached = true →
      p ≠ k.ptr := by
    rintro p e' he' hattached rfl
    simp [(hout e' he').1] at hattached
  refine ⟨_, hfire, ⟨?_, ?_, ?_⟩, ?_, ?_, ?_, ?_, ?_, ?_⟩
  · rw [C.tq_setTq]
    apply hwf
  · intro p e' he' hattached hexpire
    rw [hother p (hne p e' he' hattached)] at he'
    apply h.regular p e' he' hattached hexpire
  · obtain ⟨e', he', hactive', hkeeps⟩ := h.keeper
    refine ⟨e', ?_, hactive', hkeeps⟩
    rw [hother keeper]
    · apply he'
    · rintro rfl
      obtain rfl := Option.some.inj (he.symm.trans he')
      simp [hactive] at hactive'
  · intro k' hk' _
    rw [hrbt, OrdMap.mem_erase] at hk'
    apply lt_of_le_of_ne (le_of_firstDue hdue hk'.2) (Ne.symm hk'.1)
  · rintro p ⟨e', he', hattached, hexpire⟩
    rw [hother p (hne p e' he' hattached)] at he'
    exact ⟨e', he', hattached, hexpire⟩
  · intro p hp _
    apply hother p hp
  · intro _ _ _
    exact ⟨q, rfl⟩
  · intro _ _ _
    apply hout
  · intro e' he' hactive'
    obtain rfl := Option.some.inj (he.symm.trans he')
    simp [hactive] at hactive'

/-- The turn of an active timer, taken apart: the timer `e` has the key `k`, its callback leads from
`s` to `s₁` and leaves the timer as `e₁`, and the turn ends in `s'`. -/
structure ActiveTurn (currtime : Timespec) (keeper rand : ℕ) (k : TqKey) (s s₁ s' : σ)
    (e e₁ : TimerqueueElem κ) : Prop where
  callsBack : C.CallsBack currtime k s s₁
  search : (C.tq s).elems.search k.ptr = some e
  attached : e.attached = true
  expire : e.expire = k.expire
  progresses :
    Progresses currtime k.ptr keeper { C.tq s with rbt := (C.tq s).rbt.erase k } (C.tq s₁)
  search₁ : (C.tq s₁).elems.search k.ptr = some e₁
  same : SameTimes e e₁
  wf : (C.tq s').Wf none
  other : ∀ p, p ≠ k.ptr → (C.tq s').elems.search p = (C.tq s₁).elems.search p
  out : e₁.useOnce = true → (C.tq s').Out k.ptr
  again : e₁.useOnce = false → (C.tq s').elems.search k.ptr = some { e₁ with
    expire := timespecAddUsec e₁.expire (toUlong (newInterval e₁ rand)) }

/-- The turn of an active timer succeeds if its callback uses the queue as it may. -/
theorem exists_activeTurn {s : σ} (h : (C.tq s).Sound currtime keeper) {k : TqKey}
    (hdue : (C.tq s).firstDue currtime = some k) {e : TimerqueueElem κ}
    (he : (C.tq s).elems.search k.ptr = some e) (hactive : e.active = true)
    (hacts : C.CallbackActs currtime keeper k s) (rand : ℕ) :
  ∃ s₁ s' e₁, C.fire rand k s = some s' ∧ C.ActiveTurn currtime keeper rand k s s₁ s' e e₁
  := by
  have hk := mem_of_firstDue hdue
  obtain ⟨-, e', he', hattached, hexpire⟩ := (h.wf.tree k).mp hk
  obtain rfl := Option.some.inj (he.symm.trans he')
  obtain ⟨c, hc⟩ := Option.ne_none_iff_exists'.mp (h.wf.callback k.ptr e he hactive)
  obtain ⟨s₁, hs₁, hacts⟩ := hacts e c he hactive hc
  rw [tq_takeOut] at hacts
  have hprogresses := hacts.progresses (h.wf.take hk) ⟨e, he, hattached⟩
  obtain ⟨e₁, he₁, hsame⟩ := hprogresses.firing e he hattached
  have hattached₁ : e₁.attached = true := hsame.attached.trans hattached
  obtain ⟨q, hfire, hwf, -⟩ := C.fire_active he hactive hc hs₁ hprogresses.wf ⟨e₁, he₁, hattached₁⟩
    rand
  obtain ⟨hout, hagain⟩ := C.fire_search_active hfire he hactive hc hs₁ he₁
  refine ⟨s₁, C.setTq s₁ q, e₁, hfire, ?_⟩
  exact {
    callsBack := ⟨hdue, e, c, he, hactive, hc, hs₁⟩
    search := he
    attached := hattached
    expire := hexpire
    progresses := hprogresses
    search₁ := he₁
    same := hsame
    wf := by
      rw [C.tq_setTq]
      apply hwf
    other := fun p hp => C.fire_search hfire he hactive hc hs₁ hp
    out := hout
    again := fun honce => hagain honce hattached₁ }

namespace ActiveTurn

variable {C} {rand : ℕ} {k : TqKey} {s s₁ s' : σ} {e e₁ : TimerqueueElem κ}

/-- The timer that has its turn was due. -/
theorem due (h : C.ActiveTurn currtime keeper rand k s s₁ s' e e₁) :
  (C.tq s).Due currtime k.ptr
  := ⟨e, h.search, h.attached, h.expire ▸ due_of_firstDue h.callsBack.1⟩

/-- The loop moves on with the timer that has its turn. -/
theorem regular (h : C.ActiveTurn currtime keeper rand k s s₁ s' e e₁)
    (hsound : (C.tq s).Sound currtime keeper) :
  e₁.Regular
  := by
  apply TimerqueueElem.Regular.same _ h.same
  apply hsound.regular k.ptr e h.search h.attached
  rw [h.expire]
  apply due_of_firstDue h.callsBack.1

/-- A periodic timer gets a later time of expiry. -/
theorem later (h : C.ActiveTurn currtime keeper rand k s s₁ s' e e₁)
    (hsound : (C.tq s).Sound currtime keeper) (honce : e₁.useOnce = false) :
  checkExpire (timespecAddUsec e₁.expire (toUlong (newInterval e₁ rand))) k.expire = false
  := by
  rw [← h.expire, ← h.same.expire]
  apply (h.regular hsound).later honce

/-- A timer that is due after the turn was due before, or has been queued again. -/
theorem due_cases (h : C.ActiveTurn currtime keeper rand k s s₁ s' e e₁) {p : ℕ}
    {e' : TimerqueueElem κ} (he' : (C.tq s').elems.search p = some e')
    (hattached : e'.attached = true) (hexpire : checkExpire e'.expire currtime = true) :
  (p ≠ k.ptr ∧ ∃ e₀, (C.tq s).elems.search p = some e₀ ∧ SameTimes e₀ e') ∨
    p = k.ptr ∧ e₁.useOnce = false ∧ e' = { e₁ with
      expire := timespecAddUsec e₁.expire (toUlong (newInterval e₁ rand)) }
  := by
  by_cases hp : p = k.ptr
  · right
    subst hp
    rcases Bool.eq_false_or_eq_true e₁.useOnce with honce | honce
    · simp [(h.out honce e' he').1] at hattached
    · rw [h.again honce] at he'
      exact ⟨rfl, honce, (Option.some.inj he').symm⟩
  · left
    rw [h.other p hp] at he'
    obtain ⟨e₀, he₀, hsame₀, -⟩ := h.progresses.due p e' he' hattached hexpire
    exact ⟨hp, e₀, he₀, hsame₀⟩

/-- After the turn the queue is one that the loop deals with. -/
theorem sound (h : C.ActiveTurn currtime keeper rand k s s₁ s' e e₁)
    (hsound : (C.tq s).Sound currtime keeper) :
  (C.tq s').Sound currtime keeper
  where
  wf := h.wf
  regular := by
    intro p e' he' hattached hexpire
    rcases h.due_cases he' hattached hexpire with ⟨-, e₀, he₀, hsame₀⟩ | ⟨-, -, rfl⟩
    · apply (hsound.regular p e₀ he₀ (hsame₀.attached ▸ hattached)
        (hsame₀.expire ▸ hexpire)).same hsame₀
    · obtain ⟨-, hinterval, hjitter⟩ := h.regular hsound
      exact ⟨timespecAddUsec_normal _ _, hinterval, hjitter⟩
  keeper := by
    obtain ⟨e', he', hactive, hattached, honce⟩ := h.progresses.keeper hsound.keeper
    by_cases hp : keeper = k.ptr
    · subst hp
      obtain rfl := Option.some.inj (h.search₁.symm.trans he')
      exact ⟨_, h.again honce, hactive, hattached, honce⟩
    · exact ⟨e', (h.other keeper hp).trans he', hactive, hattached, honce⟩

/-- After the turn only later keys are due. -/
theorem keys_later (h : C.ActiveTurn currtime keeper rand k s s₁ s' e e₁)
    (hsound : (C.tq s).Sound currtime keeper) {k' : TqKey} (hk' : k' ∈ (C.tq s').rbt)
    (hexpire : checkExpire k'.expire currtime = true) :
  k < k'
  := by
  obtain ⟨-, e', he', hattached, heq⟩ := (h.wf.tree k').mp hk'
  rcases h.due_cases he' hattached (heq ▸ hexpire) with ⟨hp, e₀, he₀, hsame₀⟩ | ⟨-, honce, rfl⟩
  · have hmem : k' ∈ (C.tq s).rbt := (hsound.wf.tree k').mpr
      ⟨by simp, e₀, he₀, hsame₀.attached ▸ hattached, hsame₀.expire ▸ heq⟩
    apply lt_of_le_of_ne (le_of_firstDue h.callsBack.1 hmem)
    rintro rfl
    apply hp rfl
  · apply TqKey.lt_of_later
    rw [← heq]
    apply h.later hsound honce

/-- A timer that is due after the turn was due before. -/
theorem due_before (h : C.ActiveTurn currtime keeper rand k s s₁ s' e e₁) {p : ℕ}
    (hp : (C.tq s').Due currtime p) :
  (C.tq s).Due currtime p
  := by
  obtain ⟨e', he', hattached, hexpire⟩ := hp
  rcases h.due_cases he' hattached hexpire with ⟨-, e₀, he₀, hsame₀⟩ | ⟨rfl, -, -⟩
  · exact ⟨e₀, he₀, hsame₀.attached ▸ hattached, hsame₀.expire ▸ hexpire⟩
  · apply h.due

/-- After the turn a periodic timer is in the tree, at a later time. -/
theorem queued_again (h : C.ActiveTurn currtime keeper rand k s s₁ s' e e₁)
    (hsound : (C.tq s).Sound currtime keeper) (honce : e.useOnce = false) :
  ∃ k' ∈ (C.tq s').rbt, k'.ptr = k.ptr ∧ checkExpire k'.expire k.expire = false
  := by
  have honce₁ : e₁.useOnce = false := h.same.useOnce.trans honce
  refine ⟨⟨timespecAddUsec e₁.expire (toUlong (newInterval e₁ rand)), k.ptr⟩, ?_, rfl,
    h.later hsound honce₁⟩
  apply (h.wf.tree _).mpr
  exact ⟨by simp, _, h.again honce₁, h.same.attached.trans h.attached, rfl⟩

end ActiveTurn

/-- The turn of an active timer. -/
theorem afterTurn_active {s : σ} (h : (C.tq s).Sound currtime keeper) {k : TqKey}
    (hdue : (C.tq s).firstDue currtime = some k) {e : TimerqueueElem κ}
    (he : (C.tq s).elems.search k.ptr = some e) (hactive : e.active = true)
    (hacts : C.CallbackActs currtime keeper k s) (rand : ℕ) :
  ∃ s', C.fire rand k s = some s' ∧ C.AfterTurn currtime keeper k s s'
  := by
  obtain ⟨s₁, s', e₁, hfire, hturn⟩ := C.exists_activeTurn h hdue he hactive hacts rand
  refine ⟨s', hfire, hturn.sound h, fun k' hk' => hturn.keys_later h hk',
    fun p hp => hturn.due_before hp, ?_, ?_, ?_, ?_⟩
  · intro p hp hunchanged
    rw [hturn.other p hp]
    apply hunchanged s₁ hturn.callsBack
  · intro e' he' hinactive
    obtain rfl := Option.some.inj (he.symm.trans he')
    simp [hactive] at hinactive
  · intro e' he' hout
    obtain rfl := Option.some.inj (he.symm.trans he')
    rcases hout with hinactive | honce
    · simp [hactive] at hinactive
    · apply hturn.out (hturn.same.useOnce.trans honce)
  · intro e' he' _ honce
    obtain rfl := Option.some.inj (he.symm.trans he')
    apply hturn.queued_again h honce

/-- Every turn succeeds if the callback uses the queue as it may. -/
theorem exists_afterTurn {s : σ} (h : (C.tq s).Sound currtime keeper) {k : TqKey}
    (hdue : (C.tq s).firstDue currtime = some k) (hacts : C.CallbackActs currtime keeper k s)
    (rand : ℕ) :
  ∃ s', C.fire rand k s = some s' ∧ C.AfterTurn currtime keeper k s s'
  := by
  obtain ⟨-, e, he, -⟩ := (h.wf.tree k).mp (mem_of_firstDue hdue)
  cases hactive : e.active with
  | true => apply C.afterTurn_active h hdue he hactive hacts
  | false => apply C.afterTurn_inactive h hdue he hactive

end TqClient
