import Mathlib.Logic.Relation
import SyNetsim.Timerqueue.Work

/-!
# What callbacks do to a queue

The callbacks of a program use a queue through its operations: they make timers, register timers
that are out of the queue, reactivate timers, and deactivate or free them. `Act` is one such use by
the callback of the timer `firing`, in a call at the time `currtime`. The clock does not go
backwards, and one timer `keeper` is neither deactivated nor freed.

No use makes a timer due at `currtime`, so a call has to do with the timers that are due from the
start only (`Act.progresses`).
-/

/-! ### Times -/

theorem checkExpire_iff {t t' : Timespec} :
  checkExpire t t' = true ↔ t.tvSec < t'.tvSec ∨ t.tvSec = t'.tvSec ∧ t.tvNsec ≤ t'.tvNsec
  := by
  rw [checkExpire]
  split_ifs with hsec
  · simp [hsec]
  · simp [hsec]

/-- A time that is later than one that has not come before `currtime` has not come. -/
theorem checkExpire_later {t now currtime : Timespec} (hnow : checkExpire currtime now = true)
    (ht : checkExpire t now = false) :
  checkExpire t currtime = false
  := by
  rw [← Bool.not_eq_true, checkExpire_iff] at ht ⊢
  rw [checkExpire_iff] at hnow
  omega

/-- A later time of expiry makes a later key. -/
theorem TqKey.lt_of_later {k k' : TqKey} (h : checkExpire k'.expire k.expire = false) :
  k < k'
  := by
  rw [← Bool.not_eq_true, checkExpire_iff] at h
  have htriple : k.toTriple < k'.toTriple := by
    simp only [toTriple, Prod.Lex.lt_iff, ofLex_toLex]
    omega
  apply htriple

/-- Adding microseconds, but no more than `int` holds, makes a time later. -/
theorem timespecAddUsec_later {t : Timespec} {usec : ℕ} (ht : t.tvNsec < 1000000000)
    (hpos : 0 < usec) (hlt : usec < 2 ^ 32) :
  checkExpire (timespecAddUsec t usec) t = false
  := by
  have hns := timespecAddUsec_ns ht hlt
  have hnormal := timespecAddUsec_normal t usec
  rw [← Bool.not_eq_true, checkExpire_iff]
  simp only [Timespec.ns] at hns
  omega

/-- A negative `int`, which is added as a large `unsigned long`, makes a time later too. -/
theorem timespecAddUsec_wrapped {t : Timespec} {m : ℕ} (ht : t.tvNsec < 1000000000)
    (hlow : 1000000 ≤ m) (hhigh : m ≤ 2 ^ 31) :
  checkExpire (timespecAddUsec t (toUlong (-(m : ℤ)))) t = false
  := by
  have hshort : t.tvNsec < m * 1000 ∧ m * 1000 ≤ 2 ^ 64 := by
    omega
  have hpos : 0 < (2 ^ 64 + t.tvNsec - m * 1000) / 1000000000 := by
    apply Nat.div_pos _ (by decide)
    omega
  rw [← Bool.not_eq_true, checkExpire_iff]
  simp only [timespecAddUsec, toUlong_neg hhigh (by omega), add_mul_mod_wrapped hshort.1 hshort.2]
  generalize (2 ^ 64 + t.tvNsec - m * 1000) / 1000000000 = sec at hpos
  omega

/-- The value of `int` arithmetic that does not fit once. -/
theorem wrapInt_cases {x : ℤ} (hlow : -(2 ^ 31) ≤ x) (hhigh : x < 2 ^ 32) :
  x < 2 ^ 31 ∧ wrapInt x = x ∨ 2 ^ 31 ≤ x ∧ wrapInt x = x - 2 ^ 32
  := by
  rw [wrapInt, BitVec.toInt_ofInt, Int.bmod_def]
  split_ifs <;> omega

/-- Wrapping around in the middle of a sum does not matter. -/
theorem wrapInt_sub (x y : ℤ) :
  wrapInt (wrapInt x - y) = wrapInt (x - y)
  := by
  simp only [wrapInt, BitVec.toInt_ofInt]
  apply Int.bmod_sub_bmod

/-! ### Timers that move on -/

/-- A timer with which the loop moves on. Its interval is an `int`, and if it is periodic then its
interval is greater than its jitter, which is not so large that its multiples overflow. -/
structure TimerqueueElem.Regular {κ : Type} (e : TimerqueueElem κ) : Prop where
  normal : e.expire.tvNsec < 1000000000
  interval : e.intervalUs < 2 ^ 31
  jitter : e.useOnce = false → 0 ≤ e.maxJitter ∧ e.maxJitter ≤ 10000000 ∧ e.maxJitter < e.intervalUs

variable {κ : Type}

/-- The jitter that is added to an interval lies between nothing and twice the maximum. -/
theorem jitter_bounds {mj : ℤ} (hlow : 0 ≤ mj) (hhigh : mj ≤ 10000000) (rand : ℕ) :
  0 ≤ (wrapInt (((rand % 100 + 1 : ℕ) : ℤ) * wrapInt (mj * 2))).tdiv 100 ∧
    (wrapInt (((rand % 100 + 1 : ℕ) : ℤ) * wrapInt (mj * 2))).tdiv 100 ≤ mj * 2
  := by
  obtain ⟨r, hr, hpos, hle⟩ : ∃ r : ℤ, ((rand % 100 + 1 : ℕ) : ℤ) = r ∧ 1 ≤ r ∧ r ≤ 100 :=
    ⟨_, rfl, by omega, by omega⟩
  have hdouble : wrapInt (mj * 2) = mj * 2 := by
    rcases wrapInt_cases (x := mj * 2) (by omega) (by omega) with ⟨-, heq⟩ | ⟨hbig, -⟩
    · apply heq
    · omega
  have hproduct : 0 ≤ r * (mj * 2) ∧ r * (mj * 2) ≤ 100 * (mj * 2) := by
    constructor
    · apply Int.mul_nonneg (by omega) (by omega)
    · apply Int.mul_le_mul_of_nonneg_right hle (by omega)
  have hwrap : wrapInt (r * (mj * 2)) = r * (mj * 2) := by
    rcases wrapInt_cases (x := r * (mj * 2)) (by omega) (by omega) with ⟨-, heq⟩ | ⟨hbig, -⟩
    · apply heq
    · omega
  rw [hr, hdouble, hwrap]
  generalize r * (mj * 2) = j at hproduct
  rw [Int.tdiv_eq_ediv_of_nonneg hproduct.1]
  omega

/-- A periodic timer with which the loop moves on is queued again at a later time. -/
theorem TimerqueueElem.Regular.later {e : TimerqueueElem κ} (h : e.Regular)
    (hperiodic : e.useOnce = false) (rand : ℕ) :
  checkExpire (timespecAddUsec e.expire (toUlong (TqClient.newInterval e rand))) e.expire = false
  := by
  obtain ⟨hlow, hhigh, hinterval⟩ := h.jitter hperiodic
  have hint := h.interval
  -- The sum is positive; if it fits into an `int` it is added as it is.
  have hsum : ∀ x : ℤ, 0 < x → x < 2 ^ 31 →
      checkExpire (timespecAddUsec e.expire (toUlong x)) e.expire = false := by
    intro x hpos hlt
    obtain ⟨n, rfl⟩ := Int.eq_ofNat_of_zero_le (le_of_lt hpos)
    rw [toUlong_natCast (by omega)]
    apply timespecAddUsec_later h.normal (by omega) (by omega)
  rw [TqClient.newInterval]
  split_ifs with hzero
  · apply hsum e.intervalUs (by omega) hint
  · obtain ⟨hnonneg, hle⟩ := jitter_bounds hlow hhigh rand
    simp only [wrapInt_sub]
    generalize (wrapInt (((rand % 100 + 1 : ℕ) : ℤ) * wrapInt (e.maxJitter * 2))).tdiv 100 = j at *
    rcases wrapInt_cases (x := e.intervalUs + j - e.maxJitter) (by omega) (by omega) with
      ⟨hlt, heq⟩ | ⟨hbig, heq⟩
    · rw [heq]
      apply hsum _ (by omega) hlt
    · obtain ⟨m, hm⟩ := Int.eq_ofNat_of_zero_le
        (a := 2 ^ 32 - (e.intervalUs + j - e.maxJitter)) (by omega)
      have hneg : e.intervalUs + j - e.maxJitter - 2 ^ 32 = -(m : ℤ) := by
        omega
      rw [heq, hneg]
      apply timespecAddUsec_wrapped h.normal (by omega) (by omega)

/-- The fields that decide when a timer expires, and whether it does so again, are the same. -/
structure SameTimes (e e' : TimerqueueElem κ) : Prop where
  expire : e'.expire = e.expire
  attached : e'.attached = e.attached
  useOnce : e'.useOnce = e.useOnce
  maxJitter : e'.maxJitter = e.maxJitter
  intervalUs : e'.intervalUs = e.intervalUs

theorem SameTimes.refl (e : TimerqueueElem κ) :
  SameTimes e e
  := ⟨rfl, rfl, rfl, rfl, rfl⟩

theorem SameTimes.trans {e e' e'' : TimerqueueElem κ} (h : SameTimes e e')
    (h' : SameTimes e' e'') :
  SameTimes e e''
  where
  expire := h'.expire.trans h.expire
  attached := h'.attached.trans h.attached
  useOnce := h'.useOnce.trans h.useOnce
  maxJitter := h'.maxJitter.trans h.maxJitter
  intervalUs := h'.intervalUs.trans h.intervalUs

/-- The loop moves on with a timer as long as its times are the same. -/
theorem TimerqueueElem.Regular.same {e e' : TimerqueueElem κ} (h : e.Regular)
    (hsame : SameTimes e e') :
  e'.Regular
  where
  normal := hsame.expire ▸ h.normal
  interval := hsame.intervalUs ▸ h.interval
  jitter honce := by
    rw [hsame.maxJitter, hsame.intervalUs]
    apply h.jitter (hsame.useOnce.symm.trans honce)

/-! ### The operations while a timer is fired -/

namespace TimerqueueContext

/-- A timer out of the queue is put into it. -/
theorem Wf.enter {tq : TimerqueueContext κ} {hole : Option ℕ} (h : tq.Wf hole) {p : ℕ}
    (hp : some p ≠ hole) {e : TimerqueueElem κ} (he : tq.elems.search p = some e)
    (hdetached : e.attached = false) (hcallback : e.callback ≠ none) (expire : Timespec) :
  Wf { tq.update p (fun e => { e with expire := expire, attached := true, active := true }) with
    rbt := tq.rbt.insert ⟨expire, p⟩ () } hole
  where
  fresh q hq := h.fresh q (OrdMap.mem_modify.mp hq)
  callback q e' he' hactive := by
    rw [search_update] at he'
    split_ifs at he' with hq
    · rw [he] at he'
      obtain rfl := Option.some.inj he'
      apply hcallback
    · apply h.callback q e' he' hactive
  tree := by
    rintro ⟨t, q⟩
    simp only [OrdMap.mem_insert, TqKey.mk.injEq, search_update]
    rw [h.tree]
    by_cases hq : q = p
    · subst hq
      simp only [he, hdetached, hp, Option.some.injEq, exists_eq_left', Bool.false_eq_true,
        false_and, and_false, or_false, and_true, if_true, Option.map_some, ne_eq,
        not_false_eq_true, true_and]
      apply eq_comm
    · simp [hq]

/-- A timer in the tree is taken out of the queue. -/
theorem Wf.leave {tq : TimerqueueContext κ} {hole : Option ℕ} (h : tq.Wf hole) {p : ℕ}
    {e : TimerqueueElem κ} (he : tq.elems.search p = some e) :
  Wf { tq.update p (fun e => { e with attached := false }) with
    rbt := tq.rbt.erase ⟨e.expire, p⟩ } hole
  where
  fresh q hq := h.fresh q (OrdMap.mem_modify.mp hq)
  callback q e' he' hactive := by
    rw [search_update] at he'
    split_ifs at he' with hq
    · rw [he] at he'
      obtain rfl := Option.some.inj he'
      apply h.callback p e he hactive
    · apply h.callback q e' he' hactive
  tree := by
    rintro ⟨t, q⟩
    simp only [OrdMap.mem_erase, ne_eq, TqKey.mk.injEq, search_update]
    rw [h.tree]
    by_cases hq : q = p
    · subst hq
      simp only [he, Option.some.injEq, exists_eq_left', and_true, if_true, Option.map_some,
        Bool.false_eq_true, false_and, and_false, iff_false, not_and]
      rintro hne - - rfl
      apply hne rfl
    · simp [hq]

/-- Registering a timer out of the queue keeps the queue well formed. -/
theorem Wf.register {tq tq' : TimerqueueContext κ} {hole : Option ℕ} (h : tq.Wf hole) {p : ℕ}
    (hp : some p ≠ hole) {e : TimerqueueElem κ} (he : tq.elems.search p = some e)
    (hdetached : e.attached = false) (hcallback : e.callback ≠ none) {now : Timespec}
    (htq' : tq.timerqueueRegisterTimer now p = some tq') :
  tq'.Wf hole
  := by
  simp only [timerqueueRegisterTimer, he, Option.bind_eq_bind, Option.bind_some, Option.pure_def,
    Option.some.injEq] at htq'
  subst htq'
  apply h.enter hp he hdetached hcallback

/-- Reactivating a timer other than the one that is fired keeps the queue well formed. -/
theorem Wf.reactivate {tq tq' : TimerqueueContext κ} {hole : Option ℕ} (h : tq.Wf hole) {p : ℕ}
    (hp : some p ≠ hole) {e : TimerqueueElem κ} (he : tq.elems.search p = some e)
    (hcallback : e.callback ≠ none) {now : Timespec}
    (htq' : tq.timerqueueReactivateTimer now p = some tq') :
  tq'.Wf hole
  := by
  simp only [timerqueueReactivateTimer, he, Option.bind_eq_bind, Option.bind_some] at htq'
  cases hattached : e.attached with
  | false =>
      rw [hattached, if_neg Bool.false_ne_true] at htq'
      apply h.register hp he hattached hcallback htq'
  | true =>
      rw [hattached, if_pos rfl] at htq'
      refine (h.leave he).register hp (search_update_self he _) rfl ?_ htq'
      apply hcallback

/-! ### What a callback does -/

/-- The timer `p` is in the queue and due. -/
def Due (tq : TimerqueueContext κ) (currtime : Timespec) (p : ℕ) : Prop :=
  ∃ e, tq.elems.search p = some e ∧ e.attached = true ∧ checkExpire e.expire currtime = true

/-- The timer `p` is active and periodic, and in the queue. -/
def Keeps (tq : TimerqueueContext κ) (p : ℕ) : Prop :=
  ∃ e, tq.elems.search p = some e ∧ e.active = true ∧ e.attached = true ∧ e.useOnce = false

/-- A use of a queue by the callback of the timer `firing` in a call at `currtime`. A timer is made,
or its fields are set while it is out of the queue; a timer out of the queue is registered, or any
other than `firing` is reactivated, with a positive interval and no earlier than `currtime`; or a
timer other than `keeper` is deactivated or freed. -/
inductive Act (currtime : Timespec) (firing keeper : ℕ) (tq : TimerqueueContext κ) :
    TimerqueueContext κ → Prop
  | new : Act currtime firing keeper tq tq.timerqueueNewTimer.2
  | set {p : ℕ} {e : TimerqueueElem κ} (f : TimerqueueElem κ → TimerqueueElem κ) :
      tq.elems.search p = some e → e.attached = false →
      (f e).attached = false → (f e).active = e.active → (f e).expire = e.expire →
      ((f e).active = true → (f e).callback ≠ none) →
      Act currtime firing keeper tq (tq.update p f)
  | register {p : ℕ} {e : TimerqueueElem κ} {now : Timespec} {tq' : TimerqueueContext κ} :
      tq.elems.search p = some e → e.attached = false → e.callback ≠ none →
      0 < e.intervalUs → e.intervalUs < 2 ^ 31 →
      now.tvNsec < 1000000000 → checkExpire currtime now = true →
      tq.timerqueueRegisterTimer now p = some tq' → Act currtime firing keeper tq tq'
  | reactivate {p : ℕ} {e : TimerqueueElem κ} {now : Timespec} {tq' : TimerqueueContext κ} :
      p ≠ firing → tq.elems.search p = some e → e.callback ≠ none →
      0 < e.intervalUs → e.intervalUs < 2 ^ 31 →
      now.tvNsec < 1000000000 → checkExpire currtime now = true →
      tq.timerqueueReactivateTimer now p = some tq' → Act currtime firing keeper tq tq'
  | deactivate {p : ℕ} : p ≠ keeper → p ∈ tq.elems →
      Act currtime firing keeper tq (tq.update p (fun e => { e with active := false }))
  | free {p : ℕ} {tq' : TimerqueueContext κ} : p ≠ keeper →
      tq.timerqueueFreeTimer p = some tq' → Act currtime firing keeper tq tq'

/-- Any number of uses of a queue by a callback. -/
def Acts (currtime : Timespec) (firing keeper : ℕ) :
    TimerqueueContext κ → TimerqueueContext κ → Prop :=
  Relation.ReflTransGen (Act currtime firing keeper)

/-- From `tq` to `tq'`, while the timer `firing` is out of the tree, no timer has become due, and
those due are as before unless they have become inactive; the timer `firing` keeps its times, and
the timer `keeper` is still kept. -/
structure Progresses (currtime : Timespec) (firing keeper : ℕ) (tq tq' : TimerqueueContext κ) :
    Prop where
  wf : tq'.Wf (some firing)
  due : ∀ p e', tq'.elems.search p = some e' → e'.attached = true →
    checkExpire e'.expire currtime = true →
    ∃ e, tq.elems.search p = some e ∧ SameTimes e e' ∧ (e'.active = true → e' = e)
  firing : ∀ e, tq.elems.search firing = some e → e.attached = true →
    ∃ e', tq'.elems.search firing = some e' ∧ SameTimes e e'
  keeper : tq.Keeps keeper → tq'.Keeps keeper

variable {currtime : Timespec} {firing keeper : ℕ}

theorem Progresses.refl {tq : TimerqueueContext κ} (h : tq.Wf (some firing)) :
  Progresses currtime firing keeper tq tq
  where
  wf := h
  due _ e he _ _ := ⟨e, he, SameTimes.refl e, fun _ => rfl⟩
  firing e he _ := ⟨e, he, SameTimes.refl e⟩
  keeper hkeeper := hkeeper

theorem Progresses.trans {tq tq' tq'' : TimerqueueContext κ}
    (h : Progresses currtime firing keeper tq tq')
    (h' : Progresses currtime firing keeper tq' tq'') :
  Progresses currtime firing keeper tq tq''
  where
  wf := h'.wf
  due p e'' he'' hattached hdue := by
    obtain ⟨e', he', hsame', heq'⟩ := h'.due p e'' he'' hattached hdue
    obtain ⟨e, he, hsame, heq⟩ := h.due p e' he' (hsame'.attached ▸ hattached)
      (hsame'.expire ▸ hdue)
    refine ⟨e, he, hsame.trans hsame', ?_⟩
    intro hactive
    obtain rfl := heq' hactive
    apply heq hactive
  firing e he hattached := by
    obtain ⟨e', he', hsame⟩ := h.firing e he hattached
    obtain ⟨e'', he'', hsame'⟩ := h'.firing e' he' (hsame.attached.trans hattached)
    exact ⟨e'', he'', hsame.trans hsame'⟩
  keeper hkeeper := h'.keeper (h.keeper hkeeper)

/-- A change of one timer, as far as it is due, fired or kept. -/
theorem Progresses.of_change {tq tq' : TimerqueueContext κ} (hwf : tq'.Wf (some firing)) {p : ℕ}
    (hother : ∀ q, q ≠ p → tq'.elems.search q = tq.elems.search q)
    (hdue : ∀ e', tq'.elems.search p = some e' → e'.attached = true →
      checkExpire e'.expire currtime = true →
      ∃ e, tq.elems.search p = some e ∧ SameTimes e e' ∧ (e'.active = true → e' = e))
    (hfiring : ∀ e, p = firing → tq.elems.search p = some e → e.attached = true →
      ∃ e', tq'.elems.search p = some e' ∧ SameTimes e e')
    (hkeeper : p = keeper → tq.Keeps p → tq'.Keeps p) :
  Progresses currtime firing keeper tq tq'
  where
  wf := hwf
  due q e' he' hattached hexpire := by
    by_cases hq : q = p
    · subst hq
      apply hdue e' he' hattached hexpire
    · rw [hother q hq] at he'
      exact ⟨e', he', SameTimes.refl e', fun _ => rfl⟩
  firing e he hattached := by
    by_cases hp : p = firing
    · subst hp
      apply hfiring e rfl he hattached
    · rw [hother firing (Ne.symm hp)]
      exact ⟨e, he, SameTimes.refl e⟩
  keeper hkeeps := by
    by_cases hp : p = keeper
    · subst hp
      apply hkeeper rfl hkeeps
    · rw [Keeps, hother keeper (Ne.symm hp)]
      apply hkeeps

/-- A change of a timer out of the queue, which it does not enter as a timer that is due. -/
theorem Progresses.of_detached {tq tq' : TimerqueueContext κ} (hwf : tq'.Wf (some firing)) {p : ℕ}
    (hother : ∀ q, q ≠ p → tq'.elems.search q = tq.elems.search q)
    (hdetached : ¬ tq.Attached p) (hdue : ¬ tq'.Due currtime p) :
  Progresses currtime firing keeper tq tq'
  := by
  apply Progresses.of_change hwf hother
  · intro e' he' hattached hexpire
    apply absurd ⟨e', he', hattached, hexpire⟩ hdue
  · intro e _ he hattached
    apply absurd ⟨e, he, hattached⟩ hdetached
  · rintro - ⟨e, he, -, hattached, -⟩
    apply absurd ⟨e, he, hattached⟩ hdetached

/-- A timer that is registered is not due in the call. -/
theorem not_due_registered {tq : TimerqueueContext κ} {p : ℕ} {now : Timespec} {intervalUs : ℤ}
    {e : TimerqueueElem κ} (he : tq.elems.search p = some e)
    (hexpire : e.expire = timespecAddUsec now (toUlong intervalUs)) (hpos : 0 < intervalUs)
    (hlt : intervalUs < 2 ^ 31) (hnormal : now.tvNsec < 1000000000)
    (hnow : checkExpire currtime now = true) :
  ¬ tq.Due currtime p
  := by
  rintro ⟨e', he', -, hdue⟩
  obtain rfl := Option.some.inj (he.symm.trans he')
  obtain ⟨n, rfl⟩ := Int.eq_ofNat_of_zero_le (le_of_lt hpos)
  have hlater : checkExpire (timespecAddUsec now n) now = false :=
    timespecAddUsec_later hnormal (by omega) (by omega)
  rw [hexpire, toUlong_natCast (by omega), checkExpire_later hnow hlater] at hdue
  contradiction

/-- A timer that is not marked as being in the queue. -/
theorem not_attached_of_detached {tq : TimerqueueContext κ} {p : ℕ} {e : TimerqueueElem κ}
    (he : tq.elems.search p = some e) (hdetached : e.attached = false) :
  ¬ tq.Attached p
  := by
  rintro ⟨e', he', hattached⟩
  obtain rfl := Option.some.inj (he.symm.trans he')
  simp [hdetached] at hattached

/-- Making a timer. -/
theorem progresses_newTimer {tq : TimerqueueContext κ} (hwf : tq.Wf (some firing)) :
  Progresses currtime firing keeper tq tq.timerqueueNewTimer.2
  := by
  obtain ⟨hnone, hwf', hself, hother⟩ := newTimer_spec hwf
  apply Progresses.of_detached hwf' hother
  · rintro ⟨e, he, -⟩
    simp [hnone] at he
  · rintro ⟨e, he, hattached, -⟩
    obtain rfl := Option.some.inj (hself.symm.trans he)
    contradiction

/-- Setting the fields of a timer out of the queue. -/
theorem progresses_set {tq : TimerqueueContext κ} (hwf : tq.Wf (some firing)) {p : ℕ}
    {e : TimerqueueElem κ} (he : tq.elems.search p = some e) (hdetached : e.attached = false)
    {f : TimerqueueElem κ → TimerqueueElem κ} (hdetached' : (f e).attached = false)
    (hexpire : (f e).expire = e.expire) (hcallback : (f e).active = true → (f e).callback ≠ none) :
  Progresses currtime firing keeper tq (tq.update p f)
  := by
  apply Progresses.of_detached (p := p)
  · apply hwf.update he f (Or.inr ⟨hdetached'.trans hdetached.symm, hexpire⟩) hcallback
  · intro q hq
    rw [search_update, if_neg hq]
  · apply not_attached_of_detached he hdetached
  · rintro ⟨e', he', hattached, -⟩
    rw [search_update_self he] at he'
    obtain rfl := Option.some.inj he'
    simp [hdetached'] at hattached

/-- Registering a timer out of the queue, as one that is not due. -/
theorem progresses_register {tq tq' : TimerqueueContext κ} (hwf : tq.Wf (some firing))
    (hfiring : tq.Attached firing) {p : ℕ} {e : TimerqueueElem κ}
    (he : tq.elems.search p = some e) (hdetached : e.attached = false)
    (hcallback : e.callback ≠ none) {now : Timespec}
    (htq' : tq.timerqueueRegisterTimer now p = some tq') (hdue : ¬ tq'.Due currtime p) :
  Progresses currtime firing keeper tq tq'
  := by
  have hnot := not_attached_of_detached he hdetached
  have hp : some p ≠ some firing := by
    intro heq
    obtain rfl := Option.some.inj heq
    apply hnot hfiring
  apply Progresses.of_detached (hwf.register hp he hdetached hcallback htq') _ hnot hdue
  intro q hq
  rw [search_register he htq', if_neg hq]

/-- Reactivating a timer, as one that is not due. -/
theorem progresses_reactivate {tq tq' : TimerqueueContext κ} (hwf : tq.Wf (some firing)) {p : ℕ}
    (hp : p ≠ firing) {e : TimerqueueElem κ} (he : tq.elems.search p = some e)
    (hcallback : e.callback ≠ none) {now : Timespec}
    (htq' : tq.timerqueueReactivateTimer now p = some tq') (hdue : ¬ tq'.Due currtime p) :
  Progresses currtime firing keeper tq tq'
  := by
  have hsearch := search_reactivate he htq'
  apply Progresses.of_change (p := p)
  · apply hwf.reactivate (fun heq => hp (Option.some.inj heq)) he hcallback htq'
  · intro q hq
    rw [hsearch, if_neg hq]
  · intro e' he' hattached hexpire
    apply absurd ⟨e', he', hattached, hexpire⟩ hdue
  · intro _ heq
    apply absurd heq hp
  · rintro - ⟨e₁, he₁, -, -, hperiodic⟩
    obtain rfl := Option.some.inj (he.symm.trans he₁)
    exact ⟨_, (hsearch p).trans (if_pos rfl), rfl, rfl, hperiodic⟩

/-- Making a timer inactive, and marking it as one to be freed or not. -/
theorem progresses_inactive {tq : TimerqueueContext κ} (hwf : tq.Wf (some firing)) {p : ℕ}
    (hp : p ≠ keeper) {e : TimerqueueElem κ} (he : tq.elems.search p = some e)
    {f : TimerqueueElem κ → TimerqueueElem κ} (hsame : SameTimes e (f e))
    (hactive : (f e).active = false) :
  Progresses currtime firing keeper tq (tq.update p f)
  := by
  have hsearch : (tq.update p f).elems.search p = some (f e) := search_update_self he f
  apply Progresses.of_change (p := p)
  · apply hwf.update he f (Or.inr ⟨hsame.attached, hsame.expire⟩)
    intro hactive'
    simp [hactive] at hactive'
  · intro q hq
    rw [search_update, if_neg hq]
  · intro e' he' _ _
    obtain rfl := Option.some.inj (hsearch.symm.trans he')
    refine ⟨e, he, hsame, ?_⟩
    intro hactive'
    simp [hactive] at hactive'
  · intro e' _ he' _
    obtain rfl := Option.some.inj (he.symm.trans he')
    exact ⟨f e, hsearch, hsame⟩
  · intro hkeeper
    apply absurd hkeeper hp

/-- Freeing a timer. -/
theorem progresses_free {tq tq' : TimerqueueContext κ} (hwf : tq.Wf (some firing)) {p : ℕ}
    (hp : p ≠ keeper) (htq' : tq.timerqueueFreeTimer p = some tq') :
  Progresses currtime firing keeper tq tq'
  := by
  have hwf' := (free_drops htq').wf _ hwf
  simp only [timerqueueFreeTimer, Option.bind_eq_bind, Option.bind_eq_some_iff,
    Option.pure_def] at htq'
  obtain ⟨e, he, htq'⟩ := htq'
  cases hattached : e.attached with
  | true =>
      rw [hattached, if_pos rfl] at htq'
      obtain rfl := Option.some.inj htq'
      exact progresses_inactive hwf hp he ⟨rfl, rfl, rfl, rfl, rfl⟩ rfl
  | false =>
      rw [hattached, if_neg Bool.false_ne_true] at htq'
      obtain rfl := Option.some.inj htq'
      apply Progresses.of_detached hwf' (p := p)
      · intro q hq
        apply Eq.trans (OrdMap.search_erase _ _ _)
        rw [if_neg hq]
      · apply not_attached_of_detached he hattached
      · rintro ⟨e', he', -⟩
        rw [OrdMap.search_erase, if_pos rfl] at he'
        contradiction

/-- A use of a queue by a callback makes no timer due, and keeps the timer that is fired. -/
theorem Act.progresses {tq tq' : TimerqueueContext κ} (h : Act currtime firing keeper tq tq')
    (hwf : tq.Wf (some firing)) (hfiring : tq.Attached firing) :
  Progresses currtime firing keeper tq tq'
  := by
  cases h with
  | new => apply progresses_newTimer hwf
  | set f he hdetached hdetached' _ hexpire hcallback =>
      apply progresses_set hwf he hdetached hdetached' hexpire hcallback
  | @register p e now _ he hdetached hcallback hpos hlt hnormal hnow htq' =>
      apply progresses_register hwf hfiring he hdetached hcallback htq'
      apply not_due_registered ((search_register he htq' p).trans (if_pos rfl)) rfl hpos hlt
        hnormal hnow
  | @reactivate p e now _ hp he hcallback hpos hlt hnormal hnow htq' =>
      apply progresses_reactivate hwf hp he hcallback htq'
      apply not_due_registered ((search_reactivate he htq' p).trans (if_pos rfl)) rfl hpos hlt
        hnormal hnow
  | deactivate hp hmem =>
      obtain ⟨e, he⟩ := OrdMap.mem_iff.mp hmem
      exact progresses_inactive hwf hp he ⟨rfl, rfl, rfl, rfl, rfl⟩ rfl
  | free hp htq' => apply progresses_free hwf hp htq'

/-- What holds of one use of a queue holds of any number of them. -/
theorem Acts.progresses {tq tq' : TimerqueueContext κ} (h : Acts currtime firing keeper tq tq')
    (hwf : tq.Wf (some firing)) (hfiring : tq.Attached firing) :
  Progresses currtime firing keeper tq tq'
  := by
  induction h with
  | refl => apply Progresses.refl hwf
  | tail _ hact ih =>
      obtain ⟨e, he, hattached⟩ := hfiring
      obtain ⟨e', he', hsame⟩ := ih.firing e he hattached
      apply ih.trans
      apply hact.progresses ih.wf ⟨e', he', hsame.attached.trans hattached⟩

end TimerqueueContext
