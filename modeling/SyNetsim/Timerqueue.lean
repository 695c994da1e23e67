import SyNetsim.Lib.OrdMap
import Mathlib.Data.Prod.Lex
import Mathlib.Tactic.Use

/-!
# Timer queues

The timer queue of `ext/timerqueue`: a tree of timers ordered by their time of expiry, with
the flags `active`, `attached` and `free_on_detach` of each timer, and the loop of
`timerqueue_work` that fires the timers that are due.

A timer is known by its pointer, a number given by `timerqueueNewTimer`. The queue keeps the
timers allocated (`elems`) and the tree of those in the queue (`rbt`), whose keys are pairs of
an expiry time and a pointer. Using a pointer whose timer has been freed gives `none`.

A timer holds its callback together with the argument of the callback, as a value of a type
`κ`. What a callback does is given by a `TqClient`, since it acts on the state of the program
the queue is part of. The field `detached_callback` is left out: it is NULL in every timer of a
routing protocol, and the program that sets it (`Simnet.Dummy`) calls it after the round.

`Armed tq c p` says that the timer `p` is active, in the queue and has the callback `c`. The
operations keep a queue well formed (`Wf`) and change `Armed` at one timer only.
-/

/-! ### Times -/

/-- A `struct timespec`. -/
@[ext]
structure Timespec where
  /-- The seconds `tv_sec`. -/
  tvSec : ℕ
  /-- The nanoseconds `tv_nsec`. -/
  tvNsec : ℕ
deriving DecidableEq, Inhabited

/-- Conversion of an `int` to `unsigned long`. -/
def toUlong (x : ℤ) : ℕ := (x % 2 ^ 64).toNat

/-- Conversion of an unsigned value to `int`. -/
def toInt (n : ℕ) : ℤ := (BitVec.ofNat 32 n).toInt

/-- The result of `int` arithmetic, which wraps around where it does not fit. -/
def wrapInt (x : ℤ) : ℤ := (BitVec.ofInt 32 x).toInt

/-- `timespec_add_usec`: add microseconds, in 64-bit unsigned arithmetic. -/
def timespecAddUsec (t : Timespec) (usec : ℕ) : Timespec :=
  let add := (t.tvNsec + usec * 1000) % 2 ^ 64
  ⟨t.tvSec + add / 1000000000, add % 1000000000⟩

/-- `check_expire`: the time `expiretime` has come at `currtime`. -/
def checkExpire (expiretime currtime : Timespec) : Bool :=
  if expiretime.tvSec = currtime.tvSec then expiretime.tvNsec ≤ currtime.tvNsec
  else expiretime.tvSec < currtime.tvSec

/-- A small value as an `unsigned long`. -/
theorem toUlong_natCast {n : ℕ} (hn : n < 2 ^ 64) :
  toUlong (n : ℤ) = n
  := by
  rw [toUlong, Int.emod_eq_of_lt (by omega) (by omega), Int.toNat_natCast]

/-- A negative `int` as an `unsigned long`. -/
theorem toUlong_neg {m : ℕ} (hm : m ≤ 2 ^ 31) (hpos : 0 < m) :
  toUlong (-(m : ℤ)) = 2 ^ 64 - m
  := by
  have hmod : (-(m : ℤ)) % 2 ^ 64 = 2 ^ 64 - m := by
    rw [Int.emod_eq_iff (by decide)]
    omega
  rw [toUlong, hmod]
  omega

/-- A product of unsigned arithmetic modulo `w` that wraps around a thousand times, and stays a
little short of once more. -/
theorem add_mul_mod_wrapped {n m w : ℕ} (hn : n < m * 1000) (hm : m * 1000 ≤ w) :
  (n + (w - m) * 1000) % w = w + n - m * 1000
  := by
  have hsum : n + (w - m) * 1000 = (w + n - m * 1000) + w * 999 := by
    omega
  rw [hsum, Nat.add_mul_mod_self_left]
  apply Nat.mod_eq_of_lt
  omega

/-! ### Times in nanoseconds -/

/-- A time in nanoseconds. -/
def Timespec.ns (t : Timespec) : ℕ := t.tvSec * 1000000000 + t.tvNsec

theorem timespecAddUsec_normal (t : Timespec) (usec : ℕ) :
  (timespecAddUsec t usec).tvNsec < 1000000000
  := by
  apply Nat.mod_lt
  decide

/-- Microseconds are added, as long as the sum fits into 64 bits. -/
theorem timespecAddUsec_ns {t : Timespec} {usec : ℕ} (ht : t.tvNsec < 1000000000)
    (husec : usec < 2 ^ 32) :
  (timespecAddUsec t usec).ns = t.ns + usec * 1000
  := by
  have hmod : (t.tvNsec + usec * 1000) % 2 ^ 64 = t.tvNsec + usec * 1000 := by
    apply Nat.mod_eq_of_lt
    omega
  simp only [timespecAddUsec, Timespec.ns, hmod]
  omega

/-- Nothing is added to a time. -/
theorem timespecAddUsec_zero {t : Timespec} (ht : t.tvNsec < 1000000000) :
  timespecAddUsec t 0 = t
  := by
  have hmod : (t.tvNsec + 0 * 1000) % 2 ^ 64 = t.tvNsec := by
    omega
  ext
  · simp only [timespecAddUsec, hmod]
    omega
  · simp only [timespecAddUsec, hmod]
    omega

/-- A time that has come lies before the end of the current second. -/
theorem Timespec.ns_lt_of_due {t currtime : Timespec} (ht : t.tvNsec < 1000000000)
    (hdue : checkExpire t currtime = true) :
  t.ns < (currtime.tvSec + 1) * 1000000000
  := by
  have hsec : t.tvSec ≤ currtime.tvSec := by
    rw [checkExpire] at hdue
    split_ifs at hdue with heq
    · omega
    · have hlt := of_decide_eq_true hdue
      omega
  rw [Timespec.ns]
  omega

/-! ### Keys -/

/-- The key of a timer in the tree: its time of expiry, and its pointer to tell timers that
expire together apart. -/
@[ext]
structure TqKey where
  expire : Timespec
  ptr : ℕ
deriving DecidableEq

/-- A key as a triple, ordered lexicographically. -/
def TqKey.toTriple (k : TqKey) : ℕ ×ₗ ℕ ×ₗ ℕ :=
  toLex (k.expire.tvSec, toLex (k.expire.tvNsec, k.ptr))

theorem TqKey.toTriple_injective :
  Function.Injective TqKey.toTriple
  := by
  intro k k' h
  simp only [toTriple, EmbeddingLike.apply_eq_iff_eq, Prod.mk.injEq] at h
  apply TqKey.ext (Timespec.ext h.1 h.2.1) h.2.2

/-- `compare_elem`: keys are ordered by time, then by pointer. -/
instance : LinearOrder TqKey := LinearOrder.lift' TqKey.toTriple TqKey.toTriple_injective

/-! ### Timers and queues -/

/-- A `TimerqueueElem`, with callbacks in `κ`. -/
structure TimerqueueElem (κ : Type) where
  /-- The time of expiry, `priv_rbk.expire`. -/
  expire : Timespec
  maxJitter : ℤ
  active : Bool
  attached : Bool
  freeOnDetach : Bool
  intervalUs : ℤ
  useOnce : Bool
  /-- The fields `callback` and `arg`. -/
  callback : Option κ

/-- A timer with all fields zero. -/
def TimerqueueElem.zero {κ : Type} : TimerqueueElem κ where
  expire := ⟨0, 0⟩
  maxJitter := 0
  active := false
  attached := false
  freeOnDetach := false
  intervalUs := 0
  useOnce := false
  callback := none

/-- A `TimerqueueContext`. -/
structure TimerqueueContext (κ : Type) where
  /-- The timers allocated and not freed, by pointer. -/
  elems : OrdMap ℕ (TimerqueueElem κ)
  /-- The tree of the timers in the queue. -/
  rbt : OrdMap TqKey Unit
  /-- The pointer of the next timer allocated. -/
  nextPtr : ℕ

variable {κ : Type}

/-- `create_timerqueue`. -/
def createTimerqueue : TimerqueueContext κ := ⟨OrdMap.empty, OrdMap.empty, 0⟩

namespace TimerqueueContext

/-- Write to the fields of a timer. -/
def update (tq : TimerqueueContext κ) (p : ℕ) (f : TimerqueueElem κ → TimerqueueElem κ) :
    TimerqueueContext κ :=
  { tq with elems := tq.elems.modify p f }

/-- `timerqueue_new_timer`: a timer with all fields zero. -/
def timerqueueNewTimer (tq : TimerqueueContext κ) : ℕ × TimerqueueContext κ :=
  (tq.nextPtr,
    { tq with elems := tq.elems.insert tq.nextPtr .zero, nextPtr := tq.nextPtr + 1 })

/-- `timerqueue_free_timer`: a timer in the queue is freed when it is taken out. -/
def timerqueueFreeTimer (tq : TimerqueueContext κ) (p : ℕ) : Option (TimerqueueContext κ) := do
  let elem ← tq.elems.search p
  if elem.attached then
    return tq.update p (fun e => { e with active := false, freeOnDetach := true })
  else
    return { tq with elems := tq.elems.erase p }

/-- `timerqueue_register_timer`, at the time `now`. -/
def timerqueueRegisterTimer (tq : TimerqueueContext κ) (now : Timespec) (p : ℕ) :
    Option (TimerqueueContext κ) := do
  let elem ← tq.elems.search p
  let expire := timespecAddUsec now (toUlong elem.intervalUs)
  let tq := tq.update p (fun e => { e with expire := expire, attached := true, active := true })
  return { tq with rbt := tq.rbt.insert ⟨expire, p⟩ () }

/-- `timerqueue_reactivate_timer`, at the time `now`. -/
def timerqueueReactivateTimer (tq : TimerqueueContext κ) (now : Timespec) (p : ℕ) :
    Option (TimerqueueContext κ) := do
  let elem ← tq.elems.search p
  let tq :=
    if elem.attached then
      { tq.update p (fun e => { e with attached := false }) with
        rbt := tq.rbt.erase ⟨elem.expire, p⟩ }
    else tq
  tq.timerqueueRegisterTimer now p

/-- The fields the modules set before they register a new timer: a new timer with callback
`c`, interval and `use_once`, registered. -/
def startTimer (tq : TimerqueueContext κ) (now : Timespec) (c : κ) (intervalUs : ℤ)
    (useOnce : Bool) : Option (ℕ × TimerqueueContext κ) := do
  let (p, tq) := tq.timerqueueNewTimer
  let tq := tq.update p
    (fun e => { e with callback := some c, intervalUs := intervalUs, useOnce := useOnce })
  let tq ← tq.timerqueueRegisterTimer now p
  return (p, tq)

/-- Set the interval of a timer and reactivate it. -/
def restartTimer (tq : TimerqueueContext κ) (now : Timespec) (p : ℕ) (intervalUs : ℤ) :
    Option (TimerqueueContext κ) :=
  (tq.update p (fun e => { e with intervalUs := intervalUs })).timerqueueReactivateTimer now p

/-- The first timer of the tree, if it is due at `currtime`. -/
def firstDue (tq : TimerqueueContext κ) (currtime : Timespec) : Option TqKey :=
  match tq.rbt.first with
  | none => none
  | some (k, _) => if checkExpire k.expire currtime then some k else none

/-- The callback that a round of `timerqueue_work` at `currtime` runs: that of the first timer,
if it is due and active. -/
def fired (tq : TimerqueueContext κ) (currtime : Timespec) : Option κ := do
  let k ← tq.firstDue currtime
  let first ← tq.elems.search k.ptr
  if first.active then first.callback else none

/-- A round of `timerqueue_work` at `currtime` runs the callback of the timer `p`: it is the first
one, due and active. -/
def Fires (tq : TimerqueueContext κ) (currtime : Timespec) (p : ℕ) : Prop :=
  ∃ k elem, tq.firstDue currtime = some k ∧ k.ptr = p ∧ tq.elems.search p = some elem ∧
    elem.active = true

end TimerqueueContext

/-! ### The loop of `timerqueue_work` -/

/-- A program with a timer queue in its state: how to reach the queue, and what a callback
does. A callback that uses memory wrongly gives `none`. -/
structure TqClient (σ : Type) (κ : Type) where
  tq : σ → TimerqueueContext κ
  setTq : σ → TimerqueueContext κ → σ
  callback : κ → σ → Option σ
  tq_setTq : ∀ s q, tq (setTq s q) = q
  setTq_tq : ∀ s, setTq s (tq s) = s
  setTq_setTq : ∀ s q q', setTq (setTq s q) q' = setTq s q'

namespace TqClient

variable {σ : Type} (C : TqClient σ κ)

/-- The interval to the next expiry of a periodic timer, `rand` being the value of `rand()`, in
`int` arithmetic. -/
def newInterval (elem : TimerqueueElem κ) (rand : ℕ) : ℤ :=
  if elem.maxJitter = 0 then elem.intervalUs
  else
    let jitter := wrapInt (((rand % 100 + 1 : ℕ) : ℤ) * wrapInt (elem.maxJitter * 2))
    wrapInt (wrapInt (elem.intervalUs + jitter.tdiv 100) - elem.maxJitter)

/-- After the callback: a one-shot timer is detached, a periodic one queued again. -/
def requeue (rand : ℕ) (p : ℕ) (s : σ) : Option σ := do
  let first ← (C.tq s).elems.search p
  if first.useOnce then
    return C.setTq s ((C.tq s).update p (fun e => { e with active := false, attached := false }))
  else
    let expire := timespecAddUsec first.expire (toUlong (newInterval first rand))
    let tq := (C.tq s).update p (fun e => { e with expire := expire })
    return C.setTq s { tq with rbt := tq.rbt.insert ⟨expire, p⟩ () }

/-- The end of the loop body: a detached timer is freed if it was to be freed. -/
def detach (p : ℕ) (s : σ) : Option σ := do
  let first ← (C.tq s).elems.search p
  if first.attached = false ∧ first.freeOnDetach = true then
    return C.setTq s { C.tq s with elems := (C.tq s).elems.erase p }
  else
    return s

/-- The body of the loop, for the timer with key `k`: it leaves the tree, and if it is active
its callback is run. -/
def fire (rand : ℕ) (k : TqKey) (s : σ) : Option σ := do
  let s := C.setTq s { C.tq s with rbt := (C.tq s).rbt.erase k }
  let first ← (C.tq s).elems.search k.ptr
  let s ←
    if first.active then do
      let c ← first.callback
      let s ← C.callback c s
      C.requeue rand k.ptr s
    else
      some (C.setTq s ((C.tq s).update k.ptr (fun e => { e with attached := false })))
  C.detach k.ptr s

/-- One round of the loop of `timerqueue_work` at the time `currtime`: nothing is done when
no timer is due. -/
def workRound (currtime : Timespec) (rand : ℕ) (s : σ) : Option σ :=
  match (C.tq s).firstDue currtime with
  | none => some s
  | some k => C.fire rand k s

end TqClient

/-! ### Well-formed queues -/

namespace TimerqueueContext

/-- The timer `p` is active, in the queue and has the callback `c`. -/
def Armed (tq : TimerqueueContext κ) (c : κ) (p : ℕ) : Prop :=
  ∃ e, tq.elems.search p = some e ∧ e.active = true ∧ e.attached = true ∧ e.callback = some c

/-- The queue is well formed: pointers are not given twice, an active timer has a callback, and
the tree holds exactly the attached timers under their times of expiry, except the timer `hole`
that is being fired. -/
structure Wf (tq : TimerqueueContext κ) (hole : Option ℕ) : Prop where
  fresh : ∀ p ∈ tq.elems, p < tq.nextPtr
  callback : ∀ p e, tq.elems.search p = some e → e.active = true → e.callback ≠ none
  tree : ∀ k, k ∈ tq.rbt ↔ some k.ptr ≠ hole ∧
    ∃ e, tq.elems.search k.ptr = some e ∧ e.attached = true ∧ e.expire = k.expire

/-- A timer has one callback. -/
theorem Armed.unique {tq : TimerqueueContext κ} {c d : κ} {p : ℕ} (h : tq.Armed c p)
    (h' : tq.Armed d p) :
  c = d
  := by
  obtain ⟨e, he, -, -, hc⟩ := h
  obtain ⟨e', he', -, -, hd⟩ := h'
  rw [he, Option.some.injEq] at he'
  rw [he', hd, Option.some.injEq] at hc
  apply hc.symm

theorem createTimerqueue_wf :
  (createTimerqueue : TimerqueueContext κ).Wf none
  where
  fresh p hp := absurd hp (OrdMap.not_mem_empty p)
  callback p e he := by simp [createTimerqueue] at he
  tree k := by simp [createTimerqueue]

/-- The timers found after writing to the fields of one. -/
theorem search_update (tq : TimerqueueContext κ) (p : ℕ)
    (f : TimerqueueElem κ → TimerqueueElem κ) (q : ℕ) :
  (tq.update p f).elems.search q
    = if q = p then (tq.elems.search p).map f else tq.elems.search q
  := OrdMap.search_modify tq.elems p f q

/-- The timer found after writing to its fields. -/
theorem search_update_self {tq : TimerqueueContext κ} {p : ℕ} {e : TimerqueueElem κ}
    (he : tq.elems.search p = some e) (f : TimerqueueElem κ → TimerqueueElem κ) :
  (tq.update p f).elems.search p = some (f e)
  := by
  rw [search_update, if_pos rfl, he, Option.map_some]

/-- The first timer that is due is in the tree. -/
theorem mem_of_firstDue {tq : TimerqueueContext κ} {currtime : Timespec} {k : TqKey}
    (h : tq.firstDue currtime = some k) :
  k ∈ tq.rbt
  := by
  rw [firstDue] at h
  cases hfirst : tq.rbt.first with
  | none =>
      rw [hfirst] at h
      contradiction
  | some kv =>
      obtain ⟨k', u⟩ := kv
      simp only [hfirst] at h
      split_ifs at h
      rw [← Option.some.inj h]
      apply OrdMap.mem_of_search (OrdMap.search_first hfirst)

/-- The first timer that is due is due. -/
theorem due_of_firstDue {tq : TimerqueueContext κ} {currtime : Timespec} {k : TqKey}
    (h : tq.firstDue currtime = some k) :
  checkExpire k.expire currtime = true
  := by
  rw [firstDue] at h
  cases hfirst : tq.rbt.first with
  | none =>
      rw [hfirst] at h
      contradiction
  | some kv =>
      obtain ⟨k', u⟩ := kv
      simp only [hfirst] at h
      split_ifs at h with hdue
      rw [← Option.some.inj h]
      apply hdue

/-- A key before one that is due is due. -/
theorem checkExpire_of_le {k k' : TqKey} {currtime : Timespec} (hle : k ≤ k')
    (h : checkExpire k'.expire currtime = true) :
  checkExpire k.expire currtime = true
  := by
  have htriple : k.toTriple ≤ k'.toTriple := hle
  simp only [TqKey.toTriple, Prod.Lex.le_iff, ofLex_toLex] at htriple
  simp only [checkExpire] at h ⊢
  split_ifs at h ⊢ <;> simp only [decide_eq_true_eq] at h ⊢ <;> omega

/-- If a timer in the tree is due, there is a first one. -/
theorem firstDue_of_due {tq : TimerqueueContext κ} {currtime : Timespec} {k : TqKey}
    (hk : k ∈ tq.rbt) (hdue : checkExpire k.expire currtime = true) :
  ∃ k', tq.firstDue currtime = some k'
  := by
  obtain ⟨k', u, hfirst, hle⟩ := OrdMap.first_of_mem hk
  use k'
  rw [firstDue, hfirst]
  exact if_pos (checkExpire_of_le hle hdue)

/-- A round fires one timer. -/
theorem Fires.unique {tq : TimerqueueContext κ} {currtime : Timespec} {p q : ℕ}
    (h : tq.Fires currtime p) (h' : tq.Fires currtime q) :
  p = q
  := by
  obtain ⟨k, e, hk, rfl, -⟩ := h
  obtain ⟨k', e', hk', rfl, -⟩ := h'
  rw [Option.some.inj (hk.symm.trans hk')]

/-- Writing to the fields of a timer matters for that timer only. -/
theorem armed_update {tq : TimerqueueContext κ} {p : ℕ} {e : TimerqueueElem κ}
    (he : tq.elems.search p = some e) (f : TimerqueueElem κ → TimerqueueElem κ) (c : κ) (q : ℕ) :
  (tq.update p f).Armed c q ↔
    if q = p then (f e).active = true ∧ (f e).attached = true ∧ (f e).callback = some c
    else tq.Armed c q
  := by
  simp only [Armed, search_update]
  split_ifs with hq
  · simp [he]
  · rfl

/-! ### How the steps of the operations keep a queue well formed -/

/-- Writing to a timer without moving it, or while it is not in the tree, keeps the queue well
formed. -/
theorem Wf.update {tq : TimerqueueContext κ} {hole : Option ℕ} (h : tq.Wf hole) {p : ℕ}
    {e : TimerqueueElem κ} (he : tq.elems.search p = some e)
    (f : TimerqueueElem κ → TimerqueueElem κ)
    (hplace : some p = hole ∨ (f e).attached = e.attached ∧ (f e).expire = e.expire)
    (hcallback : (f e).active = true → (f e).callback ≠ none) :
  (tq.update p f).Wf hole
  where
  fresh q hq := by
    apply h.fresh q
    simpa [TimerqueueContext.update] using hq
  callback q e' he' hactive := by
    rw [search_update] at he'
    split_ifs at he' with hq
    · rw [he, Option.map_some, Option.some.injEq] at he'
      subst he'
      apply hcallback hactive
    · apply h.callback q e' he' hactive
  tree := by
    rintro ⟨t, q⟩
    apply Iff.trans (h.tree ⟨t, q⟩)
    simp only [search_update]
    by_cases hq : q = p
    · subst hq
      rcases hplace with hplace | ⟨hattached, hexpire⟩
      · simp [hplace]
      · simp [he, hattached, hexpire]
    · simp [hq]

/-- A timer out of the tree goes back in under its time of expiry. -/
theorem Wf.fill {tq : TimerqueueContext κ} {p : ℕ} (h : tq.Wf (some p)) {e : TimerqueueElem κ}
    (he : tq.elems.search p = some e) (hattached : e.attached = true) :
  Wf { tq with rbt := tq.rbt.insert ⟨e.expire, p⟩ () } none
  where
  fresh := h.fresh
  callback := h.callback
  tree := by
    rintro ⟨t, q⟩
    simp only [OrdMap.mem_insert, TqKey.mk.injEq, ne_eq, reduceCtorEq, not_false_eq_true, true_and]
    rw [h.tree]
    by_cases hq : q = p
    · subst hq
      simp only [he, hattached, Option.some.injEq, exists_eq_left', true_and, and_true,
        not_true_eq_false, ne_eq, false_and, or_false]
      apply eq_comm
    · simp [hq]

/-- A timer out of the tree and not marked as attached may stay out. -/
theorem Wf.close {tq : TimerqueueContext κ} {p : ℕ} (h : tq.Wf (some p))
    (hdetached : ∀ e, tq.elems.search p = some e → e.attached = false) :
  tq.Wf none
  where
  fresh := h.fresh
  callback := h.callback
  tree := by
    rintro ⟨t, q⟩
    rw [h.tree]
    by_cases hq : q = p
    · subst hq
      simp only [not_true_eq_false, ne_eq, false_and, reduceCtorEq, not_false_eq_true,
        true_and, false_iff, not_exists, not_and]
      intro e he hattached
      rw [hdetached e he] at hattached
      contradiction
    · simp [hq]

/-- A timer not marked as attached is out of the tree. -/
theorem Wf.open {tq : TimerqueueContext κ} {p : ℕ} (h : tq.Wf none)
    (hdetached : ∀ e, tq.elems.search p = some e → e.attached = false) :
  tq.Wf (some p)
  where
  fresh := h.fresh
  callback := h.callback
  tree := by
    rintro ⟨t, q⟩
    rw [h.tree]
    by_cases hq : q = p
    · subst hq
      simp only [not_true_eq_false, ne_eq, false_and, reduceCtorEq, not_false_eq_true,
        true_and, iff_false, not_exists, not_and]
      intro e he hattached
      rw [hdetached e he] at hattached
      contradiction
    · simp [hq]

/-- Without a key in the tree the queue is well formed apart from the timer of the key. -/
theorem Wf.take {tq : TimerqueueContext κ} {k : TqKey} (h : tq.Wf none) (hk : k ∈ tq.rbt) :
  Wf { tq with rbt := tq.rbt.erase k } (some k.ptr)
  where
  fresh := h.fresh
  callback := h.callback
  tree := by
    obtain ⟨-, e, he, -, hexpire⟩ := (h.tree k).mp hk
    rintro ⟨t, q⟩
    rw [OrdMap.mem_erase, h.tree]
    by_cases hq : q = k.ptr
    · subst hq
      simp only [he, Option.some.injEq, exists_eq_left', not_true_eq_false, ne_eq, false_and,
        iff_false, not_and]
      rintro hne - - rfl
      apply hne
      rw [hexpire]
    · have hne : (⟨t, q⟩ : TqKey) ≠ k := by
        rintro rfl
        apply hq rfl
      simp [hq, hne]

/-- What is due, if anything: the first timer, which is attached, and the queue is well formed
without it. -/
theorem Wf.firstDue_cases {tq : TimerqueueContext κ} (h : tq.Wf none) (currtime : Timespec) :
  tq.firstDue currtime = none ∨
    ∃ k e, tq.firstDue currtime = some k ∧ k ∈ tq.rbt ∧ tq.elems.search k.ptr = some e ∧
      e.attached = true ∧ e.expire = k.expire ∧
      Wf { tq with rbt := tq.rbt.erase k } (some k.ptr) ∧
      (e.active = false ∨ e.active = true ∧ ∃ c, e.callback = some c ∧ tq.Armed c k.ptr)
  := by
  cases hdue : tq.firstDue currtime with
  | none =>
      left
      rfl
  | some k =>
      right
      have hk := mem_of_firstDue hdue
      obtain ⟨-, e, he, hattached, hexpire⟩ := (h.tree k).mp hk
      refine ⟨k, e, rfl, hk, he, hattached, hexpire, h.take hk, ?_⟩
      cases hactive : e.active with
      | false =>
          left
          rfl
      | true =>
          right
          obtain ⟨c, hc⟩ := Option.ne_none_iff_exists'.mp (h.callback k.ptr e he hactive)
          exact ⟨rfl, c, hc, e, he, hactive, hattached, hc⟩

/-- A timer out of the tree may be freed. -/
theorem Wf.free {tq : TimerqueueContext κ} {p : ℕ} (h : tq.Wf (some p)) :
  Wf { tq with elems := tq.elems.erase p } none
  where
  fresh q hq := h.fresh q (OrdMap.mem_erase.mp hq).2
  callback q e he := by
    rw [OrdMap.search_erase] at he
    split_ifs at he
    apply h.callback q e he
  tree := by
    rintro ⟨t, q⟩
    rw [h.tree]
    simp only [OrdMap.search_erase]
    by_cases hq : q = p
    · simp [hq]
    · simp [hq]

/-! ### The operations -/

/-- Registering a timer that is not in the tree arms it. -/
theorem register_spec {tq : TimerqueueContext κ} {p : ℕ} (h : tq.Wf (some p))
    {e : TimerqueueElem κ} (he : tq.elems.search p = some e) {c : κ} (hc : e.callback = some c)
    (now : Timespec) :
  ∃ tq', tq.timerqueueRegisterTimer now p = some tq' ∧ tq'.Wf none ∧
    ∀ d q, tq'.Armed d q ↔ if q = p then d = c else tq.Armed d q
  := by
  let expire := timespecAddUsec now (toUlong e.intervalUs)
  let f : TimerqueueElem κ → TimerqueueElem κ :=
    fun e => { e with expire := expire, attached := true, active := true }
  have hupdate : (tq.update p f).Wf (some p) := by
    apply h.update he f (Or.inl rfl)
    intro _
    simp [f, hc]
  have hsearch : (tq.update p f).elems.search p = some (f e) := by
    rw [search_update, if_pos rfl, he, Option.map_some]
  use { tq.update p f with rbt := (tq.update p f).rbt.insert ⟨expire, p⟩ () }
  and_intros
  · simp only [timerqueueRegisterTimer, he]
    rfl
  · apply hupdate.fill hsearch rfl
  · intro d q
    apply Iff.trans (armed_update he f d q)
    simp [f, hc, eq_comm]

/-- The timers found after one is registered. -/
theorem search_register {tq tq' : TimerqueueContext κ} {now : Timespec} {p : ℕ}
    {e : TimerqueueElem κ} (he : tq.elems.search p = some e)
    (h : tq.timerqueueRegisterTimer now p = some tq') (q : ℕ) :
  tq'.elems.search q = if q = p then
    some { e with
      expire := timespecAddUsec now (toUlong e.intervalUs), attached := true, active := true }
    else tq.elems.search q
  := by
  simp only [timerqueueRegisterTimer, he, Option.bind_eq_bind, Option.bind_some, Option.pure_def,
    Option.some.injEq] at h
  subst h
  apply Eq.trans (search_update _ p _ q)
  rw [he, Option.map_some]

/-- A new timer has all fields zero, and is the only change. -/
theorem newTimer_spec {tq : TimerqueueContext κ} {hole : Option ℕ} (h : tq.Wf hole) :
  tq.elems.search tq.nextPtr = none ∧ tq.timerqueueNewTimer.2.Wf hole ∧
    tq.timerqueueNewTimer.2.elems.search tq.nextPtr = some .zero ∧
    ∀ q, q ≠ tq.nextPtr → tq.timerqueueNewTimer.2.elems.search q = tq.elems.search q
  := by
  have hnone : tq.elems.search tq.nextPtr = none :=
    OrdMap.search_eq_none.mpr (fun hmem => lt_irrefl _ (h.fresh _ hmem))
  have hself : tq.timerqueueNewTimer.2.elems.search tq.nextPtr = some .zero := by
    apply Eq.trans (OrdMap.search_insert _ _ _ _)
    rw [if_pos rfl, hnone, Option.getD_none]
  have hother : ∀ q, q ≠ tq.nextPtr →
      tq.timerqueueNewTimer.2.elems.search q = tq.elems.search q := by
    intro q hq
    apply Eq.trans (OrdMap.search_insert _ _ _ _)
    rw [if_neg hq]
  refine ⟨hnone, ⟨?_, ?_, ?_⟩, hself, hother⟩
  · intro q hq
    rcases OrdMap.mem_insert.mp hq with rfl | hq
    · apply Nat.lt_succ_self
    · apply Nat.lt_succ_of_lt (h.fresh q hq)
  · intro q e he hactive
    by_cases hq : q = tq.nextPtr
    · subst hq
      rw [hself, Option.some.injEq] at he
      rw [← he] at hactive
      contradiction
    · rw [hother q hq] at he
      apply h.callback q e he hactive
  · rintro ⟨t, q⟩
    apply Iff.trans (h.tree ⟨t, q⟩)
    by_cases hq : q = tq.nextPtr
    · subst hq
      simp [hnone, hself, TimerqueueElem.zero]
    · rw [hother q hq]

/-- A new timer with the fields that `f` sets is registered, and the other timers are as before. -/
theorem registerNew_spec {tq : TimerqueueContext κ} (h : tq.Wf none) (now : Timespec)
    {f : TimerqueueElem κ → TimerqueueElem κ} {c : κ} (hc : (f .zero).callback = some c) :
  ∃ tq', (tq.timerqueueNewTimer.2.update tq.nextPtr f).timerqueueRegisterTimer now tq.nextPtr
      = some tq' ∧ tq'.Wf none ∧
    ∀ q, tq'.elems.search q = if q = tq.nextPtr then
      some { f .zero with
        expire := timespecAddUsec now (toUlong (f .zero).intervalUs)
        attached := true
        active := true }
      else tq.elems.search q
  := by
  obtain ⟨-, hwf₁, he, hother⟩ := newTimer_spec h
  let tq₁ := tq.timerqueueNewTimer.2
  have hopen : tq₁.Wf (some tq.nextPtr) := by
    apply hwf₁.open
    intro e' he'
    rw [he, Option.some.injEq] at he'
    rw [← he']
    rfl
  have hupdate : (tq₁.update tq.nextPtr f).Wf (some tq.nextPtr) := by
    apply hopen.update he f (Or.inl rfl)
    intro _
    simp [hc]
  have hsearch : (tq₁.update tq.nextPtr f).elems.search tq.nextPtr = some (f .zero) := by
    rw [search_update, if_pos rfl, he, Option.map_some]
  obtain ⟨tq', htq', hwf', -⟩ := register_spec hupdate hsearch hc now
  refine ⟨tq', htq', hwf', ?_⟩
  intro q
  rw [search_register hsearch htq']
  split_ifs with hq
  · rfl
  · rw [search_update, if_neg hq]
    apply hother q hq

/-- The timers found after a new one is started. -/
theorem startTimer_search {tq : TimerqueueContext κ} (h : tq.Wf none) (now : Timespec) (c : κ)
    (intervalUs : ℤ) (useOnce : Bool) :
  ∃ tq', tq.startTimer now c intervalUs useOnce = some (tq.nextPtr, tq') ∧ tq'.Wf none ∧
    ∀ q, tq'.elems.search q = if q = tq.nextPtr then
      some { (TimerqueueElem.zero : TimerqueueElem κ) with
        callback := some c
        intervalUs := intervalUs
        useOnce := useOnce
        expire := timespecAddUsec now (toUlong intervalUs)
        attached := true
        active := true }
      else tq.elems.search q
  := by
  let f : TimerqueueElem κ → TimerqueueElem κ := fun e =>
    { e with callback := some c, intervalUs := intervalUs, useOnce := useOnce }
  have hc : (f .zero).callback = some c := rfl
  obtain ⟨tq', htq', hwf', hsearch⟩ := registerNew_spec h now hc
  refine ⟨tq', ?_, hwf', hsearch⟩
  rw [startTimer]
  simp only [f] at htq'
  simp [timerqueueNewTimer] at htq' ⊢
  rw [htq']
  rfl

/-- A new timer started with callback `c` is armed. -/
theorem startTimer_spec {tq : TimerqueueContext κ} (h : tq.Wf none) (now : Timespec) (c : κ)
    (intervalUs : ℤ) (useOnce : Bool) :
  ∃ tq', tq.startTimer now c intervalUs useOnce = some (tq.nextPtr, tq') ∧ tq'.Wf none ∧
    ∀ d p, tq'.Armed d p ↔ tq.Armed d p ∨ d = c ∧ p = tq.nextPtr
  := by
  obtain ⟨hnone, -⟩ := newTimer_spec h
  obtain ⟨tq', htq', hwf', hsearch⟩ := startTimer_search h now c intervalUs useOnce
  refine ⟨tq', htq', hwf', ?_⟩
  intro d p
  rw [Armed, hsearch]
  split_ifs with hp
  · subst hp
    simp only [Armed, hnone, Option.some.injEq, exists_eq_left', true_and, reduceCtorEq,
      false_and, exists_false, false_or, and_true]
    apply eq_comm
  · simp only [Armed, hp, and_false, or_false]

/-- Reactivating a timer arms it, whether it is in the tree or not. -/
theorem reactivate_spec {tq : TimerqueueContext κ} (h : tq.Wf none) {p : ℕ}
    {e : TimerqueueElem κ} (he : tq.elems.search p = some e) {c : κ} (hc : e.callback = some c)
    (now : Timespec) :
  ∃ tq', tq.timerqueueReactivateTimer now p = some tq' ∧ tq'.Wf none ∧
    ∀ d q, tq'.Armed d q ↔ if q = p then d = c else tq.Armed d q
  := by
  cases hattached : e.attached with
  | false =>
      have hopen : tq.Wf (some p) := by
        apply h.open
        intro e' he'
        rw [he, Option.some.injEq] at he'
        rw [← he', hattached]
      obtain ⟨tq', htq', hwf', harmed⟩ := register_spec hopen he hc now
      use tq'
      refine ⟨?_, hwf', harmed⟩
      simpa [timerqueueReactivateTimer, he, hattached] using htq'
  | true =>
      let f : TimerqueueElem κ → TimerqueueElem κ := fun e => { e with attached := false }
      let tq₁ : TimerqueueContext κ := { tq with rbt := tq.rbt.erase ⟨e.expire, p⟩ }
      have hwf₁ : (tq₁.update p f).Wf (some p) := by
        have hk : ⟨e.expire, p⟩ ∈ tq.rbt := (h.tree _).mpr ⟨by simp, e, he, hattached, rfl⟩
        apply (h.take hk).update he f (Or.inl rfl)
        intro hactive
        apply h.callback p e he hactive
      have hsearch : (tq₁.update p f).elems.search p = some (f e) :=
        search_update_self he f
      obtain ⟨tq', htq', hwf', harmed⟩ := register_spec hwf₁ hsearch hc now
      use tq'
      refine ⟨?_, hwf', ?_⟩
      · simp only [timerqueueReactivateTimer, he, Option.bind_eq_bind, Option.bind_some,
          hattached, if_true]
        apply htq'
      · intro d q
        rw [harmed]
        split_ifs with hq
        · rfl
        · apply Iff.trans (armed_update he f d q)
          rw [if_neg hq]

/-- A timer that has been reactivated expires its interval after `now`. -/
theorem reactivate_expire {tq tq' : TimerqueueContext κ} {now : Timespec} {p : ℕ}
    (h : tq.timerqueueReactivateTimer now p = some tq') :
  ∃ e, tq'.elems.search p = some e ∧ e.expire = timespecAddUsec now (toUlong e.intervalUs)
  := by
  simp only [timerqueueReactivateTimer, timerqueueRegisterTimer, Option.bind_eq_bind,
    Option.bind_eq_some_iff, Option.pure_def, Option.some.injEq] at h
  obtain ⟨e, -, e', he', rfl⟩ := h
  simp only [search_update, if_true, he', Option.map_some]
  exact ⟨_, rfl, rfl⟩

/-- The timer `p` is allocated and marked as being in the queue. -/
def Attached (tq : TimerqueueContext κ) (p : ℕ) : Prop :=
  ∃ e, tq.elems.search p = some e ∧ e.attached = true

theorem Armed.attached {tq : TimerqueueContext κ} {c : κ} {p : ℕ} (h : tq.Armed c p) :
  tq.Attached p
  := by
  obtain ⟨e, he, -, hattached, -⟩ := h
  exact ⟨e, he, hattached⟩

/-! ### Timers that stay allocated -/

/-- The timer `p` is allocated with the callback `c`. -/
def Has (tq : TimerqueueContext κ) (c : κ) (p : ℕ) : Prop :=
  ∃ e, tq.elems.search p = some e ∧ e.callback = some c

/-- The timer `p` is allocated with the callback `c`, is in the queue if it is active, and is
not to be freed when it leaves the queue. -/
def Safe (tq : TimerqueueContext κ) (c : κ) (p : ℕ) : Prop :=
  ∃ e, tq.elems.search p = some e ∧ e.callback = some c ∧ e.freeOnDetach = false ∧
    (e.active = true → e.attached = true)

theorem Armed.has {tq : TimerqueueContext κ} {c : κ} {p : ℕ} (h : tq.Armed c p) :
  tq.Has c p
  := by
  obtain ⟨e, he, -, -, hc⟩ := h
  exact ⟨e, he, hc⟩

theorem Safe.has {tq : TimerqueueContext κ} {c : κ} {p : ℕ} (h : tq.Safe c p) :
  tq.Has c p
  := by
  obtain ⟨e, he, hc, -⟩ := h
  exact ⟨e, he, hc⟩

/-- A timer has one callback. -/
theorem Has.unique {tq : TimerqueueContext κ} {c d : κ} {p : ℕ} (h : tq.Has c p)
    (h' : tq.Has d p) :
  c = d
  := by
  obtain ⟨e, he, hc⟩ := h
  obtain ⟨e', he', hd⟩ := h'
  rw [he, Option.some.injEq] at he'
  rw [he', hd, Option.some.injEq] at hc
  apply hc.symm

/-- From `tq` to `tq'` no timer has been freed, is to be freed or has got another callback. -/
structure Grows (tq tq' : TimerqueueContext κ) : Prop where
  has : ∀ c p, tq.Has c p → tq'.Has c p
  safe : ∀ c p, tq.Safe c p → tq'.Safe c p

theorem Grows.refl (tq : TimerqueueContext κ) :
  tq.Grows tq
  := ⟨fun _ _ h => h, fun _ _ h => h⟩

theorem Grows.trans {tq tq' tq'' : TimerqueueContext κ} (h : tq.Grows tq') (h' : tq'.Grows tq'') :
  tq.Grows tq''
  := ⟨fun c p hp => h'.has c p (h.has c p hp), fun c p hp => h'.safe c p (h.safe c p hp)⟩

/-- The queue grows when one timer is made, or changed in its times and flags. -/
theorem Grows.of_search {tq tq' : TimerqueueContext κ} {p : ℕ} {e' : TimerqueueElem κ}
    (hsearch : ∀ q, tq'.elems.search q = if q = p then some e' else tq.elems.search q)
    (hkeep : ∀ e, tq.elems.search p = some e →
      e'.callback = e.callback ∧ e'.freeOnDetach = e.freeOnDetach)
    (hactive : e'.active = true → e'.attached = true) :
  tq.Grows tq'
  where
  has c q := by
    rintro ⟨e, he, hc⟩
    by_cases hq : q = p
    · subst hq
      obtain ⟨hcallback, -⟩ := hkeep e he
      refine ⟨e', ?_, hcallback.trans hc⟩
      rw [hsearch, if_pos rfl]
    · refine ⟨e, ?_, hc⟩
      rw [hsearch, if_neg hq]
      apply he
  safe c q := by
    rintro ⟨e, he, hc, hfree, hattached⟩
    by_cases hq : q = p
    · subst hq
      obtain ⟨hcallback, hfree'⟩ := hkeep e he
      refine ⟨e', ?_, hcallback.trans hc, hfree'.trans hfree, hactive⟩
      rw [hsearch, if_pos rfl]
    · refine ⟨e, ?_, hc, hfree, hattached⟩
      rw [hsearch, if_neg hq]
      apply he

/-- The timers found after one is reactivated. -/
theorem search_reactivate {tq tq' : TimerqueueContext κ} {now : Timespec} {p : ℕ}
    {e : TimerqueueElem κ} (he : tq.elems.search p = some e)
    (h : tq.timerqueueReactivateTimer now p = some tq') (q : ℕ) :
  tq'.elems.search q = if q = p then
    some { e with
      expire := timespecAddUsec now (toUlong e.intervalUs), attached := true, active := true }
    else tq.elems.search q
  := by
  cases hattached : e.attached with
  | false =>
      simp only [timerqueueReactivateTimer, he, Option.bind_eq_bind, Option.bind_some, hattached,
        Bool.false_eq_true, if_false] at h
      apply search_register he h
  | true =>
      simp only [timerqueueReactivateTimer, he, Option.bind_eq_bind, Option.bind_some, hattached,
        if_true] at h
      let tq₁ : TimerqueueContext κ := { tq with rbt := tq.rbt.erase ⟨e.expire, p⟩ }
      let f : TimerqueueElem κ → TimerqueueElem κ := fun e => { e with attached := false }
      have hsearch : (tq₁.update p f).elems.search p = some (f e) :=
        search_update_self he f
      apply Eq.trans (search_register hsearch h q)
      split_ifs with hq
      · rfl
      · apply Eq.trans (search_update tq₁ p f q)
        rw [if_neg hq]

/-- Reactivating a timer arms it, whether it is in the queue or not. -/
theorem reactivate_grows {tq : TimerqueueContext κ} (h : tq.Wf none) {c : κ} {p : ℕ}
    (hp : tq.Has c p) (now : Timespec) :
  ∃ tq', tq.timerqueueReactivateTimer now p = some tq' ∧ tq'.Wf none ∧ tq.Grows tq' ∧
    ∀ d q, tq'.Armed d q ↔ tq.Armed d q ∨ d = c ∧ q = p
  := by
  obtain ⟨e, he, hc⟩ := hp
  obtain ⟨tq', htq', hwf', harmed⟩ := reactivate_spec h he hc now
  refine ⟨tq', htq', hwf', ?_, ?_⟩
  · apply Grows.of_search (search_reactivate he htq')
    · intro e₁ he₁
      rw [he, Option.some.injEq] at he₁
      rw [← he₁]
      exact ⟨rfl, rfl⟩
    · intro _
      rfl
  · intro d q
    rw [harmed]
    by_cases hq : q = p
    · subst hq
      rw [if_pos rfl]
      constructor
      · rintro rfl
        right
        exact ⟨rfl, rfl⟩
      · rintro (hd | ⟨rfl, -⟩)
        · apply hd.has.unique ⟨e, he, hc⟩
        · rfl
    · simp [hq]

/-- Setting the interval of a timer and reactivating it arms it. -/
theorem restart_grows {tq : TimerqueueContext κ} (h : tq.Wf none) {c : κ} {p : ℕ}
    (hp : tq.Has c p) (now : Timespec) (intervalUs : ℤ) :
  ∃ tq', tq.restartTimer now p intervalUs = some tq' ∧ tq'.Wf none ∧ tq.Grows tq' ∧
    ∀ d q, tq'.Armed d q ↔ tq.Armed d q ∨ d = c ∧ q = p
  := by
  obtain ⟨e, he, hc⟩ := hp
  let f : TimerqueueElem κ → TimerqueueElem κ := fun e => { e with intervalUs := intervalUs }
  have hwf : (tq.update p f).Wf none := by
    apply h.update he f (Or.inr ⟨rfl, rfl⟩)
    intro _
    simp [f, hc]
  have hsearch : (tq.update p f).elems.search p = some (f e) := by
    rw [search_update, if_pos rfl, he, Option.map_some]
  obtain ⟨tq', htq', hwf', hgrows, harmed⟩ := reactivate_grows hwf ⟨f e, hsearch, hc⟩ now
  have harmed₁ : ∀ d q, (tq.update p f).Armed d q ↔ tq.Armed d q := by
    intro d q
    rw [armed_update he]
    split_ifs with hq
    · subst hq
      simp [Armed, he, f]
    · rfl
  refine ⟨tq', htq', hwf', Grows.trans ⟨?_, ?_⟩ hgrows, ?_⟩
  · rintro d q ⟨e₁, he₁, hd⟩
    by_cases hq : q = p
    · subst hq
      rw [he, Option.some.injEq] at he₁
      subst he₁
      exact ⟨f e, hsearch, hd⟩
    · refine ⟨e₁, ?_, hd⟩
      rw [search_update, if_neg hq]
      apply he₁
  · rintro d q ⟨e₁, he₁, hd⟩
    by_cases hq : q = p
    · subst hq
      rw [he, Option.some.injEq] at he₁
      subst he₁
      exact ⟨f e, hsearch, hd⟩
    · refine ⟨e₁, ?_, hd⟩
      rw [search_update, if_neg hq]
      apply he₁
  · intro d q
    rw [harmed, harmed₁]

/-- Making a timer inactive leaves it where it is. -/
theorem inactive_grows {tq : TimerqueueContext κ} {hole : Option ℕ} (h : tq.Wf hole) {c : κ} {p : ℕ}
    (hp : tq.Has c p) :
  (tq.update p (fun e => { e with active := false })).Wf hole ∧
    tq.Grows (tq.update p (fun e => { e with active := false })) ∧
    ∀ d q, (tq.update p (fun e => { e with active := false })).Armed d q ↔
      q ≠ p ∧ tq.Armed d q
  := by
  obtain ⟨e, he, -⟩ := hp
  let f : TimerqueueElem κ → TimerqueueElem κ := fun e => { e with active := false }
  and_intros
  · apply h.update he f (Or.inr ⟨rfl, rfl⟩)
    intro hactive
    contradiction
  · have hsearch : ∀ q, (tq.update p f).elems.search q =
        if q = p then some (f e) else tq.elems.search q := by
      intro q
      rw [search_update, he, Option.map_some]
    apply Grows.of_search hsearch
    · intro e₁ he₁
      rw [he, Option.some.injEq] at he₁
      rw [← he₁]
      exact ⟨rfl, rfl⟩
    · intro hactive
      contradiction
  · intro d q
    rw [armed_update he]
    by_cases hq : q = p
    · simp [hq]
    · simp [hq]

/-- A new timer started with callback `c` is armed, and the other timers are as before. -/
theorem startTimer_grows {tq : TimerqueueContext κ} (h : tq.Wf none) (now : Timespec) (c : κ)
    (intervalUs : ℤ) (useOnce : Bool) :
  ∃ tq', tq.startTimer now c intervalUs useOnce = some (tq.nextPtr, tq') ∧ tq'.Wf none ∧
    tq.Grows tq' ∧ tq'.Safe c tq.nextPtr ∧ tq.nextPtr ∉ tq.elems ∧
    ∀ d p, tq'.Armed d p ↔ tq.Armed d p ∨ d = c ∧ p = tq.nextPtr
  := by
  obtain ⟨hnone, -⟩ := newTimer_spec h
  obtain ⟨tq', htq', hwf', hsearch⟩ := startTimer_search h now c intervalUs useOnce
  obtain ⟨tq'', htq'', -, harmed⟩ := startTimer_spec h now c intervalUs useOnce
  rw [htq', Option.some.injEq, Prod.mk.injEq] at htq''
  obtain rfl := htq''.2
  refine ⟨tq', htq', hwf', ?_, ?_, OrdMap.search_eq_none.mp hnone, harmed⟩
  · apply Grows.of_search hsearch
    · intro e he
      rw [hnone] at he
      contradiction
    · intro _
      rfl
  · refine ⟨_, (hsearch _).trans (if_pos rfl), rfl, rfl, fun _ => rfl⟩

/-! ### Timers that are freed -/

/-- From `tq` to `tq'` the timers in `dropped` have been freed, or are to be freed when they
leave the queue. -/
structure Drops (dropped : ℕ → Prop) (tq tq' : TimerqueueContext κ) : Prop where
  wf : ∀ hole, tq.Wf hole → tq'.Wf hole
  attached : ∀ q, tq.Attached q → tq'.Attached q
  safe : ∀ c q, ¬ dropped q → tq.Safe c q → tq'.Safe c q
  armed : ∀ c q, tq'.Armed c q ↔ ¬ dropped q ∧ tq.Armed c q

theorem Drops.refl (tq : TimerqueueContext κ) :
  Drops (fun _ => False) tq tq
  := ⟨fun _ h => h, fun _ h => h, fun _ _ _ h => h, fun _ _ => by simp⟩

theorem Drops.trans {tq tq' tq'' : TimerqueueContext κ} {dropped dropped' : ℕ → Prop}
    (h : Drops dropped tq tq') (h' : Drops dropped' tq' tq'') :
  Drops (fun q => dropped q ∨ dropped' q) tq tq''
  where
  wf hole hwf := h'.wf hole (h.wf hole hwf)
  attached q hq := h'.attached q (h.attached q hq)
  safe c q hq hsafe := h'.safe c q (fun hd => hq (Or.inr hd))
    (h.safe c q (fun hd => hq (Or.inl hd)) hsafe)
  armed c q := by
    rw [h'.armed, h.armed]
    tauto

/-- A timer out of the queue may be freed at any time. -/
theorem Wf.erase {tq : TimerqueueContext κ} {hole : Option ℕ} (h : tq.Wf hole) {p : ℕ}
    {e : TimerqueueElem κ} (he : tq.elems.search p = some e) (hdetached : e.attached = false) :
  Wf { tq with elems := tq.elems.erase p } hole
  where
  fresh q hq := h.fresh q (OrdMap.mem_erase.mp hq).2
  callback q e he := by
    rw [OrdMap.search_erase] at he
    split_ifs at he
    apply h.callback q e he
  tree := by
    rintro ⟨t, q⟩
    rw [h.tree]
    simp only [OrdMap.search_erase]
    by_cases hq : q = p
    · subst hq
      simp [he, hdetached]
    · simp [hq]

/-- Freeing a timer drops it and no other. -/
theorem free_drops {tq tq' : TimerqueueContext κ} {p : ℕ}
    (h : tq.timerqueueFreeTimer p = some tq') :
  Drops (fun q => q = p) tq tq'
  := by
  simp only [timerqueueFreeTimer, Option.bind_eq_bind, Option.bind_eq_some_iff,
    Option.pure_def] at h
  obtain ⟨e, he, h⟩ := h
  cases hattached : e.attached with
  | true =>
      rw [hattached, if_pos rfl] at h
      obtain rfl := Option.some.inj h
      let f : TimerqueueElem κ → TimerqueueElem κ :=
        fun e => { e with active := false, freeOnDetach := true }
      constructor
      · intro hole hwf
        apply hwf.update he f (Or.inr ⟨rfl, rfl⟩)
        intro hactive
        contradiction
      · rintro q ⟨e', he', hattached'⟩
        rw [Attached, search_update]
        split_ifs with hq
        · use f e
          rw [he]
          exact ⟨rfl, hattached⟩
        · exact ⟨e', he', hattached'⟩
      · rintro c q hq ⟨e', he', hc⟩
        refine ⟨e', ?_, hc⟩
        rw [search_update, if_neg hq]
        apply he'
      · intro c q
        rw [armed_update he]
        by_cases hq : q = p
        · simp [hq]
        · simp [hq]
  | false =>
      rw [hattached, if_neg (by simp)] at h
      obtain rfl := Option.some.inj h
      constructor
      · intro hole hwf
        apply hwf.erase he hattached
      · rintro q ⟨e', he', hattached'⟩
        refine ⟨e', ?_, hattached'⟩
        rw [OrdMap.search_erase, if_neg]
        · apply he'
        · rintro rfl
          rw [he, Option.some.injEq] at he'
          rw [← he', hattached] at hattached'
          contradiction
      · rintro c q hq ⟨e', he', hc⟩
        refine ⟨e', ?_, hc⟩
        rw [OrdMap.search_erase, if_neg hq]
        apply he'
      · intro c q
        simp only [Armed, OrdMap.search_erase]
        by_cases hq : q = p
        · simp [hq]
        · simp [hq]

/-- A timer in the queue can be freed. -/
theorem Attached.free {tq : TimerqueueContext κ} {p : ℕ} (h : tq.Attached p) :
  ∃ tq', tq.timerqueueFreeTimer p = some tq'
  := by
  obtain ⟨e, he, hattached⟩ := h
  simp [timerqueueFreeTimer, he, hattached]

end TimerqueueContext

/-! ### One round of the loop -/

namespace TqClient

open TimerqueueContext

variable {σ : Type} (C : TqClient σ κ)

/-- Queueing a timer again changes the queue only. -/
theorem requeue_inv {rand p : ℕ} {s s' : σ} (h : C.requeue rand p s = some s') :
  ∃ q, s' = C.setTq s q
  := by
  simp only [requeue, Option.bind_eq_bind, Option.pure_def, Option.bind_eq_some_iff] at h
  obtain ⟨first, -, h⟩ := h
  split_ifs at h
  · exact ⟨_, (Option.some.inj h).symm⟩
  · exact ⟨_, (Option.some.inj h).symm⟩

/-- The end of the loop body changes the queue only. -/
theorem detach_inv {p : ℕ} {s s' : σ} (h : C.detach p s = some s') :
  ∃ q, s' = C.setTq s q
  := by
  simp only [detach, Option.bind_eq_bind, Option.pure_def, Option.bind_eq_some_iff] at h
  obtain ⟨first, -, h⟩ := h
  split_ifs at h
  · exact ⟨_, (Option.some.inj h).symm⟩
  · use C.tq s
    rw [C.setTq_tq, ← Option.some.inj h]

/-- A round with no crash either runs no callback, or runs one; apart from that it changes the
queue only. -/
theorem fire_inv {rand : ℕ} {k : TqKey} {s s' : σ} (h : C.fire rand k s = some s') :
  (∃ e q, (C.tq s).elems.search k.ptr = some e ∧ e.active = false ∧ s' = C.setTq s q) ∨
    ∃ e c s₁ q, (C.tq s).elems.search k.ptr = some e ∧ e.active = true ∧
      e.callback = some c ∧
      C.callback c (C.setTq s { C.tq s with rbt := (C.tq s).rbt.erase k }) = some s₁ ∧
      s' = C.setTq s₁ q
  := by
  simp only [fire, C.tq_setTq, Option.bind_eq_bind, Option.bind_eq_some_iff] at h
  obtain ⟨first, hfirst, h⟩ := h
  split_ifs at h with hactive
  · right
    obtain ⟨c, hc, h⟩ := Option.bind_eq_some_iff.mp h
    obtain ⟨s₁, hs₁, h⟩ := Option.bind_eq_some_iff.mp h
    obtain ⟨s₂, hs₂, hs'⟩ := Option.bind_eq_some_iff.mp h
    obtain ⟨q, rfl⟩ := C.requeue_inv hs₂
    obtain ⟨q', rfl⟩ := C.detach_inv hs'
    use first, c, s₁, q', hfirst, hactive, hc, hs₁
    apply C.setTq_setTq
  · left
    rw [C.setTq_setTq, Option.bind_some] at h
    obtain ⟨q', rfl⟩ := C.detach_inv h
    use first, q', hfirst
    simp [hactive, C.setTq_setTq]

/-- A round in which no timer is due does nothing. -/
theorem workRound_idle {s : σ} {currtime : Timespec}
    (hdue : (C.tq s).firstDue currtime = none) (rand : ℕ) :
  C.workRound currtime rand s = some s
  := by
  rw [workRound, hdue]

/-- A round in which a timer is due goes through the loop body for it. -/
theorem workRound_due {s : σ} {currtime : Timespec} {k : TqKey}
    (hdue : (C.tq s).firstDue currtime = some k) (rand : ℕ) :
  C.workRound currtime rand s = C.fire rand k s
  := by
  rw [workRound, hdue]

/-- A round with no crash runs the callback of the timer that fires, if there is one; apart from
that it changes the queue only. -/
theorem workRound_inv {currtime : Timespec} {rand : ℕ} {s s' : σ}
    (h : C.workRound currtime rand s = some s') :
  (∃ q, s' = C.setTq s q) ∨
    ∃ c q s₁ q', (C.tq s).fired currtime = some c ∧ C.callback c (C.setTq s q) = some s₁ ∧
      s' = C.setTq s₁ q'
  := by
  cases hdue : (C.tq s).firstDue currtime with
  | none =>
      rw [C.workRound_idle hdue] at h
      left
      use C.tq s
      rw [C.setTq_tq, ← Option.some.inj h]
  | some k =>
      rw [C.workRound_due hdue] at h
      rcases C.fire_inv h with ⟨e, q, -, -, rfl⟩ | ⟨e, c, s₁, q', he, hactive, hc, hs₁, rfl⟩
      · left
        exact ⟨q, rfl⟩
      · right
        refine ⟨c, _, s₁, q', ?_, hs₁, rfl⟩
        simp [fired, hdue, he, hactive, hc]

/-- Ending the loop body for a timer that is out of the tree, or back in it, leaves the queue
well formed and arms no timer. -/
theorem detach_spec {p : ℕ} {s : σ} (h : (C.tq s).Wf none) {e : TimerqueueElem κ}
    (he : (C.tq s).elems.search p = some e) :
  ∃ q', C.detach p s = some (C.setTq s q') ∧ q'.Wf none ∧
    ∀ d q, q'.Armed d q ↔ (C.tq s).Armed d q
  := by
  by_cases hfree : e.attached = false ∧ e.freeOnDetach = true
  · use { C.tq s with elems := (C.tq s).elems.erase p }
    and_intros
    · simp [detach, he, hfree]
    · apply Wf.free
      apply h.open
      intro e' he'
      rw [he, Option.some.injEq] at he'
      rw [← he', hfree.1]
    · intro d q
      simp only [Armed, OrdMap.search_erase]
      by_cases hq : q = p
      · subst hq
        simp [he, hfree.1]
      · simp [hq]
  · use C.tq s
    refine ⟨?_, h, fun d q => Iff.rfl⟩
    simp [detach, he, hfree, C.setTq_tq]

/-- After its callback, a timer still attached is detached or goes back into the tree. -/
theorem requeue_spec (rand : ℕ) {p : ℕ} {s : σ} (h : (C.tq s).Wf (some p))
    (hp : (C.tq s).Attached p) :
  ∃ q', C.requeue rand p s = some (C.setTq s q') ∧ q'.Wf none ∧ p ∈ q'.elems ∧
    (∀ d, q'.Armed d p → (C.tq s).Armed d p) ∧
    ∀ d q, q ≠ p → (q'.Armed d q ↔ (C.tq s).Armed d q)
  := by
  obtain ⟨e, he, hattached⟩ := hp
  cases honce : e.useOnce with
  | true =>
      let f : TimerqueueElem κ → TimerqueueElem κ :=
        fun e => { e with active := false, attached := false }
      have hsearch : ((C.tq s).update p f).elems.search p = some (f e) := by
        rw [search_update, if_pos rfl, he, Option.map_some]
      use (C.tq s).update p f
      and_intros
      · simp [requeue, he, honce, f]
      · have hupdate : ((C.tq s).update p f).Wf (some p) := by
          apply h.update he f (Or.inl rfl)
          intro hactive
          contradiction
        apply hupdate.close
        intro e' he'
        rw [hsearch, Option.some.injEq] at he'
        rw [← he']
      · apply OrdMap.mem_of_search hsearch
      · intro d hd
        rw [armed_update he, if_pos rfl] at hd
        simp [f] at hd
      · intro d q hq
        rw [armed_update he, if_neg hq]
  | false =>
      let expire := timespecAddUsec e.expire (toUlong (newInterval e rand))
      let f : TimerqueueElem κ → TimerqueueElem κ := fun e => { e with expire := expire }
      have hsearch : ((C.tq s).update p f).elems.search p = some (f e) := by
        rw [search_update, if_pos rfl, he, Option.map_some]
      have harmed : ∀ d q, ((C.tq s).update p f).Armed d q ↔ (C.tq s).Armed d q := by
        intro d q
        rw [armed_update he]
        split_ifs with hq
        · subst hq
          simp [Armed, he, f]
        · rfl
      use { (C.tq s).update p f with rbt := ((C.tq s).update p f).rbt.insert ⟨expire, p⟩ () }
      and_intros
      · simp [requeue, he, honce, f, expire]
      · have hupdate : ((C.tq s).update p f).Wf (some p) := by
          apply h.update he f (Or.inl rfl)
          intro hactive
          apply h.callback p e he hactive
        apply hupdate.fill hsearch hattached
      · apply OrdMap.mem_of_search hsearch
      · intro d hd
        apply (harmed d p).mp hd
      · intro d q _
        apply harmed d q

/-- A round for an inactive timer takes it out of the tree and arms no timer. -/
theorem fire_inactive {s : σ} (h : (C.tq s).Wf none) {k : TqKey} {e : TimerqueueElem κ}
    (hk : k ∈ (C.tq s).rbt) (he : (C.tq s).elems.search k.ptr = some e)
    (hactive : e.active = false) (rand : ℕ) :
  ∃ q', C.fire rand k s = some (C.setTq s q') ∧ q'.Wf none ∧
    ∀ d p, q'.Armed d p ↔ (C.tq s).Armed d p
  := by
  let tq₁ : TimerqueueContext κ := { C.tq s with rbt := (C.tq s).rbt.erase k }
  have hwf₁ : tq₁.Wf (some k.ptr) := h.take hk
  let f : TimerqueueElem κ → TimerqueueElem κ := fun e => { e with attached := false }
  have hsearch : (tq₁.update k.ptr f).elems.search k.ptr = some (f e) :=
    search_update_self he f
  have hwf₂ : (tq₁.update k.ptr f).Wf none := by
    have hupdate : (tq₁.update k.ptr f).Wf (some k.ptr) := by
      apply hwf₁.update he f (Or.inl rfl)
      intro hactive'
      rw [hactive] at hactive'
      contradiction
    apply hupdate.close
    intro e' he'
    rw [hsearch, Option.some.injEq] at he'
    rw [← he']
  have harmed : ∀ d q, (tq₁.update k.ptr f).Armed d q ↔ (C.tq s).Armed d q := by
    intro d q
    apply Iff.trans (armed_update he f d q)
    split_ifs with hq
    · subst hq
      simp [Armed, he, hactive, f]
    · rfl
  obtain ⟨q', hq', hwf', harmed'⟩ := C.detach_spec (s := C.setTq s (tq₁.update k.ptr f))
    (p := k.ptr) (by rw [C.tq_setTq]; apply hwf₂) (by rw [C.tq_setTq]; apply hsearch)
  use q'
  refine ⟨?_, hwf', ?_⟩
  · rw [C.setTq_setTq] at hq'
    rw [← hq', fire]
    simp [C.tq_setTq, C.setTq_setTq, he, hactive, tq₁, f]
  · intro d p
    rw [harmed', C.tq_setTq, harmed]

/-- A round for an active timer runs its callback. If the callback keeps the queue well formed
apart from the timer, and leaves the timer attached, then the queue is well formed after the
round, and no other timer is armed or disarmed after the callback. -/
theorem fire_active {s s₁ : σ} {k : TqKey} {e : TimerqueueElem κ} {c : κ}
    (he : (C.tq s).elems.search k.ptr = some e) (hactive : e.active = true)
    (hc : e.callback = some c)
    (hs₁ : C.callback c (C.setTq s { C.tq s with rbt := (C.tq s).rbt.erase k }) = some s₁)
    (h : (C.tq s₁).Wf (some k.ptr)) (hp : (C.tq s₁).Attached k.ptr) (rand : ℕ) :
  ∃ q', C.fire rand k s = some (C.setTq s₁ q') ∧ q'.Wf none ∧
    (∀ d, q'.Armed d k.ptr → (C.tq s₁).Armed d k.ptr) ∧
    ∀ d q, q ≠ k.ptr → (q'.Armed d q ↔ (C.tq s₁).Armed d q)
  := by
  obtain ⟨q₂, hq₂, hwf₂, hmem, hself, hother⟩ := C.requeue_spec rand h hp
  obtain ⟨e', he'⟩ := OrdMap.mem_iff.mp hmem
  obtain ⟨q', hq', hwf', harmed'⟩ := C.detach_spec (s := C.setTq s₁ q₂) (p := k.ptr)
    (by rw [C.tq_setTq]; apply hwf₂) (by rw [C.tq_setTq]; apply he')
  rw [C.tq_setTq] at harmed'
  use q'
  refine ⟨?_, hwf', ?_, ?_⟩
  · rw [C.setTq_setTq] at hq'
    rw [← hq', fire]
    simp [C.tq_setTq, he, hactive, hc, hs₁, hq₂]
  · intro d hd
    apply hself d ((harmed' d k.ptr).mp hd)
  · intro d q hq
    rw [harmed', hother d q hq]

/-- A round for an active periodic timer whose callback does not touch the queue moves it to its
next time of expiry. -/
theorem fire_periodic {s s₁ : σ} (h : (C.tq s).Wf none) {k : TqKey} {e : TimerqueueElem κ} {c : κ}
    (hk : k ∈ (C.tq s).rbt) (he : (C.tq s).elems.search k.ptr = some e)
    (hactive : e.active = true) (hc : e.callback = some c) (hperiodic : e.useOnce = false)
    (hs₁ : C.callback c (C.setTq s { C.tq s with rbt := (C.tq s).rbt.erase k }) = some s₁)
    (htq : C.tq s₁ = { C.tq s with rbt := (C.tq s).rbt.erase k }) (rand : ℕ) :
  ∃ q', C.fire rand k s = some (C.setTq s₁ q') ∧ q'.Wf none ∧
    q'.elems = (C.tq s).elems.modify k.ptr (fun e' => { e' with
      expire := timespecAddUsec e.expire (toUlong (newInterval e rand)) })
  := by
  obtain ⟨-, e', he', hattached, -⟩ := (h.tree k).mp hk
  rw [he, Option.some.injEq] at he'
  subst he'
  let expire := timespecAddUsec e.expire (toUlong (newInterval e rand))
  let f : TimerqueueElem κ → TimerqueueElem κ := fun e => { e with expire := expire }
  let tq₁ : TimerqueueContext κ := { C.tq s with rbt := (C.tq s).rbt.erase k }
  have hwf₁ : tq₁.Wf (some k.ptr) := h.take hk
  have hsearch : (tq₁.update k.ptr f).elems.search k.ptr = some (f e) :=
    search_update_self he f
  have hwf₂ : (tq₁.update k.ptr f).Wf (some k.ptr) := by
    apply hwf₁.update he f (Or.inl rfl)
    intro _
    simp [f, hc]
  refine ⟨{ tq₁.update k.ptr f with
    rbt := (tq₁.update k.ptr f).rbt.insert ⟨expire, k.ptr⟩ () }, ?_, ?_, rfl⟩
  · have hself : ((C.tq s).elems.modify k.ptr f).search k.ptr = some (f e) := hsearch
    simp only [fire, C.tq_setTq, he, Option.bind_eq_bind, Option.bind_some, hactive, if_true, hc,
      hs₁, requeue, htq, hperiodic, Bool.false_eq_true, if_false, Option.pure_def, detach,
      TimerqueueContext.update]
    rw [hself]
    simp [f, hattached, tq₁, expire]
  · apply hwf₂.fill hsearch hattached

/-- A round for an inactive timer that is to be freed frees it. -/
theorem fire_freed {s : σ} (h : (C.tq s).Wf none) {k : TqKey} {e : TimerqueueElem κ}
    (hk : k ∈ (C.tq s).rbt) (he : (C.tq s).elems.search k.ptr = some e)
    (hactive : e.active = false) (hfree : e.freeOnDetach = true) (rand : ℕ) :
  ∃ q', C.fire rand k s = some (C.setTq s q') ∧ q'.Wf none ∧
    ∀ p, q'.elems.search p = if p = k.ptr then none else (C.tq s).elems.search p
  := by
  let f : TimerqueueElem κ → TimerqueueElem κ := fun e => { e with attached := false }
  let tq₁ : TimerqueueContext κ := { C.tq s with rbt := (C.tq s).rbt.erase k }
  have hwf₁ : tq₁.Wf (some k.ptr) := h.take hk
  have hwf₂ : (tq₁.update k.ptr f).Wf (some k.ptr) := by
    apply hwf₁.update he f (Or.inl rfl)
    intro hactive'
    apply h.callback k.ptr e he hactive'
  have hsearch : ∀ p, (tq₁.update k.ptr f).elems.search p =
      if p = k.ptr then some (f e) else (C.tq s).elems.search p := by
    intro p
    rw [search_update]
    split_ifs
    · apply congrArg (Option.map f) he
    · rfl
  refine ⟨{ tq₁.update k.ptr f with elems := (tq₁.update k.ptr f).elems.erase k.ptr }, ?_,
    hwf₂.free, ?_⟩
  · have hself := hsearch k.ptr
    rw [if_pos rfl] at hself
    simp only [fire, C.tq_setTq, he, Option.bind_eq_bind, Option.bind_some, hactive,
      Bool.false_eq_true, if_false, C.setTq_setTq, detach]
    rw [hself]
    simp [f, hfree, tq₁]
  · intro p
    rw [OrdMap.search_erase, hsearch]
    split_ifs
    · rfl
    · rfl

/-- Queueing a timer again changes no other timer. -/
theorem requeue_search {rand p : ℕ} {s s' : σ} (h : C.requeue rand p s = some s') {q : ℕ}
    (hq : q ≠ p) :
  (C.tq s').elems.search q = (C.tq s).elems.search q
  := by
  simp only [requeue, Option.bind_eq_bind, Option.pure_def, Option.bind_eq_some_iff] at h
  obtain ⟨first, -, h⟩ := h
  split_ifs at h
  · rw [← Option.some.inj h, C.tq_setTq, search_update, if_neg hq]
  · rw [← Option.some.inj h, C.tq_setTq]
    apply Eq.trans (search_update _ p _ q)
    rw [if_neg hq]

/-- The end of the loop body changes no other timer. -/
theorem detach_search {p : ℕ} {s s' : σ} (h : C.detach p s = some s') {q : ℕ} (hq : q ≠ p) :
  (C.tq s').elems.search q = (C.tq s).elems.search q
  := by
  simp only [detach, Option.bind_eq_bind, Option.pure_def, Option.bind_eq_some_iff] at h
  obtain ⟨first, -, h⟩ := h
  split_ifs at h
  · rw [← Option.some.inj h, C.tq_setTq, OrdMap.search_erase, if_neg hq]
  · rw [← Option.some.inj h]

/-- A round for an active timer changes no timer but that one, apart from its callback. -/
theorem fire_search {rand : ℕ} {k : TqKey} {s s₁ s' : σ} (h : C.fire rand k s = some s')
    {e : TimerqueueElem κ} {c : κ} (he : (C.tq s).elems.search k.ptr = some e)
    (hactive : e.active = true) (hc : e.callback = some c)
    (hs₁ : C.callback c (C.setTq s { C.tq s with rbt := (C.tq s).rbt.erase k }) = some s₁) {q : ℕ}
    (hq : q ≠ k.ptr) :
  (C.tq s').elems.search q = (C.tq s₁).elems.search q
  := by
  simp only [fire, C.tq_setTq, he, Option.bind_eq_bind, Option.bind_some, hactive, if_true, hc,
    hs₁, Option.bind_eq_some_iff] at h
  obtain ⟨s₂, hs₂, h⟩ := h
  rw [C.detach_search h hq, C.requeue_search hs₂ hq]

/-- A round for an inactive timer keeps safe timers safe. -/
theorem fire_inactive_safe {rand : ℕ} {k : TqKey} {s s' : σ} (h : C.fire rand k s = some s')
    {e : TimerqueueElem κ} (he : (C.tq s).elems.search k.ptr = some e) (hactive : e.active = false)
    {c : κ} {q : ℕ} (hq : (C.tq s).Safe c q) :
  (C.tq s').Safe c q
  := by
  simp only [fire, C.tq_setTq, he, Option.bind_eq_bind, Option.bind_some, hactive,
    Bool.false_eq_true, if_false] at h
  obtain ⟨e', he', hc, hfree, hattached⟩ := hq
  by_cases hp : q = k.ptr
  · subst hp
    rw [he, Option.some.injEq] at he'
    subst he'
    let f : TimerqueueElem κ → TimerqueueElem κ := fun e => { e with attached := false }
    have hself : ((C.tq s).elems.modify k.ptr f).search k.ptr = some (f e) := by
      rw [OrdMap.search_modify, if_pos rfl, he, Option.map_some]
    simp only [detach, C.tq_setTq, C.setTq_setTq, TimerqueueContext.update, Option.bind_eq_bind,
      Option.pure_def] at h
    rw [hself] at h
    simp only [f, Option.bind_some, hfree, Bool.false_eq_true, and_false, if_false,
      Option.some.injEq] at h
    rw [← h]
    refine ⟨f e, ?_, hc, hfree, ?_⟩
    · rw [C.tq_setTq]
      apply hself
    · intro hactive'
      apply absurd hactive' (by simp [f, hactive])
  · refine ⟨e', ?_, hc, hfree, hattached⟩
    rw [C.detach_search h hp, C.tq_setTq]
    apply Eq.trans (search_update _ k.ptr _ q)
    rw [if_neg hp]
    apply he'

end TqClient
