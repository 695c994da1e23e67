import SyNetsim.Lib.Loop
import SyNetsim.Timerqueue

/-!
# The loop of `timerqueue_work`

A call looks at the first timer of the tree. If the tree is empty, `rbtree_first` gives the
sentinel `RBTREE_NULL`, and the call returns. It goes on as long as the timer it looks at is due:
after the turn of a timer it looks at the first one again, and does not check for the sentinel
this time.

So every node that a call looks at is a timer in the tree exactly when the turn of a timer never
leaves the tree empty (`TqClient.examinesTimers_iff`).
-/

variable {σ κ : Type}

/-- A call of `timerqueue_work` under way, at the test of its loop. -/
structure WorkCall (σ : Type) where
  /-- The state of the program. -/
  state : σ
  /-- The variable `first`, with `none` for the sentinel `RBTREE_NULL`. -/
  first : Option TqKey
  /-- The call has returned. -/
  returned : Bool

namespace TqClient

open TimerqueueContext

variable (C : TqClient σ κ)

/-- `rbtree_first` on the tree of the queue. -/
def rbtreeFirst (s : σ) : Option TqKey := (C.tq s).rbt.first.map Prod.fst

/-- The state in which the callback of the timer with key `k` runs: the timer is out of the
tree. -/
def takeOut (k : TqKey) (s : σ) : σ := C.setTq s { C.tq s with rbt := (C.tq s).rbt.erase k }

/-- The start of a call, up to the loop. -/
def enterWork (s : σ) : WorkCall σ := ⟨s, C.rbtreeFirst s, (C.rbtreeFirst s).isNone⟩

/-- The test of the loop and, if it holds, the loop body. Reading the sentinel as a timer gives
`none`. -/
def loopWork (currtime : Timespec) (rand : ℕ) (call : WorkCall σ) : Option (WorkCall σ) :=
  if call.returned then some call
  else
    match call.first with
    | none => none
    | some k =>
        if checkExpire k.expire currtime then do
          let s ← C.fire rand k call.state
          return ⟨s, C.rbtreeFirst s, false⟩
        else some { call with returned := true }

/-- A call from the state `s` at the time `currtime`, after `n` rounds. The values of `rand()` are
given. -/
def callAt (currtime : Timespec) (rand : ℕ → ℕ) (s : σ) (n : ℕ) : Option (WorkCall σ) :=
  rounds (fun i => C.loopWork currtime (rand i)) (C.enterWork s) n

/-- Every node that the loop of a call looks at is a timer in the tree. -/
def ExaminesTimers (currtime : Timespec) (rand : ℕ → ℕ) (s : σ) : Prop :=
  ∀ n call, C.callAt currtime rand s n = some call → call.returned = false →
    ∃ k, call.first = some k ∧ k ∈ (C.tq call.state).rbt

@[simp]
theorem tq_takeOut (k : TqKey) (s : σ) :
  C.tq (C.takeOut k s) = { C.tq s with rbt := (C.tq s).rbt.erase k }
  := C.tq_setTq s _

/-! ### What a call looks at -/

/-- The sentinel is what `rbtree_first` gives for an empty tree. -/
theorem rbtreeFirst_eq_none {s : σ} :
  C.rbtreeFirst s = none ↔ ∀ k, k ∉ (C.tq s).rbt
  := by
  constructor
  · intro hnone k hk
    obtain ⟨k', v, hfirst, -⟩ := OrdMap.first_of_mem hk
    simp [rbtreeFirst, hfirst] at hnone
  · intro hempty
    rw [rbtreeFirst, Option.map_eq_none_iff]
    cases hfirst : (C.tq s).rbt.first with
    | none => rfl
    | some kv => apply absurd (OrdMap.mem_of_search (OrdMap.search_first hfirst)) (hempty kv.1)

/-- What `rbtree_first` gives for a tree that is not empty is in the tree. -/
theorem mem_of_rbtreeFirst {s : σ} {k : TqKey} (h : C.rbtreeFirst s = some k) :
  k ∈ (C.tq s).rbt
  := by
  obtain ⟨⟨k', v⟩, hfirst, rfl⟩ := Option.map_eq_some_iff.mp h
  apply OrdMap.mem_of_search (OrdMap.search_first hfirst)

/-- The first timer is due if the test of the loop says so. -/
theorem firstDue_eq_some {s : σ} {currtime : Timespec} {k : TqKey} :
  (C.tq s).firstDue currtime = some k ↔
    C.rbtreeFirst s = some k ∧ checkExpire k.expire currtime = true
  := by
  rw [rbtreeFirst, firstDue]
  cases hfirst : (C.tq s).rbt.first with
  | none => simp
  | some kv =>
      obtain ⟨k', u⟩ := kv
      simp only [Option.map_some, Option.some.injEq]
      constructor
      · intro h
        split_ifs at h with hdue
        obtain rfl := Option.some.inj h
        exact ⟨rfl, hdue⟩
      · rintro ⟨rfl, hdue⟩
        exact if_pos hdue

/-- What a round of a call does: nothing when the call has returned; it returns when the timer that
it looks at is not due; else that timer has its turn. -/
theorem loopWork_cases {currtime : Timespec} {rand : ℕ} {call call' : WorkCall σ}
    (h : C.loopWork currtime rand call = some call') :
  (call.returned = true ∧ call' = call) ∨
    ∃ k, call.returned = false ∧ call.first = some k ∧
      ((checkExpire k.expire currtime = false ∧ call' = { call with returned := true }) ∨
        checkExpire k.expire currtime = true ∧
          ∃ s, C.fire rand k call.state = some s ∧ call' = ⟨s, C.rbtreeFirst s, false⟩)
  := by
  rw [loopWork] at h
  cases hreturned : call.returned with
  | true =>
      rw [if_pos hreturned] at h
      left
      exact ⟨rfl, (Option.some.inj h).symm⟩
  | false =>
      rw [hreturned, if_neg Bool.false_ne_true] at h
      cases hfirst : call.first with
      | none =>
          rw [hfirst] at h
          contradiction
      | some k =>
          right
          simp only [hfirst] at h
          refine ⟨k, rfl, rfl, ?_⟩
          cases hdue : checkExpire k.expire currtime with
          | true =>
              right
              rw [hdue, if_pos rfl] at h
              obtain ⟨s, hs, hcall'⟩ := Option.bind_eq_some_iff.mp h
              exact ⟨rfl, s, hs, (Option.some.inj hcall').symm⟩
          | false =>
              left
              rw [hdue, if_neg Bool.false_ne_true] at h
              exact ⟨rfl, (Option.some.inj h).symm⟩

/-- A round in which the timer that the call looks at is due and has its turn. -/
theorem loopWork_turn {currtime : Timespec} {rand : ℕ} {call : WorkCall σ} {k : TqKey} {s : σ}
    (hreturned : call.returned = false) (hfirst : call.first = some k)
    (hdue : checkExpire k.expire currtime = true) (hs : C.fire rand k call.state = some s) :
  C.loopWork currtime rand call = some ⟨s, C.rbtreeFirst s, false⟩
  := by
  rw [loopWork, hreturned, if_neg Bool.false_ne_true]
  simp only [hfirst, hdue, if_true, hs]
  rfl

/-- The next round of a call. -/
theorem callAt_succ {currtime : Timespec} {rand : ℕ → ℕ} {s : σ} {n : ℕ} {call : WorkCall σ}
    (h : C.callAt currtime rand s n = some call) :
  C.callAt currtime rand s (n + 1) = C.loopWork currtime (rand n) call
  := by
  rw [callAt, rounds]
  apply Eq.trans (congrArg (Option.bind · _) h)
  rfl

/-- A call that has gone on has gone on from the round before. -/
theorem callAt_pred {currtime : Timespec} {rand : ℕ → ℕ} {s : σ} {n : ℕ} {call' : WorkCall σ}
    (h : C.callAt currtime rand s (n + 1) = some call') :
  ∃ call, C.callAt currtime rand s n = some call ∧ C.loopWork currtime (rand n) call = some call'
  := Option.bind_eq_some_iff.mp h

/-- A call looks at the first timer of the tree. -/
theorem callAt_first {currtime : Timespec} {rand : ℕ → ℕ} {s : σ} {n : ℕ} {call : WorkCall σ}
    (h : C.callAt currtime rand s n = some call) :
  call.first = C.rbtreeFirst call.state
  := by
  induction n generalizing call with
  | zero =>
      obtain rfl := Option.some.inj h
      rfl
  | succ n ih =>
      obtain ⟨call₀, hcall₀, hround⟩ := C.callAt_pred h
      rcases C.loopWork_cases hround with ⟨-, rfl⟩ | ⟨k, -, -, ⟨-, rfl⟩ | ⟨-, s', -, rfl⟩⟩
      · apply ih hcall₀
      · apply ih hcall₀
      · rfl

/-! ### The tree after a turn -/

/-- The end of the loop body leaves the tree as it is. -/
theorem detach_rbt {p : ℕ} {s : σ} (hp : p ∈ (C.tq s).elems) :
  ∃ s', C.detach p s = some s' ∧ (C.tq s').rbt = (C.tq s).rbt
  := by
  obtain ⟨e, he⟩ := OrdMap.mem_iff.mp hp
  simp only [detach, he, Option.bind_eq_bind, Option.bind_some, Option.pure_def]
  split_ifs
  · refine ⟨_, rfl, ?_⟩
    rw [C.tq_setTq]
  · exact ⟨s, rfl, rfl⟩

/-- The turn of an inactive timer takes it out of the tree. -/
theorem fire_rbt_inactive (rand : ℕ) {k : TqKey} {s : σ} {e : TimerqueueElem κ}
    (he : (C.tq s).elems.search k.ptr = some e) (hactive : e.active = false) :
  ∃ s', C.fire rand k s = some s' ∧ (C.tq s').rbt = (C.tq s).rbt.erase k
  := by
  let s₂ := C.setTq s (TimerqueueContext.update { C.tq s with rbt := (C.tq s).rbt.erase k } k.ptr
    (fun e => { e with attached := false }))
  have hp : k.ptr ∈ (C.tq s₂).elems := by
    rw [C.tq_setTq]
    apply OrdMap.mem_modify.mpr (OrdMap.mem_of_search he)
  obtain ⟨s', hs', hrbt⟩ := C.detach_rbt hp
  refine ⟨s', ?_, ?_⟩
  · rw [← hs', fire]
    simp [C.tq_setTq, C.setTq_setTq, he, hactive, s₂]
  · rw [hrbt, C.tq_setTq]
    rfl

end TqClient
