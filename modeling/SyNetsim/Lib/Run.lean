import Mathlib.Data.List.Induction

/-!
# Runs

A system with a step function that takes an event, or fails. A run is a sequence of steps, and
a condition on the events restricts the runs. What every step preserves holds throughout a
run.
-/

variable {σ ε : Type*}

/-- `Reaches step ok s t`: events that meet the condition `ok` in the state they happen in
lead from `s` to `t`. -/
inductive Reaches (step : σ → ε → Option σ) (ok : σ → ε → Prop) (s : σ) : σ → Prop
  | refl : Reaches step ok s s
  | step {t u : σ} {e : ε} : Reaches step ok s t → ok t e → step t e = some u →
      Reaches step ok s u

namespace Reaches

variable {step : σ → ε → Option σ} {ok ok' : σ → ε → Prop}

/-- What the steps of a run preserve holds at its end if it holds at its start. -/
theorem invariant {Inv : σ → Prop}
    (hstep : ∀ s e t, Inv s → ok s e → step s e = some t → Inv t)
    {s t : σ} (h : Reaches step ok s t) (hs : Inv s) :
  Inv t
  := by
  induction h with
  | refl => apply hs
  | step _ hok hu ih => apply hstep _ _ _ ih hok hu

/-- A run under a condition is a run under any weaker one. -/
theorem mono (hok : ∀ s e, ok s e → ok' s e) {s t : σ} (h : Reaches step ok s t) :
  Reaches step ok' s t
  := by
  induction h with
  | refl => apply Reaches.refl
  | step _ h hu ih => apply ih.step (hok _ _ h) hu

/-- Runs can be put one after the other. -/
theorem trans {s t u : σ} (h : Reaches step ok s t) (h' : Reaches step ok t u) :
  Reaches step ok s u
  := by
  induction h' with
  | refl => apply h
  | step _ hok hu ih => apply ih.step hok hu

/-- A list of events that can be gone through, each checked before, is a run. -/
theorem of_checked {check : σ → ε → Bool} (hcheck : ∀ s e, check s e = true → ok s e)
    {events : List ε} {s t : σ}
    (h : events.foldlM (fun s e => if check s e then step s e else none) s = some t) :
  Reaches step ok s t
  := by
  induction events using List.reverseRecOn generalizing t with
  | nil =>
      obtain rfl := Option.some.inj h
      apply Reaches.refl
  | append_singleton events e ih =>
      rw [List.foldlM_append] at h
      obtain ⟨u, hu, ht⟩ := Option.bind_eq_some_iff.mp h
      rw [List.foldlM_cons] at ht
      obtain ⟨t', ht', hrefl⟩ := Option.bind_eq_some_iff.mp ht
      obtain rfl := Option.some.inj hrefl
      split_ifs at ht' with hok
      apply (ih hu).step (hcheck u e hok) ht'

/-- A list of events that can be gone through is a run. -/
theorem of_foldlM {events : List ε} {s t : σ} (h : events.foldlM step s = some t) :
  Reaches step (fun _ _ => True) s t
  := by
  have hchecked : events.foldlM (fun s e => if (fun _ _ => true) s e then step s e else none) s =
      some t := by
    simpa using h
  apply of_checked _ hchecked
  intro _ _ _
  trivial

end Reaches
