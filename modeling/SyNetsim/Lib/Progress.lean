import SyNetsim.Lib.Run

/-!
# Progress

A run with its history: the events, each with the state in which it happened. A system is shown to
get somewhere in rounds. If a run goes through an event that establishes some fact, and no step
takes the fact away again, then the fact holds at the end (`History.ensures`). The facts that the
rounds before have established are invariants of the round. What is known at the end of a run is
known when an event of it happens (`History.before`).
-/

variable {σ ε : Type*}

/-- `History step ok s log t`: events that meet the condition `ok` lead from `s` to `t`. The list
`log` holds them with the states in which they happened. -/
inductive History (step : σ → ε → Option σ) (ok : σ → ε → Prop) (s : σ) : List (σ × ε) → σ → Prop
  | nil : History step ok s [] s
  | concat {log : List (σ × ε)} {t u : σ} {e : ε} : History step ok s log t → ok t e →
      step t e = some u → History step ok s (log ++ [(t, e)]) u

namespace History

variable {step : σ → ε → Option σ} {ok : σ → ε → Prop} {s t : σ} {log : List (σ × ε)}

/-- Runs can be put one after the other. -/
theorem append {log' : List (σ × ε)} {u : σ} (h : History step ok s log t)
    (h' : History step ok t log' u) :
  History step ok s (log ++ log') u
  := by
  induction h' with
  | nil =>
      rw [List.append_nil]
      apply h
  | concat _ hok hu ih =>
      rw [← List.append_assoc]
      apply ih.concat hok hu

/-- What the steps preserve holds whenever an event happens, and at the end. -/
theorem invariant {Inv : σ → Prop} (hstep : ∀ s e t, Inv s → ok s e → step s e = some t → Inv t)
    (h : History step ok s log t) (hs : Inv s) :
  Inv t ∧ ∀ p ∈ log, Inv p.1
  := by
  induction h with
  | nil =>
      refine ⟨hs, ?_⟩
      intro p hp
      contradiction
  | concat _ hok hu ih =>
      obtain ⟨ht, hlog⟩ := ih
      refine ⟨hstep _ _ _ ht hok hu, ?_⟩
      intro p hp
      rcases List.mem_append.mp hp with hp | hp
      · apply hlog p hp
      · rw [List.mem_singleton.mp hp]
        apply ht

/-- A run can be cut in two at each of its events. -/
theorem split {log₁ log₂ : List (σ × ε)} {p : σ × ε}
    (h : History step ok s (log₁ ++ p :: log₂) t) :
  History step ok s log₁ p.1 ∧ ok p.1 p.2 ∧
    ∃ u, step p.1 p.2 = some u ∧ History step ok u log₂ t
  := by
  generalize hlog : log₁ ++ p :: log₂ = log at h
  induction h generalizing log₂ with
  | nil => simp at hlog
  | @concat log t u e hlog' hok hu ih =>
      rcases List.eq_nil_or_concat log₂ with rfl | ⟨log₂, q, rfl⟩
      · obtain ⟨rfl, hp⟩ := List.append_inj' hlog rfl
        obtain rfl := List.singleton_inj.mp hp
        exact ⟨hlog', hok, u, hu, History.nil⟩
      · rw [List.concat_eq_append, ← List.cons_append, ← List.append_assoc] at hlog
        obtain ⟨hlog₂, hq⟩ := List.append_inj' hlog rfl
        obtain rfl := List.singleton_inj.mp hq
        obtain ⟨hbefore, hok', u', hu', hafter⟩ := ih hlog₂
        rw [List.concat_eq_append]
        exact ⟨hbefore, hok', u', hu', hafter.concat hok hu⟩

/-- An event of a run happens after a run of its own. -/
theorem before (h : History step ok s log t) {p : σ × ε} (hp : p ∈ log) :
  ∃ log' u, History step ok s log' p.1 ∧ log' ⊆ log ∧ ok p.1 p.2 ∧ step p.1 p.2 = some u
  := by
  obtain ⟨log₁, log₂, rfl⟩ := List.append_of_mem hp
  obtain ⟨hlog₁, hok, u, hu, -⟩ := h.split
  exact ⟨log₁, u, hlog₁, List.subset_append_left _ _, hok, hu⟩

/-- A fact that an event of a run establishes, and no step takes away, holds at the end. -/
theorem ensures {Inv Goal : σ → Prop} {Does : σ → ε → Prop}
    (hstep : ∀ s e t, Inv s → ok s e → step s e = some t → Inv t)
    (hkeeps : ∀ s e t, Inv s → ok s e → step s e = some t → Goal s → Goal t)
    (hdoes : ∀ s e t, Inv s → ok s e → step s e = some t → Does s e → Goal t)
    (h : History step ok s log t) (hs : Inv s) (he : ∃ p ∈ log, Does p.1 p.2) :
  Goal t
  := by
  induction h with
  | nil =>
      obtain ⟨p, hp, -⟩ := he
      contradiction
  | concat hlog hok hu ih =>
      obtain ⟨ht, -⟩ := hlog.invariant hstep hs
      obtain ⟨p, hp, hp'⟩ := he
      rcases List.mem_append.mp hp with hp | hp
      · apply hkeeps _ _ _ ht hok hu (ih ⟨p, hp, hp'⟩)
      · rw [List.mem_singleton.mp hp] at hp'
        apply hdoes _ _ _ ht hok hu hp'

/-- A step that is checked before, and recorded. -/
def record (step : σ → ε → Option σ) (check : σ → ε → Bool) (p : List (σ × ε) × σ) (e : ε) :
    Option (List (σ × ε) × σ) :=
  (if check p.2 e then step p.2 e else none).map (fun u => (p.1 ++ [(p.2, e)], u))

end History
