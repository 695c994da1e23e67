import Mathlib.Data.Nat.Notation
import Mathlib.Order.Basic

/-!
# Loops

A loop whose body takes a state to the next one, or fails, and which is left when a test holds. It
returns if the states have a measure that every round makes smaller, and it does not if there is a
trap that it cannot get out of.
-/

variable {σ : Type*}

/-- The state after some rounds of a loop, of which the `i`-th is `round i`. -/
def rounds (round : ℕ → σ → Option σ) (s : σ) : ℕ → Option σ
  | 0 => some s
  | n + 1 => (rounds round s n).bind (round n)

/-- The loop returns: after some rounds, none of which fails, the test `done` holds. -/
def LoopReturns (round : ℕ → σ → Option σ) (done : σ → Prop) (s : σ) : Prop :=
  ∃ n t, rounds round s n = some t ∧ done t

/-- A loop returns if in every state with the invariant in which it is not left, a round succeeds,
keeps the invariant, and makes the measure smaller. The invariant may depend on the number of the
round. -/
theorem LoopReturns.of_measure {round : ℕ → σ → Option σ} {done : σ → Prop} {I : ℕ → σ → Prop}
    (μ : σ → ℕ)
    (hround : ∀ i s, I i s → ¬ done s → ∃ t, round i s = some t ∧ I (i + 1) t ∧ μ t < μ s)
    {s : σ} (hs : I 0 s) :
  LoopReturns round done s
  := by
  by_contra hnot
  have hrun : ∀ n, ∃ t, rounds round s n = some t ∧ I n t ∧ μ t + n ≤ μ s := by
    intro n
    induction n with
    | zero => exact ⟨s, rfl, hs, Nat.le_refl _⟩
    | succ n ih =>
        obtain ⟨t, ht, hinv, hmeasure⟩ := ih
        have hdone : ¬ done t := fun hdone => hnot ⟨n, t, ht, hdone⟩
        obtain ⟨u, hu, hinv', hless⟩ := hround n t hinv hdone
        refine ⟨u, ?_, hinv', ?_⟩
        · rw [rounds, ht]
          apply hu
        · omega
  obtain ⟨t, -, -, hmeasure⟩ := hrun (μ s + 1)
  omega

/-- A loop does not return if it starts in a trap, a set of states in which it is not left, and
which no round leads out of. -/
theorem LoopReturns.not_of_trap {round : ℕ → σ → Option σ} {done T : σ → Prop}
    (hdone : ∀ s, T s → ¬ done s) (hround : ∀ i s t, T s → round i s = some t → T t)
    {s : σ} (hs : T s) :
  ¬ LoopReturns round done s
  := by
  rintro ⟨n, t, ht, hleft⟩
  have htrap : T t := by
    clear hleft
    induction n generalizing t with
    | zero =>
        obtain rfl := Option.some.inj ht
        apply hs
    | succ n ih =>
        obtain ⟨u, hu, ht⟩ := Option.bind_eq_some_iff.mp ht
        apply hround n u t (ih u hu) ht
  apply hdone t htrap hleft
