import SyNetsim.Lib.OrdMap

/-!
# Traversals of a map that changes

A loop over the keys of a map that is part of a state, while the body of the loop changes the state
and with it the map. The next key is looked up in the map as it is by then.

If the keys stay the same, the loop goes through them in order, and what its body does for one key
after the other carries over to the loop (`OrdMap.forTree_rule`).
-/

namespace OrdMap

variable {α β σ : Type*} [LinearOrder α]

/-- The next key after `k`. -/
def next (m : OrdMap α β) (k : α) : Option α := m.keys.find? (fun k' => k < k')

/-- A loop over the keys of the map `tree s` of a state `s`, from a given key on, for at most `fuel`
tests. It gives `none` if the loop has not ended by then, or its body fails. -/
def forLoop (tree : σ → OrdMap α β) (body : σ → α → Option σ) :
    ℕ → σ → Option α → Option σ
  | 0, _, _ => none
  | _ + 1, s, none => some s
  | fuel + 1, s, some k => do
      let s ← body s k
      forLoop tree body fuel s ((tree s).next k)

/-- A loop over the keys of the map `tree s` of a state `s`. It gives `none` if it does not end
after as many keys as the map has at first. -/
def forTree (tree : σ → OrdMap α β) (body : σ → α → Option σ) (s : σ) : Option σ :=
  forLoop tree body ((tree s).count + 1) s ((tree s).first.map Prod.fst)

theorem first_map_fst (m : OrdMap α β) :
  m.first.map Prod.fst = m.keys.head?
  := by rw [first, keys, List.head?_map]

/-- The next key is the one that follows in the list of keys. -/
theorem next_eq_head? {m : OrdMap α β} {done rest : List α} {k : α}
    (h : m.keys = done ++ k :: rest) :
  m.next k = rest.head?
  := by
  have hsorted := m.keys_sorted
  rw [h, List.pairwise_append, List.pairwise_cons] at hsorted
  obtain ⟨-, ⟨hrest, -⟩, hdone⟩ := hsorted
  have hbefore : done.find? (fun k' => k < k') = none := by
    rw [List.find?_eq_none]
    intro k' hk'
    have hlt := hdone k' hk' k List.mem_cons_self
    simpa using hlt.le
  rw [next, h, List.find?_append, hbefore, Option.none_or, List.find?_cons_of_neg (by simp)]
  cases rest with
  | nil => rfl
  | cons k' rest =>
      apply List.find?_cons_of_pos
      simpa using hrest k' List.mem_cons_self

/-- The rule for a loop over a map whose keys stay the same. The invariant is about the keys that
the loop has gone through. -/
theorem forTree_rule {tree : σ → OrdMap α β} {body : σ → α → Option σ} {ks : List α}
    (I : List α → σ → Prop) (hkeys : ∀ done s, I done s → (tree s).keys = ks)
    (hbody : ∀ done k rest s, ks = done ++ k :: rest → I done s →
      ∃ s', body s k = some s' ∧ I (done ++ [k]) s')
    {s : σ} (hs : I [] s) :
  ∃ s', forTree tree body s = some s' ∧ I ks s'
  := by
  -- The loop from the keys `rest` on, when it has gone through the keys `done`.
  have hloop : ∀ (rest done : List α) (fuel : ℕ) (s : σ), ks = done ++ rest → rest.length < fuel →
      I done s → ∃ s', forLoop tree body fuel s rest.head? = some s' ∧ I ks s' := by
    intro rest
    induction rest with
    | nil =>
        intro done fuel s hks hfuel hs
        obtain ⟨fuel, rfl⟩ := Nat.exists_eq_succ_of_ne_zero (Nat.ne_zero_of_lt hfuel)
        rw [List.append_nil] at hks
        exact ⟨s, rfl, hks ▸ hs⟩
    | cons k rest ih =>
        intro done fuel s hks hfuel hs
        obtain ⟨fuel, rfl⟩ := Nat.exists_eq_succ_of_ne_zero (Nat.ne_zero_of_lt hfuel)
        obtain ⟨s₁, hs₁, hinv₁⟩ := hbody done k rest s hks hs
        have hnext : (tree s₁).next k = rest.head? :=
          next_eq_head? ((hkeys _ s₁ hinv₁).trans hks)
        obtain ⟨s', hs', hinv'⟩ := ih (done ++ [k]) fuel s₁ (by simp [hks])
          (Nat.lt_of_succ_lt_succ hfuel) hinv₁
        refine ⟨s', ?_, hinv'⟩
        simp [forLoop, hs₁, hnext, hs']
  have hstart := hkeys [] s hs
  obtain ⟨s', hs', hinv'⟩ := hloop ks [] ((tree s).count + 1) s rfl
    (by rw [← length_keys, hstart]; apply Nat.lt_succ_self) hs
  refine ⟨s', ?_, hinv'⟩
  rw [forTree, first_map_fst, hstart]
  apply hs'

end OrdMap
