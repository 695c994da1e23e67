import Mathlib.Data.Finset.Card
import Mathlib.Data.Multiset.Bind
import SyNetsim.Lib.Graph

/-!
# Flooding by relays

A message is flooded over a graph. Its originator sends a copy to all neighbours. A vertex that
hears a copy remembers that it has seen the message, and processes it if it had not seen it
before. It passes the message on once, when it hears it from a vertex whose relay it is. A copy
bears the number of transmissions it has left, and one that has a single transmission left is
neither remembered nor passed on.

Copies arrive in any order. If the originator allows for as many transmissions as there are
vertices, this number never cuts the flood short, since the vertices that have passed the
message on are different from each other. When no copy is on its way any more, every vertex
has processed the message once (`Inv.processed_of_quiet`).
-/

/-- The state of a flood. -/
@[ext]
structure Flood (V : Type*) where
  /-- The vertices that remember the message. -/
  seen : V → Bool
  /-- The vertices that have passed the message on. -/
  relayed : V → Bool
  /-- The copies that wait to be sent. -/
  waiting : V → Multiset ℕ
  /-- The copies on their way, each with sender and receiver. -/
  air : Multiset (V × V × ℕ)
  /-- How often a vertex has processed the message. -/
  processed : V → ℕ
  /-- How often a vertex has sent the message. -/
  sent : V → ℕ

namespace Flood

variable {V : Type*} [DecidableEq V] {G : SimpleGraph V} {range : V → List V}
  {relay : V → Set V} {o : V}

/-! ### Steps -/

/-- The copies that wait at `u` are sent to the vertices in range. -/
def send (range : V → List V) (s : Flood V) (u : V) : Flood V :=
  { s with
    waiting := Function.update s.waiting u 0
    air := s.air + (s.waiting u).bind (fun t =>
      (Multiset.ofList (range u)).map (fun v => (u, v, t)))
    sent := Function.update s.sent u (s.sent u + (s.waiting u).card) }

/-- The copy with `t` transmissions left arrives from `u` at `v`. The originator ignores it. -/
def hear (relay : V → Set V) [∀ u, DecidablePred (· ∈ relay u)] (o : V) (s : Flood V) (u v : V)
    (t : ℕ) : Flood V :=
  if v = o then { s with air := s.air.erase (u, v, t) }
  else
    { s with
      air := s.air.erase (u, v, t)
      seen := Function.update s.seen v (s.seen v || decide (1 < t))
      relayed := Function.update s.relayed v (s.relayed v || decide (1 < t ∧ v ∈ relay u))
      waiting := Function.update s.waiting v
        (s.waiting v + if 1 < t ∧ v ∈ relay u ∧ s.relayed v = false then {t - 1} else 0)
      processed := Function.update s.processed v (s.processed v + if s.seen v then 0 else 1) }

/-- A step of the flood: a vertex sends the copies that wait there, or a copy arrives. -/
inductive Step (range : V → List V) (relay : V → Set V) [∀ u, DecidablePred (· ∈ relay u)]
    (o : V) (s : Flood V) : Flood V → Prop
  | send (u : V) : Step range relay o s (s.send range u)
  | hear (u v : V) (t : ℕ) : (u, v, t) ∈ s.air → Step range relay o s (s.hear relay o u v t)

/-! ### The invariant -/

/-- The copy bears the number `t`. -/
def Bears (s : Flood V) (t : ℕ) : Prop :=
  (∃ u, t ∈ s.waiting u) ∨ ∃ u v, (u, v, t) ∈ s.air

/-- The vertex `v` has heard what `u` has sent. -/
def Heard (relay : V → Set V) (o : V) (s : Flood V) (u v : V) : Prop :=
  v = o ∨ s.seen v = true ∧ (v ∈ relay u → s.relayed v = true)

/-- What holds throughout a flood over the vertices `N`. -/
structure Inv (G : SimpleGraph V) (relay : V → Set V) (o : V) (N : Finset V) (s : Flood V) :
    Prop where
  origin : s.seen o = false
  relayed : ∀ v, s.relayed v = true → s.seen v = true
  once : ∀ u, (s.waiting u).card + s.sent u = if u = o ∨ s.relayed u = true then 1 else 0
  processed : ∀ v, s.processed v = if s.seen v then 1 else 0
  ttl : ∀ t, s.Bears t → N.card ≤ t + (N.filter (fun v => s.relayed v = true)).card
  adj : ∀ u v t, (u, v, t) ∈ s.air → G.Adj u v
  heard : ∀ u v, 0 < s.sent u → G.Adj u v → (∃ t, (u, v, t) ∈ s.air) ∨ Heard relay o s u v

/-- Sending keeps the invariant. -/
theorem Inv.send {N : Finset V} {s : Flood V} (h : Inv G relay o N s)
    (hrange : ∀ u v, v ∈ range u ↔ G.Adj u v) (u : V) :
  Inv G relay o N (s.send range u)
  where
  origin := h.origin
  relayed := h.relayed
  once w := by
    apply Eq.trans _ (h.once w)
    simp only [Flood.send, Function.update_apply]
    split_ifs with hw
    · rw [hw, Multiset.card_zero, Nat.zero_add, Nat.add_comm]
    · rfl
  processed := h.processed
  ttl t := by
    rintro (⟨w, hw⟩ | ⟨w, v, hw⟩)
    · apply h.ttl t
      left
      simp only [Flood.send, Function.update_apply] at hw
      split_ifs at hw
      · contradiction
      · exact ⟨w, hw⟩
    · apply h.ttl t
      simp only [Flood.send, Multiset.mem_add, Multiset.mem_bind, Multiset.mem_map,
        Prod.mk.injEq] at hw
      rcases hw with hw | ⟨t', ht', x, -, -, -, rfl⟩
      · right
        exact ⟨w, v, hw⟩
      · left
        exact ⟨u, ht'⟩
  adj w v t hw := by
    simp only [Flood.send, Multiset.mem_add, Multiset.mem_bind, Multiset.mem_map,
      Multiset.mem_coe, Prod.mk.injEq] at hw
    rcases hw with hw | ⟨t', -, x, hx, rfl, rfl, -⟩
    · apply h.adj w v t hw
    · apply (hrange u x).mp hx
  heard w v hw hadj := by
    by_cases hsent : 0 < s.sent w
    · rcases h.heard w v hsent hadj with ⟨t, ht⟩ | hheard
      · left
        exact ⟨t, Multiset.mem_add.mpr (Or.inl ht)⟩
      · right
        apply hheard
    · -- What is sent for the first time is what waited at `u`.
      simp only [Flood.send, Function.update_apply] at hw
      split_ifs at hw with hwu
      · subst hwu
        obtain ⟨t, ht⟩ := Multiset.card_pos_iff_exists_mem.mp
          (show 0 < (s.waiting w).card by omega)
        left
        use t
        simp only [Flood.send, Multiset.mem_add, Multiset.mem_bind, Multiset.mem_map,
          Multiset.mem_coe]
        right
        exact ⟨t, ht, v, (hrange w v).mpr hadj, rfl⟩
      · contradiction

/-- A vertex that has not passed the message on hears it with transmissions left. -/
theorem Inv.one_lt_ttl {N : Finset V} {s : Flood V} (h : Inv G relay o N s) (ho : o ∈ N)
    {u v : V} {t : ℕ} (hair : (u, v, t) ∈ s.air) (hv : v ∈ N) (hvo : v ≠ o)
    (hrelayed : s.relayed v = false) :
  1 < t
  := by
  have hsub : N.filter (fun v => s.relayed v = true) ⊆ (N.erase o).erase v := by
    intro w hw
    obtain ⟨hwN, hwr⟩ := Finset.mem_filter.mp hw
    rw [Finset.mem_erase, Finset.mem_erase]
    refine ⟨?_, ?_, hwN⟩
    · rintro rfl
      rw [hrelayed] at hwr
      contradiction
    · rintro rfl
      have hseen := h.relayed w hwr
      rw [h.origin] at hseen
      contradiction
  have hle := Finset.card_le_card hsub
  have hcard : ((N.erase o).erase v).card + 1 = (N.erase o).card :=
    Finset.card_erase_add_one (Finset.mem_erase.mpr ⟨hvo, hv⟩)
  have hcard' : (N.erase o).card + 1 = N.card := Finset.card_erase_add_one ho
  have httl := h.ttl t (Or.inr ⟨u, v, hair⟩)
  omega

/-- A copy that arrives at a vertex that has heard its sender may be dropped. -/
theorem Inv.drop {N : Finset V} {s : Flood V} (h : Inv G relay o N s) {u v : V} {t : ℕ}
    (hheard : Heard relay o s u v) :
  Inv G relay o N { s with air := s.air.erase (u, v, t) }
  where
  origin := h.origin
  relayed := h.relayed
  once := h.once
  processed := h.processed
  ttl t' := by
    rintro (hwait | ⟨w, x, hx⟩)
    · apply h.ttl t' (Or.inl hwait)
    · apply h.ttl t' (Or.inr ⟨w, x, Multiset.mem_of_mem_erase hx⟩)
  adj w x t' hx := h.adj w x t' (Multiset.mem_of_mem_erase hx)
  heard w x hsent hadj := by
    rcases h.heard w x hsent hadj with ⟨t', ht'⟩ | hheard'
    · by_cases heq : (w, x, t') = (u, v, t)
      · obtain ⟨rfl, rfl, rfl⟩ := Prod.mk.inj heq |>.imp_right Prod.mk.inj
        right
        apply hheard
      · left
        exact ⟨t', (Multiset.mem_erase_of_ne heq).mpr ht'⟩
    · right
      apply hheard'

section Hear

variable [∀ u, DecidablePred (· ∈ relay u)]

/-- The arrival of a copy at a vertex that has heard its sender changes nothing else. -/
theorem hear_of_heard {s : Flood V} {u v : V} {t : ℕ} (hheard : Heard relay o s u v) :
  s.hear relay o u v t = { s with air := s.air.erase (u, v, t) }
  := by
  by_cases hvo : v = o
  · rw [Flood.hear, if_pos hvo]
  · rw [Flood.hear, if_neg hvo]
    obtain ⟨hseen, hrelay⟩ := hheard.resolve_left hvo
    cases hrelayed : s.relayed v with
    | true => simp [hseen, ← hrelayed]
    | false =>
        have hnot : v ∉ relay u := by
          intro hmem
          rw [hrelay hmem] at hrelayed
          contradiction
        simp [hseen, hnot, ← hrelayed]

/-- The arrival of a copy at a vertex that has not passed the message on. -/
theorem hear_of_not_relayed {s : Flood V} {u v : V} {t : ℕ} (hvo : v ≠ o)
    (hrelayed : s.relayed v = false) (httl : 1 < t) :
  s.hear relay o u v t = { s with
    air := s.air.erase (u, v, t)
    seen := Function.update s.seen v true
    relayed := Function.update s.relayed v (decide (v ∈ relay u))
    waiting := Function.update s.waiting v (s.waiting v + if v ∈ relay u then {t - 1} else 0)
    processed := Function.update s.processed v (s.processed v + if s.seen v then 0 else 1) }
  := by
  simp [Flood.hear, hvo, hrelayed, httl]

omit [∀ u, DecidablePred (· ∈ relay u)] in
/-- A vertex that passes the message on is one more. -/
theorem card_relayed_insert {N : Finset V} {relayed : V → Bool} {v : V} (hv : v ∈ N)
    (hrelayed : relayed v = false) :
  (N.filter (fun w => Function.update relayed v true w = true)).card =
    (N.filter (fun w => relayed w = true)).card + 1
  := by
  have hinsert : N.filter (fun w => Function.update relayed v true w = true) =
      insert v (N.filter (fun w => relayed w = true)) := by
    ext w
    by_cases hw : w = v
    · simp [hw, hv]
    · simp [hw]
  rw [hinsert, Finset.card_insert_of_notMem]
  simp [hrelayed]

/-- The arrival of a copy keeps the invariant. -/
theorem Inv.hear {N : Finset V} {s : Flood V} (h : Inv G relay o N s) (ho : o ∈ N) {u v : V}
    {t : ℕ} (hair : (u, v, t) ∈ s.air) (hv : v ∈ N) :
  Inv G relay o N (s.hear relay o u v t)
  := by
  have httl := fun hrelayed hvo => h.one_lt_ttl ho hair hv hvo hrelayed
  by_cases hheard : Heard relay o s u v
  · rw [hear_of_heard hheard]
    apply h.drop hheard
  · have hvo : v ≠ o := fun heq => hheard (Or.inl heq)
    have hrelayed : s.relayed v = false := by
      rw [← Bool.not_eq_true]
      intro hrelayed
      apply hheard
      right
      exact ⟨h.relayed v hrelayed, fun _ => hrelayed⟩
    have hidle := h.once v
    rw [if_neg (by simp [hvo, hrelayed]), Nat.add_eq_zero_iff, Multiset.card_eq_zero] at hidle
    obtain ⟨hwaiting, hsent⟩ := hidle
    have hmono : ∀ w, s.relayed w = true →
        Function.update s.relayed v (decide (v ∈ relay u)) w = true := by
      intro w hw
      rw [Function.update_of_ne]
      · apply hw
      · rintro rfl
        rw [hrelayed] at hw
        contradiction
    have hmore := Finset.card_le_card (Finset.monotone_filter_right N (fun w _ => hmono w))
    rw [hear_of_not_relayed hvo hrelayed (httl hrelayed hvo)]
    constructor
    · simp only [Function.update_of_ne hvo.symm, h.origin]
    · intro w
      simp only [Function.update_apply]
      split_ifs
      · exact fun _ => rfl
      · apply h.relayed w
    · intro w
      by_cases hw : w = v
      · subst hw
        by_cases hmem : w ∈ relay u
        · simp [hmem, hwaiting, hsent]
        · simp [hmem, hvo, hwaiting, hsent]
      · simp only [Function.update_of_ne hw]
        apply h.once w
    · intro w
      by_cases hw : w = v
      · subst hw
        simp only [Function.update_self, h.processed w]
        cases s.seen w <;> rfl
      · simp only [Function.update_of_ne hw]
        apply h.processed w
    · -- A copy that is passed on has one transmission less left, with one vertex more that has
      -- passed the message on.
      rintro t' (⟨w, hw⟩ | ⟨w, x, hx⟩)
      · simp only [Function.update_apply] at hw
        split_ifs at hw with hwv hmem
        · rw [hwaiting, zero_add, Multiset.mem_singleton] at hw
          have hcard := card_relayed_insert hv hrelayed
          have hold := h.ttl t (Or.inr ⟨u, v, hair⟩)
          have hlt := httl hrelayed hvo
          simp only [hmem, decide_true]
          omega
        · rw [hwaiting, add_zero] at hw
          contradiction
        · apply (h.ttl t' (Or.inl ⟨w, hw⟩)).trans (Nat.add_le_add_left hmore t')
      · apply (h.ttl t' (Or.inr ⟨w, x, Multiset.mem_of_mem_erase hx⟩)).trans
          (Nat.add_le_add_left hmore t')
    · intro w x t' hx
      apply h.adj w x t' (Multiset.mem_of_mem_erase hx)
    · intro w x hsent' hadj
      rcases h.heard w x hsent' hadj with ⟨t', ht'⟩ | hheard'
      · by_cases heq : (w, x, t') = (u, v, t)
        · obtain ⟨rfl, rfl, rfl⟩ := Prod.mk.inj heq |>.imp_right Prod.mk.inj
          right
          right
          simp
        · left
          exact ⟨t', (Multiset.mem_erase_of_ne heq).mpr ht'⟩
      · right
        refine hheard'.imp_right (And.imp ?_ (fun hx hmem => hmono x (hx hmem)))
        intro hx
        simp only [Function.update_apply]
        split_ifs
        · rfl
        · apply hx

/-- A step keeps the invariant. -/
theorem Inv.step {N : Finset V} {s s' : Flood V} (h : Inv G relay o N s) (ho : o ∈ N)
    (hrange : ∀ u v, v ∈ range u ↔ G.Adj u v) (hN : ∀ u v, G.Adj u v → v ∈ N)
    (hstep : Step range relay o s s') :
  Inv G relay o N s'
  := by
  cases hstep with
  | send u => apply h.send hrange
  | hear u v t hair => apply h.hear ho hair (hN u v (h.adj u v t hair))

end Hear

/-! ### Start and end -/

/-- The invariant holds when the originator has a copy ready that allows for as many
transmissions as there are vertices, and no vertex knows of the message. -/
theorem Inv.start {N : Finset V} {s : Flood V} {t : ℕ} (ht : N.card ≤ t)
    (hseen : ∀ v, s.seen v = false) (hrelayed : ∀ v, s.relayed v = false)
    (horigin : s.waiting o = {t}) (hwaiting : ∀ u, u ≠ o → s.waiting u = 0) (hair : s.air = 0)
    (hprocessed : ∀ v, s.processed v = 0) (hsent : ∀ v, s.sent v = 0) :
  Inv G relay o N s
  where
  origin := hseen o
  relayed v hv := by
    rw [hrelayed v] at hv
    contradiction
  once u := by
    by_cases hu : u = o
    · simp [hu, horigin, hsent]
    · simp [hu, hwaiting u hu, hsent, hrelayed]
  processed v := by simp [hprocessed, hseen]
  ttl t' := by
    rintro (⟨w, hw⟩ | ⟨w, x, hx⟩)
    · by_cases hwo : w = o
      · rw [hwo, horigin, Multiset.mem_singleton] at hw
        omega
      · rw [hwaiting w hwo] at hw
        contradiction
    · rw [hair] at hx
      contradiction
  adj u v t' hx := by
    rw [hair] at hx
    contradiction
  heard u v hu := by
    rw [hsent u] at hu
    contradiction

/-- When no copy waits or is on its way, every vertex that the originator can reach has processed
the message. -/
theorem Inv.processed_of_quiet {N : Finset V} {s : Flood V} (h : Inv G relay o N s)
    (hrelay : IsRelay G relay) (hwaiting : ∀ u, s.waiting u = 0) (hair : s.air = 0) {v : V}
    (hvo : v ≠ o) (hreach : G.Reachable o v) :
  s.processed v = 1
  := by
  -- Those that have passed the message on have been heard by all neighbours.
  have hheard : ∀ u, u = o ∨ s.relayed u = true → ∀ w, G.Adj u w → Heard relay o s u w := by
    intro u hu w hadj
    have hsent := h.once u
    rw [if_pos hu, hwaiting u, Multiset.card_zero, Nat.zero_add] at hsent
    rcases h.heard u w (by omega) hadj with ⟨t, ht⟩ | hheard
    · rw [hair] at ht
      contradiction
    · apply hheard
  have hclosed : ∀ u ∈ { u | u = o ∨ s.relayed u = true }, ∀ m ∈ relay u,
      m ∈ { u | u = o ∨ s.relayed u = true } := by
    intro u hu m hm
    rcases hheard u hu m (hrelay.adj u m hm) with hmo | ⟨-, hrelayed⟩
    · left
      apply hmo
    · right
      apply hrelayed hm
  obtain ⟨u, hu, hadj⟩ := hrelay.dominates hclosed (Or.inl rfl) hreach hvo.symm
  obtain ⟨hseen, -⟩ := (hheard u hu v hadj).resolve_left hvo
  rw [h.processed v, if_pos hseen]

end Flood
