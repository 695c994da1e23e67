import SyNetsim.Lib.OrdMap
import Mathlib.Data.List.Chain
import Mathlib.Tactic.Use

/-!
# Breadth-first search

A search discovers the vertices of a directed graph, given by the list `next a` of the
successors of each vertex `a`, from a list of sources. It keeps a table of the entries
discovered so far and a queue of those whose successors are still to be visited; an entry
holds a vertex, its number of hops and the route to it. The sources have one hop.

When the queue has run empty, the table holds exactly the vertices reachable from the
sources, with the least number of hops and a route of that length (`Complete`). The
queue runs empty within as many steps as there are vertices (`search_queue_empty`).
-/

namespace Bfs

/-- A discovered vertex, its number of hops and the route that leads to it. -/
@[ext]
structure Entry (α : Type*) where
  /-- The vertex. -/
  dest : α
  /-- The number of hops, counting the one to the source. -/
  hopCount : ℕ
  /-- The vertices passed, from the source to the vertex itself. -/
  route : List α
deriving DecidableEq

variable {α : Type*} [LinearOrder α]

/-- The table of discovered entries and the queue of those to be visited. -/
abbrev State (α : Type*) [LinearOrder α] : Type _ := OrdMap α (Entry α) × List (Entry α)

/-- The entry of a vertex first seen as a successor of `curr`. -/
def Entry.extend (curr : Entry α) (a : α) : Entry α :=
  ⟨a, curr.hopCount + 1, curr.route ++ [a]⟩

/-- See the successor `a` of `curr`: if it is new, enter it and queue it. -/
def visit (curr : Entry α) (st : State α) (a : α) : State α :=
  if a ∈ st.1 then st else (st.1.insert a (curr.extend a), st.2 ++ [curr.extend a])

/-- Visit the successors of the entries in the queue, for at most `fuel` entries. -/
def search (next : α → List α) : ℕ → State α → State α
  | 0, st => st
  | _ + 1, (t, []) => (t, [])
  | fuel + 1, (t, curr :: q) => search next fuel ((next curr.dest).foldl (visit curr) (t, q))

/-- `Walk next S n a`: the vertex `a` is reached from a source in `n` edges. -/
inductive Walk (next : α → List α) (S : α → Prop) : ℕ → α → Prop
  | source {a : α} : S a → Walk next S 0 a
  | step {n : ℕ} {a b : α} : Walk next S n a → b ∈ next a → Walk next S (n + 1) b

/-- The route of an entry starts at a source, follows the edges to the vertex, repeats no
vertex and passes only through the vertices of `t`. -/
structure Entry.Sound (next : α → List α) (S : α → Prop) (t : OrdMap α (Entry α))
    (e : Entry α) : Prop where
  source : ∃ s ∈ e.route.head?, S s
  last : e.route.getLast? = some e.dest
  chain : e.route.IsChain (fun a b => b ∈ next a)
  length : e.route.length = e.hopCount
  nodup : e.route.Nodup
  entered : ∀ a ∈ e.route, a ∈ t

/-- What holds of the table and the queue throughout a search. -/
structure Inv (next : α → List α) (S : α → Prop) (st : State α) : Prop where
  dest : ∀ a e, st.1.search a = some e → e.dest = a
  queued : ∀ e ∈ st.2, st.1.search e.dest = some e
  sound : ∀ a e, st.1.search a = some e → e.Sound next S st.1
  sources : ∀ a, S a → ∃ e, st.1.search a = some e ∧ e.hopCount = 1
  ordered : st.2.Pairwise (fun e e' => e.hopCount ≤ e'.hopCount)
  bound : ∀ c ∈ st.2, ∀ a e, st.1.search a = some e → e.hopCount ≤ c.hopCount + 1
  closed : ∀ a e, st.1.search a = some e → e ∈ st.2 ∨
    ∀ b ∈ next a, ∃ e', st.1.search b = some e' ∧ e'.hopCount ≤ e.hopCount + 1

/-- The table holds the vertices reachable from the sources, each with the least number of
hops and a sound route. -/
structure Complete (next : α → List α) (S : α → Prop) (t : OrdMap α (Entry α)) : Prop where
  dest : ∀ a e, t.search a = some e → e.dest = a
  sound : ∀ a e, t.search a = some e → e.Sound next S t
  least : ∀ n a, Walk next S n a → ∃ e, t.search a = some e ∧ e.hopCount ≤ n + 1

/-! ### Visiting the successors of one entry -/

variable {next : α → List α} {S : α → Prop}

/-- A route stays sound when the table grows. -/
theorem Entry.Sound.mono {t t' : OrdMap α (Entry α)} {e : Entry α} (h : e.Sound next S t)
    (ht : ∀ a ∈ t, a ∈ t') :
  e.Sound next S t'
  := { h with entered := fun a ha => ht a (h.entered a ha) }

/-- The route of `curr` leads on to a successor of `curr` not entered before. -/
theorem Entry.Sound.extend {t : OrdMap α (Entry α)} {curr : Entry α}
    (h : curr.Sound next S t) {a : α} (ha : a ∈ next curr.dest) (hnew : a ∉ t) :
  (curr.extend a).Sound next S (t.insert a (curr.extend a))
  := by
  obtain ⟨s, hs, hS⟩ := h.source
  constructor
  · use s
    constructor
    · rw [Entry.extend, Option.mem_def, List.head?_append, hs]
      rfl
    · apply hS
  · simp [Entry.extend]
  · apply List.isChain_append.mpr
    refine ⟨h.chain, List.isChain_singleton a, ?_⟩
    intro x hx y hy
    rw [h.last] at hx
    simp only [Option.mem_def, Option.some.injEq, List.head?_cons] at hx hy
    rw [← hx, ← hy]
    apply ha
  · simp [Entry.extend, h.length]
  · apply List.Nodup.append h.nodup (List.nodup_singleton a)
    rw [List.disjoint_singleton]
    intro hmem
    apply hnew (h.entered a hmem)
  · intro b hb
    rcases List.mem_append.mp hb with hb | hb
    · apply OrdMap.mem_insert.mpr
      right
      apply h.entered b hb
    · apply OrdMap.mem_insert.mpr
      left
      apply List.mem_singleton.mp hb

/-- A visit enters new vertices only. -/
theorem visit_search_of_search {curr : Entry α} {st : State α} {a b : α} {e : Entry α}
    (h : st.1.search b = some e) :
  (visit curr st a).1.search b = some e
  := by
  unfold visit
  split_ifs with ha
  · apply h
  · rw [OrdMap.search_insert]
    split_ifs with hb
    · subst hb
      apply absurd (OrdMap.mem_of_search h) ha
    · apply h

/-- What is found after a visit was there before, or is the vertex visited. -/
theorem visit_search_inv {curr : Entry α} {st : State α} {a b : α} {e : Entry α}
    (h : (visit curr st a).1.search b = some e) :
  st.1.search b = some e ∨ a ∉ st.1 ∧ b = a ∧ e = curr.extend a
  := by
  unfold visit at h
  split_ifs at h with ha
  · left
    apply h
  · rw [OrdMap.search_insert] at h
    split_ifs at h with hb
    · right
      rw [OrdMap.search_eq_none.mpr ha, Option.getD_none, Option.some.injEq] at h
      exact ⟨ha, hb, h.symm⟩
    · left
      apply h

theorem mem_visit_of_mem {curr : Entry α} {st : State α} {a b : α} (h : b ∈ st.1) :
  b ∈ (visit curr st a).1
  := by
  obtain ⟨e, he⟩ := OrdMap.mem_iff.mp h
  apply OrdMap.mem_of_search (visit_search_of_search he)

/-- A visit enters the vertex visited, if it is new. -/
theorem visit_search_self {curr : Entry α} {st : State α} {a : α} (h : a ∉ st.1) :
  (visit curr st a).1.search a = some (curr.extend a)
  := by
  rw [visit, if_neg h, OrdMap.search_insert, if_pos rfl, OrdMap.search_eq_none.mpr h,
    Option.getD_none]

/-- A visit adds an entry for a new vertex to the end of the queue. -/
theorem mem_visit_queue {curr : Entry α} {st : State α} {a : α} {e : Entry α} :
  e ∈ (visit curr st a).2 ↔ e ∈ st.2 ∨ a ∉ st.1 ∧ e = curr.extend a
  := by
  unfold visit
  split_ifs with ha
  · simp [ha]
  · simp [ha]

/-- What holds of the table and the queue while the successors of `curr`, already taken
from the queue, are visited; `done` are the successors visited so far. -/
structure VisitInv (next : α → List α) (S : α → Prop) (curr : Entry α) (done : List α)
    (st : State α) : Prop where
  dest : ∀ a e, st.1.search a = some e → e.dest = a
  queued : ∀ e ∈ st.2, st.1.search e.dest = some e
  current : st.1.search curr.dest = some curr
  sound : ∀ a e, st.1.search a = some e → e.Sound next S st.1
  sources : ∀ a, S a → ∃ e, st.1.search a = some e ∧ e.hopCount = 1
  ordered : st.2.Pairwise (fun e e' => e.hopCount ≤ e'.hopCount)
  least : ∀ e ∈ st.2, curr.hopCount ≤ e.hopCount
  bound : ∀ a e, st.1.search a = some e → e.hopCount ≤ curr.hopCount + 1
  closed : ∀ a e, st.1.search a = some e → e = curr ∨ e ∈ st.2 ∨
    ∀ b ∈ next a, ∃ e', st.1.search b = some e' ∧ e'.hopCount ≤ e.hopCount + 1
  seen : ∀ a ∈ done, a ∈ st.1

/-- Taking the first entry from the queue starts visiting its successors. -/
theorem Inv.pop {t : OrdMap α (Entry α)} {curr : Entry α} {q : List (Entry α)}
    (h : Inv next S (t, curr :: q)) :
  VisitInv next S curr [] (t, q)
  where
  dest := h.dest
  queued e he := h.queued e (List.mem_cons_of_mem _ he)
  current := h.queued curr List.mem_cons_self
  sound := h.sound
  sources := h.sources
  ordered := (List.pairwise_cons.mp h.ordered).2
  least := (List.pairwise_cons.mp h.ordered).1
  bound := h.bound curr List.mem_cons_self
  closed a e he := by
    rcases h.closed a e he with hq | hq
    · rcases List.mem_cons.mp hq with hq | hq
      · left
        apply hq
      · right
        left
        apply hq
    · right
      right
      apply hq
  seen _ ha := absurd ha List.not_mem_nil

/-- Visiting one more successor keeps the invariant. -/
theorem VisitInv.visit {curr : Entry α} {done : List α} {st : State α}
    (h : VisitInv next S curr done st) {a : α} (ha : a ∈ next curr.dest) :
  VisitInv next S curr (a :: done) (visit curr st a)
  := by
  constructor
  case dest =>
    intro b e he
    rcases visit_search_inv he with he | ⟨-, rfl, rfl⟩
    · apply h.dest b e he
    · rfl
  case queued =>
    intro e he
    rcases mem_visit_queue.mp he with he | ⟨hmem, rfl⟩
    · apply visit_search_of_search (h.queued e he)
    · apply visit_search_self hmem
  case current => apply visit_search_of_search h.current
  case sound =>
    intro b e he
    rcases visit_search_inv he with he | ⟨hmem, rfl, rfl⟩
    · apply (h.sound b e he).mono (fun c hc => mem_visit_of_mem hc)
    · have hs := (h.sound _ _ h.current).extend ha hmem
      rw [Bfs.visit, if_neg hmem]
      apply hs
  case sources =>
    intro b hb
    obtain ⟨e, he, hhop⟩ := h.sources b hb
    use e, visit_search_of_search he
  case ordered =>
    unfold Bfs.visit
    split_ifs with hmem
    · apply h.ordered
    · apply List.pairwise_append.mpr
      refine ⟨h.ordered, List.pairwise_singleton _ _, ?_⟩
      intro e he e' he'
      rw [List.mem_singleton.mp he']
      apply h.bound e.dest e (h.queued e he)
  case least =>
    intro e he
    rcases mem_visit_queue.mp he with he | ⟨-, rfl⟩
    · apply h.least e he
    · apply Nat.le_succ
  case bound =>
    intro b e he
    rcases visit_search_inv he with he | ⟨-, rfl, rfl⟩
    · apply h.bound b e he
    · apply Nat.le_refl
  case closed =>
    intro b e he
    rcases visit_search_inv he with he | ⟨hmem, rfl, rfl⟩
    · rcases h.closed b e he with hc | hc | hc
      · left
        apply hc
      · right
        left
        apply mem_visit_queue.mpr (Or.inl hc)
      · right
        right
        intro c hc'
        obtain ⟨e', he', hle⟩ := hc c hc'
        use e', visit_search_of_search he'
    · right
      left
      apply mem_visit_queue.mpr (Or.inr ⟨hmem, rfl⟩)
  case seen =>
    intro b hb
    rcases List.mem_cons.mp hb with rfl | hb
    · by_cases hmem : b ∈ st.1
      · apply mem_visit_of_mem hmem
      · apply OrdMap.mem_of_search (visit_search_self hmem)
    · apply mem_visit_of_mem (h.seen b hb)

/-- Visiting a list of successors keeps the invariant. -/
theorem VisitInv.foldl {curr : Entry α} {l done : List α} {st : State α}
    (h : VisitInv next S curr done st) (hl : ∀ a ∈ l, a ∈ next curr.dest) :
  VisitInv next S curr (l.reverse ++ done) (l.foldl (Bfs.visit curr) st)
  := by
  induction l generalizing done st with
  | nil => apply h
  | cons a l ih =>
      rw [List.foldl_cons, List.reverse_cons, List.append_assoc]
      apply ih (h.visit (hl a List.mem_cons_self))
      intro b hb
      apply hl b (List.mem_cons_of_mem _ hb)

/-- When all successors of `curr` have been visited, the search goes on with the queue. -/
theorem VisitInv.finish {curr : Entry α} {done : List α} {st : State α}
    (h : VisitInv next S curr done st) (hdone : ∀ a ∈ next curr.dest, a ∈ done) :
  Inv next S st
  where
  dest := h.dest
  queued := h.queued
  sound := h.sound
  sources := h.sources
  ordered := h.ordered
  bound c hc a e he := by
    have hc' := h.least c hc
    have he' := h.bound a e he
    omega
  closed a e he := by
    rcases h.closed a e he with rfl | hc | hc
    · right
      intro b hb
      rw [← h.dest a e he] at hb
      obtain ⟨e', he'⟩ := OrdMap.mem_iff.mp (h.seen b (hdone b hb))
      use e', he', h.bound b e' he'
    · left
      apply hc
    · right
      apply hc

/-- One step of a search keeps the invariant. -/
theorem Inv.step {t : OrdMap α (Entry α)} {curr : Entry α} {q : List (Entry α)}
    (h : Inv next S (t, curr :: q)) :
  Inv next S ((next curr.dest).foldl (Bfs.visit curr) (t, q))
  := by
  apply (h.pop.foldl (fun a ha => ha)).finish
  intro a ha
  apply List.mem_append_left
  apply List.mem_reverse.mpr ha

/-! ### Whole searches -/

/-- A search keeps the invariant. -/
theorem Inv.search {st : State α} (h : Inv next S st) (fuel : ℕ) :
  Inv next S (Bfs.search next fuel st)
  := by
  induction fuel generalizing st with
  | zero => apply h
  | succ fuel ih =>
      obtain ⟨t, q⟩ := st
      cases q with
      | nil => apply h
      | cons curr q => apply ih h.step

/-- When the queue is empty, the table is complete: each edge of a walk adds at most one
hop. -/
theorem Inv.complete {t : OrdMap α (Entry α)} (h : Inv next S (t, [])) :
  Complete next S t
  where
  dest := h.dest
  sound := h.sound
  least n a hw := by
    induction hw with
    | source hs =>
        obtain ⟨e, he, hhop⟩ := h.sources _ hs
        use e, he
        omega
    | step _ hb ih =>
        obtain ⟨e, he, hhop⟩ := ih
        rcases h.closed _ e he with hq | hc
        · apply absurd hq List.not_mem_nil
        · obtain ⟨e', he', hhop'⟩ := hc _ hb
          use e', he'
          omega

/-- Visiting keeps the number of entries minus the length of the queue, as long as the
vertices visited are among those of `univ`. -/
theorem foldl_visit_count {univ l : List α} (curr : Entry α) (st : State α)
    (hst : ∀ a ∈ st.1, a ∈ univ) (hl : ∀ a ∈ l, a ∈ univ) :
  (∀ a ∈ (l.foldl (visit curr) st).1, a ∈ univ) ∧
    (l.foldl (visit curr) st).1.count + st.2.length
      = (l.foldl (visit curr) st).2.length + st.1.count
  := by
  induction l generalizing st with
  | nil => exact ⟨hst, Nat.add_comm _ _⟩
  | cons a l ih =>
      have hvisit : (∀ b ∈ (visit curr st a).1, b ∈ univ) ∧
          (visit curr st a).1.count + st.2.length = (visit curr st a).2.length + st.1.count := by
        unfold visit
        split_ifs with hmem
        · exact ⟨hst, Nat.add_comm _ _⟩
        · constructor
          · intro b hb
            rcases OrdMap.mem_insert.mp hb with rfl | hb
            · apply hl b List.mem_cons_self
            · apply hst b hb
          · simp only [OrdMap.count_insert_of_not_mem hmem, List.length_append,
              List.length_singleton]
            omega
      obtain ⟨huniv, hcount⟩ := ih _ hvisit.1 (fun b hb => hl b (List.mem_cons_of_mem _ hb))
      refine ⟨huniv, ?_⟩
      have := hvisit.2
      rw [List.foldl_cons]
      omega

/-- A search whose vertices are among those of `univ` empties its queue within
`univ.length` steps, counting from a state in which no more entries are queued than
entered. -/
theorem search_queue_empty (univ : List α) (hnext : ∀ a, ∀ b ∈ next a, b ∈ univ)
    {fuel : ℕ} {st : State α} (hst : ∀ a ∈ st.1, a ∈ univ)
    (hfuel : univ.length + st.2.length ≤ fuel + st.1.count) :
  (search next fuel st).2 = []
  := by
  induction fuel generalizing st with
  | zero =>
      have hle : st.1.count ≤ univ.length := by
        rw [← OrdMap.length_keys]
        apply (List.subperm_of_subset st.1.keys_nodup hst).length_le
      apply List.eq_nil_of_length_eq_zero
      rw [search]
      omega
  | succ fuel ih =>
      obtain ⟨t, q⟩ := st
      cases q with
      | nil => rfl
      | cons curr q =>
          obtain ⟨huniv, hcount⟩ := foldl_visit_count curr (t, q) hst
            (hnext curr.dest)
          apply ih huniv
          simp only [List.length_cons] at hfuel hcount
          omega

/-- A search with the queue run empty is not changed by more fuel. -/
theorem search_of_queue_empty {fuel : ℕ} {st : State α}
    (h : (search next fuel st).2 = []) (k : ℕ) :
  search next (fuel + k) st = search next fuel st
  := by
  induction fuel generalizing st with
  | zero =>
      obtain ⟨t, q⟩ := st
      obtain rfl : q = [] := h
      cases k <;> rfl
  | succ fuel ih =>
      obtain ⟨t, q⟩ := st
      rw [Nat.succ_add]
      cases q with
      | nil => rfl
      | cons curr q => apply ih h

end Bfs
