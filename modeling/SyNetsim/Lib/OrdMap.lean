import Mathlib.Data.List.Induction
import Mathlib.Order.Lattice
import Mathlib.Data.List.Pairwise
import Mathlib.Data.List.Nodup
import Mathlib.Data.List.Perm.Subperm
import Mathlib.Data.Set.Card

/-!
# Ordered maps

`OrdMap α β` is a finite map from a linearly ordered type of keys, kept as a list of
entries in strictly increasing order of their keys. It has the operations of a search tree
whose nodes hold their own keys: a search, an insertion that refuses a key already present,
a deletion, writing through the entry of a key, and a traversal in the order of the keys.

Two maps with the same searches are equal (`OrdMap.ext`), so each operation is determined
by the lemma that says what a search finds after it.
-/

/-- A finite map, as the list of its entries in strictly increasing order of keys. -/
structure OrdMap (α β : Type*) [LinearOrder α] where
  /-- The entries, smallest key first. -/
  entries : List (α × β)
  /-- The keys increase strictly. -/
  sorted : entries.Pairwise (fun a b => a.1 < b.1)

namespace OrdMap

variable {α β γ : Type*} [LinearOrder α]

instance [DecidableEq β] : DecidableEq (OrdMap α β) := fun m n =>
  decidable_of_iff (m.entries = n.entries) (by
    constructor
    · intro h
      cases m
      cases n
      simpa using h
    · rintro rfl
      rfl)

/-- The map with no entries. -/
def empty : OrdMap α β := ⟨[], List.Pairwise.nil⟩

instance : Inhabited (OrdMap α β) := ⟨empty⟩

/-- The keys, in increasing order. -/
def keys (m : OrdMap α β) : List α := m.entries.map Prod.fst

instance : Membership α (OrdMap α β) := ⟨fun m k => k ∈ m.keys⟩

/-- The number of entries. -/
def count (m : OrdMap α β) : ℕ := m.entries.length

/-- The entry with the smallest key. -/
def first (m : OrdMap α β) : Option (α × β) := m.entries.head?

/-- The value a list of entries gives a key. -/
def searchList (k : α) : List (α × β) → Option β
  | [] => none
  | (k', v) :: l => if k = k' then some v else searchList k l

/-- The value at a key. -/
def search (m : OrdMap α β) (k : α) : Option β := searchList k m.entries

/-- Insert an entry at its place, unless its key is present. -/
def insertList (k : α) (v : β) : List (α × β) → List (α × β)
  | [] => [(k, v)]
  | (k', v') :: l =>
      if k < k' then (k, v) :: (k', v') :: l
      else if k = k' then (k', v') :: l
      else (k', v') :: insertList k v l

theorem mem_insertList {k : α} {v : β} {e : α × β} {l : List (α × β)}
    (h : e ∈ insertList k v l) :
  e = (k, v) ∨ e ∈ l
  := by
  induction l with
  | nil => simpa [insertList] using h
  | cons e' l ih =>
      obtain ⟨k', v'⟩ := e'
      simp only [insertList] at h
      split_ifs at h with h₁ h₂
      · simpa using h
      · right
        apply h
      · rcases List.mem_cons.mp h with rfl | h
        · simp
        · rcases ih h with h | h
          · left
            apply h
          · right
            apply List.mem_cons_of_mem _ h

theorem insertList_sorted (k : α) (v : β) {l : List (α × β)}
    (hl : l.Pairwise (fun a b => a.1 < b.1)) :
  (insertList k v l).Pairwise (fun a b => a.1 < b.1)
  := by
  induction l with
  | nil => simp [insertList]
  | cons e' l ih =>
      obtain ⟨k', v'⟩ := e'
      obtain ⟨hhead, htail⟩ := List.pairwise_cons.mp hl
      simp only [insertList]
      split_ifs with h₁ h₂
      · apply List.pairwise_cons.mpr
        constructor
        · intro e he
          rcases List.mem_cons.mp he with rfl | he
          · apply h₁
          · apply lt_trans h₁ (hhead e he)
        · apply hl
      · apply hl
      · apply List.pairwise_cons.mpr
        constructor
        · intro e he
          rcases mem_insertList he with rfl | he
          · apply lt_of_le_of_ne (not_lt.mp h₁) (Ne.symm h₂)
          · apply hhead e he
        · apply ih htail

/-- Insert an entry, unless its key is present. -/
def insert (m : OrdMap α β) (k : α) (v : β) : OrdMap α β :=
  ⟨insertList k v m.entries, insertList_sorted k v m.sorted⟩

/-- Delete the entry of a key. -/
def erase (m : OrdMap α β) (k : α) : OrdMap α β :=
  ⟨m.entries.filter (fun e => e.1 ≠ k), m.sorted.filter _⟩

/-- Keep the entries whose value satisfies a condition. -/
def filter (m : OrdMap α β) (p : β → Bool) : OrdMap α β :=
  ⟨m.entries.filter (fun e => p e.2), m.sorted.filter _⟩

/-- Rewrite every value, given its key. -/
def mapIdx (m : OrdMap α β) (f : α → β → γ) : OrdMap α γ :=
  ⟨m.entries.map (fun e => (e.1, f e.1 e.2)), List.pairwise_map.mpr m.sorted⟩

/-- Rewrite the value at a key. -/
def modify (m : OrdMap α β) (k : α) (f : β → β) : OrdMap α β :=
  m.mapIdx (fun k' v => if k' = k then f v else v)

/-! ### Searches and keys -/

@[simp]
theorem searchList_cons (k k' : α) (v : β) (l : List (α × β)) :
  searchList k ((k', v) :: l) = if k = k' then some v else searchList k l
  := rfl

theorem searchList_eq_none {k : α} {l : List (α × β)} :
  searchList k l = none ↔ k ∉ l.map Prod.fst
  := by
  induction l with
  | nil => simp [searchList]
  | cons e l ih =>
      obtain ⟨k', v⟩ := e
      by_cases h : k = k'
      · simp [h]
      · simp [h, ih]

theorem searchList_mem {k : α} {v : β} {l : List (α × β)} (h : searchList k l = some v) :
  (k, v) ∈ l
  := by
  induction l with
  | nil => simp [searchList] at h
  | cons e l ih =>
      obtain ⟨k', v'⟩ := e
      by_cases hk : k = k'
      · subst hk
        simp only [searchList_cons, if_true, Option.some.injEq] at h
        simp [h]
      · simp only [searchList_cons, hk, if_false] at h
        apply List.mem_cons_of_mem _ (ih h)

theorem searchList_of_mem {k : α} {v : β} {l : List (α × β)}
    (hl : l.Pairwise (fun a b => a.1 < b.1)) (h : (k, v) ∈ l) :
  searchList k l = some v
  := by
  induction l with
  | nil => simp at h
  | cons e l ih =>
      obtain ⟨k', v'⟩ := e
      obtain ⟨hhead, htail⟩ := List.pairwise_cons.mp hl
      rcases List.mem_cons.mp h with h | h
      · obtain ⟨rfl, rfl⟩ := Prod.mk.inj h
        simp
      · have hlt : k' < k := hhead _ h
        simp [ne_of_gt hlt, ih htail h]

/-- An entry is found by searching for its key. -/
theorem search_eq_some {m : OrdMap α β} {k : α} {v : β} :
  m.search k = some v ↔ (k, v) ∈ m.entries
  := ⟨searchList_mem, searchList_of_mem m.sorted⟩

/-- A search fails exactly at the keys not present. -/
theorem search_eq_none {m : OrdMap α β} {k : α} :
  m.search k = none ↔ k ∉ m
  := searchList_eq_none

/-- A key is present exactly when a search for it succeeds. -/
theorem mem_iff {m : OrdMap α β} {k : α} :
  k ∈ m ↔ ∃ v, m.search k = some v
  := by
  rw [← Option.ne_none_iff_exists', ne_eq, search_eq_none, not_not]

theorem mem_of_search {m : OrdMap α β} {k : α} {v : β} (h : m.search k = some v) :
  k ∈ m
  := mem_iff.mpr ⟨v, h⟩

@[simp]
theorem mem_keys {m : OrdMap α β} {k : α} :
  k ∈ m.keys ↔ k ∈ m
  := Iff.rfl

instance (m : OrdMap α β) (k : α) : Decidable (k ∈ m) :=
  inferInstanceAs (Decidable (k ∈ m.keys))

theorem keys_sorted (m : OrdMap α β) :
  m.keys.Pairwise (· < ·)
  := List.pairwise_map.mpr m.sorted

theorem keys_nodup (m : OrdMap α β) :
  m.keys.Nodup
  := m.keys_sorted.imp ne_of_lt

/-- Increasing lists with the same elements are equal. -/
theorem eq_of_pairwise_lt {l l' : List α} (hl : l.Pairwise (· < ·)) (hl' : l'.Pairwise (· < ·))
    (h : ∀ k, k ∈ l ↔ k ∈ l') :
  l = l'
  := by
  have hperm : l.Perm l' :=
    (List.perm_ext_iff_of_nodup (hl.imp ne_of_lt) (hl'.imp ne_of_lt)).mpr h
  apply hperm.eq_of_pairwise _ hl hl'
  intro k k' _ _ hlt hgt
  apply absurd hgt (lt_asymm hlt)

@[simp]
theorem length_keys (m : OrdMap α β) :
  m.keys.length = m.count
  := List.length_map _

/-- Lists of entries in increasing order with the same searches are equal. -/
theorem eq_of_searchList {l l' : List (α × β)}
    (hl : l.Pairwise (fun a b => a.1 < b.1)) (hl' : l'.Pairwise (fun a b => a.1 < b.1))
    (h : ∀ k, searchList k l = searchList k l') :
  l = l'
  := by
  have hnodup : ∀ {l : List (α × β)}, l.Pairwise (fun a b => a.1 < b.1) → l.Nodup := by
    intro l hl
    apply hl.imp
    rintro a b hab rfl
    apply lt_irrefl _ hab
  have hmem : ∀ e, e ∈ l ↔ e ∈ l' := by
    rintro ⟨k, v⟩
    constructor
    · intro hm
      apply searchList_mem
      rw [← h, searchList_of_mem hl hm]
    · intro hm
      apply searchList_mem
      rw [h, searchList_of_mem hl' hm]
  have hperm := (List.perm_ext_iff_of_nodup (hnodup hl) (hnodup hl')).mpr hmem
  refine List.Perm.eq_of_pairwise ?_ hl hl' hperm
  intro a b _ _ hab hba
  apply absurd hab (lt_asymm hba)

/-- Maps with the same searches are equal. -/
@[ext]
theorem ext {m n : OrdMap α β} (h : ∀ k, m.search k = n.search k) :
  m = n
  := by
  have hl := eq_of_searchList m.sorted n.sorted h
  cases m
  cases n
  simpa using hl

/-! ### What a search finds after an operation -/

@[simp]
theorem search_empty (k : α) :
  (empty : OrdMap α β).search k = none
  := rfl

@[simp]
theorem not_mem_empty (k : α) :
  k ∉ (empty : OrdMap α β)
  := by
  rw [← search_eq_none, search_empty]

theorem searchList_insertList (k : α) (v : β) (k' : α) {l : List (α × β)}
    (hl : l.Pairwise (fun a b => a.1 < b.1)) :
  searchList k' (insertList k v l) =
    if k' = k then some ((searchList k l).getD v) else searchList k' l
  := by
  induction l with
  | nil => by_cases h : k' = k <;> simp [insertList, searchList, h]
  | cons e l ih =>
      obtain ⟨k₀, v₀⟩ := e
      obtain ⟨hhead, htail⟩ := List.pairwise_cons.mp hl
      simp only [insertList]
      split_ifs with h₁ h₂ h₃ h₄
      · subst h₂
        have hnone : searchList k' ((k₀, v₀) :: l) = none := by
          apply searchList_eq_none.mpr
          simp only [List.map_cons, List.mem_cons, List.mem_map, not_or, not_exists, not_and]
          constructor
          · apply ne_of_lt h₁
          · rintro e he rfl
            apply lt_asymm h₁ (hhead e he)
        rw [hnone]
        simp
      · simp [h₂]
      · subst h₃ h₄
        simp
      · rfl
      · rename_i h
        subst h
        simp [h₃, ih htail]
      · rename_i h
        simp [ih htail, h]

/-- After an insertion, the key holds its former value, or the new one if it had none. -/
theorem search_insert (m : OrdMap α β) (k : α) (v : β) (k' : α) :
  (m.insert k v).search k' = if k' = k then some ((m.search k).getD v) else m.search k'
  := searchList_insertList k v k' m.sorted

@[simp]
theorem mem_insert {m : OrdMap α β} {k : α} {v : β} {k' : α} :
  k' ∈ m.insert k v ↔ k' = k ∨ k' ∈ m
  := by
  rw [mem_iff, mem_iff, search_insert]
  by_cases h : k' = k <;> simp [h]

/-- Inserting a key already present changes nothing. -/
theorem insert_of_mem {m : OrdMap α β} {k : α} {v : β} (h : k ∈ m) :
  m.insert k v = m
  := by
  obtain ⟨w, hw⟩ := mem_iff.mp h
  apply ext
  intro k'
  rw [search_insert]
  split_ifs with hk
  · rw [hk, hw, Option.getD_some]
  · rfl

theorem search_filterList (p : α × β → Bool) (k : α) {l : List (α × β)}
    (hl : l.Pairwise (fun a b => a.1 < b.1)) :
  searchList k (l.filter p) = (searchList k l).filter (fun v => p (k, v))
  := by
  cases h : searchList k l with
  | none =>
      rw [Option.filter_none, searchList_eq_none]
      intro hk
      apply searchList_eq_none.mp h
      apply (List.filter_sublist.map _).subset hk
  | some v =>
      have hmem := searchList_mem h
      by_cases hp : p (k, v)
      · rw [Option.filter_some, if_pos hp]
        apply searchList_of_mem (hl.filter _)
        apply List.mem_filter.mpr ⟨hmem, hp⟩
      · rw [Option.filter_some, if_neg hp, searchList_eq_none]
        intro hk
        obtain ⟨⟨k', w⟩, hw, rfl⟩ := List.mem_map.mp hk
        obtain ⟨hw, hpw⟩ := List.mem_filter.mp hw
        rw [searchList_of_mem hl hw, Option.some.injEq] at h
        subst h
        apply hp hpw

/-- After a deletion, only the deleted key has lost its value. -/
theorem search_erase (m : OrdMap α β) (k k' : α) :
  (m.erase k).search k' = if k' = k then none else m.search k'
  := by
  apply Eq.trans (search_filterList _ _ m.sorted)
  by_cases h : k' = k
  · simp [h]
  · cases hs : searchList k' m.entries <;> simp [h, search, hs]

@[simp]
theorem mem_erase {m : OrdMap α β} {k k' : α} :
  k' ∈ m.erase k ↔ k' ≠ k ∧ k' ∈ m
  := by
  rw [mem_iff, mem_iff, search_erase]
  by_cases h : k' = k <;> simp [h]

/-- Filtering keeps the values that satisfy the condition. -/
theorem search_filter (m : OrdMap α β) (p : β → Bool) (k : α) :
  (m.filter p).search k = (m.search k).filter p
  := search_filterList (fun e => p e.2) k m.sorted

/-- Rewriting every value rewrites the values found. -/
theorem search_mapIdx (m : OrdMap α β) (f : α → β → γ) (k : α) :
  (m.mapIdx f).search k = (m.search k).map (f k)
  := by
  obtain ⟨l, hl⟩ := m
  simp only [search, mapIdx]
  clear hl
  induction l with
  | nil => rfl
  | cons e l ih =>
      obtain ⟨k', v⟩ := e
      by_cases h : k = k'
      · simp [h]
      · simp [h, ih]

@[simp]
theorem keys_mapIdx (m : OrdMap α β) (f : α → β → γ) :
  (m.mapIdx f).keys = m.keys
  := by
  simp [keys, mapIdx, Function.comp_def]

@[simp]
theorem mem_mapIdx {m : OrdMap α β} {f : α → β → γ} {k : α} :
  k ∈ m.mapIdx f ↔ k ∈ m
  := by
  rw [← mem_keys, keys_mapIdx, mem_keys]

/-- Writing at a key changes the value found there only. -/
theorem search_modify (m : OrdMap α β) (k : α) (f : β → β) (k' : α) :
  (m.modify k f).search k' = if k' = k then (m.search k).map f else m.search k'
  := by
  rw [modify, search_mapIdx]
  split_ifs with h
  · rw [h]
  · simp

@[simp]
theorem keys_modify (m : OrdMap α β) (k : α) (f : β → β) :
  (m.modify k f).keys = m.keys
  := keys_mapIdx m _

@[simp]
theorem mem_modify {m : OrdMap α β} {k : α} {f : β → β} {k' : α} :
  k' ∈ m.modify k f ↔ k' ∈ m
  := mem_mapIdx

/-- The map that gives the values of `f` at the keys `l`. -/
def ofKeys (l : List α) (f : α → β) : OrdMap α β :=
  l.foldl (fun m k => m.insert k (f k)) empty

theorem search_ofKeys (l : List α) (f : α → β) (k : α) :
  (ofKeys l f).search k = if k ∈ l then some (f k) else none
  := by
  induction l using List.reverseRecOn with
  | nil => rfl
  | append_singleton l a ih =>
      rw [ofKeys] at ih
      rw [ofKeys, List.foldl_concat, search_insert, ih]
      by_cases hk : k = a
      · subst hk
        by_cases hl : k ∈ l
        · simp [hl, ih]
        · simp [hl, ih]
      · simp [hk]

@[simp]
theorem mem_ofKeys {l : List α} {f : α → β} {k : α} :
  k ∈ ofKeys l f ↔ k ∈ l
  := by
  rw [mem_iff, search_ofKeys]
  by_cases hk : k ∈ l <;> simp [hk]

/-! ### Counting -/

/-- A map is empty exactly when it has no key. -/
theorem count_eq_zero {m : OrdMap α β} :
  m.count = 0 ↔ ∀ k, k ∉ m
  := by
  rw [← length_keys, List.length_eq_zero_iff, List.eq_nil_iff_forall_not_mem]
  rfl

/-- A map whose keys are among those of another, with one missing, has fewer entries. -/
theorem count_lt {m : OrdMap α β} {n : OrdMap α γ} (h : ∀ k ∈ m, k ∈ n) {k : α}
    (hn : k ∈ n) (hm : k ∉ m) :
  m.count < n.count
  := by
  have hnodup : (k :: m.keys).Nodup := List.nodup_cons.mpr ⟨hm, m.keys_nodup⟩
  have hsub : k :: m.keys ⊆ n.keys := by
    intro k' hk'
    rcases List.mem_cons.mp hk' with rfl | hk'
    · apply hn
    · apply h k' hk'
  have hlen := (List.subperm_of_subset hnodup hsub).length_le
  rw [List.length_cons, length_keys, length_keys] at hlen
  omega

/-- Inserting a new key adds one entry. -/
theorem count_insert_of_not_mem {m : OrdMap α β} {k : α} {v : β} (h : k ∉ m) :
  (m.insert k v).count = m.count + 1
  := by
  have hperm : (m.insert k v).keys.Perm (k :: m.keys) := by
    apply (List.perm_ext_iff_of_nodup (keys_nodup _)
      (List.nodup_cons.mpr ⟨h, m.keys_nodup⟩)).mpr
    intro k'
    rw [mem_keys, mem_insert, List.mem_cons, mem_keys]
  rw [← length_keys, hperm.length_eq, List.length_cons, length_keys]

/-- The number of entries is that of the keys, as a set. -/
theorem count_eq_ncard (m : OrdMap α β) :
  m.count = { a | a ∈ m }.ncard
  := by
  have hset : { a | a ∈ m } = (m.keys.toFinset : Set α) := by
    ext a
    simp
  rw [hset, Set.ncard_coe_finset, List.toFinset_card_of_nodup m.keys_nodup, length_keys]

/-! ### Weights -/

/-- The sum of the weights of the values. -/
def total (m : OrdMap α β) (w : β → ℕ) : ℕ := (m.entries.map (fun e => w e.2)).sum

/-- The entry of a key, between the entries of other keys. -/
theorem entries_eq_append {m : OrdMap α β} {k : α} {v : β} (h : m.search k = some v) :
  ∃ l₁ l₂, m.entries = l₁ ++ (k, v) :: l₂ ∧ (∀ e ∈ l₁, e.1 ≠ k) ∧ ∀ e ∈ l₂, e.1 ≠ k
  := by
  obtain ⟨l₁, l₂, hentries⟩ := List.append_of_mem (search_eq_some.mp h)
  have hsorted := m.sorted
  rw [hentries, List.pairwise_append, List.pairwise_cons] at hsorted
  obtain ⟨-, ⟨hafter, -⟩, hbefore⟩ := hsorted
  refine ⟨l₁, l₂, hentries, ?_, ?_⟩
  · intro e he
    apply ne_of_lt (hbefore e he (k, v) List.mem_cons_self)
  · intro e he
    apply ne_of_gt (hafter e he)

/-- A value weighs no more than all of them. -/
theorem le_total {m : OrdMap α β} {k : α} {v : β} (h : m.search k = some v) (w : β → ℕ) :
  w v ≤ m.total w
  := by
  obtain ⟨l₁, l₂, hentries, -, -⟩ := entries_eq_append h
  simp only [total, hentries, List.map_append, List.map_cons, List.sum_append, List.sum_cons]
  omega

/-- Rewriting a value changes its weight only. -/
theorem total_modify {m : OrdMap α β} {k : α} {v : β} (h : m.search k = some v) (f : β → β)
    (w : β → ℕ) :
  (m.modify k f).total w + w v = m.total w + w (f v)
  := by
  obtain ⟨l₁, l₂, hentries, h₁, h₂⟩ := entries_eq_append h
  have hother : ∀ l : List (α × β), (∀ e ∈ l, e.1 ≠ k) →
      l.map (fun e => w (if e.1 = k then f e.2 else e.2)) = l.map (fun e => w e.2) := by
    intro l hl
    apply List.map_congr_left
    intro e he
    rw [if_neg (hl e he)]
  have hmodify : (m.modify k f).total w =
      (m.entries.map (fun e => w (if e.1 = k then f e.2 else e.2))).sum := by
    rw [total, modify, mapIdx, List.map_map]
    rfl
  rw [hmodify, total, hentries, List.map_append, List.map_cons, hother l₁ h₁, hother l₂ h₂,
    if_pos rfl, List.map_append, List.map_cons]
  simp only [List.sum_append, List.sum_cons]
  omega

/-- Deleting an entry takes its weight away. -/
theorem total_erase {m : OrdMap α β} {k : α} {v : β} (h : m.search k = some v) (w : β → ℕ) :
  (m.erase k).total w + w v = m.total w
  := by
  obtain ⟨l₁, l₂, hentries, h₁, h₂⟩ := entries_eq_append h
  have hother : ∀ l : List (α × β), (∀ e ∈ l, e.1 ≠ k) → l.filter (fun e => e.1 ≠ k) = l := by
    intro l hl
    apply List.filter_eq_self.mpr
    intro e he
    exact decide_eq_true (hl e he)
  have herase : (m.erase k).entries = l₁ ++ l₂ := by
    apply Eq.trans (congrArg (List.filter (fun e => e.1 ≠ k)) hentries)
    rw [List.filter_append, List.filter_cons_of_neg (by simp), hother l₁ h₁, hother l₂ h₂]
  rw [total, total, herase, hentries]
  simp only [List.map_append, List.map_cons, List.sum_append, List.sum_cons]
  omega

/-! ### The first entry -/

/-- The first entry is an entry. -/
theorem search_first {m : OrdMap α β} {k : α} {v : β} (h : m.first = some (k, v)) :
  m.search k = some v
  := search_eq_some.mpr (List.mem_of_mem_head? h)

/-- A map with a key has a first entry, whose key is the smallest. -/
theorem first_of_mem {m : OrdMap α β} {k : α} (h : k ∈ m) :
  ∃ k' v, m.first = some (k', v) ∧ k' ≤ k
  := by
  obtain ⟨v, hv⟩ := mem_iff.mp h
  have hentry := search_eq_some.mp hv
  have hsorted := m.sorted
  rw [first]
  cases hentries : m.entries with
  | nil =>
      rw [hentries] at hentry
      contradiction
  | cons e l =>
      rw [hentries] at hentry hsorted
      refine ⟨e.1, e.2, rfl, ?_⟩
      rcases List.mem_cons.mp hentry with heq | hmem
      · rw [← heq]
      · apply le_of_lt (List.rel_of_pairwise_cons hsorted hmem)

end OrdMap
