import SyNetsim.Rbtree
import Mathlib.Data.List.Basic
import Mathlib.Logic.Function.Iterate

/-!
# Walks through red-black trees

`rbtree_first` and `rbtree_next` go through the nodes of a tree by the pointers to children and
parents, and `rbtree_last` and `rbtree_previous` go the other way. A node is given by the tree below
it and the path to it.

These walks meet the keys in order. For a tree that was made by insertions and deletions these are
the keys that were inserted and not deleted since (`OrderOn.traversal`). The greatest of them that
is not greater than a given key is what `rbtree_find_less_equal` finds (`OrderOn.findLessEqual`),
and `traverse_postorder` does not touch a node after it has passed it to its function
(`OrderOn.traversePostorder`).
-/

variable {κ : Type*}

/-! ### Steps of a walk -/

namespace RbPath

/-- The loop of `rbtree_next` over the parents: go up as long as the place is a right child, and
then once more. -/
def parentAfter : RbPath κ → RbTree κ → RbTree κ × RbPath κ
  | root, _ => (.null, root)
  | left c parent k r, t => (.node c t k r, parent)
  | right c l k parent, t => parent.parentAfter (.node c l k t)

/-- The loop of `rbtree_previous` over the parents. -/
def parentBefore : RbPath κ → RbTree κ → RbTree κ × RbPath κ
  | root, _ => (.null, root)
  | left c parent k r, t => parent.parentBefore (.node c t k r)
  | right c l k parent, t => (.node c l k t, parent)

end RbPath

namespace RbTree

/-- Go right as long as there is a right child. -/
def zoomRight : RbTree κ → RbPath κ → RbTree κ × RbPath κ
  | null, path => (null, path)
  | node c l k null, path => (node c l k null, path)
  | node c l k (node c' l' k' r'), path => zoomRight (node c' l' k' r') (.right c l k path)

/-- `rbtree_first` -/
def rbtreeFirst (t : RbTree κ) : RbTree κ × RbPath κ := t.zoomLeft .root

/-- `rbtree_last` -/
def rbtreeLast (t : RbTree κ) : RbTree κ × RbPath κ := t.zoomRight .root

/-- `rbtree_next`. All pointers of `RBTREE_NULL` lead to itself. -/
def rbtreeNext : RbTree κ × RbPath κ → RbTree κ × RbPath κ
  | (null, _) => (null, .root)
  | (node c l k null, path) => path.parentAfter (node c l k null)
  | (node c l k (node c' l' k' r'), path) => (node c' l' k' r').zoomLeft (.right c l k path)

/-- `rbtree_previous` -/
def rbtreePrevious : RbTree κ × RbPath κ → RbTree κ × RbPath κ
  | (null, _) => (null, .root)
  | (node c null k r, path) => path.parentBefore (node c null k r)
  | (node c (node c' l' k' r') k r, path) => (node c' l' k' r').zoomRight (.left c path k r)

/-- The key of a node. `RBTREE_NULL` has none. -/
def rootKey : RbTree κ → Option κ
  | null => none
  | node _ _ k _ => some k

/-- The walk through `t` has come to the first of the keys `rest`, after the keys `done`. At the end
it is at `RBTREE_NULL`. -/
def At (t : RbTree κ) (done : List κ) : List κ → RbTree κ × RbPath κ → Prop
  | [], place => place.1 = null
  | k :: rest, place => ∃ c l r path, place = (node c l k r, path) ∧ path.fill (node c l k r) = t ∧
      path.before ++ l.toList = done ∧ r.toList ++ path.after = rest

theorem At.rootKey_eq {t : RbTree κ} {done rest : List κ} {place : RbTree κ × RbPath κ}
    (h : t.At done rest place) :
  place.1.rootKey = rest.head?
  := by
  cases rest with
  | nil =>
      have hnull : place.1 = null := h
      rw [hnull]
      rfl
  | cons k rest =>
      obtain ⟨c, l, r, path, rfl, -, -, -⟩ := h
      rfl

/-- The leftmost node of a subtree has its first key. -/
theorem at_zoomLeft {t : RbTree κ} (t' : RbTree κ) (path : RbPath κ) (ht : t' ≠ null)
    (hfill : path.fill t' = t) :
  t.At path.before (t'.toList ++ path.after) (t'.zoomLeft path)
  := by
  induction t', path using zoomLeft.induct with
  | case1 path => contradiction
  | case2 c k r path => exact ⟨c, null, r, path, rfl, hfill, by simp [toList], rfl⟩
  | case3 c c' l' k' r' k r path ih =>
      have hat := ih (by simp) hfill
      rw [zoomLeft]
      simpa [RbPath.before, RbPath.after, toList] using hat

/-- The next node upwards has the first key after those of the subtree. -/
theorem at_parentAfter {t : RbTree κ} (path : RbPath κ) (t' : RbTree κ) (hfill : path.fill t' = t) :
  t.At (path.before ++ t'.toList) path.after (path.parentAfter t')
  := by
  induction path generalizing t' with
  | root => rfl
  | left c parent k r ih => exact ⟨c, t', r, parent, rfl, hfill, rfl, rfl⟩
  | right c l k parent ih =>
      have hat := ih (node c l k t') hfill
      simpa [RbPath.before, RbPath.after, RbPath.parentAfter, toList] using hat

/-- One step of a walk goes to the next key. -/
theorem At.rbtreeNext {t : RbTree κ} {done rest : List κ} {k : κ} {place : RbTree κ × RbPath κ}
    (h : t.At done (k :: rest) place) :
  t.At (done ++ [k]) rest (rbtreeNext place)
  := by
  obtain ⟨c, l, r, path, rfl, hfill, rfl, rfl⟩ := h
  cases r with
  | null =>
      have hat := at_parentAfter path (node c l k null) hfill
      simpa [toList, RbTree.rbtreeNext] using hat
  | node c' l' k' r' =>
      have hat := at_zoomLeft (node c' l' k' r') (.right c l k path) (by simp) hfill
      simpa [RbPath.before, RbPath.after, toList, RbTree.rbtreeNext] using hat

theorem at_rbtreeFirst (t : RbTree κ) :
  t.At [] t.toList t.rbtreeFirst
  := by
  cases t with
  | null => rfl
  | node c l k r =>
      have hat := at_zoomLeft (node c l k r) .root (by simp) rfl
      simpa [RbPath.before, RbPath.after, RbPath.fill, rbtreeFirst] using hat

/-- After `i` steps, a walk has come to the key with the index `i`, or to `RBTREE_NULL` if there are
not as many keys. -/
theorem at_rbtreeNext_iterate (t : RbTree κ) (i : ℕ) :
  t.At (t.toList.take i) (t.toList.drop i) (RbTree.rbtreeNext^[i] t.rbtreeFirst)
  := by
  induction i with
  | zero => exact t.at_rbtreeFirst
  | succ i ih =>
      rw [Function.iterate_succ_apply']
      by_cases hi : i < t.toList.length
      · rw [List.drop_eq_getElem_cons hi] at ih
        have hat := ih.rbtreeNext
        rwa [List.take_append_getElem hi] at hat
      · rw [List.drop_eq_nil_of_le (by omega)] at ih ⊢
        have hnull : (RbTree.rbtreeNext^[i] t.rbtreeFirst).1 = null := ih
        generalize RbTree.rbtreeNext^[i] t.rbtreeFirst = place at hnull
        obtain ⟨t', path⟩ := place
        obtain rfl : t' = null := hnull
        rfl

/-- A walk from the first node meets the keys from left to right. -/
theorem rootKey_rbtreeNext_iterate (t : RbTree κ) (i : ℕ) :
  (RbTree.rbtreeNext^[i] t.rbtreeFirst).1.rootKey = t.toList[i]?
  := by
  rw [(t.at_rbtreeNext_iterate i).rootKey_eq, List.head?_drop]

end RbTree

/-! ### The other way round

`rbtree_last` and `rbtree_previous` do in a tree what `rbtree_first` and `rbtree_next` do in its
mirror image.
-/

namespace RbTree

/-- The mirror image of a tree. -/
def mirror : RbTree κ → RbTree κ
  | null => null
  | node c l k r => node c r.mirror k l.mirror

end RbTree

/-- The mirror image of a path. -/
def RbPath.mirror : RbPath κ → RbPath κ
  | root => root
  | left c parent k r => right c r.mirror k parent.mirror
  | right c l k parent => left c parent.mirror k l.mirror

namespace RbTree

/-- The mirror image of a place. -/
def mirrorPlace (place : RbTree κ × RbPath κ) : RbTree κ × RbPath κ :=
  (place.1.mirror, place.2.mirror)

@[simp]
theorem toList_mirror (t : RbTree κ) :
  t.mirror.toList = t.toList.reverse
  := by
  induction t with
  | null => rfl
  | node c l k r ihl ihr => simp [mirror, toList, ihl, ihr]

@[simp]
theorem rootKey_mirror (t : RbTree κ) :
  t.mirror.rootKey = t.rootKey
  := by
  cases t <;> rfl

theorem mirrorPlace_zoomRight (t : RbTree κ) (path : RbPath κ) :
  mirrorPlace (t.zoomRight path) = t.mirror.zoomLeft path.mirror
  := by
  induction t, path using zoomRight.induct with
  | case1 path => rfl
  | case2 c l k path => rfl
  | case3 c l k c' l' k' r' path ih => exact ih

theorem mirrorPlace_parentBefore (path : RbPath κ) (t : RbTree κ) :
  mirrorPlace (path.parentBefore t) = path.mirror.parentAfter t.mirror
  := by
  induction path generalizing t with
  | root => rfl
  | left c parent k r ih => exact ih (node c t k r)
  | right c l k parent ih => rfl

/-- A step back is a step forward in the mirror image. -/
theorem mirrorPlace_rbtreePrevious (place : RbTree κ × RbPath κ) :
  mirrorPlace (rbtreePrevious place) = rbtreeNext (mirrorPlace place)
  := by
  obtain ⟨t, path⟩ := place
  cases t with
  | null => rfl
  | node c l k r =>
      cases l with
      | null => apply mirrorPlace_parentBefore
      | node c' l' k' r' => apply mirrorPlace_zoomRight

/-- A walk from the last node meets the keys from right to left. -/
theorem rootKey_rbtreePrevious_iterate (t : RbTree κ) (i : ℕ) :
  (rbtreePrevious^[i] t.rbtreeLast).1.rootKey = t.toList.reverse[i]?
  := by
  have hlast : mirrorPlace t.rbtreeLast = t.mirror.rbtreeFirst := mirrorPlace_zoomRight t .root
  have hwalk : mirrorPlace (rbtreePrevious^[i] t.rbtreeLast) =
      rbtreeNext^[i] t.mirror.rbtreeFirst := by
    rw [← hlast]
    exact Function.Semiconj.iterate_right mirrorPlace_rbtreePrevious i t.rbtreeLast
  rw [← toList_mirror, ← rootKey_rbtreeNext_iterate, ← hwalk]
  exact (rootKey_mirror _).symm

end RbTree

/-- In a tree that was made by insertions and deletions, the walks by `rbtree_next` and
`rbtree_previous` meet the live keys in order, each of them once, and then end. -/
theorem OrderOn.traversal {cmp : κ → κ → ℤ} {K : Set κ} (h : OrderOn cmp K) {ops : List (RbOp κ)}
    (hops : ∀ op ∈ ops, op.key ∈ K) :
  ∃ (t : RbTree κ) (keys : List κ), ops.foldlM (RbOp.run cmp) RbTree.null = some t ∧
    keys.Pairwise (fun a b => cmp a b < 0) ∧ (∀ k, k ∈ keys ↔ RbOp.Live ops k) ∧
    (∀ i, (RbTree.rbtreeNext^[i] t.rbtreeFirst).1.rootKey = keys[i]?) ∧
    ∀ i, (RbTree.rbtreePrevious^[i] t.rbtreeLast).1.rootKey = keys.reverse[i]?
  := by
  obtain ⟨t, ht, hordered, hlive⟩ := h.foldlM_spec hops
  exact ⟨t, t.toList, ht, hordered.sorted, hlive, t.rootKey_rbtreeNext_iterate,
    t.rootKey_rbtreePrevious_iterate⟩

/-- The difference of two numbers orders them. -/
theorem OrderOn.sub :
  OrderOn (fun a b : ℤ => a - b) Set.univ
  := by
  constructor
  · intro a _ b _
    omega
  · intro a _ b _
    omega
  · intro a _ b _ c _ hab hbc
    omega

theorem OrderOn.traversal_two :
  ∃ (t : RbTree ℤ) (keys : List ℤ),
    [RbOp.insert 2, .insert 1, .insert 3, .delete 2].foldlM (RbOp.run (fun a b => a - b)) .null =
      some t ∧
    keys.Pairwise (fun a b => a - b < 0) ∧
    (∀ k, k ∈ keys ↔ RbOp.Live [RbOp.insert 2, .insert 1, .insert 3, .delete 2] k) ∧
    (∀ i, (RbTree.rbtreeNext^[i] t.rbtreeFirst).1.rootKey = keys[i]?) ∧
    ∀ i, (RbTree.rbtreePrevious^[i] t.rbtreeLast).1.rootKey = keys.reverse[i]?
  := by
  apply OrderOn.traversal OrderOn.sub
  intro op _
  apply Set.mem_univ

/-! ### The greatest key that is not greater than a given key -/

namespace RbTree

/-- `rbtree_find_less_equal`: its value, and the key of the node in `*result`, which is `result` at
first. -/
def rbtreeFindLessEqual (cmp : κ → κ → ℤ) (key : κ) : RbTree κ → Option κ → Bool × Option κ
  | null, result => (false, result)
  | node _ l k r, result =>
      if cmp key k = 0 then (true, some k)
      else if cmp key k < 0 then l.rbtreeFindLessEqual cmp key result
      else r.rbtreeFindLessEqual cmp key (some k)

/-- `rbtree_search` gives the node of `rbtree_find_less_equal` if that is an exact match. -/
theorem rbtreeSearch_eq (cmp : κ → κ → ℤ) (key : κ) (t : RbTree κ) (result : Option κ) :
  t.rbtreeSearch cmp key = if (t.rbtreeFindLessEqual cmp key result).1 then
      (t.rbtreeFindLessEqual cmp key result).2 else none
  := by
  induction t generalizing result with
  | null => rfl
  | node c l k r ihl ihr =>
      rw [rbtreeSearch, rbtreeFindLessEqual]
      by_cases hzero : cmp key k = 0
      · simp [hzero]
      · by_cases hlt : cmp key k < 0
        · simp only [if_neg hzero, if_pos hlt]
          apply ihl
        · simp only [if_neg hzero, if_neg hlt]
          apply ihr

end RbTree

namespace OrderOn

variable {cmp : κ → κ → ℤ} {K : Set κ}

/-- No key that is greater is less or equal. -/
theorem filter_le_eq_nil (h : OrderOn cmp K) {key : κ} (hkey : key ∈ K) {keys : List κ}
    (hmem : ∀ x ∈ keys, x ∈ K) (hgreater : ∀ x ∈ keys, cmp key x < 0) :
  keys.filter (fun x => cmp x key ≤ 0) = []
  := by
  rw [List.filter_eq_nil_iff]
  intro x hx
  have hswap := (h.swap key hkey x (hmem x hx)).mp (hgreater x hx)
  simpa using hswap

/-- What `rbtree_find_less_equal` finds in a part of a tree: the last key that is not greater, or
what it has found before if there is none. -/
theorem rbtreeFindLessEqual_spec (h : OrderOn cmp K) {key : κ} (hkey : key ∈ K) {t : RbTree κ}
    (hmem : ∀ k ∈ t.toList, k ∈ K) (hsorted : t.toList.Pairwise (fun a b => cmp a b < 0))
    (result : Option κ) :
  ((t.rbtreeFindLessEqual cmp key result).1 = true ↔ key ∈ t.toList) ∧
    (t.rbtreeFindLessEqual cmp key result).2 =
      (t.toList.filter (fun k => cmp k key ≤ 0)).getLast?.or result
  := by
  induction t generalizing result with
  | null => simp [RbTree.rbtreeFindLessEqual, RbTree.toList]
  | node c l k r ihl ihr =>
      simp only [RbTree.toList, List.mem_append, List.mem_cons, List.pairwise_append,
        List.pairwise_cons] at hmem hsorted
      obtain ⟨hl, ⟨hkr, hr⟩, hlkr⟩ := hsorted
      have hk : k ∈ K := hmem k (Or.inr (Or.inl rfl))
      have hihl := ihl (fun x hx => hmem x (Or.inl hx)) hl
      have hihr := ihr (fun x hx => hmem x (Or.inr (Or.inr hx))) hr
      rw [RbTree.rbtreeFindLessEqual, RbTree.toList, List.mem_append, List.mem_cons,
        List.filter_append, List.getLast?_append]
      by_cases hzero : cmp key k = 0
      · -- The keys on the right are greater.
        obtain rfl := (h.eq_zero key hkey k hk).mp hzero
        have hright : r.toList.filter (fun x => cmp x key ≤ 0) = [] := by
          apply h.filter_le_eq_nil hkey
          · exact fun x hx => hmem x (Or.inr (Or.inr hx))
          · apply hkr
        simp [hzero, hright]
      · by_cases hlt : cmp key k < 0
        · have hgreater : ∀ x ∈ k :: r.toList, cmp key x < 0 := by
            intro x hx
            rcases List.mem_cons.mp hx with rfl | hx
            · apply hlt
            · apply h.trans key hkey k hk x (hmem x (Or.inr (Or.inr hx))) hlt (hkr x hx)
          have hright : (k :: r.toList).filter (fun x => cmp x key ≤ 0) = [] := by
            apply h.filter_le_eq_nil hkey
            · exact fun x hx => hmem x (Or.inr (List.mem_cons.mp hx))
            · apply hgreater
          have hnot : key ∉ k :: r.toList := fun hin => h.irrefl hkey (hgreater key hin)
          rw [if_neg hzero, if_pos hlt, hright, (hihl result).1, (hihl result).2, ← List.mem_cons]
          simp [hnot]
        · have hgt : cmp k key < 0 := h.lt_or_gt hkey hk hzero hlt
          have hnot : key ≠ k ∧ key ∉ l.toList := by
            refine ⟨(h.ne hk hgt).symm, ?_⟩
            intro hin
            apply h.irrefl hkey
            apply h.trans key hkey k hk key hkey (hlkr key hin k (Or.inl rfl)) hgt
          rw [if_neg hzero, if_neg hlt, (hihr (some k)).1, (hihr (some k)).2,
            List.filter_cons_of_pos (by simpa using hgt.le), List.getLast?_cons]
          constructor
          · simp [hnot]
          · cases (r.toList.filter (fun x => cmp x key ≤ 0)).getLast? <;> simp

/-- The last of some keys in order is the greatest. -/
theorem getLast?_eq_some_iff (h : OrderOn cmp K) {keys : List κ} (hmem : ∀ x ∈ keys, x ∈ K)
    (hsorted : keys.Pairwise (fun a b => cmp a b < 0)) {k : κ} :
  keys.getLast? = some k ↔ k ∈ keys ∧ ∀ x ∈ keys, cmp x k ≤ 0
  := by
  rw [List.getLast?_eq_some_iff]
  constructor
  · rintro ⟨keys, rfl⟩
    have hk : k ∈ K := hmem k (by simp)
    refine ⟨by simp, ?_⟩
    intro x hx
    rw [List.mem_append, List.mem_singleton] at hx
    rcases hx with hx | rfl
    · exact (List.pairwise_append.mp hsorted).2.2 x hx k (by simp) |>.le
    · rw [(h.eq_zero x hk x hk).mpr rfl]
  · rintro ⟨hin, hgreatest⟩
    obtain rfl | ⟨init, last, rfl⟩ := keys.eq_nil_or_concat'
    · contradiction
    refine ⟨init, ?_⟩
    rw [List.mem_append, List.mem_singleton] at hin
    rcases hin with hin | rfl
    · have hlt : cmp k last < 0 := (List.pairwise_append.mp hsorted).2.2 k hin last (by simp)
      have hswap := (h.swap k (hmem k (by simp [hin])) last (hmem last (by simp))).mp hlt
      have hle := hgreatest last (by simp)
      omega
    · rfl

/-- `rbtree_find_less_equal` says if a key is live, and finds the greatest live key that is not
greater. -/
theorem findLessEqual (h : OrderOn cmp K) {ops : List (RbOp κ)} (hops : ∀ op ∈ ops, op.key ∈ K) :
  ∃ t : RbTree κ, ops.foldlM (RbOp.run cmp) RbTree.null = some t ∧
    ∀ key ∈ K,
      ((t.rbtreeFindLessEqual cmp key none).1 = true ↔ RbOp.Live ops key) ∧
      ∀ k, (t.rbtreeFindLessEqual cmp key none).2 = some k ↔
        RbOp.Live ops k ∧ cmp k key ≤ 0 ∧
          ∀ k', RbOp.Live ops k' → cmp k' key ≤ 0 → cmp k' k ≤ 0
  := by
  obtain ⟨t, ht, hordered, hlive⟩ := h.foldlM_spec hops
  refine ⟨t, ht, ?_⟩
  intro key hkey
  obtain ⟨hfound, hresult⟩ := h.rbtreeFindLessEqual_spec hkey hordered.mem hordered.sorted none
  simp only [← hlive]
  refine ⟨hfound, ?_⟩
  intro k
  rw [hresult, Option.or_none,
    h.getLast?_eq_some_iff (fun x hx => hordered.mem x (List.mem_filter.mp hx).1)
      (hordered.sorted.filter _)]
  simp only [List.mem_filter, decide_eq_true_eq, and_imp, and_assoc]

theorem findLessEqual_two :
  ∃ t : RbTree ℤ, [RbOp.insert 4, .insert 2].foldlM (RbOp.run (fun a b => a - b)) .null = some t ∧
    ∀ key ∈ Set.univ,
      ((t.rbtreeFindLessEqual (fun a b => a - b) key none).1 = true ↔
        RbOp.Live [RbOp.insert 4, .insert 2] key) ∧
      ∀ k, (t.rbtreeFindLessEqual (fun a b => a - b) key none).2 = some k ↔
        RbOp.Live [RbOp.insert 4, .insert 2] k ∧ k - key ≤ 0 ∧
          ∀ k', RbOp.Live [RbOp.insert 4, .insert 2] k' → k' - key ≤ 0 → k' - k ≤ 0
  := by
  apply OrderOn.findLessEqual OrderOn.sub
  intro op _
  apply Set.mem_univ

end OrderOn

/-! ### The walk that frees the nodes -/

/-- What `traverse_post` does with a node, which is given by its key: it reads one of its children,
or it calls the function, which may free the node. -/
inductive Touch (κ : Type*) where
  | child (key : κ)
  | func (key : κ)
deriving DecidableEq

/-- The key of the node. -/
def Touch.key : Touch κ → κ
  | child k => k
  | func k => k

/-- `b` does not touch the node for which `a` calls the function. -/
def Touch.Spares (a b : Touch κ) : Prop := ∀ k, a = .func k → b.key ≠ k

/-- `traverse_postorder`: what it does with the nodes, one after the other. -/
def RbTree.traversePostorder : RbTree κ → List (Touch κ)
  | null => []
  | node _ l k r =>
      .child k :: l.traversePostorder ++ (.child k :: r.traversePostorder ++ [.func k])

theorem RbTree.key_mem_of_mem_traversePostorder {t : RbTree κ} {touch : Touch κ}
    (h : touch ∈ t.traversePostorder) :
  touch.key ∈ t.toList
  := by
  induction t with
  | null => contradiction
  | node c l k r ihl ihr =>
      simp only [traversePostorder, List.mem_append, List.mem_cons, List.not_mem_nil, or_false]
        at h
      rw [toList, List.mem_append, List.mem_cons]
      rcases h with (rfl | h) | (rfl | h) | rfl
      · exact Or.inr (Or.inl rfl)
      · exact Or.inl (ihl h)
      · exact Or.inr (Or.inl rfl)
      · exact Or.inr (Or.inr (ihr h))
      · exact Or.inr (Or.inl rfl)

/-- The function is called for each node. -/
theorem RbTree.func_mem_traversePostorder (t : RbTree κ) (k : κ) :
  Touch.func k ∈ t.traversePostorder ↔ k ∈ t.toList
  := by
  induction t with
  | null => simp [traversePostorder, toList]
  | node c l k' r ihl ihr =>
      simp only [traversePostorder, toList, List.mem_append, List.mem_cons, List.not_mem_nil,
        or_false, reduceCtorEq, false_or, Touch.func.injEq, ihl, ihr]
      tauto

/-- A node is not touched after the function was called for it. -/
theorem RbTree.pairwise_traversePostorder {t : RbTree κ} (h : t.toList.Nodup) :
  t.traversePostorder.Pairwise Touch.Spares
  := by
  induction t with
  | null => exact List.Pairwise.nil
  | node c l k r ihl ihr =>
      rw [toList, List.nodup_append, List.nodup_cons] at h
      obtain ⟨hl, ⟨hkr, hr⟩, hdisjoint⟩ := h
      -- The function is called for a node of the subtree, if at all.
      have hchild : ∀ {t : RbTree κ} {a x}, a ∈ Touch.child k :: t.traversePostorder →
          a = .func x → x ∈ t.toList := by
        rintro t a x ha rfl
        rcases List.mem_cons.mp ha with heq | ha
        · contradiction
        · apply key_mem_of_mem_traversePostorder ha
      have hcons : ∀ {t : RbTree κ}, t.traversePostorder.Pairwise Touch.Spares →
          (Touch.child k :: t.traversePostorder).Pairwise Touch.Spares := by
        intro t ht
        refine List.pairwise_cons.mpr ⟨?_, ht⟩
        intro b _ x heq
        contradiction
      rw [traversePostorder, List.pairwise_append, List.pairwise_append]
      refine ⟨hcons (ihl hl), ⟨hcons (ihr hr), List.pairwise_singleton _ _, ?_⟩, ?_⟩
      · intro a ha b hb x heq
        rw [List.mem_singleton.mp hb]
        rintro rfl
        apply hkr (hchild ha heq)
      · intro a ha b hb x heq
        have hx := hchild ha heq
        apply (hdisjoint x hx b.key ?_).symm
        simp only [List.mem_append, List.mem_cons, List.not_mem_nil, or_false] at hb ⊢
        rcases hb with (rfl | hb) | rfl
        · exact Or.inl rfl
        · exact Or.inr (key_mem_of_mem_traversePostorder hb)
        · exact Or.inl rfl

namespace OrderOn

variable {cmp : κ → κ → ℤ} {K : Set κ}

/-- `traverse_postorder` calls the function once for each live key, and does not touch a node after
that, so that the function may free it. -/
theorem traversePostorder (h : OrderOn cmp K) {ops : List (RbOp κ)}
    (hops : ∀ op ∈ ops, op.key ∈ K) :
  ∃ t : RbTree κ, ops.foldlM (RbOp.run cmp) RbTree.null = some t ∧
    (∀ k, Touch.func k ∈ t.traversePostorder ↔ RbOp.Live ops k) ∧
    ∀ pre k post, t.traversePostorder = pre ++ Touch.func k :: post →
      ∀ touch ∈ post, touch.key ≠ k
  := by
  obtain ⟨t, ht, hordered, hlive⟩ := h.foldlM_spec hops
  have hnodup : t.toList.Nodup := by
    apply hordered.sorted.imp_of_mem
    intro a b ha _ hlt
    apply h.ne (hordered.mem a ha) hlt
  refine ⟨t, ht, ?_, ?_⟩
  · intro k
    rw [t.func_mem_traversePostorder, hlive]
  · intro pre k post heq touch htouch
    have hpairwise := RbTree.pairwise_traversePostorder hnodup
    rw [heq, List.pairwise_append, List.pairwise_cons] at hpairwise
    apply hpairwise.2.1.1 touch htouch k rfl

theorem traversePostorder_two :
  ∃ t : RbTree ℤ, [RbOp.insert 4, .insert 2].foldlM (RbOp.run (fun a b => a - b)) .null = some t ∧
    (∀ k, Touch.func k ∈ t.traversePostorder ↔ RbOp.Live [RbOp.insert 4, .insert 2] k) ∧
    ∀ pre k post, t.traversePostorder = pre ++ Touch.func k :: post →
      ∀ touch ∈ post, touch.key ≠ k
  := by
  apply OrderOn.traversePostorder OrderOn.sub
  intro op _
  apply Set.mem_univ

end OrderOn
