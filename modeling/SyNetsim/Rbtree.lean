import Mathlib.Data.List.Pairwise
import Mathlib.Data.List.Induction
import Mathlib.Data.Set.Basic
import Mathlib.Data.Int.Notation

/-!
# Red-black trees

`rbtree.c`: trees with a comparison function for their keys. A place in a tree is a path to the
root (`RbPath`), which stands for the pointers to the parents.

The comparison function is a parameter. If it is a total order on a set of keys (`OrderOn`), then
any sequence of insertions and deletions of such keys succeeds, and a search finds a key exactly
when it was inserted and not deleted since (`OrderOn.finds`).
-/

/-- The field `color` of a node. -/
inductive RbColor where
  | black
  | red
deriving DecidableEq

/-- A tree of nodes with their keys. `null` is `RBTREE_NULL`. -/
inductive RbTree (κ : Type*) where
  | null
  | node (color : RbColor) (left : RbTree κ) (key : κ) (right : RbTree κ)
deriving DecidableEq

/-- The way from a place in a tree to the root: the place is the root, or the left or the right
child of a node, which is given by its color, its key, its other child and its own place. -/
inductive RbPath (κ : Type*) where
  | root
  | left (color : RbColor) (parent : RbPath κ) (key : κ) (right : RbTree κ)
  | right (color : RbColor) (left : RbTree κ) (key : κ) (parent : RbPath κ)

variable {κ : Type*}

namespace RbTree

/-- The color of a tree. `RBTREE_NULL` is black. -/
def color : RbTree κ → RbColor
  | null => .black
  | node c _ _ _ => c

/-- The left child. That of `RBTREE_NULL` is `RBTREE_NULL`. -/
def leftChild : RbTree κ → RbTree κ
  | null => null
  | node _ l _ _ => l

/-- The right child. -/
def rightChild : RbTree κ → RbTree κ
  | null => null
  | node _ _ _ r => r

/-- Give a node the color `c`. The source does not paint `RBTREE_NULL`, or paints it black, which
it is. -/
def paint (c : RbColor) : RbTree κ → RbTree κ
  | null => null
  | node _ l k r => node c l k r

/-- Paint the left child black. -/
def paintLeft : RbTree κ → RbTree κ
  | null => null
  | node c l k r => node c (l.paint .black) k r

/-- Paint the right child black. -/
def paintRight : RbTree κ → RbTree κ
  | null => null
  | node c l k r => node c l k (r.paint .black)

/-- `rbtree_rotate_left`, at a node with a right child. -/
def rbtreeRotateLeft : RbTree κ → RbTree κ
  | node c l k (node c' l' k' r') => node c' (node c l k l') k' r'
  | t => t

/-- `rbtree_rotate_right`, at a node with a left child. -/
def rbtreeRotateRight : RbTree κ → RbTree κ
  | node c (node c' l' k' r') k r => node c' l' k' (node c r' k r)
  | t => t

/-- The keys from left to right. -/
def toList : RbTree κ → List κ
  | null => []
  | node _ l k r => l.toList ++ k :: r.toList

end RbTree

namespace RbPath

/-- The whole tree, with `t` at the place. -/
def fill : RbPath κ → RbTree κ → RbTree κ
  | root, t => t
  | left c parent k r, t => parent.fill (.node c t k r)
  | right c l k parent, t => parent.fill (.node c l k t)

/-! ### Fixing up -/

/-- `rbtree_insert_fixup`, with the red node `node` at the place. It gives `none` when the root is
red: then the source takes the parent of the root for a node. -/
def rbtreeInsertFixup : RbPath κ → RbTree κ → Option (RbTree κ)
  | root, node => some (node.paint .black)
  | left .black parent k r, node => some ((fill (left .black parent k r) node).paint .black)
  | right .black l k parent, node => some ((fill (right .black l k parent) node).paint .black)
  | left .red root _ _, _ => none
  | right .red _ _ root, _ => none
  -- The parent is the left child of the grandparent.
  | left .red (left _ grandparent gk uncle) pk pr, node =>
      if uncle.color = .red then
        grandparent.rbtreeInsertFixup
          (.node .red (.node .black node pk pr) gk (uncle.paint .black))
      else
        some ((grandparent.fill
          (RbTree.node .red (.node .black node pk pr) gk uncle).rbtreeRotateRight).paint .black)
  | right .red pl pk (left _ grandparent gk uncle), node =>
      if uncle.color = .red then
        grandparent.rbtreeInsertFixup
          (.node .red (.node .black pl pk node) gk (uncle.paint .black))
      else
        let parent := (RbTree.node .red pl pk node).rbtreeRotateLeft
        some ((grandparent.fill
          (RbTree.node .red (parent.paint .black) gk uncle).rbtreeRotateRight).paint .black)
  -- The parent is the right child of the grandparent.
  | right .red pl pk (right _ uncle gk grandparent), node =>
      if uncle.color = .red then
        grandparent.rbtreeInsertFixup
          (.node .red (uncle.paint .black) gk (.node .black pl pk node))
      else
        some ((grandparent.fill
          (RbTree.node .red uncle gk (.node .black pl pk node)).rbtreeRotateLeft).paint .black)
  | left .red (right _ uncle gk grandparent) pk pr, node =>
      if uncle.color = .red then
        grandparent.rbtreeInsertFixup
          (.node .red (uncle.paint .black) gk (.node .black node pk pr))
      else
        let parent := (RbTree.node .red node pk pr).rbtreeRotateRight
        some ((grandparent.fill
          (RbTree.node .red uncle gk (parent.paint .black)).rbtreeRotateLeft).paint .black)

/-- A node and both its children are black. -/
def AllBlack (sibling : RbTree κ) : Prop :=
  sibling.color = .black ∧ sibling.leftChild.color = .black ∧ sibling.rightChild.color = .black

instance (sibling : RbTree κ) : Decidable (AllBlack sibling) :=
  inferInstanceAs (Decidable (_ ∧ _ ∧ _))

/-- The end of `rbtree_delete_fixup`, after its loop, for a left child: the tree at the place of
`child_parent`, which has the color `c` and the key `k`. -/
def deleteFixupLeft (c : RbColor) (child : RbTree κ) (k : κ) (sibling : RbTree κ) : RbTree κ :=
  if c = .red ∧ AllBlack sibling then .node .black child k (sibling.paint .red)
  else
    let sibling :=
      if sibling.color = .black ∧ sibling.leftChild.color = .red ∧
          sibling.rightChild.color = .black then
        (sibling.paint .red).paintLeft.rbtreeRotateRight
      else sibling
    (RbTree.node .black child k (sibling.paint c).paintRight).rbtreeRotateLeft

/-- The end of `rbtree_delete_fixup` for a right child. -/
def deleteFixupRight (c : RbColor) (sibling : RbTree κ) (k : κ) (child : RbTree κ) : RbTree κ :=
  if c = .red ∧ AllBlack sibling then .node .black (sibling.paint .red) k child
  else
    let sibling :=
      if sibling.color = .black ∧ sibling.rightChild.color = .red ∧
          sibling.leftChild.color = .black then
        (sibling.paint .red).paintRight.rbtreeRotateLeft
      else sibling
    (RbTree.node .black (sibling.paint c).paintLeft k child).rbtreeRotateRight

/-- `rbtree_delete_fixup`, with the tree `child` at the place, which is one black node short. -/
def rbtreeDeleteFixup : RbPath κ → RbTree κ → RbTree κ
  | root, child => child
  | left c parent k sibling, child =>
      match sibling with
      -- The loop ends after the rotation, since `child_parent` is red then.
      | .node .red sl sk sr =>
          (left .black parent sk sr).fill (deleteFixupLeft .red child k sl)
      | sibling =>
          if c = .black ∧ AllBlack sibling then
            parent.rbtreeDeleteFixup (.node c child k (sibling.paint .red))
          else parent.fill (deleteFixupLeft c child k sibling)
  | right c sibling k parent, child =>
      match sibling with
      | .node .red sl sk sr =>
          (right .black sl sk parent).fill (deleteFixupRight .red sr k child)
      | sibling =>
          if c = .black ∧ AllBlack sibling then
            parent.rbtreeDeleteFixup (.node c (sibling.paint .red) k child)
          else parent.fill (deleteFixupRight c sibling k child)

/-- The end of `rbtree_delete`: the node at the place, which has the color `c`, is replaced by its
only child. -/
def unlink (path : RbPath κ) (c : RbColor) (child : RbTree κ) : RbTree κ :=
  if c = .red then path.fill child
  else if child.color = .red then path.fill (child.paint .black)
  else path.rbtreeDeleteFixup child

end RbPath

/-! ### Operations -/

namespace RbTree

variable (cmp : κ → κ → ℤ)

/-- The loop of `rbtree_insert` and `rbtree_find_less_equal`: go down to the key, or to the place
where it should be. -/
def zoom (key : κ) : RbTree κ → RbPath κ → RbTree κ × RbPath κ
  | null, path => (null, path)
  | node c l k r, path =>
      if cmp key k = 0 then (node c l k r, path)
      else if cmp key k < 0 then zoom key l (.left c path k r)
      else zoom key r (.right c l k path)

/-- `rbtree_insert`. A key that is in the tree already is not inserted. -/
def rbtreeInsert (t : RbTree κ) (key : κ) : Option (RbTree κ) :=
  match zoom cmp key t .root with
  | (null, path) => path.rbtreeInsertFixup (.node .red .null key .null)
  | (node .., _) => some t

/-- `rbtree_search`: the key of the node that is found. -/
def rbtreeSearch (key : κ) : RbTree κ → Option κ
  | null => none
  | node _ l k r =>
      if cmp key k = 0 then some k
      else if cmp key k < 0 then rbtreeSearch key l
      else rbtreeSearch key r

/-- Go left as long as there is a left child. -/
def zoomLeft : RbTree κ → RbPath κ → RbTree κ × RbPath κ
  | null, path => (null, path)
  | node c null k r, path => (node c null k r, path)
  | node c (node c' l' k' r') k r, path => zoomLeft (node c' l' k' r') (.left c path k r)

/-- `rbtree_delete`. A node with two children changes places with the smallest one of its right
subtree before it is unlinked. -/
def rbtreeDelete (t : RbTree κ) (key : κ) : RbTree κ :=
  match zoom cmp key t .root with
  | (null, _) => t
  | (node c null _ r, path) => path.unlink c r
  | (node c l _ null, path) => path.unlink c l
  | (node c l k r, path) =>
      match zoomLeft r (.right c l k path) with
      | (null, _) => t
      | (node _ _ smkey _, _) =>
          match zoomLeft r (.right c l smkey path) with
          | (null, _) => t
          | (node smcolor _ _ smright, smpath) => smpath.unlink smcolor smright

end RbTree

/-! ### The keys from left to right -/

namespace RbTree

@[simp]
theorem toList_paint (c : RbColor) (t : RbTree κ) :
  (t.paint c).toList = t.toList
  := by
  cases t <;> rfl

@[simp]
theorem toList_paintLeft (t : RbTree κ) :
  t.paintLeft.toList = t.toList
  := by
  cases t with
  | null => rfl
  | node c l k r => simp [paintLeft, toList]

@[simp]
theorem toList_paintRight (t : RbTree κ) :
  t.paintRight.toList = t.toList
  := by
  cases t with
  | null => rfl
  | node c l k r => simp [paintRight, toList]

/-- A rotation leaves the order of the keys as it is. -/
@[simp]
theorem toList_rbtreeRotateLeft (t : RbTree κ) :
  t.rbtreeRotateLeft.toList = t.toList
  := by
  cases t with
  | null => rfl
  | node c l k r =>
      cases r with
      | null => rfl
      | node c' l' k' r' => simp [rbtreeRotateLeft, toList]

@[simp]
theorem toList_rbtreeRotateRight (t : RbTree κ) :
  t.rbtreeRotateRight.toList = t.toList
  := by
  cases t with
  | null => rfl
  | node c l k r =>
      cases l with
      | null => rfl
      | node c' l' k' r' => simp [rbtreeRotateRight, toList]

end RbTree

namespace RbPath

/-- The keys to the left of a place. -/
def before : RbPath κ → List κ
  | root => []
  | left _ parent _ _ => parent.before
  | right _ l k parent => parent.before ++ (l.toList ++ [k])

/-- The keys to the right of a place. -/
def after : RbPath κ → List κ
  | root => []
  | left _ parent k r => k :: r.toList ++ parent.after
  | right _ _ _ parent => parent.after

@[simp]
theorem toList_fill (path : RbPath κ) (t : RbTree κ) :
  (path.fill t).toList = path.before ++ (t.toList ++ path.after)
  := by
  induction path generalizing t with
  | root => simp [fill, before, after]
  | left c parent k r ih => simp [fill, before, after, ih, RbTree.toList]
  | right c l k parent ih => simp [fill, before, after, ih, RbTree.toList]

/-- Fixing up after an insertion leaves the order of the keys as it is. -/
theorem toList_rbtreeInsertFixup {path : RbPath κ} {node t : RbTree κ}
    (h : path.rbtreeInsertFixup node = some t) :
  t.toList = path.before ++ (node.toList ++ path.after)
  := by
  induction path, node using rbtreeInsertFixup.induct with
  | case1 node =>
      obtain rfl := Option.some.inj h
      simp [before, after]
  | case2 node parent k r =>
      obtain rfl := Option.some.inj h
      simp
  | case3 node l k parent =>
      obtain rfl := Option.some.inj h
      simp
  | case4 => contradiction
  | case5 => contradiction
  | case6 node gc grandparent gk uncle pk pr huncle ih =>
      rw [rbtreeInsertFixup, if_pos huncle] at h
      rw [ih h]
      simp [before, after, RbTree.toList]
  | case7 node gc grandparent gk uncle pk pr huncle =>
      rw [rbtreeInsertFixup, if_neg huncle, Option.some.injEq] at h
      rw [← h]
      simp [before, after, RbTree.toList]
  | case8 node pl pk gc grandparent gk uncle huncle ih =>
      rw [rbtreeInsertFixup, if_pos huncle] at h
      rw [ih h]
      simp [before, after, RbTree.toList]
  | case9 node pl pk gc grandparent gk uncle huncle =>
      rw [rbtreeInsertFixup, if_neg huncle, Option.some.injEq] at h
      rw [← h]
      simp [before, after, RbTree.toList]
  | case10 node pl pk gc uncle gk grandparent huncle ih =>
      rw [rbtreeInsertFixup, if_pos huncle] at h
      rw [ih h]
      simp [before, after, RbTree.toList]
  | case11 node pl pk gc uncle gk grandparent huncle =>
      rw [rbtreeInsertFixup, if_neg huncle, Option.some.injEq] at h
      rw [← h]
      simp [before, after, RbTree.toList]
  | case12 node gc uncle gk grandparent pk pr huncle ih =>
      rw [rbtreeInsertFixup, if_pos huncle] at h
      rw [ih h]
      simp [before, after, RbTree.toList]
  | case13 node gc uncle gk grandparent pk pr huncle =>
      rw [rbtreeInsertFixup, if_neg huncle, Option.some.injEq] at h
      rw [← h]
      simp [before, after, RbTree.toList]

@[simp]
theorem toList_deleteFixupLeft (c : RbColor) (child : RbTree κ) (k : κ) (sibling : RbTree κ) :
  (deleteFixupLeft c child k sibling).toList = child.toList ++ k :: sibling.toList
  := by
  rw [deleteFixupLeft]
  split_ifs <;> simp [RbTree.toList]

@[simp]
theorem toList_deleteFixupRight (c : RbColor) (sibling : RbTree κ) (k : κ) (child : RbTree κ) :
  (deleteFixupRight c sibling k child).toList = sibling.toList ++ k :: child.toList
  := by
  rw [deleteFixupRight]
  split_ifs <;> simp [RbTree.toList]

/-- Fixing up after a deletion leaves the order of the keys as it is. -/
@[simp]
theorem toList_rbtreeDeleteFixup (path : RbPath κ) (child : RbTree κ) :
  (path.rbtreeDeleteFixup child).toList = path.before ++ (child.toList ++ path.after)
  := by
  induction path, child using rbtreeDeleteFixup.induct with
  | case1 child => simp [rbtreeDeleteFixup, before, after]
  | case2 c parent k child sl sk sr =>
      rw [rbtreeDeleteFixup]
      simp [before, after, RbTree.toList]
  | case3 c parent k sibling child hred hblack ih =>
      rw [rbtreeDeleteFixup, if_pos hblack, ih]
      · simp [before, after, RbTree.toList]
      · apply hred
  | case4 c parent k sibling child hred hblack =>
      rw [rbtreeDeleteFixup, if_neg hblack]
      · simp [before, after]
      · apply hred
  | case5 c k parent child sl sk sr =>
      rw [rbtreeDeleteFixup]
      simp [before, after, RbTree.toList]
  | case6 c sibling k parent child hred hblack ih =>
      rw [rbtreeDeleteFixup, if_pos hblack, ih]
      · simp [before, after, RbTree.toList]
      · apply hred
  | case7 c sibling k parent child hred hblack =>
      rw [rbtreeDeleteFixup, if_neg hblack]
      · simp [before, after]
      · apply hred

@[simp]
theorem toList_unlink (path : RbPath κ) (c : RbColor) (child : RbTree κ) :
  (path.unlink c child).toList = path.before ++ (child.toList ++ path.after)
  := by
  rw [unlink]
  split_ifs <;> simp

end RbPath

/-! ### The root is black -/

namespace RbPath

/-- The root of the tree, if it is not the place itself, is black. -/
def RootBlack : RbPath κ → Prop
  | root => True
  | left c parent _ _ => (parent = root → c = .black) ∧ parent.RootBlack
  | right c _ _ parent => (parent = root → c = .black) ∧ parent.RootBlack

theorem color_fill {path : RbPath κ} (h : path.RootBlack) {t : RbTree κ}
    (ht : path = root → t.color = .black) :
  (path.fill t).color = .black
  := by
  induction path generalizing t with
  | root => apply ht rfl
  | left c parent k r ih =>
      apply ih h.2
      apply h.1
  | right c l k parent ih =>
      apply ih h.2
      apply h.1

end RbPath

theorem RbTree.color_paint_black (t : RbTree κ) :
  (t.paint .black).color = .black
  := by
  cases t <;> rfl

namespace RbPath

/-- Fixing up after an insertion succeeds when the root is black. -/
theorem rbtreeInsertFixup_spec {path : RbPath κ} (h : path.RootBlack) (node : RbTree κ) :
  ∃ t, path.rbtreeInsertFixup node = some t ∧ t.color = .black
  := by
  induction path, node using rbtreeInsertFixup.induct with
  | case1 node => exact ⟨_, rfl, node.color_paint_black⟩
  | case2 node parent k r => exact ⟨_, rfl, RbTree.color_paint_black _⟩
  | case3 node l k parent => exact ⟨_, rfl, RbTree.color_paint_black _⟩
  | case4 => simp [RootBlack] at h
  | case5 => simp [RootBlack] at h
  | case6 node gc grandparent gk uncle pk pr huncle ih =>
      rw [rbtreeInsertFixup, if_pos huncle]
      apply ih h.2.2
  | case7 node gc grandparent gk uncle pk pr huncle =>
      rw [rbtreeInsertFixup, if_neg huncle]
      exact ⟨_, rfl, RbTree.color_paint_black _⟩
  | case8 node pl pk gc grandparent gk uncle huncle ih =>
      rw [rbtreeInsertFixup, if_pos huncle]
      apply ih h.2.2
  | case9 node pl pk gc grandparent gk uncle huncle =>
      rw [rbtreeInsertFixup, if_neg huncle]
      exact ⟨_, rfl, RbTree.color_paint_black _⟩
  | case10 node pl pk gc uncle gk grandparent huncle ih =>
      rw [rbtreeInsertFixup, if_pos huncle]
      apply ih h.2.2
  | case11 node pl pk gc uncle gk grandparent huncle =>
      rw [rbtreeInsertFixup, if_neg huncle]
      exact ⟨_, rfl, RbTree.color_paint_black _⟩
  | case12 node gc uncle gk grandparent pk pr huncle ih =>
      rw [rbtreeInsertFixup, if_pos huncle]
      apply ih h.2.2
  | case13 node gc uncle gk grandparent pk pr huncle =>
      rw [rbtreeInsertFixup, if_neg huncle]
      exact ⟨_, rfl, RbTree.color_paint_black _⟩

theorem color_deleteFixupLeft {c : RbColor} (h : c = .black) (child : RbTree κ) (k : κ)
    (sibling : RbTree κ) :
  (deleteFixupLeft c child k sibling).color = .black
  := by
  have hrotate : ∀ s : RbTree κ,
      (RbTree.node .black child k (s.paint .black).paintRight).rbtreeRotateLeft.color = .black := by
    intro s
    cases s <;> rfl
  subst h
  rw [deleteFixupLeft, if_neg (by simp)]
  apply hrotate

theorem color_deleteFixupRight {c : RbColor} (h : c = .black) (sibling : RbTree κ) (k : κ)
    (child : RbTree κ) :
  (deleteFixupRight c sibling k child).color = .black
  := by
  have hrotate : ∀ s : RbTree κ,
      (RbTree.node .black (s.paint .black).paintLeft k child).rbtreeRotateRight.color = .black := by
    intro s
    cases s <;> rfl
  subst h
  rw [deleteFixupRight, if_neg (by simp)]
  apply hrotate

theorem color_rbtreeDeleteFixup {path : RbPath κ} (h : path.RootBlack) {child : RbTree κ}
    (hchild : path = root → child.color = .black) :
  (path.rbtreeDeleteFixup child).color = .black
  := by
  induction path, child using rbtreeDeleteFixup.induct with
  | case1 child => apply hchild rfl
  | case2 c parent k child sl sk sr =>
      rw [rbtreeDeleteFixup]
      apply color_fill
      · exact ⟨fun _ => rfl, h.2⟩
      · intro heq
        contradiction
  | case3 c parent k sibling child hred hblack ih =>
      rw [rbtreeDeleteFixup, if_pos hblack]
      · apply ih h.2 h.1
      · apply hred
  | case4 c parent k sibling child hred hblack =>
      rw [rbtreeDeleteFixup, if_neg hblack]
      · apply color_fill h.2
        intro hroot
        apply color_deleteFixupLeft (h.1 hroot)
      · apply hred
  | case5 c k parent child sl sk sr =>
      rw [rbtreeDeleteFixup]
      apply color_fill
      · exact ⟨fun _ => rfl, h.2⟩
      · intro heq
        contradiction
  | case6 c sibling k parent child hred hblack ih =>
      rw [rbtreeDeleteFixup, if_pos hblack]
      · apply ih h.2 h.1
      · apply hred
  | case7 c sibling k parent child hred hblack =>
      rw [rbtreeDeleteFixup, if_neg hblack]
      · apply color_fill h.2
        intro hroot
        apply color_deleteFixupRight (h.1 hroot)
      · apply hred

theorem color_unlink {path : RbPath κ} (h : path.RootBlack) {c : RbColor}
    (hc : path = root → c = .black) (child : RbTree κ) :
  (path.unlink c child).color = .black
  := by
  rw [unlink]
  split_ifs with hred hchild
  · apply color_fill h
    intro hroot
    rw [hc hroot] at hred
    contradiction
  · apply color_fill h
    intro _
    apply child.color_paint_black
  · apply color_rbtreeDeleteFixup h
    intro _
    cases hcolor : child.color with
    | black => rfl
    | red => contradiction

end RbPath

/-! ### Searching -/

/-- On the keys in `K` the comparison function is a total order: it is zero for equal keys only,
has opposite signs for keys the other way round, and its sign is transitive. -/
structure OrderOn (cmp : κ → κ → ℤ) (K : Set κ) : Prop where
  eq_zero : ∀ a ∈ K, ∀ b ∈ K, cmp a b = 0 ↔ a = b
  swap : ∀ a ∈ K, ∀ b ∈ K, cmp a b < 0 ↔ 0 < cmp b a
  trans : ∀ a ∈ K, ∀ b ∈ K, ∀ c ∈ K, cmp a b < 0 → cmp b c < 0 → cmp a c < 0

/-- A tree with a black root, with keys from `K` in order from left to right. -/
structure RbTree.Ordered (cmp : κ → κ → ℤ) (K : Set κ) (t : RbTree κ) : Prop where
  black : t.color = .black
  mem : ∀ k ∈ t.toList, k ∈ K
  sorted : t.toList.Pairwise (fun a b => cmp a b < 0)

namespace OrderOn

variable {cmp : κ → κ → ℤ} {K : Set κ}

theorem irrefl (h : OrderOn cmp K) {a : κ} (ha : a ∈ K) :
  ¬ cmp a a < 0
  := by
  intro hlt
  rw [(h.eq_zero a ha a ha).mpr rfl] at hlt
  contradiction

/-- Keys are different if one is before the other. -/
theorem ne (h : OrderOn cmp K) {a b : κ} (ha : a ∈ K) (hlt : cmp a b < 0) :
  a ≠ b
  := by
  rintro rfl
  apply h.irrefl ha hlt

/-- Of different keys one is before the other. -/
theorem lt_or_gt (h : OrderOn cmp K) {a b : κ} (ha : a ∈ K) (hb : b ∈ K) (hne : cmp a b ≠ 0)
    (hlt : ¬ cmp a b < 0) :
  cmp b a < 0
  := by
  rw [h.swap b hb a ha]
  omega

/-- A search in a part of a tree finds the keys in it. -/
theorem search_toList (h : OrderOn cmp K) {key : κ} (hkey : key ∈ K) {t : RbTree κ}
    (hmem : ∀ k ∈ t.toList, k ∈ K) (hsorted : t.toList.Pairwise (fun a b => cmp a b < 0)) :
  t.rbtreeSearch cmp key = some key ∧ key ∈ t.toList ∨
    t.rbtreeSearch cmp key = none ∧ key ∉ t.toList
  := by
  induction t with
  | null =>
      right
      simp [RbTree.rbtreeSearch, RbTree.toList]
  | node c l k r ihl ihr =>
      simp only [RbTree.toList, List.mem_append, List.mem_cons, List.pairwise_append,
        List.pairwise_cons] at hmem hsorted ⊢
      obtain ⟨hl, ⟨hkr, hr⟩, hlkr⟩ := hsorted
      have hk : k ∈ K := hmem k (Or.inr (Or.inl rfl))
      have hihl := ihl (fun x hx => hmem x (Or.inl hx)) hl
      have hihr := ihr (fun x hx => hmem x (Or.inr (Or.inr hx))) hr
      rw [RbTree.rbtreeSearch]
      split_ifs with hzero hlt
      · left
        obtain rfl := (h.eq_zero key hkey k hk).mp hzero
        simp
      · -- The keys from `k` on are greater than the key.
        have hnot : key ≠ k ∧ key ∉ r.toList := by
          refine ⟨h.ne hkey hlt, ?_⟩
          intro hin
          apply h.irrefl hkey
          apply h.trans key hkey k hk key hkey hlt (hkr key hin)
        simpa [hnot] using hihl
      · have hgt := h.lt_or_gt hkey hk hzero hlt
        have hnot : key ≠ k ∧ key ∉ l.toList := by
          refine ⟨(h.ne hk hgt).symm, ?_⟩
          intro hin
          apply h.irrefl hkey
          apply h.trans key hkey k hk key hkey (hlkr key hin k (Or.inl rfl)) hgt
        simpa [hnot] using hihr

/-- A search finds the keys of a tree. -/
theorem search_iff (h : OrderOn cmp K) {key : κ} (hkey : key ∈ K) {t : RbTree κ}
    (ht : t.Ordered cmp K) :
  (t.rbtreeSearch cmp key).isSome = true ↔ key ∈ t.toList
  := by
  rcases h.search_toList hkey ht.mem ht.sorted with ⟨hsearch, hin⟩ | ⟨hsearch, hin⟩
  · simp [hsearch, hin]
  · simp [hsearch, hin]

end OrderOn

/-! ### Insertion and deletion -/

open RbTree RbPath

namespace OrderOn

variable {cmp : κ → κ → ℤ} {K : Set κ}

/-- Going down ends at the node with the key, or at a place between the smaller and the greater
keys. -/
theorem zoom_spec (h : OrderOn cmp K) {key : κ} (hkey : key ∈ K) (t : RbTree κ) (path : RbPath κ)
    (hmem : ∀ k ∈ (path.fill t).toList, k ∈ K)
    (hsorted : (path.fill t).toList.Pairwise (fun a b => cmp a b < 0)) (hroot : path.RootBlack)
    (hcolor : path = .root → t.color = .black) (hbefore : ∀ a ∈ path.before, cmp a key < 0)
    (hafter : ∀ b ∈ path.after, cmp key b < 0) :
  ∃ t' path', zoom cmp key t path = (t', path') ∧ path'.fill t' = path.fill t ∧
    path'.RootBlack ∧ (path' = .root → t'.color = .black) ∧
    (∀ a ∈ path'.before, cmp a key < 0) ∧ (∀ b ∈ path'.after, cmp key b < 0) ∧
    (t' = .null ∨ ∃ c l r, t' = .node c l key r)
  := by
  induction t generalizing path with
  | null => exact ⟨.null, path, rfl, rfl, hroot, hcolor, hbefore, hafter, Or.inl rfl⟩
  | node c l k r ihl ihr =>
      have hlist : (path.fill (.node c l k r)).toList =
          path.before ++ (l.toList ++ k :: (r.toList ++ path.after)) := by
        simp [RbTree.toList]
      have hk : k ∈ K := by
        apply hmem
        simp [hlist]
      have hsplit := hsorted
      simp only [hlist, List.pairwise_append, List.pairwise_cons, List.mem_append,
        List.mem_cons] at hsplit
      obtain ⟨-, ⟨-, ⟨hkafter, -⟩, hlk⟩, -⟩ := hsplit
      have hblack : path = .root → c = .black := hcolor
      rw [zoom]
      split_ifs with hzero hlt
      · obtain rfl := (h.eq_zero key hkey k hk).mp hzero
        exact ⟨_, path, rfl, rfl, hroot, hcolor, hbefore, hafter, Or.inr ⟨c, l, r, rfl⟩⟩
      · apply ihl (.left c path k r) hmem hsorted ⟨hblack, hroot⟩
        · intro heq
          contradiction
        · apply hbefore
        · intro b hb
          rw [RbPath.after, List.cons_append, List.mem_cons, List.mem_append] at hb
          rcases hb with rfl | hb
          · apply hlt
          · have hbK : b ∈ K := by
              apply hmem
              simp only [hlist, List.mem_append, List.mem_cons]
              tauto
            apply h.trans key hkey k hk b hbK hlt (hkafter b hb)
      · have hgt := h.lt_or_gt hkey hk hzero hlt
        apply ihr (.right c l k path) hmem hsorted ⟨hblack, hroot⟩
        · intro heq
          contradiction
        · intro a ha
          simp only [RbPath.before, List.mem_append, List.mem_singleton] at ha
          rcases ha with ha | ha | rfl
          · apply hbefore a ha
          · have haK : a ∈ K := by
              apply hmem
              simp only [hlist, List.mem_append]
              tauto
            apply h.trans a haK k hk key hkey (hlk a ha k (Or.inl rfl)) hgt
          · apply hgt
        · apply hafter

/-- Inserting a key into a tree succeeds, and adds the key. -/
theorem rbtreeInsert_spec (h : OrderOn cmp K) {key : κ} (hkey : key ∈ K) {t : RbTree κ}
    (ht : t.Ordered cmp K) :
  ∃ t', t.rbtreeInsert cmp key = some t' ∧ t'.Ordered cmp K ∧
    ∀ k, k ∈ t'.toList ↔ k = key ∨ k ∈ t.toList
  := by
  obtain ⟨t₁, path, hzoom, hfill, hroot, -, hbefore, hafter, hcase⟩ :=
    h.zoom_spec hkey t .root ht.mem ht.sorted trivial (fun _ => ht.black)
      (by simp [RbPath.before]) (by simp [RbPath.after])
  rw [rbtreeInsert, hzoom]
  have hlist : t.toList = path.before ++ (t₁.toList ++ path.after) := by
    rw [← toList_fill, hfill]
    rfl
  rcases hcase with rfl | ⟨c, l, r, rfl⟩
  · obtain ⟨t', ht', hblack⟩ := rbtreeInsertFixup_spec hroot (.node .red .null key .null)
    have hlist' := toList_rbtreeInsertFixup ht'
    simp only [RbTree.toList, List.nil_append, List.singleton_append] at hlist hlist'
    have hmem' : ∀ k, k ∈ t'.toList ↔ k = key ∨ k ∈ t.toList := by
      intro k
      simp only [hlist', hlist, List.mem_append, List.mem_cons]
      tauto
    refine ⟨t', ht', ⟨hblack, ?_, ?_⟩, hmem'⟩
    · intro k hk
      rcases (hmem' k).mp hk with rfl | hk
      · apply hkey
      · apply ht.mem k hk
    · have hsorted := ht.sorted
      rw [hlist, List.pairwise_append] at hsorted
      obtain ⟨hpre, hpost, hcross⟩ := hsorted
      rw [hlist', List.pairwise_append, List.pairwise_cons]
      refine ⟨hpre, ⟨hafter, hpost⟩, ?_⟩
      intro a ha b hb
      rcases List.mem_cons.mp hb with rfl | hb
      · apply hbefore a ha
      · apply hcross a ha b hb
  · refine ⟨t, rfl, ht, ?_⟩
    intro k
    have hin : key ∈ t.toList := by
      simp [hlist, RbTree.toList]
    constructor
    · intro hk
      right
      apply hk
    · rintro (rfl | hk)
      · apply hin
      · apply hk

end OrderOn

/-- Going left from a node ends at its smallest node, which does not depend on the path to it. What
lies to the left of the path does not change. -/
theorem zoomLeft_spec (c : RbColor) (l : RbTree κ) (k : κ) (r : RbTree κ) :
  ∃ c' k' r', ∀ path : RbPath κ, path.RootBlack → path ≠ .root →
    ∃ path', zoomLeft (.node c l k r) path = (.node c' .null k' r', path') ∧ path'.RootBlack ∧
      path' ≠ .root ∧ path'.before = path.before ∧
      k' :: (r'.toList ++ path'.after) = (RbTree.node c l k r).toList ++ path.after
  := by
  induction l generalizing c k r with
  | null =>
      refine ⟨c, k, r, ?_⟩
      intro path hroot hne
      exact ⟨path, rfl, hroot, hne, rfl, by simp [RbTree.toList]⟩
  | node c₂ l₂ k₂ r₂ ih _ =>
      obtain ⟨c', k', r', hspec⟩ := ih c₂ k₂ r₂
      refine ⟨c', k', r', ?_⟩
      intro path hroot hne
      obtain ⟨path', hzoom, hroot', hne', hbefore, hafter⟩ := hspec (.left c path k r)
        ⟨fun heq => absurd heq hne, hroot⟩ (by simp)
      refine ⟨path', hzoom, hroot', hne', hbefore, hafter.trans ?_⟩
      simp [RbTree.toList, RbPath.after]

/-- What deletion does at the node that is found: the tree loses the key, and the root stays
black. -/
theorem rbtreeDelete_node {cmp : κ → κ → ℤ} {t : RbTree κ} {key k : κ} {c : RbColor}
    {l r : RbTree κ} {path : RbPath κ}
    (hzoom : zoom cmp key t .root = (.node c l k r, path)) (hroot : path.RootBlack)
    (hcolor : path = .root → c = .black) :
  (t.rbtreeDelete cmp key).color = .black ∧
    (t.rbtreeDelete cmp key).toList =
      path.before ++ (l.toList ++ (r.toList ++ path.after))
  := by
  rw [rbtreeDelete, hzoom]
  cases l with
  | null =>
      refine ⟨color_unlink hroot hcolor r, ?_⟩
      simp [RbTree.toList]
  | node c₁ l₁ k₁ r₁ =>
      cases r with
      | null =>
          refine ⟨color_unlink hroot hcolor _, ?_⟩
          simp [RbTree.toList]
      | node c₂ l₂ k₂ r₂ =>
          obtain ⟨c', k', r', hspec⟩ := zoomLeft_spec c₂ l₂ k₂ r₂
          obtain ⟨path₁, hzoom₁, -⟩ := hspec (.right c (.node c₁ l₁ k₁ r₁) k path)
            ⟨hcolor, hroot⟩ (by simp)
          obtain ⟨path₂, hzoom₂, hroot₂, hne₂, hbefore, hafter⟩ :=
            hspec (.right c (.node c₁ l₁ k₁ r₁) k' path) ⟨hcolor, hroot⟩ (by simp)
          simp only [hzoom₁, hzoom₂]
          refine ⟨color_unlink hroot₂ (fun heq => absurd heq hne₂) r', ?_⟩
          rw [toList_unlink, hbefore]
          simp only [RbPath.before, RbPath.after, List.append_assoc, List.singleton_append]
            at hafter ⊢
          rw [hafter]

namespace OrderOn

variable {cmp : κ → κ → ℤ} {K : Set κ}

/-- Deleting a key removes it from the tree. -/
theorem rbtreeDelete_spec (h : OrderOn cmp K) {key : κ} (hkey : key ∈ K) {t : RbTree κ}
    (ht : t.Ordered cmp K) :
  (t.rbtreeDelete cmp key).Ordered cmp K ∧
    ∀ k, k ∈ (t.rbtreeDelete cmp key).toList ↔ k ≠ key ∧ k ∈ t.toList
  := by
  obtain ⟨t₁, path, hzoom, hfill, hroot, hcolor, hbefore, hafter, hcase⟩ :=
    h.zoom_spec hkey t .root ht.mem ht.sorted trivial (fun _ => ht.black)
      (by simp [RbPath.before]) (by simp [RbPath.after])
  have hlist : t.toList = path.before ++ (t₁.toList ++ path.after) := by
    rw [← toList_fill, hfill]
    rfl
  rcases hcase with rfl | ⟨c, l, r, rfl⟩
  · have heq : t.rbtreeDelete cmp key = t := by
      rw [rbtreeDelete, hzoom]
    rw [heq]
    refine ⟨ht, ?_⟩
    intro k
    constructor
    · intro hk
      refine ⟨?_, hk⟩
      rintro rfl
      rw [hlist, RbTree.toList, List.nil_append, List.mem_append] at hk
      rcases hk with hk | hk
      · apply h.irrefl hkey (hbefore k hk)
      · apply h.irrefl hkey (hafter k hk)
    · intro hk
      apply hk.2
  · obtain ⟨hblack, hlist'⟩ := rbtreeDelete_node hzoom hroot hcolor
    simp only [RbTree.toList, List.append_assoc, List.cons_append] at hlist
    -- The keys that stay are in the order they had.
    have hsub : (t.rbtreeDelete cmp key).toList.Sublist t.toList := by
      rw [hlist, hlist']
      apply List.Sublist.append_left
      apply List.Sublist.append_left
      apply List.sublist_cons_self
    have hsorted := ht.sorted
    simp only [hlist, List.pairwise_append, List.pairwise_cons, List.mem_append,
      List.mem_cons] at hsorted
    obtain ⟨-, ⟨-, ⟨hgt, -⟩, hlt⟩, hpre⟩ := hsorted
    refine ⟨⟨hblack, fun k hk => ht.mem k (hsub.subset hk), ht.sorted.sublist hsub⟩, ?_⟩
    intro k
    constructor
    · intro hk
      refine ⟨?_, hsub.subset hk⟩
      rintro rfl
      simp only [hlist', List.mem_append] at hk
      rcases hk with hk | hk | hk
      · apply h.irrefl hkey (hpre k hk k (Or.inr (Or.inl rfl)))
      · apply h.irrefl hkey (hlt k hk k (Or.inl rfl))
      · apply h.irrefl hkey (hgt k hk)
    · rintro ⟨hne, hk⟩
      simp only [hlist, hlist', List.mem_append, List.mem_cons] at hk ⊢
      tauto

end OrderOn

/-! ### Sequences of operations -/

/-- An insertion or a deletion. -/
inductive RbOp (κ : Type*) where
  | insert (key : κ)
  | delete (key : κ)
deriving DecidableEq

namespace RbOp

/-- The key of an operation. -/
def key : RbOp κ → κ
  | insert k => k
  | delete k => k

/-- What an operation does to a tree. -/
def run (cmp : κ → κ → ℤ) (t : RbTree κ) : RbOp κ → Option (RbTree κ)
  | insert k => t.rbtreeInsert cmp k
  | delete k => some (t.rbtreeDelete cmp k)

/-- The key `k` was inserted, and not deleted since. -/
def Live (ops : List (RbOp κ)) (k : κ) : Prop :=
  ∃ pre post, ops = pre ++ insert k :: post ∧ delete k ∉ post

theorem live_nil (k : κ) :
  ¬ Live [] k
  := by
  rintro ⟨pre, post, heq, -⟩
  simp at heq

/-- An operation makes its key live or not, and leaves the others. -/
theorem live_append (ops : List (RbOp κ)) (op : RbOp κ) (k : κ) :
  Live (ops ++ [op]) k ↔ op = insert k ∨ op ≠ delete k ∧ Live ops k
  := by
  constructor
  · rintro ⟨pre, post, heq, hpost⟩
    induction post using List.reverseRecOn with
    | nil =>
        left
        rw [← List.concat_eq_append, ← List.concat_eq_append] at heq
        apply List.last_eq_of_concat_eq heq
    | append_singleton post op' _ =>
        rw [← List.cons_append, ← List.append_assoc, ← List.concat_eq_append,
          ← List.concat_eq_append] at heq
        obtain rfl := List.last_eq_of_concat_eq heq
        obtain rfl := List.init_eq_of_concat_eq heq
        rw [List.mem_append, List.mem_singleton, not_or] at hpost
        right
        exact ⟨Ne.symm hpost.2, pre, post, rfl, hpost.1⟩
  · rintro (rfl | ⟨hne, pre, post, rfl, hpost⟩)
    · exact ⟨ops, [], rfl, List.not_mem_nil⟩
    · refine ⟨pre, post ++ [op], by simp, ?_⟩
      rw [List.mem_append, List.mem_singleton, not_or]
      exact ⟨hpost, hne.symm⟩

end RbOp

/-- Every sequence of insertions and deletions of keys from `K` succeeds, and in the tree a search
finds a key from `K` if and only if it was inserted and not deleted since. -/
def FindsLive (cmp : κ → κ → ℤ) (K : Set κ) : Prop :=
  ∀ ops : List (RbOp κ), (∀ op ∈ ops, op.key ∈ K) →
    ∃ t, ops.foldlM (RbOp.run cmp) RbTree.null = some t ∧
      ∀ k ∈ K, (t.rbtreeSearch cmp k).isSome = true ↔ RbOp.Live ops k

namespace OrderOn

variable {cmp : κ → κ → ℤ} {K : Set κ}

/-- A sequence of insertions and deletions succeeds, and the tree has the keys that are live. -/
theorem foldlM_spec (h : OrderOn cmp K) {ops : List (RbOp κ)} (hops : ∀ op ∈ ops, op.key ∈ K) :
  ∃ t, ops.foldlM (RbOp.run cmp) RbTree.null = some t ∧ t.Ordered cmp K ∧
    ∀ k, k ∈ t.toList ↔ RbOp.Live ops k
  := by
  induction ops using List.reverseRecOn with
  | nil =>
      refine ⟨.null, rfl, ⟨rfl, by simp [RbTree.toList], by simp [RbTree.toList]⟩, ?_⟩
      intro k
      simp [RbTree.toList, RbOp.live_nil]
  | append_singleton ops op ih =>
      simp only [List.forall_mem_append, List.forall_mem_singleton] at hops
      obtain ⟨t, ht, hordered, hlive⟩ := ih hops.1
      simp only [List.foldlM_append, ht, List.foldlM_cons, List.foldlM_nil, bind_pure,
        Option.bind_eq_bind, Option.bind_some]
      cases op with
      | insert key =>
          have hkey : key ∈ K := hops.2
          obtain ⟨t', ht', hordered', hmem⟩ := h.rbtreeInsert_spec hkey hordered
          refine ⟨t', ht', hordered', ?_⟩
          intro k
          rw [hmem, hlive, RbOp.live_append, eq_comm]
          simp
      | delete key =>
          have hkey : key ∈ K := hops.2
          obtain ⟨hordered', hmem⟩ := h.rbtreeDelete_spec hkey hordered
          refine ⟨_, rfl, hordered', ?_⟩
          intro k
          rw [hmem, hlive, RbOp.live_append, ne_comm]
          simp

/-- With a total order of the keys, searches find what was inserted and not deleted since. -/
theorem finds (h : OrderOn cmp K) :
  FindsLive cmp K
  := by
  intro ops hops
  obtain ⟨t, ht, hordered, hlive⟩ := h.foldlM_spec hops
  refine ⟨t, ht, ?_⟩
  intro k hk
  rw [h.search_iff hk hordered, hlive]

end OrderOn
