import SyNetsim.Rbtree
import Mathlib.Algebra.Group.Nat.Defs
import Mathlib.Data.Nat.Log

/-!
# Red-black trees stay balanced

A tree is balanced if no red node has a red child, and all ways from the root to `null` have the
same number of black nodes. For a place in a tree (`RbPath.Balanced`) this says which trees can be
put there.

Insertion and deletion keep the tree balanced, whatever the comparison function: it need not be an
order. So the trees of the source are never deeper than twice the logarithm of their size, and a
search makes as few comparisons (`RbOp.balanced_of_run`).
-/

variable {κ : Type*}

/-! ### Balanced trees -/

namespace RbTree

/-- The tree has the color `c`, no red node of it has a red child, and there are `n` black nodes
on every way from its root to `null`. -/
inductive Balanced : RbTree κ → RbColor → ℕ → Prop where
  | null : Balanced null .black 0
  | red {l r : RbTree κ} {k : κ} {n : ℕ} :
      l.Balanced .black n → r.Balanced .black n → Balanced (node .red l k r) .red n
  | black {l r : RbTree κ} {k : κ} {c c' : RbColor} {n : ℕ} :
      l.Balanced c n → r.Balanced c' n → Balanced (node .black l k r) .black (n + 1)

/-- The number of nodes on the longest way from the root to `null`. -/
def height : RbTree κ → ℕ
  | null => 0
  | node _ l _ r => max l.height r.height + 1

/-- The number of calls of the comparison function in `rbtree_find_less_equal`, and so in
`rbtree_search`. -/
def comparisons (cmp : κ → κ → ℤ) (key : κ) : RbTree κ → ℕ
  | null => 0
  | node _ l k r =>
      if cmp key k = 0 then 1
      else if cmp key k < 0 then l.comparisons cmp key + 1
      else r.comparisons cmp key + 1

namespace Balanced

variable {t l r : RbTree κ} {c : RbColor} {n : ℕ} {k : κ}

theorem color_eq (h : t.Balanced c n) :
  t.color = c
  := by
  cases h <;> rfl

/-- A black tree with a black node on every way to `null` is a node. -/
theorem exists_node (h : t.Balanced .black (n + 1)) :
  ∃ l k r c₁ c₂, t = node .black l k r ∧ l.Balanced c₁ n ∧ r.Balanced c₂ n
  := by
  cases h with
  | black hl hr => exact ⟨_, _, _, _, _, rfl, hl, hr⟩

/-- The children of a red tree are black. -/
theorem children_of_red (h : (node .red l k r).Balanced c n) :
  c = .red ∧ l.Balanced .black n ∧ r.Balanced .black n
  := by
  cases h with
  | red hl hr => exact ⟨rfl, hl, hr⟩

/-- The children of a black tree have one black node less on every way. -/
theorem children_of_black (h : (node .black l k r).Balanced c n) :
  c = .black ∧ ∃ c₁ c₂ m, n = m + 1 ∧ l.Balanced c₁ m ∧ r.Balanced c₂ m
  := by
  cases h with
  | black hl hr => exact ⟨rfl, _, _, _, rfl, hl, hr⟩

/-- A black tree can be painted black. -/
theorem paint_black (h : t.Balanced .black n) :
  t.paint .black = t
  := by
  cases h <;> rfl

/-- A tree is black if it is not red. -/
theorem black_of_ne_red (h : t.Balanced c n) (hc : t.color ≠ .red) :
  t.Balanced .black n
  := by
  cases c with
  | black => apply h
  | red => apply absurd h.color_eq hc

theorem black_of_ne_node (h : t.Balanced c n) (hred : ∀ l k r, t ≠ node .red l k r) :
  t.Balanced .black n
  := by
  cases h with
  | null => apply null
  | red hl hr => exact absurd rfl (hred _ _ _)
  | black hl hr => apply black hl hr

/-- A red tree that is painted black is one black node higher. -/
theorem paint_red (h : t.Balanced .red n) :
  (t.paint .black).Balanced .black (n + 1)
  := by
  cases h with
  | red hl hr => apply black hl hr

/-- There is room for `2 ^ n - 1` keys in `n` levels of black nodes. -/
theorem two_pow_le (h : t.Balanced c n) :
  2 ^ n ≤ t.toList.length + 1
  := by
  induction h with
  | null => simp [toList]
  | red hl hr ihl ihr =>
      simp only [toList, List.length_append, List.length_cons]
      omega
  | black hl hr ihl ihr =>
      simp only [toList, List.length_append, List.length_cons, Nat.pow_succ]
      omega

/-- On no way there are two red nodes in a row. -/
theorem height_le (h : t.Balanced c n) :
  t.height ≤ 2 * n + 1 ∧ (c = .black → t.height ≤ 2 * n)
  := by
  induction h with
  | null => simp [height]
  | red hl hr ihl ihr =>
      have hl := ihl.2 rfl
      have hr := ihr.2 rfl
      simp only [height]
      refine ⟨by omega, ?_⟩
      intro hc
      contradiction
  | black hl hr ihl ihr =>
      simp only [height]
      omega

/-- A tree with a black root is not deeper than twice the logarithm of its size. -/
theorem height_le_log (h : t.Balanced .black n) :
  t.height ≤ 2 * Nat.log 2 (t.toList.length + 1)
  := by
  have hn : n ≤ Nat.log 2 (t.toList.length + 1) := Nat.le_log_of_pow_le Nat.one_lt_two h.two_pow_le
  have hheight := h.height_le.2 rfl
  omega

end Balanced

/-- A search makes at most one comparison at each level. -/
theorem comparisons_le_height (cmp : κ → κ → ℤ) (key : κ) (t : RbTree κ) :
  t.comparisons cmp key ≤ t.height
  := by
  induction t with
  | null => rfl
  | node c l k r ihl ihr =>
      rw [comparisons, height]
      split_ifs <;> omega

end RbTree

/-! ### Places in balanced trees -/

namespace RbPath

open RbTree

/-- A balanced tree of the color `c` with `n` black nodes on every way makes the whole tree
balanced, with a black root, if it is put at the place. -/
inductive Balanced : RbPath κ → RbColor → ℕ → Prop where
  | root {n : ℕ} : Balanced root .black n
  | redLeft {parent : RbPath κ} {k : κ} {r : RbTree κ} {n : ℕ} :
      parent.Balanced .red n → r.Balanced .black n → Balanced (left .red parent k r) .black n
  | redRight {parent : RbPath κ} {k : κ} {l : RbTree κ} {n : ℕ} :
      parent.Balanced .red n → l.Balanced .black n → Balanced (right .red l k parent) .black n
  | blackLeft {parent : RbPath κ} {k : κ} {r : RbTree κ} {c c' : RbColor} {n : ℕ} :
      parent.Balanced .black (n + 1) → r.Balanced c' n → Balanced (left .black parent k r) c n
  | blackRight {parent : RbPath κ} {k : κ} {l : RbTree κ} {c c' : RbColor} {n : ℕ} :
      parent.Balanced .black (n + 1) → l.Balanced c' n → Balanced (right .black l k parent) c n

namespace Balanced

variable {path parent : RbPath κ} {t sibling : RbTree κ} {c : RbColor} {n : ℕ} {k : κ}

/-- A place for a tree of any color is a place for a black one. -/
theorem black (h : path.Balanced c n) :
  path.Balanced .black n
  := by
  cases h with
  | root => apply root
  | redLeft hparent hr => apply redLeft hparent hr
  | redRight hparent hl => apply redRight hparent hl
  | blackLeft hparent hr => apply blackLeft hparent hr
  | blackRight hparent hl => apply blackRight hparent hl

/-- Putting a balanced tree at its place makes the whole tree balanced. -/
theorem fill (h : path.Balanced c n) (ht : t.Balanced c n) :
  ∃ m, (path.fill t).Balanced .black m
  := by
  induction h generalizing t with
  | root => exact ⟨_, ht⟩
  | redLeft hparent hr ih => apply ih (.red ht hr)
  | redRight hparent hl ih => apply ih (.red hl ht)
  | blackLeft hparent hr ih => apply ih (.black ht hr)
  | blackRight hparent hl ih => apply ih (.black hl ht)

/-- Next to a left child there is a tree with as many black nodes on every way. -/
theorem sibling_left (h : (left c parent k sibling).Balanced .black n) :
  c = .red ∧ parent.Balanced .red n ∧ sibling.Balanced .black n ∨
    c = .black ∧ parent.Balanced .black (n + 1) ∧ ∃ c', sibling.Balanced c' n
  := by
  cases h with
  | redLeft hparent hr =>
      left
      exact ⟨rfl, hparent, hr⟩
  | blackLeft hparent hr =>
      right
      exact ⟨rfl, hparent, _, hr⟩

/-- A sibling of a left child that is not red is a node when the place is one black node high. -/
theorem sibling_of_left (h : (left c parent k sibling).Balanced .black n)
    (hred : ∀ sl sk sr, sibling ≠ .node .red sl sk sr) :
  sibling.Balanced .black n
  := by
  rcases h.sibling_left with ⟨-, -, hblack⟩ | ⟨-, -, c', hsibling⟩
  · apply hblack
  · apply hsibling.black_of_ne_node hred

/-- Next to a right child, too. -/
theorem sibling_right (h : (right c sibling k parent).Balanced .black n) :
  c = .red ∧ parent.Balanced .red n ∧ sibling.Balanced .black n ∨
    c = .black ∧ parent.Balanced .black (n + 1) ∧ ∃ c', sibling.Balanced c' n
  := by
  cases h with
  | redRight hparent hl =>
      left
      exact ⟨rfl, hparent, hl⟩
  | blackRight hparent hl =>
      right
      exact ⟨rfl, hparent, _, hl⟩

theorem sibling_of_right (h : (right c sibling k parent).Balanced .black n)
    (hred : ∀ sl sk sr, sibling ≠ .node .red sl sk sr) :
  sibling.Balanced .black n
  := by
  rcases h.sibling_right with ⟨-, -, hblack⟩ | ⟨-, -, c', hsibling⟩
  · apply hblack
  · apply hsibling.black_of_ne_node hred

end Balanced

/-! ### Insertion -/

/-- Fixing up after the insertion of a red node succeeds, and makes the tree balanced again. -/
theorem Balanced.rbtreeInsertFixup {path : RbPath κ} {node : RbTree κ} {n : ℕ}
    (h : path.Balanced .black n) (hnode : node.Balanced .red n) :
  ∃ t m, path.rbtreeInsertFixup node = some t ∧ t.Balanced .black m
  := by
  -- The red node has gone up as far as `path`. Its place was that of a black tree.
  induction path, node using rbtreeInsertFixup.induct generalizing n with
  | case1 node => exact ⟨_, _, rfl, hnode.paint_red⟩
  | case2 parent k r node =>
      cases h with
      | blackLeft hparent hr =>
          obtain ⟨m, hm⟩ := (Balanced.blackLeft (k := k) hparent hr).fill hnode
          rw [RbPath.rbtreeInsertFixup, hm.paint_black]
          exact ⟨_, m, rfl, hm⟩
  | case3 l k parent node =>
      cases h with
      | blackRight hparent hl =>
          obtain ⟨m, hm⟩ := (Balanced.blackRight (k := k) hparent hl).fill hnode
          rw [RbPath.rbtreeInsertFixup, hm.paint_black]
          exact ⟨_, m, rfl, hm⟩
  | case4 =>
      cases h with
      | redLeft hparent _ => cases hparent
  | case5 =>
      cases h with
      | redRight hparent _ => cases hparent
  | case6 gc grandparent gk uncle pk pr node huncle ih =>
      cases h with
      | redLeft hparent hpr =>
          cases hparent with
          | blackLeft hgrandparent hu =>
              obtain rfl := hu.color_eq.symm.trans huncle
              rw [RbPath.rbtreeInsertFixup, if_pos huncle]
              apply ih hgrandparent (.red (.black hnode hpr) hu.paint_red)
  | case7 gc grandparent gk uncle pk pr node huncle =>
      cases h with
      | redLeft hparent hpr =>
          cases hparent with
          | blackLeft hgrandparent hu =>
              obtain ⟨m, hm⟩ := hgrandparent.fill
                (.black (k := pk) hnode (.red (k := gk) hpr (hu.black_of_ne_red huncle)))
              rw [RbPath.rbtreeInsertFixup, if_neg huncle]
              exact ⟨_, m, congrArg some hm.paint_black, hm⟩
  | case8 pl pk gc grandparent gk uncle node huncle ih =>
      cases h with
      | redRight hparent hpl =>
          cases hparent with
          | blackLeft hgrandparent hu =>
              obtain rfl := hu.color_eq.symm.trans huncle
              rw [RbPath.rbtreeInsertFixup, if_pos huncle]
              apply ih hgrandparent (.red (.black hpl hnode) hu.paint_red)
  | case9 pl pk gc grandparent gk uncle node huncle =>
      cases h with
      | redRight hparent hpl =>
          cases hparent with
          | blackLeft hgrandparent hu =>
              cases hnode with
              | @red l r k _ hl hr =>
                  obtain ⟨m, hm⟩ := hgrandparent.fill (.black (k := k) (.red (k := pk) hpl hl)
                    (.red (k := gk) hr (hu.black_of_ne_red huncle)))
                  rw [RbPath.rbtreeInsertFixup, if_neg huncle]
                  exact ⟨_, m, congrArg some hm.paint_black, hm⟩
  | case10 pl pk gc uncle gk grandparent node huncle ih =>
      cases h with
      | redRight hparent hpl =>
          cases hparent with
          | blackRight hgrandparent hu =>
              obtain rfl := hu.color_eq.symm.trans huncle
              rw [RbPath.rbtreeInsertFixup, if_pos huncle]
              apply ih hgrandparent (.red hu.paint_red (.black hpl hnode))
  | case11 pl pk gc uncle gk grandparent node huncle =>
      cases h with
      | redRight hparent hpl =>
          cases hparent with
          | blackRight hgrandparent hu =>
              obtain ⟨m, hm⟩ := hgrandparent.fill
                (.black (k := pk) (.red (k := gk) (hu.black_of_ne_red huncle) hpl) hnode)
              rw [RbPath.rbtreeInsertFixup, if_neg huncle]
              exact ⟨_, m, congrArg some hm.paint_black, hm⟩
  | case12 gc uncle gk grandparent pk pr node huncle ih =>
      cases h with
      | redLeft hparent hpr =>
          cases hparent with
          | blackRight hgrandparent hu =>
              obtain rfl := hu.color_eq.symm.trans huncle
              rw [RbPath.rbtreeInsertFixup, if_pos huncle]
              apply ih hgrandparent (.red hu.paint_red (.black hnode hpr))
  | case13 gc uncle gk grandparent pk pr node huncle =>
      cases h with
      | redLeft hparent hpr =>
          cases hparent with
          | blackRight hgrandparent hu =>
              cases hnode with
              | @red l r k _ hl hr =>
                  obtain ⟨m, hm⟩ := hgrandparent.fill
                    (.black (k := k) (.red (k := gk) (hu.black_of_ne_red huncle) hl)
                      (.red (k := pk) hr hpr))
                  rw [RbPath.rbtreeInsertFixup, if_neg huncle]
                  exact ⟨_, m, congrArg some hm.paint_black, hm⟩

/-! ### Deletion -/

/-- When the sibling and its children are black, and the parent is red, the red goes from the
parent to the sibling. -/
theorem balanced_deleteFixupLeft_red {child sibling : RbTree κ} {k : κ} {n : ℕ}
    (hchild : child.Balanced .black n) (hsibling : sibling.Balanced .black (n + 1))
    (hblack : AllBlack sibling) :
  (deleteFixupLeft .red child k sibling).Balanced .black (n + 1)
  := by
  rw [deleteFixupLeft, if_pos ⟨rfl, hblack⟩]
  obtain ⟨sl, sk, sr, c₁, c₂, rfl, hsl, hsr⟩ := hsibling.exists_node
  obtain rfl := hsl.color_eq.symm.trans hblack.2.1
  obtain rfl := hsr.color_eq.symm.trans hblack.2.2
  apply RbTree.Balanced.black hchild (.red hsl hsr)

/-- Otherwise the sibling has a red child, and the rotation gives a black node to the short side.
The root keeps the color of the parent. -/
theorem balanced_deleteFixupLeft_rotate {c : RbColor} {child sibling : RbTree κ} {k : κ} {n : ℕ}
    (hchild : child.Balanced .black n) (hsibling : sibling.Balanced .black (n + 1))
    (hblack : ¬ AllBlack sibling) :
  ∃ l x r, deleteFixupLeft c child k sibling = .node c l x r ∧ l.Balanced .black (n + 1) ∧
    r.Balanced .black (n + 1)
  := by
  rw [deleteFixupLeft, if_neg (by simp [hblack])]
  obtain ⟨sl, sk, sr, c₁, c₂, rfl, hsl, hsr⟩ := hsibling.exists_node
  cases hsr with
  | @red a b x _ ha hb =>
      refine ⟨.node .black child k sl, sk, .node .black a x b, ?_, .black hchild hsl, .black ha hb⟩
      simp [RbTree.rightChild, RbTree.color, RbTree.paint, RbTree.paintRight,
        RbTree.rbtreeRotateLeft]
  | null =>
      cases hsl with
      | @red a b x _ ha hb => exact ⟨_, _, _, rfl, .black hchild ha, .black hb .null⟩
      | null => exact absurd ⟨rfl, rfl, rfl⟩ hblack
  | black ha' hb' =>
      cases hsl with
      | @red a b x _ ha hb => exact ⟨_, _, _, rfl, .black hchild ha, .black hb (.black ha' hb')⟩
      | black => exact absurd ⟨rfl, rfl, rfl⟩ hblack

theorem balanced_deleteFixupRight_red {child sibling : RbTree κ} {k : κ} {n : ℕ}
    (hchild : child.Balanced .black n) (hsibling : sibling.Balanced .black (n + 1))
    (hblack : AllBlack sibling) :
  (deleteFixupRight .red sibling k child).Balanced .black (n + 1)
  := by
  rw [deleteFixupRight, if_pos ⟨rfl, hblack⟩]
  obtain ⟨sl, sk, sr, c₁, c₂, rfl, hsl, hsr⟩ := hsibling.exists_node
  obtain rfl := hsl.color_eq.symm.trans hblack.2.1
  obtain rfl := hsr.color_eq.symm.trans hblack.2.2
  apply RbTree.Balanced.black (.red hsl hsr) hchild

theorem balanced_deleteFixupRight_rotate {c : RbColor} {child sibling : RbTree κ} {k : κ} {n : ℕ}
    (hchild : child.Balanced .black n) (hsibling : sibling.Balanced .black (n + 1))
    (hblack : ¬ AllBlack sibling) :
  ∃ l x r, deleteFixupRight c sibling k child = .node c l x r ∧ l.Balanced .black (n + 1) ∧
    r.Balanced .black (n + 1)
  := by
  rw [deleteFixupRight, if_neg (by simp [hblack])]
  obtain ⟨sl, sk, sr, c₁, c₂, rfl, hsl, hsr⟩ := hsibling.exists_node
  cases hsl with
  | @red a b x _ ha hb =>
      refine ⟨.node .black a x b, sk, .node .black sr k child, ?_, .black ha hb, .black hsr hchild⟩
      simp [RbTree.leftChild, RbTree.color, RbTree.paint, RbTree.paintLeft,
        RbTree.rbtreeRotateRight]
  | null =>
      cases hsr with
      | @red a b x _ ha hb => exact ⟨_, _, _, rfl, .black .null ha, .black hb hchild⟩
      | null => exact absurd ⟨rfl, rfl, rfl⟩ hblack
  | black ha' hb' =>
      cases hsr with
      | @red a b x _ ha hb => exact ⟨_, _, _, rfl, .black (.black ha' hb') ha, .black hb hchild⟩
      | black => exact absurd ⟨rfl, rfl, rfl⟩ hblack

/-- The end of `rbtree_delete_fixup` makes up for the missing black node, unless the parent, the
sibling and its children are all black. -/
theorem Balanced.deleteFixupLeft {parent : RbPath κ} {c : RbColor} {child sibling : RbTree κ}
    {k : κ} {n : ℕ} (h : (left c parent k sibling).Balanced .black (n + 1))
    (hchild : child.Balanced .black n) (hsibling : sibling.Balanced .black (n + 1))
    (hblack : ¬ (c = .black ∧ AllBlack sibling)) :
  ∃ m, (parent.fill (deleteFixupLeft c child k sibling)).Balanced .black m
  := by
  by_cases hall : AllBlack sibling
  · rcases h.sibling_left with ⟨rfl, hparent, -⟩ | ⟨rfl, -, -⟩
    · apply hparent.black.fill (balanced_deleteFixupLeft_red hchild hsibling hall)
    · exact absurd ⟨rfl, hall⟩ hblack
  · obtain ⟨l, x, r, heq, hl, hr⟩ := balanced_deleteFixupLeft_rotate (c := c) (k := k) hchild
      hsibling hall
    rw [heq]
    rcases h.sibling_left with ⟨rfl, hparent, -⟩ | ⟨rfl, hparent, -⟩
    · apply hparent.fill (.red hl hr)
    · apply hparent.fill (.black hl hr)

theorem Balanced.deleteFixupRight {parent : RbPath κ} {c : RbColor} {child sibling : RbTree κ}
    {k : κ} {n : ℕ} (h : (right c sibling k parent).Balanced .black (n + 1))
    (hchild : child.Balanced .black n) (hsibling : sibling.Balanced .black (n + 1))
    (hblack : ¬ (c = .black ∧ AllBlack sibling)) :
  ∃ m, (parent.fill (deleteFixupRight c sibling k child)).Balanced .black m
  := by
  by_cases hall : AllBlack sibling
  · rcases h.sibling_right with ⟨rfl, hparent, -⟩ | ⟨rfl, -, -⟩
    · apply hparent.black.fill (balanced_deleteFixupRight_red hchild hsibling hall)
    · exact absurd ⟨rfl, hall⟩ hblack
  · obtain ⟨l, x, r, heq, hl, hr⟩ := balanced_deleteFixupRight_rotate (c := c) (k := k) hchild
      hsibling hall
    rw [heq]
    rcases h.sibling_right with ⟨rfl, hparent, -⟩ | ⟨rfl, hparent, -⟩
    · apply hparent.fill (.red hl hr)
    · apply hparent.fill (.black hl hr)

/-- Fixing up after a deletion makes the tree balanced, if `child` is one black node short of what
its place asks for. -/
theorem Balanced.rbtreeDeleteFixup {path : RbPath κ} {child : RbTree κ} {n : ℕ}
    (h : path.Balanced .black (n + 1)) (hchild : child.Balanced .black n) :
  ∃ m, (path.rbtreeDeleteFixup child).Balanced .black m
  := by
  induction path, child using rbtreeDeleteFixup.induct generalizing n with
  | case1 child => exact ⟨n, hchild⟩
  | case2 c parent k child sl sk sr =>
      -- A red sibling is rotated to the place of the parent, which becomes red.
      rw [RbPath.rbtreeDeleteFixup]
      rcases h.sibling_left with ⟨-, -, hred⟩ | ⟨rfl, hparent, c', hred⟩
      · cases hred
      · obtain ⟨-, hsl, hsr⟩ := hred.children_of_red
        have hplace : (left .red (left .black parent sk sr) k sl).Balanced .black (n + 1) :=
          .redLeft (.blackLeft hparent hsr) hsl
        apply hplace.deleteFixupLeft hchild hsl
        simp
  | case3 c parent k sibling child hred hblack ih =>
      rw [RbPath.rbtreeDeleteFixup, if_pos hblack]
      · obtain ⟨rfl, hall⟩ := hblack
        rcases h.sibling_left with ⟨hc, -, -⟩ | ⟨-, hparent, c', hsibling⟩
        · contradiction
        · obtain rfl := hsibling.color_eq.symm.trans hall.1
          obtain ⟨sl, sk, sr, c₁, c₂, rfl, hsl, hsr⟩ := hsibling.exists_node
          obtain rfl := hsl.color_eq.symm.trans hall.2.1
          obtain rfl := hsr.color_eq.symm.trans hall.2.2
          apply ih hparent (.black hchild (.red hsl hsr))
      · apply hred
  | case4 c parent k sibling child hred hblack =>
      rw [RbPath.rbtreeDeleteFixup, if_neg hblack]
      · apply h.deleteFixupLeft hchild (h.sibling_of_left hred) hblack
      · apply hred
  | case5 c k parent child sl sk sr =>
      rw [RbPath.rbtreeDeleteFixup]
      rcases h.sibling_right with ⟨-, -, hred⟩ | ⟨rfl, hparent, c', hred⟩
      · cases hred
      · obtain ⟨-, hsl, hsr⟩ := hred.children_of_red
        have hplace : (right .red sr k (right .black sl sk parent)).Balanced .black (n + 1) :=
          .redRight (.blackRight hparent hsl) hsr
        apply hplace.deleteFixupRight hchild hsr
        simp
  | case6 c sibling k parent child hred hblack ih =>
      rw [RbPath.rbtreeDeleteFixup, if_pos hblack]
      · obtain ⟨rfl, hall⟩ := hblack
        rcases h.sibling_right with ⟨hc, -, -⟩ | ⟨-, hparent, c', hsibling⟩
        · contradiction
        · obtain rfl := hsibling.color_eq.symm.trans hall.1
          obtain ⟨sl, sk, sr, c₁, c₂, rfl, hsl, hsr⟩ := hsibling.exists_node
          obtain rfl := hsl.color_eq.symm.trans hall.2.1
          obtain rfl := hsr.color_eq.symm.trans hall.2.2
          apply ih hparent (.black (.red hsl hsr) hchild)
      · apply hred
  | case7 c sibling k parent child hred hblack =>
      rw [RbPath.rbtreeDeleteFixup, if_neg hblack]
      · apply h.deleteFixupRight hchild (h.sibling_of_right hred) hblack
      · apply hred

/-- Unlinking a node that has one child at most keeps the tree balanced. -/
theorem Balanced.unlink {path : RbPath κ} {c : RbColor} {child : RbTree κ} {n : ℕ}
    (h : path.Balanced c n) (hred : c = .red → child.Balanced .black n)
    (hblack : c = .black → ∃ c' m, n = m + 1 ∧ child.Balanced c' m) :
  ∃ m, (path.unlink c child).Balanced .black m
  := by
  rw [RbPath.unlink]
  split_ifs with hc hcolor
  · apply h.black.fill (hred hc)
  all_goals
    obtain rfl : c = .black := by
      cases c with
      | black => rfl
      | red => contradiction
    obtain ⟨c', m, rfl, hchild⟩ := hblack rfl
  · obtain rfl := hchild.color_eq.symm.trans hcolor
    apply h.fill hchild.paint_red
  · apply h.rbtreeDeleteFixup (hchild.black_of_ne_red hcolor)

end RbPath

/-! ### Operations -/

namespace RbTree

open RbPath

variable (cmp : κ → κ → ℤ)

/-- Going down in a balanced tree ends at a balanced tree. -/
theorem Balanced.zoom {t t' : RbTree κ} {path path' : RbPath κ} {c : RbColor} {n : ℕ}
    (ht : t.Balanced c n) (hpath : path.Balanced c n) (key : κ)
    (h : zoom cmp key t path = (t', path')) :
  ∃ c' m, t'.Balanced c' m ∧ path'.Balanced c' m
  := by
  induction ht generalizing path with
  | null =>
      obtain ⟨rfl, rfl⟩ := Prod.mk.inj h
      exact ⟨_, _, .null, hpath⟩
  | red hl hr ihl ihr =>
      rw [RbTree.zoom] at h
      split_ifs at h
      · obtain ⟨rfl, rfl⟩ := Prod.mk.inj h
        exact ⟨_, _, .red hl hr, hpath⟩
      · apply ihl (.redLeft hpath hr) h
      · apply ihr (.redRight hpath hl) h
  | black hl hr ihl ihr =>
      rw [RbTree.zoom] at h
      split_ifs at h
      · obtain ⟨rfl, rfl⟩ := Prod.mk.inj h
        exact ⟨_, _, .black hl hr, hpath⟩
      · apply ihl (.blackLeft hpath hr) h
      · apply ihr (.blackRight hpath hl) h

/-- Going left in a balanced tree, too. The node at which it ends has no left child. -/
theorem Balanced.zoomLeft {t : RbTree κ} {path : RbPath κ} {c : RbColor} {n : ℕ}
    (ht : t.Balanced c n) (hpath : path.Balanced c n) (hne : t ≠ .null) :
  ∃ c' k r path' m, zoomLeft t path = (.node c' .null k r, path') ∧
    (RbTree.node c' .null k r).Balanced c' m ∧ path'.Balanced c' m
  := by
  induction ht generalizing path with
  | null => exact absurd rfl hne
  | @red l r k n hl hr ihl ihr =>
      cases hl with
      | null => exact ⟨_, _, _, _, _, rfl, .red .null hr, hpath⟩
      | black hll hlr => apply ihl (.redLeft hpath hr) (by simp)
  | @black l r k c c' n hl hr ihl ihr =>
      cases hl with
      | null => exact ⟨_, _, _, _, _, rfl, .black .null hr, hpath⟩
      | red hll hlr => apply ihl (.blackLeft hpath hr) (by simp)
      | black hll hlr => apply ihl (.blackLeft hpath hr) (by simp)

/-- Insertion into a balanced tree succeeds and keeps it balanced. -/
theorem Balanced.rbtreeInsert {t : RbTree κ} {n : ℕ} (h : t.Balanced .black n) (key : κ) :
  ∃ t' m, t.rbtreeInsert cmp key = some t' ∧ t'.Balanced .black m
  := by
  rw [RbTree.rbtreeInsert]
  obtain ⟨t₁, path, hzoom⟩ : ∃ t₁ path, RbTree.zoom cmp key t .root = (t₁, path) := ⟨_, _, rfl⟩
  obtain ⟨c, m, ht₁, hpath⟩ := h.zoom cmp .root key hzoom
  rw [hzoom]
  cases t₁ with
  | null =>
      cases ht₁ with
      | null => apply hpath.rbtreeInsertFixup (.red .null .null)
  | node c' l k r => exact ⟨t, n, rfl, h⟩

/-- Unlinking a node of a balanced tree without a left child. -/
theorem Balanced.unlink_right {path : RbPath κ} {c c' : RbColor} {l r : RbTree κ} {k : κ} {n : ℕ}
    (h : (node c l k r).Balanced c' n) (hpath : path.Balanced c' n) :
  ∃ m, (path.unlink c r).Balanced .black m
  := by
  cases h with
  | red hl hr => apply hpath.unlink (fun _ => hr) (by simp)
  | black hl hr => apply hpath.unlink (by simp) (fun _ => ⟨_, _, rfl, hr⟩)

/-- Unlinking a node without a right child. -/
theorem Balanced.unlink_left {path : RbPath κ} {c c' : RbColor} {l r : RbTree κ} {k : κ} {n : ℕ}
    (h : (node c l k r).Balanced c' n) (hpath : path.Balanced c' n) :
  ∃ m, (path.unlink c l).Balanced .black m
  := by
  cases h with
  | red hl hr => apply hpath.unlink (fun _ => hl) (by simp)
  | black hl hr => apply hpath.unlink (by simp) (fun _ => ⟨_, _, rfl, hl⟩)

/-- The place of the right child, with another key at the parent. -/
theorem Balanced.right_place {path : RbPath κ} {c c' : RbColor} {l r : RbTree κ} {k : κ} {n : ℕ}
    (h : (node c l k r).Balanced c' n) (hpath : path.Balanced c' n) (k' : κ) :
  ∃ c₁ m, r.Balanced c₁ m ∧ (RbPath.right c l k' path).Balanced c₁ m
  := by
  cases h with
  | red hl hr => exact ⟨_, _, hr, .redRight hpath hl⟩
  | black hl hr => exact ⟨_, _, hr, .blackRight hpath hl⟩

/-- Deletion keeps a tree balanced. -/
theorem Balanced.rbtreeDelete {t : RbTree κ} {n : ℕ} (h : t.Balanced .black n) (key : κ) :
  ∃ m, (t.rbtreeDelete cmp key).Balanced .black m
  := by
  rw [RbTree.rbtreeDelete]
  obtain ⟨t₁, path, hzoom⟩ : ∃ t₁ path, RbTree.zoom cmp key t .root = (t₁, path) := ⟨_, _, rfl⟩
  obtain ⟨c, m, ht₁, hpath⟩ := h.zoom cmp .root key hzoom
  rw [hzoom]
  cases t₁ with
  | null => exact ⟨n, h⟩
  | node c' l k r =>
      cases l with
      | null => apply ht₁.unlink_right hpath
      | node c₁ l₁ k₁ r₁ =>
          cases r with
          | null => apply ht₁.unlink_left hpath
          | node c₂ l₂ k₂ r₂ =>
              obtain ⟨_, _, hr, hplace⟩ := ht₁.right_place hpath k
              obtain ⟨_, smkey, _, _, _, hsm, -, -⟩ := hr.zoomLeft hplace (by simp)
              obtain ⟨_, _, hr', hplace'⟩ := ht₁.right_place hpath smkey
              obtain ⟨_, _, _, _, _, hsm', hsmnode, hsmpath⟩ := hr'.zoomLeft hplace' (by simp)
              simp only [hsm, hsm']
              apply hsmnode.unlink_right hsmpath

end RbTree

/-- Every sequence of insertions and deletions succeeds, with any comparison function. In the tree
it makes, no red node has a red child and all ways to `null` have the same number of black nodes,
so that a search makes at most twice as many comparisons as the logarithm of the size. -/
theorem RbOp.balanced_of_run (cmp : κ → κ → ℤ) (ops : List (RbOp κ)) :
  ∃ t n, ops.foldlM (RbOp.run cmp) RbTree.null = some t ∧ t.Balanced .black n ∧
    ∀ key, t.comparisons cmp key ≤ 2 * Nat.log 2 (t.toList.length + 1)
  := by
  suffices hrun : ∃ t n, ops.foldlM (RbOp.run cmp) RbTree.null = some t ∧ t.Balanced .black n by
    obtain ⟨t, n, ht, hbalanced⟩ := hrun
    refine ⟨t, n, ht, hbalanced, ?_⟩
    intro key
    exact (t.comparisons_le_height cmp key).trans hbalanced.height_le_log
  induction ops using List.reverseRecOn with
  | nil => exact ⟨.null, 0, rfl, .null⟩
  | append_singleton ops op ih =>
      obtain ⟨t, n, ht, hbalanced⟩ := ih
      simp only [List.foldlM_append, ht, List.foldlM_cons, List.foldlM_nil, bind_pure,
        Option.bind_eq_bind, Option.bind_some]
      cases op with
      | insert key => apply hbalanced.rbtreeInsert
      | delete key =>
          obtain ⟨m, hm⟩ := hbalanced.rbtreeDelete cmp key
          exact ⟨_, m, rfl, hm⟩
