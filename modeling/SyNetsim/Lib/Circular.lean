import Mathlib.Data.List.Chain
import Mathlib.Data.List.Nodup

/-!
# Circular lists

Nodes with links in two directions, `next` and `prev`. `Circular next prev head l` says that the
links lead from `head` through the nodes `l` and back to `head`, in both directions. A node is
added or taken out by changing the links around it.
-/

variable {α : Type*} {next prev next' prev' : α → α}

/-- The link of `a` leads to `b`, and the link back from `b` to `a`. -/
def Linked (next prev : α → α) (a b : α) : Prop := next a = b ∧ prev b = a

/-- The links lead from `a` through the nodes `l` to `b`. -/
def Segment (next prev : α → α) (a : α) (l : List α) (b : α) : Prop :=
  (a :: (l ++ [b])).IsChain (Linked next prev)

namespace Segment

variable {a b c : α} {l l₁ l₂ : List α}

@[simp]
theorem nil_iff :
  Segment next prev a [] b ↔ Linked next prev a b
  := by simp [Segment]

@[simp]
theorem cons_iff :
  Segment next prev a (c :: l) b ↔ Linked next prev a c ∧ Segment next prev c l b
  := List.isChain_cons_cons

/-- A segment can be cut at any of its nodes. -/
theorem append_iff :
  Segment next prev a (l₁ ++ c :: l₂) b ↔ Segment next prev a l₁ c ∧ Segment next prev c l₂ b
  := by
  induction l₁ generalizing a with
  | nil => simp
  | cons d l₁ ih => rw [List.cons_append, cons_iff, cons_iff, ih, and_assoc]

/-- The last node before `b`. -/
theorem prev_mem (h : Segment next prev a l b) :
  prev b ∈ a :: l
  := by
  induction l generalizing a with
  | nil => simp [(nil_iff.mp h).2]
  | cons c l ih => apply List.mem_cons_of_mem _ (ih (cons_iff.mp h).2)

/-- The first node after `a`. -/
theorem next_mem (h : Segment next prev a l b) :
  next a ∈ l ++ [b]
  := by
  cases l with
  | nil => simp [(nil_iff.mp h).1]
  | cons c l => simp [(cons_iff.mp h).1.1]

/-- A segment is about the links from `a` and its nodes, and the links back from its nodes and
`b`. -/
theorem congr (h : Segment next prev a l b) (hnext : ∀ x ∈ a :: l, next' x = next x)
    (hprev : ∀ x ∈ l ++ [b], prev' x = prev x) :
  Segment next' prev' a l b
  := by
  induction l generalizing a with
  | nil =>
      rw [nil_iff] at h ⊢
      rw [Linked, hnext a List.mem_cons_self, hprev b List.mem_cons_self]
      apply h
  | cons c l ih =>
      rw [cons_iff] at h ⊢
      constructor
      · rw [Linked, hnext a List.mem_cons_self, hprev c List.mem_cons_self]
        apply h.1
      · apply ih h.2
        · intro x hx
          apply hnext x (List.mem_cons_of_mem _ hx)
        · intro x hx
          apply hprev x (List.mem_cons_of_mem _ hx)

/-- A segment is led to another node by the link of its last node. -/
theorem redirect (h : Segment next prev a l b) (hnodup : (a :: l).Nodup)
    (hlast : next' (prev b) = c) (hback : prev' c = prev b)
    (hnext : ∀ x ∈ a :: l, x ≠ prev b → next' x = next x)
    (hprev : ∀ x ∈ l, prev' x = prev x) :
  Segment next' prev' a l c
  := by
  induction l generalizing a with
  | nil =>
      have ha : prev b = a := (nil_iff.mp h).2
      rw [ha] at hlast hback
      exact nil_iff.mpr ⟨hlast, hback⟩
  | cons d l ih =>
      rw [cons_iff] at h ⊢
      obtain ⟨ha, hnodup'⟩ := List.nodup_cons.mp hnodup
      have hne : a ≠ prev b := by
        rintro rfl
        apply ha h.2.prev_mem
      constructor
      · rw [Linked, hnext a List.mem_cons_self hne, hprev d List.mem_cons_self]
        apply h.1
      · apply ih h.2 hnodup'
        · intro x hx
          apply hnext x (List.mem_cons_of_mem _ hx)
        · intro x hx
          apply hprev x (List.mem_cons_of_mem _ hx)

/-- The links in one direction. -/
theorem forward (h : Segment next prev a l b) :
  (a :: (l ++ [b])).IsChain (fun x y => next x = y)
  := List.IsChain.imp (fun _ _ hlinked => hlinked.1) h

/-- The links in the other direction. -/
theorem backward (h : Segment next prev a l b) :
  (b :: (l.reverse ++ [a])).IsChain (fun x y => prev x = y)
  := by
  have hback : (a :: (l ++ [b])).IsChain (fun x y => prev y = x) :=
    List.IsChain.imp (fun _ _ hlinked => hlinked.2) h
  have hreverse : b :: (l.reverse ++ [a]) = (a :: (l ++ [b])).reverse := by simp
  rw [hreverse]
  apply List.isChain_reverse.mpr hback

end Segment

/-- A circular list: the links lead from `head` through the nodes `l` and back to `head`, and no
node comes twice. -/
structure Circular (next prev : α → α) (head : α) (l : List α) : Prop where
  segment : Segment next prev head l head
  nodup : (head :: l).Nodup

namespace Circular

variable {head e : α} {l l₁ l₂ : List α}

/-- A head that is linked to itself. -/
theorem empty (hnext : next head = head) (hprev : prev head = head) :
  Circular next prev head []
  := ⟨Segment.nil_iff.mpr ⟨hnext, hprev⟩, List.nodup_singleton head⟩

/-- A circular list has no nodes exactly if its head is linked to itself. -/
theorem next_eq_head (h : Circular next prev head l) :
  next head = head ↔ l = []
  := by
  have hsegment := h.segment
  cases l with
  | nil => simp [(Segment.nil_iff.mp hsegment).1]
  | cons c l =>
      have hc : head ≠ c := List.ne_of_not_mem_cons (List.nodup_cons.mp h.nodup).1
      simp [(Segment.cons_iff.mp hsegment).1.1, hc.symm]

/-- A circular list is about the links of its head and nodes. -/
theorem congr (h : Circular next prev head l) (hnext : ∀ x ∈ head :: l, next' x = next x)
    (hprev : ∀ x ∈ head :: l, prev' x = prev x) :
  Circular next' prev' head l
  := by
  refine ⟨h.segment.congr hnext ?_, h.nodup⟩
  intro x hx
  apply hprev x
  simpa [or_comm] using hx

/-- Add a node at the end, between the last node and the head. -/
theorem concat (h : Circular next prev head l) (he : e ∉ head :: l)
    (hlast : next' (prev head) = e) (helem : next' e = head)
    (hnext : ∀ x ∈ head :: l, x ≠ prev head → next' x = next x)
    (hhead : prev' head = e) (hback : prev' e = prev head)
    (hprev : ∀ x ∈ l, prev' x = prev x) :
  Circular next' prev' head (l ++ [e])
  := by
  constructor
  · apply Segment.append_iff.mpr
    constructor
    · apply h.segment.redirect h.nodup hlast hback hnext hprev
    · exact Segment.nil_iff.mpr ⟨helem, hhead⟩
  · rw [← List.cons_append, List.nodup_append_comm, List.singleton_append]
    apply List.nodup_cons.mpr ⟨he, h.nodup⟩

/-- Take a node out by linking its two neighbours to each other. -/
theorem delete (h : Circular next prev head (l₁ ++ e :: l₂)) (hlast : next' (prev e) = next e)
    (hnext : ∀ x, x ≠ prev e → next' x = next x) (hback : prev' (next e) = prev e)
    (hprev : ∀ x, x ≠ next e → prev' x = prev x) :
  Circular next' prev' head (l₁ ++ l₂)
  := by
  obtain ⟨hbefore, hafter⟩ := Segment.append_iff.mp h.segment
  have hparts : (head :: l₁).Nodup ∧ (l₂ ++ [head]).Nodup ∧
      ∀ x ∈ head :: l₁, x ∉ l₂ := by
    have hnodup := h.nodup
    rw [List.nodup_cons, List.nodup_append, List.nodup_cons] at hnodup
    simp only [List.mem_append, List.mem_cons, not_or] at hnodup
    obtain ⟨⟨hhead₁, -, hhead₂⟩, h₁, ⟨-, h₂⟩, hdisjoint⟩ := hnodup
    refine ⟨List.nodup_cons.mpr ⟨hhead₁, h₁⟩, ?_, ?_⟩
    · rw [← List.concat_eq_append]
      apply List.Nodup.concat hhead₂ h₂
    · rintro x hx hx₂
      rcases List.mem_cons.mp hx with rfl | hx
      · apply hhead₂ hx₂
      · apply hdisjoint x hx x (Or.inr hx₂) rfl
  obtain ⟨hnodup₁, hnodup₂, hdisjoint⟩ := hparts
  have hnext_mem := hafter.next_mem
  constructor
  · have hredirect : Segment next' prev' head l₁ (next e) := by
      apply hbefore.redirect hnodup₁ hlast hback
      · intro x _ hx
        apply hnext x hx
      · intro x hx
        apply hprev x
        rintro rfl
        rcases List.mem_append.mp hnext_mem with hmem | hmem
        · apply hdisjoint _ (List.mem_cons_of_mem _ hx) hmem
        · rw [List.mem_singleton.mp hmem] at hx
          apply (List.nodup_cons.mp hnodup₁).1 hx
    cases l₂ with
    | nil =>
        have hhead : next e = head := (Segment.nil_iff.mp hafter).1
        rw [hhead] at hredirect
        rw [List.append_nil]
        apply hredirect
    | cons c l₂ =>
        obtain ⟨hlinked, hrest⟩ := Segment.cons_iff.mp hafter
        rw [hlinked.1] at hredirect
        apply Segment.append_iff.mpr ⟨hredirect, ?_⟩
        apply hrest.congr
        · intro x hx
          apply hnext x
          rintro rfl
          apply hdisjoint _ hbefore.prev_mem hx
        · intro x hx
          apply hprev x
          rw [hlinked.1]
          rintro rfl
          apply (List.nodup_cons.mp hnodup₂).1 hx
  · apply List.Nodup.sublist _ h.nodup
    apply ((List.sublist_cons_self e l₂).append_left l₁).cons_cons

end Circular
