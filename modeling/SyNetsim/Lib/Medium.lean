import Mathlib.Data.List.Basic
import Mathlib.Logic.Function.Basic

/-!
# A shared medium

Senders hand messages to a medium, which passes them on to the receivers one after the other, and
may lose them before and after. What a receiver gets is put together from what the senders have
sent: every sender is heard in order, and the messages of different senders come in any order
(`Medium.Flows`).
-/

variable {ι α : Type*} [DecidableEq ι]

/-! ### Merged lists -/

/-- `IsMerge parts l`: the list `l` consists of the lists `parts i`, each in its order. -/
inductive IsMerge : (ι → List α) → List α → Prop
  | nil : IsMerge (fun _ => []) []
  | snoc {parts : ι → List α} {l : List α} (i : ι) (x : α) : IsMerge parts l →
      IsMerge (Function.update parts i (parts i ++ [x])) (l ++ [x])

namespace IsMerge

variable {parts : ι → List α} {l : List α}

/-- What is dropped from the list is dropped from the parts. -/
theorem sublist (h : IsMerge parts l) {l' : List α} (hl : l'.Sublist l) :
  ∃ parts', IsMerge parts' l' ∧ ∀ i, (parts' i).Sublist (parts i)
  := by
  induction h generalizing l' with
  | nil =>
      obtain rfl := List.sublist_nil.mp hl
      exact ⟨_, nil, fun _ => List.Sublist.refl _⟩
  | @snoc parts l i x h ih =>
      obtain ⟨l₁, l₂, rfl, hl₁, hl₂⟩ := List.sublist_append_iff.mp hl
      obtain ⟨parts', h', hsub⟩ := ih hl₁
      cases hl₂ with
      | cons _ hnil =>
          obtain rfl := List.sublist_nil.mp hnil
          rw [List.append_nil]
          refine ⟨parts', h', fun k => ?_⟩
          rw [Function.update_apply]
          split_ifs with hk
          · rw [hk]
            apply (hsub i).trans (List.sublist_append_left _ _)
          · apply hsub
      | cons_cons _ hnil =>
          obtain rfl := List.sublist_nil.mp hnil
          refine ⟨_, h'.snoc i x, fun k => ?_⟩
          rw [Function.update_apply, Function.update_apply]
          split_ifs
          · apply (hsub i).append_right
          · apply hsub

/-- A merged list contains all of its parts. -/
theorem part_sublist (h : IsMerge parts l) (i : ι) :
  (parts i).Sublist l
  := by
  induction h with
  | nil => apply List.Sublist.refl
  | snoc k x h ih =>
      rw [Function.update_apply]
      split_ifs with hk
      · subst hk
        apply ih.append_right
      · apply ih.trans (List.sublist_append_left _ _)

end IsMerge

/-! ### The medium -/

/-- What every sender has sent, what of it has still to be passed on to a receiver, and what has
been passed on to the receiver and was not lost since. -/
structure Medium (ι α : Type*) where
  sent : ι → List α
  ahead : ι → ι → List α
  got : ι → List α

/-- The list `l'` is what is left of `l`: all of it, if it is kept. -/
def Leaves (kept : Prop) (l l' : List α) : Prop := l'.Sublist l ∧ (kept → l' = l)

theorem Leaves.refl (kept : Prop) (l : List α) :
  Leaves kept l l
  := ⟨List.Sublist.refl l, fun _ => rfl⟩

theorem Leaves.of_eq {kept : Prop} {l l' : List α} (h : l' = l) :
  Leaves kept l l'
  := by
  subst h
  apply Leaves.refl

theorem Leaves.mono {kept kept' : Prop} {l l' : List α} (h : Leaves kept l l')
    (hkept : kept' → kept) :
  Leaves kept' l l'
  := ⟨h.1, fun hk => h.2 (hkept hk)⟩

theorem Leaves.append {kept : Prop} {l₁ l₁' l₂ l₂' : List α} (h₁ : Leaves kept l₁ l₁')
    (h₂ : Leaves kept l₂ l₂') :
  Leaves kept (l₁ ++ l₂) (l₁' ++ l₂')
  := ⟨h₁.1.append h₂.1, fun hkept => by rw [h₁.2 hkept, h₂.2 hkept]⟩

theorem Leaves.trans {kept : Prop} {l l' l'' : List α} (h : Leaves kept l l')
    (h' : Leaves kept l' l'') :
  Leaves kept l l''
  := ⟨h'.1.trans h.1, fun hkept => (h'.2 hkept).trans (h.2 hkept)⟩

namespace Medium

variable (linked kept : ι → ι → Prop)

/-- A step of the medium, as far as it concerns the receiver `j`. Either messages `new` are sent and
others are lost, or a message of a sender that is linked with the receiver is passed on to it. -/
inductive Step (m m' : Medium ι α) (j : ι) : Prop
  | flow (new : ι → List α) (hsent : ∀ i, m'.sent i = m.sent i ++ new i)
      (hahead : ∀ i, Leaves (kept i j) (m.ahead i j ++ new i) (m'.ahead i j))
      (hgot : Leaves (∃ i, kept i j) (m.got j) (m'.got j))
  | pass (i : ι) (x : α) (hlinked : linked i j) (hsent : m'.sent = m.sent)
      (hahead : ∀ k, m.ahead k j = if k = i then x :: m'.ahead k j else m'.ahead k j)
      (hgot : m'.got j = m.got j ++ [x])

/-- What the receiver `j` has got is put together from what was passed on to it. From every sender
this is the first part of what is left of its messages, and the second part is still ahead. -/
def Flows (m : Medium ι α) (j : ι) : Prop :=
  ∃ passed, IsMerge passed (m.got j) ∧ ∀ i, (passed i ≠ [] → linked i j) ∧
    Leaves (kept i j) (m.sent i) (passed i ++ m.ahead i j)

variable {linked kept} {m m' : Medium ι α} {j : ι}

theorem Flows.step (h : Flows linked kept m j) (hstep : Step linked kept m m' j) :
  Flows linked kept m' j
  := by
  obtain ⟨passed, hmerge, hpassed⟩ := h
  cases hstep with
  | flow new hsent hahead hgot =>
      -- what is sent comes at the end of what is ahead
      have hleaves : ∀ i, Leaves (kept i j) (m'.sent i) (passed i ++ m'.ahead i j) := by
        intro i
        rw [hsent]
        apply ((hpassed i).2.append (Leaves.refl _ (new i))).trans
        rw [List.append_assoc]
        apply (Leaves.refl _ _).append (hahead i)
      by_cases hkept : ∃ i, kept i j
      · exact ⟨passed, by rwa [hgot.2 hkept], fun i => ⟨(hpassed i).1, hleaves i⟩⟩
      · -- messages that were passed on may be lost
        obtain ⟨passed', hmerge', hsub⟩ := hmerge.sublist hgot.1
        refine ⟨passed', hmerge', fun i => ⟨fun hne => ?_, ?_, fun hi => ?_⟩⟩
        · apply (hpassed i).1
          intro hnil
          have hsubi := hsub i
          rw [hnil] at hsubi
          apply hne (List.sublist_nil.mp hsubi)
        · apply ((hsub i).append_right _).trans (hleaves i).1
        · apply absurd ⟨i, hi⟩ hkept
  | pass i x hlinked hsent hahead hgot =>
      refine ⟨_, by rw [hgot]; apply hmerge.snoc i x, fun k => ?_⟩
      rw [hsent, Function.update_apply]
      have hk := (hpassed k).2
      rw [hahead] at hk
      split_ifs at hk ⊢ with hki
      · subst hki
        refine ⟨fun _ => hlinked, ?_⟩
        rw [List.append_assoc, List.singleton_append]
        apply hk
      · exact ⟨(hpassed k).1, hk⟩

theorem flows_start (hgot : m.got j = []) (hahead : ∀ i, m.ahead i j = m.sent i) :
  Flows linked kept m j
  := by
  refine ⟨fun _ => [], by rw [hgot]; apply IsMerge.nil, fun i => ⟨fun h => absurd rfl h, ?_⟩⟩
  rw [List.nil_append, hahead]
  apply Leaves.refl

end Medium
