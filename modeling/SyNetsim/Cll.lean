import Mathlib.Logic.Function.Basic
import SyNetsim.Lib.Circular

/-!
# Circular linked lists

`cll.c`: lists of elements that are linked in both directions and closed by a head. Addresses are
numbers, and `NULL` is zero. A function gives `none` where the source would follow a null pointer.

`CllMem.Refines mem lists` relates a memory to the sequences that its heads stand for, and each
function has a lemma that says what it does to them. `CllMem.refines_sequences` is about whole
sequences of calls, for any number of heads.
-/

/-- A `CllElem`. -/
structure CllElem where
  prev : ℕ
  next : ℕ
deriving DecidableEq

/-- The elements in memory, by their addresses. -/
abbrev CllMem : Type := ℕ → CllElem

namespace CllMem

/-- Write to the field `next` of the element at `p`. -/
def setNext (mem : CllMem) (p next : ℕ) : Option CllMem :=
  if p = 0 then none else some (Function.update mem p { mem p with next := next })

/-- Write to the field `prev` of the element at `p`. -/
def setPrev (mem : CllMem) (p prev : ℕ) : Option CllMem :=
  if p = 0 then none else some (Function.update mem p { mem p with prev := prev })

/-- `cll_init_head`. -/
def cllInitHead (mem : CllMem) (head : ℕ) : Option (CllMem × ℤ) := do
  let mem ← mem.setNext head head
  let mem ← mem.setPrev head head
  return (mem, 0)

/-- `cll_add_tail`. -/
def cllAddTail (mem : CllMem) (head elem : ℕ) : Option (CllMem × ℤ) :=
  if head = 0 ∨ elem = 0 then some (mem, -1)
  else do
    let pprev := (mem head).prev
    let mem ← mem.setNext pprev elem
    let mem ← mem.setPrev elem pprev
    let mem ← mem.setPrev head elem
    let mem ← mem.setNext elem head
    return (mem, 1)

/-- `cll_delete`. -/
def cllDelete (mem : CllMem) (head deleteElem : ℕ) : Option (CllMem × ℤ) :=
  if head = 0 ∨ deleteElem = 0 then some (mem, -1)
  else do
    let dprev := (mem deleteElem).prev
    let dnext := (mem deleteElem).next
    let mem ← mem.setNext dprev dnext
    let mem ← mem.setPrev dnext dprev
    return (mem, 1)

/-- `cll_pop_head`. -/
def cllPopHead (mem : CllMem) (head : ℕ) : Option (CllMem × ℕ) :=
  if head = 0 then some (mem, 0)
  else if (mem head).next ≠ head then do
    let res := (mem head).next
    let (mem, _) ← mem.cllDelete head res
    return (mem, res)
  else some (mem, 0)

/-- `cll_no_entry`. -/
def cllNoEntry (mem : CllMem) (head : ℕ) : Bool := (mem head).next = head

/-- The loop of `cll_foreach` from `travElem` on, with a body that leaves the links as they are,
for at most `fuel` tests. It gives `none` if the loop has not ended by then. -/
def foreachLoop {σ : Type} (body : σ → ℕ → σ) (mem : CllMem) (head : ℕ) :
    ℕ → ℕ → σ → Option σ
  | 0, _, _ => none
  | fuel + 1, travElem, s =>
      if travElem = head then some s
      else foreachLoop body mem head fuel (mem travElem).next (body s travElem)

/-- `cll_foreach`. -/
def cllForeach {σ : Type} (body : σ → ℕ → σ) (mem : CllMem) (head fuel : ℕ) (s : σ) : Option σ :=
  foreachLoop body mem head fuel (mem head).next s

end CllMem

/-! ### Calls -/

/-- A call of one of the functions. -/
inductive CllCall where
  | initHead (head : ℕ)
  | addTail (head elem : ℕ)
  | popHead (head : ℕ)
  | delete (head deleteElem : ℕ)
deriving DecidableEq

/-- What a call returns: an `int` or a pointer. -/
inductive CllRet where
  | int (res : ℤ)
  | elem (res : ℕ)
deriving DecidableEq

/-- Perform a call. -/
def CllMem.exec (mem : CllMem) : CllCall → Option (CllMem × CllRet)
  | .initHead head => (mem.cllInitHead head).map (Prod.map id .int)
  | .addTail head elem => (mem.cllAddTail head elem).map (Prod.map id .int)
  | .popHead head => (mem.cllPopHead head).map (Prod.map id .elem)
  | .delete head deleteElem => (mem.cllDelete head deleteElem).map (Prod.map id .int)

/-- Perform calls one after the other. -/
def CllMem.execAll (mem : CllMem) : List CllCall → Option (CllMem × List CllRet)
  | [] => some (mem, [])
  | call :: calls => do
      let (mem, ret) ← mem.exec call
      let (mem, rets) ← mem.execAll calls
      return (mem, ret :: rets)

/-- The sequences that the heads stand for. -/
abbrev CllLists : Type := ℕ → Option (List ℕ)

namespace CllLists

/-- There is no head yet. -/
def empty : CllLists := fun _ => none

/-- What a call does to the sequences, and what it returns: a sequence is emptied, an element is
appended, the first element is removed, a given element is removed. What becomes an element is a
head no more. -/
def exec (lists : CllLists) : CllCall → CllLists × CllRet
  | .initHead head => (Function.update lists head (some []), .int 0)
  | .addTail head elem =>
      (Function.update (Function.update lists elem none) head ((lists head).map (· ++ [elem])),
        .int 1)
  | .popHead head =>
      (Function.update lists head ((lists head).map List.tail),
        .elem (((lists head).bind List.head?).getD 0))
  | .delete head deleteElem =>
      (Function.update lists head ((lists head).map (·.erase deleteElem)), .int 1)

/-- Calls one after the other. -/
def execAll (lists : CllLists) : List CllCall → CllLists × List CllRet
  | [] => (lists, [])
  | call :: calls =>
      let next := (lists.exec call).1.execAll calls
      (next.1, (lists.exec call).2 :: next.2)

/-- The node `p` is in no sequence. -/
def Free (lists : CllLists) (p : ℕ) : Prop := ∀ head l, lists head = some l → p ∉ l

/-- How calls are made: a head is not an element of a sequence, and it is initialised before it is
used; an element that is added is in no sequence, and one that is deleted is in that of the
head. -/
def Allowed (lists : CllLists) : CllCall → Prop
  | .initHead head => head ≠ 0 ∧ lists.Free head
  | .addTail head elem => lists head ≠ none ∧ elem ≠ 0 ∧ elem ≠ head ∧ lists.Free elem
  | .popHead head => lists head ≠ none
  | .delete head deleteElem => ∃ l, lists head = some l ∧ deleteElem ∈ l

/-- Every call is made as it may. -/
def AllAllowed (lists : CllLists) : List CllCall → Prop
  | [] => True
  | call :: calls => lists.Allowed call ∧ (lists.exec call).1.AllAllowed calls

end CllLists

/-! ### Writing to memory -/

namespace CllMem

theorem exists_setNext (mem : CllMem) {p : ℕ} (hp : p ≠ 0) (next : ℕ) :
  ∃ mem', mem.setNext p next = some mem' ∧
    (∀ x, (mem' x).next = if x = p then next else (mem x).next) ∧ ∀ x, (mem' x).prev = (mem x).prev
  := by
  rw [setNext, if_neg hp]
  refine ⟨_, rfl, ?_, ?_⟩
  · intro x
    rw [Function.update_apply]
    split_ifs <;> rfl
  · intro x
    rw [Function.update_apply]
    split_ifs with hx
    · rw [hx]
    · rfl

theorem exists_setPrev (mem : CllMem) {p : ℕ} (hp : p ≠ 0) (prev : ℕ) :
  ∃ mem', mem.setPrev p prev = some mem' ∧ (∀ x, (mem' x).next = (mem x).next) ∧
    ∀ x, (mem' x).prev = if x = p then prev else (mem x).prev
  := by
  rw [setPrev, if_neg hp]
  refine ⟨_, rfl, ?_, ?_⟩
  · intro x
    rw [Function.update_apply]
    split_ifs with hx
    · rw [hx]
    · rfl
  · intro x
    rw [Function.update_apply]
    split_ifs <;> rfl

/-- `cll_init_head` links a head to itself. -/
theorem cllInitHead_spec (mem : CllMem) {head : ℕ} (hhead : head ≠ 0) :
  ∃ mem', mem.cllInitHead head = some (mem', 0) ∧
    (∀ x, (mem' x).next = if x = head then head else (mem x).next) ∧
    ∀ x, (mem' x).prev = if x = head then head else (mem x).prev
  := by
  obtain ⟨mem₁, hmem₁, hnext₁, hprev₁⟩ := mem.exists_setNext hhead head
  obtain ⟨mem₂, hmem₂, hnext₂, hprev₂⟩ := mem₁.exists_setPrev hhead head
  refine ⟨mem₂, ?_, ?_, ?_⟩
  · simp [cllInitHead, hmem₁, hmem₂]
  · intro x
    rw [hnext₂, hnext₁]
  · intro x
    rw [hprev₂, hprev₁]

/-- `cll_add_tail` links an element between the last element and the head. -/
theorem cllAddTail_spec (mem : CllMem) {head elem : ℕ} (hhead : head ≠ 0) (helem : elem ≠ 0)
    (hpprev : (mem head).prev ≠ 0) :
  ∃ mem', mem.cllAddTail head elem = some (mem', 1) ∧
    (∀ x, (mem' x).next =
      if x = elem then head else if x = (mem head).prev then elem else (mem x).next) ∧
    ∀ x, (mem' x).prev =
      if x = head then elem else if x = elem then (mem head).prev else (mem x).prev
  := by
  obtain ⟨mem₁, hmem₁, hnext₁, hprev₁⟩ := mem.exists_setNext hpprev elem
  obtain ⟨mem₂, hmem₂, hnext₂, hprev₂⟩ := mem₁.exists_setPrev helem (mem head).prev
  obtain ⟨mem₃, hmem₃, hnext₃, hprev₃⟩ := mem₂.exists_setPrev hhead elem
  obtain ⟨mem₄, hmem₄, hnext₄, hprev₄⟩ := mem₃.exists_setNext helem head
  refine ⟨mem₄, ?_, ?_, ?_⟩
  · simp [cllAddTail, hhead, helem, hmem₁, hmem₂, hmem₃, hmem₄]
  · intro x
    rw [hnext₄, hnext₃, hnext₂, hnext₁]
  · intro x
    rw [hprev₄, hprev₃, hprev₂, hprev₁]

/-- `cll_delete` links the neighbours of an element to each other. -/
theorem cllDelete_spec (mem : CllMem) {head deleteElem : ℕ} (hhead : head ≠ 0)
    (helem : deleteElem ≠ 0) (hdprev : (mem deleteElem).prev ≠ 0)
    (hdnext : (mem deleteElem).next ≠ 0) :
  ∃ mem', mem.cllDelete head deleteElem = some (mem', 1) ∧
    (∀ x, (mem' x).next =
      if x = (mem deleteElem).prev then (mem deleteElem).next else (mem x).next) ∧
    ∀ x, (mem' x).prev =
      if x = (mem deleteElem).next then (mem deleteElem).prev else (mem x).prev
  := by
  obtain ⟨mem₁, hmem₁, hnext₁, hprev₁⟩ := mem.exists_setNext hdprev (mem deleteElem).next
  obtain ⟨mem₂, hmem₂, hnext₂, hprev₂⟩ := mem₁.exists_setPrev hdnext (mem deleteElem).prev
  refine ⟨mem₂, ?_, ?_, ?_⟩
  · simp [cllDelete, hhead, helem, hmem₁, hmem₂]
  · intro x
    rw [hnext₂, hnext₁]
  · intro x
    rw [hprev₂, hprev₁]

/-! ### The sequence of a head -/

/-- The links of `head` and the elements `l` make a circular list. -/
def Holds (mem : CllMem) (head : ℕ) (l : List ℕ) : Prop :=
  Circular (fun p => (mem p).next) (fun p => (mem p).prev) head l

/-- `cll_foreach` runs its body for each element in turn, and ends. -/
theorem foreachLoop_eq {σ : Type} (body : σ → ℕ → σ) {mem : CllMem} {head a : ℕ} {l : List ℕ}
    (h : Segment (fun p => (mem p).next) (fun p => (mem p).prev) a l head) (hhead : head ∉ l)
    {fuel : ℕ} (hfuel : l.length < fuel) (s : σ) :
  foreachLoop body mem head fuel (mem a).next s = some (l.foldl body s)
  := by
  induction l generalizing a fuel s with
  | nil =>
      obtain ⟨fuel, rfl⟩ := Nat.exists_eq_succ_of_ne_zero (Nat.ne_zero_of_lt hfuel)
      have hnext : (mem a).next = head := (Segment.nil_iff.mp h).1
      rw [hnext, foreachLoop, if_pos rfl]
      rfl
  | cons c l ih =>
      obtain ⟨fuel, rfl⟩ := Nat.exists_eq_succ_of_ne_zero (Nat.ne_zero_of_lt hfuel)
      obtain ⟨hlinked, hrest⟩ := Segment.cons_iff.mp h
      have hnext : (mem a).next = c := hlinked.1
      rw [List.mem_cons, not_or] at hhead
      obtain ⟨hc, hl⟩ := hhead
      rw [hnext, foreachLoop, if_neg (Ne.symm hc)]
      apply ih hrest hl (Nat.lt_of_succ_lt_succ hfuel)

theorem Holds.cllForeach {σ : Type} (body : σ → ℕ → σ) {mem : CllMem} {head : ℕ} {l : List ℕ}
    (h : mem.Holds head l) {fuel : ℕ} (hfuel : l.length < fuel) (s : σ) :
  mem.cllForeach body head fuel s = some (l.foldl body s)
  := foreachLoop_eq body h.segment (List.nodup_cons.mp h.nodup).1 hfuel s

theorem Holds.cllNoEntry {mem : CllMem} {head : ℕ} {l : List ℕ} (h : mem.Holds head l) :
  mem.cllNoEntry head = true ↔ l = []
  := by
  rw [CllMem.cllNoEntry, decide_eq_true_eq]
  apply h.next_eq_head

/-! ### What calls do to the sequences -/

/-- Every head is linked in a circle with the elements of its sequence, and no node belongs to two
sequences. -/
structure Refines (mem : CllMem) (lists : CllLists) : Prop where
  ne_zero : ∀ head l, lists head = some l → 0 ∉ head :: l
  holds : ∀ head l, lists head = some l → mem.Holds head l
  disjoint : ∀ head head' l l', lists head = some l → lists head' = some l' → head' ≠ head →
    ∀ x ∈ head' :: l', x ∉ head :: l

theorem refines_empty (mem : CllMem) :
  mem.Refines CllLists.empty
  where
  ne_zero _ _ h := by contradiction
  holds _ _ h := by contradiction
  disjoint _ _ _ _ h := by contradiction

/-- The sequence of one head is changed, and the links of the other heads and their elements are
not. Some of these may be heads no more. -/
theorem Refines.update {mem mem' : CllMem} {lists lists₀ : CllLists} (h : mem.Refines lists)
    {head : ℕ} {l : List ℕ} (hsub : ∀ head' l', lists₀ head' = some l' → lists head' = some l')
    (hzero : 0 ∉ head :: l) (hholds : mem'.Holds head l)
    (hframe : ∀ head' l', lists₀ head' = some l' → head' ≠ head → ∀ x ∈ head' :: l',
      (mem' x).next = (mem x).next ∧ (mem' x).prev = (mem x).prev ∧ x ∉ head :: l) :
  mem'.Refines (Function.update lists₀ head (some l))
  := by
  constructor
  · intro head' l' hl'
    rw [Function.update_apply] at hl'
    split_ifs at hl' with hhead
    · rw [hhead, ← Option.some.inj hl']
      apply hzero
    · apply h.ne_zero head' l' (hsub head' l' hl')
  · intro head' l' hl'
    rw [Function.update_apply] at hl'
    split_ifs at hl' with hhead
    · rw [hhead, ← Option.some.inj hl']
      apply hholds
    · apply (h.holds head' l' (hsub head' l' hl')).congr
      · intro x hx
        apply (hframe head' l' hl' hhead x hx).1
      · intro x hx
        apply (hframe head' l' hl' hhead x hx).2.1
  · intro head₁ head₂ l₁ l₂ hl₁ hl₂ hne x hx
    rw [Function.update_apply] at hl₁ hl₂
    split_ifs at hl₁ hl₂ with hhead₁ hhead₂ hhead₂
    · apply absurd (hhead₂.trans hhead₁.symm) hne
    · rw [hhead₁, ← Option.some.inj hl₁]
      apply (hframe head₂ l₂ hl₂ hhead₂ x hx).2.2
    · intro hx'
      rw [hhead₂, ← Option.some.inj hl₂] at hx
      apply (hframe head₁ l₁ hl₁ hhead₁ x hx').2.2 hx
    · apply h.disjoint head₁ head₂ l₁ l₂ (hsub _ _ hl₁) (hsub _ _ hl₂) hne x hx

/-- The call `cll_init_head` empties a sequence. -/
theorem Refines.initHead {mem : CllMem} {lists : CllLists} (h : mem.Refines lists) {head : ℕ}
    (hhead : head ≠ 0) (hfree : lists.Free head) :
  ∃ mem', mem.cllInitHead head = some (mem', 0) ∧
    mem'.Refines (Function.update lists head (some []))
  := by
  obtain ⟨mem', hmem', hnext, hprev⟩ := mem.cllInitHead_spec hhead
  refine ⟨mem', hmem', ?_⟩
  apply h.update (fun _ _ hl => hl)
  · simpa using hhead.symm
  · apply Circular.empty
    · simp [hnext]
    · simp [hprev]
  · intro head' l' hl' hne x hx
    have hx' : x ≠ head := by
      rintro rfl
      rcases List.mem_cons.mp hx with rfl | hx
      · contradiction
      · apply hfree head' l' hl' hx
    rw [hnext, hprev, if_neg hx', if_neg hx', List.mem_singleton]
    exact ⟨rfl, rfl, hx'⟩

/-- The call `cll_add_tail` appends an element. -/
theorem Refines.addTail {mem : CllMem} {lists : CllLists} (h : mem.Refines lists) {head elem : ℕ}
    {l : List ℕ} (hl : lists head = some l) (helem : elem ≠ 0) (hne : elem ≠ head)
    (hfree : lists.Free elem) :
  ∃ mem', mem.cllAddTail head elem = some (mem', 1) ∧
    mem'.Refines (Function.update (Function.update lists elem none) head (some (l ++ [elem])))
  := by
  have hzero := h.ne_zero head l hl
  have hholds := h.holds head l hl
  have hmem : (mem head).prev ∈ head :: l := hholds.segment.prev_mem
  have hnot : elem ∉ head :: l := by
    rw [List.mem_cons, not_or]
    exact ⟨hne, hfree head l hl⟩
  have hprev_ne : (mem head).prev ≠ elem := ne_of_mem_of_not_mem hmem hnot
  obtain ⟨mem', hmem', hnext, hprev⟩ := mem.cllAddTail_spec
    (ne_of_mem_of_not_mem List.mem_cons_self hzero) helem (ne_of_mem_of_not_mem hmem hzero)
  refine ⟨mem', hmem', ?_⟩
  apply h.update
  · intro head' l' hl'
    rw [Function.update_apply] at hl'
    split_ifs at hl'
    apply hl'
  · rw [← List.cons_append, List.mem_append, List.mem_singleton, not_or]
    exact ⟨hzero, helem.symm⟩
  · apply Circular.concat hholds hnot
    · rw [hnext, if_neg hprev_ne, if_pos rfl]
    · rw [hnext, if_pos rfl]
    · intro x hx hx'
      rw [hnext, if_neg (ne_of_mem_of_not_mem hx hnot), if_neg hx']
    · rw [hprev, if_pos rfl]
    · rw [hprev, if_neg hne, if_pos rfl]
    · intro x hx
      have hx' : x ≠ head := ne_of_mem_of_not_mem hx (List.nodup_cons.mp hholds.nodup).1
      have hxelem : x ≠ elem := ne_of_mem_of_not_mem (List.mem_cons_of_mem _ hx) hnot
      rw [hprev, if_neg hx', if_neg hxelem]
  · intro head' l' hl' hhead' x hx
    rw [Function.update_apply] at hl'
    split_ifs at hl' with helem'
    have hx' : x ∉ head :: l := h.disjoint head head' l l' hl hl' hhead' x hx
    have hxelem : x ≠ elem := by
      rintro rfl
      rcases List.mem_cons.mp hx with rfl | hx
      · contradiction
      · apply hfree head' l' hl' hx
    have hxprev : x ≠ (mem head).prev := (ne_of_mem_of_not_mem hmem hx').symm
    have hxhead : x ≠ head := List.ne_of_not_mem_cons hx'
    rw [hnext, hprev, if_neg hxelem, if_neg hxprev, if_neg hxhead, if_neg hxelem,
      ← List.cons_append, List.mem_append, List.mem_singleton, not_or]
    exact ⟨rfl, rfl, hx', hxelem⟩

/-- The call `cll_delete` removes an element. -/
theorem Refines.delete {mem : CllMem} {lists : CllLists} (h : mem.Refines lists)
    {head e : ℕ} {l₁ l₂ : List ℕ} (hl : lists head = some (l₁ ++ e :: l₂)) :
  ∃ mem', mem.cllDelete head e = some (mem', 1) ∧
    mem'.Refines (Function.update lists head (some (l₁ ++ l₂)))
  := by
  have hzero := h.ne_zero head _ hl
  have hholds := h.holds head _ hl
  obtain ⟨hbefore, hafter⟩ := Segment.append_iff.mp hholds.segment
  -- The neighbours of the element are nodes of the list as well.
  have hdprev : (mem e).prev ∈ head :: (l₁ ++ e :: l₂) := by
    rw [← List.cons_append]
    apply List.mem_append_left _ hbefore.prev_mem
  have hdnext : (mem e).next ∈ head :: (l₁ ++ e :: l₂) := by
    rcases List.mem_append.mp hafter.next_mem with hmem | hmem
    · simp [hmem]
    · simp [List.mem_singleton.mp hmem]
  have he : e ∈ head :: (l₁ ++ e :: l₂) := by simp
  have hsub : ∀ x ∈ head :: (l₁ ++ l₂), x ∈ head :: (l₁ ++ e :: l₂) := by
    intro x hx
    apply List.Sublist.subset _ hx
    apply ((List.sublist_cons_self e l₂).append_left l₁).cons_cons
  obtain ⟨mem', hmem', hnext, hprev⟩ := mem.cllDelete_spec
    (ne_of_mem_of_not_mem List.mem_cons_self hzero) (ne_of_mem_of_not_mem he hzero)
    (ne_of_mem_of_not_mem hdprev hzero) (ne_of_mem_of_not_mem hdnext hzero)
  refine ⟨mem', hmem', ?_⟩
  apply h.update (fun _ _ hl => hl)
  · intro hmem
    apply hzero (hsub 0 hmem)
  · apply Circular.delete hholds
    · rw [hnext, if_pos rfl]
    · intro x hx
      rw [hnext, if_neg hx]
    · rw [hprev, if_pos rfl]
    · intro x hx
      rw [hprev, if_neg hx]
  · intro head' l' hl' hhead' x hx
    have hx' : x ∉ head :: (l₁ ++ e :: l₂) := h.disjoint head head' _ l' hl hl' hhead' x hx
    rw [hnext, hprev, if_neg (ne_of_mem_of_not_mem hdprev hx').symm,
      if_neg (ne_of_mem_of_not_mem hdnext hx').symm]
    exact ⟨rfl, rfl, fun hmem => hx' (hsub x hmem)⟩

/-- The call `cll_pop_head` removes the first element and returns it. -/
theorem Refines.popHead {mem : CllMem} {lists : CllLists} (h : mem.Refines lists) {head : ℕ}
    {l : List ℕ} (hl : lists head = some l) :
  ∃ mem', mem.cllPopHead head = some (mem', l.head?.getD 0) ∧
    mem'.Refines (Function.update lists head (some l.tail))
  := by
  have hzero := h.ne_zero head l hl
  have hholds := h.holds head l hl
  have hhead : head ≠ 0 := ne_of_mem_of_not_mem List.mem_cons_self hzero
  have hempty : (mem head).next = head ↔ l = [] := hholds.next_eq_head
  cases l with
  | nil =>
      refine ⟨mem, ?_, ?_⟩
      · simp [cllPopHead, hhead, hempty]
      · rw [List.tail_nil, ← hl, Function.update_eq_self]
        apply h
  | cons e l =>
      have hnext : (mem head).next = e := (Segment.cons_iff.mp hholds.segment).1.1
      have hne : e ≠ head := by
        rw [← hnext, Ne, hempty]
        simp
      obtain ⟨mem', hmem', hrefines⟩ : ∃ mem', mem.cllDelete head e = some (mem', 1) ∧
          mem'.Refines (Function.update lists head (some ([] ++ l))) := h.delete hl
      refine ⟨mem', ?_, hrefines⟩
      simp [cllPopHead, hhead, hnext, hne, hmem']

/-- A call made as it may does to the memory what it does to the sequences. -/
theorem Refines.exec {mem : CllMem} {lists : CllLists} (h : mem.Refines lists) {call : CllCall}
    (hallowed : lists.Allowed call) :
  ∃ mem', mem.exec call = some (mem', (lists.exec call).2) ∧ mem'.Refines (lists.exec call).1
  := by
  cases call with
  | initHead head =>
      obtain ⟨mem', hmem', hrefines⟩ := h.initHead hallowed.1 hallowed.2
      exact ⟨mem', by simp [CllMem.exec, hmem', CllLists.exec], hrefines⟩
  | addTail head elem =>
      obtain ⟨hhead, helem, hne, hfree⟩ := hallowed
      obtain ⟨l, hl⟩ := Option.ne_none_iff_exists'.mp hhead
      obtain ⟨mem', hmem', hrefines⟩ := h.addTail hl helem hne hfree
      refine ⟨mem', by simp [CllMem.exec, hmem', CllLists.exec], ?_⟩
      rw [CllLists.exec, hl]
      apply hrefines
  | popHead head =>
      obtain ⟨l, hl⟩ := Option.ne_none_iff_exists'.mp hallowed
      obtain ⟨mem', hmem', hrefines⟩ := h.popHead hl
      refine ⟨mem', by simp [CllMem.exec, hmem', CllLists.exec, hl], ?_⟩
      rw [CllLists.exec, hl]
      apply hrefines
  | delete head e =>
      obtain ⟨l, hl, he⟩ := hallowed
      obtain ⟨l₁, l₂, rfl⟩ := List.append_of_mem he
      obtain ⟨mem', hmem', hrefines⟩ := h.delete hl
      have hnodup := (h.holds head _ hl).nodup
      have he₁ : e ∉ l₁ := by
        intro hmem
        have hl₁ := (List.nodup_append.mp (List.nodup_cons.mp hnodup).2).2.2
        apply hl₁ e hmem e List.mem_cons_self rfl
      have herase : (l₁ ++ e :: l₂).erase e = l₁ ++ l₂ := by
        rw [List.erase_append_right _ he₁, List.erase_cons_head]
      refine ⟨mem', by simp [CllMem.exec, hmem', CllLists.exec], ?_⟩
      rw [CllLists.exec, hl, Option.map_some, herase]
      apply hrefines

/-- Calls made as they may do to the memory what they do to the sequences. -/
theorem Refines.execAll {mem : CllMem} {lists : CllLists} (h : mem.Refines lists)
    {calls : List CllCall} (hallowed : lists.AllAllowed calls) :
  ∃ mem', mem.execAll calls = some (mem', (lists.execAll calls).2) ∧
    mem'.Refines (lists.execAll calls).1
  := by
  induction calls generalizing mem lists with
  | nil => exact ⟨mem, rfl, h⟩
  | cons call calls ih =>
      obtain ⟨mem₁, hmem₁, hrefines₁⟩ := h.exec hallowed.1
      obtain ⟨mem₂, hmem₂, hrefines₂⟩ := ih hrefines₁ hallowed.2
      refine ⟨mem₂, ?_, hrefines₂⟩
      simp [CllMem.execAll, hmem₁, hmem₂, CllLists.execAll]

/-- The memory stands for the sequence `l` of `head`: the links in both directions lead through its
elements, in opposite orders, and back to the head; `cll_foreach` goes through them in order and
ends; `cll_no_entry` tells whether there is none. -/
structure StandsFor (mem : CllMem) (head : ℕ) (l : List ℕ) : Prop where
  forward : (head :: (l ++ [head])).IsChain (fun a b => (mem a).next = b)
  backward : (head :: (l.reverse ++ [head])).IsChain (fun a b => (mem a).prev = b)
  nodup : (head :: l).Nodup
  foreach : ∀ {σ : Type} (body : σ → ℕ → σ) (fuel : ℕ) (s : σ), l.length < fuel →
    mem.cllForeach body head fuel s = some (l.foldl body s)
  noEntry : mem.cllNoEntry head = true ↔ l = []

theorem Holds.standsFor {mem : CllMem} {head : ℕ} {l : List ℕ} (h : mem.Holds head l) :
  mem.StandsFor head l
  where
  forward := h.segment.forward
  backward := h.segment.backward
  nodup := h.nodup
  foreach body _ s hfuel := h.cllForeach body hfuel s
  noEntry := h.cllNoEntry

/-- After any sequence of calls made as they may, from any contents of the memory, no null pointer
has been followed, the calls have returned what they do for the sequences, and the memory stands
for the sequence of every head. -/
theorem refines_sequences (mem : CllMem) (calls : List CllCall)
    (hallowed : CllLists.empty.AllAllowed calls) :
  ∃ mem', mem.execAll calls = some (mem', (CllLists.empty.execAll calls).2) ∧
    ∀ head l, (CllLists.empty.execAll calls).1 head = some l → mem'.StandsFor head l
  := by
  obtain ⟨mem', hmem', hrefines⟩ := mem.refines_empty.execAll hallowed
  exact ⟨mem', hmem', fun head l hl => (hrefines.holds head l hl).standsFor⟩

/-- Append two elements to a list, delete the first one, and pop twice. -/
def appendTwo : List CllCall :=
  [.initHead 1, .addTail 1 2, .addTail 1 3, .delete 1 2, .popHead 1, .popHead 1]

theorem appendTwo_allAllowed :
  CllLists.empty.AllAllowed appendTwo
  := by
  have hfree : ∀ (lists : CllLists) l p, (∀ head, head ≠ 1 → lists head = none) →
      lists 1 = some l → p ∉ l → lists.Free p := by
    intro lists l p hnone hone hp head l' hl'
    by_cases hhead : head = 1
    · rw [hhead, hone] at hl'
      rw [← Option.some.inj hl']
      apply hp
    · rw [hnone head hhead] at hl'
      contradiction
  refine ⟨⟨by decide, fun _ _ h => by contradiction⟩, ⟨by decide, by decide, by decide, ?_⟩,
    ⟨by decide, by decide, by decide, ?_⟩, ⟨[2, 3], rfl, by decide⟩,
    Option.some_ne_none _, Option.some_ne_none _, trivial⟩
  · apply hfree _ [] 2 _ rfl (by decide)
    intro head hhead
    simp [CllLists.exec, CllLists.empty, hhead]
  · apply hfree _ [2] 3 _ rfl (by decide)
    intro head hhead
    simp [CllLists.exec, CllLists.empty, Function.update_apply, hhead]

theorem refines_sequences_two :
  ∃ mem', execAll (fun _ => ⟨0, 0⟩) appendTwo =
      some (mem', [.int 0, .int 1, .int 1, .int 1, .elem 3, .elem 0]) ∧
    mem'.StandsFor 1 []
  := by
  obtain ⟨mem', hmem', hstands⟩ := refines_sequences (fun _ => ⟨0, 0⟩) appendTwo
    appendTwo_allAllowed
  exact ⟨mem', hmem', hstands 1 [] rfl⟩

end CllMem
