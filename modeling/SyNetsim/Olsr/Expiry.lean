import SyNetsim.Olsr.Changes

/-!
# Expiry timers

Between the steps of a node entries and expiry timers correspond (`Timed`): a timer is armed with
an expiry callback exactly when the entry that is the argument of the callback is in its table and
holds the timer. While a timer is fired, the same holds but for the place of that timer in the
queue.

So an expiry callback finds the entry it is to remove, and no handler follows a pointer to an
entry or a timer that has been freed. Messages that are not foreign keep the correspondence
(`Timed.change`).
-/

namespace OlsrContext

/-- Entries and armed expiry timers correspond. The queue is well formed but for the timer
`hole`; every link has an expiry timer; the elements of MPR selectors are those of the tree. -/
structure Timed (ctx : OlsrContext) (hole : Option ℕ) : Prop where
  wf : ctx.timerqueue.Wf hole
  armed : ∀ c p, c.isExpiry = true → (ctx.Owns c p ↔ ctx.timerqueue.Armed c p)
  expire : ∀ iface addr link, ctx.searchLink iface addr = some link →
    ∃ p, link.expireTimer = some p
  elems : ∀ id selem, ctx.selectorElems.search id = some selem →
    id < ctx.nextId ∧ ctx.selectorTree.search selem.selectorAddr = some id
  tree : ∀ a id, ctx.selectorTree.search a = some id →
    ∃ selem, ctx.selectorElems.search id = some selem ∧ selem.selectorAddr = a

/-- The correspondence is about the queue only as far as expiry timers are armed. -/
theorem Timed.setTq {ctx : OlsrContext} {hole hole' : Option ℕ} (h : ctx.Timed hole)
    {tq : TimerqueueContext Callback} (hwf : tq.Wf hole')
    (harmed : ∀ c p, c.isExpiry = true → (tq.Armed c p ↔ ctx.timerqueue.Armed c p)) :
  OlsrContext.Timed { ctx with timerqueue := tq } hole'
  where
  wf := hwf
  armed c p hc := by
    rw [harmed c p hc, ← h.armed c p hc]
    cases c <;> rfl
  expire := h.expire
  elems := h.elems
  tree := h.tree

/-- An entry that owns a timer is the only one to do so. -/
theorem Timed.owns_unique {ctx : OlsrContext} {hole : Option ℕ} (h : ctx.Timed hole)
    {c d : Callback} (hc : c.isExpiry = true) (hd : d.isExpiry = true) {p : ℕ}
    (hcp : ctx.Owns c p) (hdp : ctx.Owns d p) :
  c = d
  := ((h.armed c p hc).mp hcp).unique ((h.armed d p hd).mp hdp)

/-- The armed timers correspond when one entry is removed and its timers are disarmed. -/
theorem Timed.armed_of_remove {ctx ctx' : OlsrContext} {hole : Option ℕ} (h : ctx.Timed hole)
    {c₀ : Callback} (hc₀ : c₀.isExpiry = true)
    (howns : ∀ c p, ctx'.Owns c p ↔ c ≠ c₀ ∧ ctx.Owns c p)
    (harmed : ∀ c p, ctx'.timerqueue.Armed c p ↔
      ¬ ctx.Owns c₀ p ∧ ctx.timerqueue.Armed c p)
    (c : Callback) (p : ℕ) (hc : c.isExpiry = true) :
  ctx'.Owns c p ↔ ctx'.timerqueue.Armed c p
  := by
  rw [howns, harmed, ← h.armed c p hc]
  constructor
  · rintro ⟨hne, hp⟩
    refine ⟨?_, hp⟩
    intro hp₀
    apply hne (h.owns_unique hc hc₀ hp hp₀)
  · rintro ⟨hp₀, hp⟩
    refine ⟨?_, hp⟩
    rintro rfl
    apply hp₀ hp

/-- The timers of a link in the table are armed. -/
theorem Timed.hasTimer {ctx : OlsrContext} {hole : Option ℕ} (h : ctx.Timed hole)
    {iface addr : InAddr} {link : LinkElem} (hlink : ctx.searchLink iface addr = some link) {p : ℕ}
    (hp : link.HasTimer p) :
  ctx.timerqueue.Armed (.linkTimerExpire ⟨(iface, addr), link.id⟩) p
  := by
  rw [← h.armed _ p rfl]
  apply owns_link hlink hp

/-- Handlers can rely on entries and timers that correspond. -/
theorem Timed.backed {ctx : OlsrContext} (h : ctx.Timed none) :
  ctx.Backed
  where
  wf := h.wf
  has c p hp := by
    have hc : c.isExpiry = true := by
      cases c <;> first | rfl | contradiction
    apply ((h.armed c p hc).mp hp).has
  expire := h.expire
  elems id hid := by
    obtain ⟨selem, hselem⟩ := OrdMap.mem_iff.mp hid
    apply (h.elems id selem hselem).1
  tree := h.tree

/-! ### Changes -/

/-- The correspondence is kept when entries and timers do not change. -/
theorem Timed.same {ctx ctx' : OlsrContext} {hole : Option ℕ} (h : ctx.Timed hole)
    (hsame : SameEntries ctx ctx') :
  ctx'.Timed hole
  where
  wf := by
    rw [hsame.timerqueue]
    apply h.wf
  armed c p hc := by
    rw [hsame.timerqueue, hsame.owns]
    apply h.armed c p hc
  expire i a link hlink := by
    rw [hsame.searchLink] at hlink
    apply h.expire i a link hlink
  elems := by
    rw [hsame.selectorElems, hsame.selectorTree, hsame.nextId]
    apply h.elems
  tree := by
    rw [hsame.selectorElems, hsame.selectorTree]
    apply h.tree

/-- The correspondence is kept when a timer is started for the entry it belongs to. -/
theorem Timed.starts {ctx ctx' : OlsrContext} (h : ctx.Timed none) {c₀ : Callback} {p₀ : ℕ}
    (hs : Starts c₀ p₀ ctx ctx')
    (hexpire : ∀ i a link, ctx'.searchLink i a = some link → ∃ p, link.expireTimer = some p)
    (helems : ctx'.selectorElems = ctx.selectorElems)
    (htree : ctx'.selectorTree = ctx.selectorTree) :
  ctx'.Timed none
  where
  wf := hs.wf
  armed c p hc := by rw [hs.owns, hs.armed, h.armed c p hc]
  expire := hexpire
  elems id selem hid := by
    rw [helems] at hid
    rw [htree]
    obtain ⟨hlt, hsearch⟩ := h.elems id selem hid
    exact ⟨lt_of_lt_of_le hlt hs.nextId, hsearch⟩
  tree := by
    rw [helems, htree]
    apply h.tree

/-- The correspondence is kept when a new element for an MPR selector is entered under an address
that has none. -/
theorem Timed.enterSelector {ctx ctx' : OlsrContext} (h : ctx.Timed none) {orig : InAddr} {p : ℕ}
    (hsearch : ctx.selectorTree.search orig = none)
    (hs : Starts (.mprSelectorExpire ctx.nextId) p ctx ctx')
    (hlink : ∀ i a, ctx'.searchLink i a = ctx.searchLink i a)
    (helems : ctx'.selectorElems = ctx.selectorElems.insert ctx.nextId ⟨orig, p⟩)
    (htree : ctx'.selectorTree = ctx.selectorTree.insert orig ctx.nextId)
    (hnext : ctx'.nextId = ctx.nextId + 1) (hbacked : ctx'.Backed) :
  ctx'.Timed none
  where
  wf := hs.wf
  armed c q hc := by rw [hs.owns, hs.armed, h.armed c q hc]
  expire i a link hl := by
    rw [hlink] at hl
    apply h.expire i a link hl
  elems id selem hid := by
    have hfresh : ctx.selectorElems.search ctx.nextId = none := by
      cases hold : ctx.selectorElems.search ctx.nextId with
      | none => rfl
      | some old => apply absurd (h.elems _ old hold).1 (lt_irrefl _)
    rw [helems, OrdMap.search_insert, hfresh, Option.getD_none] at hid
    rw [htree, OrdMap.search_insert, hsearch, Option.getD_none, hnext]
    split_ifs at hid with heq
    · rw [← Option.some.inj hid, heq]
      exact ⟨Nat.lt_succ_self _, if_pos rfl⟩
    · obtain ⟨hlt, htree'⟩ := h.elems id selem hid
      refine ⟨Nat.lt_succ_of_lt hlt, ?_⟩
      rw [if_neg]
      · apply htree'
      · intro ha
        rw [ha, hsearch] at htree'
        contradiction
  tree := hbacked.tree

/-- Changes made for messages that are not foreign keep the correspondence. -/
theorem Timed.change {ctx ctx' : OlsrContext} (h : ctx.Timed none)
    (hchange : Change False ctx ctx') :
  ctx'.Timed none
  := by
  have hbacked := h.backed.change hchange
  cases hchange with
  | same hsame => apply h.same hsame
  | start _ hs haside =>
      apply h.starts hs hbacked.expire haside.selectorElems haside.selectorTree
  | newLink _ _ hs hwrites =>
      apply h.starts hs hbacked.expire hwrites.selectorElems hwrites.selectorTree
  | setTimer _ _ hs hwrites =>
      apply h.starts hs hbacked.expire hwrites.selectorElems hwrites.selectorTree
  | stopSym hforeign => contradiction
  | selector hforeign hs hlink helems htree hnext =>
      rcases hforeign with hforeign | hsearch
      · contradiction
      · apply h.enterSelector hsearch hs hlink helems htree hnext hbacked

theorem Timed.changes {ctx ctx' : OlsrContext} (h : ctx.Timed none)
    (hchanges : Changes False ctx ctx') :
  ctx'.Timed none
  := by
  induction hchanges with
  | refl => apply h
  | tail _ hchange ih => apply ih.change hchange

end OlsrContext
