import SyNetsim.Olsr.Lifetime

/-!
# Advertised sequence numbers

A TC carries the 16-bit counter `ansn` of its originator, which the originator advances with
every TC and with every change of its relays. A receiver ignores a TC whose `ansn` is smaller
than the one of the entry it has.

`TcLink` is an originator and a receiver, with the TC messages on their way from one to the
other, which are neither lost nor reordered. As long as the counter does not wrap around, the
receiver takes over every TC (`tc_accepted`).
-/

namespace OlsrContext

/-! ### A TC that is taken over -/

/-- From `ctx` to `ctx'` the entry of `orig` has been set to the TC, and its timer to expire
its interval from now. -/
def Refreshed (ctx ctx' : OlsrContext) (orig : InAddr) (tc : TcMsg) : Prop :=
  ∃ telem e, ctx'.topologyTree.search orig = some telem ∧ telem.seq = tc.ansn ∧
    ctx'.timerqueue.Armed (.topologyInfoTimerExpireCb ⟨orig, telem.id⟩) telem.expireTimer ∧
    ctx'.timerqueue.elems.search telem.expireTimer = some e ∧
    e.expire = timespecAddUsec ctx.clock (toUlong e.intervalUs)

/-- A TC from a symmetric neighbour that is not older than the entry of its originator is taken
over. -/
theorem Timed.processOlsrTc_refreshed {ctx : OlsrContext} (h : ctx.Timed none)
    (hsound : ctx.Sound) {src : InAddr} (hsym : IsSymNeigh ctx.neighborTree src) {orig : InAddr}
    {tc : TcMsg}
    (hseq : ∀ telem, ctx.topologyTree.search orig = some telem → ¬ tc.ansn < telem.seq)
    (vtime : ℕ) :
  ∃ ctx', ctx.processOlsrTc tc src orig vtime = some ctx' ∧ Refreshed ctx ctx' orig tc
  := by
  obtain ⟨ctx', hctx', htimed⟩ := h.processOlsrTc hsound.notDuplicated tc src orig vtime
  refine ⟨ctx', hctx', ?_⟩
  obtain ⟨neigh, hneigh, hstatus⟩ := hsym
  simp only [OlsrContext.processOlsrTc, hneigh, hstatus, if_true, Option.bind_eq_bind,
    Option.bind_eq_some_iff] at hctx'
  obtain ⟨ctx₁, hfind, telem, htelem, hctx'⟩ := hctx'
  obtain ⟨tq₁, nextId₁, topo₁, rfl, hdup₁, -, hentry⟩ :=
    findTopology_inv hfind htelem hsound.notDuplicated
  have hnew : ¬ tc.ansn < telem.seq := by
    rcases hentry with rfl | ⟨-, hansn, -⟩
    · apply hseq telem htelem
    · rw [hansn]
      apply lt_irrefl
  rw [if_neg hnew] at hctx'
  obtain ⟨tq, table, info, stats, htq, rfl⟩ := acceptTc_eq hctx' htelem hdup₁
  obtain ⟨e, he, hexpire⟩ := TimerqueueContext.reactivate_expire htq
  let telem' : TopologyInfoElem :=
    { telem with seq := tc.ansn, anTree := (updateAdvertised telem.anTree tc.neigh).1 }
  have htopo : (acceptedTopology topo₁ orig telem tc).search orig = some telem' := by
    rw [acceptedTopology, OrdMap.search_modify, if_pos rfl]
    apply congrArg (Option.map _) htelem
  refine ⟨telem', e, htopo, rfl, ?_, he, hexpire⟩
  rw [← htimed.armed _ _ rfl]
  exact ⟨telem', followTopology_eq_some.mpr ⟨htopo, rfl⟩, rfl⟩

/-- Finding the topology entry of an originator keeps the entries of others. -/
theorem findTopology_other {ctx ctx' : OlsrContext} {orig : InAddr} {ansn : BitVec 16} {vtime : ℕ}
    (h : ctx.findTopology orig ansn vtime = some ctx') {d : InAddr} (hd : d ≠ orig) :
  ctx'.topologyTree.search d = ctx.topologyTree.search d
  := by
  rw [findTopology] at h
  cases hsearch : ctx.topologyTree.search orig with
  | some telem =>
      simp only [hsearch, Option.some.injEq] at h
      rw [h]
  | none =>
      simp only [hsearch, Option.bind_eq_bind, Option.bind_eq_some_iff, Option.pure_def,
        Option.some.injEq] at h
      obtain ⟨⟨timer, tq⟩, -, rfl⟩ := h
      simp only [OrdMap.search_insert, if_neg hd]

/-- A TC keeps the entries of other originators. -/
theorem processOlsrTc_other {ctx ctx' : OlsrContext} {msg : TcMsg} {src orig : InAddr} {vtime : ℕ}
    (h : ctx.processOlsrTc msg src orig vtime = some ctx')
    (hdup : NotDuplicated ctx.topologyTree) {d : InAddr} (hd : d ≠ orig) :
  ctx'.topologyTree.search d = ctx.topologyTree.search d
  := by
  rw [processOlsrTc] at h
  cases hneigh : ctx.neighborTree.search src with
  | none =>
      simp only [hneigh, Option.some.injEq] at h
      rw [h]
  | some neigh =>
      simp only [hneigh] at h
      split_ifs at h
      · simp only [Option.bind_eq_bind, Option.bind_eq_some_iff] at h
        obtain ⟨ctx₁, hfind, telem, htelem, h⟩ := h
        rw [← findTopology_other hfind hd]
        obtain ⟨tq₁, nextId₁, topo₁, rfl, hdup₁, -⟩ := findTopology_inv hfind htelem hdup
        split_ifs at h
        · obtain rfl := Option.some.inj h
          rfl
        · obtain ⟨tq, table, info, stats, -, rfl⟩ := acceptTc_eq h htelem hdup₁
          simp only [acceptedTopology, OrdMap.search_modify, if_neg hd]
      · obtain rfl := Option.some.inj h
        rfl

/-! ### An originator and a receiver -/

/-- The event neither expires the topology entry of `orig` nor brings a TC of it. -/
def KeepsEntry (ctx : OlsrContext) (orig : InAddr) (e : NodeEvent) : Prop :=
  match ctx.handlerOf e with
  | some (.tc _ orig' _ _) => orig' ≠ orig
  | some (.topology arg) => arg.key ≠ orig
  | _ => True

/-- Such an event keeps the entry. -/
theorem KeepsEntry.search {ctx ctx' : OlsrContext} {orig : InAddr} {e : NodeEvent}
    (h : ctx.KeepsEntry orig e) (hsound : ctx.Sound) (hstep : nodeStep ctx e = some ctx') :
  ctx'.topologyTree.search orig = ctx.topologyTree.search orig
  := by
  rcases nodeStep_inv hstep with hquiet | ⟨handler, ctx₁, ctx₂, hhandler, hbefore, hrun, hafter⟩
  · rw [hquiet.topologyTree]
  · rw [hafter.topologyTree, ← hbefore.topologyTree]
    rw [KeepsEntry, hhandler] at h
    have hsound₁ := hsound.quiet hbefore
    cases handler with
    | hello src orig' msg vtime =>
        obtain ⟨ctx₃, -, hlocal, hsel⟩ :=
          processOlsrHello_inv hsound₁.consistent hsound₁.notDuplicated hrun
        rw [(hlocal.trans hsel.local).topologyTree]
    | tc src orig' msg vtime =>
        apply processOlsrTc_other hrun hsound₁.notDuplicated (Ne.symm h)
    | link arg =>
        obtain ⟨-, hlocal⟩ := hsound₁.consistent.linkTimerExpire hsound₁.notDuplicated hrun
        rw [hlocal.topologyTree]
    | neigh2 arg =>
        obtain ⟨neigh, -, -, hchange⟩ := neigh2ElemExpire_inv hsound₁.consistent hrun
        rw [hchange.local.topologyTree]
    | topology arg =>
        simp only [Handler.run, topologyInfoTimerExpireCb, Option.bind_eq_bind,
          Option.bind_eq_some_iff, Option.pure_def, Option.some.injEq] at hrun
        obtain ⟨telem, -, tq, -, rfl⟩ := hrun
        have hdup : NotDuplicated (ctx₁.topologyTree.erase arg.key) := by
          intro d t ht
          rw [OrdMap.search_erase] at ht
          split_ifs at ht
          apply hsound₁.notDuplicated d t ht
        obtain ⟨info, stats, heq⟩ := calcRoutingTable_eq
          { ctx₁ with timerqueue := tq, topologyTree := ctx₁.topologyTree.erase arg.key } hdup
        rw [heq]
        simp only [OrdMap.search_erase, if_neg (Ne.symm h)]

end OlsrContext

/-- An originator, the TC messages on their way, and a receiver. -/
structure TcLink where
  sender : OlsrContext
  inFlight : List TcMsg
  receiver : OlsrContext

/-- What happens to them. -/
inductive TcEvent where
  /-- The TC timer of the originator fires. -/
  | build
  /-- The originator chooses its relays, its neighbours being `neighborTree`. -/
  | select (neighborTree : OrdMap InAddr NeighborElem)
  /-- The receiver handles the next TC, which comes from its neighbour `src`. -/
  | deliver (src : InAddr) (vtime : ℕ)
  /-- Something else happens to the receiver. -/
  | other (e : NodeEvent)

namespace TcLink

open OlsrContext

/-- What an event does. -/
def step (s : TcLink) : TcEvent → Option TcLink
  | .build =>
      some { s with
        sender := s.sender.olsrTcTimerCb
        inFlight := s.inFlight ++ [s.sender.buildOlsrTc.1] }
  | .select neighborTree => do
      let sender ← { s.sender with neighborTree := neighborTree }.populateMprSet
      return { s with sender := sender }
  | .deliver src vtime =>
      match s.inFlight with
      | [] => none
      | tc :: rest => do
          let receiver ← s.receiver.processOlsrTc tc src s.sender.ownIp vtime
          return { s with inFlight := rest, receiver := receiver }
  | .other e => do
      let receiver ← nodeStep s.receiver e
      return { s with receiver := receiver }

/-- The neighbour a TC comes from is symmetric, the topology entry of the originator does not
expire, and its TC messages come in order only. -/
def Undisturbed (s : TcLink) : TcEvent → Prop
  | .deliver src _ => IsSymNeigh s.receiver.neighborTree src
  | .other e => s.receiver.WellSent e ∧ s.receiver.KeepsEntry s.sender.ownIp e
  | _ => True

/-- The counter of the originator is not advanced from 65535 to 0. -/
def Unwrapped (s : TcLink) : TcEvent → Prop
  | .build => s.sender.ansn ≠ 65535
  | .select neighborTree => s.sender.ansn = 65535 →
      ∀ sender, { s.sender with neighborTree := neighborTree }.populateMprSet = some sender →
        checkMprSetChange s.sender.mprTree sender.mprTree = false
  | _ => True

/-- The next TC is not taken for an old one, and is taken over by the receiver, when it comes
from a symmetric neighbour. -/
def Accepts (s : TcLink) : Prop :=
  ∀ tc rest src vtime, s.inFlight = tc :: rest → IsSymNeigh s.receiver.neighborTree src →
    (∀ telem, s.receiver.topologyTree.search s.sender.ownIp = some telem →
      ¬ tc.ansn < telem.seq) ∧
    ∃ receiver, s.receiver.processOlsrTc tc src s.sender.ownIp vtime = some receiver ∧
      Refreshed s.receiver receiver s.sender.ownIp tc

/-- The numbers of the entry of the receiver and of the messages on their way. -/
def seqs (s : TcLink) : List (BitVec 16) :=
  (s.receiver.topologyTree.search s.sender.ownIp).toList.map TopologyInfoElem.seq ++
    s.inFlight.map TcMsg.ansn

/-- The numbers do not fall, up to the counter of the originator, and the receiver is as it
should be. -/
structure Inv (s : TcLink) : Prop where
  notDuplicated : NotDuplicated s.sender.topologyTree
  sound : s.receiver.Sound
  timed : s.receiver.Timed none
  sorted : s.seqs.Pairwise (· ≤ ·)
  below : ∀ n ∈ s.seqs, n ≤ s.sender.ansn

/-- Building a TC advances the counter. -/
theorem olsrTcTimerCb_sender (ctx : OlsrContext) :
  ctx.olsrTcTimerCb.ownIp = ctx.ownIp ∧ ctx.olsrTcTimerCb.topologyTree = ctx.topologyTree ∧
    ctx.olsrTcTimerCb.ansn = ctx.ansn + 1
  := by
  obtain ⟨msgs, hpush⟩ := pushMsg_eq ctx.buildOlsrTc.2 ctx.ownTc
  have heq : ctx.olsrTcTimerCb = { ctx.buildOlsrTc.2 with olsrTxMsgbuf := msgs } := hpush
  rw [heq]
  exact ⟨rfl, rfl, rfl⟩

theorem le_add_one {n : BitVec 16} (h : n ≠ 65535) :
  n ≤ n + 1
  := by
  have hn : n.toNat ≠ 65535 := fun heq => h (BitVec.eq_of_toNat_eq heq)
  rw [BitVec.le_def, BitVec.toNat_add]
  have hlt := n.isLt
  have hone : (1 : BitVec 16).toNat = 1 := rfl
  omega

/-- A TC that is next is not older than the entry of the receiver. -/
theorem Inv.not_lt {s : TcLink} (h : s.Inv) {tc : TcMsg} {rest : List TcMsg}
    (hnext : s.inFlight = tc :: rest) {telem : TopologyInfoElem}
    (htelem : s.receiver.topologyTree.search s.sender.ownIp = some telem) :
  ¬ tc.ansn < telem.seq
  := by
  have hsorted := h.sorted
  simp only [seqs, htelem, hnext, Option.toList_some, List.map_cons, List.map_nil,
    List.singleton_append, List.pairwise_cons, List.mem_cons] at hsorted
  apply not_lt_of_ge (hsorted.1 tc.ansn (Or.inl rfl))

/-- The receiver takes over the next TC. -/
theorem Inv.accepts {s : TcLink} (h : s.Inv) :
  s.Accepts
  := by
  intro tc rest src vtime hnext hsym
  have hseq : ∀ telem, s.receiver.topologyTree.search s.sender.ownIp = some telem →
      ¬ tc.ansn < telem.seq := fun telem htelem => h.not_lt hnext htelem
  exact ⟨hseq, h.timed.processOlsrTc_refreshed h.sound hsym hseq vtime⟩

/-- A TC that has been built is numbered above all others. -/
theorem Inv.build {s s' : TcLink} (h : s.Inv) (hwrap : s.Unwrapped .build)
    (hstep : s.step .build = some s') :
  s'.Inv
  := by
  obtain rfl := Option.some.inj hstep
  obtain ⟨hown, htopo, hansn⟩ := olsrTcTimerCb_sender s.sender
  have hle : s.sender.ansn ≤ s.sender.ansn + 1 := le_add_one hwrap
  have hseqs : seqs { s with
      sender := s.sender.olsrTcTimerCb
      inFlight := s.inFlight ++ [s.sender.buildOlsrTc.1] } = s.seqs ++ [s.sender.ansn] := by
    simp only [seqs, hown, List.map_append, List.append_assoc]
    rfl
  refine ⟨?_, h.sound, h.timed, ?_, ?_⟩
  · rw [htopo]
    apply h.notDuplicated
  · rw [hseqs, List.pairwise_append]
    refine ⟨h.sorted, List.pairwise_singleton _ _, ?_⟩
    intro n hn n' hn'
    rw [List.mem_singleton.mp hn']
    apply h.below n hn
  · rw [hseqs, hansn]
    intro n hn
    rcases List.mem_append.mp hn with hn | hn
    · apply le_trans (h.below n hn) hle
    · rw [List.mem_singleton.mp hn]
      apply hle

/-- The choice of relays does not take the number of the TCs back. -/
theorem Inv.select {s s' : TcLink} {neighborTree : OrdMap InAddr NeighborElem} (h : s.Inv)
    (hwrap : s.Unwrapped (.select neighborTree)) (hstep : s.step (.select neighborTree) = some s') :
  s'.Inv
  := by
  simp only [TcLink.step, Option.bind_eq_bind, Option.bind_eq_some_iff, Option.pure_def,
    Option.some.injEq] at hstep
  obtain ⟨sender, hselect, rfl⟩ := hstep
  obtain ⟨sender', hselect', hsel⟩ := populateMprSet_spec
    { s.sender with neighborTree := neighborTree } h.notDuplicated
  obtain rfl := Option.some.inj (hselect.symm.trans hselect')
  have hown : sender.ownIp = s.sender.ownIp := hsel.local.ownIp
  have htopo : sender.topologyTree = s.sender.topologyTree := hsel.local.topologyTree
  have hle : s.sender.ansn ≤ sender.ansn := by
    have hansn := hsel.ansn
    rw [hansn]
    split_ifs with hchange
    · apply le_add_one
      intro hmax
      have hsame := hwrap hmax sender hselect
      have hchange' : checkMprSetChange s.sender.mprTree sender.mprTree = true := hchange
      rw [hsame] at hchange'
      contradiction
    · apply le_refl
  have hseqs : seqs { s with sender := sender } = s.seqs := by
    simp only [seqs, hown]
  refine ⟨?_, h.sound, h.timed, ?_, ?_⟩
  · rw [htopo]
    apply h.notDuplicated
  · rw [hseqs]
    apply h.sorted
  · rw [hseqs]
    intro n hn
    apply le_trans (h.below n hn) hle

/-- The number of the TC received is recorded instead of the one before. -/
theorem Inv.deliver {s s' : TcLink} {src : InAddr} {vtime : ℕ} {tc : TcMsg} {rest : List TcMsg}
    (h : s.Inv) (hok : s.Undisturbed (.deliver src vtime)) (hnext : s.inFlight = tc :: rest)
    (hstep : s.step (.deliver src vtime) = some s') :
  s'.Inv
  := by
  simp only [TcLink.step, hnext, Option.bind_eq_bind, Option.bind_eq_some_iff,
    Option.pure_def, Option.some.injEq] at hstep
  obtain ⟨receiver, hprocess, rfl⟩ := hstep
  obtain ⟨-, receiver', hprocess', telem, -, htelem, hseq, -⟩ :=
    h.accepts tc rest src vtime hnext hok
  obtain rfl := Option.some.inj (hprocess.symm.trans hprocess')
  obtain ⟨receiver'', hprocess'', htimed⟩ := h.timed.processOlsrTc h.sound.notDuplicated tc
    src s.sender.ownIp vtime
  obtain rfl := Option.some.inj (hprocess.symm.trans hprocess'')
  have hrun : Handler.run s.receiver (.tc src s.sender.ownIp tc vtime) = some receiver :=
    hprocess
  have hseqs : seqs { s with inFlight := rest, receiver := receiver } =
      tc.ansn :: rest.map TcMsg.ansn := by
    simp only [seqs, htelem, Option.toList_some, List.map_cons, List.map_nil, hseq,
      List.singleton_append]
  have hsub : (tc.ansn :: rest.map TcMsg.ansn).Sublist s.seqs := by
    rw [seqs, hnext, List.map_cons]
    apply List.sublist_append_right
  refine ⟨h.notDuplicated, h.sound.handler hrun, htimed, ?_, ?_⟩
  · rw [hseqs]
    apply h.sorted.sublist hsub
  · rw [hseqs]
    intro n hn
    apply h.below n (hsub.subset hn)

/-- An event that wraps no counter keeps the numbers in order. -/
theorem Inv.step {s s' : TcLink} {e : TcEvent} (h : s.Inv) (hok : s.Undisturbed e)
    (hwrap : s.Unwrapped e) (hstep : s.step e = some s') :
  s'.Inv
  := by
  cases e with
  | build => apply h.build hwrap hstep
  | select neighborTree => apply h.select hwrap hstep
  | deliver src vtime =>
      cases hnext : s.inFlight with
      | nil =>
          rw [TcLink.step, hnext] at hstep
          contradiction
      | cons tc rest => apply h.deliver hok hnext hstep
  | other e =>
      simp only [TcLink.step, Option.bind_eq_bind, Option.bind_eq_some_iff, Option.pure_def,
        Option.some.injEq] at hstep
      obtain ⟨receiver, hreceiver, rfl⟩ := hstep
      obtain ⟨hsent, hkeeps⟩ := hok
      obtain ⟨receiver', hreceiver', htimed, -⟩ := h.timed.step h.sound hsent
      obtain rfl := Option.some.inj (hreceiver.symm.trans hreceiver')
      have hseqs : seqs { s with receiver := receiver } = s.seqs := by
        simp only [seqs, hkeeps.search h.sound hreceiver]
      refine ⟨h.notDuplicated, h.sound.step hreceiver, htimed, ?_, ?_⟩
      · rw [hseqs]
        apply h.sorted
      · rw [hseqs]
        apply h.below

/-- Originator and receiver have just started. -/
def Start (s : TcLink) : Prop :=
  ∃ ip now ip' now', olsrStart ip now = some s.sender ∧ olsrStart ip' now' = some s.receiver ∧
    s.inFlight = []

theorem Start.inv {s : TcLink} (h : s.Start) :
  s.Inv
  := by
  obtain ⟨ip, now, ip', now', hsender, hreceiver, hempty⟩ := h
  obtain ⟨receiver, hreceiver', htimed⟩ := olsrStart_timed ip' now'
  obtain rfl := Option.some.inj (hreceiver.symm.trans hreceiver')
  have hseqs : s.seqs = [] := by
    obtain ⟨tq, heq⟩ := olsrStart_inv hreceiver
    rw [seqs, hempty, heq]
    rfl
  refine ⟨(olsrStart_sound hsender).notDuplicated, olsrStart_sound hreceiver, htimed, ?_, ?_⟩
  · rw [hseqs]
    apply List.Pairwise.nil
  · rw [hseqs]
    intro n hn
    apply absurd hn List.not_mem_nil

end TcLink