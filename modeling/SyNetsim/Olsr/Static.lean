import SyNetsim.Lib.Graph
import SyNetsim.Lib.Progress
import SyNetsim.Olsr.Retain

/-!
# Networks that do not change

A network over a fixed graph, in which messages arrive over the edges only and nothing expires
(`HelloNet.Static`). Nodes only get to know more there, and nothing but the edges of the graph
(`HelloNet.Stable`).

The TCs of a node list more and more addresses: one with a greater sequence number lists all that
the older ones list. An entry of a topology holds at least what one of these TCs lists
(`HelloNet.TcHistory`), so it is enough to know that the entry is as new as some TC.
-/

/-- What a TC lists is advertised when it has been taken over. -/
theorem listed_updateAdvertised {anTree : OrdMap InAddr AdvertisedNeighElem} {neigh : List InAddr}
    {a : InAddr} (ha : a ∈ neigh) :
  a ∈ (updateAdvertised anTree neigh).1
  := by
  have hmem : a ∈ (neigh.foldl advertise (markObsolete anTree, false)).1 :=
    mem_foldl_advertise.mpr (Or.inr ha)
  obtain ⟨aelem, haelem⟩ := OrdMap.mem_iff.mp hmem
  rw [OrdMap.mem_iff, updateAdvertised_fst, search_removeObsolute, if_neg]
  · exact ⟨aelem, haelem⟩
  · intro htake
    obtain ⟨aelem', haelem', hobsolete⟩ := mem_obsolutes.mp (List.mem_of_mem_take htake)
    apply (foldl_advertise_obsolete haelem').mp hobsolete ha

namespace OlsrContext

variable {ctx ctx' : OlsrContext} {src orig : InAddr} {vtime : ℕ}

/-- A TC from a symmetric neighbour leaves an entry of its originator that is at least as new: one
that holds what the TC lists, or the newer one that has been there before. -/
structure TakesTc (ctx ctx' : OlsrContext) (orig : InAddr) (tc : TcMsg) : Prop where
  others : ∀ d, d ≠ orig → ctx'.topologyTree.search d = ctx.topologyTree.search d
  entry : ∃ telem, ctx'.topologyTree.search orig = some telem ∧
    (telem.seq = tc.ansn ∧ (∀ a ∈ tc.neigh, a ∈ telem.anTree) ∨
      ctx.topologyTree.search orig = some telem ∧ tc.ansn < telem.seq) ∧
    ∀ old, ctx.topologyTree.search orig = some old → old.seq ≤ telem.seq

theorem processOlsrTc_takes {tc : TcMsg} (hdup : NotDuplicated ctx.topologyTree)
    (hsym : IsSymNeigh ctx.neighborTree src)
    (hstep : ctx.processOlsrTc tc src orig vtime = some ctx') :
  TakesTc ctx ctx' orig tc
  := by
  obtain ⟨neigh, hneigh, hstatus⟩ := hsym
  simp only [processOlsrTc, hneigh, hstatus, if_true, Option.bind_eq_bind,
    Option.bind_eq_some_iff] at hstep
  obtain ⟨ctx₁, hfind, telem, htelem, hstep⟩ := hstep
  obtain ⟨tq₁, nextId₁, topo₁, rfl, hdup₁, -, -⟩ := findTopology_inv hfind htelem hdup
  obtain ⟨hothers, -, hentry⟩ := findTopology_search hfind htelem
  -- An entry that has been there before is the one that is found.
  have hfound : ∀ old, ctx.topologyTree.search orig = some old → old = telem := by
    intro old hold
    rcases hentry with hfound | ⟨hnone, -⟩
    · apply Option.some.inj (hold.symm.trans hfound)
    · rw [hnone] at hold
      contradiction
  split_ifs at hstep with hold
  · obtain rfl := Option.some.inj hstep
    refine ⟨hothers, telem, htelem, Or.inr ⟨?_, hold⟩,
      fun old hsearch => (hfound old hsearch ▸ le_rfl)⟩
    rcases hentry with hfound | ⟨-, hnew⟩
    · apply hfound
    · rw [hnew] at hold
      apply absurd hold (lt_irrefl _)
  · obtain ⟨htopology, -⟩ := acceptTc_topology hstep htelem hdup₁
    constructor
    · intro d hd
      rw [htopology, acceptedTopology, OrdMap.search_modify, if_neg hd]
      apply hothers d hd
    · refine ⟨{ telem with
        seq := tc.ansn, anTree := (updateAdvertised telem.anTree tc.neigh).1 }, ?_, ?_, ?_⟩
      · rw [htopology, acceptedTopology, OrdMap.search_modify, if_pos rfl, htelem]
        rfl
      · left
        refine ⟨rfl, ?_⟩
        intro a ha
        apply listed_updateAdvertised ha
      · intro old hsearch
        rw [hfound old hsearch]
        apply not_lt.mp hold

/-- A TC from another node is ignored. -/
theorem processOlsrTc_ignores {tc : TcMsg} (hsym : ¬ IsSymNeigh ctx.neighborTree src)
    (hstep : ctx.processOlsrTc tc src orig vtime = some ctx') :
  ctx' = ctx
  := by
  rw [processOlsrTc] at hstep
  cases hneigh : ctx.neighborTree.search src with
  | none =>
      rw [hneigh] at hstep
      apply (Option.some.inj hstep).symm
  | some neigh =>
      simp only [hneigh] at hstep
      split_ifs at hstep with hstatus
      · apply absurd ⟨neigh, hneigh, hstatus⟩ hsym
      · apply (Option.some.inj hstep).symm

theorem TakesTc.calm {ctx₁ : OlsrContext} {tc : TcMsg} (h : TakesTc ctx ctx₁ orig tc)
    (hcalm : Calm ctx₁ ctx') :
  TakesTc ctx ctx' orig tc
  := by
  constructor
  · rw [hcalm.topologyTree]
    apply h.others
  · rw [hcalm.topologyTree]
    apply h.entry

/-- A TC that a node hands to `process_olsr_tc`, from a symmetric neighbour. -/
theorem Sound.takesTc {now : Timespec} {msg : OlsrMsg} {tc : TcMsg} (h : ctx.Sound)
    (hpayload : msg.payload = .tc tc) (hhandler : (ctx.msgHandler src msg).isSome = true)
    (hsym : IsSymNeigh ctx.neighborTree src)
    (hstep : nodeStep ctx (.recv now src msg) = some ctx') :
  TakesTc ctx ctx' msg.originator tc
  := by
  rcases recv_inv hstep with ⟨hnone, -⟩ | ⟨handler, ctx₁, hsome, hrun, hcalm⟩
  · rw [hnone] at hhandler
    contradiction
  · rcases msgHandler_inv hsome with ⟨hello, hpayload', rfl⟩ | ⟨tc', hpayload', rfl⟩
    · rw [hpayload] at hpayload'
      contradiction
    · obtain rfl := MsgPayload.tc.inj (hpayload.symm.trans hpayload')
      have htakes : TakesTc { ctx with clock := now } ctx₁ msg.originator tc :=
        processOlsrTc_takes h.notDuplicated hsym hrun
      have hbefore : TakesTc ctx ctx₁ msg.originator tc := ⟨htakes.others, htakes.entry⟩
      apply hbefore.calm hcalm

/-- Only TCs change the topology of a node that forgets nothing. -/
theorem Steady.step_topology {e : NodeEvent} (h : ctx.Steady) (hok : ctx.ForgetsNothing e)
    (hstep : nodeStep ctx e = some ctx') :
  ctx'.topologyTree = ctx.topologyTree ∨ ∃ now src msg tc, e = .recv now src msg ∧
    msg.payload = .tc tc ∧ TakesTc ctx ctx' msg.originator tc
  := by
  cases e with
  | work now currtime rand =>
      left
      rcases work_inv hok hstep with ⟨-, hcalm⟩ | ⟨-, hcalm⟩
      · apply hcalm.topologyTree
      · apply hcalm.topologyTree
  | recv now src msg =>
      rcases id (recv_inv hstep) with ⟨-, hcalm⟩ | ⟨handler, ctx₁, hhandler, hrun, hcalm⟩
      · left
        apply hcalm.topologyTree
      · rcases msgHandler_inv hhandler with ⟨hello, -, rfl⟩ | ⟨tc, hpayload, rfl⟩
        · left
          rw [hcalm.topologyTree]
          have hclock := (h.setClock now).sound
          apply (Recalculates.processOlsrHello hclock.notDuplicated hrun).topologyTree
        · by_cases hsym : IsSymNeigh ctx.neighborTree src
          · right
            refine ⟨now, src, msg, tc, rfl, hpayload, h.sound.takesTc hpayload ?_ hsym hstep⟩
            rw [hhandler]
            rfl
          · left
            have hignores : ctx₁ = { ctx with clock := now } := processOlsrTc_ignores hsym hrun
            rw [hcalm.topologyTree, hignores]

/-- A message counts the sequence number of its receiver on by one at most. -/
theorem Steady.recv_ansn {now : Timespec} {msg : OlsrMsg} (h : ctx.Steady)
    (hok : ctx.ForgetsNothing (.recv now src msg))
    (hstep : nodeStep ctx (.recv now src msg) = some ctx') :
  ctx'.ansn = ctx.ansn ∨ ctx'.ansn = ctx.ansn + 1
  := by
  rcases recv_inv hstep with ⟨-, hcalm⟩ | ⟨handler, ctx₅, hhandler, hrun, hcalm⟩
  · left
    apply hcalm.ansn
  · rw [hcalm.ansn]
    rcases msgHandler_inv hhandler with ⟨hello, hpayload, rfl⟩ | ⟨tc, -, rfl⟩
    · obtain ⟨horig, hlost⟩ := hok hello hpayload
      rw [horig] at hrun
      obtain ⟨ctx₁, ctx₂, ctx₃, ctx₄, hst, -⟩ := (h.setClock now).processOlsrHello hlost hrun
      apply hst.ansn
    · left
      obtain ⟨topo, hchange, -⟩ := processOlsrTc_inv hrun h.sound.notDuplicated
      apply hchange.sameLinks.2

end OlsrContext

/-! ### The network -/

namespace HelloNet

variable {ι : Type} {ip : ι → InAddr} {G : SimpleGraph ι} {net net' : HelloNet ι}

/-- Messages arrive over the edges of `G` only and nothing expires. The sequence number of no node
that takes a step is about to wrap. -/
def Static (G : SimpleGraph ι) (net : HelloNet ι) : HelloEvent ι → Prop
  | .work u _ currtime _ => (net.nodes u).KeepsEntries currtime ∧ (net.nodes u).ansn ≠ 65535
  | .deliver u v _ _ _ => G.Adj u v ∧ (net.nodes u).ansn ≠ 65535

/-- The TCs of the network so far. The sequence numbers of a node are below its next one, and it
lists MPR selectors only; with a greater number it lists more. What is under way has been built,
and an entry of a topology holds all that some TC with its sequence number lists. -/
structure TcHistory (ip : ι → InAddr) (net : HelloNet ι) : Prop where
  built : ∀ b ∈ net.built, ∀ tc, b.msg.payload = .tc tc → b.msg.originator = ip b.builder ∧
    tc.ansn < (net.nodes b.builder).ansn ∧
    ∀ a ∈ tc.neigh, a ∈ (net.nodes b.builder).selectorTree
  grows : ∀ b ∈ net.built, ∀ b' ∈ net.built, b.builder = b'.builder → ∀ tc tc',
    b.msg.payload = .tc tc → b'.msg.payload = .tc tc' → tc.ansn ≤ tc'.ansn →
    ∀ a ∈ tc.neigh, a ∈ tc'.neigh
  queued : ∀ v, ∀ msg ∈ (net.nodes v).queued, ∀ tc, msg.payload = .tc tc →
    ∃ b ∈ net.built, b.msg.originator = msg.originator ∧ b.msg.payload = .tc tc
  topology : ∀ u d telem, (net.nodes u).topologyTree.search d = some telem →
    ∃ b ∈ net.built, ∃ tc, b.msg.originator = d ∧ b.msg.payload = .tc tc ∧ tc.ansn = telem.seq ∧
      ∀ a ∈ tc.neigh, a ∈ telem.anTree

/-- What holds of a network that does not change: nodes have forgotten nothing, messages have been
handled by neighbours only, HELLOs report no loss, and two-hop neighbours are neighbours of the
nodes that have announced them. -/
structure Stable (ip : ι → InAddr) (G : SimpleGraph ι) (net : HelloNet ι) : Prop where
  certified : Certified ip net
  steady : ∀ u, (net.nodes u).Steady
  processed : ∀ p ∈ net.processed, G.Adj p.receiver p.sender
  hello : ∀ b ∈ net.built, ∀ hello, b.msg.payload = .hello hello →
    ∀ a, ¬ OlsrContext.ListsAsLost a hello
  twoHop : ∀ u v x, (net.nodes u).searchNeigh2 (ip v) x ≠ none → ∃ w, ip w = x ∧ G.Adj v w
  history : TcHistory ip net

variable [DecidableEq ι]

/-! ### Steps of the network -/

/-- A step of the network after which the node `u` is `ctx`, and the records have grown. -/
structure Moves (net net' : HelloNet ι) (u : ι) (ctx : OlsrContext) : Prop where
  nodes : net'.nodes = Function.update net.nodes u ctx
  records : net.Records net'

theorem Moves.node {u : ι} {ctx : OlsrContext} (h : Moves net net' u ctx) (v : ι) :
  v = u ∧ net'.nodes v = ctx ∨ net'.nodes v = net.nodes v
  := by
  by_cases hv : v = u
  · left
    rw [hv, h.nodes, Function.update_self]
    exact ⟨rfl, rfl⟩
  · right
    rw [h.nodes, Function.update_of_ne hv]

theorem work_moves {u : ι} {now currtime : Timespec} {rand : ℕ}
    (hstep : net.step (.work u now currtime rand) = some net') :
  ∃ ctx, nodeStep (net.nodes u) (.work now currtime rand) = some ctx ∧ Moves net net' u ctx ∧
    net'.processed = net.processed ∧
    ∀ b, b ∈ net'.built ↔ b ∈ net.built ∨ ∃ msg,
      (net.nodes u).originates (.node (.work now currtime rand)) = some msg ∧
      b = ⟨u, msg, (net.nodes u).mprTree⟩
  := by
  obtain ⟨ctx, hctx, hnet⟩ := Option.bind_eq_some_iff.mp hstep
  obtain rfl := Option.some.inj hnet
  refine ⟨ctx, hctx, ⟨rfl, List.subset_append_left _ _, List.Subset.refl _⟩, rfl, ?_⟩
  intro b
  rw [List.mem_append, List.mem_map]
  constructor
  · rintro (hold | ⟨msg, hmsg, rfl⟩)
    · left
      apply hold
    · right
      exact ⟨msg, Option.mem_toList.mp hmsg, rfl⟩
  · rintro (hold | ⟨msg, hmsg, rfl⟩)
    · left
      apply hold
    · right
      exact ⟨msg, Option.mem_toList.mpr hmsg, rfl⟩

theorem Caused.deliver_moves {u v : ι} {k i : ℕ} {now : Timespec} (h : Caused ip net)
    (hstep : net.step (.deliver u v k i now) = some net') :
  ∃ pkt msg ctx, ((net.nodes v).sent[k]? = some pkt ∧ pkt.msgs[i]? = some msg ∧
      pkt.src = ip v ∧ msg ∈ (net.nodes v).queued) ∧
    nodeStep (net.nodes u) (.recv now (ip v) msg) = some ctx ∧ Moves net net' u ctx ∧
    net'.built = net.built ∧ ∀ p, p ∈ net'.processed ↔ p ∈ net.processed ∨
      (net.nodes u).processesHello (ip v) msg = true ∧ p = ⟨u, v, msg⟩
  := by
  obtain ⟨pkt, hpkt, hstep⟩ := Option.bind_eq_some_iff.mp hstep
  obtain ⟨msg, hmsg, hstep⟩ := Option.bind_eq_some_iff.mp hstep
  obtain ⟨ctx, hctx, hnet⟩ := Option.bind_eq_some_iff.mp hstep
  have hpkt' := List.mem_of_getElem? hpkt
  have hqueued : msg ∈ (net.nodes v).queued :=
    List.mem_append_left _ (List.mem_flatMap.mpr ⟨pkt, hpkt', List.mem_of_getElem? hmsg⟩)
  have hsrc := h.src v pkt hpkt'
  rw [hsrc] at hctx
  obtain rfl := Option.some.inj hnet
  refine ⟨pkt, msg, ctx, ⟨hpkt, hmsg, hsrc, hqueued⟩, hctx,
    ⟨rfl, List.Subset.refl _, List.subset_append_left _ _⟩, rfl, ?_⟩
  intro p
  rw [List.mem_append, hsrc]
  split_ifs with hprocesses
  · simp [hprocesses]
  · simp [hprocesses]

/-! ### The TCs of the network -/

/-- A step keeps the history if the node that moves forgets no MPR selector, counts its sequence
number on over the TC that it builds, and has the entries of its topology from TCs. -/
theorem TcHistory.moves (h : TcHistory ip net) {u : ι} {ctx : OlsrContext}
    (hmoves : Moves net net' u ctx) (hansn : (net.nodes u).ansn ≤ ctx.ansn)
    (hselector : ∀ a ∈ (net.nodes u).selectorTree, a ∈ ctx.selectorTree)
    (hbuilt : ∀ b ∈ net'.built, b ∈ net.built ∨ ∀ tc, b.msg.payload = .tc tc →
      b = ⟨u, (net.nodes u).ownTc, (net.nodes u).mprTree⟩ ∧ (net.nodes u).ansn < ctx.ansn)
    (hown : (net.nodes u).ownIp = ip u)
    (hqueued : ∀ msg ∈ ctx.queued, msg ∈ (net.nodes u).queued ∨ ∀ tc, msg.payload = .tc tc →
      ∃ b ∈ net'.built, b.msg.originator = msg.originator ∧ b.msg.payload = .tc tc)
    (htopology : ∀ d telem, ctx.topologyTree.search d = some telem →
      (net.nodes u).topologyTree.search d = some telem ∨
      ∃ b ∈ net'.built, ∃ tc, b.msg.originator = d ∧ b.msg.payload = .tc tc ∧
        tc.ansn = telem.seq ∧ ∀ a ∈ tc.neigh, a ∈ telem.anTree) :
  TcHistory ip net'
  := by
  have hansn' : ∀ v, (net.nodes v).ansn ≤ (net'.nodes v).ansn := by
    intro v
    rcases hmoves.node v with ⟨rfl, hv⟩ | hv
    · rw [hv]
      apply hansn
    · rw [hv]
  have hselector' : ∀ v, ∀ a ∈ (net.nodes v).selectorTree, a ∈ (net'.nodes v).selectorTree := by
    intro v a ha
    rcases hmoves.node v with ⟨rfl, hv⟩ | hv
    · rw [hv]
      apply hselector a ha
    · rw [hv]
      apply ha
  -- A new TC has the sequence number of its builder, and lists its MPR selectors.
  have hnew : ∀ b ∈ net'.built, ∀ tc, b.msg.payload = .tc tc → b ∈ net.built ∨
      b.builder = u ∧ b.msg.originator = ip u ∧ (net.nodes u).ansn < ctx.ansn ∧
      tc = ⟨(net.nodes u).ansn, (net.nodes u).selectorTree.keys⟩ := by
    intro b hb tc htc
    rcases hbuilt b hb with hold | hnew
    · left
      apply hold
    · right
      obtain ⟨rfl, hlt⟩ := hnew tc htc
      exact ⟨rfl, hown, hlt, (MsgPayload.tc.inj htc).symm⟩
  constructor
  · intro b hb tc htc
    rcases hnew b hb tc htc with hold | ⟨hbuilder, horig, hlt, rfl⟩
    · obtain ⟨horig, hlt, hlisted⟩ := h.built b hold tc htc
      refine ⟨horig, lt_of_lt_of_le hlt (hansn' b.builder), ?_⟩
      intro a ha
      apply hselector' b.builder a (hlisted a ha)
    · have hu : net'.nodes u = ctx := by rw [hmoves.nodes, Function.update_self]
      rw [hbuilder, hu]
      refine ⟨horig, hlt, ?_⟩
      intro a ha
      apply hselector a (OrdMap.mem_keys.mp ha)
  · intro b hb b' hb' hbuilder tc tc' htc htc' hle a ha
    rcases hnew b hb tc htc with hold | ⟨hu, -, -, rfl⟩
    · rcases hnew b' hb' tc' htc' with hold' | ⟨hu', -, -, rfl⟩
      · apply h.grows b hold b' hold' hbuilder tc tc' htc htc' hle a ha
      · obtain ⟨-, -, hlisted⟩ := h.built b hold tc htc
        rw [hbuilder, hu'] at hlisted
        apply OrdMap.mem_keys.mpr (hlisted a ha)
    · rcases hnew b' hb' tc' htc' with hold' | ⟨-, -, -, rfl⟩
      · obtain ⟨-, hlt, -⟩ := h.built b' hold' tc' htc'
        rw [← hbuilder, hu] at hlt
        apply absurd (lt_of_le_of_lt hle hlt) (lt_irrefl _)
      · apply ha
  · intro v msg hmsg tc htc
    have hkeep : msg ∈ (net.nodes v).queued → ∃ b ∈ net'.built,
        b.msg.originator = msg.originator ∧ b.msg.payload = .tc tc := by
      intro hold
      obtain ⟨b, hb, hcopy⟩ := h.queued v msg hold tc htc
      exact ⟨b, hmoves.records.built hb, hcopy⟩
    rcases hmoves.node v with ⟨rfl, hv⟩ | hv
    · rw [hv] at hmsg
      rcases hqueued msg hmsg with hold | hadded
      · apply hkeep hold
      · apply hadded tc htc
    · rw [hv] at hmsg
      apply hkeep hmsg
  · intro v d telem htelem
    have hkeep : (net.nodes v).topologyTree.search d = some telem → ∃ b ∈ net'.built, ∃ tc,
        b.msg.originator = d ∧ b.msg.payload = .tc tc ∧ tc.ansn = telem.seq ∧
        ∀ a ∈ tc.neigh, a ∈ telem.anTree := by
      intro hold
      obtain ⟨b, hb, hholds⟩ := h.topology v d telem hold
      exact ⟨b, hmoves.records.built hb, hholds⟩
    rcases hmoves.node v with ⟨rfl, hv⟩ | hv
    · rw [hv] at htelem
      rcases htopology d telem htelem with hold | hadded
      · apply hkeep hold
      · apply hadded
    · rw [hv] at htelem
      apply hkeep htelem

theorem lt_ansn_add_one {n : BitVec 16} (h : n ≠ 65535) :
  n < n + 1
  := by
  have hn : n.toNat ≠ 65535 := fun heq => h (BitVec.eq_of_toNat_eq heq)
  rw [BitVec.lt_def, BitVec.toNat_add]
  have hlt := n.isLt
  have hone : (1 : BitVec 16).toNat = 1 := rfl
  omega

/-- A round of the timer queue of a node keeps the history. -/
theorem TcHistory.work (h : TcHistory ip net) {u : ι} {now currtime : Timespec} {rand : ℕ}
    (hcaused : Caused ip net) (hok : Static G net (.work u now currtime rand))
    (hstep : net.step (.work u now currtime rand) = some net') :
  TcHistory ip net'
  := by
  obtain ⟨ctx, hctx, hmoves, -, hbuilt⟩ := work_moves hstep
  have hlt := lt_ansn_add_one hok.2
  -- Apart from the sequence number, the round leaves what the history is about as it is.
  obtain ⟨hansn, hselector, htopology, hown⟩ : (net.nodes u).ansn ≤ ctx.ansn ∧
      ctx.selectorTree = (net.nodes u).selectorTree ∧
      ctx.topologyTree = (net.nodes u).topologyTree ∧ ∀ msg tc,
        (net.nodes u).originates (.node (.work now currtime rand)) = some msg →
        msg.payload = .tc tc → msg = (net.nodes u).ownTc ∧ (net.nodes u).ansn < ctx.ansn := by
    rcases OlsrContext.work_inv hok.1 hctx with ⟨hhello, hcalm⟩ | ⟨htc, hcalm⟩
    · refine ⟨le_of_eq hcalm.ansn.symm, hcalm.selectorTree, hcalm.topologyTree, ?_⟩
      intro msg tc hmsg hpayload
      rw [hhello msg hmsg] at hpayload
      contradiction
    · have hansn : ctx.ansn = (net.nodes u).ansn + 1 := hcalm.ansn
      rw [hansn]
      refine ⟨hlt.le, hcalm.selectorTree, hcalm.topologyTree, ?_⟩
      intro msg tc hmsg _
      exact ⟨Option.some.inj (hmsg.symm.trans htc), hlt⟩
  apply h.moves hmoves hansn _ _ (hcaused.ownIp u)
  · intro msg hmsg
    rcases (OlsrContext.workRound_queue (hcaused.sound u) hctx).1 with
      hqueue | ⟨m, horiginates, -, hqueue⟩ | hqueue
    · left
      rwa [queued_of_enqueues hqueue, List.append_nil] at hmsg
    · rw [queued_of_enqueues hqueue] at hmsg
      rcases List.mem_append.mp hmsg with hold | hnew
      · left
        apply hold
      · right
        intro tc htc
        obtain rfl := List.mem_singleton.mp hnew
        exact ⟨_, (hbuilt _).mpr (Or.inr ⟨msg, horiginates, rfl⟩), rfl, htc⟩
    · left
      rwa [queued_of_flushes hqueue] at hmsg
  · intro d telem htelem
    left
    rwa [htopology] at htelem
  · intro a ha
    rwa [hselector]
  · intro b hb
    rcases (hbuilt b).mp hb with hold | ⟨msg, hmsg, rfl⟩
    · left
      apply hold
    · right
      intro tc htc
      obtain ⟨rfl, hansn⟩ := hown msg tc hmsg htc
      exact ⟨rfl, hansn⟩

/-- The arrival of a message keeps the history. -/
theorem TcHistory.deliver (h : TcHistory ip net) {u v : ι} {msg : OlsrMsg} {now : Timespec}
    {ctx : OlsrContext} (hcaused : Caused ip net) (hsteady : (net.nodes u).Steady)
    (hwrap : (net.nodes u).ansn ≠ 65535)
    (hok : (net.nodes u).ForgetsNothing (.recv now (ip v) msg))
    (hmsg : msg ∈ (net.nodes v).queued) (hmoves : Moves net net' u ctx)
    (hbuilt : net'.built = net.built)
    (hctx : nodeStep (net.nodes u) (.recv now (ip v) msg) = some ctx) :
  TcHistory ip net'
  := by
  obtain ⟨-, hretains⟩ := hsteady.step hok hctx
  have hansn : (net.nodes u).ansn ≤ ctx.ansn := by
    rcases hsteady.recv_ansn hok hctx with hsame | hcounted
    · rw [hsame]
    · rw [hcounted]
      apply (lt_ansn_add_one hwrap).le
  -- What a queue holds of a TC has been built.
  have hcause : ∀ tc, msg.payload = .tc tc →
      ∃ b ∈ net'.built, b.msg.originator = msg.originator ∧ b.msg.payload = .tc tc := by
    intro tc htc
    rw [hbuilt]
    apply h.queued v msg hmsg tc htc
  apply h.moves hmoves hansn hretains.selector _ (hcaused.ownIp u)
  · intro m hm
    rcases recv_copies (hcaused.sound u) hctx m hm with hold | hcopy
    · left
      apply hold
    · right
      intro tc htc
      rw [hcopy.originator]
      apply hcause tc (hcopy.payload.symm.trans htc)
  · intro d telem htelem
    rcases hsteady.step_topology hok hctx with hsame | ⟨now', src, msg', tc, he, htc, htakes⟩
    · left
      rwa [hsame] at htelem
    · obtain ⟨-, -, rfl⟩ := NodeEvent.recv.inj he
      by_cases hd : d = msg.originator
      · subst hd
        obtain ⟨telem', htelem', hentry⟩ := htakes.entry
        obtain rfl := Option.some.inj (htelem'.symm.trans htelem)
        rcases hentry with ⟨⟨hseq, hlisted⟩ | ⟨hold, -⟩, -⟩
        · right
          obtain ⟨b, hb, horig, hpayload⟩ := hcause tc htc
          exact ⟨b, hb, tc, horig, hpayload, hseq.symm, hlisted⟩
        · left
          apply hold
      · left
        rwa [htakes.others d hd] at htelem
  · intro b hb
    left
    rwa [hbuilt] at hb

/-! ### Runs of the network -/

omit [DecidableEq ι] in
/-- A message that arrives makes no node forget anything. -/
theorem Stable.forgetsNothing (h : Stable ip G net) {u v : ι} {msg : OlsrMsg} {now : Timespec}
    (hmsg : msg ∈ (net.nodes v).queued) :
  (net.nodes u).ForgetsNothing (.recv now (ip v) msg)
  := by
  intro hello hhello
  obtain ⟨b, hb, rfl, rfl⟩ := h.certified.caused.queued v msg hmsg hello hhello
  refine ⟨(h.certified.caused.built b hb hello hhello).originator, ?_⟩
  apply h.hello b hb hello hhello

omit [DecidableEq ι] in
/-- The nodes that a node has heard of are its neighbours. -/
theorem Stable.adj (h : Stable ip G net) {u v : ι} (hprocessed : net.HasProcessed u v) :
  G.Adj u v
  := by
  obtain ⟨b, -, -, hprocessed⟩ := hprocessed
  apply h.processed _ hprocessed

/-- What a step of the network does to the node that takes it. -/
theorem Stable.step_node (h : Stable ip G net) {e : HelloEvent ι} (hok : Static G net e)
    (hstep : net.step e = some net') :
  ∃ u e' ctx, (net.nodes u).ForgetsNothing e' ∧ nodeStep (net.nodes u) e' = some ctx ∧
    Moves net net' u ctx ∧
    ∀ src orig hello vtime, (net.nodes u).handlerOf e' = some (.hello src orig hello vtime) →
      ∃ b ∈ net.built, src = ip b.builder ∧ b.msg.payload = .hello hello
  := by
  cases e with
  | work u now currtime rand =>
      obtain ⟨ctx, hctx, hmoves, -⟩ := work_moves hstep
      refine ⟨u, .work now currtime rand, ctx, hok.1, hctx, hmoves, ?_⟩
      intro src orig hello vtime hhandler
      obtain ⟨c, -, hc⟩ := Option.bind_eq_some_iff.mp hhandler
      cases c <;> simp [OlsrContext.callbackHandler] at hc
  | deliver u v k i now =>
      obtain ⟨-, msg, ctx, ⟨-, -, -, hmsg⟩, hctx, hmoves, -⟩ :=
        h.certified.caused.deliver_moves hstep
      refine ⟨u, .recv now (ip v) msg, ctx, h.forgetsNothing hmsg, hctx, hmoves, ?_⟩
      intro src orig hello vtime hhandler
      obtain ⟨hsrc, hpayload, -⟩ := OlsrContext.msgHandler_hello hhandler
      obtain ⟨b, hb, rfl, rfl⟩ := h.certified.caused.queued v msg hmsg hello hpayload
      exact ⟨b, hb, hsrc, hpayload⟩

/-- A step of the network keeps what the nodes know. -/
theorem Stable.step_retains (h : Stable ip G net) {e : HelloEvent ι} (hok : Static G net e)
    (hstep : net.step e = some net') (u : ι) :
  OlsrContext.Retains (net.nodes u) (net'.nodes u)
  := by
  obtain ⟨v, e', ctx, hforgets, hctx, hmoves, -⟩ := h.step_node hok hstep
  rcases hmoves.node u with ⟨rfl, hu⟩ | hu
  · rw [hu]
    apply ((h.steady u).step hforgets hctx).2
  · rw [hu]
    exact ⟨rfl, fun _ ha => ha, fun _ ha => ha, fun _ _ hx => hx, fun _ ha => ha⟩

/-- A step of the network leaves it stable. -/
theorem Stable.step (h : Stable ip G net) (hip : Function.Injective ip) {e : HelloEvent ι}
    (hok : Static G net e) (hstep : net.step e = some net') :
  Stable ip G net'
  := by
  have hcaused := h.certified.caused
  obtain ⟨u, e', ctx, hforgets, hctx, hmoves, hcause⟩ := h.step_node hok hstep
  refine ⟨h.certified.step hip hstep, ?_, ?_, ?_, ?_, ?_⟩
  · intro v
    rcases hmoves.node v with ⟨rfl, hv⟩ | hv
    · rw [hv]
      apply ((h.steady v).step hforgets hctx).1
    · rw [hv]
      apply h.steady
  · intro p hp
    cases e with
    | work u now currtime rand =>
        obtain ⟨_, -, -, hprocessed, -⟩ := work_moves hstep
        rw [hprocessed] at hp
        apply h.processed p hp
    | deliver u v k i now =>
        obtain ⟨_, msg, _, -, -, -, -, hprocessed⟩ := hcaused.deliver_moves hstep
        rcases (hprocessed p).mp hp with hold | ⟨-, rfl⟩
        · apply h.processed p hold
        · apply hok.1
  · intro b hb hello hhello a
    cases e with
    | work u now currtime rand =>
        obtain ⟨_, -, -, -, hbuilt⟩ := work_moves hstep
        rcases (hbuilt b).mp hb with hold | ⟨msg, hmsg, rfl⟩
        · apply h.hello b hold hello hhello
        · obtain ⟨c, -, hbuilds⟩ := Option.bind_eq_some_iff.mp hmsg
          -- Of the messages a callback builds, only the one of the HELLO timer is a HELLO.
          cases c with
          | olsrHelloTimerCb =>
              obtain rfl := Option.some.inj hbuilds
              obtain rfl := MsgPayload.hello.inj hhello
              apply (h.steady u).not_listsAsLost
          | olsrTcTimerCb =>
              obtain rfl := Option.some.inj hbuilds
              contradiction
          | _ => contradiction
    | deliver u v k i now =>
        obtain ⟨_, _, _, -, -, -, hbuilt, -⟩ := hcaused.deliver_moves hstep
        rw [hbuilt] at hb
        apply h.hello b hb hello hhello
  · intro w v x hx
    rcases hmoves.node w with ⟨rfl, hw⟩ | hw
    · rw [hw] at hx
      rcases OlsrContext.nodeStep_searchNeigh2 (h.steady w).held.backed (hcaused.sound w) hctx hx
        with hold | ⟨orig, hello, vtime, hhandler, hlisted, -⟩
      · apply h.twoHop w v x hold
      · obtain ⟨b, hb, hsrc, hpayload⟩ := hcause _ orig hello vtime hhandler
        obtain ⟨info, hinfo, hmem⟩ := List.mem_flatMap.mp hlisted
        obtain ⟨w', hw', hheard⟩ :=
          (hcaused.built b hb hello hpayload).heard info hinfo x hmem
        rw [← hip hsrc] at hheard
        exact ⟨w', hw', h.adj hheard⟩
    · rw [hw] at hx
      apply h.twoHop w v x hx
  · cases e with
    | work u now currtime rand => apply h.history.work hcaused hok hstep
    | deliver u v k i now =>
        obtain ⟨-, msg, ctx, ⟨-, -, -, hmsg⟩, hctx, hmoves, hbuilt, -⟩ :=
          hcaused.deliver_moves hstep
        apply h.history.deliver hcaused (h.steady u) hok.2 (h.forgetsNothing hmsg) hmsg hmoves
          hbuilt hctx

/-- What the nodes of `net` know, those of `net'` know as well. -/
def Remembers (net net' : HelloNet ι) : Prop :=
  ∀ u, OlsrContext.Retains (net.nodes u) (net'.nodes u)

/-- A network stays stable in a run, and its nodes forget nothing. -/
theorem Stable.run (h : Stable ip G net) (hip : Function.Injective ip)
    {log : List (HelloNet ι × HelloEvent ι)}
    (hrun : History HelloNet.step (Static G) net log net') :
  (Stable ip G net' ∧ net.Remembers net') ∧ ∀ p ∈ log, Stable ip G p.1 ∧ net.Remembers p.1
  := by
  have hrefl : net.Remembers net :=
    fun u => ⟨rfl, fun _ ha => ha, fun _ ha => ha, fun _ _ hx => hx, fun _ ha => ha⟩
  have hstep : ∀ net₁ e net₂, Stable ip G net₁ ∧ net.Remembers net₁ → Static G net₁ e →
      net₁.step e = some net₂ → Stable ip G net₂ ∧ net.Remembers net₂ := by
    rintro net₁ e net₂ ⟨hstable, hremembers⟩ hok hstep
    refine ⟨hstable.step hip hok hstep, ?_⟩
    intro u
    apply (hremembers u).trans (hstable.step_retains hok hstep u)
  apply hrun.invariant hstep ⟨h, hrefl⟩

omit [DecidableEq ι] in
/-- A network of nodes that have just started is stable. -/
theorem Starts.stable (h : Starts ip net) :
  Stable ip G net
  := by
  have hempty : ∀ u, (net.nodes u).neighborTree = .empty ∧
      (net.nodes u).topologyTree = .empty ∧ (net.nodes u).queued = [] := by
    intro u
    obtain ⟨now, hstart⟩ := h.nodes u
    obtain ⟨tq, htq⟩ := OlsrContext.olsrStart_inv hstart
    rw [htq]
    exact ⟨rfl, rfl, rfl⟩
  refine ⟨h.certified, ?_, ?_, ?_, ?_, ?_⟩
  · intro u
    obtain ⟨now, hstart⟩ := h.nodes u
    apply OlsrContext.olsrStart_steady hstart
  · intro p hp
    rw [h.processed] at hp
    contradiction
  · intro b hb
    rw [h.built] at hb
    contradiction
  · intro u v x hx
    apply absurd _ hx
    rw [OlsrContext.searchNeigh2, (hempty u).1]
    rfl
  · constructor
    · intro b hb
      rw [h.built] at hb
      contradiction
    · intro b hb
      rw [h.built] at hb
      contradiction
    · intro v msg hmsg
      rw [(hempty v).2.2] at hmsg
      contradiction
    · intro u d telem htelem
      rw [(hempty u).2.1] at htelem
      contradiction

end HelloNet
