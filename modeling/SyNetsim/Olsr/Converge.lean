import SyNetsim.Olsr.RoutingTable
import SyNetsim.Olsr.ShortestPath
import SyNetsim.Olsr.Static

/-!
# Networks that do not change find the shortest routes

In a network over a fixed graph, three rounds of HELLOs and one of TCs lead to routing tables that
hold exactly the nodes that can be reached, each with the length of a shortest path.

In a round of HELLOs (`HelloNet.HelloRound`) every node builds a HELLO, and its neighbours process
it. After the first round a node has a link to each of its neighbours; after the second one the
links are symmetric, and a node knows the neighbours of its neighbours (`HelloNet.Acquainted`).
The relays that it has by then cover what is two hops away, and after the third round they know
who has chosen them. In a round of TCs (`HelloNet.TcRound`) every node builds a TC, and all that can
be reached from it process a copy. Then a node knows for every other one who has chosen it as a
relay, and this is enough to find the shortest paths (`HelloNet.converges`).

The rounds may overlap with any other steps of the network, and messages may be lost or arrive
twice.
-/

namespace HelloNet

variable {ι : Type} {ip : ι → InAddr} {G : SimpleGraph ι} {net net' : HelloNet ι}

/-- The node `u` builds the message `msg`. -/
def Builds (u : ι) (msg : OlsrMsg) (net : HelloNet ι) (e : HelloEvent ι) : Prop :=
  ∃ now currtime rand, e = .work u now currtime rand ∧
    (net.nodes u).originates (.node (.work now currtime rand)) = some msg

/-- The node `u` receives the message `msg` from `v` and hands it to the handler of its type. -/
def Takes (u v : ι) (msg : OlsrMsg) (net : HelloNet ι) (e : HelloEvent ι) : Prop :=
  ∃ k i now pkt, e = .deliver u v k i now ∧ (net.nodes v).sent[k]? = some pkt ∧
    pkt.msgs[i]? = some msg ∧ ((net.nodes u).msgHandler pkt.src msg).isSome = true

/-- Every node builds a HELLO, and its neighbours process it. -/
def HelloRound (G : SimpleGraph ι) (log : List (HelloNet ι × HelloEvent ι)) : Prop :=
  ∀ u, ∃ msg hello, msg.payload = .hello hello ∧ (∃ p ∈ log, Builds u msg p.1 p.2) ∧
    ∀ v, G.Adj u v → ∃ p ∈ log, Takes v u msg p.1 p.2

/-- Every node builds a TC, and each node that can be reached processes a copy of it. -/
def TcRound (G : SimpleGraph ι) (log : List (HelloNet ι × HelloEvent ι)) : Prop :=
  ∀ u, ∃ msg tc, msg.payload = .tc tc ∧ (∃ p ∈ log, Builds u msg p.1 p.2) ∧
    ∀ v, v ≠ u → G.Reachable u v → ∃ p ∈ log, ∃ w m, m.CopyOf msg ∧ Takes v w m p.1 p.2

theorem TcRound.mono {log log' : List (HelloNet ι × HelloEvent ι)} (h : TcRound G log)
    (hsubset : log ⊆ log') :
  TcRound G log'
  := by
  intro u
  obtain ⟨msg, tc, hpayload, ⟨p, hp, hbuilds⟩, htakes⟩ := h u
  refine ⟨msg, tc, hpayload, ⟨p, hsubset hp, hbuilds⟩, ?_⟩
  intro v hne hreach
  obtain ⟨q, hq, htakes⟩ := htakes v hne hreach
  exact ⟨q, hsubset hq, htakes⟩

/-! ### What is built -/

/-- A HELLO is built from the links of its node. -/
theorem Builds.hello {u : ι} {msg : OlsrMsg} {e : HelloEvent ι} {hello : HelloMsg}
    (h : Builds u msg net e) (hpayload : msg.payload = .hello hello) :
  hello.helloInfo = (net.nodes u).helloWriteLinks
  := by
  obtain ⟨now, currtime, rand, -, hmsg⟩ := h
  obtain ⟨c, -, hbuilds⟩ := Option.bind_eq_some_iff.mp hmsg
  cases c with
  | olsrHelloTimerCb =>
      obtain rfl := Option.some.inj hbuilds
      obtain rfl := MsgPayload.hello.inj hpayload
      rfl
  | olsrTcTimerCb =>
      obtain rfl := Option.some.inj hbuilds
      contradiction
  | _ => contradiction

/-- A TC lists the MPR selectors of its node. -/
theorem Builds.tc {u : ι} {msg : OlsrMsg} {e : HelloEvent ι} {tc : TcMsg}
    (h : Builds u msg net e) (hpayload : msg.payload = .tc tc) :
  msg.originator = (net.nodes u).ownIp ∧ tc.neigh = (net.nodes u).selectorTree.keys
  := by
  obtain ⟨now, currtime, rand, -, hmsg⟩ := h
  obtain ⟨c, -, hbuilds⟩ := Option.bind_eq_some_iff.mp hmsg
  cases c with
  | olsrHelloTimerCb =>
      obtain rfl := Option.some.inj hbuilds
      contradiction
  | olsrTcTimerCb =>
      obtain rfl := Option.some.inj hbuilds
      obtain rfl := MsgPayload.tc.inj hpayload
      exact ⟨rfl, rfl⟩
  | _ => contradiction

variable [DecidableEq ι] {log : List (HelloNet ι × HelloEvent ι)}

/-- What a node has built is on record. -/
theorem Builds.recorded {u : ι} {msg : OlsrMsg}
    (hrun : History HelloNet.step (Static G) net log net')
    (h : ∃ p ∈ log, Builds u msg p.1 p.2) :
  ∃ b ∈ net'.built, b.builder = u ∧ b.msg = msg
  := by
  have hstep : ∀ s e t, True → Static G s e → HelloNet.step s e = some t → True :=
    fun _ _ _ _ _ _ => trivial
  have hkeeps : ∀ s e t, True → Static G s e → HelloNet.step s e = some t →
      (∃ b ∈ s.built, b.builder = u ∧ b.msg = msg) →
      ∃ b ∈ t.built, b.builder = u ∧ b.msg = msg := by
    rintro s e t - - hstep ⟨b, hb, hbuilder⟩
    refine ⟨b, ?_, hbuilder⟩
    cases e with
    | work v now currtime rand =>
        obtain ⟨_, -, hmoves, -⟩ := work_moves hstep
        apply hmoves.records.built hb
    | deliver v w k i now =>
        obtain ⟨pkt, -, hstep⟩ := Option.bind_eq_some_iff.mp hstep
        obtain ⟨m, -, hstep⟩ := Option.bind_eq_some_iff.mp hstep
        obtain ⟨ctx, -, hnet⟩ := Option.bind_eq_some_iff.mp hstep
        obtain rfl := Option.some.inj hnet
        apply hb
  have hdoes : ∀ s e t, True → Static G s e → HelloNet.step s e = some t → Builds u msg s e →
      ∃ b ∈ t.built, b.builder = u ∧ b.msg = msg := by
    rintro s e t - - hstep ⟨now, currtime, rand, rfl, hmsg⟩
    obtain ⟨-, -, -, -, hbuilt⟩ := work_moves hstep
    exact ⟨_, (hbuilt _).mpr (Or.inr ⟨msg, hmsg, rfl⟩), rfl, rfl⟩
  apply hrun.ensures hstep hkeeps hdoes trivial h

/-- The step of the node that takes a message. -/
theorem Takes.step {u v : ι} {msg : OlsrMsg} {e : HelloEvent ι} (h : Takes u v msg net e)
    (hcaused : Caused ip net) (hstep : net.step e = some net') :
  ∃ now, msg ∈ (net.nodes v).queued ∧ ((net.nodes u).msgHandler (ip v) msg).isSome = true ∧
    nodeStep (net.nodes u) (.recv now (ip v) msg) = some (net'.nodes u)
  := by
  obtain ⟨k, i, now, pkt, rfl, hpkt, hmsg, hhandler⟩ := h
  obtain ⟨pkt', msg', ctx, ⟨hpkt', hmsg', hsrc, hqueued⟩, hctx, hmoves, -⟩ :=
    hcaused.deliver_moves hstep
  obtain rfl := Option.some.inj (hpkt.symm.trans hpkt')
  obtain rfl := Option.some.inj (hmsg.symm.trans hmsg')
  rw [hsrc] at hhandler
  rw [hmoves.nodes, Function.update_self]
  exact ⟨now, hqueued, hhandler, hctx⟩

/-! ### Rounds of HELLOs -/

/-- What the neighbours know when they have processed a HELLO they know from then on. -/
theorem Stable.greeted (h : Stable ip G net) (hip : Function.Injective ip)
    (hrun : History HelloNet.step (Static G) net log net') {u v : ι} {msg : OlsrMsg}
    {hello : HelloMsg} (hpayload : msg.payload = .hello hello)
    (htakes : ∃ p ∈ log, Takes v u msg p.1 p.2) :
  OlsrContext.Greeted (net.nodes v) (net'.nodes v) (ip u) hello
  := by
  have hinv : ∀ s e t, Stable ip G s → Static G s e → HelloNet.step s e = some t →
      Stable ip G t := fun _ _ _ hs hok hstep => hs.step hip hok hstep
  have hkeeps : ∀ s e t, Stable ip G s → Static G s e → HelloNet.step s e = some t →
      OlsrContext.Greeted (net.nodes v) (s.nodes v) (ip u) hello →
      OlsrContext.Greeted (net.nodes v) (t.nodes v) (ip u) hello :=
    fun _ _ _ hs hok hstep hgreeted => hgreeted.retains (hs.step_retains hok hstep v)
  have hdoes : ∀ s e t, Stable ip G s → Static G s e → HelloNet.step s e = some t →
      Takes v u msg s e → OlsrContext.Greeted (net.nodes v) (t.nodes v) (ip u) hello := by
    intro s e t hs hok hstep htakes
    obtain ⟨now, hmsg, hhandler, hctx⟩ := htakes.step hs.certified.caused hstep
    have hprocesses : (s.nodes v).processesHello (ip u) msg = true := by
      obtain ⟨handler, hhandler⟩ := Option.isSome_iff_exists.mp hhandler
      rcases OlsrContext.msgHandler_inv hhandler with ⟨_, -, rfl⟩ | ⟨tc, htc, -⟩
      · rw [OlsrContext.processesHello, hhandler]
        rfl
      · rw [hpayload] at htc
        contradiction
    have hgreeted := (hs.steady v).greeted (hs.forgetsNothing hmsg) hpayload hprocesses hctx
    -- The address of the node is the same as at the start.
    have hown : (s.nodes v).ownIp = (net.nodes v).ownIp := by
      rw [hs.certified.caused.ownIp, h.certified.caused.ownIp]
    obtain ⟨hlink, hsym, hselector⟩ := hgreeted
    rw [OlsrContext.HearsMe, hown] at hsym
    rw [hown] at hselector
    exact ⟨hlink, hsym, hselector⟩
  apply hrun.ensures hinv hkeeps hdoes h htakes

/-- Neighbours have links to each other. -/
def Linked (ip : ι → InAddr) (G : SimpleGraph ι) (net : HelloNet ι) : Prop :=
  ∀ u v, G.Adj u v → (net.nodes u).HasLink (ip v)

/-- Neighbours have symmetric links to each other and know each other's neighbours. -/
structure Acquainted (ip : ι → InAddr) (G : SimpleGraph ι) (net : HelloNet ι) : Prop where
  symLink : ∀ u v, G.Adj u v → (net.nodes u).HasSymLink (ip v)
  twoHop : ∀ u v w, G.Adj u v → G.Adj v w → w ≠ u → (net.nodes u).searchNeigh2 (ip v) (ip w) ≠ none

omit [DecidableEq ι] in
theorem Acquainted.remembers (h : Acquainted ip G net) (hremembers : net.Remembers net') :
  Acquainted ip G net'
  where
  symLink u v huv := (hremembers u).symLink (ip v) (h.symLink u v huv)
  twoHop u v w huv hvw hne := (hremembers u).neigh2 (ip v) (ip w) (h.twoHop u v w huv hvw hne)

/-- After a first round of HELLOs there are links. -/
theorem Stable.linked (h : Stable ip G net) (hip : Function.Injective ip)
    (hrun : History HelloNet.step (Static G) net log net') (hround : HelloRound G log) :
  Linked ip G net'
  := by
  intro u v huv
  obtain ⟨msg, hello, hpayload, -, htakes⟩ := hround v
  apply (h.greeted hip hrun hpayload (htakes u huv.symm)).link

/-- After a second round the links are symmetric, and the nodes know what is two hops away. -/
theorem Linked.acquainted (hlinked : Linked ip G net) (h : Stable ip G net)
    (hip : Function.Injective ip) (hrun : History HelloNet.step (Static G) net log net')
    (hround : HelloRound G log) :
  Acquainted ip G net'
  := by
  have hheard : ∀ u v, G.Adj u v → (net'.nodes u).HasSymLink (ip v) ∧
      ∀ w, G.Adj v w → w ≠ u → (net'.nodes u).searchNeigh2 (ip v) (ip w) ≠ none := by
    intro u v huv
    obtain ⟨msg, hello, hpayload, ⟨p, hp, hbuilds⟩, htakes⟩ := hround v
    obtain ⟨hstable, hremembers⟩ := (h.run hip hrun).2 p hp
    have hinfo : hello.helloInfo = (p.1.nodes v).helloWriteLinks := hbuilds.hello hpayload
    -- When it builds the HELLO, the neighbour has links to all of its own neighbours.
    have hlink : ∀ w, G.Adj v w → (p.1.nodes v).HasLink (ip w) :=
      fun w hvw => (hremembers v).link (ip w) (hlinked v w hvw)
    obtain ⟨hlisted, hcode, -⟩ := (hstable.steady v).linkcodeToMe (hlink u huv.symm)
    have hhears : (net.nodes u).HearsMe hello.helloInfo := by
      rw [OlsrContext.HearsMe, h.certified.caused.ownIp, hinfo]
      exact ⟨hlisted, hcode⟩
    obtain ⟨hsym, hneigh2⟩ := (h.greeted hip hrun hpayload (htakes u huv.symm)).sym hhears
    refine ⟨hsym, ?_⟩
    intro w hvw hne
    obtain ⟨info, hmem, hw⟩ := OlsrContext.exists_listed (hstable.steady v).sound (hlink w hvw)
    apply hneigh2 (ip w)
    · rw [hinfo]
      apply List.mem_flatMap.mpr ⟨info, hmem, hw⟩
    · rw [h.certified.caused.ownIp]
      apply hip.ne hne
  constructor
  · intro u v huv
    apply (hheard u v huv).1
  · intro u v w huv
    apply (hheard u v huv).2 w

/-! ### Relays -/

omit [DecidableEq ι] in
/-- Once the links are symmetric, the symmetric neighbours are those of the graph. -/
theorem Acquainted.isSymNeigh (h : Acquainted ip G net) (hstable : Stable ip G net)
    (hip : Function.Injective ip) {u v : ι} :
  IsSymNeigh (net.nodes u).neighborTree (ip v) ↔ G.Adj u v
  := by
  constructor
  · intro hsym
    obtain ⟨w, hw, hconfirmed⟩ := (hstable.certified.vouched u).neighbor (ip v) hsym
    rw [← hip hw]
    apply hstable.adj hconfirmed.left
  · intro huv
    obtain ⟨i, link, hlink, hstatus⟩ := h.symLink u v huv
    apply ((hstable.steady u).sound.consistent.isSymNeigh_iff hlink).mpr
    exact ⟨i, link, hlink, hstatus⟩

omit [DecidableEq ι] in
/-- The relays of a node that knows its neighbourhood cover what is two hops away. -/
theorem Acquainted.relays (h : Acquainted ip G net) (hstable : Stable ip G net)
    (hip : Function.Injective ip) (u : ι) :
  (∀ m, ip m ∈ (net.nodes u).mprTree → G.Adj u m) ∧
    ∀ b x, G.Adj u b → G.Adj b x → x ≠ u → ¬ G.Adj u x →
      ∃ m, ip m ∈ (net.nodes u).mprTree ∧ G.Adj m x
  := by
  have hsteady := hstable.steady u
  constructor
  · intro m hm
    apply (h.isSymNeigh hstable hip).mp (hsteady.mprCurrent.relay (ip m) hm)
  · intro b x hub hbx hne hnadj
    -- What is two hops away is a strict two-hop neighbour of the node.
    have hn2 : IsN2 (net.nodes u).ownIp (net.nodes u).neighborTree (ip x) := by
      obtain ⟨n, hn, hsym⟩ := (h.isSymNeigh hstable hip).mpr hub
      refine ⟨?_, ?_, ip b, n, hn, hsym, ?_⟩
      · rw [hstable.certified.caused.ownIp]
        apply hip.ne hne
      · rw [h.isSymNeigh hstable hip]
        apply hnadj
      · have hneigh2 := h.twoHop u b x hub hbx hne
        rw [OlsrContext.searchNeigh2, hn] at hneigh2
        apply OrdMap.mem_iff.mpr (Option.ne_none_iff_exists'.mp hneigh2)
    obtain ⟨a, ha, n, hn, hx⟩ := hsteady.mprCurrent.cover (ip x) hn2
    obtain ⟨m, hm, -⟩ := (hstable.certified.vouched u).neighbor a (hsteady.mprCurrent.relay a ha)
    subst hm
    have hneigh2 : (net.nodes u).searchNeigh2 (ip m) (ip x) ≠ none := by
      rw [OlsrContext.searchNeigh2, hn]
      apply Option.ne_none_iff_exists'.mpr (OrdMap.mem_iff.mp hx)
    obtain ⟨w, hw, hmw⟩ := hstable.twoHop u m (ip x) hneigh2
    rw [hip hw] at hmw
    exact ⟨m, ha, hmw⟩

/-- After a third round of HELLOs there are relays which know who has chosen them. -/
theorem Acquainted.isRelay (h : Acquainted ip G net) (hstable : Stable ip G net)
    (hip : Function.Injective ip) (hrun : History HelloNet.step (Static G) net log net')
    (hround : HelloRound G log) :
  ∃ relay : ι → Set ι, IsRelay G relay ∧
    ∀ u, ∀ m ∈ relay u, ip u ∈ (net'.nodes m).selectorTree
  := by
  choose msg hello hpayload hbuilt htakes using hround
  choose p hp hbuilds using hbuilt
  have hbefore := fun u => (hstable.run hip hrun).2 (p u) (hp u)
  -- The relays of a node are those it has when it builds its HELLO.
  have hrelays := fun u => (h.remembers (hbefore u).2).relays (hbefore u).1 hip u
  refine ⟨fun u => { m | ip m ∈ ((p u).1.nodes u).mprTree }, ?_, ?_⟩
  · constructor
    · intro u
      apply (hrelays u).1
    · intro u
      apply (hrelays u).2
  · intro u m hm
    have hum := (hrelays u).1 m hm
    have hgreeted := hstable.greeted hip hrun (hpayload u) (htakes u m hum)
    have hsymLink := (h.remembers (hbefore u).2).symLink u m hum
    have hlink : ((p u).1.nodes u).HasLink (ip m) := by
      obtain ⟨i, link, hlink, -⟩ := hsymLink
      exact ⟨i, link, hlink⟩
    obtain ⟨hlisted, -, hmpr⟩ := ((hbefore u).1.steady u).linkcodeToMe hlink
    have hselector := hgreeted.selector
    rw [hstable.certified.caused.ownIp, (hbuilds u).hello (hpayload u)] at hselector
    apply hselector hlisted (hmpr hm)

/-! ### A round of TCs -/

/-- A node that has processed a copy of a TC has an entry that is at least as new from then on. -/
theorem Stable.heldNewer (h : Stable ip G net) (hip : Function.Injective ip)
    (hacquainted : Acquainted ip G net) (hrun : History HelloNet.step (Static G) net log net')
    {u : ι} {msg : OlsrMsg} {tc : TcMsg} (hpayload : msg.payload = .tc tc)
    (htakes : ∃ p ∈ log, ∃ w m, m.CopyOf msg ∧ Takes u w m p.1 p.2) :
  ∃ telem, (net'.nodes u).topologyTree.search msg.originator = some telem ∧ tc.ansn ≤ telem.seq
  := by
  have hinv : ∀ s e t, Stable ip G s ∧ Acquainted ip G s → Static G s e →
      HelloNet.step s e = some t → Stable ip G t ∧ Acquainted ip G t := by
    rintro s e t ⟨hs, hs'⟩ hok hstep
    exact ⟨hs.step hip hok hstep, hs'.remembers (hs.step_retains hok hstep)⟩
  have hkeeps : ∀ s e t, Stable ip G s ∧ Acquainted ip G s → Static G s e →
      HelloNet.step s e = some t →
      (∃ telem, (s.nodes u).topologyTree.search msg.originator = some telem ∧
        tc.ansn ≤ telem.seq) →
      ∃ telem, (t.nodes u).topologyTree.search msg.originator = some telem ∧
        tc.ansn ≤ telem.seq := by
    rintro s e t ⟨hs, -⟩ hok hstep ⟨telem, htelem, hle⟩
    obtain ⟨v, e', ctx, hforgets, hctx, hmoves, -⟩ := hs.step_node hok hstep
    rcases hmoves.node u with ⟨rfl, hu⟩ | hu
    · rw [hu]
      rcases (hs.steady u).step_topology hforgets hctx with
        hsame | ⟨now, src, m, tc', -, -, htakes⟩
      · rw [hsame]
        exact ⟨telem, htelem, hle⟩
      · by_cases horig : msg.originator = m.originator
        · rw [horig] at htelem ⊢
          obtain ⟨telem', htelem', -, hnewer⟩ := htakes.entry
          exact ⟨telem', htelem', hle.trans (hnewer telem htelem)⟩
        · rw [htakes.others msg.originator horig]
          exact ⟨telem, htelem, hle⟩
    · rw [hu]
      exact ⟨telem, htelem, hle⟩
  have hdoes : ∀ s e t, Stable ip G s ∧ Acquainted ip G s → Static G s e →
      HelloNet.step s e = some t → (∃ w m, m.CopyOf msg ∧ Takes u w m s e) →
      ∃ telem, (t.nodes u).topologyTree.search msg.originator = some telem ∧
        tc.ansn ≤ telem.seq := by
    rintro s e t ⟨hs, hs'⟩ hok hstep ⟨w, m, hcopy, htakes⟩
    obtain ⟨now, -, hhandler, hctx⟩ := htakes.step hs.certified.caused hstep
    have hadj : G.Adj u w := by
      obtain ⟨k, i, now, pkt, rfl, -⟩ := htakes
      apply hok.1
    have hpayload' : m.payload = .tc tc := hcopy.payload.trans hpayload
    have hsym := (hs'.isSymNeigh hs hip).mpr hadj
    obtain ⟨telem, htelem, hentry, -⟩ :=
      ((hs.steady u).sound.takesTc hpayload' hhandler hsym hctx).entry
    rw [← hcopy.originator]
    refine ⟨telem, htelem, ?_⟩
    rcases hentry with ⟨hseq, -⟩ | ⟨-, hlt⟩
    · rw [hseq]
    · apply hlt.le
  apply hrun.ensures hinv hkeeps hdoes ⟨h, hacquainted⟩ htakes

/-- After a round of TCs a node knows of every other one that it can reach who had chosen it as a
relay before. -/
theorem Stable.advertises (h : Stable ip G net) (hip : Function.Injective ip)
    (hacquainted : Acquainted ip G net) (hrun : History HelloNet.step (Static G) net log net')
    (hround : TcRound G log) {u v : ι} (hne : u ≠ v) (hreach : G.Reachable v u) {a : InAddr}
    (ha : a ∈ (net.nodes v).selectorTree) :
  Advertises (net'.nodes u).topologyTree (ip v) a
  := by
  obtain ⟨msg, tc, hpayload, hbuilt, htakes⟩ := hround v
  obtain ⟨telem, htelem, hle⟩ :=
    h.heldNewer hip hacquainted hrun hpayload (htakes u hne hreach)
  obtain ⟨b, hb, rfl, rfl⟩ := Builds.recorded hrun hbuilt
  obtain ⟨p, hp, hbuilds⟩ := hbuilt
  obtain ⟨hstable, -⟩ := (h.run hip hrun).1
  obtain ⟨-, hremembers⟩ := (h.run hip hrun).2 p hp
  obtain ⟨horig, -, -⟩ := hstable.history.built b hb tc hpayload
  -- The entry holds what some TC of the node lists, which lists all that this one does.
  obtain ⟨b', hb', tc', horig', hpayload', hseq, hlisted⟩ :=
    hstable.history.topology u b.msg.originator telem htelem
  have hbuilder : b.builder = b'.builder := by
    apply hip
    rw [← horig, ← horig', (hstable.history.built b' hb' tc' hpayload').1]
  rw [← hseq] at hle
  rw [← horig]
  refine ⟨telem, htelem, hlisted a ?_⟩
  apply hstable.history.grows b hb b' hb' hbuilder tc tc' hpayload hpayload' hle a
  rw [(hbuilds.tc hpayload).2]
  apply OrdMap.mem_keys.mpr
  apply (hremembers b.builder).selector a ha

/-! ### Shortest routes -/

omit [DecidableEq ι] in
/-- When the selectors of the nodes that can be reached are advertised, the search finds each of
them in as many steps as it is away. -/
theorem spfWalk_of_dist {relay : ι → Set ι} (hrelay : IsRelay G relay) (hip : Function.Injective ip)
    {u : ι} {neighborTree : OrdMap InAddr NeighborElem} {topo : OrdMap InAddr TopologyInfoElem}
    (hsym : ∀ v, G.Adj u v → IsSymNeigh neighborTree (ip v))
    (hadv : ∀ v w, u ≠ v → G.Reachable v u → v ∈ relay w → Advertises topo (ip v) (ip w)) {n : ℕ}
    {v : ι} (hdist : G.dist v u = n + 1) :
  SpfWalk (ip u) neighborTree topo n (ip v)
  := by
  -- By induction on the distance: the node has a relay one step nearer, which advertises it.
  induction n generalizing v with
  | zero =>
      apply SpfWalk.neigh
      apply hsym v (SimpleGraph.dist_eq_one_iff_adj.mp hdist).symm
  | succ n ih =>
      obtain ⟨m, hm, hmdist⟩ := hrelay.exists_nearer hdist
      have hmu : u ≠ m := by
        rintro rfl
        simp at hmdist
      have hvu : u ≠ v := by
        rintro rfl
        simp at hdist
      have hreach : G.Reachable m u := SimpleGraph.Reachable.of_dist_ne_zero (by omega)
      have hedge := hadv m v hmu hreach hm
      apply (ih hmdist).edge
      refine ⟨hip.ne hmu.symm, hip.ne hvu.symm, ?_, Or.inl hedge⟩
      obtain ⟨telem, htelem, -⟩ := hedge
      apply OrdMap.mem_of_search htelem

omit [DecidableEq ι] in
/-- The routes of a stable network are paths of the graph. -/
theorem Stable.isRoute (h : Stable ip G net) (hip : Function.Injective ip) {u : ι} {a : InAddr}
    {entry : RoutingEntry} (hentry : (net.nodes u).routingTable.search a = some entry) :
  ∃ v path, v ≠ u ∧ a = ip v ∧ entry.route = path.map ip ∧ path.length = entry.hopCount ∧
    IsRoute G u v path ∧ (u :: path).Nodup
  := by
  obtain ⟨path, hroute, hlength, hlast, hnodup, hchain⟩ := h.certified.path hip hentry
  obtain ⟨v, hv, rfl⟩ := Option.map_eq_some_iff.mp hlast
  have hne : v ≠ u := by
    rintro rfl
    apply (List.nodup_cons.mp hnodup).1 (List.mem_of_getLast? hv)
  refine ⟨v, path, hne, rfl, hroute, hlength, ⟨?_, ?_⟩, hnodup⟩
  · apply hchain.imp
    intro x y hconfirmed
    apply h.adj hconfirmed.left
  · rw [List.getLast?_cons, hv]
    rfl

/-- The network has come about from nodes that have just started by steps over the graph, among
them three rounds of HELLOs, one after the other, and then a round of TCs. -/
def AfterRounds (ip : ι → InAddr) (G : SimpleGraph ι) (net : HelloNet ι) : Prop :=
  ∃ start net₁ net₂ net₃ log₁ log₂ log₃ log₄, Starts ip start ∧
    (History step (Static G) start log₁ net₁ ∧ HelloRound G log₁) ∧
    (History step (Static G) net₁ log₂ net₂ ∧ HelloRound G log₂) ∧
    (History step (Static G) net₂ log₃ net₃ ∧ HelloRound G log₃) ∧
    History step (Static G) net₃ log₄ net ∧ TcRound G log₄

/-- The steps that follow the rounds are part of what has happened. -/
theorem AfterRounds.step (h : AfterRounds ip G net) {e : HelloEvent ι} (hok : Static G net e)
    (hstep : net.step e = some net') :
  AfterRounds ip G net'
  := by
  obtain ⟨start, net₁, net₂, net₃, log₁, log₂, log₃, log₄, hstart, h₁, h₂, h₃, hrun₄, hround₄⟩ := h
  refine ⟨start, net₁, net₂, net₃, log₁, log₂, log₃, log₄ ++ [(net, e)], hstart, h₁, h₂, h₃,
    hrun₄.concat hok hstep, ?_⟩
  apply hround₄.mono
  apply List.subset_append_left

theorem AfterRounds.stable (h : AfterRounds ip G net) (hip : Function.Injective ip) :
  Stable ip G net
  := by
  obtain ⟨start, net₁, net₂, net₃, log₁, log₂, log₃, log₄, hstart, ⟨hrun₁, -⟩, ⟨hrun₂, -⟩,
    ⟨hrun₃, -⟩, hrun₄, -⟩ := h
  have hstable₁ := (hstart.stable.run hip hrun₁).1.1
  have hstable₂ := (hstable₁.run hip hrun₂).1.1
  have hstable₃ := (hstable₂.run hip hrun₃).1.1
  apply (hstable₃.run hip hrun₄).1.1

/-- After the rounds a node has routes to all that it can reach, with the distance as an upper
bound. -/
theorem AfterRounds.hasEntry (h : AfterRounds ip G net) (hip : Function.Injective ip) {u v : ι}
    (hne : v ≠ u) (hreach : G.Reachable u v) :
  ∃ entry, (net.nodes u).routingTable.search (ip v) = some entry ∧ entry.hopCount ≤ G.dist u v
  := by
  have hstable := h.stable hip
  obtain ⟨start, net₁, net₂, net₃, log₁, log₂, log₃, log₄, hstart, ⟨hrun₁, hround₁⟩,
    ⟨hrun₂, hround₂⟩, ⟨hrun₃, hround₃⟩, hrun₄, hround₄⟩ := h
  have hstable₀ : Stable ip G start := hstart.stable
  have hstable₁ := (hstable₀.run hip hrun₁).1.1
  have hstable₂ := (hstable₁.run hip hrun₂).1.1
  have hstable₃ := (hstable₂.run hip hrun₃).1.1
  have hacquainted₂ : Acquainted ip G net₂ :=
    (hstable₀.linked hip hrun₁ hround₁).acquainted hstable₁ hip hrun₂ hround₂
  have hacquainted₃ := hacquainted₂.remembers (hstable₂.run hip hrun₃).1.2
  have hacquainted := hacquainted₃.remembers (hstable₃.run hip hrun₄).1.2
  obtain ⟨relay, hrelay, hselector⟩ := hacquainted₂.isRelay hstable₂ hip hrun₃ hround₃
  -- The table is that of the neighbours and the topology, but for entries that advertise nothing.
  obtain ⟨topo, homits, htable⟩ := (hstable.steady u).nearlyFresh
  rw [hstable.certified.caused.ownIp] at htable
  obtain ⟨n, hn⟩ : ∃ n, G.dist v u = n + 1 :=
    Nat.exists_eq_succ_of_ne_zero (hreach.symm.pos_dist_of_ne hne).ne'
  have hwalk : SpfWalk (ip u) (net.nodes u).neighborTree topo n (ip v) := by
    apply spfWalk_of_dist hrelay hip _ _ hn
    · intro w huw
      apply (hacquainted.isSymNeigh hstable hip).mpr huw
    · intro w x huw hreach hw
      apply (homits.advertises _ _).mpr
      apply hstable₃.advertises hip hacquainted₃ hrun₄ hround₄ huw hreach (hselector x w hw)
  obtain ⟨entry, hentry, hle⟩ := (spfTable_complete _ _ topo).least n (ip v) (spfWalk_iff.mp hwalk)
  rw [SimpleGraph.dist_comm, hn, htable]
  exact ⟨entry, hentry, hle⟩

/-- After the rounds the routes are shortest paths. -/
theorem AfterRounds.shortest (h : AfterRounds ip G net) (hip : Function.Injective ip) {u v : ι}
    {entry : RoutingEntry} (hentry : (net.nodes u).routingTable.search (ip v) = some entry) :
  entry.hopCount = G.dist u v ∧ ∃ path, entry.route = path.map ip ∧ path.length = G.dist u v ∧
    IsRoute G u v path ∧ (u :: path).Nodup
  := by
  obtain ⟨w, path, hne, hw, hpath, hlength, hroute, hnodup⟩ := (h.stable hip).isRoute hip hentry
  obtain rfl := hip hw
  obtain ⟨walk, -⟩ := hroute.exists_walk
  obtain ⟨entry', hentry', hle⟩ := h.hasEntry hip hne walk.reachable
  obtain rfl := Option.some.inj (hentry.symm.trans hentry')
  have hhops : entry.hopCount = G.dist u v := by
    apply le_antisymm hle
    rw [← hlength]
    apply hroute.dist_le
  exact ⟨hhops, path, hpath, hlength.trans hhops, hroute, hnodup⟩

/-- The nodes 0, 1 and 2 in a line. -/
def threeLine : SimpleGraph (Fin 3) where
  Adj u v := u.val + 1 = v.val ∨ v.val + 1 = u.val
  symm := by
    constructor
    intro u v h
    apply h.symm
  loopless := by
    constructor
    intro u h
    omega

instance : DecidableRel threeLine.Adj :=
  fun u v => inferInstanceAs (Decidable (u.val + 1 = v.val ∨ v.val + 1 = u.val))

end HelloNet
