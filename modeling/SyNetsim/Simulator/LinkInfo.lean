import Mathlib.Data.Rat.Defs
import SyNetsim.Simulator.RemoteConf

/-!
# The link table

`handle_link_info_msg` of `sim_remote_conf.c` and the handling of its commands in `simphy.c`: the
simulator keeps the state of every link and sends each configuration to the PHY, which keeps a
table of its own. The commands go over a message queue of bounded size. A command that the queue
refuses is lost, although the simulator has written it to its own table; a new PHY process starts
with a table in which all nodes are connected, and flushes the queue, while the simulator keeps
its table.

The simulator and the PHY take turns freely. One step of the simulator is one iteration of the
inner loop of `handle_link_info_msg`, and one step of the PHY is one call of `msgrcv`. As long as
no change of the table is lost on its way, and a new PHY finds the table as it was initialised,
both tables agree whenever the queue is empty (`LinkRun.tables_agree`).
-/

/-! ### Links -/

/-- A `PhyLinkConfig`. -/
structure PhyLinkConfig where
  nodeId1 : BitVec 8
  nodeId2 : BitVec 8
  los : BitVec 8
  pathlossX100 : BitVec 32
deriving DecidableEq

/-- A `SimLink`. -/
structure SimLink where
  los : ℤ
  pathlossX100 : BitVec 32
deriving DecidableEq

/-- The state of a link that a configuration gives. -/
def PhyLinkConfig.simLink (msg : PhyLinkConfig) : SimLink := ⟨msg.los.toNat, msg.pathlossX100⟩

/-- An array over pairs of nodes. -/
abbrev LinkArray (α : Type) : Type := ℕ → ℕ → α

/-- Write to an element of an array. -/
def LinkArray.set {α : Type} (links : LinkArray α) (i j : ℕ) (v : α) : LinkArray α :=
  Function.update links i (Function.update (links i) j v)

theorem LinkArray.set_apply {α : Type} (links : LinkArray α) (i j i' j' : ℕ) (v : α) :
  links.set i j v i' j' = if i' = i ∧ j' = j then v else links i' j'
  := by
  rw [LinkArray.set, Function.update_apply]
  by_cases hi : i' = i
  · subst hi
    simp [Function.update_apply]
  · simp [hi]

/-- The array `link` that `initialize_simulator_context` makes. -/
def initLink : LinkArray PhyLinkConfig := fun i j => ⟨.ofNat 8 i, .ofNat 8 j, 1, 0⟩

/-- `init_link_state`. -/
def initLinkState : LinkArray SimLink := fun _ _ => ⟨1, 0⟩

/-! ### The PHY -/

/-- What `handle_link_config_command` writes. -/
def setLinkState (links : LinkArray SimLink) (lmsg : PhyLinkConfig) : LinkArray SimLink :=
  (links.set lmsg.nodeId1.toNat lmsg.nodeId2.toNat lmsg.simLink).set
    lmsg.nodeId2.toNat lmsg.nodeId1.toNat lmsg.simLink

/-- `handle_link_config_command`. It gives `none` if there is no such node. -/
def handleLinkConfigCommand (links : LinkArray SimLink) (lmsg : PhyLinkConfig) :
    Option (LinkArray SimLink) :=
  if maxNodeId ≤ lmsg.nodeId1.toNat ∨ maxNodeId ≤ lmsg.nodeId2.toNat then none
  else some (setLinkState links lmsg)

/-- The PHY process: there is none; it has not come to `create_simphy_context`; it has its context
and is in `simphy_init_mq`, flushing the queue; it is in its main loop. -/
inductive SimPhy where
  | absent
  | starting
  | flushing (links : LinkArray SimLink)
  | running (links : LinkArray SimLink)

/-- The array `links` of the context, if there is a context. -/
def SimPhy.links : SimPhy → Option (LinkArray SimLink)
  | absent => none
  | starting => none
  | flushing links => some links
  | running links => some links

/-! ### The simulator -/

/-- `send_mq` to a queue with room for `cap` messages: what it returns, and the queue after it. -/
def sendMq (cap : ℕ) (queue : List PhyLinkConfig) (msg : PhyLinkConfig) : ℤ × List PhyLinkConfig :=
  if queue.length < cap then (1, queue ++ [msg])
  else (0, queue)

/-- An element of the array `links` of a `LinkInfo` message with the nodes it is for, `none` if it
is not a number. -/
structure LinkEntry where
  node1 : ℕ
  node2 : ℕ
  link : Option ℚ
deriving DecidableEq

/-- The elements of a `LinkInfo` message in the order of the loops of `handle_link_info_msg`. -/
def linkEntries (links : List (List (Option ℚ))) : List LinkEntry :=
  (links.mapIdx (fun node1 row => row.mapIdx (fun k link =>
    ⟨node1, node1 + 1 + k, link⟩))).flatten

/-- The configuration that the number `linkval` gives to a link. -/
def linkConfig (node1 node2 : ℕ) (linkval : ℚ) : PhyLinkConfig where
  nodeId1 := .ofNat 8 node1
  nodeId2 := .ofNat 8 node2
  los := if linkval > 1000 then 0 else 1
  pathlossX100 := 0

/-- The simulator, the PHY, and the queue of commands between them. The handler of a `LinkInfo`
message has a local variable `msg` and the elements still to go through. -/
structure LinkRun where
  link : LinkArray PhyLinkConfig
  msg : PhyLinkConfig
  todo : List LinkEntry
  phyCommand : List PhyLinkConfig
  phy : SimPhy

/-- What happens: a `LinkInfo` message comes, where `msg` is what the local variable of its handler
holds uninitialised; the handler goes through the next element; a `Start` message comes; the PHY
takes its next step. -/
inductive LinkEvent where
  | linkInfo (links : List (List (Option ℚ))) (msg : PhyLinkConfig)
  | entry
  | start
  | phy

namespace LinkRun

/-- Write the configuration `msg` to the table, as `handle_link_info_msg` does. -/
def updateLink (run : LinkRun) (i j : ℕ) (msg : PhyLinkConfig) : LinkArray PhyLinkConfig :=
  let old := run.link i j
  if old.los ≠ msg.los ∨ old.pathlossX100 ≠ msg.pathlossX100 then
    run.link.set i j { old with los := msg.los, pathlossX100 := msg.pathlossX100 }
  else run.link

/-- The inner loop of `handle_link_info_msg` for one element. An element that is not a number
leaves the table alone, and `msg` is sent as it is. It gives `none` if there is no such node. -/
def handleLinkEntry (cap : ℕ) (run : LinkRun) (entry : LinkEntry) : Option LinkRun :=
  match entry.link with
  | none => some { run with phyCommand := (sendMq cap run.phyCommand run.msg).2 }
  | some linkval =>
      if maxNodeId ≤ entry.node1 ∨ maxNodeId ≤ entry.node2 then none
      else
        let msg := linkConfig entry.node1 entry.node2 linkval
        some { run with
          link := run.updateLink entry.node1 entry.node2 msg
          msg := msg
          phyCommand := (sendMq cap run.phyCommand msg).2 }

/-- The next step of the PHY: it creates its context, receives a message in `mq_flush`, or
receives a command in `recv_command`. -/
def phyStep (run : LinkRun) : Option LinkRun :=
  match run.phy with
  | .absent => none
  | .starting => some { run with phy := .flushing initLinkState }
  | .flushing links =>
      match run.phyCommand with
      | [] => some { run with phy := .running links }
      | _ :: cmds => some { run with phyCommand := cmds }
  | .running links =>
      match run.phyCommand with
      | [] => some run
      | cmd :: cmds => do
          let links ← handleLinkConfigCommand links cmd
          return { run with phyCommand := cmds, phy := .running links }

/-- What an event does. The simulator handles one message after the other. -/
def step (cap : ℕ) (run : LinkRun) : LinkEvent → Option LinkRun
  | .linkInfo links msg =>
      match run.todo with
      | [] => some { run with msg := msg, todo := linkEntries links }
      | _ :: _ => none
  | .entry =>
      match run.todo with
      | [] => none
      | entry :: todo => do
          let run ← run.handleLinkEntry cap entry
          return { run with todo := todo }
  | .start =>
      match run.todo with
      | [] => some { run with phy := .starting }
      | _ :: _ => none
  | .phy => run.phyStep

/-- The context of the simulator has just been initialised, and there is no PHY. -/
def init (msg : PhyLinkConfig) : LinkRun where
  link := initLink
  msg := msg
  todo := []
  phyCommand := []
  phy := .absent

/-- The nodes of a `LinkInfo` message are in range. -/
def InRange : LinkEvent → Prop
  | .linkInfo links _ => ∀ entry ∈ linkEntries links, entry.node2 < maxNodeId
  | _ => True

/-- The element `entry` is a number that changes the state of its link. -/
def Changes (run : LinkRun) (entry : LinkEntry) : Prop :=
  ∃ linkval, entry.link = some linkval ∧
    (linkConfig entry.node1 entry.node2 linkval).simLink ≠
      (run.link entry.node1 entry.node2).simLink

/-- A command sent now will not be lost: the PHY does not flush the queue, and the queue has
room. As long as the PHY has no context nothing can be lost. -/
def Arrives (cap : ℕ) (run : LinkRun) : Prop :=
  match run.phy with
  | .absent => True
  | .starting => True
  | .flushing _ => False
  | .running _ => run.phyCommand.length < cap

/-- The condition for the tables to agree: the first element of a `LinkInfo` message is a number;
an element that changes the table is sent to the PHY without being lost; and a PHY creates its
context only when all links of the simulator are in their initial state. -/
def Keeps (cap : ℕ) (run : LinkRun) : LinkEvent → Prop
  | .linkInfo links _ => ∀ entry ∈ (linkEntries links).head?, entry.link ≠ none
  | .entry => ∀ entry ∈ run.todo.head?, run.Changes entry → run.Arrives cap
  | .start => True
  | .phy =>
      match run.phy with
      | .starting => ∀ j < maxNodeId, ∀ i < j, (run.link i j).simLink = ⟨1, 0⟩
      | _ => True

/-- The tables of the PHY and the simulator agree, if the PHY has one. -/
def TablesAgree (run : LinkRun) : Prop :=
  ∀ links ∈ run.phy.links, ∀ j < maxNodeId, ∀ i < j,
    links i j = (run.link i j).simLink ∧ links j i = (run.link i j).simLink

end LinkRun

/-! ### Tables -/

/-- The table of the PHY is the table of the simulator in both directions. -/
def Matches (links : LinkArray SimLink) (link : LinkArray PhyLinkConfig) : Prop :=
  ∀ j < maxNodeId, ∀ i < j,
    links i j = (link i j).simLink ∧ links j i = (link i j).simLink

theorem setLinkState_apply (links : LinkArray SimLink) (lmsg : PhyLinkConfig) (i j : ℕ) :
  setLinkState links lmsg i j =
    if i = lmsg.nodeId2.toNat ∧ j = lmsg.nodeId1.toNat ∨
      i = lmsg.nodeId1.toNat ∧ j = lmsg.nodeId2.toNat then lmsg.simLink
    else links i j
  := by
  rw [setLinkState, LinkArray.set_apply, LinkArray.set_apply, ite_or]

/-- Tables that match still do when the same link is set in both. -/
theorem Matches.set {links : LinkArray SimLink} {link link' : LinkArray PhyLinkConfig}
    {msg : PhyLinkConfig} (h : Matches links link) (hmsg : msg.nodeId1.toNat < msg.nodeId2.toNat)
    (hlink : ∀ i j, (link' i j).simLink =
      if i = msg.nodeId1.toNat ∧ j = msg.nodeId2.toNat then msg.simLink else (link i j).simLink) :
  Matches (setLinkState links msg) link'
  := by
  intro j hj i hij
  rw [setLinkState_apply, setLinkState_apply, hlink]
  -- as `i < j`, only the first of the two ways to meet the link remains
  have hback : ¬ (i = msg.nodeId2.toNat ∧ j = msg.nodeId1.toNat) := by omega
  by_cases hsame : i = msg.nodeId1.toNat ∧ j = msg.nodeId2.toNat
  · rw [if_pos (Or.inr hsame), if_pos (Or.inl hsame.symm), if_pos hsame]
    exact ⟨rfl, rfl⟩
  · have hne : ¬ (j = msg.nodeId2.toNat ∧ i = msg.nodeId1.toNat) := fun heq => hsame heq.symm
    have hback' : ¬ (j = msg.nodeId1.toNat ∧ i = msg.nodeId2.toNat) := fun heq => hback heq.symm
    rw [if_neg (not_or.mpr ⟨hback, hsame⟩), if_neg (not_or.mpr ⟨hne, hback'⟩), if_neg hsame]
    apply h j hj i hij

theorem Matches.congr {links : LinkArray SimLink} {link link' : LinkArray PhyLinkConfig}
    (h : Matches links link) (hlink : ∀ i j, (link' i j).simLink = (link i j).simLink) :
  Matches links link'
  := by
  intro j hj i hij
  rw [hlink]
  apply h j hj i hij

/-- The first node of an element comes before the second. -/
theorem linkEntries_lt {links : List (List (Option ℚ))} {entry : LinkEntry}
    (h : entry ∈ linkEntries links) :
  entry.node1 < entry.node2
  := by
  rw [linkEntries, List.mem_flatten] at h
  obtain ⟨row, hrow, hentry⟩ := h
  obtain ⟨node1, hnode1, rfl⟩ := List.mem_mapIdx.mp hrow
  obtain ⟨k, hk, rfl⟩ := List.mem_mapIdx.mp hentry
  simp only
  omega

namespace LinkRun

/-- Writing a configuration changes the state of its link only. -/
theorem updateLink_simLink (run : LinkRun) (i j : ℕ) (msg : PhyLinkConfig) (i' j' : ℕ) :
  (run.updateLink i j msg i' j').simLink =
    if i' = i ∧ j' = j then msg.simLink else (run.link i' j').simLink
  := by
  simp only [updateLink]
  split_ifs with hchanged hlink hlink
  · rw [LinkArray.set_apply, if_pos hlink]
    rfl
  · rw [LinkArray.set_apply, if_neg hlink]
  · obtain ⟨rfl, rfl⟩ := hlink
    obtain ⟨hlos, hpathloss⟩ := not_or.mp hchanged
    rw [PhyLinkConfig.simLink, PhyLinkConfig.simLink, not_not.mp hlos, not_not.mp hpathloss]
  · rfl

/-! ### What is kept true -/

/-- The configuration `msg` is for a link that there is. -/
def IsLink (msg : PhyLinkConfig) : Prop :=
  msg.nodeId1.toNat < msg.nodeId2.toNat ∧ msg.nodeId2.toNat < maxNodeId

/-- The variable `msg` holds what the table has for its link. -/
def MsgInTable (run : LinkRun) : Prop :=
  IsLink run.msg ∧
    (run.link run.msg.nodeId1.toNat run.msg.nodeId2.toNat).simLink = run.msg.simLink

/-- What is kept true: commands and elements are for links that there are; `msg` has been written
before it is sent; and once its commands are processed, the table of the PHY is that of the
simulator. -/
structure Inv (run : LinkRun) : Prop where
  commands : ∀ cmd ∈ run.phyCommand, IsLink cmd
  todo : ∀ entry ∈ run.todo, entry.node1 < entry.node2 ∧ entry.node2 < maxNodeId
  msg : (∀ entry ∈ run.todo.head?, entry.link ≠ none) ∨ run.MsgInTable
  flushing : ∀ links, run.phy = .flushing links → Matches links run.link
  running : ∀ links, run.phy = .running links →
    Matches (run.phyCommand.foldl setLinkState links) run.link

theorem init_inv (msg : PhyLinkConfig) :
  (init msg).Inv
  := by
  refine ⟨?_, ?_, Or.inl ?_, ?_, ?_⟩
  · intro cmd hcmd
    contradiction
  · intro entry hentry
    contradiction
  · intro entry hentry
    contradiction
  · intro links hlinks
    contradiction
  · intro links hlinks
    contradiction

/-- Sending the configuration of a link that has been written to the table keeps the tables
together, unless the command changes the link and is lost. -/
theorem Inv.send {run : LinkRun} (h : run.Inv) {cap : ℕ} {msg : PhyLinkConfig}
    {link' : LinkArray PhyLinkConfig} {todo : List LinkEntry} (hmsg : IsLink msg)
    (hlink : ∀ i j, (link' i j).simLink =
      if i = msg.nodeId1.toNat ∧ j = msg.nodeId2.toNat then msg.simLink
      else (run.link i j).simLink)
    (hlost : msg.simLink ≠ (run.link msg.nodeId1.toNat msg.nodeId2.toNat).simLink →
      run.Arrives cap)
    (htodo : ∀ entry ∈ todo, entry ∈ run.todo) :
  Inv ⟨link', msg, todo, (sendMq cap run.phyCommand msg).2, run.phy⟩
  := by
  have hsame : ¬ run.Arrives cap → ∀ i j, (link' i j).simLink = (run.link i j).simLink := by
    intro hnot i j
    rw [hlink]
    split_ifs with hij
    · obtain ⟨rfl, rfl⟩ := hij
      by_contra hne
      apply hnot (hlost hne)
    · rfl
  refine ⟨?_, fun entry hentry => h.todo entry (htodo entry hentry), Or.inr ⟨hmsg, ?_⟩, ?_, ?_⟩
  · intro cmd hcmd
    simp only [sendMq] at hcmd
    split_ifs at hcmd
    · rcases List.mem_append.mp hcmd with hcmd | hcmd
      · apply h.commands cmd hcmd
      · rw [List.mem_singleton.mp hcmd]
        apply hmsg
    · apply h.commands cmd hcmd
  · rw [hlink, if_pos ⟨rfl, rfl⟩]
  · intro links hlinks
    have hnot : ¬ run.Arrives cap := by
      rw [Arrives, hlinks]
      apply not_false
    apply (h.flushing links hlinks).congr (hsame hnot)
  · intro links hlinks
    have hroom : run.Arrives cap ↔ run.phyCommand.length < cap := by
      rw [Arrives, hlinks]
    simp only [sendMq]
    split_ifs with hcap
    · simp only [List.foldl_append, List.foldl_cons, List.foldl_nil]
      apply (h.running links hlinks).set hmsg.1 hlink
    · apply (h.running links hlinks).congr (hsame (fun harrives => hcap (hroom.mp harrives)))

/-- An element keeps the invariant. -/
theorem Inv.entry {run run' : LinkRun} {cap : ℕ} (h : run.Inv) (hkeeps : run.Keeps cap .entry)
    (hstep : run.step cap .entry = some run') :
  run'.Inv
  := by
  rw [step] at hstep
  cases htodo : run.todo with
  | nil =>
      simp only [htodo] at hstep
      contradiction
  | cons entry todo =>
      have hrest : ∀ e ∈ todo, e ∈ run.todo := by
        intro e he
        rw [htodo]
        apply List.mem_cons_of_mem entry he
      have hentry := h.todo entry (by rw [htodo]; apply List.mem_cons_self)
      have hhead : entry ∈ run.todo.head? := by
        rw [htodo]
        rfl
      simp only [htodo] at hstep
      obtain ⟨run₁, hrun₁, hrun'⟩ := Option.bind_eq_some_iff.mp hstep
      obtain rfl := Option.some.inj hrun'
      rw [handleLinkEntry] at hrun₁
      cases hlinkval : entry.link with
      | none =>
          simp only [hlinkval] at hrun₁
          obtain rfl := Option.some.inj hrun₁
          obtain ⟨hmsg, htable⟩ : run.MsgInTable := by
            rcases h.msg with hnumber | hmsg
            · apply absurd hlinkval (hnumber entry hhead)
            · apply hmsg
          apply h.send hmsg _ (fun hne => absurd htable.symm hne) hrest
          intro i j
          split_ifs with hij
          · obtain ⟨rfl, rfl⟩ := hij
            apply htable
          · rfl
      | some linkval =>
          simp only [hlinkval] at hrun₁
          split_ifs at hrun₁
          obtain rfl := Option.some.inj hrun₁
          have hlt : maxNodeId < 2 ^ 8 := by decide
          have hnode1 : (BitVec.ofNat 8 entry.node1).toNat = entry.node1 :=
            toNat_ofNat_of_lt (by omega)
          have hnode2 : (BitVec.ofNat 8 entry.node2).toNat = entry.node2 :=
            toNat_ofNat_of_lt (by omega)
          have hmsg : IsLink (linkConfig entry.node1 entry.node2 linkval) := by
            simp only [IsLink, linkConfig, hnode1, hnode2]
            apply hentry
          apply h.send hmsg _ _ hrest
          · intro i j
            simp only [linkConfig, hnode1, hnode2]
            apply updateLink_simLink
          · intro hne
            simp only [linkConfig, hnode1, hnode2] at hne
            apply hkeeps entry hhead ⟨linkval, hlinkval, hne⟩

/-- A step of the PHY keeps the invariant. -/
theorem Inv.phyStep {run run' : LinkRun} {cap : ℕ} (h : run.Inv) (hkeeps : run.Keeps cap .phy)
    (hstep : run.phyStep = some run') :
  run'.Inv
  := by
  obtain ⟨link, msg, todo, commands, phy⟩ := run
  cases phy with
  | absent => contradiction
  | starting =>
      obtain rfl := Option.some.inj hstep
      refine ⟨h.commands, h.todo, h.msg, ?_, ?_⟩
      · intro links hlinks
        obtain rfl := SimPhy.flushing.inj hlinks
        intro j hj i hij
        rw [hkeeps j hj i hij]
        exact ⟨rfl, rfl⟩
      · intro links hlinks
        contradiction
  | flushing links =>
      have hlinks := h.flushing links rfl
      cases commands with
      | nil =>
          obtain rfl := Option.some.inj hstep
          refine ⟨h.commands, h.todo, h.msg, ?_, ?_⟩
          · intro links' hlinks'
            contradiction
          · intro links' hlinks'
            obtain rfl := SimPhy.running.inj hlinks'
            apply hlinks
      | cons cmd cmds =>
          obtain rfl := Option.some.inj hstep
          refine ⟨?_, h.todo, h.msg, h.flushing, ?_⟩
          · intro c hc
            apply h.commands c (List.mem_cons_of_mem cmd hc)
          · intro links' hlinks'
            contradiction
  | running links =>
      have hlinks := h.running links rfl
      cases commands with
      | nil =>
          obtain rfl := Option.some.inj hstep
          apply h
      | cons cmd cmds =>
          obtain ⟨links', hlinks', hrun'⟩ := Option.bind_eq_some_iff.mp hstep
          obtain rfl := Option.some.inj hrun'
          rw [handleLinkConfigCommand] at hlinks'
          split_ifs at hlinks'
          obtain rfl := Option.some.inj hlinks'
          refine ⟨?_, h.todo, h.msg, ?_, ?_⟩
          · intro c hc
            apply h.commands c (List.mem_cons_of_mem cmd hc)
          · intro links'' hlinks''
            contradiction
          · intro links'' hlinks''
            obtain rfl := SimPhy.running.inj hlinks''
            apply hlinks

theorem Inv.step {run run' : LinkRun} {cap : ℕ} {e : LinkEvent} (h : run.Inv) (hrange : InRange e)
    (hkeeps : run.Keeps cap e) (hstep : run.step cap e = some run') :
  run'.Inv
  := by
  cases e with
  | linkInfo links msg =>
      obtain ⟨link, msg', todo, commands, phy⟩ := run
      cases todo with
      | nil =>
          obtain rfl := Option.some.inj hstep
          refine ⟨h.commands, ?_, Or.inl hkeeps, h.flushing, h.running⟩
          intro entry hentry
          exact ⟨linkEntries_lt hentry, hrange entry hentry⟩
      | cons entry todo => contradiction
  | entry => apply h.entry hkeeps hstep
  | start =>
      obtain ⟨link, msg, todo, commands, phy⟩ := run
      cases todo with
      | nil =>
          obtain rfl := Option.some.inj hstep
          refine ⟨h.commands, h.todo, h.msg, ?_, ?_⟩
          · intro links hlinks
            contradiction
          · intro links hlinks
            contradiction
      | cons entry todo => contradiction
  | phy => apply h.phyStep hkeeps hstep

/-- In every run with nodes in range and the condition met at every step, the tables of the
simulator and the PHY agree whenever no command is in the queue. -/
theorem tables_agree {cap : ℕ} {msg : PhyLinkConfig} {run : LinkRun}
    (h : Reaches (LinkRun.step cap) (fun run e => InRange e ∧ run.Keeps cap e) (init msg) run)
    (hempty : run.phyCommand = []) :
  run.TablesAgree
  := by
  have hinv : run.Inv :=
    h.invariant (fun _ _ _ hs hok hstep => hs.step hok.1 hok.2 hstep) (init_inv msg)
  intro links hlinks
  cases hphy : run.phy with
  | absent =>
      rw [hphy] at hlinks
      contradiction
  | starting =>
      rw [hphy] at hlinks
      contradiction
  | flushing links' =>
      rw [hphy] at hlinks
      obtain rfl := Option.some.inj hlinks
      apply hinv.flushing _ hphy
  | running links' =>
      rw [hphy] at hlinks
      obtain rfl := Option.some.inj hlinks
      have hrunning := hinv.running _ hphy
      rw [hempty] at hrunning
      apply hrunning

/-! ### A restart -/

instance (e : LinkEvent) : Decidable (InRange e) :=
  match e with
  | .linkInfo links _ =>
      inferInstanceAs (Decidable (∀ entry ∈ linkEntries links, entry.node2 < maxNodeId))
  | .entry => .isTrue trivial
  | .start => .isTrue trivial
  | .phy => .isTrue trivial

instance (run : LinkRun) (entry : LinkEntry) : Decidable (run.Changes entry) :=
  match h : entry.link with
  | none => .isFalse (by rintro ⟨linkval, hlinkval, -⟩; rw [h] at hlinkval; contradiction)
  | some linkval =>
      decidable_of_iff ((linkConfig entry.node1 entry.node2 linkval).simLink ≠
        (run.link entry.node1 entry.node2).simLink) (by simp [Changes, h])

instance (cap : ℕ) (run : LinkRun) : Decidable (run.Arrives cap) :=
  match h : run.phy with
  | .absent => .isTrue (by rw [Arrives, h]; trivial)
  | .starting => .isTrue (by rw [Arrives, h]; trivial)
  | .flushing _ => .isFalse (by rw [Arrives, h]; apply not_false)
  | .running _ => decidable_of_iff (run.phyCommand.length < cap) (by rw [Arrives, h])

instance (cap : ℕ) (run : LinkRun) (e : LinkEvent) : Decidable (run.Keeps cap e) :=
  match e with
  | .linkInfo links _ =>
      inferInstanceAs (Decidable (∀ entry ∈ (linkEntries links).head?, entry.link ≠ none))
  | .entry =>
      inferInstanceAs (Decidable (∀ entry ∈ run.todo.head?, run.Changes entry → run.Arrives cap))
  | .start => .isTrue trivial
  | .phy =>
      match h : run.phy with
      | .absent => .isTrue (by rw [Keeps, h]; trivial)
      | .starting => decidable_of_iff
          (∀ j < maxNodeId, ∀ i < j, (run.link i j).simLink = ⟨1, 0⟩) (by rw [Keeps, h])
      | .flushing _ => .isTrue (by rw [Keeps, h]; trivial)
      | .running _ => .isTrue (by rw [Keeps, h]; trivial)

/-- The PHY has its context, and no message has come. -/
def exampleStart : LinkRun := { init ⟨0, 0, 0, 0⟩ with phy := .flushing initLinkState }

theorem exampleStart_reached (cap : ℕ) :
  Reaches (LinkRun.step cap) (fun run e => InRange e ∧ run.Keeps cap e) (init ⟨0, 0, 0, 0⟩)
    exampleStart
  := by
  have hstart : Reaches (LinkRun.step cap) (fun run e => InRange e ∧ run.Keeps cap e)
      (init ⟨0, 0, 0, 0⟩) { init ⟨0, 0, 0, 0⟩ with phy := .starting } :=
    Reaches.refl.step (e := .start) ⟨trivial, trivial⟩ rfl
  apply hstart.step (e := .phy)
  · exact ⟨trivial, fun _ _ _ _ => rfl⟩
  · rfl

/-- The link of the nodes 0 and 1 goes down. The other element is not a number. -/
def exampleEvents : List LinkEvent :=
  [.phy, .linkInfo [[some 2000, none]] ⟨0, 0, 0, 0⟩, .entry, .phy, .entry, .phy]

/-- After that the PHY is started anew. -/
def restartEvents : List LinkEvent := exampleEvents ++ [.start, .phy, .phy]

theorem tables_agree_down :
  ∃ run, Reaches (LinkRun.step 1) (fun run e => InRange e ∧ run.Keeps 1 e)
      (init ⟨0, 0, 0, 0⟩) run ∧
    run.phyCommand = [] ∧ (run.link 0 1).los = 0 ∧ run.phy.links ≠ none ∧ run.TablesAgree
  := by
  have hrun : (exampleEvents.foldlM
      (fun run e => if decide (InRange e ∧ run.Keeps 1 e) then run.step 1 e else none)
      exampleStart).map
      (fun run => (run.phyCommand, (run.link 0 1).los, run.phy.links.isSome)) =
      some ([], 0, true) := by
    decide +kernel
  obtain ⟨run, hrun, hvalues⟩ := Option.map_eq_some_iff.mp hrun
  obtain ⟨hempty, hvalues⟩ := Prod.mk.inj hvalues
  obtain ⟨hlos, hlinks⟩ := Prod.mk.inj hvalues
  have hreach : Reaches (LinkRun.step 1) (fun run e => InRange e ∧ run.Keeps 1 e)
      (init ⟨0, 0, 0, 0⟩) run := by
    apply (exampleStart_reached 1).trans
    apply Reaches.of_checked (fun _ _ hcheck => of_decide_eq_true hcheck) hrun
  exact ⟨run, hreach, hempty, hlos, Option.isSome_iff_ne_none.mp hlinks,
    tables_agree hreach hempty⟩

/-- A new PHY process has all nodes connected, while the simulator keeps the link down. -/
theorem not_tables_agree :
  ¬ ∀ (cap : ℕ) (msg : PhyLinkConfig) (run : LinkRun),
    Reaches (LinkRun.step cap) (fun _ e => InRange e) (init msg) run →
    run.phyCommand = [] → run.TablesAgree
  := by
  intro hall
  have hrun : (restartEvents.foldlM
      (fun run e => if decide (InRange e) then run.step 1 e else none)
      exampleStart).map (fun run =>
        (run.phyCommand, (run.link 0 1).simLink, run.phy.links.map (fun links => links 0 1))) =
      some ([], ⟨0, 0⟩, some ⟨1, 0⟩) := by
    decide +kernel
  obtain ⟨run, hrun, hvalues⟩ := Option.map_eq_some_iff.mp hrun
  obtain ⟨hempty, hvalues⟩ := Prod.mk.inj hvalues
  obtain ⟨hlink, hlinks⟩ := Prod.mk.inj hvalues
  obtain ⟨links, hlinks, hone⟩ := Option.map_eq_some_iff.mp hlinks
  have hreach : Reaches (LinkRun.step 1) (fun _ e => InRange e) (init ⟨0, 0, 0, 0⟩) run := by
    apply ((exampleStart_reached 1).mono (fun _ _ hok => hok.1)).trans
    apply Reaches.of_checked (fun _ _ hcheck => of_decide_eq_true hcheck) hrun
  obtain ⟨hagree, -⟩ := hall 1 ⟨0, 0, 0, 0⟩ run hreach hempty links hlinks 1 (by decide) 0
    (by decide)
  rw [hone, hlink] at hagree
  contradiction

end LinkRun
