import SyNetsim.Lib.Medium
import SyNetsim.Lib.Run
import SyNetsim.Mq
import SyNetsim.Simulator.LinkInfo

/-!
# The way of a frame

A frame goes from the network layer of a node to its MAC (`simmac.c`), from there to the PHY
(`simphy.c`), which passes it to the MACs of the other nodes, and on to their network layers. All
of them are processes of their own, with message queues in between which can be full.

The processes take turns freely, and a step of a process is one call of `msgsnd` or `msgrcv`. The
queues live on when the processes are killed, so at the start they can hold messages of earlier
processes. It is shown that a node only ever receives frames that the other nodes have sent, from
each of them in order and none of them twice (`FrameNet.received_isMerge`). And when no queue is
full, it receives all frames of the nodes that it has a link with (`FrameNet.received_all`).
-/

/-- The number of a node for which there are processes. -/
abbrev Nid : Type := Fin maxNodeId

/-! ### The processes -/

/-- Where the MAC process of a node is: in `init_mq`, with queues that are still to be flushed;
before it sends its heartbeat; in `poll_mq`, about to receive from the network layer or the PHY,
or about to send a message on that it has received. -/
inductive SimMac where
  | initMq (todo : List MqDir)
  | heartbeat
  | recvNet
  | processNetMsg (msg : Mq.Msgbuf)
  | recvPhy
  | processPhyMsg (msg : Mq.Msgbuf)

/-- Where the network process of a node is: in `simnet_init_mq`, or in its main loop. -/
inductive SimNet where
  | initMq (todo : List MqDir)
  | running

/-- Where the PHY process is: in `simphy_init_mq`, flushing the queues of the MACs or the queue of
commands; in `recv_from_mac`, about to receive from the MAC of `nid`; in `process_mac_frame`, with
the nodes from `nid` on still to go through; in `recv_command`. -/
inductive SimPhyWork where
  | initMq (todo : List (MqDir × Nid))
  | flushCommand
  | recvFromMac (nid : ℕ)
  | processMacFrame (sender : Nid) (msg : Mq.Msgbuf) (nid : ℕ)
  | recvCommand

/-- The queues in the order of `init_mq`. -/
def macQueues : List MqDir := [.macToNet, .netToMac, .macToPhy, .phyToMac]

/-- The queues in the order of `simnet_init_mq`. -/
def netQueues : List MqDir := [.netToMac, .macToNet]

/-- The queues in the order of `simphy_init_mq`. -/
def phyQueues : List (MqDir × Nid) :=
  (List.finRange maxNodeId).flatMap (fun nid => [(.phyToMac, nid), (.macToPhy, nid)])

/-- All processes and the queues between them. What a network layer hands to `remote_send` and
what its `process_mac_msg` gets is recorded. -/
structure FrameNet where
  mqs : Mqs
  phyCommand : List PhyLinkConfig
  phy : SimPhyWork
  alive : Nid → ℤ
  links : LinkArray SimLink
  mac : Nid → SimMac
  net : Nid → SimNet
  sent : Nid → List (List Byte)
  received : Nid → List (List Byte)

/-- What happens: the PHY or a MAC takes its next step, a network layer takes its next step in
`simnet_init_mq`, sends a packet or calls `recv_mq`, or the simulator sends a link
configuration. -/
inductive FrameEvent where
  | phy
  | mac (nid : Nid)
  | netInit (nid : Nid)
  | netSend (nid : Nid) (data : List Byte)
  | netRecv (nid : Nid)
  | linkConfig (msg : PhyLinkConfig)

namespace FrameNet

/-! ### The steps -/

/-- The MAC of `nid` goes to `work`. -/
def setMac (s : FrameNet) (nid : Nid) (work : SimMac) : FrameNet :=
  { s with mac := Function.update s.mac nid work }

/-- The PHY goes to `work`. -/
def setPhy (s : FrameNet) (work : SimPhyWork) : FrameNet := { s with phy := work }

/-- The network layer of `nid` goes to `work`. -/
def setNet (s : FrameNet) (nid : Nid) (work : SimNet) : FrameNet :=
  { s with net := Function.update s.net nid work }

/-- The queues become `mqs`. -/
def setMqs (s : FrameNet) (mqs : Mqs) : FrameNet := { s with mqs := mqs }

/-- `sendto_phy`, `sendto_net`, `send_to_mac` and `sendto_mac`: `send_mq` to a queue of `nid`. What
it returns is only reported. -/
def send (qbytes : ℕ) (s : FrameNet) (dir : MqDir) (nid : ℕ) (data : List Byte) (type : ℤ) :
    Option FrameNet := do
  let (_, mqs) ← s.mqs.sendMq qbytes (mqKey dir nid) data type
  return s.setMqs mqs

/-- The next step of the MAC of `nid`. -/
def macStep (qbytes : ℕ) (s : FrameNet) (nid : Nid) : Option FrameNet :=
  match s.mac nid with
  | .initMq [] => some (s.setMac nid .heartbeat)
  | .initMq (dir :: todo) =>
      match s.mqs.recvMq (mqKey dir nid) with
      | none => some (s.setMac nid (.initMq todo))
      | some (_, mqs) => some (s.setMqs mqs)
  | .heartbeat => do
      let s ← s.send qbytes .macToPhy nid [] messageTypeHeartbeat
      return s.setMac nid .recvNet
  | .recvNet =>
      match s.mqs.recvMq (mqKey .netToMac nid) with
      | none => some (s.setMac nid .recvPhy)
      | some (msg, mqs) => some ((s.setMqs mqs).setMac nid (.processNetMsg msg))
  | .processNetMsg msg => do
      let s ← s.send qbytes .macToPhy nid msg.text messageTypeData
      return s.setMac nid .recvNet
  | .recvPhy =>
      match s.mqs.recvMq (mqKey .phyToMac nid) with
      | none => some (s.setMac nid .recvNet)
      | some (msg, mqs) => some ((s.setMqs mqs).setMac nid (.processPhyMsg msg))
  | .processPhyMsg msg => do
      let s ← s.send qbytes .macToNet nid msg.text messageTypeData
      return s.setMac nid .recvPhy

/-- What `recv_from_mac` does with a message: from now on the node is alive, and data is handed to
`process_mac_frame`. Other types are only reported. -/
def handleMacMsg (s : FrameNet) (nid : Nid) (msg : Mq.Msgbuf) : FrameNet :=
  { s with
    alive := Function.update s.alive nid 1
    phy := if msg.type = messageTypeData then .processMacFrame nid msg 0 else .recvFromMac nid }

/-- The next step of the PHY. It gives `none` if a link is configured for a node that there is
not. -/
def phyStep (qbytes : ℕ) (s : FrameNet) : Option FrameNet :=
  match s.phy with
  | .initMq [] => some (s.setPhy .flushCommand)
  | .initMq ((dir, nid) :: todo) =>
      match s.mqs.recvMq (mqKey dir nid) with
      | none => some (s.setPhy (.initMq todo))
      | some (_, mqs) => some (s.setMqs mqs)
  | .flushCommand =>
      match s.phyCommand with
      | [] => some (s.setPhy (.recvFromMac 0))
      | _ :: cmds => some { s with phyCommand := cmds }
  | .recvFromMac nid =>
      if h : nid < maxNodeId then
        match s.mqs.recvMq (mqKey .macToPhy nid) with
        | none => some (s.setPhy (.recvFromMac (nid + 1)))
        | some (msg, mqs) => some ((s.setMqs mqs).handleMacMsg ⟨nid, h⟩ msg)
      else some (s.setPhy .recvCommand)
  | .processMacFrame sender msg nid =>
      if h : nid < maxNodeId then
        if sender.val ≠ nid ∧ s.alive ⟨nid, h⟩ = 1 ∧ (s.links sender nid).los = 1 then do
          let s ← s.send qbytes .phyToMac nid msg.text messageTypeData
          return s.setPhy (.processMacFrame sender msg (nid + 1))
        else some (s.setPhy (.processMacFrame sender msg (nid + 1)))
      else some (s.setPhy (.recvFromMac sender))
  | .recvCommand =>
      match s.phyCommand with
      | [] => some (s.setPhy (.recvFromMac 0))
      | cmd :: cmds => do
          let links ← handleLinkConfigCommand s.links cmd
          return { s with phyCommand := cmds, links := links }

/-- The next step of the network layer of `nid` in `simnet_init_mq`. -/
def netInit (s : FrameNet) (nid : Nid) : Option FrameNet :=
  match s.net nid with
  | .initMq [] => some (s.setNet nid .running)
  | .initMq (dir :: todo) =>
      match s.mqs.recvMq (mqKey dir nid) with
      | none => some (s.setNet nid (.initMq todo))
      | some (_, mqs) => some (s.setMqs mqs)
  | .running => none

/-- `remote_send`, which the network layer of `nid` calls when it likes. -/
def remoteSend (qbytes : ℕ) (s : FrameNet) (nid : Nid) (data : List Byte) : Option FrameNet :=
  match s.net nid with
  | .initMq _ => none
  | .running => do
      let s ← s.send qbytes .netToMac nid data messageTypeData
      return { s with sent := Function.update s.sent nid (s.sent nid ++ [data]) }

/-- What `recvfrom_mac` does with a message: data is handed to `process_mac_msg`, and other types
are only reported. -/
def processMacMsg (s : FrameNet) (nid : Nid) (msg : Mq.Msgbuf) : FrameNet :=
  if msg.type = messageTypeData then
    { s with received := Function.update s.received nid (s.received nid ++ [msg.text]) }
  else s

/-- An iteration of `recvfrom_mac`. -/
def recvfromMac (s : FrameNet) (nid : Nid) : Option FrameNet :=
  match s.net nid with
  | .initMq _ => none
  | .running =>
      match s.mqs.recvMq (mqKey .macToNet nid) with
      | none => some s
      | some (msg, mqs) => some ((s.setMqs mqs).processMacMsg nid msg)

/-- What an event does. -/
def step (qbytes cap : ℕ) (s : FrameNet) : FrameEvent → Option FrameNet
  | .phy => s.phyStep qbytes
  | .mac nid => s.macStep qbytes nid
  | .netInit nid => s.netInit nid
  | .netSend nid data => s.remoteSend qbytes nid data
  | .netRecv nid => s.recvfromMac nid
  | .linkConfig msg => some { s with phyCommand := (sendMq cap s.phyCommand msg).2 }

/-- All processes have just been started. The queues hold what earlier processes left there. -/
structure Starts (s : FrameNet) : Prop where
  phy : s.phy = .initMq phyQueues
  alive : ∀ nid, s.alive nid = 0
  links : s.links = initLinkState
  mac : ∀ nid, s.mac nid = .initMq macQueues
  net : ∀ nid, s.net nid = .initMq netQueues
  sent : ∀ nid, s.sent nid = []
  received : ∀ nid, s.received nid = []

/-! ### Where the frames are -/

end FrameNet

/-- The queues that a MAC has still to flush. -/
def SimMac.todo : SimMac → List MqDir
  | initMq todo => todo
  | _ => []

/-- The message from the network layer that a MAC has in hand. -/
def SimMac.fromNet : SimMac → List (List Byte)
  | processNetMsg msg => [msg.text]
  | _ => []

/-- The message from the PHY that a MAC has in hand. -/
def SimMac.fromPhy : SimMac → List (List Byte)
  | processPhyMsg msg => [msg.text]
  | _ => []

/-- The queues that a network layer has still to flush. -/
def SimNet.todo : SimNet → List MqDir
  | initMq todo => todo
  | running => []

/-- The queues that the PHY has still to flush. -/
def SimPhyWork.todo : SimPhyWork → List (MqDir × Nid)
  | initMq todo => todo
  | _ => []

/-- The frame of the node `i` that the PHY has in hand and has yet to send to the node `j`. -/
def SimPhyWork.frame (phy : SimPhyWork) (i j : Nid) : List (List Byte) :=
  match phy with
  | processMacFrame sender msg nid => if sender = i ∧ nid ≤ j then [msg.text] else []
  | _ => []

/-- The frame that the PHY has in hand. -/
def SimPhyWork.inHand : SimPhyWork → List (List Byte)
  | processMacFrame _ msg _ => [msg.text]
  | _ => []

theorem SimPhyWork.frame_eq_nil {phy : SimPhyWork} (h : phy.inHand = []) (i j : Nid) :
  phy.frame i j = []
  := by
  cases phy with
  | processMacFrame sender msg nid => cases h
  | _ => rfl

/-- The texts of messages. -/
def texts (msgs : List Mq.Msgbuf) : List (List Byte) := msgs.map Mq.Msgbuf.text

/-- The texts of the messages that are data. -/
def dataTexts (msgs : List Mq.Msgbuf) : List (List Byte) :=
  texts (msgs.filter (fun msg => msg.type = messageTypeData))

namespace FrameNet

/-- The process that receives from the queue has still to flush it. -/
def Unflushed (s : FrameNet) : MqDir → Nid → Prop
  | .netToMac, nid => .netToMac ∈ (s.mac nid).todo
  | .phyToMac, nid => .phyToMac ∈ (s.mac nid).todo
  | .macToPhy, nid => (.macToPhy, nid) ∈ s.phy.todo
  | .macToNet, nid => .macToNet ∈ (s.net nid).todo

instance (s : FrameNet) (dir : MqDir) (nid : Nid) : Decidable (s.Unflushed dir nid) := by
  cases dir <;> rw [Unflushed] <;> infer_instance

/-- The messages in a queue that will be received. What is there before the queue is flushed will
not be. -/
def chan (s : FrameNet) (dir : MqDir) (nid : Nid) : List Mq.Msgbuf :=
  if s.Unflushed dir nid then [] else s.mqs (mqKey dir nid)

/-- The frames of the node `i` on the way to the PHY, the first one at the head. -/
def up (s : FrameNet) (i : Nid) : List (List Byte) :=
  dataTexts (s.chan .macToPhy i) ++ ((s.mac i).fromNet ++ texts (s.chan .netToMac i))

/-- The frames of the node `i` that have yet to be sent to the node `j`. -/
def ahead (s : FrameNet) (i j : Nid) : List (List Byte) := s.phy.frame i j ++ s.up i

/-- The frames that the node `j` has received, and those on the way from the PHY to it. -/
def down (s : FrameNet) (j : Nid) : List (List Byte) :=
  s.received j ++
    (dataTexts (s.chan .macToNet j) ++ ((s.mac j).fromPhy ++ texts (s.chan .phyToMac j)))

/-- The processes as a medium for frames. -/
def medium (s : FrameNet) : Medium Nid (List Byte) := ⟨s.sent, s.ahead, s.down⟩

/-! ### Which frames are kept -/

/-- No frame of the node `i` that is meant for the node `j` is lost: both are among `nodes`, and
they are linked. -/
def Kept (linked : Nid → Nid → Prop) (nodes : Set Nid) (i j : Nid) : Prop :=
  i ∈ nodes ∧ j ∈ nodes ∧ i ≠ j ∧ linked i j

/-- The processes of `nodes`, and the PHY if there are any, have flushed their queues, and the PHY
has heard of `nodes`. -/
def Ready (nodes : Set Nid) (s : FrameNet) : Prop :=
  ∀ nid ∈ nodes, s.alive nid = 1 ∧ (s.mac nid).todo = [] ∧ (s.net nid).todo = [] ∧ s.phy.todo = []

/-- The key of the queue that a frame is sent to next, and the length of the frame. -/
def target (s : FrameNet) : FrameEvent → Option (ℕ × ℕ)
  | .phy =>
      match s.phy with
      | .processMacFrame _ msg nid => some (mqKey .phyToMac nid, msg.text.length)
      | _ => none
  | .mac nid =>
      match s.mac nid with
      | .processNetMsg msg => some (mqKey .macToPhy nid, msg.text.length)
      | .processPhyMsg msg => some (mqKey .macToNet nid, msg.text.length)
      | _ => none
  | .netSend nid data => some (mqKey .netToMac nid, data.length)
  | _ => none

/-- The queue that a frame is sent to next is not full. -/
def Accepts (qbytes : ℕ) (s : FrameNet) (e : FrameEvent) : Prop :=
  ∀ queue ∈ s.target e, HasRoom qbytes (s.mqs queue.1) queue.2

instance (qbytes : ℕ) (s : FrameNet) (e : FrameEvent) : Decidable (s.Accepts qbytes e) :=
  inferInstanceAs (Decidable (∀ queue ∈ s.target e, HasRoom qbytes (s.mqs queue.1) queue.2))

/-- If the PHY has a frame in hand, the node that sent it and the node whose turn it is. -/
def passing (s : FrameNet) : Option (Nid × Nid) :=
  match s.phy with
  | .processMacFrame sender _ nid =>
      if h : nid < maxNodeId then
        if sender.val ≠ nid then some (sender, ⟨nid, h⟩) else none
      else none
  | _ => none

/-- The condition on the steps of a run: a frame finds a link between linked nodes only; and if it
must not be lost, it does find one, and no queue is full. -/
structure Carries (qbytes : ℕ) (linked : Nid → Nid → Prop) (nodes : Set Nid) (s : FrameNet)
    (e : FrameEvent) : Prop where
  within : ∀ p ∈ s.passing, (s.links p.1 p.2).los = 1 → linked p.1 p.2
  keeps : ∀ p ∈ s.passing, Kept linked nodes p.1 p.2 → (s.links p.1 p.2).los = 1
  accepts : nodes.Nonempty → s.Accepts qbytes e

/-! ### Queues and steps -/

variable {s s' : FrameNet} {dir : MqDir} {nid : Nid}

theorem mqKey_inj_nid {dir' : MqDir} {i : Nid} :
  mqKey dir' i = mqKey dir nid ↔ dir' = dir ∧ i = nid
  := by
  have hi : i.val < 0x0100 := lt_trans i.isLt (by decide)
  have hnid : nid.val < 0x0100 := lt_trans nid.isLt (by decide)
  rw [mqKey_inj hi hnid, Fin.ext_iff]

theorem unflushed_congr (hmac : ∀ i, (s'.mac i).todo = (s.mac i).todo)
    (hnet : ∀ i, (s'.net i).todo = (s.net i).todo) (hphy : s'.phy.todo = s.phy.todo)
    (dir : MqDir) (i : Nid) :
  s'.Unflushed dir i ↔ s.Unflushed dir i
  := by
  cases dir <;> simp only [Unflushed, hmac, hnet, hphy]

/-- A step changes what will be received from a queue only if it writes to it, or flushes it. -/
theorem chan_congr (hmqs : s'.mqs = s.mqs) (h : s'.Unflushed dir nid ↔ s.Unflushed dir nid) :
  s'.chan dir nid = s.chan dir nid
  := by
  rw [chan, chan, hmqs]
  exact if_congr h rfl rfl

/-- What will be received after a queue was written to. -/
theorem chan_setMqs {mqs : Mqs} {queue : List Mq.Msgbuf}
    (hmqs : mqs = Function.update s.mqs (mqKey dir nid) queue) (dir' : MqDir) (i : Nid) :
  (s.setMqs mqs).chan dir' i =
    if dir' = dir ∧ i = nid then (if s.Unflushed dir nid then [] else queue) else s.chan dir' i
  := by
  have hun : (s.setMqs mqs).Unflushed dir' i ↔ s.Unflushed dir' i :=
    unflushed_congr (fun _ => rfl) (fun _ => rfl) rfl dir' i
  have hqueue : (s.setMqs mqs).mqs (mqKey dir' i) =
      if dir' = dir ∧ i = nid then queue else s.mqs (mqKey dir' i) := by
    rw [setMqs, hmqs]
    exact (Function.update_apply _ _ _ _).trans (if_congr mqKey_inj_nid rfl rfl)
  rw [chan, if_congr hun rfl rfl, hqueue, chan]
  by_cases hkey : dir' = dir ∧ i = nid
  · obtain ⟨rfl, rfl⟩ := hkey
    rw [if_pos (And.intro rfl rfl), if_pos (And.intro rfl rfl)]
  · rw [if_neg hkey, if_neg hkey]

/-- What will be received after a message was sent: it comes last, unless it will be flushed or
there was no room. -/
theorem send_spec {qbytes : ℕ} {data : List Byte} {type : ℤ} (htype : 0 < type)
    (h : s.send qbytes dir nid data type = some s') :
  (∃ mqs, s' = s.setMqs mqs) ∧
    (∀ dir' i, ¬ (dir' = dir ∧ i = nid) → s'.chan dir' i = s.chan dir' i) ∧
    ∃ msg : Mq.Msgbuf, msg.type = type ∧ msg.text = data ∧
      (s'.chan dir nid = s.chan dir nid ++ [msg] ∨ s'.chan dir nid = s.chan dir nid ∧
        (s.Unflushed dir nid ∨ ¬ HasRoom qbytes (s.mqs (mqKey dir nid)) data.length))
  := by
  obtain ⟨⟨res, mqs⟩, hsend, hs⟩ := Option.bind_eq_some_iff.mp h
  obtain rfl := Option.some.inj hs
  obtain ⟨msg, hmsgType, htext, rfl | ⟨rfl, hroom⟩⟩ := Mqs.sendMq_eq_some htype hsend
  · refine ⟨⟨_, rfl⟩, fun dir' i hne => ?_, msg, hmsgType, htext, ?_⟩
    · rw [chan_setMqs rfl, if_neg hne]
    rw [chan_setMqs rfl, if_pos ⟨rfl, rfl⟩, chan]
    by_cases hun : s.Unflushed dir nid
    · rw [if_pos hun, if_pos hun]
      exact Or.inr ⟨rfl, Or.inl hun⟩
    · rw [if_neg hun, if_neg hun]
      exact Or.inl rfl
  · exact ⟨⟨_, rfl⟩, fun _ _ _ => rfl, msg, hmsgType, htext, Or.inr ⟨rfl, Or.inr hroom⟩⟩

/-- What will be received after a message was received from a queue that is not to be flushed. -/
theorem chan_recv {msg : Mq.Msgbuf} {mqs : Mqs} (hun : ¬ s.Unflushed dir nid)
    (hrecv : s.mqs.recvMq (mqKey dir nid) = some (msg, mqs)) :
  s.chan dir nid = msg :: (s.setMqs mqs).chan dir nid ∧
    ∀ dir' i, ¬ (dir' = dir ∧ i = nid) → (s.setMqs mqs).chan dir' i = s.chan dir' i
  := by
  obtain ⟨msgs, hqueue, rfl⟩ := Mqs.recvMq_eq_some hrecv
  refine ⟨?_, fun dir' i hne => by rw [chan_setMqs rfl, if_neg hne]⟩
  rw [chan_setMqs rfl, if_pos ⟨rfl, rfl⟩, if_neg hun, chan, if_neg hun, hqueue]

/-- What will be received after a call of `msgrcv` in `mq_flush`: at most something in this queue is
lost. -/
theorem chan_flush {msg : Mq.Msgbuf} {mqs : Mqs}
    (hrecv : s.mqs.recvMq (mqKey dir nid) = some (msg, mqs)) (dir' : MqDir) (i : Nid) :
  Leaves (i ≠ nid) (s.chan dir' i) ((s.setMqs mqs).chan dir' i)
  := by
  obtain ⟨msgs, hqueue, rfl⟩ := Mqs.recvMq_eq_some hrecv
  rw [chan_setMqs rfl]
  split_ifs with hkey hun
  · exact ⟨List.nil_sublist _, fun hne => absurd hkey.2 hne⟩
  · obtain ⟨rfl, rfl⟩ := hkey
    refine ⟨?_, fun hne => absurd rfl hne⟩
    rw [chan, if_neg hun, hqueue]
    apply List.sublist_cons_self
  · apply Leaves.refl

/-- Once a queue is found empty it need not be flushed. -/
theorem chan_flushed (hrecv : s.mqs.recvMq (mqKey dir nid) = none)
    (h : ∀ dir' i, ¬ (dir' = dir ∧ i = nid) → (s'.Unflushed dir' i ↔ s.Unflushed dir' i))
    (hmqs : s'.mqs = s.mqs) (dir' : MqDir) (i : Nid) :
  s'.chan dir' i = s.chan dir' i
  := by
  by_cases hkey : dir' = dir ∧ i = nid
  · obtain ⟨rfl, rfl⟩ := hkey
    rw [chan, chan, hmqs, Mqs.recvMq_eq_none hrecv, ite_self, ite_self]
  · apply chan_congr hmqs (h dir' i hkey)

/-! ### Steps of the medium -/

variable {linked : Nid → Nid → Prop} {nodes : Set Nid} {j : Nid}

theorem Kept.mem (h : ∃ i, Kept linked nodes i j) :
  j ∈ nodes
  := by
  obtain ⟨_, _, hj, _⟩ := h
  apply hj

theorem texts_append (msgs msgs' : List Mq.Msgbuf) :
  texts (msgs ++ msgs') = texts msgs ++ texts msgs'
  := List.map_append

theorem dataTexts_append (msgs msgs' : List Mq.Msgbuf) :
  dataTexts (msgs ++ msgs') = dataTexts msgs ++ dataTexts msgs'
  := by
  rw [dataTexts, List.filter_append, texts_append]
  rfl

theorem dataTexts_data {msg : Mq.Msgbuf} (h : msg.type = messageTypeData) :
  dataTexts [msg] = [msg.text]
  := by
  rw [dataTexts, List.filter_cons_of_pos (by simpa using h)]
  rfl

theorem dataTexts_other {msg : Mq.Msgbuf} (h : msg.type ≠ messageTypeData) :
  dataTexts [msg] = []
  := by
  rw [dataTexts, List.filter_cons_of_neg (by simpa using h)]
  rfl

/-- A step in which nothing is passed on, told by the parts of the way. -/
theorem step_flow (new : Nid → List (List Byte)) (hsent : ∀ i, s'.sent i = s.sent i ++ new i)
    (hframe : ∀ i, Leaves (Kept linked nodes i j) (s.phy.frame i j) (s'.phy.frame i j))
    (hup : ∀ i, Leaves (i ∈ nodes) (s.up i ++ new i) (s'.up i))
    (hdown : Leaves (j ∈ nodes) (s.down j) (s'.down j)) :
  Medium.Step linked (Kept linked nodes) s.medium s'.medium j
  := by
  apply Medium.Step.flow new hsent
  · intro i
    have hi := (hup i).mono (fun h : Kept linked nodes i j => h.1)
    simp only [medium, ahead, List.append_assoc]
    apply (hframe i).append hi
  · apply hdown.mono Kept.mem

theorem Leaves.texts {kept : Prop} {msgs msgs' : List Mq.Msgbuf} (h : Leaves kept msgs msgs') :
  Leaves kept (texts msgs) (texts msgs')
  := ⟨h.1.map _, fun hkept => by rw [h.2 hkept]⟩

theorem Leaves.dataTexts {kept : Prop} {msgs msgs' : List Mq.Msgbuf} (h : Leaves kept msgs msgs') :
  Leaves kept (dataTexts msgs) (dataTexts msgs')
  := ⟨(h.1.filter _).map _, fun hkept => by rw [h.2 hkept]⟩

/-- A step in which at most messages in the queues are lost. -/
theorem step_lose
    (hchan : ∀ dir i, Leaves (i ∈ nodes) (s.chan dir i) (s'.chan dir i))
    (hnet : ∀ i, (s'.mac i).fromNet = (s.mac i).fromNet)
    (hphy : ∀ i, (s'.mac i).fromPhy = (s.mac i).fromPhy)
    (hframe : ∀ i, s'.phy.frame i j = s.phy.frame i j) (hsent : s'.sent = s.sent)
    (hreceived : s'.received = s.received) :
  Medium.Step linked (Kept linked nodes) s.medium s'.medium j
  := by
  apply step_flow (fun _ => [])
  · intro i
    rw [hsent, List.append_nil]
  · intro i
    apply Leaves.of_eq (hframe i)
  · intro i
    rw [List.append_nil, up, up, hnet]
    apply Leaves.append (Leaves.dataTexts (hchan .macToPhy i))
    apply (Leaves.refl _ _).append (Leaves.texts (hchan .netToMac i))
  · rw [down, down, hphy, hreceived]
    apply (Leaves.refl _ _).append
    apply Leaves.append (Leaves.dataTexts (hchan .macToNet j))
    apply (Leaves.refl _ _).append (Leaves.texts (hchan .phyToMac j))

/-- What is on the way to the PHY depends on the queues and the MAC of the node only. -/
theorem up_congr {i : Nid} (hphy : s'.chan .macToPhy i = s.chan .macToPhy i)
    (hnet : s'.chan .netToMac i = s.chan .netToMac i)
    (hmac : (s'.mac i).fromNet = (s.mac i).fromNet) :
  s'.up i = s.up i
  := by rw [up, up, hphy, hnet, hmac]

/-- What is on the way from the PHY depends on the queues and the MAC of the node only. -/
theorem down_congr {j : Nid} (hphy : s'.chan .phyToMac j = s.chan .phyToMac j)
    (hnet : s'.chan .macToNet j = s.chan .macToNet j)
    (hmac : (s'.mac j).fromPhy = (s.mac j).fromPhy) (hreceived : s'.received j = s.received j) :
  s'.down j = s.down j
  := by rw [down, down, hphy, hnet, hmac, hreceived]

/-! ### The MAC -/

theorem mac_setMac {work : SimMac} (i : Nid) :
  (s.setMac nid work).mac i = if i = nid then work else s.mac i
  := Function.update_apply _ _ _ _

/-- What does not differ between the work of a MAC before and after is the same for all MACs. -/
theorem map_setMac {β : Type} (f : SimMac → β) {work : SimMac} (h : f work = f (s.mac nid))
    (i : Nid) :
  f ((s.setMac nid work).mac i) = f (s.mac i)
  := by
  rw [mac_setMac]
  split_ifs with hi
  · rw [hi, h]
  · rfl

/-- When a MAC goes to work with the same queues to flush, the same will be received. -/
theorem chan_setMac {work : SimMac} (h : work.todo = (s.mac nid).todo) (dir : MqDir) (i : Nid) :
  (s.setMac nid work).chan dir i = s.chan dir i
  := chan_congr rfl (unflushed_congr (map_setMac SimMac.todo h) (fun _ => rfl) rfl dir i)

/-- A MAC that is done with flushing has no queue to flush. -/
theorem not_unflushed_mac {nid : Nid} (h : (s.mac nid).todo = []) :
  ¬ s.Unflushed .netToMac nid ∧ ¬ s.Unflushed .phyToMac nid
  := by
  rw [Unflushed, Unflushed, h]
  exact ⟨List.not_mem_nil, List.not_mem_nil⟩

/-- A MAC writes to or receives from a queue and goes to work, told by the parts of the way. -/
theorem step_mac {work : SimMac} {mqs : Mqs} (htodo : work.todo = (s.mac nid).todo)
    (hother : ∀ dir i, i ≠ nid → (s.setMqs mqs).chan dir i = s.chan dir i)
    (hup : Leaves (nid ∈ nodes) (s.up nid) (dataTexts ((s.setMqs mqs).chan .macToPhy nid) ++
      (work.fromNet ++ texts ((s.setMqs mqs).chan .netToMac nid))))
    (hdown : Leaves (nid ∈ nodes) (s.down nid) (s.received nid ++
      (dataTexts ((s.setMqs mqs).chan .macToNet nid) ++
        (work.fromPhy ++ texts ((s.setMqs mqs).chan .phyToMac nid))))) :
  Medium.Step linked (Kept linked nodes) s.medium ((s.setMqs mqs).setMac nid work).medium j
  := by
  have hchan : ∀ dir i, ((s.setMqs mqs).setMac nid work).chan dir i = (s.setMqs mqs).chan dir i :=
    chan_setMac htodo
  apply step_flow (fun _ => [])
  · intro i
    apply (List.append_nil _).symm
  · intro i
    apply Leaves.refl
  · intro i
    rw [List.append_nil]
    by_cases hi : i = nid
    · subst hi
      have hup' : ((s.setMqs mqs).setMac i work).up i =
          dataTexts ((s.setMqs mqs).chan .macToPhy i) ++
            (work.fromNet ++ texts ((s.setMqs mqs).chan .netToMac i)) := by
        rw [up, hchan, hchan, mac_setMac, if_pos rfl]
      rw [hup']
      apply hup
    · apply Leaves.of_eq
      apply up_congr
      · rw [hchan, hother _ _ hi]
      · rw [hchan, hother _ _ hi]
      · rw [mac_setMac, if_neg hi]
        rfl
  · by_cases hj : j = nid
    · subst hj
      have hdown' : ((s.setMqs mqs).setMac j work).down j = s.received j ++
          (dataTexts ((s.setMqs mqs).chan .macToNet j) ++
            (work.fromPhy ++ texts ((s.setMqs mqs).chan .phyToMac j))) := by
        rw [down, hchan, hchan, mac_setMac, if_pos rfl]
        rfl
      rw [hdown']
      apply hdown
    · apply Leaves.of_eq
      apply down_congr
      · rw [hchan, hother _ _ hj]
      · rw [hchan, hother _ _ hj]
      · rw [mac_setMac, if_neg hj]
        rfl
      · rfl

/-- A MAC sends its heartbeat. -/
theorem step_heartbeat {qbytes : ℕ} (hwork : s.mac nid = .heartbeat)
    (h : s.send qbytes .macToPhy nid [] messageTypeHeartbeat = some s') :
  Medium.Step linked (Kept linked nodes) s.medium (s'.setMac nid .recvNet).medium j
  := by
  obtain ⟨⟨mqs, rfl⟩, hother, msg, hmsgType, -, hchan⟩ := send_spec (by decide) h
  apply step_mac
  · rw [hwork]
    rfl
  · intro dir i hi
    apply hother
    exact fun hkey => hi hkey.2
  · apply Leaves.of_eq
    rw [up, hwork, hother .netToMac nid (by simp)]
    congr 1
    rcases hchan with hchan | ⟨hchan, -⟩
    · rw [hchan, dataTexts_append, dataTexts_other (by rw [hmsgType]; decide), List.append_nil]
    · rw [hchan]
  · apply Leaves.of_eq
    rw [down, hwork, hother .macToNet nid (by simp), hother .phyToMac nid (by simp)]
    rfl

/-- A MAC receives a message from the network layer. -/
theorem step_recvNet {msg : Mq.Msgbuf} {mqs : Mqs} (hwork : s.mac nid = .recvNet)
    (h : s.mqs.recvMq (mqKey .netToMac nid) = some (msg, mqs)) :
  Medium.Step linked (Kept linked nodes) s.medium
    ((s.setMqs mqs).setMac nid (.processNetMsg msg)).medium j
  := by
  have htodo : (s.mac nid).todo = [] := by
    rw [hwork]
    rfl
  obtain ⟨hchan, hother⟩ := chan_recv (not_unflushed_mac htodo).1 h
  apply step_mac
  · rw [htodo]
    rfl
  · intro dir i hi
    apply hother
    exact fun hkey => hi hkey.2
  · apply Leaves.of_eq
    rw [up, hwork, hother .macToPhy nid (by simp), hchan]
    rfl
  · apply Leaves.of_eq
    rw [down, hwork, hother .macToNet nid (by simp), hother .phyToMac nid (by simp)]
    rfl

/-- A MAC receives a message from the PHY. -/
theorem step_recvPhy {msg : Mq.Msgbuf} {mqs : Mqs} (hwork : s.mac nid = .recvPhy)
    (h : s.mqs.recvMq (mqKey .phyToMac nid) = some (msg, mqs)) :
  Medium.Step linked (Kept linked nodes) s.medium
    ((s.setMqs mqs).setMac nid (.processPhyMsg msg)).medium j
  := by
  have htodo : (s.mac nid).todo = [] := by
    rw [hwork]
    rfl
  obtain ⟨hchan, hother⟩ := chan_recv (not_unflushed_mac htodo).2 h
  apply step_mac
  · rw [htodo]
    rfl
  · intro dir i hi
    apply hother
    exact fun hkey => hi hkey.2
  · apply Leaves.of_eq
    rw [up, hwork, hother .macToPhy nid (by simp), hother .netToMac nid (by simp)]
    rfl
  · apply Leaves.of_eq
    rw [down, hwork, hother .macToNet nid (by simp), hchan]
    rfl

/-- What comes of a queue that data is sent to: the data comes last, or it is lost. -/
theorem leaves_send {kept : Prop} {qbytes : ℕ} {data : List Byte} {msg : Mq.Msgbuf}
    {msgs msgs' : List Mq.Msgbuf}
    (hmsgs : msgs' = msgs ++ [msg] ∨ msgs' = msgs ∧
      (s.Unflushed dir nid ∨ ¬ HasRoom qbytes (s.mqs (mqKey dir nid)) data.length))
    (hkept : kept → ¬ s.Unflushed dir nid ∧ HasRoom qbytes (s.mqs (mqKey dir nid)) data.length) :
  Leaves kept (msgs ++ [msg]) msgs'
  := by
  rcases hmsgs with rfl | ⟨rfl, hlost⟩
  · apply Leaves.refl
  · refine ⟨List.sublist_append_left _ _, fun hk => ?_⟩
    obtain ⟨hun, hroom⟩ := hkept hk
    rcases hlost with hlost | hlost
    · contradiction
    · contradiction

/-- A MAC sends a message from the network layer on to the PHY. -/
theorem step_processNetMsg {qbytes : ℕ} {msg : Mq.Msgbuf} (hready : s.Ready nodes)
    (hwork : s.mac nid = .processNetMsg msg)
    (haccepts : nodes.Nonempty → s.Accepts qbytes (.mac nid))
    (h : s.send qbytes .macToPhy nid msg.text messageTypeData = some s') :
  Medium.Step linked (Kept linked nodes) s.medium (s'.setMac nid .recvNet).medium j
  := by
  obtain ⟨⟨mqs, rfl⟩, hother, msg', hmsgType, htext, hchan⟩ := send_spec (by decide) h
  apply step_mac
  · rw [hwork]
    rfl
  · intro dir i hi
    apply hother
    exact fun hkey => hi hkey.2
  · rw [up, hwork, hother .netToMac nid (by simp)]
    simp only [SimMac.fromNet, List.nil_append]
    rw [← List.append_assoc]
    apply Leaves.append _ (Leaves.refl _ _)
    rw [← htext, ← dataTexts_data hmsgType, ← dataTexts_append]
    apply Leaves.dataTexts
    apply leaves_send hchan
    intro hnid
    rw [Unflushed, (hready nid hnid).2.2.2]
    refine ⟨List.not_mem_nil, haccepts ⟨nid, hnid⟩ (_, _) ?_⟩
    rw [target, hwork]
    rfl
  · apply Leaves.of_eq
    rw [down, hwork, hother .macToNet nid (by simp), hother .phyToMac nid (by simp)]
    rfl

/-- A MAC sends a message from the PHY on to the network layer. -/
theorem step_processPhyMsg {qbytes : ℕ} {msg : Mq.Msgbuf} (hready : s.Ready nodes)
    (hwork : s.mac nid = .processPhyMsg msg)
    (haccepts : nodes.Nonempty → s.Accepts qbytes (.mac nid))
    (h : s.send qbytes .macToNet nid msg.text messageTypeData = some s') :
  Medium.Step linked (Kept linked nodes) s.medium (s'.setMac nid .recvPhy).medium j
  := by
  obtain ⟨⟨mqs, rfl⟩, hother, msg', hmsgType, htext, hchan⟩ := send_spec (by decide) h
  apply step_mac
  · rw [hwork]
    rfl
  · intro dir i hi
    apply hother
    exact fun hkey => hi hkey.2
  · apply Leaves.of_eq
    rw [up, hwork, hother .macToPhy nid (by simp), hother .netToMac nid (by simp)]
    rfl
  · rw [down, hwork, hother .phyToMac nid (by simp)]
    simp only [SimMac.fromPhy, List.nil_append]
    rw [← List.append_assoc (dataTexts _)]
    apply Leaves.append (Leaves.refl _ _)
    apply Leaves.append _ (Leaves.refl _ _)
    rw [← htext, ← dataTexts_data hmsgType, ← dataTexts_append]
    apply Leaves.dataTexts
    apply leaves_send hchan
    intro hnid
    rw [Unflushed, (hready nid hnid).2.2.1]
    refine ⟨List.not_mem_nil, haccepts ⟨nid, hnid⟩ (_, _) ?_⟩
    rw [target, hwork]
    rfl

/-- A MAC goes to work, with nothing in hand before and after. -/
theorem step_setMac {work : SimMac} (hchan : ∀ dir i, (s.setMac nid work).chan dir i = s.chan dir i)
    (hnet : work.fromNet = (s.mac nid).fromNet) (hphy : work.fromPhy = (s.mac nid).fromPhy) :
  Medium.Step linked (Kept linked nodes) s.medium (s.setMac nid work).medium j
  := by
  apply step_lose _ (map_setMac SimMac.fromNet hnet) (map_setMac SimMac.fromPhy hphy)
  · intro i
    rfl
  · rfl
  · rfl
  · intro dir i
    apply Leaves.of_eq (hchan dir i)

/-- A MAC finds a queue empty that it had to flush. -/
theorem chan_flushed_mac {dir : MqDir} {todo : List MqDir}
    (hwork : s.mac nid = .initMq (dir :: todo)) (h : s.mqs.recvMq (mqKey dir nid) = none)
    (dir' : MqDir) (i : Nid) :
  (s.setMac nid (.initMq todo)).chan dir' i = s.chan dir' i
  := by
  suffices hun : ∀ dir' i, ¬ (dir' = dir ∧ i = nid) →
      ((s.setMac nid (.initMq todo)).Unflushed dir' i ↔ s.Unflushed dir' i) from
    chan_flushed h hun rfl dir' i
  intro dir' i hne
  by_cases hi : i = nid
  · subst hi
    have hdir : dir' ≠ dir := fun heq => hne ⟨heq, rfl⟩
    cases dir' <;> simp [Unflushed, mac_setMac, hwork, SimMac.todo, hdir] <;> rfl
  · cases dir' <;> simp [Unflushed, mac_setMac, hi] <;> rfl

/-- A MAC takes its next step. -/
theorem medium_macStep {qbytes : ℕ} (hready : s.Ready nodes)
    (haccepts : nodes.Nonempty → s.Accepts qbytes (.mac nid)) (h : s.macStep qbytes nid = some s') :
  Medium.Step linked (Kept linked nodes) s.medium s'.medium j
  := by
  rw [macStep] at h
  split at h
  case h_1 hwork =>
    obtain rfl := Option.some.inj h
    apply step_setMac (chan_setMac _) <;> rw [hwork] <;> rfl
  case h_2 dir todo hwork =>
    split at h
    case h_1 hrecv =>
      obtain rfl := Option.some.inj h
      apply step_setMac (chan_flushed_mac hwork hrecv) <;> rw [hwork] <;> rfl
    case h_2 msg mqs hrecv =>
      obtain rfl := Option.some.inj h
      have hnid : nid ∉ nodes := by
        intro hnid
        have htodo := (hready nid hnid).2.1
        rw [hwork] at htodo
        cases htodo
      apply step_lose
      · intro dir i
        apply (chan_flush hrecv dir i).mono
        exact fun hi heq => hnid (heq ▸ hi)
      all_goals intros; rfl
  case h_3 hwork =>
    obtain ⟨_, hsend, hs⟩ := Option.bind_eq_some_iff.mp h
    obtain rfl := Option.some.inj hs
    apply step_heartbeat hwork hsend
  case h_4 hwork =>
    split at h
    case h_1 hrecv =>
      obtain rfl := Option.some.inj h
      apply step_setMac (chan_setMac _) <;> rw [hwork] <;> rfl
    case h_2 msg mqs hrecv =>
      obtain rfl := Option.some.inj h
      apply step_recvNet hwork hrecv
  case h_5 msg hwork =>
    obtain ⟨_, hsend, hs⟩ := Option.bind_eq_some_iff.mp h
    obtain rfl := Option.some.inj hs
    apply step_processNetMsg hready hwork haccepts hsend
  case h_6 hwork =>
    split at h
    case h_1 hrecv =>
      obtain rfl := Option.some.inj h
      apply step_setMac (chan_setMac _) <;> rw [hwork] <;> rfl
    case h_2 msg mqs hrecv =>
      obtain rfl := Option.some.inj h
      apply step_recvPhy hwork hrecv
  case h_7 msg hwork =>
    obtain ⟨_, hsend, hs⟩ := Option.bind_eq_some_iff.mp h
    obtain rfl := Option.some.inj hs
    apply step_processPhyMsg hready hwork haccepts hsend

/-! ### The network layer -/

theorem net_setNet {work : SimNet} (i : Nid) :
  (s.setNet nid work).net i = if i = nid then work else s.net i
  := Function.update_apply _ _ _ _

/-- A network layer goes to work without changing what will be received. -/
theorem step_setNet {work : SimNet}
    (hchan : ∀ dir i, (s.setNet nid work).chan dir i = s.chan dir i) :
  Medium.Step linked (Kept linked nodes) s.medium (s.setNet nid work).medium j
  := by
  apply step_lose
  · intro dir i
    apply Leaves.of_eq (hchan dir i)
  all_goals intros; rfl

/-- A network layer finds a queue empty that it had to flush. -/
theorem chan_flushed_net {dir : MqDir} {todo : List MqDir}
    (hwork : s.net nid = .initMq (dir :: todo))
    (h : s.mqs.recvMq (mqKey dir nid) = none) (dir' : MqDir) (i : Nid) :
  (s.setNet nid (.initMq todo)).chan dir' i = s.chan dir' i
  := by
  suffices hun : ∀ dir' i, ¬ (dir' = dir ∧ i = nid) →
      ((s.setNet nid (.initMq todo)).Unflushed dir' i ↔ s.Unflushed dir' i) from
    chan_flushed h hun rfl dir' i
  intro dir' i hne
  by_cases hi : i = nid
  · subst hi
    have hdir : dir' ≠ dir := fun heq => hne ⟨heq, rfl⟩
    cases dir' <;> simp [Unflushed, net_setNet, hwork, SimNet.todo, hdir] <;> rfl
  · cases dir' <;> simp [Unflushed, net_setNet, hi] <;> rfl

/-- A network layer takes its next step in `simnet_init_mq`. -/
theorem medium_netInit (hready : s.Ready nodes) (h : s.netInit nid = some s') :
  Medium.Step linked (Kept linked nodes) s.medium s'.medium j
  := by
  rw [netInit] at h
  split at h
  case h_1 hwork =>
    obtain rfl := Option.some.inj h
    apply step_setNet
    intro dir i
    apply chan_congr
    · rfl
    · apply unflushed_congr
      · intro k
        rfl
      · intro k
        rw [net_setNet]
        split_ifs with hk
        · rw [hk, hwork]
          rfl
        · rfl
      · rfl
  case h_2 dir todo hwork =>
    split at h
    case h_1 hrecv =>
      obtain rfl := Option.some.inj h
      apply step_setNet (chan_flushed_net hwork hrecv)
    case h_2 msg mqs hrecv =>
      obtain rfl := Option.some.inj h
      have hnid : nid ∉ nodes := by
        intro hnid
        have htodo := (hready nid hnid).2.2.1
        rw [hwork] at htodo
        cases htodo
      apply step_lose
      · intro dir i
        apply (chan_flush hrecv dir i).mono
        exact fun hi heq => hnid (heq ▸ hi)
      all_goals intros; rfl
  case h_3 => cases h

/-- A network layer sends a packet. -/
theorem medium_remoteSend {qbytes : ℕ} {data : List Byte} (hready : s.Ready nodes)
    (haccepts : nodes.Nonempty → s.Accepts qbytes (.netSend nid data))
    (h : s.remoteSend qbytes nid data = some s') :
  Medium.Step linked (Kept linked nodes) s.medium s'.medium j
  := by
  rw [remoteSend] at h
  split at h
  case h_1 => cases h
  case h_2 hwork =>
    obtain ⟨s₁, hsend, hs⟩ := Option.bind_eq_some_iff.mp h
    obtain rfl := Option.some.inj hs
    obtain ⟨⟨mqs, rfl⟩, hother, msg, hmsgType, htext, hchan⟩ := send_spec (by decide) hsend
    apply step_flow (fun i => if i = nid then [data] else [])
    · intro i
      dsimp only
      rw [Function.update_apply]
      split_ifs with hi
      · rw [hi]
        rfl
      · rw [List.append_nil]
        rfl
    · intro i
      apply Leaves.refl
    · intro i
      change Leaves _ _ ((s.setMqs mqs).up i)
      split_ifs with hi
      · subst hi
        rw [up, up, hother .macToPhy i (by simp), List.append_assoc, List.append_assoc]
        apply (Leaves.refl _ _).append
        apply (Leaves.refl _ _).append
        have hdata : [data] = texts [msg] := by
          rw [← htext]
          rfl
        rw [hdata, ← texts_append]
        apply Leaves.texts
        apply leaves_send hchan
        intro hnid
        exact ⟨(not_unflushed_mac (hready i hnid).2.1).1, haccepts ⟨i, hnid⟩ (_, _) rfl⟩
      · rw [List.append_nil]
        apply Leaves.of_eq
        apply up_congr
        · apply hother _ _ (fun hkey => hi hkey.2)
        · apply hother _ _ (fun hkey => hi hkey.2)
        · rfl
    · change Leaves _ _ ((s.setMqs mqs).down j)
      apply Leaves.of_eq
      apply down_congr (hother _ _ (by simp)) (hother _ _ (by simp)) rfl rfl

/-- A message that a network layer has received is only recorded. -/
theorem processMacMsg_spec (s : FrameNet) (nid : Nid) (msg : Mq.Msgbuf) :
  (∀ dir i, (s.processMacMsg nid msg).chan dir i = s.chan dir i) ∧
    (s.processMacMsg nid msg).mac = s.mac ∧ (s.processMacMsg nid msg).phy = s.phy ∧
    (s.processMacMsg nid msg).sent = s.sent ∧ ∀ j, (s.processMacMsg nid msg).received j =
      if j = nid then s.received nid ++ dataTexts [msg] else s.received j
  := by
  by_cases hdata : msg.type = messageTypeData
  · rw [processMacMsg, if_pos hdata, dataTexts_data hdata]
    exact ⟨fun _ _ => rfl, rfl, rfl, rfl, fun j => Function.update_apply _ _ _ _⟩
  · rw [processMacMsg, if_neg hdata, dataTexts_other hdata, List.append_nil]
    refine ⟨fun _ _ => rfl, rfl, rfl, rfl, fun j => ?_⟩
    split_ifs with hj
    · rw [hj]
    · rfl

/-- A network layer receives. -/
theorem medium_recvfromMac (h : s.recvfromMac nid = some s') :
  Medium.Step linked (Kept linked nodes) s.medium s'.medium j
  := by
  rw [recvfromMac] at h
  split at h
  case h_1 => cases h
  case h_2 hwork =>
    split at h
    case h_1 =>
      obtain rfl := Option.some.inj h
      apply step_lose
      · intro dir i
        apply Leaves.refl
      all_goals intros; rfl
    case h_2 msg mqs hrecv =>
      obtain rfl := Option.some.inj h
      have hun : ¬ s.Unflushed .macToNet nid := by
        rw [Unflushed, hwork]
        exact List.not_mem_nil
      obtain ⟨hqueue, hother⟩ := chan_recv hun hrecv
      obtain ⟨hchan, hmac, hphy, hsent, hreceived⟩ := processMacMsg_spec (s.setMqs mqs) nid msg
      apply step_flow (fun _ => [])
      · intro i
        rw [hsent, List.append_nil]
        rfl
      · intro i
        apply Leaves.of_eq
        rw [hphy]
        rfl
      · intro i
        apply Leaves.of_eq
        rw [List.append_nil]
        apply up_congr
        · rw [hchan, hother _ _ (by simp)]
        · rw [hchan, hother _ _ (by simp)]
        · rw [hmac]
          rfl
      · apply Leaves.of_eq
        by_cases hj : j = nid
        · subst hj
          have hframes : dataTexts (s.chan .macToNet j) =
              dataTexts [msg] ++ dataTexts ((s.setMqs mqs).chan .macToNet j) := by
            rw [hqueue]
            apply dataTexts_append [msg]
          rw [down, down, hreceived, if_pos rfl, hchan, hchan, hmac, hother .phyToMac j (by simp),
            hframes, List.append_assoc, List.append_assoc]
          rfl
        · apply down_congr
          · rw [hchan, hother _ _ (by simp)]
          · rw [hchan, hother _ _ (fun hkey => hj hkey.2)]
          · rw [hmac]
            rfl
          · rw [hreceived, if_neg hj]
            rfl

/-! ### The PHY -/

/-- A step of the PHY that leaves the queues alone changes nothing in what will be received. -/
theorem chan_congr_phy (hmqs : s'.mqs = s.mqs) (hmac : s'.mac = s.mac) (hnet : s'.net = s.net)
    (htodo : s'.phy.todo = s.phy.todo) (dir : MqDir) (i : Nid) :
  s'.chan dir i = s.chan dir i
  := by
  apply chan_congr hmqs
  apply unflushed_congr _ _ htodo
  · intro k
    rw [hmac]
  · intro k
    rw [hnet]

/-- The PHY goes to work with the same frames still to be sent. -/
theorem step_setPhy (hmqs : s'.mqs = s.mqs) (hmac : s'.mac = s.mac) (hnet : s'.net = s.net)
    (htodo : s'.phy.todo = s.phy.todo) (hframe : ∀ i, s'.phy.frame i j = s.phy.frame i j)
    (hsent : s'.sent = s.sent) (hreceived : s'.received = s.received) :
  Medium.Step linked (Kept linked nodes) s.medium s'.medium j
  := by
  apply step_lose _ _ _ hframe hsent hreceived
  · intro dir i
    apply Leaves.of_eq (chan_congr_phy hmqs hmac hnet htodo dir i)
  · intro i
    rw [hmac]
  · intro i
    rw [hmac]

/-- The PHY takes its next step in `simphy_init_mq`. -/
theorem medium_phyInit {qbytes : ℕ} {todo : List (MqDir × Nid)} (hready : s.Ready nodes)
    (hwork : s.phy = .initMq todo) (h : s.phyStep qbytes = some s') :
  Medium.Step linked (Kept linked nodes) s.medium s'.medium j
  := by
  rw [phyStep, hwork] at h
  cases todo with
  | nil =>
      obtain rfl := Option.some.inj h
      apply step_setPhy <;> first | rfl | (rw [hwork]; intros; rfl)
  | cons queue todo =>
      obtain ⟨dir, nid⟩ := queue
      dsimp only at h
      split at h
      case h_1 hrecv =>
        obtain rfl := Option.some.inj h
        apply step_lose
        · intro dir' i
          apply Leaves.of_eq
          apply chan_flushed hrecv
          · intro dir' i hne
            cases dir' with
            | macToPhy =>
                rw [Unflushed, Unflushed, hwork]
                refine ⟨List.mem_cons_of_mem _, fun hmem => ?_⟩
                apply (List.mem_cons.mp hmem).resolve_left
                intro heq
                apply hne (Prod.mk.inj heq)
            | _ => rfl
          · rfl
        all_goals first | (intros; rfl) | (rw [hwork]; intros; rfl)
      case h_2 msg mqs hrecv =>
        obtain rfl := Option.some.inj h
        have hnone : ∀ i, i ∉ nodes := by
          intro i hi
          have htodo := (hready i hi).2.2.2
          rw [hwork] at htodo
          cases htodo
        apply step_lose
        · intro dir i
          apply (chan_flush hrecv dir i).mono
          exact fun hi => absurd hi (hnone i)
        all_goals intros; rfl

/-- A frame that the PHY has received is still to be sent to all nodes. -/
theorem handleMacMsg_phy (s : FrameNet) (nid : Nid) (msg : Mq.Msgbuf) :
  (s.handleMacMsg nid msg).phy.todo = [] ∧
    ∀ i j, (s.handleMacMsg nid msg).phy.frame i j = if i = nid then dataTexts [msg] else []
  := by
  by_cases hdata : msg.type = messageTypeData
  · have hphy : (s.handleMacMsg nid msg).phy = .processMacFrame nid msg 0 := if_pos hdata
    rw [hphy, dataTexts_data hdata]
    refine ⟨rfl, fun i j => ?_⟩
    rw [SimPhyWork.frame]
    apply if_congr _ rfl rfl
    constructor
    · rintro ⟨rfl, -⟩
      rfl
    · rintro rfl
      exact ⟨rfl, Nat.zero_le _⟩
  · have hphy : (s.handleMacMsg nid msg).phy = .recvFromMac nid := if_neg hdata
    rw [hphy, dataTexts_other hdata]
    refine ⟨rfl, fun i j => ?_⟩
    rw [ite_self]
    rfl

/-- The PHY receives from the MAC of a node. A frame is then still ahead of all nodes. -/
theorem medium_recvFromMac {qbytes nid : ℕ} (hwork : s.phy = .recvFromMac nid)
    (h : s.phyStep qbytes = some s') :
  Medium.Step linked (Kept linked nodes) s.medium s'.medium j
  := by
  rw [phyStep, hwork] at h
  dsimp only at h
  split_ifs at h with hnid
  · split at h
    case h_1 hrecv =>
      obtain rfl := Option.some.inj h
      apply step_setPhy <;> first | rfl | (rw [hwork]; intros; rfl)
    case h_2 msg mqs hrecv =>
      obtain rfl := Option.some.inj h
      have hun : ¬ s.Unflushed .macToPhy ⟨nid, hnid⟩ := by
        rw [Unflushed, hwork]
        exact List.not_mem_nil
      obtain ⟨hqueue, hother⟩ := chan_recv hun hrecv
      obtain ⟨htodo, hframe⟩ := handleMacMsg_phy (s.setMqs mqs) ⟨nid, hnid⟩ msg
      have hchan : ∀ dir i, ((s.setMqs mqs).handleMacMsg ⟨nid, hnid⟩ msg).chan dir i =
          (s.setMqs mqs).chan dir i := by
        intro dir i
        apply chan_congr_phy
        · rfl
        · rfl
        · rfl
        · rw [htodo]
          change [] = s.phy.todo
          rw [hwork]
          rfl
      apply Medium.Step.flow (fun _ => [])
      · intro i
        apply (List.append_nil _).symm
      · intro i
        apply Leaves.of_eq
        change SimPhyWork.frame _ i j ++ up _ i = (SimPhyWork.frame _ i j ++ up _ i) ++ []
        have hnone : s.phy.frame i j = [] := by
          rw [hwork]
          rfl
        rw [List.append_nil, hframe, hnone]
        split_ifs with hi
        · subst hi
          have hframes : dataTexts (s.chan .macToPhy ⟨nid, hnid⟩) =
              dataTexts [msg] ++ dataTexts ((s.setMqs mqs).chan .macToPhy ⟨nid, hnid⟩) := by
            rw [hqueue]
            apply dataTexts_append [msg]
          rw [up, up, hchan, hchan, hother .netToMac _ (by simp), hframes, List.append_assoc]
          rfl
        · congr 1
          apply up_congr
          · rw [hchan, hother _ _ (fun hkey => hi hkey.2)]
          · rw [hchan, hother _ _ (by simp)]
          · rfl
      · apply Leaves.of_eq
        apply down_congr
        · rw [hchan, hother _ _ (by simp)]
        · rw [hchan, hother _ _ (by simp)]
        · rfl
        · rfl
  · obtain rfl := Option.some.inj h
    apply step_setPhy <;> first | rfl | (rw [hwork]; intros; rfl)

/-- What is still to be sent to the node `j`, when it is the turn of the node `nid`. -/
theorem frame_processMacFrame (sender : Nid) (msg : Mq.Msgbuf) (nid : ℕ) (i j : Nid) :
  (SimPhyWork.processMacFrame sender msg nid).frame i j =
    (if i = sender ∧ j.val = nid then [msg.text] else []) ++
      (SimPhyWork.processMacFrame sender msg (nid + 1)).frame i j
  := by
  rw [SimPhyWork.frame, SimPhyWork.frame]
  by_cases hi : sender = i
  · subst hi
    by_cases hj : j.val = nid
    · rw [if_pos ⟨rfl, hj.ge⟩, if_pos ⟨rfl, hj⟩, if_neg (by omega)]
      rfl
    · rw [if_neg (fun h : sender = sender ∧ j.val = nid => hj h.2), List.nil_append]
      apply if_congr _ rfl rfl
      rw [Nat.succ_le_iff, lt_iff_le_and_ne]
      exact ⟨fun h => ⟨rfl, h.2, fun heq => hj heq.symm⟩, fun h => ⟨rfl, h.2.1⟩⟩
  · rw [if_neg (by tauto), if_neg (by tauto), if_neg (by tauto)]
    rfl

/-- Whatever the PHY does while it goes on to the next node in `process_mac_frame`, what will be
received from other queues stays the same. -/
theorem chan_processMacFrame {nid : ℕ} {sender : Nid} {msg : Mq.Msgbuf}
    (hwork : s.phy = .processMacFrame sender msg nid) (mqs : Mqs) (dir : MqDir) (i : Nid) :
  ((s.setMqs mqs).setPhy (.processMacFrame sender msg (nid + 1))).chan dir i =
    (s.setMqs mqs).chan dir i
  := by
  apply chan_congr_phy
  · rfl
  · rfl
  · rfl
  · change [] = s.phy.todo
    rw [hwork]
    rfl

/-- The PHY comes to a node in `process_mac_frame` and does not send the frame to it, or the queue
is full. -/
theorem step_dropFrame {nid : ℕ} {sender : Nid} {msg : Mq.Msgbuf} {mqs : Mqs}
    (hwork : s.phy = .processMacFrame sender msg nid)
    (hchan : ∀ dir i, i.val ≠ nid ∨ dir ≠ .phyToMac ∨ j.val = nid →
      (s.setMqs mqs).chan dir i = s.chan dir i)
    (hlost : j.val = nid → ¬ Kept linked nodes sender j) :
  Medium.Step linked (Kept linked nodes) s.medium
    ((s.setMqs mqs).setPhy (.processMacFrame sender msg (nid + 1))).medium j
  := by
  apply step_flow (fun _ => [])
  · intro i
    apply (List.append_nil _).symm
  · intro i
    change Leaves _ _ ((SimPhyWork.processMacFrame sender msg (nid + 1)).frame i j)
    rw [hwork, frame_processMacFrame]
    split_ifs with hij
    · obtain ⟨rfl, hj⟩ := hij
      exact ⟨List.sublist_append_right _ _, fun hkept => absurd hkept (hlost hj)⟩
    · apply Leaves.refl
  · intro i
    rw [List.append_nil]
    apply Leaves.of_eq
    apply up_congr
    · rw [chan_processMacFrame hwork, hchan _ _ (by simp)]
    · rw [chan_processMacFrame hwork, hchan _ _ (by simp)]
    · rfl
  · apply Leaves.of_eq
    apply down_congr
    · rw [chan_processMacFrame hwork, hchan _ _ (by tauto)]
    · rw [chan_processMacFrame hwork, hchan _ _ (by simp)]
    · rfl
    · rfl

/-- The PHY sends a frame to the node `j`. -/
theorem step_passFrame {sender : Nid} {msg msg' : Mq.Msgbuf} {mqs : Mqs}
    (hwork : s.phy = .processMacFrame sender msg j) (hlinked : linked sender j)
    (hother : ∀ dir i, ¬ (dir = .phyToMac ∧ i = j) → (s.setMqs mqs).chan dir i = s.chan dir i)
    (htext : msg'.text = msg.text)
    (hchan : (s.setMqs mqs).chan .phyToMac j = s.chan .phyToMac j ++ [msg']) :
  Medium.Step linked (Kept linked nodes) s.medium
    ((s.setMqs mqs).setPhy (.processMacFrame sender msg (j + 1))).medium j
  := by
  apply Medium.Step.pass sender msg.text hlinked
  · rfl
  · intro k
    change s.phy.frame k j ++ s.up k =
      if k = sender then
        msg.text :: ((SimPhyWork.processMacFrame sender msg (j + 1)).frame k j ++ up _ k)
      else (SimPhyWork.processMacFrame sender msg (j + 1)).frame k j ++ up _ k
    have hup : ((s.setMqs mqs).setPhy (.processMacFrame sender msg (j + 1))).up k = s.up k := by
      apply up_congr
      · rw [chan_processMacFrame hwork, hother _ _ (by simp)]
      · rw [chan_processMacFrame hwork, hother _ _ (by simp)]
      · rfl
    rw [hup, hwork, frame_processMacFrame, List.append_assoc]
    by_cases hk : k = sender
    · rw [if_pos ⟨hk, rfl⟩, if_pos hk]
      rfl
    · rw [if_neg (fun h => hk h.1), if_neg hk]
      rfl
  · change down _ j = s.down j ++ [msg.text]
    have htexts : texts (s.chan .phyToMac j ++ [msg']) =
        texts (s.chan .phyToMac j) ++ [msg.text] := by
      rw [texts_append, ← htext]
      rfl
    rw [down, down, chan_processMacFrame hwork, chan_processMacFrame hwork, hother _ _ (by simp),
      hchan, htexts]
    simp only [← List.append_assoc]
    rfl

theorem passing_eq_some {sender : Nid} {msg : Mq.Msgbuf}
    (hwork : s.phy = .processMacFrame sender msg j) (hne : sender.val ≠ j.val) :
  s.passing = some (sender, j)
  := by
  rw [passing, hwork]
  exact (dif_pos j.isLt).trans (if_pos hne)

/-- A frame only passes from a node to another. -/
theorem ne_of_mem_passing {p : Nid × Nid} (h : p ∈ s.passing) :
  p.1 ≠ p.2
  := by
  rw [passing] at h
  split at h
  · split_ifs at h with hnid hne
    · obtain rfl := Option.mem_some_iff.mp h
      exact fun heq => hne (congrArg Fin.val heq)
    · cases h
    · cases h
  · cases h

/-- The PHY comes to the next node in `process_mac_frame`. -/
theorem medium_processMacFrame {qbytes nid : ℕ} {sender : Nid} {msg : Mq.Msgbuf}
    (hready : s.Ready nodes) (hwork : s.phy = .processMacFrame sender msg nid)
    (hcarries : s.Carries qbytes linked nodes .phy) (h : s.phyStep qbytes = some s') :
  Medium.Step linked (Kept linked nodes) s.medium s'.medium j
  := by
  rw [phyStep, hwork] at h
  dsimp only at h
  split_ifs at h with hnid hsends
  · obtain ⟨s₁, hsend, hs⟩ := Option.bind_eq_some_iff.mp h
    obtain rfl := Option.some.inj hs
    obtain ⟨receiver, rfl⟩ : ∃ receiver : Nid, receiver.val = nid := ⟨⟨nid, hnid⟩, rfl⟩
    obtain ⟨⟨mqs, rfl⟩, hother, msg', -, htext, hchan | ⟨hchan, hlost⟩⟩ :=
      send_spec (by decide) hsend
    · by_cases hj : j = receiver
      · subst hj
        apply step_passFrame hwork _ hother htext hchan
        apply hcarries.within (sender, j) _ hsends.2.2
        rw [passing_eq_some hwork hsends.1]
        rfl
      · have hval : j.val ≠ receiver.val := fun heq => hj (Fin.ext heq)
        apply step_dropFrame hwork _ (fun heq => absurd heq hval)
        intro dir i hne
        apply hother
        rintro ⟨rfl, rfl⟩
        simp [hval] at hne
    · -- the queue is full
      apply step_dropFrame hwork
      · intro dir i _
        by_cases hkey : dir = .phyToMac ∧ i = receiver
        · obtain ⟨rfl, rfl⟩ := hkey
          apply hchan
        · apply hother _ _ hkey
      · rintro heq ⟨-, hj, -, -⟩
        obtain rfl := Fin.ext heq
        rcases hlost with hun | hroom
        · apply (not_unflushed_mac (hready j hj).2.1).2 hun
        · apply hroom
          apply hcarries.accepts ⟨j, hj⟩ (_, _)
          rw [target, hwork]
          rfl
  · obtain rfl := Option.some.inj h
    -- the frame is not meant for this node
    suffices hdrop : Medium.Step linked (Kept linked nodes) s.medium
        ((s.setMqs s.mqs).setPhy (.processMacFrame sender msg (nid + 1))).medium j from hdrop
    apply step_dropFrame hwork (fun _ _ _ => rfl)
    rintro rfl hkept
    apply hsends
    have hne : sender.val ≠ j.val := fun heq => hkept.2.2.1 (Fin.ext heq)
    refine ⟨hne, (hready j hkept.2.1).1, ?_⟩
    apply hcarries.keeps (sender, j) _ hkept
    rw [passing_eq_some hwork hne]
    rfl
  · obtain rfl := Option.some.inj h
    apply step_setPhy
    all_goals first | rfl | (rw [hwork]; rfl) | skip
    intro i
    rw [hwork, SimPhyWork.frame, if_neg]
    · rfl
    · have := j.isLt
      omega

/-- The PHY receives or drops a command. -/
theorem medium_command {qbytes : ℕ} (hwork : s.phy = .flushCommand ∨ s.phy = .recvCommand)
    (h : s.phyStep qbytes = some s') :
  Medium.Step linked (Kept linked nodes) s.medium s'.medium j
  := by
  have htodo : s.phy.todo = [] := by
    rcases hwork with hwork | hwork <;> rw [hwork] <;> rfl
  have hframe : ∀ i, s.phy.frame i j = [] := by
    intro i
    rcases hwork with hwork | hwork <;> rw [hwork] <;> rfl
  rw [phyStep] at h
  rcases hwork with hwork | hwork
  · rw [hwork] at h
    dsimp only at h
    split at h
    · obtain rfl := Option.some.inj h
      apply step_setPhy <;> first | rfl | (rw [htodo]; rfl) | (intro i; rw [hframe]; rfl)
    · obtain rfl := Option.some.inj h
      apply step_setPhy <;> first | rfl | (rw [htodo]; rfl) | (intro i; rw [hframe]; rfl)
  · rw [hwork] at h
    dsimp only at h
    split at h
    · obtain rfl := Option.some.inj h
      apply step_setPhy <;> first | rfl | (rw [htodo]; rfl) | (intro i; rw [hframe]; rfl)
    · obtain ⟨links, -, hs⟩ := Option.bind_eq_some_iff.mp h
      obtain rfl := Option.some.inj hs
      apply step_setPhy <;> first | rfl | (rw [htodo]; rfl) | (intro i; rw [hframe]; rfl)

/-- Every step of the processes is a step of the medium. -/
theorem medium_step {qbytes cap : ℕ} {e : FrameEvent} (hready : s.Ready nodes)
    (hcarries : s.Carries qbytes linked nodes e) (h : s.step qbytes cap e = some s') (j : Nid) :
  Medium.Step linked (Kept linked nodes) s.medium s'.medium j
  := by
  cases e with
  | phy =>
      have hstep : s.phyStep qbytes = some s' := h
      cases hwork : s.phy with
      | initMq todo => apply medium_phyInit hready hwork hstep
      | flushCommand => apply medium_command (Or.inl hwork) hstep
      | recvFromMac nid => apply medium_recvFromMac hwork hstep
      | processMacFrame sender msg nid => apply medium_processMacFrame hready hwork hcarries hstep
      | recvCommand => apply medium_command (Or.inr hwork) hstep
  | mac nid => apply medium_macStep hready hcarries.accepts h
  | netInit nid => apply medium_netInit hready h
  | netSend nid data => apply medium_remoteSend hready hcarries.accepts h
  | netRecv nid => apply medium_recvfromMac h
  | linkConfig msg =>
      obtain rfl := Option.some.inj h
      apply step_setPhy <;> intros <;> rfl

/-! ### Processes stay ready -/

/-- A step does not make a process flush its queues again, and the PHY does not forget a node. -/
structure Stays (s s' : FrameNet) : Prop where
  alive : ∀ i, s.alive i = 1 → s'.alive i = 1
  mac : ∀ i, (s.mac i).todo = [] → (s'.mac i).todo = []
  net : ∀ i, (s.net i).todo = [] → (s'.net i).todo = []
  phy : s.phy.todo = [] → s'.phy.todo = []

theorem Stays.ready (h : Stays s s') (hready : s.Ready nodes) :
  s'.Ready nodes
  := by
  intro nid hnid
  obtain ⟨halive, hmac, hnet, hphy⟩ := hready nid hnid
  exact ⟨h.alive nid halive, h.mac nid hmac, h.net nid hnet, h.phy hphy⟩

theorem Stays.refl (s : FrameNet) :
  Stays s s
  := ⟨fun _ h => h, fun _ h => h, fun _ h => h, fun h => h⟩

theorem stays_send {qbytes : ℕ} {nid : ℕ} {data : List Byte} {type : ℤ}
    (h : s.send qbytes dir nid data type = some s') :
  Stays s s'
  := by
  obtain ⟨_, -, hs⟩ := Option.bind_eq_some_iff.mp h
  obtain rfl := Option.some.inj hs
  exact ⟨fun _ h => h, fun _ h => h, fun _ h => h, fun h => h⟩

theorem Stays.setMqs (h : Stays s s') (mqs : Mqs) :
  Stays s (s'.setMqs mqs)
  := ⟨h.alive, h.mac, h.net, h.phy⟩

theorem Stays.setMac (h : Stays s s') {work : SimMac}
    (hwork : (s.mac nid).todo = [] → work.todo = []) :
  Stays s (s'.setMac nid work)
  := by
  refine ⟨h.alive, fun i hi => ?_, h.net, h.phy⟩
  rw [mac_setMac]
  split_ifs with hnid
  · subst hnid
    apply hwork hi
  · apply h.mac i hi

theorem Stays.setNet (h : Stays s s') {work : SimNet}
    (hwork : (s.net nid).todo = [] → work.todo = []) :
  Stays s (s'.setNet nid work)
  := by
  refine ⟨h.alive, h.mac, fun i hi => ?_, h.phy⟩
  rw [net_setNet]
  split_ifs with hnid
  · subst hnid
    apply hwork hi
  · apply h.net i hi

theorem Stays.setPhy (h : Stays s s') {work : SimPhyWork}
    (hwork : s.phy.todo = [] → work.todo = []) :
  Stays s (s'.setPhy work)
  := ⟨h.alive, h.mac, h.net, hwork⟩

theorem Stays.handleMacMsg (h : Stays s s') (nid : Nid) (msg : Mq.Msgbuf) :
  Stays s (s'.handleMacMsg nid msg)
  := by
  refine ⟨fun i hi => ?_, h.mac, h.net, fun _ => (handleMacMsg_phy s' nid msg).1⟩
  change Function.update s'.alive nid 1 i = 1
  rw [Function.update_apply]
  split_ifs
  · rfl
  · apply h.alive i hi

theorem Stays.processMacMsg (h : Stays s s') (nid : Nid) (msg : Mq.Msgbuf) :
  Stays s (s'.processMacMsg nid msg)
  := by
  rw [FrameNet.processMacMsg]
  split_ifs
  · exact ⟨h.alive, h.mac, h.net, h.phy⟩
  · apply h

theorem stays_macStep {qbytes : ℕ} (h : s.macStep qbytes nid = some s') :
  Stays s s'
  := by
  rw [macStep] at h
  split at h
  case h_1 =>
    obtain rfl := Option.some.inj h
    apply (Stays.refl s).setMac fun _ => rfl
  case h_2 dir todo hwork =>
    split at h
    · obtain rfl := Option.some.inj h
      apply (Stays.refl s).setMac
      intro htodo
      rw [hwork] at htodo
      cases htodo
    · obtain rfl := Option.some.inj h
      apply (Stays.refl s).setMqs
  case h_3 | h_5 | h_7 =>
    obtain ⟨_, hsend, hs⟩ := Option.bind_eq_some_iff.mp h
    obtain rfl := Option.some.inj hs
    apply (stays_send hsend).setMac fun _ => rfl
  case h_4 | h_6 =>
    split at h
    · obtain rfl := Option.some.inj h
      apply (Stays.refl s).setMac fun _ => rfl
    · obtain rfl := Option.some.inj h
      apply ((Stays.refl s).setMqs _).setMac fun _ => rfl

theorem stays_netInit (h : s.netInit nid = some s') :
  Stays s s'
  := by
  rw [netInit] at h
  split at h
  case h_1 =>
    obtain rfl := Option.some.inj h
    apply (Stays.refl s).setNet fun _ => rfl
  case h_2 dir todo hwork =>
    split at h
    · obtain rfl := Option.some.inj h
      apply (Stays.refl s).setNet
      intro htodo
      rw [hwork] at htodo
      cases htodo
    · obtain rfl := Option.some.inj h
      apply (Stays.refl s).setMqs
  case h_3 => cases h

theorem stays_phyStep {qbytes : ℕ} (h : s.phyStep qbytes = some s') :
  Stays s s'
  := by
  rw [phyStep] at h
  split at h
  case h_1 =>
    obtain rfl := Option.some.inj h
    apply (Stays.refl s).setPhy fun _ => rfl
  case h_2 dir nid todo hwork =>
    split at h
    · obtain rfl := Option.some.inj h
      apply (Stays.refl s).setPhy
      intro htodo
      rw [hwork] at htodo
      cases htodo
    · obtain rfl := Option.some.inj h
      apply (Stays.refl s).setMqs
  case h_3 =>
    split at h
    · obtain rfl := Option.some.inj h
      apply (Stays.refl s).setPhy fun _ => rfl
    · obtain rfl := Option.some.inj h
      exact ⟨fun _ h => h, fun _ h => h, fun _ h => h, fun h => h⟩
  case h_4 nid hwork =>
    split_ifs at h
    · split at h
      · obtain rfl := Option.some.inj h
        apply (Stays.refl s).setPhy fun _ => rfl
      · obtain rfl := Option.some.inj h
        apply ((Stays.refl s).setMqs _).handleMacMsg
    · obtain rfl := Option.some.inj h
      apply (Stays.refl s).setPhy fun _ => rfl
  case h_5 sender msg nid hwork =>
    split_ifs at h
    · obtain ⟨_, hsend, hs⟩ := Option.bind_eq_some_iff.mp h
      obtain rfl := Option.some.inj hs
      apply (stays_send hsend).setPhy fun _ => rfl
    · obtain rfl := Option.some.inj h
      apply (Stays.refl s).setPhy fun _ => rfl
    · obtain rfl := Option.some.inj h
      apply (Stays.refl s).setPhy fun _ => rfl
  case h_6 =>
    split at h
    · obtain rfl := Option.some.inj h
      apply (Stays.refl s).setPhy fun _ => rfl
    · obtain ⟨links, -, hs⟩ := Option.bind_eq_some_iff.mp h
      obtain rfl := Option.some.inj hs
      exact ⟨fun _ h => h, fun _ h => h, fun _ h => h, fun h => h⟩

/-- Processes that are ready stay so. -/
theorem stays_step {qbytes cap : ℕ} {e : FrameEvent} (h : s.step qbytes cap e = some s') :
  Stays s s'
  := by
  cases e with
  | phy => apply stays_phyStep h
  | mac nid => apply stays_macStep h
  | netInit nid => apply stays_netInit h
  | netSend nid data =>
      have hsend : s.remoteSend qbytes nid data = some s' := h
      rw [remoteSend] at hsend
      split at hsend
      · cases hsend
      · obtain ⟨s₁, hs₁, hs⟩ := Option.bind_eq_some_iff.mp hsend
        obtain rfl := Option.some.inj hs
        have hstays := stays_send hs₁
        exact ⟨hstays.alive, hstays.mac, hstays.net, hstays.phy⟩
  | netRecv nid =>
      have hrecv : s.recvfromMac nid = some s' := h
      rw [recvfromMac] at hrecv
      split at hrecv
      · cases hrecv
      · split at hrecv
        · obtain rfl := Option.some.inj hrecv
          apply Stays.refl
        · obtain rfl := Option.some.inj hrecv
          apply ((Stays.refl s).setMqs _).processMacMsg
  | linkConfig msg =>
      obtain rfl := Option.some.inj h
      exact ⟨fun _ h => h, fun _ h => h, fun _ h => h, fun h => h⟩

/-! ### Runs -/

/-- What is kept true in a run: the processes of `nodes` are ready, and the frames flow through the
medium. -/
structure Inv (linked : Nid → Nid → Prop) (nodes : Set Nid) (s : FrameNet) : Prop where
  ready : s.Ready nodes
  flows : ∀ j, Medium.Flows linked (Kept linked nodes) s.medium j

theorem Inv.step {qbytes cap : ℕ} {e : FrameEvent} (h : Inv linked nodes s)
    (hcarries : s.Carries qbytes linked nodes e) (hstep : s.step qbytes cap e = some s') :
  Inv linked nodes s'
  := by
  refine ⟨(stays_step hstep).ready h.ready, fun j => ?_⟩
  apply (h.flows j).step
  apply medium_step h.ready hcarries hstep

/-- All queues are still to be flushed at the start. -/
theorem Starts.chan_eq_nil (h : s.Starts) (dir : MqDir) (nid : Nid) :
  s.chan dir nid = []
  := by
  apply if_pos
  cases dir with
  | macToPhy =>
      rw [Unflushed, h.phy, SimPhyWork.todo, phyQueues, List.mem_flatMap]
      exact ⟨nid, List.mem_finRange nid, by simp⟩
  | macToNet =>
      rw [Unflushed, h.net]
      decide
  | netToMac =>
      rw [Unflushed, h.mac]
      decide
  | phyToMac =>
      rw [Unflushed, h.mac]
      decide

theorem Starts.inv (h : s.Starts) :
  Inv linked ∅ s
  := by
  refine ⟨fun nid hnid => absurd hnid (Set.notMem_empty nid), fun j => ?_⟩
  apply Medium.flows_start
  · change s.down j = []
    rw [down, h.received, h.chan_eq_nil, h.chan_eq_nil, h.mac]
    rfl
  · intro i
    change s.phy.frame i j ++ s.up i = s.sent i
    rw [h.sent, up, h.chan_eq_nil, h.chan_eq_nil, h.mac, h.phy]
    rfl

/-- A node receives nothing but what the other nodes have sent since the start, from each of them in
order and nothing twice. This is so whatever the order of the steps, whatever is lost because a
queue is full or flushed, and whatever was in the queues before. And if the frames of a node only
find links to linked nodes, then only these receive them. -/
theorem received_isMerge {qbytes cap : ℕ} {s t : FrameNet} {linked : Nid → Nid → Prop}
    (hs : s.Starts)
    (h : Reaches (step qbytes cap)
      (fun s _ => ∀ p ∈ s.passing, (s.links p.1 p.2).los = 1 → linked p.1 p.2) s t)
    (j : Nid) :
  ∃ passed, IsMerge passed (t.received j) ∧
    ∀ i, (passed i).Sublist (t.sent i) ∧ (passed i ≠ [] → i ≠ j ∧ linked i j)
  := by
  have hinv : Inv (fun i j => i ≠ j ∧ linked i j) ∅ t := by
    apply h.invariant _ hs.inv
    intro u e v hu hok huv
    apply hu.step _ huv
    refine ⟨fun p hp hlos => ⟨ne_of_mem_passing hp, hok p hp hlos⟩, ?_, ?_⟩
    · intro p _ hkept
      apply absurd hkept.1 (Set.notMem_empty p.1)
    · intro hne
      apply absurd hne Set.not_nonempty_empty
  obtain ⟨passed, hmerge, hpassed⟩ := hinv.flows j
  obtain ⟨passed', hmerge', hsub⟩ := hmerge.sublist (List.sublist_append_left (t.received j) _)
  refine ⟨passed', hmerge', fun i => ⟨?_, fun hne => (hpassed i).1 fun hnil => ?_⟩⟩
  · apply (hsub i).trans
    apply (List.sublist_append_left _ _).trans (hpassed i).2.1
  · have hsubi := hsub i
    rw [hnil] at hsubi
    apply hne (List.sublist_nil.mp hsubi)

/-- The node `0`. -/
def nodeZero : Nid := ⟨0, by decide⟩

/-- The node `1`. -/
def nodeOne : Nid := ⟨1, by decide⟩

/-- All processes are started while a frame of an earlier process is left in a queue. -/
def exampleStart : FrameNet where
  mqs key := if key = mqKey .macToPhy nodeZero then [⟨messageTypeData, [7], by decide⟩] else []
  phyCommand := []
  phy := .initMq phyQueues
  alive _ := 0
  links := initLinkState
  mac _ := .initMq macQueues
  net _ := .initMq netQueues
  sent _ := []
  received _ := []

/-- The processes of two nodes start, and the first node sends a frame, which the second node
receives. -/
def exampleEvents : List FrameEvent :=
  List.replicate 260 .phy ++ List.replicate 6 (.mac nodeZero) ++ List.replicate 6 (.mac nodeOne) ++
    List.replicate 3 (.netInit nodeZero) ++ List.replicate 3 (.netInit nodeOne) ++
    [.netSend nodeZero [1, 2], .mac nodeZero, .mac nodeZero] ++ List.replicate 400 .phy ++
    [.mac nodeOne, .mac nodeOne, .mac nodeOne, .netRecv nodeOne]

theorem received_isMerge_two :
  ∃ t, exampleEvents.foldlM (step 16384 100) exampleStart = some t ∧
    t.received nodeOne = [[1, 2]] ∧ ∃ passed, IsMerge passed (t.received nodeOne) ∧
      ∀ i, (passed i).Sublist (t.sent i) ∧ (passed i ≠ [] → i ≠ nodeOne ∧ True)
  := by
  have hrun : (exampleEvents.foldlM (step 16384 100) exampleStart).map
      (fun t => t.received nodeOne) = some [[1, 2]] := by decide +kernel
  obtain ⟨t, ht, hreceived⟩ := Option.map_eq_some_iff.mp hrun
  refine ⟨t, ht, hreceived, ?_⟩
  have hs : exampleStart.Starts := by constructor <;> intros <;> rfl
  apply @received_isMerge 16384 100 exampleStart t (fun _ _ => True) hs
  apply (Reaches.of_foldlM ht).mono
  intro _ _ _ _ _ _
  trivial

/-- No frame is under way. -/
structure Quiet (s : FrameNet) : Prop where
  chan : ∀ dir nid, s.chan dir nid = []
  fromNet : ∀ nid, (s.mac nid).fromNet = []
  fromPhy : ∀ nid, (s.mac nid).fromPhy = []
  phy : s.phy.inHand = []

instance (s : FrameNet) : Decidable s.Quiet :=
  decidable_of_iff
    ((∀ dir ∈ macQueues, ∀ nid, s.chan dir nid = []) ∧ (∀ nid, (s.mac nid).fromNet = []) ∧
      (∀ nid, (s.mac nid).fromPhy = []) ∧ s.phy.inHand = [])
    ⟨fun h => ⟨fun dir => h.1 dir (by cases dir <;> decide), h.2.1, h.2.2.1, h.2.2.2⟩,
      fun h => ⟨fun dir _ => h.chan dir, h.fromNet, h.fromPhy, h.phy⟩⟩

theorem Quiet.up_eq_nil (h : s.Quiet) (nid : Nid) :
  s.up nid = []
  := by
  rw [up, h.chan, h.chan, h.fromNet]
  rfl

theorem Quiet.down_eq (h : s.Quiet) (nid : Nid) :
  s.down nid = s.received nid
  := by
  rw [down, h.chan, h.chan, h.fromPhy]
  apply List.append_nil

/-- Nodes whose processes are ready, and that the PHY has heard of, receive everything from each
other, as long as no queue is full: once no frame is under way, what a node has received consists
of all the frames of all the nodes it is linked with, and of nothing else. Links may change as long
as no frame of a node that is linked misses its link. -/
theorem received_all {qbytes cap : ℕ} {s t : FrameNet} {linked : Nid → Nid → Prop}
    {nodes : Set Nid} (hready : s.Ready nodes) (hquiet : s.Quiet)
    (hnone : ∀ nid, s.sent nid = [] ∧ s.received nid = [])
    (h : Reaches (step qbytes cap) (fun s e => s.Accepts qbytes e ∧
      ∀ p ∈ s.passing, ((s.links p.1 p.2).los = 1 ↔ linked p.1 p.2)) s t)
    (hquiet' : t.Quiet) {j : Nid} (hj : j ∈ nodes) :
  ∃ passed, IsMerge passed (t.received j) ∧ ∀ i, (passed i).Sublist (t.sent i) ∧
    (passed i ≠ [] → i ≠ j ∧ linked i j) ∧
    (i ∈ nodes → i ≠ j → linked i j → passed i = t.sent i)
  := by
  have hstart : Inv (fun i j => i ≠ j ∧ linked i j) nodes s := by
    refine ⟨hready, fun k => ?_⟩
    apply Medium.flows_start
    · change s.down k = []
      rw [hquiet.down_eq, (hnone k).2]
    · intro i
      change s.phy.frame i k ++ s.up i = s.sent i
      rw [SimPhyWork.frame_eq_nil hquiet.phy, hquiet.up_eq_nil, (hnone i).1]
      rfl
  have hinv : Inv (fun i j => i ≠ j ∧ linked i j) nodes t := by
    apply h.invariant _ hstart
    intro u e v hu hok huv
    apply hu.step _ huv
    refine ⟨fun p hp hlos => ⟨ne_of_mem_passing hp, (hok.2 p hp).mp hlos⟩, ?_, ?_⟩
    · intro p hp hkept
      apply (hok.2 p hp).mpr hkept.2.2.2.2
    · intro _
      apply hok.1
  obtain ⟨passed, hmerge, hpassed⟩ := hinv.flows j
  have hgot : t.medium.got j = t.received j := hquiet'.down_eq j
  have hahead : ∀ i, passed i ++ t.medium.ahead i j = passed i := by
    intro i
    change passed i ++ (t.phy.frame i j ++ t.up i) = passed i
    rw [SimPhyWork.frame_eq_nil hquiet'.phy, hquiet'.up_eq_nil]
    apply List.append_nil
  rw [hgot] at hmerge
  refine ⟨passed, hmerge, fun i => ?_⟩
  obtain ⟨hlinked, hleaves⟩ := hpassed i
  rw [hahead] at hleaves
  exact ⟨hleaves.1, hlinked, fun hi hne hl => hleaves.2 ⟨hi, hj, hne, hne, hl⟩⟩

/-- The processes of two nodes are ready, and no frame is under way. -/
def exampleReady : FrameNet where
  mqs _ := []
  phyCommand := []
  phy := .recvFromMac 0
  alive nid := if nid = nodeZero ∨ nid = nodeOne then 1 else 0
  links := initLinkState
  mac _ := .recvNet
  net _ := .running
  sent _ := []
  received _ := []

/-- Both nodes send a frame, and receive that of the other. -/
def exampleTraffic : List FrameEvent :=
  [.netSend nodeZero [1, 2], .netSend nodeOne [3], .mac nodeZero, .mac nodeZero, .mac nodeOne,
    .mac nodeOne] ++ List.replicate 262 .phy ++
    [.mac nodeZero, .mac nodeZero, .mac nodeZero, .mac nodeOne, .mac nodeOne, .mac nodeOne,
      .netRecv nodeOne, .netRecv nodeZero]

/-- A check of `Accepts`. -/
def checkRoom (qbytes : ℕ) (s : FrameNet) (e : FrameEvent) : Bool :=
  match s.target e with
  | none => true
  | some queue =>
      Nat.ble (((s.mqs queue.1).map (fun msg => msg.text.length)).sum + queue.2) qbytes &&
        Nat.ble ((s.mqs queue.1).length + 1) qbytes

theorem accepts_of_checkRoom {qbytes : ℕ} {e : FrameEvent} (h : checkRoom qbytes s e = true) :
  s.Accepts qbytes e
  := by
  intro queue hqueue
  rw [checkRoom, Option.mem_def.mp hqueue] at h
  obtain ⟨hbytes, hlength⟩ := Bool.and_eq_true_iff.mp h
  exact ⟨Nat.le_of_ble_eq_true hbytes, Nat.le_of_ble_eq_true hlength⟩

/-- A check that a frame finds a link. -/
def checkLink (s : FrameNet) : Bool :=
  match s.phy with
  | .processMacFrame sender _ nid => (s.links sender nid).los == 1
  | _ => true

theorem linked_of_checkLink (h : s.checkLink = true) {p : Nid × Nid} (hp : p ∈ s.passing) :
  (s.links p.1 p.2).los = 1
  := by
  rw [passing] at hp
  split at hp
  case h_1 sender msg nid hwork =>
    rw [checkLink, hwork] at h
    split_ifs at hp
    · obtain rfl := Option.mem_some_iff.mp hp
      exact eq_of_beq h
    · cases hp
    · cases hp
  case h_2 => cases hp

theorem received_all_two :
  ∃ t : FrameNet, t.sent nodeZero = [[1, 2]] ∧
    ∃ passed, IsMerge passed (t.received nodeOne) ∧ ∀ i, (passed i).Sublist (t.sent i) ∧
      (passed i ≠ [] → i ≠ nodeOne ∧ True) ∧
      (i ∈ ({nodeZero, nodeOne} : Set Nid) → i ≠ nodeOne → True → passed i = t.sent i)
  := by
  have hrun : (exampleTraffic.foldlM (fun s e =>
      if checkRoom 16384 s e && s.checkLink then s.step 16384 100 e else none)
        exampleReady).map (fun t => (t.sent nodeZero, decide t.Quiet)) =
          some ([[1, 2]], true) := by decide +kernel
  obtain ⟨t, ht, hmap⟩ := Option.map_eq_some_iff.mp hrun
  obtain ⟨hsent, hquiet⟩ := Prod.mk.inj hmap
  refine ⟨t, hsent, ?_⟩
  apply @received_all 16384 100 exampleReady t (fun _ _ => True)
  · rintro _ (rfl | rfl) <;> exact ⟨rfl, rfl, rfl, rfl⟩
  · decide +kernel
  · intro _
    exact ⟨rfl, rfl⟩
  · apply Reaches.of_checked _ ht
    intro u e h
    obtain ⟨hroom, hlink⟩ := Bool.and_eq_true_iff.mp h
    exact ⟨accepts_of_checkRoom hroom,
      fun p hp => ⟨fun _ => trivial, fun _ => linked_of_checkLink hlink hp⟩⟩
  · exact of_decide_eq_true hquiet
  · exact Or.inr rfl

end FrameNet
