import SyNetsim.Simulator.LinkInfo

/-!
# Indices from the configuration

Node ids, stream ids and sizes come from the config file (`parse_config` of `simulator_config.c`) or
from messages of the front end (`sim_remote_conf.c`), and are used as indices on arrays of the
simulator, the PHY and the nodes, which nothing is checked against. `Simulation` is the simulator
with its processes and the message queues to them, and `Simulation.accesses` are the indices that an
event uses, with the length of the packet that it builds.

The configuration that an event brings is in range (`Simulation.ConfInRange`) if no index that it
leads to is out of bounds.
-/

/-! ### Arrays -/

/-- An array that is indexed with values of the configuration. Both indices of `link` and of
`links` are on an array of the same size. -/
inductive ConfArray where
  | nodes
  | link
  | links
  | activeNode
  | linkconfs
  | dummyStreamInfo
  | dummyTrafficTimers
deriving DecidableEq

/-- `MAX_SIMLINK_CONF_NUM`. -/
def maxSimlinkConfNum : ℕ := 1000

/-- The size of an array. -/
def ConfArray.size : ConfArray → ℕ
  | nodes => maxNodeId
  | link => maxNodeId
  | links => maxNodeId
  | activeNode => maxNodeId
  | linkconfs => maxSimlinkConfNum
  | dummyStreamInfo => maxDummystreamConfNum
  | dummyTrafficTimers => maxDummyStreams

/-- An index used on an array, or the length of a packet that `send_dummy_packet` builds. -/
inductive ConfAccess where
  | index (array : ConfArray) (i : ℤ)
  | packet (length : ℕ)
deriving DecidableEq

/-- The index is within its array, or the packet fits into a `PacketBuf`. -/
def ConfAccess.InBounds : ConfAccess → Prop
  | index array i => 0 ≤ i ∧ i < array.size
  | packet length => length ≤ packetBufSize

instance : DecidablePred ConfAccess.InBounds
  | .index array i => inferInstanceAs (Decidable (0 ≤ i ∧ i < array.size))
  | .packet length => inferInstanceAs (Decidable (length ≤ packetBufSize))

theorem ConfAccess.index_inBounds {array : ConfArray} {i : ℕ} (h : i < array.size) :
  (index array i).InBounds
  := by
  constructor
  · apply Int.natCast_nonneg
  · apply Int.ofNat_lt.mpr h

/-! ### The config file -/

/-- An element of `links` in the config file: the values of its items, where `nid1` or `nid2` is
`none` if there is no such item, and the others if they are not numbers. -/
structure LinkJson where
  nid1 : Option ℤ
  nid2 : Option ℤ
  los : Option ℤ
  pathloss : Option ℚ
deriving DecidableEq

/-- An element of `dummy_traffic` in the config file: the values of its items, `none` if there is
no such item. -/
structure DummyJson where
  srcId : Option ℤ
  dstId : Option ℤ
  payloadSize : Option ℤ
  intervalMs : Option ℤ
deriving DecidableEq

/-- A config file: its arrays, `none` for what is not an array. Of an element of `nodes` it has the
value of the item `id`, `none` if there is no such item. -/
structure ConfigFile where
  nodes : Option (List (Option ℤ))
  links : Option (List LinkJson)
  dummyTraffic : Option (List DummyJson)
deriving DecidableEq

/-- A `SimulatorConfig`. -/
structure SimulatorConfig where
  activeNode : ℕ → Bool
  dummystreamConfNum : ℕ
  dummyStreamInfo : ℕ → NetSetDummyTrafficConfig
  simlinkConfNum : ℕ
  linkconfs : ℕ → PhyLinkConfig

/-- The configuration in a new context. -/
def SimulatorConfig.zero : SimulatorConfig where
  activeNode _ := false
  dummystreamConfNum := 0
  dummyStreamInfo _ := ⟨0, 0, 0, 0, 0⟩
  simlinkConfNum := 0
  linkconfs _ := ⟨0, 0, 0, 0⟩

/-- A part of `parse_config`: the indices it uses, and the configuration after it, or `none` if the
process exits or follows a null pointer. -/
structure ConfParse where
  accesses : List ConfAccess
  conf : Option SimulatorConfig

namespace ConfParse

/-- One part of `parse_config` after another. -/
def andThen (p : ConfParse) (f : SimulatorConfig → ConfParse) : ConfParse :=
  match p.conf with
  | none => p
  | some conf => ⟨p.accesses ++ (f conf).accesses, (f conf).conf⟩

/-- A loop of `parse_config` over an array. -/
def forEach {α : Type} (f : SimulatorConfig → α → ConfParse) :
    List α → SimulatorConfig → ConfParse
  | [], conf => ⟨[], some conf⟩
  | x :: l, conf => (f conf x).andThen (forEach f l)

end ConfParse

namespace SimulatorConfig

/-- The body of the loop over `nodes`. -/
def parseNode (conf : SimulatorConfig) : Option ℤ → ConfParse
  | none => ⟨[], none⟩
  | some nid =>
      ⟨[.index .activeNode nid],
        some { conf with activeNode := Function.update conf.activeNode nid.toNat true }⟩

/-- The configuration of a link in the config file. -/
def linkConf (nid1 nid2 : ℤ) (los : Option ℤ) (pathloss : Option ℚ) : PhyLinkConfig where
  nodeId1 := .ofInt 8 nid1
  nodeId2 := .ofInt 8 nid2
  los := los.elim 1 (.ofInt 8)
  pathlossX100 := pathloss.elim 0 (fun x => .ofInt 32 (x.num.tdiv x.den))

/-- The body of the loop over `links`. -/
def parseLink (conf : SimulatorConfig) (json : LinkJson) : ConfParse :=
  ⟨[.index .linkconfs conf.simlinkConfNum],
    match json.nid1, json.nid2 with
    | some nid1, some nid2 => some { conf with
        linkconfs := Function.update conf.linkconfs conf.simlinkConfNum
          (linkConf nid1 nid2 json.los json.pathloss)
        simlinkConfNum := conf.simlinkConfNum + 1 }
    | _, _ => none⟩

/-- The configuration of a stream in the config file. -/
def streamConf (confId : ℕ) (srcId dstId payloadSize intervalMs : ℤ) :
    NetSetDummyTrafficConfig where
  confId := .ofNat 16 confId
  srcId := .ofInt 16 srcId
  dstId := .ofInt 16 dstId
  payloadSize := .ofInt 16 payloadSize
  intervalMs := .ofInt 16 intervalMs

/-- The body of the loop over `dummy_traffic`. The process exits when there are too many. -/
def parseDummy (conf : SimulatorConfig) (json : DummyJson) : ConfParse :=
  if maxDummystreamConfNum ≤ conf.dummystreamConfNum then ⟨[], none⟩
  else
    match json.srcId, json.dstId, json.payloadSize, json.intervalMs with
    | some srcId, some dstId, some payloadSize, some intervalMs =>
        ⟨[.index .dummyStreamInfo conf.dummystreamConfNum],
          some { conf with
            dummyStreamInfo := Function.update conf.dummyStreamInfo conf.dummystreamConfNum
              (streamConf conf.dummystreamConfNum srcId dstId payloadSize intervalMs)
            dummystreamConfNum := conf.dummystreamConfNum + 1 }⟩
    | _, _, _, _ => ⟨[], none⟩

/-- `parse_config`. The process exits if `nodes` is not an array. -/
def parseConfig (conf : SimulatorConfig) (file : ConfigFile) : ConfParse :=
  match file.nodes with
  | none => ⟨[], none⟩
  | some nodes =>
      ((ConfParse.forEach parseNode nodes conf).andThen
        (ConfParse.forEach parseLink (file.links.getD []))).andThen
        (ConfParse.forEach parseDummy (file.dummyTraffic.getD []))

/-- The indices that `start_simulate_local` uses. -/
def startAccesses (conf : SimulatorConfig) : List ConfAccess :=
  (List.range maxNodeId).flatMap (fun i : ℕ =>
    .index .activeNode i :: if conf.activeNode i then [.index .nodes i] else [])

end SimulatorConfig

/-! ### The simulation -/

/-- The process of a node: there is none; it has been started and has not come to `mq_flush`; it is
in its main loop. -/
inductive SimnetProcess where
  | absent
  | starting
  | running (ctx : SimNetCtx)

/-- A message that `send_config_msgs` is going to send: the configuration of a stream, or of a
link. -/
inductive ConfigMsg where
  | dummystream (i : ℕ)
  | link (i : ℕ)

/-- The simulator, in server mode or in local mode or before it is in either, with the messages of
`send_config_msgs` still to be sent; the links and the PHY; the queues to the nodes; the nodes. -/
structure Simulation where
  serverMode : Option Bool
  conf : SimulatorConfig
  configMsgs : List ConfigMsg
  link : LinkRun
  netCommands : ℕ → List NetCommand
  nodes : ℕ → SimnetProcess

/-- What happens. The simulator goes into server mode, or into local mode with a config file; it
sends the next message of `send_config_msgs`; it handles a message of the front end; it goes through
the next element of a `LinkInfo` message. The PHY takes its next step. A message for node `n` is
refused because the queue is full; the node comes to its main loop; it processes the next command;
its timer queue goes through one round. -/
inductive SimulationEvent where
  | startServer
  | startLocal (file : ConfigFile)
  | sendConfig
  | traffic (msg : TrafficMsg)
  | linkInfo (links : List (List (Option ℚ))) (msg : PhyLinkConfig)
  | linkEntry
  | start (nodenum : ℤ)
  | phy
  | refused (n : ℕ)
  | startNode (n : ℕ) (now : Timespec)
  | recvCommand (n : ℕ) (now : Timespec)
  | work (n : ℕ) (currtime : Timespec) (rand : ℕ)
deriving DecidableEq

namespace Simulation

/-- The part of the context that is about dummy traffic. -/
def traffic (sim : Simulation) : TrafficCtx := ⟨sim.conf.dummyStreamInfo, sim.netCommands⟩

/-- Write back the part of the context that is about dummy traffic. -/
def setTraffic (sim : Simulation) (sctx : TrafficCtx) : Simulation :=
  { sim with
    conf := { sim.conf with dummyStreamInfo := sctx.dummyStreamInfo }
    netCommands := sctx.netCommands }

/-- The simulator handles messages of the front end, and is not in the midst of one. -/
def Idle (sim : Simulation) : Prop := sim.serverMode = some true ∧ sim.link.todo = []

instance (sim : Simulation) : Decidable sim.Idle :=
  inferInstanceAs (Decidable (_ ∧ _))

/-- `simulator_start_local`, up to `send_config_msgs`. It gives `none` if the process ends. -/
def startLocal (sim : Simulation) (file : ConfigFile) : Option Simulation := do
  let conf ← (sim.conf.parseConfig file).conf
  return { sim with
    serverMode := some false
    conf := conf
    configMsgs := (List.range conf.dummystreamConfNum).map .dummystream ++
      (List.range conf.simlinkConfNum).map .link
    link := { sim.link with phy := .starting }
    nodes := fun i => if conf.activeNode i then .starting else .absent }

/-- Send a message of `send_config_msgs`. -/
def sendConfig (cap : ℕ) (sim : Simulation) : ConfigMsg → Option Simulation
  | .dummystream i => do
      let info := sim.conf.dummyStreamInfo i
      let sctx ← sim.traffic.sendNetCommand info.srcId (.set info)
      return sim.setTraffic sctx
  | .link i =>
      some { sim with link := { sim.link with
        phyCommand := (sendMq cap sim.link.phyCommand (sim.conf.linkconfs i)).2 } }

/-- `start_simulate_remote`: all processes are killed, and others started. -/
def startSimulateRemote (sim : Simulation) (nodenum : ℤ) : Simulation :=
  { sim with
    link := { sim.link with phy := .starting }
    nodes := fun i => if (i : ℤ) < nodenum then .starting else .absent }

/-- What an event does. It gives `none` if the event cannot happen, if the process it happens in
ends, or if it uses memory wrongly. -/
def step (cap : ℕ) (sim : Simulation) : SimulationEvent → Option Simulation
  | .startServer =>
      if sim.serverMode = none then some { sim with serverMode := some true } else none
  | .startLocal file => if sim.serverMode = none then sim.startLocal file else none
  | .sendConfig =>
      match sim.configMsgs with
      | [] => none
      | msg :: msgs => do
          let sim ← sim.sendConfig cap msg
          return { sim with configMsgs := msgs }
  | .traffic msg =>
      if sim.Idle then do
        let sctx ← sim.traffic.handleRemoteConfMsg msg
        return sim.setTraffic sctx
      else none
  | .linkInfo links msg =>
      if sim.Idle then do
        let link ← sim.link.step cap (.linkInfo links msg)
        return { sim with link := link }
      else none
  | .linkEntry => do
      let link ← sim.link.step cap .entry
      return { sim with link := link }
  | .start nodenum =>
      if sim.Idle ∧ nodenum ≤ maxNodeId then some (sim.startSimulateRemote nodenum) else none
  | .phy => do
      let link ← sim.link.step cap .phy
      return { sim with link := link }
  | .refused n =>
      some { sim with
        netCommands := Function.update sim.netCommands n (sim.netCommands n).dropLast }
  | .startNode n now =>
      match sim.nodes n with
      | .starting => do
          let ctx ← SimNetCtx.startReportJob (.ofNat 8 n) now
          return { sim with
            netCommands := Function.update sim.netCommands n []
            nodes := Function.update sim.nodes n (.running ctx) }
      | _ => none
  | .recvCommand n now =>
      match sim.nodes n, sim.netCommands n with
      | .running ctx, cmd :: cmds => do
          let ctx ← ctx.processCommand now cmd
          return { sim with
            netCommands := Function.update sim.netCommands n cmds
            nodes := Function.update sim.nodes n (.running ctx) }
      | _, _ => none
  | .work n currtime rand =>
      match sim.nodes n with
      | .running ctx => do
          let ctx ← ctx.timerqueueWork currtime rand
          return { sim with nodes := Function.update sim.nodes n (.running ctx) }
      | _ => none

/-- The simulator has a new context, and nothing has been started. The local variable of the
handler of `LinkInfo` messages is not initialised. -/
def init (msg : PhyLinkConfig) : Simulation where
  serverMode := none
  conf := .zero
  configMsgs := []
  link := LinkRun.init msg
  netCommands _ := []
  nodes _ := .absent

end Simulation

/-! ### Indices that an event uses -/

/-- The indices that a message about dummy traffic uses. -/
def TrafficMsg.accesses (sctx : TrafficCtx) : TrafficMsg → List ConfAccess
  | startDummyTraffic json => startAccesses json
  | updateDummyTrafficConf json => startAccesses json
  | stopDummyTraffic confId => stopAccesses confId
  | deleteDummyTrafficConf confId => stopAccesses confId
where
  /-- The indices that `handle_start_dummy_traffic` uses. -/
  startAccesses (json : DummyTrafficJson) : List ConfAccess :=
    match json.confId with
    | none => []
    | some confId => .index .dummyStreamInfo confId ::
        match json.sourceNodeId, json.destinationNodeId, json.packetSize, json.intervalMs with
        | some srcId, some _, some _, some _ => [.index .nodes (BitVec.ofInt 16 srcId).toNat]
        | _, _, _, _ => []
  /-- The indices that `handle_stop_dummy_traffic` uses. -/
  stopAccesses (confId : Option ℤ) : List ConfAccess :=
    match confId with
    | none => []
    | some confId =>
        let i := (BitVec.ofInt 16 confId).toNat
        [.index .dummyStreamInfo i, .index .nodes (sctx.dummyStreamInfo i).srcId.toNat]

/-- The indices that a command uses on a node. -/
def NetCommand.accesses (cmd : NetCommand) : List ConfAccess :=
  [.index .dummyTrafficTimers cmd.confId.toNat]

namespace SimNetCtx

/-- The packet that a round of `timerqueue_work` builds, if it builds one. -/
def workAccesses (ctx : SimNetCtx) (currtime : Timespec) : List ConfAccess :=
  match ctx.timerqueue.fired currtime with
  | some (.sendDummyPacket c) =>
      match ctx.confs.search c with
      | some conf => [.packet (ctx.dummyPacket conf).length]
      | none => []
  | _ => []

end SimNetCtx

namespace Simulation

/-- The indices used to send a message of `send_config_msgs`. -/
def configAccesses (sim : Simulation) : ConfigMsg → List ConfAccess
  | .dummystream i =>
      [.index .dummyStreamInfo i, .index .nodes (sim.conf.dummyStreamInfo i).srcId.toNat]
  | .link i => [.index .linkconfs i]

/-- The indices that an event uses on the arrays, and the length of the packet it builds. An event
that cannot happen uses none. -/
def accesses (sim : Simulation) : SimulationEvent → List ConfAccess
  | .startServer => []
  | .startLocal file =>
      if sim.serverMode = none then
        let parse := sim.conf.parseConfig file
        parse.accesses ++ parse.conf.elim [] SimulatorConfig.startAccesses
      else []
  | .sendConfig => sim.configMsgs.head?.elim [] sim.configAccesses
  | .traffic msg => if sim.Idle then msg.accesses sim.traffic else []
  | .linkInfo _ _ => []
  | .linkEntry => sim.link.todo.head?.elim [] (fun entry =>
      [.index .link entry.node1, .index .link entry.node2])
  | .start nodenum =>
      if sim.Idle then (List.range nodenum.toNat).map (fun i : ℕ => .index .nodes i) else []
  | .phy =>
      match sim.link.phy, sim.link.phyCommand with
      | .running _, cmd :: _ => [.index .links cmd.nodeId1.toNat, .index .links cmd.nodeId2.toNat]
      | _, _ => []
  | .refused _ => []
  | .startNode _ _ => []
  | .recvCommand n _ =>
      match sim.nodes n, sim.netCommands n with
      | .running _, cmd :: _ => cmd.accesses
      | _, _ => []
  | .work n currtime _ =>
      match sim.nodes n with
      | .running ctx => ctx.workAccesses currtime
      | _ => []

end Simulation

/-! ### Configurations in range -/

/-- The packets of a stream fit into a `PacketBuf`. -/
def NetSetDummyTrafficConfig.Fits (conf : NetSetDummyTrafficConfig) : Prop :=
  conf.payloadSize.toNat + 28 ≤ packetBufSize

/-- The nodes of a configuration are in range. -/
def PhyLinkConfig.InRange (msg : PhyLinkConfig) : Prop :=
  msg.nodeId1.toNat < maxNodeId ∧ msg.nodeId2.toNat < maxNodeId

/-- What `handle_start_dummy_traffic` reads is in range: the id of the stream, and if no field is
missing, the source and the size of the packets. -/
def DummyTrafficJson.ConfInRange (json : DummyTrafficJson) : Prop :=
  ∀ confId, json.confId = some confId → (0 ≤ confId ∧ confId < maxDummystreamConfNum) ∧
    ∀ srcId dstId payloadSize intervalMs,
      json = ⟨some confId, some srcId, some dstId, some payloadSize, some intervalMs⟩ →
      (BitVec.ofInt 16 srcId).toNat < maxNodeId ∧
        (BitVec.ofInt 16 payloadSize).toNat + 28 ≤ packetBufSize

/-- What `handle_stop_dummy_traffic` reads is in range: the id of the stream, and the source in its
record. -/
def TrafficCtx.StopInRange (sctx : TrafficCtx) (confId : Option ℤ) : Prop :=
  ∀ id, confId = some id → (BitVec.ofInt 16 id).toNat < maxDummystreamConfNum ∧
    (sctx.dummyStreamInfo (BitVec.ofInt 16 id).toNat).srcId.toNat < maxNodeId

/-- A message about dummy traffic is in range. -/
def TrafficMsg.ConfInRange (sctx : TrafficCtx) : TrafficMsg → Prop
  | startDummyTraffic json => json.ConfInRange
  | updateDummyTrafficConf json => json.ConfInRange
  | stopDummyTraffic confId => sctx.StopInRange confId
  | deleteDummyTrafficConf confId => sctx.StopInRange confId

/-- A `LinkInfo` message is in range, for a handler whose local variable holds `msg`: there are no
more than `MAX_NODE_ID` nodes, and the first element is a number unless `msg` is in range. -/
def LinkInfoInRange (links : List (List (Option ℚ))) (msg : PhyLinkConfig) : Prop :=
  (∀ entry ∈ linkEntries links, entry.node2 < maxNodeId) ∧
    ((∀ entry ∈ (linkEntries links).head?, entry.link ≠ none) ∨ msg.InRange)

/-- An element of `links` has both its nodes. -/
def LinkJson.complete (json : LinkJson) : Bool := json.nid1.isSome && json.nid2.isSome

/-- An element of `dummy_traffic` has all its items. -/
def DummyJson.complete (json : DummyJson) : Bool :=
  json.srcId.isSome && json.dstId.isSome && json.payloadSize.isSome && json.intervalMs.isSome

/-- What `parse_config` comes to in a config file is in range: the nodes before one without an id;
if there is none, the number of links up to one that is not complete; and if the whole file is read,
the nodes of the links, and the sources and the sizes of the packets of the streams. -/
structure ConfigFile.InRange (file : ConfigFile) : Prop where
  nodes : ∀ nodes, file.nodes = some nodes →
    ∀ nid, some nid ∈ nodes.takeWhile Option.isSome → 0 ≤ nid ∧ nid < maxNodeId
  links : ∀ nodes, file.nodes = some nodes → none ∉ nodes →
    min (file.links.getD []).length
      (((file.links.getD []).takeWhile LinkJson.complete).length + 1) ≤ maxSimlinkConfNum
  sent : ∀ nodes, file.nodes = some nodes → none ∉ nodes →
    (∀ json ∈ file.links.getD [], json.complete = true) →
    (∀ json ∈ file.dummyTraffic.getD [], json.complete = true) →
    (file.dummyTraffic.getD []).length ≤ maxDummystreamConfNum →
    (∀ json ∈ file.links.getD [], ∀ nid1 nid2, json.nid1 = some nid1 → json.nid2 = some nid2 →
      (BitVec.ofInt 8 nid1).toNat < maxNodeId ∧ (BitVec.ofInt 8 nid2).toNat < maxNodeId) ∧
    ∀ json ∈ file.dummyTraffic.getD [], ∀ srcId payloadSize, json.srcId = some srcId →
      json.payloadSize = some payloadSize → (BitVec.ofInt 16 srcId).toNat < maxNodeId ∧
        (BitVec.ofInt 16 payloadSize).toNat + 28 ≤ packetBufSize

namespace Simulation

/-- The configuration that an event brings is in range. -/
def ConfInRange (sim : Simulation) : SimulationEvent → Prop
  | .startLocal file => file.InRange
  | .traffic msg => msg.ConfInRange sim.traffic
  | .linkInfo links msg => LinkInfoInRange links msg
  | .start nodenum => nodenum ≤ maxNodeId
  | _ => True

end Simulation
