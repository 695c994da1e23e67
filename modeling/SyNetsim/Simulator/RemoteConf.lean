import SyNetsim.Simnet.Dummy

/-!
# Configuration of dummy traffic

`handle_start_dummy_traffic` and `handle_stop_dummy_traffic` of `sim_remote_conf.c`: the simulator
keeps the configuration of every stream and sends the commands about it to the node that is its
source, over a message queue for each node. The handler of a start or an update writes the new
source to its record before it sends the command, so the node that was the source before hears
nothing of it.

As long as a stream is started only when it is stopped, and updated without changing its source
unless it is stopped, a stream runs on its source and on no other node once all commands have
been processed (`TrafficRun.at_most_its_source`).
-/

/-! ### Messages of the front end -/

/-- `MAX_DUMMYSTREAM_CONF_NUM`. -/
def maxDummystreamConfNum : ℕ := 100

/-- `MAX_NODE_ID`. -/
def maxNodeId : ℕ := 128

/-- The fields of `StartDummyTraffic` and `UpdateDummyTrafficConf`, where a field that is missing
or not a number is `none`. -/
structure DummyTrafficJson where
  confId : Option ℤ
  sourceNodeId : Option ℤ
  destinationNodeId : Option ℤ
  packetSize : Option ℤ
  intervalMs : Option ℤ
deriving DecidableEq

/-- The messages about dummy traffic. -/
inductive TrafficMsg where
  | startDummyTraffic (json : DummyTrafficJson)
  | updateDummyTrafficConf (json : DummyTrafficJson)
  | stopDummyTraffic (confId : Option ℤ)
  | deleteDummyTrafficConf (confId : Option ℤ)
deriving DecidableEq

/-! ### The simulator -/

/-- The fields of `SimulatorCtx` that dummy traffic uses: the array `dummy_stream_info`, and the
queue of commands to each node. -/
structure TrafficCtx where
  dummyStreamInfo : ℕ → NetSetDummyTrafficConfig
  netCommands : ℕ → List NetCommand

namespace TrafficCtx

/-- Write to the record of a stream. -/
def setStream (sctx : TrafficCtx) (i : ℕ)
    (f : NetSetDummyTrafficConfig → NetSetDummyTrafficConfig) : TrafficCtx :=
  { sctx with
    dummyStreamInfo := Function.update sctx.dummyStreamInfo i (f (sctx.dummyStreamInfo i)) }

/-- `send_mq` to the node `nodeId`, whose queue has room. It gives `none` if there is no such
node. -/
def sendNetCommand (sctx : TrafficCtx) (nodeId : BitVec 16) (cmd : NetCommand) :
    Option TrafficCtx :=
  if maxNodeId ≤ nodeId.toNat then none
  else
    some { sctx with
      netCommands := Function.update sctx.netCommands nodeId.toNat
        (sctx.netCommands nodeId.toNat ++ [cmd]) }

/-- `handle_start_dummy_traffic`. A field that is missing ends it, with the fields before it
written. It gives `none` if there is no record for the stream. -/
def handleStartDummyTraffic (sctx : TrafficCtx) (json : DummyTrafficJson) (isUpdate : Bool) :
    Option TrafficCtx :=
  match json.confId with
  | none => some sctx
  | some confId =>
      if confId < 0 ∨ maxDummystreamConfNum ≤ confId then none
      else
        let i := confId.toNat
        let sctx := sctx.setStream i (fun msg => { msg with confId := .ofInt 16 confId })
        match json.sourceNodeId with
        | none => some sctx
        | some srcId =>
            let sctx := sctx.setStream i (fun msg => { msg with srcId := .ofInt 16 srcId })
            match json.destinationNodeId with
            | none => some sctx
            | some dstId =>
                let sctx := sctx.setStream i (fun msg => { msg with dstId := .ofInt 16 dstId })
                match json.packetSize with
                | none => some sctx
                | some payloadSize =>
                    let sctx := sctx.setStream i
                      (fun msg => { msg with payloadSize := .ofInt 16 payloadSize })
                    match json.intervalMs with
                    | none => some sctx
                    | some intervalMs =>
                        let sctx := sctx.setStream i
                          (fun msg => { msg with intervalMs := .ofInt 16 intervalMs })
                        let msg := sctx.dummyStreamInfo i
                        sctx.sendNetCommand msg.srcId (if isUpdate then .update msg else .set msg)

/-- `handle_stop_dummy_traffic`. It gives `none` if there is no record for the stream. -/
def handleStopDummyTraffic (sctx : TrafficCtx) (confId : Option ℤ) : Option TrafficCtx :=
  match confId with
  | none => some sctx
  | some confId =>
      let confId := BitVec.ofInt 16 confId
      if maxDummystreamConfNum ≤ confId.toNat then none
      else sctx.sendNetCommand (sctx.dummyStreamInfo confId.toNat).srcId (.unset confId)

/-- The part of `handle_remote_conf_msg` for dummy traffic. -/
def handleRemoteConfMsg (sctx : TrafficCtx) : TrafficMsg → Option TrafficCtx
  | .startDummyTraffic json => sctx.handleStartDummyTraffic json false
  | .updateDummyTrafficConf json => sctx.handleStartDummyTraffic json true
  | .stopDummyTraffic confId => sctx.handleStopDummyTraffic confId
  | .deleteDummyTrafficConf confId => sctx.handleStopDummyTraffic confId

end TrafficCtx

/-! ### The latest message about a stream -/

namespace TrafficMsg

/-- The field `confId`. -/
def confId : TrafficMsg → Option ℤ
  | startDummyTraffic json => json.confId
  | updateDummyTrafficConf json => json.confId
  | stopDummyTraffic confId => confId
  | deleteDummyTrafficConf confId => confId

/-- The field `sourceNodeId` of a start or an update. -/
def sourceNodeId : TrafficMsg → Option ℤ
  | startDummyTraffic json => json.sourceNodeId
  | updateDummyTrafficConf json => json.sourceNodeId
  | stopDummyTraffic _ => none
  | deleteDummyTrafficConf _ => none

end TrafficMsg

/-- The ids of a start or an update are in range, and no field is missing. -/
def DummyTrafficJson.inRange (json : DummyTrafficJson) : Bool :=
  json.confId.any (fun confId : ℤ => 0 ≤ confId ∧ confId < maxDummystreamConfNum) &&
    json.sourceNodeId.any (fun srcId : ℤ => 0 ≤ srcId ∧ srcId < maxNodeId) &&
    json.destinationNodeId.isSome && json.packetSize.isSome && json.intervalMs.isSome

/-- The ids of a message are in range. -/
def TrafficMsg.inRange : TrafficMsg → Bool
  | startDummyTraffic json => json.inRange
  | updateDummyTrafficConf json => json.inRange
  | stopDummyTraffic confId =>
      confId.any (fun confId : ℤ => 0 ≤ confId ∧ confId < maxDummystreamConfNum)
  | deleteDummyTrafficConf confId =>
      confId.any (fun confId : ℤ => 0 ≤ confId ∧ confId < maxDummystreamConfNum)

/-- The latest message about a stream. -/
def latestMsg (msgs : List TrafficMsg) (id : ℕ) : Option TrafficMsg :=
  msgs.reverse.find? (fun msg => msg.confId = some (id : ℤ))

/-- The node a stream should run on: the source that the latest message about it gives, if that is
a start or an update. -/
def latestSource (msgs : List TrafficMsg) (id : ℕ) : Option ℤ :=
  (latestMsg msgs id).bind TrafficMsg.sourceNodeId

/-- A stream is started only when it is stopped, and updated only with the source it has or when
it is stopped. -/
def Orderly (msgs : List TrafficMsg) : TrafficMsg → Prop
  | .startDummyTraffic json => ∀ id : ℕ, json.confId = some (id : ℤ) → latestSource msgs id = none
  | .updateDummyTrafficConf json => ∀ id : ℕ, json.confId = some (id : ℤ) →
      latestSource msgs id = none ∨ latestSource msgs id = json.sourceNodeId
  | .stopDummyTraffic _ => True
  | .deleteDummyTrafficConf _ => True

/-! ### Runs -/

/-- The simulator and the nodes, with the messages handled. -/
structure TrafficRun where
  sctx : TrafficCtx
  nodes : ℕ → DummyRun
  msgs : List TrafficMsg

/-- What happens: the simulator handles a message, the node `n` processes the first command of its
queue, or its timer queue goes through one round. -/
inductive TrafficEvent where
  | msg (msg : TrafficMsg)
  | recvCommand (n : ℕ) (now : Timespec)
  | work (n : ℕ) (currtime : Timespec) (rand : ℕ)

namespace TrafficRun

/-- What an event does. -/
def step (run : TrafficRun) : TrafficEvent → Option TrafficRun
  | .msg msg => do
      let sctx ← run.sctx.handleRemoteConfMsg msg
      return { run with sctx := sctx, msgs := run.msgs ++ [msg] }
  | .recvCommand n now =>
      match run.sctx.netCommands n with
      | [] => none
      | cmd :: cmds => do
          let node ← (run.nodes n).step (.command now cmd)
          return { run with
            sctx := { run.sctx with netCommands := Function.update run.sctx.netCommands n cmds }
            nodes := Function.update run.nodes n node }
  | .work n currtime rand => do
      let node ← (run.nodes n).step (.work currtime rand)
      return { run with nodes := Function.update run.nodes n node }

/-- The nodes have just started, no command is in a queue, and the record of every stream is
zero. -/
structure Starts (run : TrafficRun) : Prop where
  nodes : ∀ n, ∃ nodeId now ctx, SimNetCtx.startReportJob nodeId now = some ctx ∧
    run.nodes n = ⟨ctx, []⟩
  dummyStreamInfo : ∀ i, run.sctx.dummyStreamInfo i = ⟨0, 0, 0, 0, 0⟩
  netCommands : ∀ n, run.sctx.netCommands n = []
  msgs : run.msgs = []

/-- The message of an event has ids in range. -/
def InRange : TrafficEvent → Prop
  | .msg msg => msg.inRange = true
  | _ => True

/-- The message of an event is orderly. -/
def IsOrderly (run : TrafficRun) : TrafficEvent → Prop
  | .msg msg => Orderly run.msgs msg
  | _ => True

end TrafficRun

/-! ### Messages in range -/

theorem exists_nat_of_any {v : Option ℤ} {m : ℕ}
    (h : v.any (fun x : ℤ => 0 ≤ x ∧ x < m) = true) :
  ∃ n : ℕ, v = some (n : ℤ) ∧ n < m
  := by
  cases v with
  | none => contradiction
  | some x =>
      rw [Option.any_some, decide_eq_true_eq] at h
      refine ⟨x.toNat, ?_, ?_⟩
      · rw [Int.toNat_of_nonneg h.1]
      · omega

/-- The configuration that a start or an update gives. -/
def DummyTrafficJson.conf (id src : ℕ) (dstId payloadSize intervalMs : ℤ) :
    NetSetDummyTrafficConfig where
  confId := .ofNat 16 id
  srcId := .ofNat 16 src
  dstId := .ofInt 16 dstId
  payloadSize := .ofInt 16 payloadSize
  intervalMs := .ofInt 16 intervalMs

theorem DummyTrafficJson.exists_of_inRange {json : DummyTrafficJson} (h : json.inRange = true) :
  ∃ (id src : ℕ) (dstId payloadSize intervalMs : ℤ), id < maxDummystreamConfNum ∧ src < maxNodeId ∧
    json = ⟨some (id : ℤ), some (src : ℤ), some dstId, some payloadSize, some intervalMs⟩
  := by
  obtain ⟨confId, sourceNodeId, destinationNodeId, packetSize, intervalMs⟩ := json
  simp only [inRange, Bool.and_eq_true] at h
  obtain ⟨⟨⟨⟨hid, hsrc⟩, hdst⟩, hsize⟩, hinterval⟩ := h
  obtain ⟨id, rfl, hid'⟩ := exists_nat_of_any hid
  obtain ⟨src, rfl, hsrc'⟩ := exists_nat_of_any hsrc
  obtain ⟨dstId, rfl⟩ := Option.isSome_iff_exists.mp hdst
  obtain ⟨payloadSize, rfl⟩ := Option.isSome_iff_exists.mp hsize
  obtain ⟨interval, rfl⟩ := Option.isSome_iff_exists.mp hinterval
  exact ⟨id, src, dstId, payloadSize, interval, hid', hsrc', rfl⟩

namespace TrafficCtx

/-- A start or an update in range writes its configuration and sends it to the new source. -/
theorem handleStartDummyTraffic_eq (sctx : TrafficCtx) {id src : ℕ}
    (hid : id < maxDummystreamConfNum) (hsrc : src < maxNodeId)
    (dstId payloadSize intervalMs : ℤ) (isUpdate : Bool) :
  sctx.handleStartDummyTraffic
      ⟨some (id : ℤ), some (src : ℤ), some dstId, some payloadSize, some intervalMs⟩ isUpdate =
    some {
      dummyStreamInfo := Function.update sctx.dummyStreamInfo id
        (DummyTrafficJson.conf id src dstId payloadSize intervalMs)
      netCommands := Function.update sctx.netCommands src (sctx.netCommands src ++
        [if isUpdate then .update (DummyTrafficJson.conf id src dstId payloadSize intervalMs)
          else .set (DummyTrafficJson.conf id src dstId payloadSize intervalMs)]) }
  := by
  have hrange : ¬ ((id : ℤ) < 0 ∨ (maxDummystreamConfNum : ℤ) ≤ (id : ℤ)) := by omega
  have hnode : (BitVec.ofNat 16 src).toNat = src :=
    toNat_ofNat_of_lt (Nat.lt_trans hsrc (by decide))
  simp only [handleStartDummyTraffic, if_neg hrange, Int.toNat_natCast, setStream,
    Function.update_self, Function.update_idem, BitVec.ofInt_natCast, sendNetCommand, hnode,
    if_neg (Nat.not_le_of_lt hsrc)]
  rfl

/-- A stop in range goes to the source in the record. -/
theorem handleStopDummyTraffic_eq (sctx : TrafficCtx) {id : ℕ} (hid : id < maxDummystreamConfNum)
    (hsrc : (sctx.dummyStreamInfo id).srcId.toNat < maxNodeId) :
  sctx.handleStopDummyTraffic (some (id : ℤ)) =
    some { sctx with
      netCommands := Function.update sctx.netCommands (sctx.dummyStreamInfo id).srcId.toNat
        (sctx.netCommands (sctx.dummyStreamInfo id).srcId.toNat ++ [.unset (.ofNat 16 id)]) }
  := by
  have hconf : (BitVec.ofNat 16 id).toNat = id :=
    toNat_ofNat_of_lt (Nat.lt_trans hid (by decide))
  simp only [handleStopDummyTraffic, BitVec.ofInt_natCast, hconf, if_neg (Nat.not_le_of_lt hid),
    sendNetCommand, if_neg (Nat.not_le_of_lt hsrc)]

end TrafficCtx

/-- The latest source after one more message. -/
theorem latestSource_append (msgs : List TrafficMsg) (msg : TrafficMsg) (id : ℕ) :
  latestSource (msgs ++ [msg]) id =
    if msg.confId = some (id : ℤ) then msg.sourceNodeId else latestSource msgs id
  := by
  rw [latestSource, latestMsg, List.reverse_append, List.reverse_singleton, List.singleton_append,
    List.find?_cons]
  split_ifs with hid
  · simp [hid]
  · simp [hid, latestSource, latestMsg]

/-! ### Commands on their way -/

/-- The slots of a node that will be in use when the commands have been processed. -/
def slotsAfter (used : ℕ → Bool) (cmds : List NetCommand) : ℕ → Bool :=
  cmds.foldl (fun used cmd => cmd.slots used) used

/-- No command sets a stream whose slot is in use when it is processed. -/
def SetsFree (used : ℕ → Bool) : List NetCommand → Prop
  | [] => True
  | cmd :: cmds => (∀ conf, cmd = .set conf → used conf.confId.toNat = false) ∧
      SetsFree (cmd.slots used) cmds

theorem slotsAfter_append (used : ℕ → Bool) (cmds : List NetCommand) (cmd : NetCommand) :
  slotsAfter used (cmds ++ [cmd]) = cmd.slots (slotsAfter used cmds)
  := by
  rw [slotsAfter, List.foldl_append]
  rfl

theorem SetsFree.append {used : ℕ → Bool} {cmds : List NetCommand} {cmd : NetCommand}
    (h : SetsFree used cmds)
    (hcmd : ∀ conf, cmd = .set conf → slotsAfter used cmds conf.confId.toNat = false) :
  SetsFree used (cmds ++ [cmd])
  := by
  induction cmds generalizing used with
  | nil => exact ⟨hcmd, trivial⟩
  | cons c cmds ih => exact ⟨h.1, ih h.2 hcmd⟩

/-- A command matters for the slot of its stream only. -/
theorem NetCommand.slots_other {cmd : NetCommand} {id : ℕ} (h : id ≠ cmd.confId.toNat)
    (used : ℕ → Bool) :
  cmd.slots used id = used id
  := by
  cases cmd with
  | set conf => apply Function.update_of_ne h
  | unset confId => apply Function.update_of_ne h
  | update conf => apply Function.update_of_ne h

namespace TrafficRun

/-- What is kept true: the nodes are in order, the commands on their way can be processed, and
once they are processed a stream has its slot on its latest source and nowhere else. The record
of a stream that should run names its source. -/
structure Inv (run : TrafficRun) : Prop where
  timers : ∀ n, (run.nodes n).ctx.GoodTimers
  slots : ∀ n, (run.nodes n).ctx.GoodSlots (run.nodes n).commands
  inRange : ∀ n, ∀ cmd ∈ run.sctx.netCommands n, cmd.confId.toNat < maxDummyStreams
  setsFree : ∀ n, SetsFree (run.nodes n).ctx.inUse (run.sctx.netCommands n)
  source : ∀ n id, slotsAfter (run.nodes n).ctx.inUse (run.sctx.netCommands n) id = true ↔
    latestSource run.msgs id = some (n : ℤ)
  record : ∀ n id, latestSource run.msgs id = some ((n : ℕ) : ℤ) →
    (run.sctx.dummyStreamInfo id).srcId.toNat = n
  node : ∀ id, (run.sctx.dummyStreamInfo id).srcId.toNat < maxNodeId

theorem Starts.inv {run : TrafficRun} (h : run.Starts) :
  run.Inv
  := by
  have hgood : ∀ n, (run.nodes n).ctx.GoodTimers ∧
      (run.nodes n).ctx.GoodSlots (run.nodes n).commands := by
    intro n
    obtain ⟨nodeId, now, ctx, hctx, hnode⟩ := h.nodes n
    rw [hnode]
    apply SimNetCtx.startReportJob_good hctx
  have hempty : ∀ n id, (run.nodes n).ctx.inUse id = false := by
    intro n id
    obtain ⟨nodeId, now, ctx, hctx, hnode⟩ := h.nodes n
    simp only [SimNetCtx.startReportJob, Option.bind_eq_bind, Option.bind_eq_some_iff,
      Option.pure_def, Option.some.injEq] at hctx
    obtain ⟨⟨p, tq⟩, -, rfl⟩ := hctx
    rw [hnode]
    rfl
  refine ⟨fun n => (hgood n).1, fun n => (hgood n).2, ?_, ?_, ?_, ?_, ?_⟩
  · intro n cmd hcmd
    rw [h.netCommands] at hcmd
    contradiction
  · intro n
    rw [h.netCommands]
    trivial
  · intro n id
    rw [h.netCommands, h.msgs]
    simp [slotsAfter, hempty, latestSource, latestMsg]
  · intro n id hsource
    rw [h.msgs] at hsource
    contradiction
  · intro id
    rw [h.dummyStreamInfo]
    decide

/-- A message sends a command about its stream to the node `s`. The invariant is kept if the
stream does not run elsewhere, and runs on `s` afterwards exactly if the message says so. -/
theorem Inv.send {run : TrafficRun} (h : run.Inv) {s id : ℕ} {msg : TrafficMsg} {cmd : NetCommand}
    {info : ℕ → NetSetDummyTrafficConfig} (hmsg : msg.confId = some (id : ℤ))
    (hid : cmd.confId.toNat = id) (hrange : id < maxDummyStreams)
    (hset : ∀ conf, cmd = .set conf → latestSource run.msgs id ≠ some (s : ℤ))
    (hslot : ∀ used, cmd.slots used id = true ↔ msg.sourceNodeId = some (s : ℤ))
    (hsource : ∀ n : ℕ, msg.sourceNodeId = some (n : ℤ) → n = s)
    (hrunning : ∀ n : ℕ, latestSource run.msgs id = some (n : ℤ) → n = s)
    (hinfo : ∀ i, i ≠ id → info i = run.sctx.dummyStreamInfo i)
    (hrecord : (info id).srcId.toNat = s) (hnode : s < maxNodeId) :
  Inv { run with
    sctx := ⟨info, Function.update run.sctx.netCommands s (run.sctx.netCommands s ++ [cmd])⟩
    msgs := run.msgs ++ [msg] }
  := by
  have hqueue : ∀ n, Function.update run.sctx.netCommands s (run.sctx.netCommands s ++ [cmd]) n =
      if n = s then run.sctx.netCommands s ++ [cmd] else run.sctx.netCommands n := by
    intro n
    apply Function.update_apply
  have hlatest : ∀ i : ℕ, latestSource (run.msgs ++ [msg]) i =
      if i = id then msg.sourceNodeId else latestSource run.msgs i := by
    intro i
    rw [latestSource_append, hmsg]
    simp only [Option.some.injEq, Nat.cast_inj, eq_comm]
  refine ⟨h.timers, h.slots, ?_, ?_, ?_, ?_, ?_⟩
  · intro n c hc
    simp only [hqueue] at hc
    split_ifs at hc with hn
    · rcases List.mem_append.mp hc with hc | hc
      · apply h.inRange s c hc
      · rw [List.mem_singleton.mp hc, hid]
        apply hrange
    · apply h.inRange n c hc
  · intro n
    simp only [hqueue]
    split_ifs with hn
    · subst hn
      apply (h.setsFree n).append
      rintro conf rfl
      have hid' : conf.confId.toNat = id := hid
      rw [hid', Bool.eq_false_iff]
      intro hused
      apply hset conf rfl ((h.source n id).mp hused)
    · apply h.setsFree n
  · intro n i
    simp only [hqueue, hlatest]
    split_ifs with hn hi hi
    · subst hn hi
      rw [slotsAfter_append]
      apply hslot
    · subst hn
      rw [slotsAfter_append, NetCommand.slots_other (hid ▸ hi)]
      apply h.source
    · subst hi
      constructor
      · intro hused
        apply absurd (hrunning n ((h.source n i).mp hused)) hn
      · intro hsrc
        apply absurd (hsource n hsrc) hn
    · apply h.source
  · intro n i hsrc
    rw [hlatest] at hsrc
    split_ifs at hsrc with hi
    · subst hi
      rw [hsource n hsrc]
      apply hrecord
    · simp only [hinfo i hi]
      apply h.record n i hsrc
  · intro i
    by_cases hi : i = id
    · subst hi
      simp only [hrecord]
      apply hnode
    · simp only [hinfo i hi]
      apply h.node i

/-- A stop or a delete in range keeps the invariant. -/
theorem Inv.stop {run : TrafficRun} (h : run.Inv) {id : ℕ} (msg : TrafficMsg)
    (hid : id < maxDummystreamConfNum) (hmsg : msg.confId = some (id : ℤ))
    (hstop : msg.sourceNodeId = none) :
  ∃ sctx, run.sctx.handleStopDummyTraffic (some (id : ℤ)) = some sctx ∧
    Inv { run with sctx := sctx, msgs := run.msgs ++ [msg] }
  := by
  have hconf : (BitVec.ofNat 16 id).toNat = id :=
    toNat_ofNat_of_lt (Nat.lt_trans hid (by decide))
  have hcmd : (NetCommand.unset (.ofNat 16 id)).confId.toNat = id := hconf
  refine ⟨_, TrafficCtx.handleStopDummyTraffic_eq run.sctx hid (h.node id), ?_⟩
  apply h.send hmsg hcmd (Nat.lt_trans hid (by decide))
  · intro conf hset
    contradiction
  · intro used
    rw [hstop, NetCommand.slots]
    simp [hconf]
  · intro n hn
    rw [hstop] at hn
    contradiction
  · intro n hn
    apply (h.record n id hn).symm
  · intro i _
    rfl
  · rfl
  · apply h.node id

/-- A start or an update in range keeps the invariant if the stream runs on the new source at
most, and for a start not at all. -/
theorem Inv.start {run : TrafficRun} (h : run.Inv) {json : DummyTrafficJson} (msg : TrafficMsg)
    (isUpdate : Bool) (hrange : json.inRange = true) (hmsg : msg.confId = json.confId)
    (hsource : msg.sourceNodeId = json.sourceNodeId)
    (horderly : ∀ id : ℕ, json.confId = some (id : ℤ) → latestSource run.msgs id = none ∨
      isUpdate = true ∧ latestSource run.msgs id = json.sourceNodeId) :
  ∃ sctx, run.sctx.handleStartDummyTraffic json isUpdate = some sctx ∧
    Inv { run with sctx := sctx, msgs := run.msgs ++ [msg] }
  := by
  obtain ⟨id, src, dstId, payloadSize, intervalMs, hid, hsrc, rfl⟩ :=
    DummyTrafficJson.exists_of_inRange hrange
  have hconf : (BitVec.ofNat 16 id).toNat = id :=
    toNat_ofNat_of_lt (Nat.lt_trans hid (by decide))
  have hnode : (BitVec.ofNat 16 src).toNat = src :=
    toNat_ofNat_of_lt (Nat.lt_trans hsrc (by decide))
  have horderly' := horderly id rfl
  let conf := DummyTrafficJson.conf id src dstId payloadSize intervalMs
  refine ⟨_, TrafficCtx.handleStartDummyTraffic_eq run.sctx hid hsrc dstId payloadSize intervalMs
    isUpdate, ?_⟩
  have hcmd : ∀ cmd : NetCommand, cmd = .update conf ∨ cmd = .set conf →
      cmd.confId.toNat = id ∧ ∀ used, cmd.slots used id = true := by
    rintro cmd (rfl | rfl)
    · refine ⟨hconf, fun used => ?_⟩
      simp [NetCommand.slots, conf, DummyTrafficJson.conf, hconf]
    · refine ⟨hconf, fun used => ?_⟩
      simp [NetCommand.slots, conf, DummyTrafficJson.conf, hconf]
  have hkind : (if isUpdate = true then NetCommand.update conf else .set conf) = .update conf ∨
      (if isUpdate = true then NetCommand.update conf else .set conf) = .set conf := by
    split_ifs
    · left
      rfl
    · right
      rfl
  apply h.send hmsg (hcmd _ hkind).1 (Nat.lt_trans hid (by decide))
  · intro conf' hset hrunning
    rcases horderly' with hnone | ⟨hupdate, -⟩
    · rw [hnone] at hrunning
      contradiction
    · rw [if_pos hupdate] at hset
      contradiction
  · intro used
    simp [(hcmd _ hkind).2 used, hsource]
  · intro n hn
    rw [hsource] at hn
    have hn' := Option.some.inj hn
    omega
  · intro n hn
    rcases horderly' with hnone | ⟨-, hsame⟩
    · rw [hnone] at hn
      contradiction
    · rw [hsame] at hn
      have hn' := Option.some.inj hn
      omega
  · intro i hi
    apply Function.update_of_ne hi
  · rw [Function.update_self]
    apply hnode
  · apply hsrc

/-- A message in range that is orderly keeps the invariant. -/
theorem Inv.msg {run : TrafficRun} (h : run.Inv) {msg : TrafficMsg} (hrange : msg.inRange = true)
    (horderly : Orderly run.msgs msg) :
  ∃ run', run.step (.msg msg) = some run' ∧ run'.Inv
  := by
  have hstep : ∀ sctx, run.sctx.handleRemoteConfMsg msg = some sctx →
      run.step (.msg msg) = some { run with sctx := sctx, msgs := run.msgs ++ [msg] } := by
    intro sctx hsctx
    rw [step, hsctx]
    rfl
  cases msg with
  | startDummyTraffic json =>
      obtain ⟨sctx, hsctx, hinv⟩ := h.start (.startDummyTraffic json) false hrange rfl rfl
        (fun id hid => Or.inl (horderly id hid))
      exact ⟨_, hstep sctx hsctx, hinv⟩
  | updateDummyTrafficConf json =>
      obtain ⟨sctx, hsctx, hinv⟩ := h.start (.updateDummyTrafficConf json) true hrange rfl rfl
        (fun id hid => (horderly id hid).imp_right (fun hsame => ⟨rfl, hsame⟩))
      exact ⟨_, hstep sctx hsctx, hinv⟩
  | stopDummyTraffic confId =>
      obtain ⟨id, rfl, hid⟩ := exists_nat_of_any hrange
      obtain ⟨sctx, hsctx, hinv⟩ := h.stop (.stopDummyTraffic (some (id : ℤ))) hid rfl rfl
      exact ⟨_, hstep sctx hsctx, hinv⟩
  | deleteDummyTrafficConf confId =>
      obtain ⟨id, rfl, hid⟩ := exists_nat_of_any hrange
      obtain ⟨sctx, hsctx, hinv⟩ := h.stop (.deleteDummyTrafficConf (some (id : ℤ))) hid rfl rfl
      exact ⟨_, hstep sctx hsctx, hinv⟩

/-- A step of a node keeps the invariant if the slots it will have in use stay the same. -/
theorem Inv.nodeStep {run : TrafficRun} (h : run.Inv) {n : ℕ} {node : DummyRun}
    {queues : ℕ → List NetCommand} (hqueues : ∀ m, m ≠ n → queues m = run.sctx.netCommands m)
    (hcmds : ∀ cmd ∈ queues n, cmd ∈ run.sctx.netCommands n)
    (hgood : node.ctx.GoodTimers ∧ node.ctx.GoodSlots node.commands)
    (hfree : SetsFree node.ctx.inUse (queues n))
    (hslots : slotsAfter node.ctx.inUse (queues n) =
      slotsAfter (run.nodes n).ctx.inUse (run.sctx.netCommands n)) :
  Inv { run with
    sctx := { run.sctx with netCommands := queues }
    nodes := Function.update run.nodes n node }
  := by
  have hnodes : ∀ m, m = n ∧ Function.update run.nodes n node m = node ∨
      m ≠ n ∧ Function.update run.nodes n node m = run.nodes m := by
    intro m
    by_cases hm : m = n
    · left
      rw [hm]
      exact ⟨rfl, Function.update_self _ _ _⟩
    · right
      exact ⟨hm, Function.update_of_ne hm _ _⟩
  refine ⟨?_, ?_, ?_, ?_, ?_, h.record, h.node⟩
  · intro m
    rcases hnodes m with ⟨-, hm⟩ | ⟨-, hm⟩
    · simp only [hm]
      apply hgood.1
    · simp only [hm]
      apply h.timers
  · intro m
    rcases hnodes m with ⟨-, hm⟩ | ⟨-, hm⟩
    · simp only [hm]
      apply hgood.2
    · simp only [hm]
      apply h.slots
  · intro m cmd hcmd
    by_cases hm : m = n
    · subst hm
      apply h.inRange m cmd (hcmds cmd hcmd)
    · apply h.inRange m cmd
      rw [← hqueues m hm]
      apply hcmd
  · intro m
    rcases hnodes m with ⟨rfl, hm⟩ | ⟨hne, hm⟩
    · simp only [hm]
      apply hfree
    · simp only [hm, hqueues m hne]
      apply h.setsFree
  · intro m id
    rcases hnodes m with ⟨rfl, hm⟩ | ⟨hne, hm⟩
    · simp only [hm, hslots]
      apply h.source
    · simp only [hm, hqueues m hne]
      apply h.source

theorem Inv.step {run run' : TrafficRun} (h : run.Inv) {e : TrafficEvent} (hrange : InRange e)
    (horderly : run.IsOrderly e) (hstep : run.step e = some run') :
  run'.Inv
  := by
  cases e with
  | msg msg =>
      obtain ⟨run'', hstep', h'⟩ := h.msg hrange horderly
      obtain rfl := Option.some.inj (hstep.symm.trans hstep')
      apply h'
  | recvCommand n now =>
      rw [TrafficRun.step] at hstep
      cases hqueue : run.sctx.netCommands n with
      | nil =>
          simp only [hqueue] at hstep
          contradiction
      | cons cmd cmds =>
          simp only [hqueue] at hstep
          obtain ⟨node, hnode, hrun'⟩ := Option.bind_eq_some_iff.mp hstep
          obtain rfl := Option.some.inj hrun'
          have hfree := h.setsFree n
          rw [hqueue] at hfree
          have hcmd : cmd.confId.toNat < maxDummyStreams :=
            h.inRange n cmd (by rw [hqueue]; apply List.mem_cons_self)
          have hempty : (run.nodes n).SetsEmpty (.command now cmd) := by
            cases cmd with
            | set conf =>
                have hused := hfree.1 conf rfl
                rw [SimNetCtx.inUse, Option.isSome_eq_false_iff, Option.isNone_iff_eq_none] at hused
                apply hused
            | unset confId => trivial
            | update conf => trivial
          obtain ⟨ctx, hctx, hnode'⟩ := Option.bind_eq_some_iff.mp hnode
          have hused : node.ctx.inUse = cmd.slots (run.nodes n).ctx.inUse := by
            obtain rfl := Option.some.inj hnode'
            apply SimNetCtx.processCommand_inUse hctx
          apply h.nodeStep (fun m hm => Function.update_of_ne hm _ _)
          · intro c hc
            rw [Function.update_self] at hc
            rw [hqueue]
            apply List.mem_cons_of_mem cmd hc
          · have hok : DummyRun.InRange (.command now cmd) := hcmd
            apply DummyRun.step_good ⟨h.timers n, h.slots n⟩ ⟨hok, hempty⟩ hnode
          · rw [Function.update_self, hused]
            apply hfree.2
          · rw [Function.update_self, hused, hqueue]
            rfl
  | work n currtime rand =>
      obtain ⟨node, hnode, hrun'⟩ := Option.bind_eq_some_iff.mp hstep
      obtain rfl := Option.some.inj hrun'
      obtain ⟨ctx, hctx, hnode'⟩ := Option.bind_eq_some_iff.mp hnode
      have hused : node.ctx.inUse = (run.nodes n).ctx.inUse := by
        obtain rfl := Option.some.inj hnode'
        apply SimNetCtx.timerqueueWork_inUse hctx
      apply h.nodeStep (fun m _ => rfl) (fun _ hcmd => hcmd)
      · have hok : DummyRun.InRange (.work currtime rand) ∧
            (run.nodes n).SetsEmpty (.work currtime rand) := ⟨trivial, trivial⟩
        apply DummyRun.step_good ⟨h.timers n, h.slots n⟩ hok hnode
      · rw [hused]
        apply h.setsFree n
      · rw [hused]

end TrafficRun

/-! ### Only the nodes get commands -/

/-- A message sends no command beyond the nodes that there are. -/
theorem handleRemoteConfMsg_netCommands {sctx sctx' : TrafficCtx} {msg : TrafficMsg}
    (h : sctx.handleRemoteConfMsg msg = some sctx') {n : ℕ} (hn : maxNodeId ≤ n) :
  sctx'.netCommands n = sctx.netCommands n
  := by
  have hsend : ∀ (sctx₁ : TrafficCtx) nodeId cmd, sctx₁.sendNetCommand nodeId cmd = some sctx' →
      sctx₁.netCommands = sctx.netCommands → sctx'.netCommands n = sctx.netCommands n := by
    intro sctx₁ nodeId cmd hsend hsame
    rw [TrafficCtx.sendNetCommand] at hsend
    split_ifs at hsend with hnode
    obtain rfl := Option.some.inj hsend
    have hne : n ≠ nodeId.toNat := by omega
    simp only [Function.update_of_ne hne, hsame]
  have hstart : ∀ json isUpdate, sctx.handleStartDummyTraffic json isUpdate = some sctx' →
      sctx'.netCommands n = sctx.netCommands n := by
    intro json isUpdate hstart
    simp only [TrafficCtx.handleStartDummyTraffic] at hstart
    -- every field that is missing ends the handler before it sends
    repeat' split at hstart
    all_goals first
      | contradiction
      | exact hsend _ _ _ hstart rfl
      | (obtain rfl := Option.some.inj hstart; rfl)
  have hstop : ∀ confId, sctx.handleStopDummyTraffic confId = some sctx' →
      sctx'.netCommands n = sctx.netCommands n := by
    intro confId hstop
    simp only [TrafficCtx.handleStopDummyTraffic] at hstop
    repeat' split at hstop
    all_goals first
      | contradiction
      | exact hsend _ _ _ hstop rfl
      | (obtain rfl := Option.some.inj hstop; rfl)
  cases msg with
  | startDummyTraffic json => apply hstart json false h
  | updateDummyTrafficConf json => apply hstart json true h
  | stopDummyTraffic confId => apply hstop confId h
  | deleteDummyTrafficConf confId => apply hstop confId h

namespace TrafficRun

/-- Only the nodes that there are get commands. -/
theorem no_commands_beyond {start run : TrafficRun} {ok : TrafficRun → TrafficEvent → Prop}
    (hstart : start.Starts) (h : Reaches TrafficRun.step ok start run) :
  ∀ n, maxNodeId ≤ n → run.sctx.netCommands n = []
  := by
  apply h.invariant
  · intro run e run' hrun _ hstep n hn
    cases e with
    | msg msg =>
        obtain ⟨sctx, hsctx, hrun'⟩ := Option.bind_eq_some_iff.mp hstep
        obtain rfl := Option.some.inj hrun'
        apply (handleRemoteConfMsg_netCommands hsctx hn).trans (hrun n hn)
    | recvCommand m now =>
        rw [TrafficRun.step] at hstep
        cases hqueue : run.sctx.netCommands m with
        | nil =>
            simp only [hqueue] at hstep
            contradiction
        | cons cmd cmds =>
            simp only [hqueue] at hstep
            obtain ⟨node, -, hrun'⟩ := Option.bind_eq_some_iff.mp hstep
            obtain rfl := Option.some.inj hrun'
            have hne : n ≠ m := by
              rintro rfl
              rw [hrun n hn] at hqueue
              contradiction
            apply (Function.update_of_ne hne _ _).trans (hrun n hn)
    | work m currtime rand =>
        obtain ⟨node, -, hrun'⟩ := Option.bind_eq_some_iff.mp hstep
        obtain rfl := Option.some.inj hrun'
        apply hrun n hn
  · intro n _
    apply hstart.netCommands

/-- The queues of a run are empty if those of the nodes that there are are. -/
theorem netCommands_eq_nil {start run : TrafficRun} {ok : TrafficRun → TrafficEvent → Prop}
    (hstart : start.Starts) (h : Reaches TrafficRun.step ok start run)
    (hempty : ∀ n < maxNodeId, run.sctx.netCommands n = []) (n : ℕ) :
  run.sctx.netCommands n = []
  := by
  by_cases hn : n < maxNodeId
  · apply hempty n hn
  · apply no_commands_beyond hstart h n (Nat.le_of_not_lt hn)

/-! ### Streams run on their source -/

/-- In every run with messages in range that are orderly, whenever no command is on its way, a
stream has an active timer on a node exactly if the latest message about it is a start or an
update that names the node as its source. -/
theorem at_most_its_source {start run : TrafficRun} (hstart : start.Starts)
    (h : Reaches TrafficRun.step (fun run e => InRange e ∧ run.IsOrderly e) start run)
    (hempty : ∀ n, run.sctx.netCommands n = []) (id n : ℕ) :
  (∃ p conf, (run.nodes n).ctx.Runs p conf ∧ conf.confId.toNat = id) ↔
    latestSource run.msgs id = some (n : ℤ)
  := by
  have hinv : run.Inv :=
    h.invariant (fun _ _ _ hs hok hstep => hs.step hok.1 hok.2 hstep) hstart.inv
  have hslots := (hinv.slots n).slot id
  rw [← hinv.source n id, hempty]
  have hused : slotsAfter (run.nodes n).ctx.inUse [] id = true ↔
      ∃ p, (run.nodes n).ctx.dummyTrafficTimers id = some p := Option.isSome_iff_exists
  rw [hused]
  simp only [hslots]

end TrafficRun

/-! ### Deciding whether messages are orderly -/

/-- Whether a property holds of the number that an `Option` holds is decidable. -/
def decidableForallNat (v : Option ℤ) (P : ℕ → Prop) [DecidablePred P] :
    Decidable (∀ id : ℕ, v = some (id : ℤ) → P id) :=
  match v with
  | none => .isTrue (fun _ h => nomatch h)
  | some (.ofNat n) => decidable_of_iff (P n) (by simp)
  | some (.negSucc n) => .isTrue (fun _ h => nomatch h)

instance (msgs : List TrafficMsg) (msg : TrafficMsg) : Decidable (Orderly msgs msg) :=
  match msg with
  | .startDummyTraffic json => decidableForallNat json.confId
      (fun id => latestSource msgs id = none)
  | .updateDummyTrafficConf json => decidableForallNat json.confId
      (fun id => latestSource msgs id = none ∨ latestSource msgs id = json.sourceNodeId)
  | .stopDummyTraffic _ => .isTrue trivial
  | .deleteDummyTrafficConf _ => .isTrue trivial

namespace TrafficRun

instance (e : TrafficEvent) : Decidable (InRange e) :=
  match e with
  | .msg msg => inferInstanceAs (Decidable (msg.inRange = true))
  | .recvCommand _ _ => .isTrue trivial
  | .work _ _ _ => .isTrue trivial

instance (run : TrafficRun) (e : TrafficEvent) : Decidable (run.IsOrderly e) :=
  match e with
  | .msg msg => inferInstanceAs (Decidable (Orderly run.msgs msg))
  | .recvCommand _ _ => .isTrue trivial
  | .work _ _ _ => .isTrue trivial

/-- Nodes that have just started. -/
def exampleStart : TrafficRun where
  sctx := ⟨fun _ => ⟨0, 0, 0, 0, 0⟩, fun _ => []⟩
  nodes n := ⟨(SimNetCtx.startReportJob (.ofNat 8 n) ⟨0, 0⟩).get rfl, []⟩
  msgs := []

theorem exampleStart_starts :
  exampleStart.Starts
  := by
  refine ⟨?_, fun _ => rfl, fun _ => rfl, rfl⟩
  intro n
  exact ⟨.ofNat 8 n, ⟨0, 0⟩, _, rfl, rfl⟩

/-- Stream 0 with the given source. -/
def exampleJson (src : ℤ) : DummyTrafficJson := ⟨some 0, some src, some 3, some 100, some 10⟩

/-- Stream 0 is started on node 1, stopped, and started on node 2. -/
def orderlyEvents : List TrafficEvent :=
  [.msg (.startDummyTraffic (exampleJson 1)), .recvCommand 1 ⟨0, 0⟩,
    .msg (.stopDummyTraffic (some 0)), .msg (.startDummyTraffic (exampleJson 2)),
    .recvCommand 2 ⟨0, 0⟩, .recvCommand 1 ⟨0, 0⟩]

/-- The same without the stop. -/
def movedEvents : List TrafficEvent :=
  [.msg (.startDummyTraffic (exampleJson 1)), .recvCommand 1 ⟨0, 0⟩,
    .msg (.updateDummyTrafficConf (exampleJson 2)), .recvCommand 2 ⟨0, 0⟩]

theorem at_most_its_source_moved :
  ∃ run, Reaches TrafficRun.step (fun run e => InRange e ∧ run.IsOrderly e) exampleStart run ∧
    (∀ n, run.sctx.netCommands n = []) ∧ latestSource run.msgs 0 = some 2 ∧
    (∃ p conf, (run.nodes 2).ctx.Runs p conf ∧ conf.confId.toNat = 0) ∧
    ¬ ∃ p conf, (run.nodes 1).ctx.Runs p conf ∧ conf.confId.toNat = 0
  := by
  have hrun : (orderlyEvents.foldlM
      (fun run e => if decide (InRange e ∧ run.IsOrderly e) then run.step e else none)
      exampleStart).map (fun run => (latestSource run.msgs 0,
        decide (∀ n < maxNodeId, run.sctx.netCommands n = []))) = some (some 2, true) := by
    decide +kernel
  obtain ⟨run, hrun, hvalues⟩ := Option.map_eq_some_iff.mp hrun
  obtain ⟨hsource, hempty⟩ := Prod.mk.inj hvalues
  have hreach : Reaches TrafficRun.step (fun run e => InRange e ∧ run.IsOrderly e) exampleStart
      run := Reaches.of_checked (fun _ _ hcheck => of_decide_eq_true hcheck) hrun
  have hempty' := netCommands_eq_nil exampleStart_starts hreach (of_decide_eq_true hempty)
  refine ⟨run, hreach, hempty', hsource, ?_, ?_⟩
  · apply (at_most_its_source exampleStart_starts hreach hempty' 0 2).mpr hsource
  · rw [at_most_its_source exampleStart_starts hreach hempty' 0 1, hsource]
    decide

/-- An update that moves stream 0 from node 1 to node 2 leaves it running on node 1. -/
theorem not_at_most_its_source :
  ¬ ∀ start run : TrafficRun, start.Starts →
    Reaches TrafficRun.step (fun _ e => InRange e) start run →
    (∀ n, run.sctx.netCommands n = []) → ∀ id n : ℕ,
      (∃ p conf, (run.nodes n).ctx.Runs p conf ∧ conf.confId.toNat = id) →
      latestSource run.msgs id = some (n : ℤ)
  := by
  intro hall
  have hrun : (movedEvents.foldlM
      (fun run e => if decide (InRange e) then run.step e else none)
      exampleStart).map (fun run =>
        (decide (latestSource run.msgs 0 = some 2 ∧ ∀ n < maxNodeId, run.sctx.netCommands n = []),
        ((run.nodes 1).ctx.timerqueue.elems.search 1).map (fun e => (e.active, e.callback)),
        (run.nodes 1).ctx.confs.search 0)) =
      some (true, some (true, some (SimNetCallback.sendDummyPacket 0)),
        some (⟨0, 1, 3, 100, 10⟩ : NetSetDummyTrafficConfig)) := by
    decide +kernel
  obtain ⟨run, hrun, hvalues⟩ := Option.map_eq_some_iff.mp hrun
  obtain ⟨hmsgs, hvalues⟩ := Prod.mk.inj hvalues
  obtain ⟨hsource, hempty⟩ := of_decide_eq_true hmsgs
  obtain ⟨htimer, hconf⟩ := Prod.mk.inj hvalues
  obtain ⟨e, he, htimer⟩ := Option.map_eq_some_iff.mp htimer
  obtain ⟨hactive, hcallback⟩ := Prod.mk.inj htimer
  have hreach : Reaches TrafficRun.step (fun _ e => InRange e) exampleStart run :=
    Reaches.of_checked (fun _ _ hcheck => of_decide_eq_true hcheck) hrun
  have hempty' := netCommands_eq_nil exampleStart_starts hreach hempty
  have hruns : (run.nodes 1).ctx.Runs 1 ⟨0, 1, 3, 100, 10⟩ := ⟨e, 0, he, hactive, hcallback, hconf⟩
  have hone := hall exampleStart run exampleStart_starts hreach hempty' 0 1 ⟨1, _, hruns, rfl⟩
  rw [hsource] at hone
  contradiction

end TrafficRun
