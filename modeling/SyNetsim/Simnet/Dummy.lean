import SyNetsim.Lib.Run
import SyNetsim.Netutil
import SyNetsim.Timerqueue

/-!
# Dummy traffic

`dummy.c` and `net_command.c`: a node sends the packets of a dummy stream from a periodic timer,
one for each stream, and commands of the simulator set, unset and update streams. The timer of a
stream is reached through a slot. Unsetting a stream only marks its timer and clears the slot;
the timer leaves the queue when it expires, and with it goes its copy of the configuration.

A command to set a stream whose slot is in use registers a timer that is in the queue already.
As long as no such command comes, the slots and the active timers agree (`WellManaged`).
-/

/-! ### The state of a node -/

/-- A `NetSetDummyTrafficConfig`. -/
structure NetSetDummyTrafficConfig where
  confId : BitVec 16
  srcId : BitVec 16
  dstId : BitVec 16
  payloadSize : BitVec 16
  intervalMs : BitVec 16
deriving DecidableEq

/-- `MAX_DUMMY_STREAMS`. -/
def maxDummyStreams : ℕ := 1000

/-- The callbacks of the timers of `SimNetCtx`, with their arguments: a pointer to a copy of a
configuration, or the context. -/
inductive SimNetCallback where
  | sendDummyPacket (conf : ℕ)
  | sendNetReportCb
deriving DecidableEq

/-- The fields of `SimNetCtx` that dummy traffic uses, and the copies of configurations that are
allocated, by pointer. The last field records the packets handed to `handle_local_pkt`. -/
structure SimNetCtx where
  timerqueue : TimerqueueContext SimNetCallback
  nodeId : BitVec 8
  dummyTrafficTimers : ℕ → Option ℕ
  confs : OrdMap ℕ NetSetDummyTrafficConfig
  nextConf : ℕ
  localPkts : List PacketBuf

namespace SimNetCtx

/-! ### Timers -/

/-- The packet that `send_dummy_packet` makes. -/
def dummyPacket (ctx : SimNetCtx) (conf : NetSetDummyTrafficConfig) : PacketBuf where
  hdr := buildIpHdr (conf.payloadSize.toNat + 28) 64 (nodeIp ctx.nodeId)
    (nodeIp (conf.dstId.setWidth 8)) ipprotoUdp
  rest := (buildUdpHdrNoChecksum 29111 29112 conf.payloadSize).toBytes ++
    List.replicate conf.payloadSize.toNat 0

theorem dummyPacket_length (ctx : SimNetCtx) (conf : NetSetDummyTrafficConfig) :
  (ctx.dummyPacket conf).length = conf.payloadSize.toNat + 28
  := by
  simp only [dummyPacket, PacketBuf.length, UdpHdr.toBytes, be16, List.length_append,
    List.length_cons, List.length_nil, List.length_replicate]
  omega

/-- `send_dummy_packet`. It gives `none` if the packet does not fit into a `PacketBuf`. -/
def sendDummyPacket (ctx : SimNetCtx) (arg : ℕ) : Option SimNetCtx := do
  let conf ← ctx.confs.search arg
  let pkb := ctx.dummyPacket conf
  if packetBufSize < pkb.length then none
  else return { ctx with localPkts := ctx.localPkts ++ [pkb] }

/-- `dummypkt_send_job_detach_cb`. -/
def dummypktSendJobDetachCb (ctx : SimNetCtx) (arg : ℕ) : Option SimNetCtx := do
  let _conf ← ctx.confs.search arg
  return { ctx with confs := ctx.confs.erase arg }

/-- What a callback does. Reports change nothing here. -/
def runCallback : SimNetCallback → SimNetCtx → Option SimNetCtx
  | .sendDummyPacket conf, ctx => ctx.sendDummyPacket conf
  | .sendNetReportCb, ctx => some ctx

/-- A node as a program with a timer queue. -/
def client : TqClient SimNetCtx SimNetCallback where
  tq := SimNetCtx.timerqueue
  setTq ctx tq := { ctx with timerqueue := tq }
  callback := runCallback
  tq_setTq _ _ := rfl
  setTq_tq _ := rfl
  setTq_setTq _ _ _ := rfl

/-- The copy of a configuration that is freed with its timer in a round at `currtime`: that of
the first timer, if it is due and no longer active. Of all timers, those of dummy streams have a
`detached_callback`, and they are periodic. -/
def detached (ctx : SimNetCtx) (currtime : Timespec) : Option ℕ := do
  let k ← ctx.timerqueue.firstDue currtime
  let first ← ctx.timerqueue.elems.search k.ptr
  match first.active, first.callback with
  | false, some (.sendDummyPacket conf) => some conf
  | _, _ => none

/-- A round of `timerqueue_work`, with the `detached_callback` of a timer that leaves. -/
def timerqueueWork (ctx : SimNetCtx) (currtime : Timespec) (rand : ℕ) : Option SimNetCtx := do
  let ctx' ← client.workRound currtime rand ctx
  match ctx.detached currtime with
  | some conf => ctx'.dummypktSendJobDetachCb conf
  | none => return ctx'

/-- `start_report_job` in a new context. -/
def startReportJob (nodeId : BitVec 8) (now : Timespec) : Option SimNetCtx := do
  let (_, tq) ← createTimerqueue.startTimer now .sendNetReportCb (1000 * 100) false
  return ⟨tq, nodeId, fun _ => none, .empty, 0, []⟩

/-! ### Commands -/

/-- The timer in the slot of a stream, a new one if there is none. -/
def findDummyTimer (ctx : SimNetCtx) (confId : ℕ) : ℕ × SimNetCtx :=
  match ctx.dummyTrafficTimers confId with
  | some p => (p, ctx)
  | none =>
      let (p, tq) := ctx.timerqueue.timerqueueNewTimer
      (p, { ctx with
        timerqueue := tq
        dummyTrafficTimers := Function.update ctx.dummyTrafficTimers confId (some p) })

/-- `register_dummypkt_send_job`, at the time `now`. It gives `none` if there is no such slot. -/
def registerDummypktSendJob (ctx : SimNetCtx) (now : Timespec) (conf : NetSetDummyTrafficConfig) :
    Option SimNetCtx := do
  let copyConf := ctx.nextConf
  let ctx := { ctx with confs := ctx.confs.insert copyConf conf, nextConf := ctx.nextConf + 1 }
  if maxDummyStreams ≤ conf.confId.toNat then none
  else do
    let (p, ctx) := ctx.findDummyTimer conf.confId.toNat
    let tq := ctx.timerqueue.update p (fun e => { e with
      callback := some (.sendDummyPacket copyConf)
      useOnce := false
      intervalUs := conf.intervalMs.toNat * 1000
      freeOnDetach := true })
    let tq ← tq.timerqueueRegisterTimer now p
    return { ctx with timerqueue := tq }

/-- `unregister_dummypkt_send_job`. It gives `none` if there is no such slot. -/
def unregisterDummypktSendJob (ctx : SimNetCtx) (confId : BitVec 16) : Option SimNetCtx :=
  if maxDummyStreams ≤ confId.toNat then none
  else
    match ctx.dummyTrafficTimers confId.toNat with
    | none => some ctx
    | some p => do
        let _elem ← ctx.timerqueue.elems.search p
        return { ctx with
          timerqueue := ctx.timerqueue.update p (fun e => { e with active := false })
          dummyTrafficTimers := Function.update ctx.dummyTrafficTimers confId.toNat none }

end SimNetCtx

/-- A command of the simulator. -/
inductive NetCommand where
  | set (conf : NetSetDummyTrafficConfig)
  | unset (confId : BitVec 16)
  | update (conf : NetSetDummyTrafficConfig)
deriving DecidableEq

/-- The stream that a command is about. -/
def NetCommand.confId : NetCommand → BitVec 16
  | set conf => conf.confId
  | unset confId => confId
  | update conf => conf.confId

/-- The slots in use after a command, if those in `used` are before it. -/
def NetCommand.slots (cmd : NetCommand) (used : ℕ → Bool) : ℕ → Bool :=
  match cmd with
  | set conf => Function.update used conf.confId.toNat true
  | unset confId => Function.update used confId.toNat false
  | update conf => Function.update used conf.confId.toNat true

namespace SimNetCtx

/-- `process_command`, at the time `now`. -/
def processCommand (ctx : SimNetCtx) (now : Timespec) : NetCommand → Option SimNetCtx
  | .set conf => ctx.registerDummypktSendJob now conf
  | .unset confId => ctx.unregisterDummypktSendJob confId
  | .update conf => do
      let ctx ← ctx.unregisterDummypktSendJob conf.confId
      ctx.registerDummypktSendJob now conf

/-- The timer that a command gives to `timerqueue_register_timer` is in the queue. -/
def RegistersAttached (ctx : SimNetCtx) : NetCommand → Prop
  | .set conf =>
      let (p, ctx) := ctx.findDummyTimer conf.confId.toNat
      ctx.timerqueue.Attached p
  | .unset _ => False
  | .update conf => ∃ ctx', ctx.unregisterDummypktSendJob conf.confId = some ctx' ∧
      let (p, ctx'') := ctx'.findDummyTimer conf.confId.toNat
      ctx''.timerqueue.Attached p

end SimNetCtx

/-! ### What is kept true -/

/-- The configuration most recently set for a stream. -/
def lastSet (commands : List NetCommand) (id : ℕ) : Option NetSetDummyTrafficConfig :=
  commands.reverse.findSome? (fun
    | .set conf => if conf.confId.toNat = id then some conf else none
    | .update conf => if conf.confId.toNat = id then some conf else none
    | .unset _ => none)

theorem lastSet_append (commands : List NetCommand) (cmd : NetCommand) (id : ℕ) :
  lastSet (commands ++ [cmd]) id = (lastSet [cmd] id).or (lastSet commands id)
  := by
  rw [lastSet, List.reverse_append, List.findSome?_append]
  rfl

theorem lastSet_other {cmd : NetCommand} {id : ℕ} (h : cmd.confId.toNat ≠ id) :
  lastSet [cmd] id = none
  := by
  cases cmd with
  | set conf =>
      have hne : ¬ conf.confId.toNat = id := h
      simp [lastSet, hne]
  | unset confId => rfl
  | update conf =>
      have hne : ¬ conf.confId.toNat = id := h
      simp [lastSet, hne]

namespace SimNetCtx

/-- The timer `p` is active, and sends the packets of a stream with the configuration `conf`. -/
def Runs (ctx : SimNetCtx) (p : ℕ) (conf : NetSetDummyTrafficConfig) : Prop :=
  ∃ e c, ctx.timerqueue.elems.search p = some e ∧ e.active = true ∧
    e.callback = some (.sendDummyPacket c) ∧ ctx.confs.search c = some conf

/-- Timers and slots are well managed after the given commands: the tree holds every attached
timer once, under its time of expiry, and every timer is attached; the report timer is armed; the
slot of a stream holds the one active timer of the stream, if there is one, and this timer has
the configuration most recently set. -/
structure WellManaged (ctx : SimNetCtx) (commands : List NetCommand) : Prop where
  tree : ∀ k, k ∈ ctx.timerqueue.rbt ↔
    ∃ e, ctx.timerqueue.elems.search k.ptr = some e ∧ e.attached = true ∧ e.expire = k.expire
  attached : ∀ p ∈ ctx.timerqueue.elems, ctx.timerqueue.Attached p
  report : ∃ p, ctx.timerqueue.Armed .sendNetReportCb p
  slot : ∀ id p, ctx.dummyTrafficTimers id = some p ↔
    ∃ conf, ctx.Runs p conf ∧ conf.confId.toNat = id
  latest : ∀ p conf, ctx.Runs p conf → lastSet commands conf.confId.toNat = some conf

/-- What a timer of a node is: the active report timer, or the timer of a stream with a copy of
its configuration. It is periodic. -/
structure GoodTimer (ctx : SimNetCtx) (e : TimerqueueElem SimNetCallback) : Prop where
  attached : e.attached = true
  useOnce : e.useOnce = false
  callback : e.callback = some .sendNetReportCb ∧ e.active = true ∨
    e.freeOnDetach = true ∧ ∃ c, c ∈ ctx.confs ∧ e.callback = some (.sendDummyPacket c)

/-- The timers of a node are in order: the queue is well formed, every timer is as it should be,
and no two timers share a copy of a configuration. -/
structure GoodTimers (ctx : SimNetCtx) : Prop where
  wf : ctx.timerqueue.Wf none
  timer : ∀ p e, ctx.timerqueue.elems.search p = some e → ctx.GoodTimer e
  own : ∀ p q e e' c, ctx.timerqueue.elems.search p = some e →
    ctx.timerqueue.elems.search q = some e' → e.callback = some (.sendDummyPacket c) →
    e'.callback = some (.sendDummyPacket c) → p = q
  fresh : ∀ c ∈ ctx.confs, c < ctx.nextConf
  report : ∃ p e, ctx.timerqueue.elems.search p = some e ∧ e.callback = some .sendNetReportCb

/-- The slots of a node are in order: they hold the active timers of the streams, which have the
configurations most recently set. -/
structure GoodSlots (ctx : SimNetCtx) (commands : List NetCommand) : Prop where
  slot : ∀ id p, ctx.dummyTrafficTimers id = some p ↔
    ∃ conf, ctx.Runs p conf ∧ conf.confId.toNat = id
  latest : ∀ p conf, ctx.Runs p conf → lastSet commands conf.confId.toNat = some conf

theorem GoodTimers.wellManaged {ctx : SimNetCtx} {commands : List NetCommand}
    (h : ctx.GoodTimers) (hslots : ctx.GoodSlots commands) :
  ctx.WellManaged commands
  := by
  refine ⟨?_, ?_, ?_, hslots.slot, hslots.latest⟩
  · intro k
    rw [h.wf.tree]
    simp
  · intro p hp
    obtain ⟨e, he⟩ := OrdMap.mem_iff.mp hp
    exact ⟨e, he, (h.timer p e he).attached⟩
  · obtain ⟨p, e, he, hc⟩ := h.report
    have htimer := h.timer p e he
    have hactive : e.active = true := by
      rcases htimer.callback with ⟨-, hactive⟩ | ⟨-, c, -, hc'⟩
      · apply hactive
      · simp [hc] at hc'
    exact ⟨p, e, he, hactive, htimer.attached, hc⟩

/-- The timer `p` of a stream runs with one configuration. -/
theorem Runs.unique {ctx : SimNetCtx} {p : ℕ} {conf conf' : NetSetDummyTrafficConfig}
    (h : ctx.Runs p conf) (h' : ctx.Runs p conf') :
  conf = conf'
  := by
  obtain ⟨e, c, he, -, hc, hconf⟩ := h
  obtain ⟨e', c', he', -, hc', hconf'⟩ := h'
  obtain rfl := Option.some.inj (he.symm.trans he')
  obtain rfl := SimNetCallback.sendDummyPacket.inj (Option.some.inj (hc.symm.trans hc'))
  apply Option.some.inj (hconf.symm.trans hconf')

/-! ### How timers and slots change -/

/-- Timers stay in order if each of them was there before, but for its flag `active` and its time
of expiry, and has its copy, and if the report timer is kept. -/
theorem GoodTimers.change {ctx ctx' : SimNetCtx} (h : ctx.GoodTimers)
    (hwf : ctx'.timerqueue.Wf none)
    (htimer : ∀ p e', ctx'.timerqueue.elems.search p = some e' →
      ∃ e, ctx.timerqueue.elems.search p = some e ∧ e'.attached = e.attached ∧
        e'.useOnce = e.useOnce ∧ e'.freeOnDetach = e.freeOnDetach ∧ e'.callback = e.callback ∧
        (e.callback = some .sendNetReportCb → e'.active = e.active) ∧
        ∀ c, e.callback = some (.sendDummyPacket c) → c ∈ ctx.confs → c ∈ ctx'.confs)
    (hconfs : ∀ c ∈ ctx'.confs, c ∈ ctx.confs) (hnext : ctx'.nextConf = ctx.nextConf)
    (hreport : ∀ p e, ctx.timerqueue.elems.search p = some e →
      e.callback = some .sendNetReportCb → p ∈ ctx'.timerqueue.elems) :
  ctx'.GoodTimers
  := by
  refine ⟨hwf, ?_, ?_, ?_, ?_⟩
  · intro p e' he'
    obtain ⟨e, he, hattached, hperiodic, hfree, hc, hactive, hcopy⟩ := htimer p e' he'
    have hgood := h.timer p e he
    refine ⟨hattached.trans hgood.attached, hperiodic.trans hgood.useOnce, ?_⟩
    rcases hgood.callback with ⟨hreport, hactive'⟩ | ⟨hfree', c, hmem, hdummy⟩
    · left
      exact ⟨hc.trans hreport, (hactive hreport).trans hactive'⟩
    · right
      exact ⟨hfree.trans hfree', c, hcopy c hdummy hmem, hc.trans hdummy⟩
  · intro p q e' e'' c he' he'' hc' hc''
    obtain ⟨e₁, he₁, -, -, -, hc₁, -⟩ := htimer p e' he'
    obtain ⟨e₂, he₂, -, -, -, hc₂, -⟩ := htimer q e'' he''
    apply h.own p q e₁ e₂ c he₁ he₂ (hc₁.symm.trans hc') (hc₂.symm.trans hc'')
  · intro c hc
    rw [hnext]
    apply h.fresh c (hconfs c hc)
  · obtain ⟨p, e, he, hc⟩ := h.report
    obtain ⟨e', he'⟩ := OrdMap.mem_iff.mp (hreport p e he hc)
    obtain ⟨e₁, he₁, -, -, -, hc₁, -⟩ := htimer p e' he'
    obtain rfl := Option.some.inj (he.symm.trans he₁)
    exact ⟨p, e', he', hc₁.trans hc⟩

/-- Slots stay in order if the streams run as before. -/
theorem GoodSlots.keep {ctx ctx' : SimNetCtx} {commands : List NetCommand}
    (h : ctx.GoodSlots commands) (hruns : ∀ p conf, ctx'.Runs p conf ↔ ctx.Runs p conf)
    (hslots : ctx'.dummyTrafficTimers = ctx.dummyTrafficTimers) :
  ctx'.GoodSlots commands
  := by
  constructor
  · intro id p
    simp only [hslots, h.slot, hruns]
  · intro p conf hconf
    apply h.latest p conf ((hruns p conf).mp hconf)

/-- A stream is unset, and its slot is cleared. -/
theorem GoodSlots.unset {ctx ctx' : SimNetCtx} {commands commands' : List NetCommand}
    (h : ctx.GoodSlots commands) (id : ℕ)
    (hruns : ∀ p conf, ctx'.Runs p conf ↔ ctx.Runs p conf ∧ conf.confId.toNat ≠ id)
    (hslots : ctx'.dummyTrafficTimers = Function.update ctx.dummyTrafficTimers id none)
    (hlast : ∀ i, i ≠ id → lastSet commands' i = lastSet commands i) :
  ctx'.GoodSlots commands'
  := by
  constructor
  · intro i p
    by_cases hi : i = id
    · subst hi
      simp only [hslots, Function.update_self, reduceCtorEq, false_iff, not_exists, not_and]
      intro conf hconf
      apply ((hruns p conf).mp hconf).2
    · rw [hslots, Function.update_of_ne hi, h.slot]
      constructor
      · rintro ⟨conf, hconf, rfl⟩
        exact ⟨conf, (hruns p conf).mpr ⟨hconf, hi⟩, rfl⟩
      · rintro ⟨conf, hconf, rfl⟩
        exact ⟨conf, ((hruns p conf).mp hconf).1, rfl⟩
  · intro p conf hconf
    obtain ⟨hconf, hne⟩ := (hruns p conf).mp hconf
    rw [hlast _ hne]
    apply h.latest p conf hconf

/-- A stream that is not running is set, with the timer `p`. -/
theorem GoodSlots.set {ctx ctx' : SimNetCtx} {commands commands' : List NetCommand}
    (h : ctx.GoodSlots commands) {conf : NetSetDummyTrafficConfig} {p : ℕ}
    (hfree : ctx.dummyTrafficTimers conf.confId.toNat = none)
    (hruns : ∀ q conf', ctx'.Runs q conf' ↔ q = p ∧ conf' = conf ∨ ctx.Runs q conf')
    (hslots : ctx'.dummyTrafficTimers =
      Function.update ctx.dummyTrafficTimers conf.confId.toNat (some p))
    (hlast : lastSet commands' conf.confId.toNat = some conf)
    (hother : ∀ i, i ≠ conf.confId.toNat → lastSet commands' i = lastSet commands i) :
  ctx'.GoodSlots commands'
  := by
  have hne : ∀ q conf', ctx.Runs q conf' → conf'.confId.toNat ≠ conf.confId.toNat := by
    intro q conf' hconf' heq
    have hslot := (h.slot conf.confId.toNat q).mpr ⟨conf', hconf', heq⟩
    rw [hfree] at hslot
    contradiction
  constructor
  · intro i q
    by_cases hi : i = conf.confId.toNat
    · subst hi
      rw [hslots, Function.update_self]
      constructor
      · intro hq
        exact ⟨conf, (hruns q conf).mpr (Or.inl ⟨(Option.some.inj hq).symm, rfl⟩), rfl⟩
      · rintro ⟨conf', hconf', heq⟩
        rcases (hruns q conf').mp hconf' with ⟨rfl, -⟩ | hconf'
        · rfl
        · apply absurd heq (hne q conf' hconf')
    · rw [hslots, Function.update_of_ne hi, h.slot]
      constructor
      · rintro ⟨conf', hconf', rfl⟩
        exact ⟨conf', (hruns q conf').mpr (Or.inr hconf'), rfl⟩
      · rintro ⟨conf', hconf', rfl⟩
        rcases (hruns q conf').mp hconf' with ⟨-, rfl⟩ | hconf'
        · contradiction
        · exact ⟨conf', hconf', rfl⟩
  · intro q conf' hconf'
    rcases (hruns q conf').mp hconf' with ⟨-, rfl⟩ | hconf'
    · apply hlast
    · rw [hother _ (hne q conf' hconf')]
      apply h.latest q conf' hconf'

/-- A node that has just started has the report timer only. -/
theorem startReportJob_good {nodeId : BitVec 8} {now : Timespec} {ctx : SimNetCtx}
    (h : startReportJob nodeId now = some ctx) :
  ctx.GoodTimers ∧ ctx.GoodSlots []
  := by
  have hwf : (createTimerqueue : TimerqueueContext SimNetCallback).Wf none :=
    TimerqueueContext.createTimerqueue_wf
  obtain ⟨tq, hstart, hwf', harmed⟩ :=
    TimerqueueContext.startTimer_spec hwf now SimNetCallback.sendNetReportCb (1000 * 100) false
  simp only [startReportJob, hstart, Option.bind_eq_bind, Option.bind_some, Option.pure_def,
    Option.some.injEq] at h
  subst h
  have helems : ∀ p e, tq.elems.search p = some e → p = 0 ∧ e.callback = some .sendNetReportCb ∧
      e.active = true ∧ e.attached = true ∧ e.useOnce = false := by
    intro p e he
    simp only [TimerqueueContext.startTimer, TimerqueueContext.timerqueueNewTimer, createTimerqueue,
      TimerqueueContext.timerqueueRegisterTimer, Option.bind_eq_bind, Option.bind_eq_some_iff,
      Option.pure_def, Option.some.injEq, Prod.mk.injEq] at hstart
    obtain ⟨tq', ⟨e', he', rfl⟩, -, rfl⟩ := hstart
    simp only [TimerqueueContext.search_update, OrdMap.search_insert, OrdMap.search_empty] at he
    split_ifs at he with hp
    simp only [Option.map_some, Option.getD_none, Option.some.injEq] at he
    subst he
    exact ⟨hp, rfl, rfl, rfl, rfl⟩
  have hruns : ∀ p conf, ¬ Runs ⟨tq, nodeId, fun _ => none, .empty, 0, []⟩ p conf := by
    rintro p conf ⟨e, c, he, -, hc, -⟩
    simp [(helems p e he).2.1] at hc
  refine ⟨⟨hwf', ?_, ?_, ?_, ?_⟩, ?_, ?_⟩
  · intro p e he
    obtain ⟨-, hc, hactive, hattached, hperiodic⟩ := helems p e he
    exact ⟨hattached, hperiodic, Or.inl ⟨hc, hactive⟩⟩
  · intro p q e e' c he he' _ _
    rw [(helems p e he).1, (helems q e' he').1]
  · intro c hc
    apply absurd hc (OrdMap.not_mem_empty c)
  · obtain ⟨e, he, -, -, hc⟩ := (harmed .sendNetReportCb _).mpr (Or.inr ⟨rfl, rfl⟩)
    exact ⟨_, e, he, hc⟩
  · intro id p
    constructor
    · intro hslot
      contradiction
    · rintro ⟨conf, hconf, -⟩
      apply absurd hconf (hruns p conf)
  · intro p conf hconf
    apply absurd hconf (hruns p conf)

/-! ### Commands -/

/-- Unsetting a stream succeeds, and clears its slot. -/
theorem unregister_spec {ctx : SimNetCtx} {commands commands' : List NetCommand}
    (h : ctx.GoodTimers) (hslots : ctx.GoodSlots commands) {confId : BitVec 16}
    (hrange : confId.toNat < maxDummyStreams)
    (hlast : ∀ i, i ≠ confId.toNat → lastSet commands' i = lastSet commands i) :
  ∃ ctx', ctx.unregisterDummypktSendJob confId = some ctx' ∧ ctx'.GoodTimers ∧
    ctx'.GoodSlots commands' ∧ ctx'.dummyTrafficTimers confId.toNat = none
  := by
  rw [unregisterDummypktSendJob, if_neg (Nat.not_le_of_lt hrange)]
  cases hslot : ctx.dummyTrafficTimers confId.toNat with
  | none =>
      refine ⟨ctx, rfl, h, ?_, hslot⟩
      apply hslots.unset confId.toNat
      · intro p conf
        constructor
        · intro hconf
          refine ⟨hconf, ?_⟩
          intro heq
          have hslot' := (hslots.slot confId.toNat p).mpr ⟨conf, hconf, heq⟩
          rw [hslot] at hslot'
          contradiction
        · rintro ⟨hconf, -⟩
          apply hconf
      · rw [← hslot, Function.update_eq_self]
      · apply hlast
  | some p =>
      obtain ⟨conf, hconf, hid⟩ := (hslots.slot confId.toNat p).mp hslot
      have hconf' := hconf
      obtain ⟨e, c, he, hactive, hc, hcopy⟩ := hconf'
      let f : TimerqueueElem SimNetCallback → TimerqueueElem SimNetCallback :=
        fun e => { e with active := false }
      let ctx' : SimNetCtx := { ctx with
        timerqueue := ctx.timerqueue.update p f
        dummyTrafficTimers := Function.update ctx.dummyTrafficTimers confId.toNat none }
      have hsearch : ∀ q, ctx'.timerqueue.elems.search q =
          if q = p then some (f e) else ctx.timerqueue.elems.search q := by
        intro q
        apply Eq.trans (TimerqueueContext.search_update ctx.timerqueue p f q)
        rw [he, Option.map_some]
      refine ⟨ctx', by simp [he, ctx', f], ?_, ?_, Function.update_self _ _ _⟩
      · refine h.change ?_ ?_ (fun _ hc => hc) rfl ?_
        · apply h.wf.update he f (Or.inr ⟨rfl, rfl⟩)
          intro hactive'
          contradiction
        · intro q e' he'
          rw [hsearch] at he'
          split_ifs at he' with hq
          · obtain rfl := Option.some.inj he'
            refine ⟨e, hq ▸ he, rfl, rfl, rfl, rfl, ?_, fun _ _ hmem => hmem⟩
            intro hreport
            simp [hc] at hreport
          · exact ⟨e', he', rfl, rfl, rfl, rfl, fun _ => rfl, fun _ _ hmem => hmem⟩
        · intro q e' he' hreport
          apply OrdMap.mem_of_search (v := if q = p then f e else e')
          rw [hsearch]
          split_ifs
          · rfl
          · apply he'
      · apply hslots.unset confId.toNat _ rfl hlast
        intro q conf'
        constructor
        · rintro ⟨e', c', he', hactive', hc', hcopy'⟩
          rw [hsearch] at he'
          split_ifs at he' with hq
          · obtain rfl := Option.some.inj he'
            contradiction
          · have hruns : ctx.Runs q conf' := ⟨e', c', he', hactive', hc', hcopy'⟩
            refine ⟨hruns, ?_⟩
            intro heq
            have hslot' := (hslots.slot confId.toNat q).mpr ⟨conf', hruns, heq⟩
            rw [hslot] at hslot'
            apply hq (Option.some.inj hslot').symm
        · rintro ⟨hruns, hne⟩
          have hruns' := hruns
          obtain ⟨e', c', he', hactive', hc', hcopy'⟩ := hruns'
          refine ⟨e', c', ?_, hactive', hc', hcopy'⟩
          rw [hsearch, if_neg, he']
          rintro rfl
          apply hne
          rw [hruns.unique hconf, hid]

/-- Between `ctx` and `ctx'` the new timer `p` is started for a stream, with a new copy of its
configuration. -/
structure Adds (ctx ctx' : SimNetCtx) (p : ℕ) (e : TimerqueueElem SimNetCallback)
    (conf : NetSetDummyTrafficConfig) : Prop where
  unused : ctx.timerqueue.elems.search p = none
  elems : ∀ q, ctx'.timerqueue.elems.search q =
    if q = p then some e else ctx.timerqueue.elems.search q
  attached : e.attached = true
  active : e.active = true
  useOnce : e.useOnce = false
  freeOnDetach : e.freeOnDetach = true
  callback : e.callback = some (.sendDummyPacket ctx.nextConf)
  confs : ctx'.confs = ctx.confs.insert ctx.nextConf conf
  nextConf : ctx'.nextConf = ctx.nextConf + 1

/-- A timer that was there is not the new one. -/
theorem Adds.ne {ctx ctx' : SimNetCtx} {p : ℕ} {e : TimerqueueElem SimNetCallback}
    {conf : NetSetDummyTrafficConfig} (h : Adds ctx ctx' p e conf) {q : ℕ}
    {e' : TimerqueueElem SimNetCallback} (he' : ctx.timerqueue.elems.search q = some e') :
  q ≠ p
  := by
  rintro rfl
  rw [h.unused] at he'
  contradiction

/-- A timer that was there has its copy of a configuration, which is not the new one. -/
theorem GoodTimers.copy_ne {ctx : SimNetCtx} (h : ctx.GoodTimers) {q c : ℕ}
    {e : TimerqueueElem SimNetCallback} (he : ctx.timerqueue.elems.search q = some e)
    (hc : e.callback = some (.sendDummyPacket c)) :
  c ≠ ctx.nextConf
  := by
  rcases (h.timer q e he).callback with ⟨hreport, -⟩ | ⟨-, c', hmem, hc'⟩
  · simp [hc] at hreport
  · obtain rfl := SimNetCallback.sendDummyPacket.inj (Option.some.inj (hc.symm.trans hc'))
    apply ne_of_lt (h.fresh c hmem)

/-- Starting a new timer for a stream keeps the timers in order. -/
theorem GoodTimers.adds {ctx ctx' : SimNetCtx} {p : ℕ} {e : TimerqueueElem SimNetCallback}
    {conf : NetSetDummyTrafficConfig} (h : ctx.GoodTimers) (hadds : Adds ctx ctx' p e conf)
    (hwf : ctx'.timerqueue.Wf none) :
  ctx'.GoodTimers
  := by
  refine ⟨hwf, ?_, ?_, ?_, ?_⟩
  · intro q e' he'
    rw [hadds.elems] at he'
    split_ifs at he'
    · obtain rfl := Option.some.inj he'
      refine ⟨hadds.attached, hadds.useOnce, ?_⟩
      right
      refine ⟨hadds.freeOnDetach, ctx.nextConf, ?_, hadds.callback⟩
      rw [hadds.confs]
      apply OrdMap.mem_insert.mpr (Or.inl rfl)
    · obtain ⟨hattached, hperiodic, hcallback⟩ := h.timer q e' he'
      refine ⟨hattached, hperiodic, ?_⟩
      rcases hcallback with hreport | ⟨hfree, c, hmem, hc⟩
      · left
        apply hreport
      · right
        refine ⟨hfree, c, ?_, hc⟩
        rw [hadds.confs]
        apply OrdMap.mem_insert.mpr (Or.inr hmem)
  · intro q q' e₁ e₂ c he₁ he₂ hc₁ hc₂
    rw [hadds.elems] at he₁ he₂
    split_ifs at he₁ he₂ with hq hq'
    · rw [hq, hq']
    · obtain rfl := Option.some.inj he₁
      have hnext := SimNetCallback.sendDummyPacket.inj (Option.some.inj
        (hc₁.symm.trans hadds.callback))
      apply absurd hnext (h.copy_ne he₂ hc₂)
    · obtain rfl := Option.some.inj he₂
      have hnext := SimNetCallback.sendDummyPacket.inj (Option.some.inj
        (hc₂.symm.trans hadds.callback))
      apply absurd hnext (h.copy_ne he₁ hc₁)
    · apply h.own q q' e₁ e₂ c he₁ he₂ hc₁ hc₂
  · intro c hc
    rw [hadds.confs] at hc
    rw [hadds.nextConf]
    rcases OrdMap.mem_insert.mp hc with rfl | hc
    · apply Nat.lt_succ_self
    · apply Nat.lt_succ_of_lt (h.fresh c hc)
  · obtain ⟨q, e', he', hc⟩ := h.report
    refine ⟨q, e', ?_, hc⟩
    rw [hadds.elems, if_neg (hadds.ne he'), he']

/-- The copies of configurations are those that were there and the new one. -/
theorem Adds.search_confs {ctx ctx' : SimNetCtx} {p : ℕ} {e : TimerqueueElem SimNetCallback}
    {conf : NetSetDummyTrafficConfig} (hadds : Adds ctx ctx' p e conf) (h : ctx.GoodTimers)
    (c : ℕ) :
  ctx'.confs.search c = if c = ctx.nextConf then some conf else ctx.confs.search c
  := by
  have hfresh : ctx.confs.search ctx.nextConf = none :=
    OrdMap.search_eq_none.mpr (fun hmem => lt_irrefl _ (h.fresh _ hmem))
  rw [hadds.confs, OrdMap.search_insert, hfresh, Option.getD_none]

/-- The new timer sends the packets of its stream, and the others those they sent before. -/
theorem Adds.runs_iff {ctx ctx' : SimNetCtx} {p : ℕ} {e : TimerqueueElem SimNetCallback}
    {conf : NetSetDummyTrafficConfig} (hadds : Adds ctx ctx' p e conf) (h : ctx.GoodTimers)
    (q : ℕ) (conf' : NetSetDummyTrafficConfig) :
  ctx'.Runs q conf' ↔ q = p ∧ conf' = conf ∨ ctx.Runs q conf'
  := by
  have hcopies := hadds.search_confs h
  constructor
  · rintro ⟨e', c, he', hactive, hc, hconf⟩
    rw [hadds.elems] at he'
    split_ifs at he' with hq
    · left
      obtain rfl := Option.some.inj he'
      obtain rfl := SimNetCallback.sendDummyPacket.inj (Option.some.inj
        (hc.symm.trans hadds.callback))
      rw [hcopies, if_pos rfl] at hconf
      exact ⟨hq, (Option.some.inj hconf).symm⟩
    · right
      rw [hcopies, if_neg (h.copy_ne he' hc)] at hconf
      exact ⟨e', c, he', hactive, hc, hconf⟩
  · rintro (⟨rfl, rfl⟩ | ⟨e', c, he', hactive, hc, hconf⟩)
    · refine ⟨e, ctx.nextConf, ?_, hadds.active, hadds.callback, ?_⟩
      · rw [hadds.elems, if_pos rfl]
      · rw [hcopies, if_pos rfl]
    · refine ⟨e', c, ?_, hactive, hc, ?_⟩
      · rw [hadds.elems, if_neg (hadds.ne he'), he']
      · rw [hcopies, if_neg (h.copy_ne he' hc), hconf]

/-- Setting a stream whose slot is empty succeeds, and starts a new timer. -/
theorem register_adds {ctx : SimNetCtx} (h : ctx.GoodTimers) (now : Timespec)
    {conf : NetSetDummyTrafficConfig} (hrange : conf.confId.toNat < maxDummyStreams)
    (hempty : ctx.dummyTrafficTimers conf.confId.toNat = none) :
  ∃ ctx' e, ctx.registerDummypktSendJob now conf = some ctx' ∧
    Adds ctx ctx' ctx.timerqueue.nextPtr e conf ∧ ctx'.timerqueue.Wf none ∧
    ctx'.dummyTrafficTimers = Function.update ctx.dummyTrafficTimers conf.confId.toNat
      (some ctx.timerqueue.nextPtr) ∧
    e.expire = timespecAddUsec now (toUlong (conf.intervalMs.toNat * 1000)) ∧
    e.maxJitter = 0 ∧ e.intervalUs = conf.intervalMs.toNat * 1000
  := by
  let p := ctx.timerqueue.nextPtr
  let f : TimerqueueElem SimNetCallback → TimerqueueElem SimNetCallback := fun e => { e with
    callback := some (.sendDummyPacket ctx.nextConf)
    useOnce := false
    intervalUs := conf.intervalMs.toNat * 1000
    freeOnDetach := true }
  have hf : (f .zero).callback = some (.sendDummyPacket ctx.nextConf) := rfl
  obtain ⟨tq', htq', hwf', hsearch⟩ := TimerqueueContext.registerNew_spec h.wf now hf
  let ctx' : SimNetCtx := { ctx with
    timerqueue := tq'
    dummyTrafficTimers := Function.update ctx.dummyTrafficTimers conf.confId.toNat (some p)
    confs := ctx.confs.insert ctx.nextConf conf
    nextConf := ctx.nextConf + 1 }
  have hadds : Adds ctx ctx' p { f .zero with
      expire := timespecAddUsec now (toUlong (f .zero).intervalUs)
      attached := true
      active := true } conf := by
    obtain ⟨hunused, -⟩ := TimerqueueContext.newTimer_spec h.wf
    exact ⟨hunused, hsearch, rfl, rfl, rfl, rfl, rfl, rfl, rfl⟩
  refine ⟨ctx', _, ?_, hadds, hwf', rfl, rfl, rfl, rfl⟩
  simp only [registerDummypktSendJob, if_neg (Nat.not_le_of_lt hrange), findDummyTimer, hempty,
    Option.bind_eq_bind]
  apply Eq.trans (congrArg (Option.bind · _) htq')
  rfl

/-- Setting a stream whose slot is empty keeps timers and slots in order. -/
theorem register_spec {ctx : SimNetCtx} {commands commands' : List NetCommand}
    (h : ctx.GoodTimers) (hslots : ctx.GoodSlots commands) (now : Timespec)
    {conf : NetSetDummyTrafficConfig} (hrange : conf.confId.toNat < maxDummyStreams)
    (hempty : ctx.dummyTrafficTimers conf.confId.toNat = none)
    (hlast : lastSet commands' conf.confId.toNat = some conf)
    (hother : ∀ i, i ≠ conf.confId.toNat → lastSet commands' i = lastSet commands i) :
  ∃ ctx', ctx.registerDummypktSendJob now conf = some ctx' ∧ ctx'.GoodTimers ∧
    ctx'.GoodSlots commands'
  := by
  obtain ⟨ctx', e, hctx', hadds, hwf', hslot, -⟩ := register_adds h now hrange hempty
  refine ⟨ctx', hctx', h.adds hadds hwf', ?_⟩
  apply hslots.set hempty (hadds.runs_iff h) hslot hlast hother

/-! ### Timers -/

/-- A callback hands a packet over, and changes nothing else. -/
theorem runCallback_inv {ctx ctx' : SimNetCtx} {c : SimNetCallback}
    (h : runCallback c ctx = some ctx') :
  ∃ pkts, ctx' = { ctx with localPkts := pkts }
  := by
  cases c with
  | sendDummyPacket conf =>
      simp only [runCallback, sendDummyPacket, Option.bind_eq_bind, Option.bind_eq_some_iff] at h
      obtain ⟨conf', -, h⟩ := h
      split_ifs at h
      exact ⟨_, (Option.some.inj h).symm⟩
  | sendNetReportCb => exact ⟨ctx.localPkts, (Option.some.inj h).symm⟩

/-- A round for an active timer moves it. -/
theorem GoodTimers.fire_active {ctx ctx' : SimNetCtx} {commands : List NetCommand} {rand : ℕ}
    {k : TqKey} {e : TimerqueueElem SimNetCallback} (h : ctx.GoodTimers)
    (hslots : ctx.GoodSlots commands) (hk : k ∈ ctx.timerqueue.rbt)
    (he : ctx.timerqueue.elems.search k.ptr = some e) (hactive : e.active = true)
    (hfire : client.fire rand k ctx = some ctx') :
  ctx'.GoodTimers ∧ ctx'.GoodSlots commands
  := by
  rcases client.fire_inv hfire with ⟨e', q, he', hactive', -⟩ |
    ⟨e', c, ctx₁, q, he', -, hc, hrun, -⟩
  · obtain rfl := Option.some.inj (he.symm.trans he')
    simp [hactive] at hactive'
  obtain rfl := Option.some.inj (he.symm.trans he')
  obtain ⟨pkts, hpkts⟩ := runCallback_inv hrun
  obtain ⟨tq, hfire', hwf, helems⟩ := client.fire_periodic h.wf hk he hactive hc
    (h.timer k.ptr e he).useOnce hrun (by rw [hpkts]; rfl) rand
  let expire := timespecAddUsec e.expire (toUlong (TqClient.newInterval e rand))
  have hctx' : ctx' = { ctx with timerqueue := tq, localPkts := pkts } := by
    rw [hfire] at hfire'
    rw [Option.some.inj hfire', hpkts]
    rfl
  subst hctx'
  let f : TimerqueueElem SimNetCallback → TimerqueueElem SimNetCallback :=
    fun e => { e with expire := expire }
  have hsearch : ∀ p, tq.elems.search p =
      if p = k.ptr then some (f e) else ctx.timerqueue.elems.search p := by
    intro p
    have hmodify : tq.elems.search p = (ctx.timerqueue.elems.modify k.ptr f).search p := by
      rw [helems]
      rfl
    rw [hmodify, OrdMap.search_modify, he, Option.map_some]
  -- Every timer is there before and after, with the same fields but for the time of expiry.
  have hsame : ∀ p e', tq.elems.search p = some e' →
      ∃ e, ctx.timerqueue.elems.search p = some e ∧ e' = { e with expire := e'.expire } := by
    intro p e' he'
    rw [hsearch] at he'
    split_ifs at he' with hp
    · obtain rfl := Option.some.inj he'
      exact ⟨e, hp ▸ he, rfl⟩
    · exact ⟨e', he', rfl⟩
  have hsame' : ∀ p e, ctx.timerqueue.elems.search p = some e →
      ∃ t, tq.elems.search p = some { e with expire := t } := by
    intro p e' he'
    rw [hsearch]
    split_ifs with hp
    · rw [hp, he] at he'
      obtain rfl := Option.some.inj he'
      exact ⟨expire, rfl⟩
    · exact ⟨e'.expire, he'⟩
  constructor
  · refine h.change hwf ?_ (fun _ hc => hc) rfl ?_
    · intro p e' he'
      obtain ⟨e₀, he₀, heq⟩ := hsame p e' he'
      refine ⟨e₀, he₀, ?_, ?_, ?_, ?_, ?_, fun _ _ hmem => hmem⟩
      · rw [heq]
      · rw [heq]
      · rw [heq]
      · rw [heq]
      · intro _
        rw [heq]
    · intro p e' he' _
      obtain ⟨t, ht⟩ := hsame' p e' he'
      apply OrdMap.mem_of_search ht
  · refine hslots.keep ?_ rfl
    intro p conf
    constructor
    · rintro ⟨e', c', he', hactive', hc', hconf⟩
      obtain ⟨e₀, he₀, heq⟩ := hsame p e' he'
      rw [heq] at hactive' hc'
      exact ⟨e₀, c', he₀, hactive', hc', hconf⟩
    · rintro ⟨e₀, c', he₀, hactive', hc', hconf⟩
      obtain ⟨t, ht⟩ := hsame' p e₀ he₀
      exact ⟨_, c', ht, hactive', hc', hconf⟩

/-- A round for a timer that is no longer active frees it and its copy. -/
theorem GoodTimers.fire_inactive {ctx ctx' : SimNetCtx} {commands : List NetCommand} {rand c : ℕ}
    {k : TqKey} {e : TimerqueueElem SimNetCallback} (h : ctx.GoodTimers)
    (hslots : ctx.GoodSlots commands) (hk : k ∈ ctx.timerqueue.rbt)
    (he : ctx.timerqueue.elems.search k.ptr = some e) (hactive : e.active = false)
    (hc : e.callback = some (.sendDummyPacket c)) (hfree : e.freeOnDetach = true)
    (hfire : client.fire rand k ctx = some ctx') :
  GoodTimers { ctx' with confs := ctx'.confs.erase c } ∧
    GoodSlots { ctx' with confs := ctx'.confs.erase c } commands
  := by
  obtain ⟨tq, hfire', hwf, hsearch⟩ := client.fire_freed h.wf hk he hactive hfree rand
  have hctx' : ctx' = { ctx with timerqueue := tq } := by
    rw [hfire] at hfire'
    apply Option.some.inj hfire'
  subst hctx'
  have hkept : ∀ p e', tq.elems.search p = some e' ↔
      p ≠ k.ptr ∧ ctx.timerqueue.elems.search p = some e' := by
    intro p e'
    rw [hsearch]
    split_ifs with hp
    · simp [hp]
    · simp only [ne_eq, hp, not_false_eq_true, true_and]
      rfl
  -- The copy that is freed belongs to the timer that is freed.
  have hcopy : ∀ p e' c', p ≠ k.ptr → ctx.timerqueue.elems.search p = some e' →
      e'.callback = some (.sendDummyPacket c') → c' ≠ c := by
    rintro p e' c' hp he' hc' rfl
    apply hp (h.own p k.ptr e' e c' he' he hc' hc)
  constructor
  · refine h.change hwf ?_ ?_ rfl ?_
    · intro p e' he'
      obtain ⟨hp, he'⟩ := (hkept p e').mp he'
      refine ⟨e', he', rfl, rfl, rfl, rfl, fun _ => rfl, ?_⟩
      intro c' hc' hmem
      exact OrdMap.mem_erase.mpr ⟨hcopy p e' c' hp he' hc', hmem⟩
    · intro c' hc'
      apply (OrdMap.mem_erase.mp hc').2
    · intro p e' he' hreport
      apply OrdMap.mem_of_search (v := e')
      apply (hkept p e').mpr
      refine ⟨?_, he'⟩
      rintro rfl
      obtain rfl := Option.some.inj (he.symm.trans he')
      simp [hc] at hreport
  · refine hslots.keep ?_ rfl
    intro p conf
    constructor
    · rintro ⟨e', c', he', hactive', hc', hconf⟩
      obtain ⟨hp, he'⟩ := (hkept p e').mp he'
      rw [OrdMap.search_erase, if_neg (hcopy p e' c' hp he' hc')] at hconf
      exact ⟨e', c', he', hactive', hc', hconf⟩
    · rintro ⟨e', c', he', hactive', hc', hconf⟩
      have hp : p ≠ k.ptr := by
        rintro rfl
        obtain rfl := Option.some.inj (he.symm.trans he')
        simp [hactive] at hactive'
      refine ⟨e', c', (hkept p e').mpr ⟨hp, he'⟩, hactive', hc', ?_⟩
      rw [OrdMap.search_erase, if_neg (hcopy p e' c' hp he' hc'), hconf]

/-- A round of the timer queue keeps timers and slots in order. -/
theorem GoodTimers.work {ctx ctx' : SimNetCtx} {commands : List NetCommand} {currtime : Timespec}
    {rand : ℕ} (h : ctx.GoodTimers) (hslots : ctx.GoodSlots commands)
    (hstep : ctx.timerqueueWork currtime rand = some ctx') :
  ctx'.GoodTimers ∧ ctx'.GoodSlots commands
  := by
  obtain ⟨ctx₁, hround, hdetach⟩ := Option.bind_eq_some_iff.mp hstep
  rcases h.wf.firstDue_cases currtime with hdue |
    ⟨k, e, hdue, hk, he, -, -, -, hactive | ⟨hactive, -⟩⟩
  · rw [client.workRound_idle hdue rand] at hround
    obtain rfl := Option.some.inj hround
    simp only [detached, hdue, Option.bind_eq_bind, Option.bind_none, Option.pure_def] at hdetach
    obtain rfl := Option.some.inj hdetach
    exact ⟨h, hslots⟩
  · rw [client.workRound_due hdue rand] at hround
    rcases (h.timer k.ptr e he).callback with ⟨-, hactive'⟩ | ⟨hfree, c, -, hc⟩
    · simp [hactive] at hactive'
    simp only [detached, hdue, he, hactive, hc, Option.bind_eq_bind, Option.bind_some,
      dummypktSendJobDetachCb, Option.bind_eq_some_iff, Option.pure_def] at hdetach
    obtain ⟨conf, -, hctx'⟩ := hdetach
    obtain rfl := Option.some.inj hctx'
    apply h.fire_inactive hslots hk he hactive hc hfree hround
  · rw [client.workRound_due hdue rand] at hround
    simp only [detached, hdue, he, hactive, Option.bind_eq_bind, Option.bind_some] at hdetach
    obtain rfl := Option.some.inj hdetach
    apply h.fire_active hslots hk he hactive hround

/-- A command that succeeds is for a stream that there is a slot for. -/
theorem processCommand_inRange {ctx ctx' : SimNetCtx} {now : Timespec} {cmd : NetCommand}
    (h : ctx.processCommand now cmd = some ctx') :
  cmd.confId.toNat < maxDummyStreams
  := by
  have hunregister : ∀ {confId ctx'}, ctx.unregisterDummypktSendJob confId = some ctx' →
      confId.toNat < maxDummyStreams := by
    intro confId ctx' h
    rw [unregisterDummypktSendJob] at h
    split_ifs at h with hle
    apply Nat.lt_of_not_le hle
  cases cmd with
  | set conf =>
      rw [processCommand, registerDummypktSendJob] at h
      split_ifs at h with hle
      apply Nat.lt_of_not_le hle
  | unset confId => apply hunregister h
  | update conf =>
      obtain ⟨ctx₁, hctx₁, -⟩ := Option.bind_eq_some_iff.mp h
      apply hunregister hctx₁

/-! ### Slots in use -/

/-- The slot of the stream `id` is in use. -/
def inUse (ctx : SimNetCtx) (id : ℕ) : Bool := (ctx.dummyTrafficTimers id).isSome

theorem register_inUse {ctx ctx' : SimNetCtx} {now : Timespec} {conf : NetSetDummyTrafficConfig}
    (h : ctx.registerDummypktSendJob now conf = some ctx') :
  ctx'.inUse = Function.update ctx.inUse conf.confId.toNat true
  := by
  rw [registerDummypktSendJob] at h
  split_ifs at h
  simp only [Option.bind_eq_bind, Option.bind_eq_some_iff, Option.pure_def, Option.some.injEq] at h
  obtain ⟨tq, -, rfl⟩ := h
  funext id
  rw [inUse, Function.update_apply, findDummyTimer]
  cases hslot : ctx.dummyTrafficTimers conf.confId.toNat with
  | some p =>
      simp only
      split_ifs with hid
      · rw [hid, hslot, Option.isSome_some]
      · rfl
  | none =>
      simp only [Function.update_apply]
      split_ifs
      · rfl
      · rfl

theorem unregister_inUse {ctx ctx' : SimNetCtx} {confId : BitVec 16}
    (h : ctx.unregisterDummypktSendJob confId = some ctx') :
  ctx'.inUse = Function.update ctx.inUse confId.toNat false
  := by
  rw [unregisterDummypktSendJob] at h
  split_ifs at h
  funext id
  rw [inUse, Function.update_apply]
  cases hslot : ctx.dummyTrafficTimers confId.toNat with
  | none =>
      simp only [hslot] at h
      obtain rfl := Option.some.inj h
      split_ifs with hid
      · rw [hid, hslot, Option.isSome_none]
      · rfl
  | some p =>
      simp only [hslot, Option.bind_eq_bind, Option.bind_eq_some_iff, Option.pure_def,
        Option.some.injEq] at h
      obtain ⟨e, -, rfl⟩ := h
      simp only [Function.update_apply]
      split_ifs
      · rfl
      · rfl

theorem processCommand_inUse {ctx ctx' : SimNetCtx} {now : Timespec} {cmd : NetCommand}
    (h : ctx.processCommand now cmd = some ctx') :
  ctx'.inUse = cmd.slots ctx.inUse
  := by
  cases cmd with
  | set conf => apply register_inUse h
  | unset confId => apply unregister_inUse h
  | update conf =>
      obtain ⟨ctx₁, hctx₁, hctx'⟩ := Option.bind_eq_some_iff.mp h
      rw [register_inUse hctx', unregister_inUse hctx₁, Function.update_idem]
      rfl

theorem timerqueueWork_inUse {ctx ctx' : SimNetCtx} {currtime : Timespec} {rand : ℕ}
    (h : ctx.timerqueueWork currtime rand = some ctx') :
  ctx'.inUse = ctx.inUse
  := by
  obtain ⟨ctx₁, hround, hdetach⟩ := Option.bind_eq_some_iff.mp h
  have hround' : ctx₁.dummyTrafficTimers = ctx.dummyTrafficTimers := by
    rcases client.workRound_inv hround with ⟨q, rfl⟩ | ⟨c, q, ctx₂, q', -, hrun, rfl⟩
    · rfl
    · obtain ⟨pkts, rfl⟩ := runCallback_inv hrun
      rfl
  have hdetach' : ctx'.dummyTrafficTimers = ctx₁.dummyTrafficTimers := by
    cases hdetached : ctx.detached currtime with
    | none =>
        rw [hdetached] at hdetach
        obtain rfl := Option.some.inj hdetach
        rfl
    | some c =>
        simp only [hdetached, dummypktSendJobDetachCb, Option.bind_eq_bind,
          Option.bind_eq_some_iff, Option.pure_def, Option.some.injEq] at hdetach
        obtain ⟨conf, -, rfl⟩ := hdetach
        rfl
  funext id
  rw [inUse, inUse, hdetach', hround']

/-! ### Registered timers -/

/-- The timer found for a stream is in the queue exactly when the slot of the stream is in use. -/
theorem findDummyTimer_attached {ctx : SimNetCtx} {commands : List NetCommand} (h : ctx.GoodTimers)
    (hslots : ctx.GoodSlots commands) (id : ℕ) :
  (ctx.findDummyTimer id).2.timerqueue.Attached (ctx.findDummyTimer id).1 ↔
    ctx.dummyTrafficTimers id ≠ none
  := by
  rw [findDummyTimer]
  cases hslot : ctx.dummyTrafficTimers id with
  | some p =>
      simp only [ne_eq, reduceCtorEq, not_false_eq_true, iff_true]
      obtain ⟨conf, ⟨e, c, he, -, -, -⟩, -⟩ := (hslots.slot id p).mp hslot
      exact ⟨e, he, (h.timer p e he).attached⟩
  | none =>
      simp only [ne_eq, not_true_eq_false, iff_false]
      obtain ⟨-, -, hnew, -⟩ := TimerqueueContext.newTimer_spec h.wf
      rintro ⟨e, he, hattached⟩
      obtain rfl := Option.some.inj (hnew.symm.trans he)
      contradiction

/-- A command registers a timer that is in the queue exactly when it sets a stream whose slot is
in use. -/
theorem registersAttached_iff {ctx : SimNetCtx} {commands : List NetCommand} (h : ctx.GoodTimers)
    (hslots : ctx.GoodSlots commands) {cmd : NetCommand}
    (hrange : cmd.confId.toNat < maxDummyStreams) :
  ctx.RegistersAttached cmd ↔
    ∃ conf, cmd = .set conf ∧ ctx.dummyTrafficTimers conf.confId.toNat ≠ none
  := by
  cases cmd with
  | set conf =>
      rw [RegistersAttached]
      simp only [NetCommand.set.injEq, exists_eq_left']
      apply findDummyTimer_attached h hslots
  | unset confId => simp [RegistersAttached]
  | update conf =>
      obtain ⟨ctx', hctx', h', hslots', hempty⟩ :=
        unregister_spec h hslots hrange (fun _ _ => rfl)
      simp only [reduceCtorEq, false_and, exists_false, iff_false]
      rintro ⟨ctx'', hctx'', hattached⟩
      obtain rfl := Option.some.inj (hctx'.symm.trans hctx'')
      apply (findDummyTimer_attached h' hslots' _).mp hattached hempty

/-- A command that does not set a stream whose slot is in use succeeds. -/
theorem processCommand_spec {ctx : SimNetCtx} {commands : List NetCommand} (h : ctx.GoodTimers)
    (hslots : ctx.GoodSlots commands) (now : Timespec) {cmd : NetCommand}
    (hrange : cmd.confId.toNat < maxDummyStreams)
    (hempty : ∀ conf, cmd = .set conf → ctx.dummyTrafficTimers conf.confId.toNat = none) :
  ∃ ctx', ctx.processCommand now cmd = some ctx' ∧ ctx'.GoodTimers ∧
    ctx'.GoodSlots (commands ++ [cmd])
  := by
  have hother : ∀ i, i ≠ cmd.confId.toNat → lastSet (commands ++ [cmd]) i = lastSet commands i := by
    intro i hi
    rw [lastSet_append, lastSet_other hi.symm, Option.none_or]
  cases cmd with
  | set conf =>
      apply register_spec h hslots now hrange (hempty conf rfl) _ hother
      rw [lastSet_append]
      simp [lastSet]
  | unset confId =>
      obtain ⟨ctx', hctx', h', hslots', -⟩ := unregister_spec h hslots hrange hother
      exact ⟨ctx', hctx', h', hslots'⟩
  | update conf =>
      obtain ⟨ctx₁, hctx₁, h₁, hslots₁, hempty₁⟩ := unregister_spec h hslots hrange (fun _ _ => rfl)
      obtain ⟨ctx', hctx', h', hslots'⟩ := register_spec h₁ hslots₁ now hrange hempty₁
        (by rw [lastSet_append]; simp [lastSet]) hother
      exact ⟨ctx', Option.bind_eq_some_iff.mpr ⟨ctx₁, hctx₁, hctx'⟩, h', hslots'⟩

end SimNetCtx

/-! ### Runs -/

/-- A node, with the commands it has processed. -/
structure DummyRun where
  ctx : SimNetCtx
  commands : List NetCommand

/-- What happens to a node: it processes a command at the time `now`, or its timer queue goes
through one round of `timerqueue_work`. -/
inductive DummyEvent where
  | command (now : Timespec) (cmd : NetCommand)
  | work (currtime : Timespec) (rand : ℕ)

namespace DummyRun

/-- What an event does. -/
def step (run : DummyRun) : DummyEvent → Option DummyRun
  | .command now cmd => do
      let ctx ← run.ctx.processCommand now cmd
      return ⟨ctx, run.commands ++ [cmd]⟩
  | .work currtime rand => do
      let ctx ← run.ctx.timerqueueWork currtime rand
      return { run with ctx := ctx }

/-- The command is for a stream that there is a slot for. -/
def InRange : DummyEvent → Prop
  | .command _ cmd => cmd.confId.toNat < maxDummyStreams
  | .work _ _ => True

/-- A command to set a stream comes only when the slot of the stream is empty. -/
def SetsEmpty (run : DummyRun) : DummyEvent → Prop
  | .command _ (.set conf) => run.ctx.dummyTrafficTimers conf.confId.toNat = none
  | _ => True

instance (e : DummyEvent) : Decidable (InRange e) :=
  match e with
  | .command _ cmd => inferInstanceAs (Decidable (cmd.confId.toNat < maxDummyStreams))
  | .work _ _ => .isTrue trivial

instance (run : DummyRun) (e : DummyEvent) : Decidable (run.SetsEmpty e) :=
  match e with
  | .command _ (.set conf) =>
      inferInstanceAs (Decidable (run.ctx.dummyTrafficTimers conf.confId.toNat = none))
  | .command _ (.unset _) => .isTrue trivial
  | .command _ (.update _) => .isTrue trivial
  | .work _ _ => .isTrue trivial

theorem step_good {run run' : DummyRun} {e : DummyEvent}
    (h : run.ctx.GoodTimers ∧ run.ctx.GoodSlots run.commands) (hok : InRange e ∧ run.SetsEmpty e)
    (hstep : run.step e = some run') :
  run'.ctx.GoodTimers ∧ run'.ctx.GoodSlots run'.commands
  := by
  cases e with
  | command now cmd =>
      obtain ⟨ctx, hctx, hrun'⟩ := Option.bind_eq_some_iff.mp hstep
      obtain rfl := Option.some.inj hrun'
      obtain ⟨ctx', hctx', h'⟩ := SimNetCtx.processCommand_spec h.1 h.2 now hok.1 (by
        rintro conf rfl
        apply hok.2)
      obtain rfl := Option.some.inj (hctx.symm.trans hctx')
      apply h'
  | work currtime rand =>
      obtain ⟨ctx, hctx, hrun'⟩ := Option.bind_eq_some_iff.mp hstep
      obtain rfl := Option.some.inj hrun'
      apply h.1.work h.2 hctx

/-- Throughout every run in which no stream is set whose slot is in use, timers and slots are well
managed. The commands that may come next succeed, and of all commands in range exactly those that
set a stream whose slot is in use would register a timer that is in the queue. -/
theorem well_managed {nodeId : BitVec 8} {now : Timespec} {start : SimNetCtx} {run : DummyRun}
    (hstart : SimNetCtx.startReportJob nodeId now = some start)
    (h : Reaches step (fun run e => InRange e ∧ run.SetsEmpty e) ⟨start, []⟩ run) :
  run.ctx.WellManaged run.commands ∧
    ∀ cmd : NetCommand, cmd.confId.toNat < maxDummyStreams →
      (run.ctx.RegistersAttached cmd ↔
        ∃ conf, cmd = .set conf ∧ run.ctx.dummyTrafficTimers conf.confId.toNat ≠ none) ∧
      ∀ now, run.SetsEmpty (.command now cmd) → ∃ run', run.step (.command now cmd) = some run'
  := by
  obtain ⟨htimers, hslots⟩ := h.invariant (fun _ _ _ hs hok hstep => step_good hs hok hstep)
    (SimNetCtx.startReportJob_good hstart)
  refine ⟨htimers.wellManaged hslots, ?_⟩
  intro cmd hrange
  refine ⟨SimNetCtx.registersAttached_iff htimers hslots hrange, ?_⟩
  intro now' hempty
  obtain ⟨ctx', hctx', -⟩ := SimNetCtx.processCommand_spec htimers hslots now' hrange (by
    rintro conf rfl
    apply hempty)
  refine ⟨⟨ctx', run.commands ++ [cmd]⟩, ?_⟩
  rw [step, hctx']
  rfl

/-- A configuration of stream 0. -/
def confZero (intervalMs : BitVec 16) : NetSetDummyTrafficConfig := ⟨0, 1, 2, 100, intervalMs⟩

/-- The stream 0 is set, sends a packet, is updated and unset, its timers expire, and it is set
again. -/
def exampleEvents : List DummyEvent :=
  [.command ⟨0, 0⟩ (.set (confZero 10)), .work ⟨0, 15000000⟩ 0,
    .command ⟨0, 15000000⟩ (.update (confZero 20)), .command ⟨0, 15000000⟩ (.unset 0),
    .work ⟨0, 50000000⟩ 0, .work ⟨0, 50000000⟩ 0,
    .command ⟨0, 50000000⟩ (.set (confZero 30))]

theorem well_managed_again :
  ∃ start run, SimNetCtx.startReportJob 1 ⟨0, 0⟩ = some start ∧
    Reaches step (fun run e => InRange e ∧ run.SetsEmpty e) ⟨start, []⟩ run ∧
    run.ctx.dummyTrafficTimers 0 = some 3 ∧ run.ctx.WellManaged run.commands
  := by
  have hrun : ((SimNetCtx.startReportJob 1 ⟨0, 0⟩).bind (fun start => exampleEvents.foldlM
      (fun run e => if decide (InRange e ∧ run.SetsEmpty e) then run.step e else none)
      (⟨start, []⟩ : DummyRun))).map (fun run => run.ctx.dummyTrafficTimers 0) =
      some (some 3) := by
    decide +kernel
  obtain ⟨run, hrun, hslot⟩ := Option.map_eq_some_iff.mp hrun
  obtain ⟨start, hstart, hrun⟩ := Option.bind_eq_some_iff.mp hrun
  have hreach := Reaches.of_checked (fun _ _ hcheck => of_decide_eq_true hcheck) hrun
  exact ⟨start, run, hstart, hreach, hslot, (well_managed hstart hreach).1⟩

/-- A second command to set the stream 0 registers a timer that is in the queue. -/
theorem not_well_managed :
  ¬ ∀ (nodeId : BitVec 8) (now : Timespec) (start : SimNetCtx) (run : DummyRun),
    SimNetCtx.startReportJob nodeId now = some start →
    Reaches step (fun _ e => InRange e) ⟨start, []⟩ run →
    ∀ cmd : NetCommand, cmd.confId.toNat < maxDummyStreams → ¬ run.ctx.RegistersAttached cmd
  := by
  intro hall
  have hrun : ((SimNetCtx.startReportJob 1 ⟨0, 0⟩).bind (fun start =>
      [DummyEvent.command ⟨0, 0⟩ (.set (confZero 10))].foldlM
      (fun run e => if decide (InRange e ∧ run.SetsEmpty e) then run.step e else none)
      (⟨start, []⟩ : DummyRun))).map (fun run => run.ctx.dummyTrafficTimers 0) =
      some (some 1) := by
    decide +kernel
  obtain ⟨run, hrun, hslot⟩ := Option.map_eq_some_iff.mp hrun
  obtain ⟨start, hstart, hrun⟩ := Option.bind_eq_some_iff.mp hrun
  have hreach : Reaches step (fun run e => InRange e ∧ run.SetsEmpty e) ⟨start, []⟩ run :=
    Reaches.of_checked (fun _ _ hcheck => of_decide_eq_true hcheck) hrun
  obtain ⟨htimers, hslots⟩ := hreach.invariant (fun _ _ _ hs hok hstep => step_good hs hok hstep)
    (SimNetCtx.startReportJob_good hstart)
  have hrange : (NetCommand.set (confZero 20)).confId.toNat < maxDummyStreams := by decide
  apply hall 1 ⟨0, 0⟩ start run hstart (hreach.mono (fun _ _ hok => hok.1))
    (.set (confZero 20)) hrange
  apply (SimNetCtx.registersAttached_iff htimers hslots hrange).mpr
  refine ⟨confZero 20, rfl, ?_⟩
  have hslot' : run.ctx.dummyTrafficTimers (confZero 20).confId.toNat = some 1 := hslot
  rw [hslot']
  apply Option.some_ne_none

end DummyRun
