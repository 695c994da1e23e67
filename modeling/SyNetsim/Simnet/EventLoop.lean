import SyNetsim.Lib.Loop
import SyNetsim.Simnet.Dummy

/-!
# The event loop of a node

Every call of `timerqueue_work` on the queue of a node goes round its loop until no timer is due. It
returns exactly when every stream that is due can be served: its timer moves on, and its packets
fit into a `PacketBuf` (`DummyRun.timerqueueWork_returns_iff`).
-/

/-! ### Streams that can be served -/

/-- A stream can be served: its timer moves on whenever it fires, and its packets fit. -/
def NetSetDummyTrafficConfig.Serviceable (conf : NetSetDummyTrafficConfig) : Prop :=
  conf.intervalMs ≠ 0 ∧ conf.payloadSize.toNat + 28 ≤ packetBufSize

/-- A command sets no stream that cannot be served. -/
def NetCommand.Serviceable : NetCommand → Prop
  | set conf => conf.Serviceable
  | unset _ => True
  | update conf => conf.Serviceable

namespace SimNetCtx

/-- The timer `p` is due. -/
def Due (ctx : SimNetCtx) (p : ℕ) (currtime : Timespec) : Prop :=
  ∃ e, ctx.timerqueue.elems.search p = some e ∧ checkExpire e.expire currtime = true

/-- A call of `timerqueue_work` at `currtime` returns. The values of `rand()` are given. -/
def TimerqueueWorkReturns (ctx : SimNetCtx) (currtime : Timespec) (rand : ℕ → ℕ) : Prop :=
  LoopReturns (fun i ctx => ctx.timerqueueWork currtime (rand i))
    (fun ctx => ctx.timerqueue.firstDue currtime = none) ctx

/-- The timers of a node keep pace: their times of expiry are normal, they have no jitter, and the
timers of streams have the intervals of their configurations. -/
def Paced (ctx : SimNetCtx) : Prop :=
  ∀ p e, ctx.timerqueue.elems.search p = some e →
    e.expire.tvNsec < 1000000000 ∧ e.maxJitter = 0 ∧
    (e.callback = some .sendNetReportCb → e.intervalUs = 1000 * 100) ∧
    ∀ c conf, e.callback = some (.sendDummyPacket c) → ctx.confs.search c = some conf →
      e.intervalUs = conf.intervalMs.toNat * 1000

/-! ### One round -/

/-- A round for an active timer whose callback succeeds moves the timer. -/
theorem work_active {ctx ctx₁ : SimNetCtx} {currtime : Timespec} {k : TqKey}
    {e : TimerqueueElem SimNetCallback} {c : SimNetCallback} (h : ctx.GoodTimers)
    (hdue : ctx.timerqueue.firstDue currtime = some k)
    (he : ctx.timerqueue.elems.search k.ptr = some e) (hactive : e.active = true)
    (hc : e.callback = some c)
    (hrun : runCallback c { ctx with timerqueue.rbt := ctx.timerqueue.rbt.erase k } = some ctx₁)
    (rand : ℕ) :
  ∃ ctx', ctx.timerqueueWork currtime rand = some ctx' ∧ ctx'.confs = ctx.confs ∧
    ctx'.timerqueue.elems = ctx.timerqueue.elems.modify k.ptr (fun e' => { e' with
      expire := timespecAddUsec e.expire (toUlong (TqClient.newInterval e rand)) })
  := by
  obtain ⟨pkts, rfl⟩ := runCallback_inv hrun
  obtain ⟨tq, hfire, -, helems⟩ := client.fire_periodic h.wf
    (TimerqueueContext.mem_of_firstDue hdue) he hactive hc (h.timer k.ptr e he).useOnce hrun rfl
    rand
  have hround : client.workRound currtime rand ctx =
      some { ctx with timerqueue := tq, localPkts := pkts } :=
    (client.workRound_due hdue rand).trans hfire
  have hdetached : ctx.detached currtime = none := by
    simp [detached, hdue, he, hactive]
  refine ⟨{ ctx with timerqueue := tq, localPkts := pkts }, ?_, rfl, helems⟩
  simp only [timerqueueWork, hround, hdetached, Option.bind_eq_bind, Option.bind_some,
    Option.pure_def]

/-- A round for a timer that is no longer active frees the timer and its copy. -/
theorem work_inactive {ctx : SimNetCtx} {currtime : Timespec} {k : TqKey}
    {e : TimerqueueElem SimNetCallback} (h : ctx.GoodTimers)
    (hdue : ctx.timerqueue.firstDue currtime = some k)
    (he : ctx.timerqueue.elems.search k.ptr = some e) (hactive : e.active = false) (rand : ℕ) :
  ∃ ctx' c, ctx.timerqueueWork currtime rand = some ctx' ∧
    e.callback = some (.sendDummyPacket c) ∧ ctx'.confs = ctx.confs.erase c ∧
    ctx'.timerqueue.elems = ctx.timerqueue.elems.erase k.ptr
  := by
  rcases (h.timer k.ptr e he).callback with ⟨-, hactive'⟩ | ⟨hfree, c, hmem, hc⟩
  · simp [hactive] at hactive'
  obtain ⟨conf, hconf⟩ := OrdMap.mem_iff.mp hmem
  obtain ⟨tq, hfire, -, hsearch⟩ := client.fire_freed h.wf
    (TimerqueueContext.mem_of_firstDue hdue) he hactive hfree rand
  have hround : client.workRound currtime rand ctx = some { ctx with timerqueue := tq } :=
    (client.workRound_due hdue rand).trans hfire
  have hdetached : ctx.detached currtime = some c := by
    simp [detached, hdue, he, hactive, hc]
  refine ⟨{ ctx with timerqueue := tq, confs := ctx.confs.erase c }, c, ?_, hc, rfl, ?_⟩
  · simp only [timerqueueWork, hround, hdetached, dummypktSendJobDetachCb, hconf,
      Option.bind_eq_bind, Option.bind_some, Option.pure_def]
  · apply OrdMap.ext
    intro p
    rw [OrdMap.search_erase]
    apply hsearch p

/-- What a round that succeeds does: nothing if no timer is due. Otherwise it moves the first timer,
whose callback succeeds, or it frees the timer and its copy. -/
theorem work_cases {ctx ctx' : SimNetCtx} {currtime : Timespec} {rand : ℕ} (h : ctx.GoodTimers)
    (hstep : ctx.timerqueueWork currtime rand = some ctx') :
  (ctx.timerqueue.firstDue currtime = none ∧ ctx' = ctx) ∨
    ∃ k e, ctx.timerqueue.firstDue currtime = some k ∧
      ctx.timerqueue.elems.search k.ptr = some e ∧
      ((∃ c ctx₁, e.active = true ∧ e.callback = some c ∧
          runCallback c { ctx with timerqueue.rbt := ctx.timerqueue.rbt.erase k } = some ctx₁ ∧
          ctx'.confs = ctx.confs ∧
          ctx'.timerqueue.elems = ctx.timerqueue.elems.modify k.ptr (fun e' => { e' with
            expire := timespecAddUsec e.expire (toUlong (TqClient.newInterval e rand)) })) ∨
        ∃ c, e.active = false ∧ e.callback = some (.sendDummyPacket c) ∧
          ctx'.confs = ctx.confs.erase c ∧
          ctx'.timerqueue.elems = ctx.timerqueue.elems.erase k.ptr)
  := by
  cases hdue : ctx.timerqueue.firstDue currtime with
  | none =>
      left
      have hdue' : (client.tq ctx).firstDue currtime = none := hdue
      simp only [timerqueueWork, TqClient.workRound, hdue', detached, hdue, Option.bind_eq_bind,
        Option.bind_some, Option.bind_none, Option.pure_def, Option.some.injEq] at hstep
      exact ⟨rfl, hstep.symm⟩
  | some k =>
      right
      obtain ⟨-, e, he, -⟩ := (h.wf.tree k).mp (TimerqueueContext.mem_of_firstDue hdue)
      refine ⟨k, e, rfl, he, ?_⟩
      cases hactive : e.active with
      | true =>
          left
          obtain ⟨ctx₁, hround, -⟩ := Option.bind_eq_some_iff.mp hstep
          have hdue' : (client.tq ctx).firstDue currtime = some k := hdue
          rw [TqClient.workRound, hdue'] at hround
          rcases client.fire_inv hround with ⟨e', q, he', hactive', -⟩ |
            ⟨e', c, ctx₂, q, he', -, hc, hrun, -⟩
          · obtain rfl := Option.some.inj (he.symm.trans he')
            simp [hactive] at hactive'
          obtain rfl := Option.some.inj (he.symm.trans he')
          obtain ⟨ctx'', hwork, hconfs, helems⟩ := work_active h hdue he hactive hc hrun rand
          obtain rfl := Option.some.inj (hstep.symm.trans hwork)
          exact ⟨c, ctx₂, rfl, hc, hrun, hconfs, helems⟩
      | false =>
          right
          obtain ⟨ctx'', c, hwork, hc, hconfs, helems⟩ := work_inactive h hdue he hactive rand
          obtain rfl := Option.some.inj (hstep.symm.trans hwork)
          exact ⟨c, rfl, hc, hconfs, helems⟩

/-- A round keeps the timers in pace. -/
theorem Paced.work {ctx ctx' : SimNetCtx} {currtime : Timespec} {rand : ℕ} (hpaced : ctx.Paced)
    (h : ctx.GoodTimers) (hstep : ctx.timerqueueWork currtime rand = some ctx') :
  ctx'.Paced
  := by
  rcases work_cases h hstep with ⟨-, rfl⟩ | ⟨k, e, -, he, ⟨-, -, -, -, -, hconfs, helems⟩ |
    ⟨c, -, -, hconfs, helems⟩⟩
  · apply hpaced
  · intro p e' he'
    rw [helems, OrdMap.search_modify] at he'
    split_ifs at he' with hp
    · rw [he] at he'
      obtain rfl := Option.some.inj he'
      obtain ⟨-, hjitter, hreport, hdummy⟩ := hpaced k.ptr e he
      rw [hconfs]
      exact ⟨timespecAddUsec_normal _ _, hjitter, hreport, hdummy⟩
    · rw [hconfs]
      apply hpaced p e' he'
  · intro p e' he'
    rw [helems, OrdMap.search_erase] at he'
    split_ifs at he'
    obtain ⟨hnormal, hjitter, hreport, hdummy⟩ := hpaced p e' he'
    refine ⟨hnormal, hjitter, hreport, ?_⟩
    intro c' conf hc' hconf
    rw [hconfs, OrdMap.search_erase] at hconf
    split_ifs at hconf
    apply hdummy c' conf hc' hconf

/-- Unsetting a stream keeps the timers in pace. -/
theorem Paced.unregister {ctx ctx' : SimNetCtx} {confId : BitVec 16} (hpaced : ctx.Paced)
    (hstep : ctx.unregisterDummypktSendJob confId = some ctx') :
  ctx'.Paced
  := by
  rw [unregisterDummypktSendJob] at hstep
  split_ifs at hstep
  cases hslot : ctx.dummyTrafficTimers confId.toNat with
  | none =>
      simp only [hslot] at hstep
      obtain rfl := Option.some.inj hstep
      apply hpaced
  | some q =>
      simp only [hslot, Option.bind_eq_bind, Option.bind_eq_some_iff, Option.pure_def,
        Option.some.injEq] at hstep
      obtain ⟨e, he, rfl⟩ := hstep
      intro p e' he'
      simp only [TimerqueueContext.search_update, he, Option.map_some] at he'
      split_ifs at he' with hp
      · obtain rfl := Option.some.inj he'
        apply hpaced q e he
      · apply hpaced p e' he'

/-- Setting a stream whose slot is empty keeps the timers in pace. -/
theorem Paced.register {ctx ctx' : SimNetCtx} {now : Timespec} {conf : NetSetDummyTrafficConfig}
    (hpaced : ctx.Paced) (h : ctx.GoodTimers)
    (hempty : ctx.dummyTrafficTimers conf.confId.toNat = none)
    (hstep : ctx.registerDummypktSendJob now conf = some ctx') :
  ctx'.Paced
  := by
  have hrange : conf.confId.toNat < maxDummyStreams := by
    rw [registerDummypktSendJob] at hstep
    split_ifs at hstep with hle
    apply Nat.lt_of_not_le hle
  obtain ⟨ctx'', e, hctx'', hadds, -, -, hexpire, hjitter, hinterval⟩ :=
    register_adds h now hrange hempty
  obtain rfl := Option.some.inj (hstep.symm.trans hctx'')
  have hcopies := hadds.search_confs h
  intro p e' he'
  rw [hadds.elems] at he'
  split_ifs at he' with hp
  · obtain rfl := Option.some.inj he'
    refine ⟨hexpire ▸ timespecAddUsec_normal _ _, hjitter, ?_, ?_⟩
    · intro hreport
      simp [hadds.callback] at hreport
    · intro c conf' hc hconf'
      obtain rfl := SimNetCallback.sendDummyPacket.inj (Option.some.inj
        (hc.symm.trans hadds.callback))
      rw [hcopies, if_pos rfl] at hconf'
      rw [← Option.some.inj hconf', hinterval]
  · obtain ⟨hnormal, hjitter, hreport, hdummy⟩ := hpaced p e' he'
    refine ⟨hnormal, hjitter, hreport, ?_⟩
    intro c conf' hc hconf'
    rw [hcopies, if_neg (h.copy_ne he' hc)] at hconf'
    apply hdummy c conf' hc hconf'

/-! ### Whole calls -/

/-- `send_dummy_packet` succeeds exactly when the packet fits. -/
theorem sendDummyPacket_isSome {ctx : SimNetCtx} {c : ℕ} {conf : NetSetDummyTrafficConfig}
    (hconf : ctx.confs.search c = some conf) :
  (∃ ctx', ctx.sendDummyPacket c = some ctx') ↔ conf.payloadSize.toNat + 28 ≤ packetBufSize
  := by
  simp only [sendDummyPacket, hconf, Option.bind_eq_bind, Option.bind_some, dummyPacket_length]
  split_ifs with hfit
  · simp only [exists_false, false_iff]
    omega
  · simp only [Option.pure_def, Option.some.injEq, exists_eq', true_iff]
    omega

/-- The interval of a stream, as it is added to the time of expiry. -/
theorem toUlong_interval (ms : BitVec 16) :
  toUlong (ms.toNat * 1000) = ms.toNat * 1000
  := by
  have hlt := ms.isLt
  have hcast : ((ms.toNat : ℤ) * 1000) = ((ms.toNat * 1000 : ℕ) : ℤ) := by
    rw [Nat.cast_mul]
    rfl
  rw [hcast]
  apply toUlong_natCast
  omega

/-- A timer of a node that keeps pace has no jitter. -/
theorem Paced.newInterval {ctx : SimNetCtx} (hpaced : ctx.Paced) {p : ℕ}
    {e : TimerqueueElem SimNetCallback} (he : ctx.timerqueue.elems.search p = some e) (rand : ℕ) :
  TqClient.newInterval e rand = e.intervalUs
  := by
  rw [TqClient.newInterval, if_pos (hpaced p e he).2.1]

/-- After a round, the streams that run ran before, and the timers that are due were due. -/
theorem work_keeps {ctx ctx' : SimNetCtx} {currtime : Timespec} {rand : ℕ} (h : ctx.GoodTimers)
    (hstep : ctx.timerqueueWork currtime rand = some ctx') :
  (∀ p conf, ctx'.Runs p conf → ctx.Runs p conf) ∧
    ∀ p, ctx'.Due p currtime → ctx.Due p currtime
  := by
  rcases work_cases h hstep with ⟨-, rfl⟩ | ⟨k, e, hdue, he, ⟨-, -, -, -, -, hconfs, helems⟩ |
    ⟨c, -, -, hconfs, helems⟩⟩
  · exact ⟨fun _ _ hruns => hruns, fun _ hdue => hdue⟩
  · have hkdue : checkExpire e.expire currtime = true := by
      obtain ⟨-, e', he', -, hexpire⟩ := (h.wf.tree k).mp (TimerqueueContext.mem_of_firstDue hdue)
      obtain rfl := Option.some.inj (he.symm.trans he')
      rw [hexpire]
      apply TimerqueueContext.due_of_firstDue hdue
    constructor
    · rintro p conf ⟨e', c, he', hactive, hc, hconf⟩
      rw [helems, OrdMap.search_modify] at he'
      rw [hconfs] at hconf
      split_ifs at he' with hp
      · rw [he] at he'
        obtain rfl := Option.some.inj he'
        exact ⟨e, c, hp ▸ he, hactive, hc, hconf⟩
      · exact ⟨e', c, he', hactive, hc, hconf⟩
    · rintro p ⟨e', he', hdue'⟩
      rw [helems, OrdMap.search_modify] at he'
      split_ifs at he' with hp
      · exact ⟨e, hp ▸ he, hkdue⟩
      · exact ⟨e', he', hdue'⟩
  · constructor
    · rintro p conf ⟨e', c', he', hactive, hc, hconf⟩
      rw [helems, OrdMap.search_erase] at he'
      rw [hconfs, OrdMap.search_erase] at hconf
      split_ifs at he' hconf
      exact ⟨e', c', he', hactive, hc, hconf⟩
    · rintro p ⟨e', he', hdue'⟩
      rw [helems, OrdMap.search_erase] at he'
      split_ifs at he'
      exact ⟨e', he', hdue'⟩

/-- How far the timers are behind the end of the current second, in all. -/
def lateness (ctx : SimNetCtx) (currtime : Timespec) : ℕ :=
  ctx.timerqueue.elems.total (fun e => (currtime.tvSec + 1) * 1000000000 - e.expire.ns)

/-- If a timer is due and all streams that are due can be served, a round succeeds, and the timers
are less behind after it. -/
theorem work_progress {ctx : SimNetCtx} {currtime : Timespec} (h : ctx.GoodTimers)
    (hpaced : ctx.Paced)
    (hserve : ∀ p conf, ctx.Runs p conf → ctx.Due p currtime → conf.Serviceable)
    (hdue : ctx.timerqueue.firstDue currtime ≠ none) (rand : ℕ) :
  ∃ ctx', ctx.timerqueueWork currtime rand = some ctx' ∧
    ctx'.lateness currtime < ctx.lateness currtime
  := by
  obtain ⟨k, hk⟩ := Option.ne_none_iff_exists'.mp hdue
  obtain ⟨-, e, he, -, hexpire⟩ := (h.wf.tree k).mp (TimerqueueContext.mem_of_firstDue hk)
  have hkdue : checkExpire e.expire currtime = true := by
    rw [hexpire]
    apply TimerqueueContext.due_of_firstDue hk
  obtain ⟨hnormal, -, hreport, hdummy⟩ := hpaced k.ptr e he
  have hbehind := Timespec.ns_lt_of_due hnormal hkdue
  cases hactive : e.active with
  | false =>
      obtain ⟨ctx', c, hwork, -, -, helems⟩ := work_inactive h hk he hactive rand
      refine ⟨ctx', hwork, ?_⟩
      have htotal := OrdMap.total_erase he
        (fun e => (currtime.tvSec + 1) * 1000000000 - e.expire.ns)
      rw [lateness, lateness, helems]
      omega
  | true =>
      have hmoves : ∃ c ctx₁, e.callback = some c ∧
          runCallback c { ctx with timerqueue.rbt := ctx.timerqueue.rbt.erase k } = some ctx₁ ∧
          ∃ usec, toUlong e.intervalUs = usec ∧ 0 < usec ∧ usec < 2 ^ 32 := by
        rcases (h.timer k.ptr e he).callback with ⟨hc, -⟩ | ⟨-, c, hmem, hc⟩
        · refine ⟨_, _, hc, rfl, 1000 * 100, ?_, by decide, by decide⟩
          rw [hreport hc]
          rfl
        · obtain ⟨conf, hconf⟩ := OrdMap.mem_iff.mp hmem
          obtain ⟨hinterval, hfit⟩ :=
            hserve k.ptr conf ⟨e, c, he, hactive, hc, hconf⟩ ⟨e, he, hkdue⟩
          obtain ⟨ctx₁, hrun⟩ := (@sendDummyPacket_isSome { ctx with
            timerqueue.rbt := ctx.timerqueue.rbt.erase k } c conf hconf).mpr hfit
          refine ⟨_, ctx₁, hc, hrun, conf.intervalMs.toNat * 1000, ?_, ?_, ?_⟩
          · rw [hdummy c conf hc hconf, toUlong_interval]
          · have hpos : conf.intervalMs.toNat ≠ 0 := by
              intro hzero
              apply hinterval
              apply BitVec.eq_of_toNat_eq hzero
            omega
          · omega
      obtain ⟨c, ctx₁, hc, hrun, usec, husec, hpos, hlt⟩ := hmoves
      obtain ⟨ctx', hwork, -, helems⟩ := work_active h hk he hactive hc hrun rand
      refine ⟨ctx', hwork, ?_⟩
      rw [hpaced.newInterval he, husec] at helems
      have htotal := OrdMap.total_modify he
        (fun e' => { e' with expire := timespecAddUsec e.expire usec })
        (fun e => (currtime.tvSec + 1) * 1000000000 - e.expire.ns)
      have hlater := timespecAddUsec_ns hnormal hlt
      rw [lateness, lateness, helems]
      simp only [hlater] at htotal
      omega

/-- A call returns if all streams that are due can be served. -/
theorem timerqueueWork_returns {ctx : SimNetCtx} {commands : List NetCommand}
    {currtime : Timespec} (h : ctx.GoodTimers) (hslots : ctx.GoodSlots commands)
    (hpaced : ctx.Paced)
    (hserve : ∀ p conf, ctx.Runs p conf → ctx.Due p currtime → conf.Serviceable)
    (rand : ℕ → ℕ) :
  ctx.TimerqueueWorkReturns currtime rand
  := by
  apply LoopReturns.of_measure (I := fun _ ctx => ctx.GoodTimers ∧ ctx.GoodSlots commands ∧
    ctx.Paced ∧ ∀ p conf, ctx.Runs p conf → ctx.Due p currtime → conf.Serviceable)
    (lateness · currtime)
  · rintro i ctx ⟨h, hslots, hpaced, hserve⟩ hdue
    obtain ⟨ctx', hwork, hless⟩ := work_progress h hpaced hserve hdue (rand i)
    obtain ⟨h', hslots'⟩ := h.work hslots hwork
    obtain ⟨hruns, hdue'⟩ := work_keeps h hwork
    refine ⟨ctx', hwork, ⟨h', hslots', hpaced.work h hwork, ?_⟩, hless⟩
    intro p conf hconf hp
    apply hserve p conf (hruns p conf hconf) (hdue' p hp)
  · exact ⟨h, hslots, hpaced, hserve⟩

/-- A round that succeeds leaves a stream that is due and cannot be served as it is. -/
theorem work_stuck {ctx ctx' : SimNetCtx} {currtime : Timespec} {rand p : ℕ}
    {conf : NetSetDummyTrafficConfig} (h : ctx.GoodTimers) (hpaced : ctx.Paced)
    (hruns : ctx.Runs p conf) (hdue : ctx.Due p currtime) (hnot : ¬ conf.Serviceable)
    (hstep : ctx.timerqueueWork currtime rand = some ctx') :
  ctx'.Runs p conf ∧ ctx'.Due p currtime
  := by
  obtain ⟨e₀, c₀, he₀, hactive₀, hc₀, hconf⟩ := hruns
  obtain ⟨e₁, he₁, hdue₁⟩ := hdue
  obtain rfl := Option.some.inj (he₀.symm.trans he₁)
  rcases work_cases h hstep with ⟨-, rfl⟩ | ⟨k, e, -, he, ⟨c, ctx₁, -, hc, hrun, hconfs, helems⟩ |
    ⟨c, hactive, hc, hconfs, helems⟩⟩
  · exact ⟨⟨e₀, c₀, he₀, hactive₀, hc₀, hconf⟩, e₀, he₀, hdue₁⟩
  · have hsearch : ctx'.timerqueue.elems.search p = some e₀ := by
      rw [helems, OrdMap.search_modify]
      split_ifs with hp
      · subst hp
        obtain rfl := Option.some.inj (he.symm.trans he₀)
        obtain rfl := Option.some.inj (hc.symm.trans hc₀)
        -- The packet is handed over, so it fits, and the interval is zero.
        have hfit := (@sendDummyPacket_isSome { ctx with
          timerqueue.rbt := ctx.timerqueue.rbt.erase k } c₀ conf hconf).mp ⟨ctx₁, hrun⟩
        have hzero : conf.intervalMs = 0 := by
          by_contra hne
          apply hnot ⟨hne, hfit⟩
        obtain ⟨hnormal, -, -, hdummy⟩ := hpaced k.ptr e he
        have hinterval : e.intervalUs = 0 := by
          rw [hdummy c₀ conf hc hconf, hzero]
          rfl
        have hexpire : timespecAddUsec e.expire (toUlong (TqClient.newInterval e rand)) =
            e.expire := by
          rw [hpaced.newInterval he, hinterval]
          apply timespecAddUsec_zero hnormal
        rw [he, hexpire, Option.map_some]
      · apply he₀
    refine ⟨⟨e₀, c₀, hsearch, hactive₀, hc₀, ?_⟩, e₀, hsearch, hdue₁⟩
    rw [hconfs, hconf]
  · have hp : p ≠ k.ptr := by
      rintro rfl
      obtain rfl := Option.some.inj (he.symm.trans he₀)
      simp [hactive] at hactive₀
    have hsearch : ctx'.timerqueue.elems.search p = some e₀ := by
      rw [helems, OrdMap.search_erase, if_neg hp, he₀]
    refine ⟨⟨e₀, c₀, hsearch, hactive₀, hc₀, ?_⟩, e₀, hsearch, hdue₁⟩
    have hne : c₀ ≠ c := by
      rintro rfl
      apply hp (h.own p k.ptr e₀ e c₀ he₀ he hc₀ hc)
    rw [hconfs, OrdMap.search_erase, if_neg hne, hconf]

/-- A call does not return if a stream that is due cannot be served. -/
theorem timerqueueWork_not_returns {ctx : SimNetCtx} {commands : List NetCommand}
    {currtime : Timespec} (h : ctx.GoodTimers) (hslots : ctx.GoodSlots commands)
    (hpaced : ctx.Paced) {p : ℕ} {conf : NetSetDummyTrafficConfig} (hruns : ctx.Runs p conf)
    (hdue : ctx.Due p currtime) (hnot : ¬ conf.Serviceable) (rand : ℕ → ℕ) :
  ¬ ctx.TimerqueueWorkReturns currtime rand
  := by
  apply LoopReturns.not_of_trap (T := fun ctx => ctx.GoodTimers ∧ ctx.GoodSlots commands ∧
    ctx.Paced ∧ ctx.Runs p conf ∧ ctx.Due p currtime)
  · rintro ctx ⟨h, -, -, -, e, he, hdue⟩ hnone
    have hmem := (h.wf.tree ⟨e.expire, p⟩).mpr
      ⟨by simp, e, he, (h.timer p e he).attached, rfl⟩
    obtain ⟨k, hk⟩ := TimerqueueContext.firstDue_of_due hmem hdue
    rw [hk] at hnone
    contradiction
  · rintro i ctx ctx' ⟨h, hslots, hpaced, hruns, hdue⟩ hwork
    obtain ⟨h', hslots'⟩ := h.work hslots hwork
    obtain ⟨hruns', hdue'⟩ := work_stuck h hpaced hruns hdue hnot hwork
    exact ⟨h', hslots', hpaced.work h hwork, hruns', hdue'⟩
  · exact ⟨h, hslots, hpaced, hruns, hdue⟩

end SimNetCtx

/-! ### Runs -/

namespace DummyRun

/-- The invariant of runs: timers and slots are in order, and the timers keep pace. -/
structure InPace (run : DummyRun) : Prop where
  timers : run.ctx.GoodTimers
  slots : run.ctx.GoodSlots run.commands
  paced : run.ctx.Paced

theorem startReportJob_inPace {nodeId : BitVec 8} {now : Timespec} {start : SimNetCtx}
    (h : SimNetCtx.startReportJob nodeId now = some start) :
  InPace ⟨start, []⟩
  := by
  obtain ⟨htimers, hslots⟩ := SimNetCtx.startReportJob_good h
  refine ⟨htimers, hslots, ?_⟩
  simp only [SimNetCtx.startReportJob, TimerqueueContext.startTimer,
    TimerqueueContext.timerqueueNewTimer, createTimerqueue,
    TimerqueueContext.timerqueueRegisterTimer, Option.bind_eq_bind, Option.bind_eq_some_iff,
    Option.pure_def, Option.some.injEq, Prod.exists, Prod.mk.injEq] at h
  obtain ⟨-, tq, ⟨tq', ⟨e', he', rfl⟩, -, rfl⟩, rfl⟩ := h
  intro p e he
  simp only [TimerqueueContext.search_update, OrdMap.search_insert, OrdMap.search_empty,
    if_true, Option.getD_none, Option.map_some, Option.some.injEq] at he' he
  split_ifs at he
  subst he'
  obtain rfl := Option.some.inj he
  refine ⟨timespecAddUsec_normal _ _, rfl, fun _ => rfl, ?_⟩
  intro c conf hc _
  contradiction

theorem InPace.step {run run' : DummyRun} {e : DummyEvent} (h : run.InPace)
    (hempty : run.SetsEmpty e) (hstep : run.step e = some run') :
  run'.InPace
  := by
  cases e with
  | command now cmd =>
      obtain ⟨ctx', hctx', hrun'⟩ := Option.bind_eq_some_iff.mp hstep
      obtain rfl := Option.some.inj hrun'
      have hrange := SimNetCtx.processCommand_inRange hctx'
      obtain ⟨htimers, hslots⟩ := step_good (e := .command now cmd) ⟨h.timers, h.slots⟩
        ⟨hrange, hempty⟩ hstep
      refine ⟨htimers, hslots, ?_⟩
      cases cmd with
      | set conf => apply h.paced.register h.timers hempty hctx'
      | unset confId => apply h.paced.unregister hctx'
      | update conf =>
          obtain ⟨ctx₁, hctx₁, hctx'⟩ := Option.bind_eq_some_iff.mp hctx'
          obtain ⟨ctx₂, hctx₂, htimers₁, -, hempty₁⟩ :=
            SimNetCtx.unregister_spec h.timers h.slots hrange (fun _ _ => rfl)
          obtain rfl := Option.some.inj (hctx₁.symm.trans hctx₂)
          apply (h.paced.unregister hctx₁).register htimers₁ hempty₁ hctx'
  | work currtime rand =>
      obtain ⟨ctx', hctx', hrun'⟩ := Option.bind_eq_some_iff.mp hstep
      obtain rfl := Option.some.inj hrun'
      obtain ⟨htimers, hslots⟩ := h.timers.work h.slots hctx'
      exact ⟨htimers, hslots, h.paced.work h.timers hctx'⟩

/-- A stream that runs was set by a command. -/
theorem mem_of_lastSet {commands : List NetCommand} {id : ℕ} {conf : NetSetDummyTrafficConfig}
    (h : lastSet commands id = some conf) :
  .set conf ∈ commands ∨ .update conf ∈ commands
  := by
  obtain ⟨cmd, hcmd, hconf⟩ := List.exists_of_findSome?_eq_some h
  rw [List.mem_reverse] at hcmd
  cases cmd with
  | set conf' =>
      simp only at hconf
      split_ifs at hconf
      obtain rfl := Option.some.inj hconf
      left
      apply hcmd
  | unset confId => contradiction
  | update conf' =>
      simp only at hconf
      split_ifs at hconf
      obtain rfl := Option.some.inj hconf
      right
      apply hcmd

/-- In every state of a run, a call returns exactly when the streams that are due can be served. -/
theorem InPace.returns_iff {run : DummyRun} (h : run.InPace) (currtime : Timespec)
    (rand : ℕ → ℕ) :
  run.ctx.TimerqueueWorkReturns currtime rand ↔
    ∀ p conf, run.ctx.Runs p conf → run.ctx.Due p currtime → conf.Serviceable
  := by
  constructor
  · intro hreturns p conf hruns hdue
    by_contra hnot
    apply SimNetCtx.timerqueueWork_not_returns h.timers h.slots h.paced hruns hdue hnot rand
    apply hreturns
  · intro hserve
    apply SimNetCtx.timerqueueWork_returns h.timers h.slots h.paced hserve

/-- In every run that sets only streams whose slots are empty, a call of `timerqueue_work` returns
exactly when the streams that are due then can be served. So if all commands of the run set streams
that can be served, every call returns. -/
theorem timerqueueWork_returns_iff {nodeId : BitVec 8} {now : Timespec} {start : SimNetCtx}
    {run : DummyRun} (hstart : SimNetCtx.startReportJob nodeId now = some start)
    (h : Reaches step (fun run e => run.SetsEmpty e) ⟨start, []⟩ run) :
  (∀ currtime rand, run.ctx.TimerqueueWorkReturns currtime rand ↔
    ∀ p conf, run.ctx.Runs p conf → run.ctx.Due p currtime → conf.Serviceable) ∧
  ((∀ cmd ∈ run.commands, cmd.Serviceable) →
    ∀ currtime rand, run.ctx.TimerqueueWorkReturns currtime rand)
  := by
  have hpace : run.InPace := h.invariant (fun _ _ _ hs hok hstep => hs.step hok hstep)
    (startReportJob_inPace hstart)
  refine ⟨hpace.returns_iff, ?_⟩
  intro hcommands currtime rand
  apply (hpace.returns_iff currtime rand).mpr
  intro p conf hruns _
  rcases mem_of_lastSet (hpace.slots.latest p conf hruns) with hset | hupdate
  · apply hcommands _ hset
  · apply hcommands _ hupdate

/-- Stream 0 is set with an interval of 10 ms. -/
theorem timerqueueWork_returns_ten :
  ∃ start run, SimNetCtx.startReportJob 1 ⟨0, 0⟩ = some start ∧
    Reaches step (fun run e => run.SetsEmpty e) ⟨start, []⟩ run ∧
    run.ctx.dummyTrafficTimers 0 ≠ none ∧
    ∀ currtime rand, run.ctx.TimerqueueWorkReturns currtime rand
  := by
  have hrun : ((SimNetCtx.startReportJob 1 ⟨0, 0⟩).bind (fun start =>
      [DummyEvent.command ⟨0, 0⟩ (.set (confZero 10))].foldlM
      (fun run e => if decide (run.SetsEmpty e) then run.step e else none)
      (⟨start, []⟩ : DummyRun))).map (fun run => (run.ctx.dummyTrafficTimers 0, run.commands)) =
      some (some 1, [.set (confZero 10)]) := by
    decide +kernel
  obtain ⟨run, hrun, hslot⟩ := Option.map_eq_some_iff.mp hrun
  obtain ⟨hslot, hcommands⟩ := Prod.mk.inj hslot
  obtain ⟨start, hstart, hrun⟩ := Option.bind_eq_some_iff.mp hrun
  have hreach : Reaches step (fun run e => run.SetsEmpty e) ⟨start, []⟩ run :=
    Reaches.of_checked (fun _ _ hcheck => of_decide_eq_true hcheck) hrun
  refine ⟨start, run, hstart, hreach, ?_, ?_⟩
  · rw [hslot]
    apply Option.some_ne_none
  · apply (timerqueueWork_returns_iff hstart hreach).2
    intro cmd hcmd
    rw [hcommands, List.mem_singleton] at hcmd
    subst hcmd
    constructor
    · decide
    · decide

/-- Stream 0 is set with an interval of 0 ms, and the loop never gets past it. -/
theorem not_timerqueueWork_returns :
  ¬ ∀ (nodeId : BitVec 8) (now : Timespec) (start : SimNetCtx) (run : DummyRun),
    SimNetCtx.startReportJob nodeId now = some start →
    Reaches step (fun run e => InRange e ∧ run.SetsEmpty e) ⟨start, []⟩ run →
    ∀ currtime rand, run.ctx.TimerqueueWorkReturns currtime rand
  := by
  intro hall
  have hrun : ((SimNetCtx.startReportJob 1 ⟨0, 0⟩).bind (fun start =>
      [DummyEvent.command ⟨0, 0⟩ (.set (confZero 0))].foldlM
      (fun run e => if decide (InRange e ∧ run.SetsEmpty e) then run.step e else none)
      (⟨start, []⟩ : DummyRun))).map (fun run => (run.ctx.confs.search 0,
        (run.ctx.timerqueue.elems.search 1).map (fun e => (e.active, e.callback, e.expire)))) =
      some (some (confZero 0), some (true, some (.sendDummyPacket 0), ⟨0, 0⟩)) := by
    decide +kernel
  obtain ⟨run, hrun, hstate⟩ := Option.map_eq_some_iff.mp hrun
  obtain ⟨hconf, htimer⟩ := Prod.mk.inj hstate
  obtain ⟨e, he, hfields⟩ := Option.map_eq_some_iff.mp htimer
  simp only [Prod.mk.injEq] at hfields
  obtain ⟨hactive, hc, hexpire⟩ := hfields
  obtain ⟨start, hstart, hrun⟩ := Option.bind_eq_some_iff.mp hrun
  have hreach : Reaches step (fun run e => InRange e ∧ run.SetsEmpty e) ⟨start, []⟩ run :=
    Reaches.of_checked (fun _ _ hcheck => of_decide_eq_true hcheck) hrun
  have hpace : run.InPace := hreach.invariant (fun _ _ _ hs hok hstep => hs.step hok.2 hstep)
    (startReportJob_inPace hstart)
  have hreturns := hall 1 ⟨0, 0⟩ start run hstart hreach ⟨0, 0⟩ (fun _ => 0)
  have hserve := (hpace.returns_iff _ _).mp hreturns 1 (confZero 0) ⟨e, 0, he, hactive, hc, hconf⟩
    ⟨e, he, by rw [hexpire]; rfl⟩
  apply hserve.1
  rfl

end DummyRun
