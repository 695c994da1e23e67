import SyNetsim.Simulator.RemoteConf

/-!
# Rejected messages about dummy traffic

`handle_start_dummy_traffic` writes each field of a start or an update to the record of its stream
as soon as it has read it. A message that lacks a field is given up at that field, with the fields
before it written.

Such a message changes nothing exactly when it repeats what the record holds
(`TrafficCtx.changesNothing_iff`).
-/

namespace DummyTrafficJson

/-- A field of a start or an update is missing or not a number. -/
def Incomplete (json : DummyTrafficJson) : Prop :=
  json.confId = none ∨ json.sourceNodeId = none ∨ json.destinationNodeId = none ∨
    json.packetSize = none ∨ json.intervalMs = none

/-- The fields before the first one that is missing are as in the record of the stream `id`. -/
def Repeats (json : DummyTrafficJson) (id : ℤ) (record : NetSetDummyTrafficConfig) : Prop :=
  record.confId = .ofInt 16 id ∧
  ∀ srcId, json.sourceNodeId = some srcId → record.srcId = .ofInt 16 srcId ∧
  ∀ dstId, json.destinationNodeId = some dstId → record.dstId = .ofInt 16 dstId ∧
  ∀ payloadSize, json.packetSize = some payloadSize →
    record.payloadSize = .ofInt 16 payloadSize

end DummyTrafficJson

theorem NetSetDummyTrafficConfig.eq_iff {record record' : NetSetDummyTrafficConfig} :
  record = record' ↔ record.confId = record'.confId ∧ record.srcId = record'.srcId ∧
    record.dstId = record'.dstId ∧ record.payloadSize = record'.payloadSize ∧
    record.intervalMs = record'.intervalMs
  := by
  cases record
  cases record'
  simp

namespace TrafficCtx

/-- A start or an update changes nothing: no command is sent, every record is as it was, and a stop
that follows is sent to the node that it would have been sent to before. -/
def ChangesNothing (sctx : TrafficCtx) (json : DummyTrafficJson) (isUpdate : Bool) : Prop :=
  ∃ sctx', sctx.handleStartDummyTraffic json isUpdate = some sctx' ∧
    sctx'.netCommands = sctx.netCommands ∧
    (∀ i, sctx'.dummyStreamInfo i = sctx.dummyStreamInfo i) ∧
    ∀ confId, sctx'.handleStopDummyTraffic confId = sctx.handleStopDummyTraffic confId

theorem changesNothing_iff_eq {sctx : TrafficCtx} {json : DummyTrafficJson} {isUpdate : Bool} :
  sctx.ChangesNothing json isUpdate ↔ sctx.handleStartDummyTraffic json isUpdate = some sctx
  := by
  constructor
  · rintro ⟨⟨info, commands⟩, hstep, hcommands, hinfo, -⟩
    obtain rfl := hcommands
    obtain rfl := funext hinfo
    apply hstep
  · intro hstep
    exact ⟨sctx, hstep, rfl, fun _ => rfl, fun _ => rfl⟩

/-! ### Writing to a record -/

theorem setStream_setStream (sctx : TrafficCtx) (i : ℕ)
    (f g : NetSetDummyTrafficConfig → NetSetDummyTrafficConfig) :
  (sctx.setStream i f).setStream i g = sctx.setStream i (fun msg => g (f msg))
  := by
  simp [setStream]

/-- Writing to a record changes nothing exactly if the record is as it was. -/
theorem setStream_eq_self {sctx : TrafficCtx} {i : ℕ}
    {f : NetSetDummyTrafficConfig → NetSetDummyTrafficConfig} :
  some (sctx.setStream i f) = some sctx ↔ f (sctx.dummyStreamInfo i) = sctx.dummyStreamInfo i
  := by
  rw [Option.some.injEq, setStream]
  constructor
  · intro h
    have hinfo := congrArg (fun sctx => sctx.dummyStreamInfo i) h
    simpa using hinfo
  · intro h
    rw [h, Function.update_eq_self]

/-- A start or an update that lacks a field changes nothing exactly if its stream has a record, and
the fields before the first one that is missing are as in the record. -/
theorem changesNothing_iff (sctx : TrafficCtx) {json : DummyTrafficJson}
    (h : json.Incomplete) (isUpdate : Bool) :
  sctx.ChangesNothing json isUpdate ↔
    ∀ confId, json.confId = some confId → 0 ≤ confId ∧ confId < maxDummystreamConfNum ∧
      json.Repeats confId (sctx.dummyStreamInfo confId.toNat)
  := by
  rw [changesNothing_iff_eq]
  obtain ⟨confId, srcId, dstId, payloadSize, intervalMs⟩ := json
  cases confId with
  | none => simp [handleStartDummyTraffic]
  | some confId =>
      by_cases hrange : confId < 0 ∨ maxDummystreamConfNum ≤ confId
      · have hnot : ¬ (0 ≤ confId ∧ confId < maxDummystreamConfNum) := by omega
        simp only [handleStartDummyTraffic, if_pos hrange, reduceCtorEq, Option.some.injEq,
          forall_eq', ← and_assoc, hnot, false_and]
      · have hrange' : 0 ≤ confId ∧ confId < maxDummystreamConfNum := by omega
        simp only [handleStartDummyTraffic, if_neg hrange, DummyTrafficJson.Repeats,
          Option.some.injEq, forall_eq', hrange', true_and]
        generalize hrecord : sctx.dummyStreamInfo confId.toNat = record
        -- What is written is compared with the record field by field.
        cases srcId with
        | none =>
            rw [setStream_eq_self, hrecord, NetSetDummyTrafficConfig.eq_iff]
            simp [eq_comm]
        | some srcId =>
            cases dstId with
            | none =>
                simp only [setStream_setStream]
                rw [setStream_eq_self, hrecord, NetSetDummyTrafficConfig.eq_iff]
                simp [eq_comm]
            | some dstId =>
                cases payloadSize with
                | none =>
                    simp only [setStream_setStream]
                    rw [setStream_eq_self, hrecord, NetSetDummyTrafficConfig.eq_iff]
                    simp [eq_comm]
                | some payloadSize =>
                    cases intervalMs with
                    | none =>
                        simp only [setStream_setStream]
                        rw [setStream_eq_self, hrecord, NetSetDummyTrafficConfig.eq_iff]
                        simp [eq_comm]
                    | some intervalMs => simp [DummyTrafficJson.Incomplete] at h

/-- The stream 5 runs on the node 1. -/
def runningStream : TrafficCtx where
  dummyStreamInfo i := if i = 5 then ⟨5, 1, 3, 100, 10⟩ else ⟨0, 0, 0, 0, 0⟩
  netCommands _ := []

/-- An update that lacks its source changes nothing. -/
theorem changesNothing_running :
  DummyTrafficJson.Incomplete ⟨some 5, none, some 3, some 100, some 10⟩ ∧
    runningStream.ChangesNothing ⟨some 5, none, some 3, some 100, some 10⟩ true
  := by
  have hincomplete : DummyTrafficJson.Incomplete ⟨some 5, none, some 3, some 100, some 10⟩ := by
    simp [DummyTrafficJson.Incomplete]
  refine ⟨hincomplete, (changesNothing_iff runningStream hincomplete true).mpr ?_⟩
  rintro confId ⟨⟩
  refine ⟨by decide, by decide, by decide, ?_⟩
  intro srcId hsrcId
  contradiction

/-- An update of the stream to the node 2 that lacks its destination is rejected, and the stop that
follows goes to the node 2, while the stream runs on the node 1. -/
theorem not_changesNothing :
  ¬ ∀ (sctx : TrafficCtx) (json : DummyTrafficJson) (isUpdate : Bool), json.Incomplete →
    sctx.ChangesNothing json isUpdate
  := by
  intro hall
  obtain ⟨sctx', hstep, -, -, hstop⟩ :=
    hall runningStream ⟨some 5, some 2, none, some 100, some 10⟩ true
      (by simp [DummyTrafficJson.Incomplete])
  have hcommands : (runningStream.handleStartDummyTraffic
      ⟨some 5, some 2, none, some 100, some 10⟩ true).bind
        (fun sctx => (sctx.handleStopDummyTraffic (some 5)).map (fun sctx => sctx.netCommands 2)) =
      some [.unset 5] := by
    decide
  have hcommands' : (runningStream.handleStopDummyTraffic (some 5)).map
      (fun sctx => sctx.netCommands 2) = some [] := by
    decide
  rw [hstep, Option.bind_some, hstop, hcommands'] at hcommands
  contradiction

end TrafficCtx
