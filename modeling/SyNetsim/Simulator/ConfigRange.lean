import Mathlib.Data.List.TakeWhile
import SyNetsim.Simulator.Config

/-!
# Ranges of the configuration

Throughout every run of the simulator, the PHY and the nodes whose configuration is in range, all
indices used on the arrays are in bounds, and all dummy packets fit
(`Simulation.accesses_inBounds`). What is kept true is that all that has been accepted and is still
on its way, in a queue or in a timer, is in range (`Simulation.Inv`).
-/

/-! ### The config file -/

namespace SimulatorConfig

open ConfParse

/-- The loop over `nodes` uses the ids before the first element without one. It ends only if there
is none, and changes `active_node` only. -/
theorem forEach_parseNode {nodes : List (Option ℤ)} (conf : SimulatorConfig)
    (h : ∀ nid, some nid ∈ nodes.takeWhile Option.isSome → 0 ≤ nid ∧ nid < maxNodeId) :
  (∀ access ∈ (forEach parseNode nodes conf).accesses, access.InBounds) ∧
    ∀ conf', (forEach parseNode nodes conf).conf = some conf' →
      none ∉ nodes ∧ ∃ active, conf' = { conf with activeNode := active }
  := by
  induction nodes generalizing conf with
  | nil =>
      refine ⟨fun access haccess => absurd haccess List.not_mem_nil, ?_⟩
      intro conf' hconf'
      obtain rfl := Option.some.inj hconf'
      exact ⟨List.not_mem_nil, conf.activeNode, rfl⟩
  | cons id nodes ih =>
      cases id with
      | none =>
          refine ⟨fun access haccess => absurd haccess List.not_mem_nil, ?_⟩
          intro conf' hconf'
          contradiction
      | some nid =>
          rw [List.takeWhile_cons_of_pos rfl] at h
          obtain ⟨haccesses, hend⟩ := ih
            { conf with activeNode := Function.update conf.activeNode nid.toNat true }
            (fun nid hnid => h nid (List.mem_cons_of_mem _ hnid))
          constructor
          · intro access haccess
            rcases List.mem_cons.mp haccess with rfl | haccess
            · apply h nid List.mem_cons_self
            · apply haccesses access haccess
          · intro conf' hconf'
            obtain ⟨hnone, active, hactive⟩ := hend conf' hconf'
            refine ⟨?_, active, hactive⟩
            simpa using hnone

/-- The loop over `links` uses one index for each element that it comes to. -/
theorem forEach_parseLink_accesses {links : List LinkJson} {conf : SimulatorConfig}
    (h : conf.simlinkConfNum +
      min links.length ((links.takeWhile LinkJson.complete).length + 1) ≤ maxSimlinkConfNum) :
  ∀ access ∈ (forEach parseLink links conf).accesses, access.InBounds
  := by
  induction links generalizing conf with
  | nil =>
      intro access haccess
      contradiction
  | cons json links ih =>
      have hfirst : (ConfAccess.index .linkconfs conf.simlinkConfNum).InBounds := by
        apply ConfAccess.index_inBounds
        rw [List.length_cons] at h
        simp only [ConfArray.size]
        omega
      obtain ⟨nid1, nid2, los, pathloss⟩ := json
      cases nid1 with
      | none => simpa [forEach, parseLink, andThen] using hfirst
      | some nid1 =>
          cases nid2 with
          | none => simpa [forEach, parseLink, andThen] using hfirst
          | some nid2 =>
              rw [List.takeWhile_cons_of_pos rfl, List.length_cons, List.length_cons] at h
              intro access haccess
              rcases List.mem_cons.mp haccess with rfl | haccess
              · apply hfirst
              · apply ih _ access haccess
                simp only
                omega

/-- If the loop over `links` ends, all elements are complete, and their configurations follow those
that were there. -/
theorem forEach_parseLink_conf {links : List LinkJson} {conf conf' : SimulatorConfig}
    (h : (forEach parseLink links conf).conf = some conf') :
  (∀ json ∈ links, json.complete = true) ∧
    conf'.simlinkConfNum = conf.simlinkConfNum + links.length ∧
    conf'.dummystreamConfNum = conf.dummystreamConfNum ∧
    conf'.dummyStreamInfo = conf.dummyStreamInfo ∧
    ((∀ json ∈ links, ∀ nid1 nid2, json.nid1 = some nid1 → json.nid2 = some nid2 →
        (BitVec.ofInt 8 nid1).toNat < maxNodeId ∧ (BitVec.ofInt 8 nid2).toNat < maxNodeId) →
      (∀ i < conf.simlinkConfNum, (conf.linkconfs i).InRange) →
      ∀ i < conf'.simlinkConfNum, (conf'.linkconfs i).InRange)
  := by
  induction links generalizing conf with
  | nil =>
      obtain rfl := Option.some.inj h
      simp
  | cons json links ih =>
      obtain ⟨nid1, nid2, los, pathloss⟩ := json
      cases nid1 with
      | none => contradiction
      | some nid1 =>
          cases nid2 with
          | none => contradiction
          | some nid2 =>
              obtain ⟨hcomplete, hnum, hdummies, hinfo, hrange⟩ := ih h
              refine ⟨?_, ?_, hdummies, hinfo, ?_⟩
              · rw [List.forall_mem_cons]
                exact ⟨rfl, hcomplete⟩
              · rw [hnum, List.length_cons]
                simp only
                omega
              · intro hjson hconf
                rw [List.forall_mem_cons] at hjson
                apply hrange hjson.2
                intro i hi
                simp only [Function.update_apply]
                split_ifs with heq
                · apply hjson.1 nid1 nid2 rfl rfl
                · apply hconf i
                  simp only at hi
                  omega

/-- The record of a stream is in range: its id, its source, and the size of its packets. -/
def StreamInRange (info : NetSetDummyTrafficConfig) : Prop :=
  info.confId.toNat < maxDummystreamConfNum ∧ info.srcId.toNat < maxNodeId ∧ info.Fits

/-- The loop over `dummy_traffic` checks the index it uses. -/
theorem forEach_parseDummy_accesses {dummies : List DummyJson} {conf : SimulatorConfig} :
  ∀ access ∈ (forEach parseDummy dummies conf).accesses, access.InBounds
  := by
  induction dummies generalizing conf with
  | nil =>
      intro access haccess
      contradiction
  | cons json dummies ih =>
      rw [forEach, parseDummy]
      split_ifs with hnum
      · intro access haccess
        contradiction
      · obtain ⟨srcId, dstId, payloadSize, intervalMs⟩ := json
        cases srcId <;> cases dstId <;> cases payloadSize <;> cases intervalMs <;>
          try (intro access haccess; contradiction)
        intro access haccess
        rcases List.mem_cons.mp haccess with rfl | haccess
        · apply ConfAccess.index_inBounds
          simp only [ConfArray.size]
          omega
        · apply ih access haccess

/-- If the loop over `dummy_traffic` ends, all elements are complete, and their configurations
follow those that were there. -/
theorem forEach_parseDummy_conf {dummies : List DummyJson} {conf conf' : SimulatorConfig}
    (h : (forEach parseDummy dummies conf).conf = some conf')
    (hle : conf.dummystreamConfNum ≤ maxDummystreamConfNum) :
  (∀ json ∈ dummies, json.complete = true) ∧
    conf'.dummystreamConfNum = conf.dummystreamConfNum + dummies.length ∧
    conf'.dummystreamConfNum ≤ maxDummystreamConfNum ∧
    conf'.simlinkConfNum = conf.simlinkConfNum ∧ conf'.linkconfs = conf.linkconfs ∧
    ((∀ json ∈ dummies, ∀ srcId payloadSize, json.srcId = some srcId →
        json.payloadSize = some payloadSize → (BitVec.ofInt 16 srcId).toNat < maxNodeId ∧
          (BitVec.ofInt 16 payloadSize).toNat + 28 ≤ packetBufSize) →
      (∀ i < conf.dummystreamConfNum, StreamInRange (conf.dummyStreamInfo i)) →
      ∀ i < conf'.dummystreamConfNum, StreamInRange (conf'.dummyStreamInfo i))
  := by
  induction dummies generalizing conf with
  | nil =>
      obtain rfl := Option.some.inj h
      simpa using hle
  | cons json dummies ih =>
      rw [forEach, parseDummy] at h
      split_ifs at h with hnum
      · contradiction
      · obtain ⟨srcId, dstId, payloadSize, intervalMs⟩ := json
        cases srcId <;> cases dstId <;> cases payloadSize <;> cases intervalMs <;>
          try contradiction
        rename_i srcId dstId payloadSize intervalMs
        obtain ⟨hcomplete, hlength, hle', hlinks, hlinkconfs, hrange⟩ := ih h (by
          simp only
          omega)
        refine ⟨?_, ?_, hle', hlinks, hlinkconfs, ?_⟩
        · rw [List.forall_mem_cons]
          exact ⟨rfl, hcomplete⟩
        · rw [hlength, List.length_cons]
          simp only
          omega
        · intro hjson hconf
          rw [List.forall_mem_cons] at hjson
          obtain ⟨hsrc, hfit⟩ := hjson.1 srcId payloadSize rfl rfl
          apply hrange hjson.2
          intro i hi
          simp only [Function.update_apply]
          split_ifs with heq
          · refine ⟨?_, hsrc, hfit⟩
            rw [not_le] at hnum
            rw [streamConf, toNat_ofNat_of_lt (Nat.lt_trans hnum (by decide))]
            apply hnum
          · apply hconf i
            simp only at hi
            omega

/-- Starting the nodes uses indices below `MAX_NODE_ID` only. -/
theorem startAccesses_inBounds (conf : SimulatorConfig) :
  ∀ access ∈ conf.startAccesses, access.InBounds
  := by
  intro access haccess
  obtain ⟨i, hi, haccess⟩ := List.mem_flatMap.mp haccess
  rw [List.mem_range] at hi
  have hnode : (0 : ℤ) ≤ i ∧ (i : ℤ) < maxNodeId := by omega
  rcases List.mem_cons.mp haccess with rfl | haccess
  · apply hnode
  · split_ifs at haccess
    · obtain rfl := List.mem_singleton.mp haccess
      apply hnode
    · contradiction

/-- Parsing a config file in range uses indices in bounds, and what is going to be sent then is in
range. -/
theorem parseConfig_spec {file : ConfigFile} (h : file.InRange) :
  (∀ access ∈ (zero.parseConfig file).accesses, access.InBounds) ∧
    ∀ conf, (zero.parseConfig file).conf = some conf →
      (conf.dummystreamConfNum ≤ maxDummystreamConfNum ∧
        ∀ i < conf.dummystreamConfNum, StreamInRange (conf.dummyStreamInfo i)) ∧
      conf.simlinkConfNum ≤ maxSimlinkConfNum ∧
        ∀ i < conf.simlinkConfNum, (conf.linkconfs i).InRange
  := by
  rw [parseConfig]
  cases hnodes : file.nodes with
  | none => simp
  | some nodes =>
      obtain ⟨haccesses, hend⟩ := forEach_parseNode zero (h.nodes nodes hnodes)
      simp only [andThen]
      cases hconf₁ : (forEach parseNode nodes zero).conf with
      | none => simpa [hconf₁] using haccesses
      | some conf₁ =>
          obtain ⟨hnone, active, hactive⟩ := hend conf₁ hconf₁
          have hcount := h.links nodes hnodes hnone
          have hzero : conf₁.simlinkConfNum = 0 := by rw [hactive]; rfl
          have hfits : conf₁.simlinkConfNum + min (file.links.getD []).length
              (((file.links.getD []).takeWhile LinkJson.complete).length + 1) ≤
              maxSimlinkConfNum := by
            rw [hzero, Nat.zero_add]
            apply hcount
          have haccesses₁ := forEach_parseLink_accesses hfits
          simp only
          cases hconf₂ : (forEach parseLink (file.links.getD []) conf₁).conf with
          | none =>
              simp only [List.mem_append]
              refine ⟨?_, fun conf hconf => by contradiction⟩
              rintro access (haccess | haccess)
              · apply haccesses access haccess
              · apply haccesses₁ access haccess
          | some conf₂ =>
              simp only [List.mem_append]
              constructor
              · rintro access ((haccess | haccess) | haccess)
                · apply haccesses access haccess
                · apply haccesses₁ access haccess
                · apply forEach_parseDummy_accesses access haccess
              · intro conf hconf
                obtain ⟨hcomplete, hlinks, hdummies, -, hrange⟩ := forEach_parseLink_conf hconf₂
                have hdummies' : conf₂.dummystreamConfNum = 0 := by rw [hdummies, hactive]; rfl
                obtain ⟨hcomplete', hlength, hle, hlinks', hlinkconfs, hrange'⟩ :=
                  forEach_parseDummy_conf hconf (by rw [hdummies']; apply Nat.zero_le)
                obtain ⟨hnids, hstreams⟩ := h.sent nodes hnodes hnone hcomplete hcomplete' (by
                  rw [hlength, hdummies', Nat.zero_add] at hle
                  apply hle)
                have htake : (file.links.getD []).takeWhile LinkJson.complete =
                    file.links.getD [] := List.takeWhile_eq_self_iff.mpr hcomplete
                refine ⟨⟨hle, ?_⟩, ?_, ?_⟩
                · apply hrange' hstreams
                  intro i hi
                  rw [hdummies'] at hi
                  contradiction
                · rw [htake] at hcount
                  rw [hlinks', hlinks, hzero]
                  omega
                · rw [hlinks', hlinkconfs]
                  apply hrange hnids
                  intro i hi
                  rw [hzero] at hi
                  contradiction

end SimulatorConfig

/-! ### Messages about dummy traffic -/

/-- A command is for a stream that there is a slot for, and its packets fit. -/
def NetCommand.InRange (cmd : NetCommand) : Prop :=
  cmd.confId.toNat < maxDummyStreams ∧
    ∀ conf, cmd = .set conf ∨ cmd = .update conf → conf.Fits

namespace TrafficCtx

/-- Sending a command adds it to a queue. -/
theorem sendNetCommand_queued {sctx sctx' : TrafficCtx} {nodeId : BitVec 16} {cmd : NetCommand}
    (h : sctx.sendNetCommand nodeId cmd = some sctx') :
  sctx'.dummyStreamInfo = sctx.dummyStreamInfo ∧
    ∀ n, ∀ c ∈ sctx'.netCommands n, c ∈ sctx.netCommands n ∨ c = cmd
  := by
  rw [sendNetCommand] at h
  split_ifs at h
  obtain rfl := Option.some.inj h
  refine ⟨rfl, ?_⟩
  intro n c hc
  simp only [Function.update_apply] at hc
  split_ifs at hc with hn
  · rw [List.mem_append, List.mem_singleton] at hc
    rw [hn]
    apply hc
  · left
    apply hc

/-- A start or an update for a stream that there is a record for, in which no field is missing,
sends the configuration that it gives. -/
theorem handleStartDummyTraffic_full (sctx : TrafficCtx) {confId : ℤ}
    (hrange : 0 ≤ confId ∧ confId < maxDummystreamConfNum)
    (srcId dstId payloadSize intervalMs : ℤ) (isUpdate : Bool) :
  ∃ sctx₁ : TrafficCtx, sctx₁.netCommands = sctx.netCommands ∧
    sctx.handleStartDummyTraffic
        ⟨some confId, some srcId, some dstId, some payloadSize, some intervalMs⟩ isUpdate =
      let conf : NetSetDummyTrafficConfig := ⟨.ofInt 16 confId, .ofInt 16 srcId, .ofInt 16 dstId,
        .ofInt 16 payloadSize, .ofInt 16 intervalMs⟩
      sctx₁.sendNetCommand (.ofInt 16 srcId) (if isUpdate then .update conf else .set conf)
  := by
  have hrecord : ¬ (confId < 0 ∨ (maxDummystreamConfNum : ℤ) ≤ confId) := by omega
  simp only [handleStartDummyTraffic, if_neg hrecord, setStream, Function.update_self,
    Function.update_idem]
  refine ⟨⟨Function.update sctx.dummyStreamInfo confId.toNat _, sctx.netCommands⟩, rfl, rfl⟩

/-- A start or an update in range sends no command but one in range. -/
theorem handleStartDummyTraffic_inRange {sctx sctx' : TrafficCtx} {json : DummyTrafficJson}
    {isUpdate : Bool} (hrange : json.ConfInRange)
    (h : sctx.handleStartDummyTraffic json isUpdate = some sctx') (n : ℕ) :
  ∀ cmd ∈ sctx'.netCommands n, cmd ∈ sctx.netCommands n ∨ cmd.InRange
  := by
  obtain ⟨confId, srcId, dstId, payloadSize, intervalMs⟩ := json
  cases confId with
  | none =>
      obtain rfl := Option.some.inj h
      exact fun cmd hcmd => Or.inl hcmd
  | some confId =>
      obtain ⟨hconfId, hall⟩ := hrange confId rfl
      by_cases hfull : ∃ srcId' dstId' payloadSize' intervalMs', srcId = some srcId' ∧
          dstId = some dstId' ∧ payloadSize = some payloadSize' ∧ intervalMs = some intervalMs'
      · obtain ⟨srcId, dstId, payloadSize, intervalMs, rfl, rfl, rfl, rfl⟩ := hfull
        obtain ⟨-, hfit⟩ := hall srcId dstId payloadSize intervalMs rfl
        obtain ⟨sctx₁, hqueue, hsend⟩ := handleStartDummyTraffic_full sctx hconfId srcId dstId
          payloadSize intervalMs isUpdate
        rw [hsend] at h
        obtain ⟨-, hqueued⟩ := sendNetCommand_queued h
        have hslot : (BitVec.ofInt 16 confId).toNat < maxDummyStreams := by
          obtain ⟨id, rfl⟩ := Int.eq_ofNat_of_zero_le hconfId.1
          rw [maxDummystreamConfNum] at hconfId
          rw [BitVec.ofInt_natCast, toNat_ofNat_of_lt (by omega), maxDummyStreams]
          omega
        intro cmd hcmd
        rw [← hqueue]
        refine (hqueued n cmd hcmd).imp_right ?_
        rintro rfl
        cases isUpdate with
        | true =>
            refine ⟨hslot, ?_⟩
            rintro conf (hconf | hconf)
            · contradiction
            · obtain rfl := NetCommand.update.inj hconf
              apply hfit
        | false =>
            refine ⟨hslot, ?_⟩
            rintro conf (hconf | hconf)
            · obtain rfl := NetCommand.set.inj hconf
              apply hfit
            · contradiction
      · -- A field is missing: the record is written to, and nothing is sent.
        have hqueue : sctx'.netCommands = sctx.netCommands := by
          have hrecord : ¬ (confId < 0 ∨ (maxDummystreamConfNum : ℤ) ≤ confId) := by omega
          simp only [handleStartDummyTraffic, if_neg hrecord] at h
          cases srcId <;> cases dstId <;> cases payloadSize <;> cases intervalMs <;>
            first
            | (obtain rfl := Option.some.inj h; rfl)
            | (exact absurd ⟨_, _, _, _, rfl, rfl, rfl, rfl⟩ hfull)
        intro cmd hcmd
        left
        rw [← hqueue]
        apply hcmd

/-- A stop in range sends no command but one in range. -/
theorem handleStopDummyTraffic_inRange {sctx sctx' : TrafficCtx} {confId : Option ℤ}
    (hrange : sctx.StopInRange confId) (h : sctx.handleStopDummyTraffic confId = some sctx')
    (n : ℕ) :
  ∀ cmd ∈ sctx'.netCommands n, cmd ∈ sctx.netCommands n ∨ cmd.InRange
  := by
  cases confId with
  | none =>
      obtain rfl := Option.some.inj h
      exact fun cmd hcmd => Or.inl hcmd
  | some confId =>
      obtain ⟨hlt, -⟩ := hrange confId rfl
      simp only [handleStopDummyTraffic] at h
      split_ifs at h
      obtain ⟨-, hqueued⟩ := sendNetCommand_queued h
      intro cmd hcmd
      refine (hqueued n cmd hcmd).imp_right ?_
      rintro rfl
      refine ⟨Nat.lt_trans hlt (by decide), ?_⟩
      rintro conf (hconf | hconf)
      · contradiction
      · contradiction

/-- A message in range sends no command but one in range. -/
theorem handleRemoteConfMsg_inRange {sctx sctx' : TrafficCtx} {msg : TrafficMsg}
    (hrange : msg.ConfInRange sctx) (h : sctx.handleRemoteConfMsg msg = some sctx') (n : ℕ) :
  ∀ cmd ∈ sctx'.netCommands n, cmd ∈ sctx.netCommands n ∨ cmd.InRange
  := by
  cases msg with
  | startDummyTraffic json => apply handleStartDummyTraffic_inRange hrange h
  | updateDummyTrafficConf json => apply handleStartDummyTraffic_inRange hrange h
  | stopDummyTraffic confId => apply handleStopDummyTraffic_inRange hrange h
  | deleteDummyTrafficConf confId => apply handleStopDummyTraffic_inRange hrange h

end TrafficCtx

/-- A message in range uses indices in bounds. -/
theorem TrafficMsg.ConfInRange.allInBounds {sctx : TrafficCtx} {msg : TrafficMsg}
    (h : msg.ConfInRange sctx) :
  ∀ access ∈ msg.accesses sctx, access.InBounds
  := by
  have hstart : ∀ json : DummyTrafficJson, json.ConfInRange →
      ∀ access ∈ TrafficMsg.accesses.startAccesses json, access.InBounds := by
    rintro ⟨confId, srcId, dstId, payloadSize, intervalMs⟩ hjson access haccess
    cases confId with
    | none => contradiction
    | some confId =>
        obtain ⟨hconfId, hall⟩ := hjson confId rfl
        rcases List.mem_cons.mp haccess with rfl | haccess
        · apply hconfId
        · cases srcId <;> cases dstId <;> cases payloadSize <;> cases intervalMs <;>
            try contradiction
          obtain rfl := List.mem_singleton.mp haccess
          obtain ⟨hsrc, -⟩ := hall _ _ _ _ rfl
          apply ConfAccess.index_inBounds hsrc
  have hstop : ∀ confId, sctx.StopInRange confId →
      ∀ access ∈ TrafficMsg.accesses.stopAccesses sctx confId, access.InBounds := by
    intro confId hrange access haccess
    cases confId with
    | none => contradiction
    | some confId =>
        obtain ⟨hid, hsrc⟩ := hrange confId rfl
        simp only [accesses.stopAccesses, List.mem_cons, List.not_mem_nil, or_false] at haccess
        rcases haccess with rfl | rfl
        · apply ConfAccess.index_inBounds hid
        · apply ConfAccess.index_inBounds hsrc
  cases msg with
  | startDummyTraffic json => apply hstart json h
  | updateDummyTrafficConf json => apply hstart json h
  | stopDummyTraffic confId => apply hstop confId h
  | deleteDummyTrafficConf confId => apply hstop confId h

/-- The indices of a message are those that its handler stops at: it uses memory wrongly exactly
when one of them is out of bounds. -/
theorem TrafficMsg.accesses_inBounds_iff {sctx : TrafficCtx} {msg : TrafficMsg} :
  (∀ access ∈ msg.accesses sctx, access.InBounds) ↔
    ∃ sctx', sctx.handleRemoteConfMsg msg = some sctx'
  := by
  have hnode : ∀ (i : BitVec 16) (sctx : TrafficCtx) (cmd : NetCommand),
      (ConfAccess.index .nodes i.toNat).InBounds ↔
        ∃ sctx', sctx.sendNetCommand i cmd = some sctx' := by
    intro i sctx cmd
    rw [TrafficCtx.sendNetCommand, ConfAccess.InBounds]
    simp only [ConfArray.size]
    split_ifs with hle
    · simp only [exists_false, iff_false]
      omega
    · simp only [Option.some.injEq, exists_eq', iff_true]
      omega
  have hstart : ∀ (json : DummyTrafficJson) (isUpdate : Bool),
      (∀ access ∈ TrafficMsg.accesses.startAccesses json, access.InBounds) ↔
        ∃ sctx', sctx.handleStartDummyTraffic json isUpdate = some sctx' := by
    rintro ⟨confId, srcId, dstId, payloadSize, intervalMs⟩ isUpdate
    cases confId with
    | none => simp [accesses.startAccesses, TrafficCtx.handleStartDummyTraffic]
    | some confId =>
        rw [accesses.startAccesses, List.forall_mem_cons]
        by_cases hrange : 0 ≤ confId ∧ confId < maxDummystreamConfNum
        · have hrecord : ¬ (confId < 0 ∨ (maxDummystreamConfNum : ℤ) ≤ confId) := by omega
          have hindex : (ConfAccess.index .dummyStreamInfo confId).InBounds := hrange
          cases srcId <;> cases dstId <;> cases payloadSize <;> cases intervalMs <;>
            try (simp [TrafficCtx.handleStartDummyTraffic, if_neg hrecord, hindex]; done)
          rename_i srcId dstId payloadSize intervalMs
          obtain ⟨sctx₁, -, hsend⟩ := sctx.handleStartDummyTraffic_full hrange srcId dstId
            payloadSize intervalMs isUpdate
          rw [hsend, ← hnode]
          simp [hindex]
        · have hrecord : confId < 0 ∨ (maxDummystreamConfNum : ℤ) ≤ confId := by omega
          have hindex : ¬ (ConfAccess.index .dummyStreamInfo confId).InBounds := hrange
          simp [TrafficCtx.handleStartDummyTraffic, hrecord, hindex]
  have hstop : ∀ confId : Option ℤ,
      (∀ access ∈ TrafficMsg.accesses.stopAccesses sctx confId, access.InBounds) ↔
        ∃ sctx', sctx.handleStopDummyTraffic confId = some sctx' := by
    intro confId
    cases confId with
    | none => simp [accesses.stopAccesses, TrafficCtx.handleStopDummyTraffic]
    | some confId =>
        simp only [accesses.stopAccesses, List.forall_mem_cons, List.not_mem_nil, false_imp_iff,
          implies_true, and_true, TrafficCtx.handleStopDummyTraffic]
        rw [hnode _ sctx (.unset (BitVec.ofInt 16 confId))]
        split_ifs with hle
        · simp only [ConfAccess.InBounds, ConfArray.size, exists_false, iff_false]
          omega
        · simp only [ConfAccess.InBounds, ConfArray.size, and_iff_right_iff_imp]
          omega
  cases msg with
  | startDummyTraffic json => apply hstart json false
  | updateDummyTrafficConf json => apply hstart json true
  | stopDummyTraffic confId => apply hstop confId
  | deleteDummyTrafficConf confId => apply hstop confId

/-! ### Configurations on a node -/

namespace SimNetCtx

/-- The packets of all streams that a node has a configuration of fit. -/
def AllFit (ctx : SimNetCtx) : Prop :=
  ∀ c conf, ctx.confs.search c = some conf → conf.Fits

/-- A new context has no configurations. -/
theorem startReportJob_allFit {nodeId : BitVec 8} {now : Timespec} {ctx : SimNetCtx}
    (h : startReportJob nodeId now = some ctx) :
  ctx.AllFit
  := by
  simp only [startReportJob, Option.bind_eq_bind, Option.bind_eq_some_iff, Option.pure_def,
    Option.some.injEq] at h
  obtain ⟨-, -, rfl⟩ := h
  intro c conf hconf
  simp at hconf

theorem AllFit.register {ctx ctx' : SimNetCtx} {now : Timespec} {conf : NetSetDummyTrafficConfig}
    (h : ctx.AllFit) (hfits : conf.Fits)
    (hstep : ctx.registerDummypktSendJob now conf = some ctx') :
  ctx'.AllFit
  := by
  have hconfs : ctx'.confs = ctx.confs.insert ctx.nextConf conf := by
    rw [registerDummypktSendJob] at hstep
    split_ifs at hstep
    simp only [Option.bind_eq_bind, Option.bind_eq_some_iff, Option.pure_def,
      Option.some.injEq, findDummyTimer] at hstep
    obtain ⟨tq, -, rfl⟩ := hstep
    cases ctx.dummyTrafficTimers conf.confId.toNat with
    | some p => rfl
    | none => rfl
  intro c conf' hconf'
  rw [hconfs, OrdMap.search_insert] at hconf'
  split_ifs at hconf' with hc
  · obtain rfl := Option.some.inj hconf'
    cases hold : ctx.confs.search ctx.nextConf with
    | none => apply hfits
    | some old => apply h ctx.nextConf old hold
  · apply h c conf' hconf'

theorem AllFit.unregister {ctx ctx' : SimNetCtx} {confId : BitVec 16} (h : ctx.AllFit)
    (hstep : ctx.unregisterDummypktSendJob confId = some ctx') :
  ctx'.AllFit
  := by
  rw [unregisterDummypktSendJob] at hstep
  split_ifs at hstep
  cases hslot : ctx.dummyTrafficTimers confId.toNat with
  | none =>
      simp only [hslot] at hstep
      obtain rfl := Option.some.inj hstep
      apply h
  | some p =>
      simp only [hslot, Option.bind_eq_bind, Option.bind_eq_some_iff, Option.pure_def,
        Option.some.injEq] at hstep
      obtain ⟨e, -, rfl⟩ := hstep
      apply h

/-- A command in range keeps the packets fitting. -/
theorem AllFit.processCommand {ctx ctx' : SimNetCtx} {now : Timespec} {cmd : NetCommand}
    (h : ctx.AllFit) (hrange : cmd.InRange) (hstep : ctx.processCommand now cmd = some ctx') :
  ctx'.AllFit
  := by
  cases cmd with
  | set conf => apply h.register (hrange.2 conf (Or.inl rfl)) hstep
  | unset confId => apply h.unregister hstep
  | update conf =>
      obtain ⟨ctx₁, hctx₁, hctx'⟩ := Option.bind_eq_some_iff.mp hstep
      apply (h.unregister hctx₁).register (hrange.2 conf (Or.inr rfl)) hctx'

/-- A round of the timer queue brings no new configuration. -/
theorem AllFit.work {ctx ctx' : SimNetCtx} {currtime : Timespec} {rand : ℕ} (h : ctx.AllFit)
    (hstep : ctx.timerqueueWork currtime rand = some ctx') :
  ctx'.AllFit
  := by
  obtain ⟨ctx₁, hround, hdetach⟩ := Option.bind_eq_some_iff.mp hstep
  have h₁ : ctx₁.AllFit := by
    rcases client.workRound_inv hround with ⟨q, rfl⟩ | ⟨c, q, ctx₂, q', -, hrun, rfl⟩
    · apply h
    · obtain ⟨pkts, rfl⟩ := runCallback_inv hrun
      apply h
  cases hdetached : ctx.detached currtime with
  | none =>
      rw [hdetached] at hdetach
      obtain rfl := Option.some.inj hdetach
      apply h₁
  | some c =>
      simp only [hdetached, dummypktSendJobDetachCb, Option.bind_eq_bind, Option.bind_eq_some_iff,
        Option.pure_def, Option.some.injEq] at hdetach
      obtain ⟨conf, -, rfl⟩ := hdetach
      intro c' conf' hconf'
      rw [OrdMap.search_erase] at hconf'
      split_ifs at hconf'
      apply h₁ c' conf' hconf'

/-- The packet that a round builds fits. -/
theorem AllFit.workAccesses {ctx : SimNetCtx} (h : ctx.AllFit) (currtime : Timespec) :
  ∀ access ∈ ctx.workAccesses currtime, access.InBounds
  := by
  intro access haccess
  rw [SimNetCtx.workAccesses] at haccess
  cases hfired : ctx.timerqueue.fired currtime with
  | none => simp [hfired] at haccess
  | some callback =>
      cases callback with
      | sendNetReportCb => simp [hfired] at haccess
      | sendDummyPacket c =>
          cases hconf : ctx.confs.search c with
          | none => simp [hfired, hconf] at haccess
          | some conf =>
              simp only [hfired, hconf, List.mem_singleton] at haccess
              subst haccess
              have hfits := h c conf hconf
              rw [ConfAccess.InBounds, dummyPacket_length]
              apply hfits

end SimNetCtx

/-! ### The simulation -/

namespace Simulation

open SimulatorConfig

/-- A message of `send_config_msgs` is in range. -/
def ConfigMsgInRange (sim : Simulation) : ConfigMsg → Prop
  | .dummystream i => i < maxDummystreamConfNum ∧ StreamInRange (sim.conf.dummyStreamInfo i)
  | .link i => i < maxSimlinkConfNum ∧ (sim.conf.linkconfs i).InRange

/-- What is kept true: whatever is on its way is in range, the messages of `send_config_msgs`, the
elements of a `LinkInfo` message with the local variable of its handler, the commands in the queues,
and the configurations that the nodes have. -/
structure Inv (sim : Simulation) : Prop where
  fresh : sim.serverMode = none → sim.conf = .zero
  configMsgs : ∀ msg ∈ sim.configMsgs, sim.serverMode = some false ∧ sim.ConfigMsgInRange msg
  todo : ∀ entry ∈ sim.link.todo, entry.node1 < entry.node2 ∧ entry.node2 < maxNodeId
  msg : (∀ entry ∈ sim.link.todo.head?, entry.link ≠ none) ∨ sim.link.msg.InRange
  phyCommand : ∀ cmd ∈ sim.link.phyCommand, cmd.InRange
  netCommands : ∀ n, ∀ cmd ∈ sim.netCommands n, cmd.InRange
  nodes : ∀ n ctx, sim.nodes n = .running ctx → ctx.AllFit

theorem init_inv (msg : PhyLinkConfig) :
  (init msg).Inv
  where
  fresh _ := rfl
  configMsgs msg hmsg := by contradiction
  todo entry hentry := by contradiction
  msg := by
    left
    intro entry hentry
    contradiction
  phyCommand cmd hcmd := by contradiction
  netCommands n cmd hcmd := by contradiction
  nodes n ctx hctx := by contradiction

/-- What `send_mq` leaves in a queue was there or has been sent. -/
theorem mem_sendMq {cap : ℕ} {queue : List PhyLinkConfig} {msg cmd : PhyLinkConfig}
    (h : cmd ∈ (sendMq cap queue msg).2) :
  cmd ∈ queue ∨ cmd = msg
  := by
  rw [sendMq] at h
  split_ifs at h
  · rw [List.mem_append, List.mem_singleton] at h
    apply h
  · left
    apply h

/-- Starting in local mode with a config file in range. -/
theorem Inv.startLocal {sim sim' : Simulation} (h : sim.Inv) {file : ConfigFile}
    (hmode : sim.serverMode = none) (hrange : file.InRange)
    (hstep : sim.startLocal file = some sim') :
  sim'.Inv
  := by
  obtain ⟨conf, hconf, hsim'⟩ := Option.bind_eq_some_iff.mp hstep
  obtain rfl := Option.some.inj hsim'
  rw [h.fresh hmode] at hconf
  obtain ⟨⟨hnum, hstreams⟩, hnum', hlinks⟩ := (parseConfig_spec hrange).2 conf hconf
  refine ⟨fun hnone => by contradiction, ?_, h.todo, h.msg, h.phyCommand, h.netCommands, ?_⟩
  · intro msg hmsg
    refine ⟨rfl, ?_⟩
    simp only [List.mem_append, List.mem_map, List.mem_range] at hmsg
    rcases hmsg with ⟨i, hi, rfl⟩ | ⟨i, hi, rfl⟩
    · exact ⟨Nat.lt_of_lt_of_le hi hnum, hstreams i hi⟩
    · exact ⟨Nat.lt_of_lt_of_le hi hnum', hlinks i hi⟩
  · intro n ctx hctx
    simp only at hctx
    split_ifs at hctx

/-- Sending a message of `send_config_msgs`. -/
theorem Inv.sendConfig {sim sim' : Simulation} (h : sim.Inv) {cap : ℕ} {msg : ConfigMsg}
    {msgs : List ConfigMsg} (hmsgs : sim.configMsgs = msg :: msgs)
    (hstep : sim.sendConfig cap msg = some sim') :
  Inv { sim' with configMsgs := msgs }
  := by
  have hall := h.configMsgs
  rw [hmsgs, List.forall_mem_cons] at hall
  obtain ⟨⟨-, hmsg⟩, hrest⟩ := hall
  cases msg with
  | dummystream i =>
      obtain ⟨sctx, hsctx, hsim'⟩ := Option.bind_eq_some_iff.mp hstep
      obtain rfl := Option.some.inj hsim'
      obtain ⟨hinfo, hqueued⟩ := TrafficCtx.sendNetCommand_queued hsctx
      obtain ⟨-, hid, -, hfits⟩ := hmsg
      have hconf : ∀ msg, sim.ConfigMsgInRange msg →
          ConfigMsgInRange { sim.setTraffic sctx with configMsgs := msgs } msg := by
        intro msg hmsg
        cases msg with
        | dummystream j =>
            refine ⟨hmsg.1, ?_⟩
            simp only [setTraffic, hinfo]
            apply hmsg.2
        | link j => apply hmsg
      refine ⟨?_, ?_, h.todo, h.msg, h.phyCommand, ?_, h.nodes⟩
      · intro hnone
        have hzero := h.fresh hnone
        simp only [setTraffic, hinfo, traffic]
        apply hzero
      · intro msg hmsg
        exact ⟨(hrest msg hmsg).1, hconf msg (hrest msg hmsg).2⟩
      · intro n cmd hcmd
        rcases hqueued n cmd hcmd with hcmd | rfl
        · apply h.netCommands n cmd hcmd
        · refine ⟨Nat.lt_trans hid (by decide), ?_⟩
          rintro conf (hconf | hconf)
          · obtain rfl := NetCommand.set.inj hconf
            apply hfits
          · contradiction
  | link i =>
      obtain rfl := Option.some.inj hstep
      refine ⟨h.fresh, hrest, h.todo, h.msg, ?_, h.netCommands, h.nodes⟩
      intro cmd hcmd
      rcases mem_sendMq hcmd with hcmd | rfl
      · apply h.phyCommand cmd hcmd
      · apply hmsg.2

/-- Handling a message about dummy traffic in range. -/
theorem Inv.traffic {sim : Simulation} (h : sim.Inv) {msg : TrafficMsg} (hidle : sim.Idle)
    (hrange : msg.ConfInRange sim.traffic) {sctx : TrafficCtx}
    (hstep : sim.traffic.handleRemoteConfMsg msg = some sctx) :
  (sim.setTraffic sctx).Inv
  := by
  refine ⟨?_, ?_, h.todo, h.msg, h.phyCommand, ?_, h.nodes⟩
  · intro hnone
    have hmode := hidle.1
    have hnone' : sim.serverMode = none := hnone
    rw [hnone'] at hmode
    contradiction
  · intro msg hmsg
    have hmode := (h.configMsgs msg hmsg).1
    rw [hidle.1] at hmode
    contradiction
  · intro n cmd hcmd
    rcases TrafficCtx.handleRemoteConfMsg_inRange hrange hstep n cmd hcmd with hcmd | hcmd
    · apply h.netCommands n cmd hcmd
    · apply hcmd

/-- A `LinkInfo` message in range comes. -/
theorem Inv.linkInfo {sim : Simulation} (h : sim.Inv) {cap : ℕ}
    {links : List (List (Option ℚ))} {msg : PhyLinkConfig} (hrange : LinkInfoInRange links msg)
    {link : LinkRun} (hstep : sim.link.step cap (.linkInfo links msg) = some link) :
  Inv { sim with link := link }
  := by
  rw [LinkRun.step] at hstep
  cases htodo : sim.link.todo with
  | cons entry todo =>
      simp only [htodo] at hstep
      contradiction
  | nil =>
      simp only [htodo] at hstep
      obtain rfl := Option.some.inj hstep
      refine ⟨h.fresh, h.configMsgs, ?_, hrange.2, h.phyCommand, h.netCommands, h.nodes⟩
      intro entry hentry
      exact ⟨linkEntries_lt hentry, hrange.1 entry hentry⟩

/-- The handler of a `LinkInfo` message goes through an element. -/
theorem Inv.linkEntry {sim : Simulation} (h : sim.Inv) {cap : ℕ} {link : LinkRun}
    (hstep : sim.link.step cap .entry = some link) :
  Inv { sim with link := link }
  := by
  rw [LinkRun.step] at hstep
  cases htodo : sim.link.todo with
  | nil =>
      simp only [htodo] at hstep
      contradiction
  | cons entry todo =>
      have hall := h.todo
      rw [htodo, List.forall_mem_cons] at hall
      simp only [htodo] at hstep
      obtain ⟨link', hlink', hlink⟩ := Option.bind_eq_some_iff.mp hstep
      obtain rfl := Option.some.inj hlink
      rw [LinkRun.handleLinkEntry] at hlink'
      cases hvalue : entry.link with
      | none =>
          have hmsg : sim.link.msg.InRange := by
            rcases h.msg with hnumber | hmsg
            · rw [htodo] at hnumber
              apply absurd hvalue (hnumber entry rfl)
            · apply hmsg
          simp only [hvalue] at hlink'
          obtain rfl := Option.some.inj hlink'
          refine ⟨h.fresh, h.configMsgs, hall.2, Or.inr hmsg, ?_, h.netCommands, h.nodes⟩
          intro cmd hcmd
          rcases mem_sendMq hcmd with hcmd | rfl
          · apply h.phyCommand cmd hcmd
          · apply hmsg
      | some linkval =>
          simp only [hvalue] at hlink'
          split_ifs at hlink' with hnodes
          obtain rfl := Option.some.inj hlink'
          have hmsg : (linkConfig entry.node1 entry.node2 linkval).InRange := by
            rw [not_or, not_le, not_le] at hnodes
            rw [PhyLinkConfig.InRange, linkConfig,
              toNat_ofNat_of_lt (Nat.lt_trans hnodes.1 (by decide)),
              toNat_ofNat_of_lt (Nat.lt_trans hnodes.2 (by decide))]
            apply hnodes
          refine ⟨h.fresh, h.configMsgs, hall.2, Or.inr hmsg, ?_, h.netCommands, h.nodes⟩
          intro cmd hcmd
          rcases mem_sendMq hcmd with hcmd | rfl
          · apply h.phyCommand cmd hcmd
          · apply hmsg

/-- The PHY takes a step. -/
theorem Inv.phy {sim : Simulation} (h : sim.Inv) {cap : ℕ} {link : LinkRun}
    (hstep : sim.link.step cap .phy = some link) :
  Inv { sim with link := link }
  := by
  have hkeeps : link.todo = sim.link.todo ∧ link.msg = sim.link.msg ∧
      ∀ cmd ∈ link.phyCommand, cmd ∈ sim.link.phyCommand := by
    rw [LinkRun.step, LinkRun.phyStep] at hstep
    cases hphy : sim.link.phy with
    | absent =>
        simp only [hphy] at hstep
        contradiction
    | starting =>
        simp only [hphy] at hstep
        obtain rfl := Option.some.inj hstep
        exact ⟨rfl, rfl, fun cmd hcmd => hcmd⟩
    | flushing links =>
        simp only [hphy] at hstep
        cases hqueue : sim.link.phyCommand with
        | nil =>
            simp only [hqueue] at hstep
            obtain rfl := Option.some.inj hstep
            exact ⟨rfl, rfl, fun cmd hcmd => hcmd⟩
        | cons cmd cmds =>
            simp only [hqueue] at hstep
            obtain rfl := Option.some.inj hstep
            exact ⟨rfl, rfl, fun cmd' hcmd' => List.mem_cons_of_mem _ hcmd'⟩
    | running links =>
        simp only [hphy] at hstep
        cases hqueue : sim.link.phyCommand with
        | nil =>
            simp only [hqueue] at hstep
            obtain rfl := Option.some.inj hstep
            refine ⟨rfl, rfl, ?_⟩
            intro cmd hcmd
            rw [← hqueue]
            apply hcmd
        | cons cmd cmds =>
            simp only [hqueue] at hstep
            obtain ⟨links', -, hlink⟩ := Option.bind_eq_some_iff.mp hstep
            obtain rfl := Option.some.inj hlink
            exact ⟨rfl, rfl, fun cmd' hcmd' => List.mem_cons_of_mem _ hcmd'⟩
  obtain ⟨htodo, hmsg, hqueue⟩ := hkeeps
  refine ⟨h.fresh, h.configMsgs, ?_, ?_, ?_, h.netCommands, h.nodes⟩
  · intro entry hentry
    simp only [htodo] at hentry
    apply h.todo entry hentry
  · simp only [htodo, hmsg]
    apply h.msg
  · intro cmd hcmd
    apply h.phyCommand cmd (hqueue cmd hcmd)

/-- The queue of the node `n` becomes `cmds`, with no new command in it. -/
theorem Inv.setQueue {sim : Simulation} (h : sim.Inv) (n : ℕ) {cmds : List NetCommand}
    (hcmds : ∀ cmd ∈ cmds, cmd ∈ sim.netCommands n) :
  Inv { sim with netCommands := Function.update sim.netCommands n cmds }
  := by
  refine ⟨h.fresh, h.configMsgs, h.todo, h.msg, h.phyCommand, ?_, h.nodes⟩
  intro m cmd hcmd
  simp only [Function.update_apply] at hcmd
  split_ifs at hcmd
  · apply h.netCommands n cmd (hcmds cmd hcmd)
  · apply h.netCommands m cmd hcmd

/-- The node `n` goes on with a context in which all packets fit, and with the queue `cmds`. -/
theorem Inv.setNode {sim : Simulation} (h : sim.Inv) (n : ℕ) {cmds : List NetCommand}
    (hcmds : ∀ cmd ∈ cmds, cmd ∈ sim.netCommands n) {ctx : SimNetCtx} (hctx : ctx.AllFit) :
  Inv { sim with
    netCommands := Function.update sim.netCommands n cmds
    nodes := Function.update sim.nodes n (.running ctx) }
  := by
  have hqueue := h.setQueue n hcmds
  refine ⟨h.fresh, h.configMsgs, h.todo, h.msg, h.phyCommand, hqueue.netCommands, ?_⟩
  intro m ctx' hctx'
  simp only [Function.update_apply] at hctx'
  split_ifs at hctx'
  · obtain rfl := SimnetProcess.running.inj hctx'
    apply hctx
  · apply h.nodes m ctx' hctx'

/-- Every event in range keeps what is on its way in range. -/
theorem Inv.step {sim sim' : Simulation} (h : sim.Inv) {cap : ℕ} {e : SimulationEvent}
    (hrange : sim.ConfInRange e) (hstep : sim.step cap e = some sim') :
  sim'.Inv
  := by
  cases e with
  | startServer =>
      simp only [Simulation.step] at hstep
      split_ifs at hstep with hmode
      obtain rfl := Option.some.inj hstep
      refine ⟨fun hnone => by contradiction, ?_, h.todo, h.msg, h.phyCommand, h.netCommands,
        h.nodes⟩
      intro msg hmsg
      have hlocal := (h.configMsgs msg hmsg).1
      rw [hmode] at hlocal
      contradiction
  | startLocal file =>
      simp only [Simulation.step] at hstep
      split_ifs at hstep with hmode
      apply h.startLocal hmode hrange hstep
  | sendConfig =>
      cases hmsgs : sim.configMsgs with
      | nil =>
          simp only [Simulation.step, hmsgs] at hstep
          contradiction
      | cons msg msgs =>
          simp only [Simulation.step, hmsgs] at hstep
          obtain ⟨sim₁, hsim₁, hsim'⟩ := Option.bind_eq_some_iff.mp hstep
          obtain rfl := Option.some.inj hsim'
          apply h.sendConfig hmsgs hsim₁
  | traffic msg =>
      simp only [Simulation.step] at hstep
      split_ifs at hstep with hidle
      obtain ⟨sctx, hsctx, hsim'⟩ := Option.bind_eq_some_iff.mp hstep
      obtain rfl := Option.some.inj hsim'
      apply h.traffic hidle hrange hsctx
  | linkInfo links msg =>
      simp only [Simulation.step] at hstep
      split_ifs at hstep
      obtain ⟨link, hlink, hsim'⟩ := Option.bind_eq_some_iff.mp hstep
      obtain rfl := Option.some.inj hsim'
      apply h.linkInfo hrange hlink
  | linkEntry =>
      obtain ⟨link, hlink, hsim'⟩ := Option.bind_eq_some_iff.mp hstep
      obtain rfl := Option.some.inj hsim'
      apply h.linkEntry hlink
  | start nodenum =>
      simp only [Simulation.step] at hstep
      split_ifs at hstep
      obtain rfl := Option.some.inj hstep
      refine ⟨h.fresh, h.configMsgs, h.todo, h.msg, h.phyCommand, h.netCommands, ?_⟩
      intro n ctx hctx
      simp only [startSimulateRemote] at hctx
      split_ifs at hctx
  | phy =>
      obtain ⟨link, hlink, hsim'⟩ := Option.bind_eq_some_iff.mp hstep
      obtain rfl := Option.some.inj hsim'
      apply h.phy hlink
  | refused n =>
      obtain rfl := Option.some.inj hstep
      apply h.setQueue n
      intro cmd hcmd
      apply List.mem_of_mem_dropLast hcmd
  | startNode n now =>
      cases hnode : sim.nodes n with
      | starting =>
          simp only [Simulation.step, hnode] at hstep
          obtain ⟨ctx, hctx, hsim'⟩ := Option.bind_eq_some_iff.mp hstep
          obtain rfl := Option.some.inj hsim'
          apply h.setNode n (fun cmd hcmd => by contradiction)
            (SimNetCtx.startReportJob_allFit hctx)
      | _ =>
          simp only [Simulation.step, hnode] at hstep
          contradiction
  | recvCommand n now =>
      cases hnode : sim.nodes n with
      | running ctx =>
          cases hqueue : sim.netCommands n with
          | nil =>
              simp only [Simulation.step, hnode, hqueue] at hstep
              contradiction
          | cons cmd cmds =>
              simp only [Simulation.step, hnode, hqueue] at hstep
              obtain ⟨ctx', hctx', hsim'⟩ := Option.bind_eq_some_iff.mp hstep
              obtain rfl := Option.some.inj hsim'
              have hcmd := h.netCommands n cmd (by rw [hqueue]; apply List.mem_cons_self)
              apply h.setNode n _ ((h.nodes n ctx hnode).processCommand hcmd hctx')
              intro cmd' hcmd'
              rw [hqueue]
              apply List.mem_cons_of_mem _ hcmd'
      | _ =>
          simp only [Simulation.step, hnode] at hstep
          contradiction
  | work n currtime rand =>
      cases hnode : sim.nodes n with
      | running ctx =>
          simp only [Simulation.step, hnode] at hstep
          obtain ⟨ctx', hctx', hsim'⟩ := Option.bind_eq_some_iff.mp hstep
          obtain rfl := Option.some.inj hsim'
          have hset := h.setNode n (fun cmd hcmd => hcmd) ((h.nodes n ctx hnode).work hctx')
          rw [Function.update_eq_self] at hset
          apply hset
      | _ =>
          simp only [Simulation.step, hnode] at hstep
          contradiction

/-- With everything on its way in range, an event in range uses indices in bounds. -/
theorem Inv.accesses {sim : Simulation} (h : sim.Inv) {e : SimulationEvent}
    (hrange : sim.ConfInRange e) :
  ∀ access ∈ sim.accesses e, access.InBounds
  := by
  intro access haccess
  cases e with
  | startLocal file =>
      simp only [Simulation.accesses] at haccess
      split_ifs at haccess with hmode
      · rw [h.fresh hmode, List.mem_append] at haccess
        obtain ⟨hparse, -⟩ := parseConfig_spec hrange
        rcases haccess with haccess | haccess
        · apply hparse access haccess
        · cases hconf : (SimulatorConfig.zero.parseConfig file).conf with
          | none => simp [hconf] at haccess
          | some conf =>
              rw [hconf] at haccess
              apply startAccesses_inBounds conf access haccess
      · contradiction
  | sendConfig =>
      cases hmsgs : sim.configMsgs with
      | nil => simp [Simulation.accesses, hmsgs] at haccess
      | cons msg msgs =>
          have hmsg := (h.configMsgs msg (by rw [hmsgs]; apply List.mem_cons_self)).2
          simp only [Simulation.accesses, hmsgs, List.head?_cons, Option.elim_some] at haccess
          cases msg with
          | dummystream i =>
              simp only [configAccesses, List.mem_cons, List.not_mem_nil, or_false] at haccess
              obtain ⟨hi, -, hsrc, -⟩ := hmsg
              rcases haccess with rfl | rfl
              · apply ConfAccess.index_inBounds hi
              · apply ConfAccess.index_inBounds hsrc
          | link i =>
              simp only [configAccesses, List.mem_singleton] at haccess
              subst haccess
              apply ConfAccess.index_inBounds hmsg.1
  | traffic msg =>
      simp only [Simulation.accesses] at haccess
      split_ifs at haccess
      · apply TrafficMsg.ConfInRange.allInBounds hrange access haccess
      · contradiction
  | linkEntry =>
      cases htodo : sim.link.todo with
      | nil => simp [Simulation.accesses, htodo] at haccess
      | cons entry todo =>
          obtain ⟨hlt, hnode⟩ := h.todo entry (by rw [htodo]; apply List.mem_cons_self)
          simp only [Simulation.accesses, htodo, List.head?_cons, Option.elim_some, List.mem_cons,
            List.not_mem_nil, or_false] at haccess
          rcases haccess with rfl | rfl
          · apply ConfAccess.index_inBounds
            apply Nat.lt_trans hlt hnode
          · apply ConfAccess.index_inBounds hnode
  | start nodenum =>
      simp only [Simulation.accesses] at haccess
      split_ifs at haccess
      · obtain ⟨i, hi, rfl⟩ := List.mem_map.mp haccess
        rw [List.mem_range] at hi
        have hnum : nodenum ≤ maxNodeId := hrange
        apply ConfAccess.index_inBounds
        simp only [ConfArray.size]
        omega
      · contradiction
  | phy =>
      cases hphy : sim.link.phy with
      | running links =>
          cases hqueue : sim.link.phyCommand with
          | nil => simp [Simulation.accesses, hphy, hqueue] at haccess
          | cons cmd cmds =>
              obtain ⟨hnode1, hnode2⟩ := h.phyCommand cmd (by
                rw [hqueue]
                apply List.mem_cons_self)
              simp only [Simulation.accesses, hphy, hqueue, List.mem_cons, List.not_mem_nil,
                or_false] at haccess
              rcases haccess with rfl | rfl
              · apply ConfAccess.index_inBounds hnode1
              · apply ConfAccess.index_inBounds hnode2
      | _ => simp [Simulation.accesses, hphy] at haccess
  | recvCommand n now =>
      cases hnode : sim.nodes n with
      | running ctx =>
          cases hqueue : sim.netCommands n with
          | nil => simp [Simulation.accesses, hnode, hqueue] at haccess
          | cons cmd cmds =>
              have hcmd := h.netCommands n cmd (by rw [hqueue]; apply List.mem_cons_self)
              simp only [Simulation.accesses, hnode, hqueue, NetCommand.accesses,
                List.mem_singleton] at haccess
              subst haccess
              apply ConfAccess.index_inBounds hcmd.1
      | _ => simp [Simulation.accesses, hnode] at haccess
  | work n currtime rand =>
      cases hnode : sim.nodes n with
      | running ctx =>
          simp only [Simulation.accesses, hnode] at haccess
          apply (h.nodes n ctx hnode).workAccesses currtime access haccess
      | _ => simp [Simulation.accesses, hnode] at haccess
  | _ => contradiction

/-- In every run of the simulator, the PHY and the nodes whose configuration is in range, every
event uses indices in bounds, and every packet that it builds fits. -/
theorem accesses_inBounds {cap : ℕ} {msg : PhyLinkConfig} {sim : Simulation}
    (h : Reaches (Simulation.step cap) Simulation.ConfInRange (init msg) sim)
    {e : SimulationEvent} (hrange : sim.ConfInRange e) :
  ∀ access ∈ sim.accesses e, access.InBounds
  := by
  have hinv : sim.Inv := h.invariant (fun _ _ _ hs hok hstep => hs.step hok hstep) (init_inv msg)
  apply hinv.accesses hrange

/-- Two nodes are started, and a stream of the node 1, which comes to its main loop and registers
it. -/
def exampleEvents : List SimulationEvent :=
  [.startServer, .start 2, .startNode 1 ⟨0, 0⟩,
    .traffic (.startDummyTraffic ⟨some 7, some 1, some 0, some 2022, some 10⟩),
    .recvCommand 1 ⟨0, 0⟩]

theorem exampleEvents_inRange {sim : Simulation} {e : SimulationEvent} (h : e ∈ exampleEvents) :
  sim.ConfInRange e
  := by
  simp only [exampleEvents, List.mem_cons, List.not_mem_nil, or_false] at h
  rcases h with rfl | rfl | rfl | rfl | rfl
  · trivial
  · have hle : (2 : ℤ) ≤ maxNodeId := by decide
    apply hle
  · trivial
  · intro confId hconfId
    obtain rfl := Option.some.inj hconfId
    refine ⟨by decide, ?_⟩
    intro srcId dstId payloadSize intervalMs hjson
    simp only [DummyTrafficJson.mk.injEq, Option.some.injEq, true_and] at hjson
    obtain ⟨rfl, -, rfl, -⟩ := hjson
    decide
  · trivial

/-- The stream sends a packet of the largest size. -/
theorem accesses_inBounds_two :
  ∃ sim, Reaches (Simulation.step 1) Simulation.ConfInRange (init ⟨0, 0, 0, 0⟩) sim ∧
    sim.accesses (.work 1 ⟨0, 10000000⟩ 0) = [.packet 2050] ∧
    ∀ access ∈ sim.accesses (.work 1 ⟨0, 10000000⟩ 0), access.InBounds
  := by
  have hrun : (exampleEvents.foldlM
      (fun sim e => if decide (e ∈ exampleEvents) then sim.step 1 e else none)
      (init ⟨0, 0, 0, 0⟩)).map (fun sim => sim.accesses (.work 1 ⟨0, 10000000⟩ 0)) =
      some [.packet 2050] := by
    decide +kernel
  obtain ⟨sim, hsim, haccesses⟩ := Option.map_eq_some_iff.mp hrun
  have hreach : Reaches (Simulation.step 1) Simulation.ConfInRange (init ⟨0, 0, 0, 0⟩) sim :=
    Reaches.of_checked (fun _ _ hcheck => exampleEvents_inRange (of_decide_eq_true hcheck)) hsim
  exact ⟨sim, hreach, haccesses, accesses_inBounds hreach trivial⟩

/-- The stream 100 has no record. -/
theorem not_accesses_inBounds :
  ¬ ∀ (cap : ℕ) (msg : PhyLinkConfig) (sim : Simulation) (e : SimulationEvent),
    Reaches (Simulation.step cap) (fun _ _ => True) (init msg) sim →
    ∀ access ∈ sim.accesses e, access.InBounds
  := by
  intro hall
  have hreach : Reaches (Simulation.step 1) (fun _ _ => True) (init ⟨0, 0, 0, 0⟩)
      { init ⟨0, 0, 0, 0⟩ with serverMode := some true } :=
    Reaches.refl.step (e := .startServer) trivial rfl
  have hbound := hall 1 ⟨0, 0, 0, 0⟩ _
    (.traffic (.startDummyTraffic ⟨some 100, some 0, some 1, some 100, some 10⟩)) hreach
    (.index .dummyStreamInfo 100) (by decide +kernel)
  have hlt : (100 : ℤ) < maxDummystreamConfNum := hbound.2
  contradiction

end Simulation
