import Mathlib.Data.List.ReduceOption
import SyNetsim.Simulator.LinkInfo

/-!
# The pairs of a `LinkInfo` message

What `handle_link_info_msg` sends for the elements of a whole message, and what the table of the
PHY holds when it has handled that. The variable `msg` is filled only by an element that is a
number, and it is sent for every element. So each number configures its pair of nodes, and an
element that is not a number sends the configuration of the last number again, or what `msg` holds
uninitialised.

The commands are those of the numbers exactly when every element is a number
(`LinkRun.configuresListed_iff`).
-/

namespace LinkRun

/-! ### The loops of the handler -/

/-- The loops of `handle_link_info_msg` from some element on, with the commands given to `send_mq`.
The command given for an element is what `msg` holds then. -/
def handleLinkEntries (cap : ℕ) (run : LinkRun) :
    List LinkEntry → Option (LinkRun × List PhyLinkConfig)
  | [] => some (run, [])
  | entry :: entries => do
      let run ← run.handleLinkEntry cap entry
      let (run', cmds) ← handleLinkEntries cap run entries
      return (run', run.msg :: cmds)

/-- `handle_link_info_msg`, where `msg` is what its local variable holds uninitialised. -/
def handleLinkInfoMsg (cap : ℕ) (run : LinkRun) (msg : PhyLinkConfig)
    (links : List (List (Option ℚ))) : Option (LinkRun × List PhyLinkConfig) :=
  handleLinkEntries cap { run with msg := msg } (linkEntries links)

/-! ### What is asked of it -/

/-- The element `j` of the row `i`, if there is one and it is a number. -/
def cell (links : List (List (Option ℚ))) (i j : ℕ) : Option ℚ := do
  let row ← links[i]?
  let linkval ← row[j]?
  linkval

/-- What the element `j` of the row `i` says: the nodes `i` and `i + 1 + j` are connected if its
value is at most 1000. -/
def cellConfig (i j : ℕ) (linkval : ℚ) : PhyLinkConfig where
  nodeId1 := .ofNat 8 i
  nodeId2 := .ofNat 8 (i + 1 + j)
  los := if linkval ≤ 1000 then 1 else 0
  pathlossX100 := 0

/-- A configuration for each number of a message, in order. -/
def listedConfigs (links : List (List (Option ℚ))) : List PhyLinkConfig :=
  (links.mapIdx (fun i row => (row.mapIdx (fun j linkval =>
    linkval.map (cellConfig i j))).reduceOption)).flatten

/-- The pair of `a` and `b`, in any order, is that of the element `j` of the row `i`. -/
def IsPair (i j a b : ℕ) : Prop := a = i ∧ b = i + 1 + j ∨ a = i + 1 + j ∧ b = i

/-- The table `links'` has the listed pairs set, and the others as in `phyLinks`. -/
structure PairsSet (links : List (List (Option ℚ))) (phyLinks links' : LinkArray SimLink) :
    Prop where
  listed : ∀ i j linkval, cell links i j = some linkval → ∀ a b, IsPair i j a b →
    links' a b = ⟨if linkval ≤ 1000 then 1 else 0, 0⟩
  other : ∀ a b, (∀ i j linkval, cell links i j = some linkval → ¬ IsPair i j a b) →
    links' a b = phyLinks a b

/-- The handler gives to `send_mq` a command for each number and no other, all of them are added to
the queue if there is room, and the PHY sets the listed pairs when it handles them. -/
def ConfiguresListed (cap : ℕ) (run : LinkRun) (msg : PhyLinkConfig)
    (links : List (List (Option ℚ))) (phyLinks : LinkArray SimLink) : Prop :=
  ∃ run', handleLinkInfoMsg cap run msg links = some (run', listedConfigs links) ∧
    (run.phyCommand.length + (listedConfigs links).length ≤ cap →
      run'.phyCommand = run.phyCommand ++ listedConfigs links) ∧
    ∃ links', (listedConfigs links).foldlM handleLinkConfigCommand phyLinks = some links' ∧
      PairsSet links phyLinks links'

/-! ### What is sent -/

/-- The configuration of an element, if it is a number. -/
def config (entry : LinkEntry) : Option PhyLinkConfig :=
  entry.link.map (linkConfig entry.node1 entry.node2)

/-- The commands for the elements: that of the last number, or `msg` before the first one. -/
def sentConfigs (msg : PhyLinkConfig) : List LinkEntry → List PhyLinkConfig
  | [] => []
  | entry :: entries =>
      (config entry).getD msg :: sentConfigs ((config entry).getD msg) entries

theorem length_sentConfigs (msg : PhyLinkConfig) (entries : List LinkEntry) :
  (sentConfigs msg entries).length = entries.length
  := by
  induction entries generalizing msg with
  | nil => rfl
  | cons entry entries ih => rw [sentConfigs, List.length_cons, List.length_cons, ih]

/-- An element in range sends its configuration if it has one, and otherwise `msg`. -/
theorem handleLinkEntry_spec (cap : ℕ) (run : LinkRun) {entry : LinkEntry}
    (hlt : entry.node1 < entry.node2) (hrange : entry.node2 < maxNodeId) :
  ∃ run', run.handleLinkEntry cap entry = some run' ∧
    run'.msg = (config entry).getD run.msg ∧
    run'.phyCommand = (sendMq cap run.phyCommand run'.msg).2
  := by
  rw [handleLinkEntry, config]
  cases entry.link with
  | none => exact ⟨_, rfl, rfl, rfl⟩
  | some linkval =>
      have hnodes : ¬ (maxNodeId ≤ entry.node1 ∨ maxNodeId ≤ entry.node2) := by
        omega
      simp only [if_neg hnodes]
      exact ⟨_, rfl, rfl, rfl⟩

/-- The commands for elements in range, and the queue if there is room for them. -/
theorem handleLinkEntries_spec (cap : ℕ) {entries : List LinkEntry}
    (hentries : ∀ entry ∈ entries, entry.node1 < entry.node2 ∧ entry.node2 < maxNodeId)
    (run : LinkRun) :
  ∃ run', handleLinkEntries cap run entries = some (run', sentConfigs run.msg entries) ∧
    (run.phyCommand.length + entries.length ≤ cap →
      run'.phyCommand = run.phyCommand ++ sentConfigs run.msg entries)
  := by
  induction entries generalizing run with
  | nil => exact ⟨run, rfl, fun _ => (List.append_nil _).symm⟩
  | cons entry entries ih =>
      obtain ⟨hentry, hentries⟩ := List.forall_mem_cons.mp hentries
      obtain ⟨run₁, hrun₁, hmsg, hqueue⟩ := handleLinkEntry_spec cap run hentry.1 hentry.2
      obtain ⟨run', hrun', hroom'⟩ := ih hentries run₁
      rw [hmsg] at hrun' hroom' hqueue
      refine ⟨run', ?_, ?_⟩
      · rw [handleLinkEntries, hrun₁, sentConfigs, ← hmsg]
        simp [hrun', hmsg]
      · intro hroom
        rw [List.length_cons] at hroom
        have hqueue₁ : run₁.phyCommand = run.phyCommand ++ [(config entry).getD run.msg] := by
          rw [hqueue, sendMq, if_pos (by omega)]
        rw [hroom' (by rw [hqueue₁, List.length_append, List.length_singleton]; omega), hqueue₁,
          sentConfigs, List.append_assoc, List.singleton_append]

/-- If every element is a number, the commands are the configurations of the elements. -/
theorem sentConfigs_of_numbers {entries : List LinkEntry}
    (h : ∀ entry ∈ entries, entry.link ≠ none) (msg : PhyLinkConfig) :
  sentConfigs msg entries = (entries.map config).reduceOption
  := by
  induction entries generalizing msg with
  | nil => rfl
  | cons entry entries ih =>
      obtain ⟨hentry, hentries⟩ := List.forall_mem_cons.mp h
      obtain ⟨linkval, hlinkval⟩ := Option.ne_none_iff_exists'.mp hentry
      have hconfig : config entry = some (linkConfig entry.node1 entry.node2 linkval) := by
        rw [config, hlinkval, Option.map_some]
      rw [sentConfigs, List.map_cons, hconfig, List.reduceOption_cons_of_some, Option.getD_some,
        ih hentries]

/-! ### What is listed -/

theorem linkConfig_eq (i j : ℕ) :
  linkConfig i (i + 1 + j) = cellConfig i j
  := by
  funext linkval
  rw [linkConfig, cellConfig]
  congr 1
  split_ifs with hgt hle hle
  · apply absurd hle (Rat.not_le.mpr hgt)
  · rfl
  · rfl
  · apply absurd (Rat.not_le.mp hle) hgt

theorem map_mapIdx {α β γ : Type*} (f : ℕ → α → β) (g : β → γ) (l : List α) :
  (l.mapIdx f).map g = l.mapIdx (fun i a => g (f i a))
  := by
  apply List.ext_getElem?
  intro i
  rw [List.getElem?_map, List.getElem?_mapIdx, List.getElem?_mapIdx, Option.map_map]
  rfl

/-- The configurations listed are those of the elements that are numbers. -/
theorem listedConfigs_eq (links : List (List (Option ℚ))) :
  listedConfigs links = ((linkEntries links).map config).reduceOption
  := by
  have hflatten : ∀ rows : List (List (Option PhyLinkConfig)),
      rows.flatten.reduceOption = (rows.map List.reduceOption).flatten := by
    intro rows
    induction rows with
    | nil => rfl
    | cons row rows ih =>
        rw [List.flatten_cons, List.reduceOption_append, ih, List.map_cons, List.flatten_cons]
  rw [linkEntries, List.map_flatten, hflatten, map_mapIdx, map_mapIdx, listedConfigs]
  simp only [map_mapIdx, config, linkConfig_eq]

/-- Every element of a message is a number exactly when the rows hold numbers only. -/
theorem forall_linkEntries_iff {links : List (List (Option ℚ))} :
  (∀ entry ∈ linkEntries links, entry.link ≠ none) ↔ ∀ row ∈ links, none ∉ row
  := by
  constructor
  · intro h row hrow hnone
    obtain ⟨i, hi, rfl⟩ := List.mem_iff_getElem.mp hrow
    obtain ⟨j, hj, hcell⟩ := List.mem_iff_getElem.mp hnone
    have hentry : (⟨i, i + 1 + j, none⟩ : LinkEntry) ∈ linkEntries links := by
      rw [linkEntries, List.mem_flatten]
      refine ⟨_, List.mem_mapIdx.mpr ⟨i, hi, rfl⟩, List.mem_mapIdx.mpr ⟨j, hj, ?_⟩⟩
      rw [hcell]
    apply h _ hentry rfl
  · intro h entry hentry
    rw [linkEntries, List.mem_flatten] at hentry
    obtain ⟨row, hrow, hentry⟩ := hentry
    obtain ⟨i, hi, rfl⟩ := List.mem_mapIdx.mp hrow
    obtain ⟨j, hj, rfl⟩ := List.mem_mapIdx.mp hentry
    intro hnone
    apply h links[i] (List.getElem_mem hi)
    rw [← hnone]
    apply List.getElem_mem hj

theorem mem_listedConfigs {links : List (List (Option ℚ))} {cmd : PhyLinkConfig} :
  cmd ∈ listedConfigs links ↔
    ∃ i j linkval, cell links i j = some linkval ∧ cmd = cellConfig i j linkval
  := by
  simp only [listedConfigs, List.mem_flatten, List.mem_mapIdx, cell]
  constructor
  · rintro ⟨_, ⟨i, hi, rfl⟩, hcmd⟩
    rw [List.reduceOption_mem_iff] at hcmd
    obtain ⟨j, hj, hcell⟩ := List.mem_mapIdx.mp hcmd
    obtain ⟨linkval, hlinkval, rfl⟩ := Option.map_eq_some_iff.mp hcell
    refine ⟨i, j, linkval, ?_, rfl⟩
    simp [List.getElem?_eq_getElem hi, List.getElem?_eq_getElem hj, hlinkval]
  · rintro ⟨i, j, linkval, hcell, rfl⟩
    obtain ⟨row, hrow, hcell⟩ := Option.bind_eq_some_iff.mp hcell
    obtain ⟨linkval', hlinkval', rfl⟩ := Option.bind_eq_some_iff.mp hcell
    obtain ⟨hi, rfl⟩ := List.getElem?_eq_some_iff.mp hrow
    obtain ⟨hj, hlinkval⟩ := List.getElem?_eq_some_iff.mp hlinkval'
    refine ⟨_, ⟨i, hi, rfl⟩, List.reduceOption_mem_iff.mpr (List.mem_mapIdx.mpr ⟨j, hj, ?_⟩)⟩
    rw [hlinkval, Option.map_some]

/-! ### The table of the PHY -/

/-- The configuration `cmd` is for the pair of `a` and `b`. -/
def Touches (cmd : PhyLinkConfig) (a b : ℕ) : Prop :=
  a = cmd.nodeId2.toNat ∧ b = cmd.nodeId1.toNat ∨ a = cmd.nodeId1.toNat ∧ b = cmd.nodeId2.toNat

theorem Touches.setLinkState {cmd : PhyLinkConfig} {a b : ℕ} (h : Touches cmd a b)
    (links : LinkArray SimLink) :
  setLinkState links cmd a b = cmd.simLink
  := by
  rw [setLinkState_apply]
  apply if_pos h

theorem setLinkState_of_not_touches {cmd : PhyLinkConfig} {a b : ℕ} (h : ¬ Touches cmd a b)
    (links : LinkArray SimLink) :
  setLinkState links cmd a b = links a b
  := by
  rw [setLinkState_apply]
  apply if_neg h

/-- A pair that no command is for stays as it is. -/
theorem foldl_setLinkState_of_not_touches {cmds : List PhyLinkConfig} {a b : ℕ}
    (h : ∀ cmd ∈ cmds, ¬ Touches cmd a b) (phyLinks : LinkArray SimLink) :
  cmds.foldl setLinkState phyLinks a b = phyLinks a b
  := by
  induction cmds generalizing phyLinks with
  | nil => rfl
  | cons cmd cmds ih =>
      obtain ⟨hcmd, hcmds⟩ := List.forall_mem_cons.mp h
      rw [List.foldl_cons, ih hcmds, setLinkState_of_not_touches hcmd]

/-- If all the commands for a pair give it the same state, it has that once there is one. -/
theorem foldl_setLinkState_of_touches {cmds : List PhyLinkConfig} {a b : ℕ} {simLink : SimLink}
    (h : ∀ cmd ∈ cmds, Touches cmd a b → cmd.simLink = simLink)
    {cmd : PhyLinkConfig} (hcmd : cmd ∈ cmds) (htouches : Touches cmd a b)
    (phyLinks : LinkArray SimLink) :
  cmds.foldl setLinkState phyLinks a b = simLink
  := by
  induction cmds using List.reverseRecOn with
  | nil => contradiction
  | append_singleton cmds last ih =>
      rw [List.foldl_concat]
      by_cases hlast : Touches last a b
      · rw [hlast.setLinkState]
        apply h last (by simp) hlast
      · rw [setLinkState_of_not_touches hlast]
        have hmem : cmd ∈ cmds := by
          rcases List.mem_append.mp hcmd with hcmd | hcmd
          · apply hcmd
          · rw [List.mem_singleton.mp hcmd] at htouches
            contradiction
        apply ih (fun c hc => h c (List.mem_append_left _ hc)) hmem

/-- The PHY handles commands for nodes that there are. -/
theorem foldlM_handleLinkConfigCommand {cmds : List PhyLinkConfig}
    (h : ∀ cmd ∈ cmds, cmd.nodeId1.toNat < maxNodeId ∧ cmd.nodeId2.toNat < maxNodeId)
    (phyLinks : LinkArray SimLink) :
  cmds.foldlM handleLinkConfigCommand phyLinks = some (cmds.foldl setLinkState phyLinks)
  := by
  induction cmds generalizing phyLinks with
  | nil => rfl
  | cons cmd cmds ih =>
      obtain ⟨hcmd, hcmds⟩ := List.forall_mem_cons.mp h
      have hnodes : ¬ (maxNodeId ≤ cmd.nodeId1.toNat ∨ maxNodeId ≤ cmd.nodeId2.toNat) := by
        omega
      rw [List.foldlM_cons, handleLinkConfigCommand, if_neg hnodes, Option.bind_eq_bind,
        Option.bind_some, ih hcmds, List.foldl_cons]

/-- The numbers of a message are for nodes that there are. -/
theorem lt_of_cell {links : List (List (Option ℚ))}
    (hrange : ∀ entry ∈ linkEntries links, entry.node2 < maxNodeId) {i j : ℕ} {linkval : ℚ}
    (h : cell links i j = some linkval) :
  i + 1 + j < maxNodeId
  := by
  obtain ⟨row, hrow, hcell⟩ := Option.bind_eq_some_iff.mp h
  obtain ⟨linkval', hlinkval', -⟩ := Option.bind_eq_some_iff.mp hcell
  obtain ⟨hi, rfl⟩ := List.getElem?_eq_some_iff.mp hrow
  obtain ⟨hj, -⟩ := List.getElem?_eq_some_iff.mp hlinkval'
  apply hrange ⟨i, i + 1 + j, links[i][j]⟩
  rw [linkEntries, List.mem_flatten]
  exact ⟨_, List.mem_mapIdx.mpr ⟨i, hi, rfl⟩, List.mem_mapIdx.mpr ⟨j, hj, rfl⟩⟩

/-- The nodes of a configuration listed fit into its bytes. -/
theorem cellConfig_nodes {i j : ℕ} (h : i + 1 + j < maxNodeId) (linkval : ℚ) :
  (cellConfig i j linkval).nodeId1.toNat = i ∧ (cellConfig i j linkval).nodeId2.toNat = i + 1 + j
  := by
  have hlt : maxNodeId < 2 ^ 8 := by decide
  exact ⟨toNat_ofNat_of_lt (by omega), toNat_ofNat_of_lt (by omega)⟩

/-- A configuration listed is for one pair. -/
theorem touches_cellConfig {i j a b : ℕ} (h : i + 1 + j < maxNodeId) (linkval : ℚ) :
  Touches (cellConfig i j linkval) a b ↔ IsPair i j a b
  := by
  obtain ⟨hnode1, hnode2⟩ := cellConfig_nodes h linkval
  rw [Touches, hnode1, hnode2]
  apply or_comm

/-- Pairs of different elements are different. -/
theorem IsPair.unique {i j i' j' a b : ℕ} (h : IsPair i j a b) (h' : IsPair i' j' a b) :
  i = i' ∧ j = j'
  := by
  rw [IsPair] at h h'
  omega

theorem cellConfig_simLink (i j : ℕ) (linkval : ℚ) :
  (cellConfig i j linkval).simLink = ⟨if linkval ≤ 1000 then 1 else 0, 0⟩
  := by
  rw [cellConfig, PhyLinkConfig.simLink]
  split_ifs
  · rfl
  · rfl

/-- The PHY sets the listed pairs when it handles the configurations listed. -/
theorem foldl_listedConfigs {links : List (List (Option ℚ))}
    (hrange : ∀ entry ∈ linkEntries links, entry.node2 < maxNodeId)
    (phyLinks : LinkArray SimLink) :
  PairsSet links phyLinks ((listedConfigs links).foldl setLinkState phyLinks)
  := by
  constructor
  · intro i j linkval hcell a b hpair
    have hlt := lt_of_cell hrange hcell
    rw [← cellConfig_simLink i j]
    refine foldl_setLinkState_of_touches ?_ (mem_listedConfigs.mpr ⟨i, j, linkval, hcell, rfl⟩)
      ((touches_cellConfig hlt linkval).mpr hpair) phyLinks
    intro cmd hcmd htouches
    obtain ⟨i', j', linkval', hcell', rfl⟩ := mem_listedConfigs.mp hcmd
    have hpair' := (touches_cellConfig (lt_of_cell hrange hcell') linkval').mp htouches
    obtain ⟨rfl, rfl⟩ := hpair.unique hpair'
    rw [Option.some.inj (hcell.symm.trans hcell')]
  · intro a b hother
    apply foldl_setLinkState_of_not_touches
    intro cmd hcmd htouches
    obtain ⟨i, j, linkval, hcell, rfl⟩ := mem_listedConfigs.mp hcmd
    apply hother i j linkval hcell
    apply (touches_cellConfig (lt_of_cell hrange hcell) linkval).mp htouches

/-! ### The condition -/

/-- For every state of the simulator and the PHY, and every message with nodes in range, the
handler configures the listed pairs and no other exactly when every element is a number. -/
theorem configuresListed_iff (cap : ℕ) (run : LinkRun) (msg : PhyLinkConfig)
    {links : List (List (Option ℚ))} (phyLinks : LinkArray SimLink)
    (hrange : InRange (.linkInfo links msg)) :
  ConfiguresListed cap run msg links phyLinks ↔ ∀ row ∈ links, none ∉ row
  := by
  obtain ⟨run', hrun', hroom⟩ := handleLinkEntries_spec cap
    (fun entry hentry => ⟨linkEntries_lt hentry, hrange entry hentry⟩) { run with msg := msg }
  rw [← forall_linkEntries_iff]
  constructor
  · rintro ⟨run₁, hrun₁, -⟩
    rw [handleLinkInfoMsg, hrun', Option.some.injEq, Prod.mk.injEq] at hrun₁
    -- There is a command for every element, so that none is left out of the list.
    have hlength : (linkEntries links).length = (listedConfigs links).length := by
      rw [← hrun₁.2, length_sentConfigs]
    intro entry hentry hnone
    have hless : ((linkEntries links).map config).reduceOption.length <
        ((linkEntries links).map config).length := by
      apply List.reduceOption_length_lt_iff.mpr
      apply List.mem_map.mpr ⟨entry, hentry, _⟩
      rw [config, hnone, Option.map_none]
    rw [← listedConfigs_eq, List.length_map] at hless
    omega
  · intro hnumbers
    have hsent : sentConfigs msg (linkEntries links) = listedConfigs links := by
      rw [sentConfigs_of_numbers hnumbers, listedConfigs_eq]
    have hlength : (linkEntries links).length = (listedConfigs links).length := by
      rw [← hsent, length_sentConfigs]
    refine ⟨run', ?_, ?_, (listedConfigs links).foldl setLinkState phyLinks, ?_,
      foldl_listedConfigs hrange phyLinks⟩
    · rw [handleLinkInfoMsg, hrun', hsent]
    · rw [← hsent, length_sentConfigs]
      apply hroom
    · apply foldlM_handleLinkConfigCommand
      intro cmd hcmd
      obtain ⟨i, j, linkval, hcell, rfl⟩ := mem_listedConfigs.mp hcmd
      have hlt := lt_of_cell hrange hcell
      obtain ⟨hnode1, hnode2⟩ := cellConfig_nodes hlt linkval
      rw [hnode1, hnode2]
      omega

theorem configuresListed_two :
  ConfiguresListed 3 (init ⟨0, 0, 0, 0⟩) ⟨7, 7, 7, 7⟩ [[some 500, some 2000], [some 1000]]
    initLinkState
  := by
  apply (configuresListed_iff 3 (init ⟨0, 0, 0, 0⟩) ⟨7, 7, 7, 7⟩ initLinkState (by decide)).mpr
  decide

/-- An element that is not a number sends what the one before it has sent. -/
theorem not_configuresListed :
  ¬ ∀ (cap : ℕ) (run : LinkRun) (msg : PhyLinkConfig) (links : List (List (Option ℚ)))
    (phyLinks : LinkArray SimLink), InRange (.linkInfo links msg) →
    ConfiguresListed cap run msg links phyLinks
  := by
  intro hall
  obtain ⟨run', hrun', -⟩ := hall 3 (init ⟨0, 0, 0, 0⟩) ⟨0, 0, 0, 0⟩ [[some 500, none]]
    initLinkState (by decide)
  have hsent : (handleLinkInfoMsg 3 (init ⟨0, 0, 0, 0⟩) ⟨0, 0, 0, 0⟩ [[some 500, none]]).map
      Prod.snd = some [⟨0, 1, 1, 0⟩, ⟨0, 1, 1, 0⟩] := by
    rfl
  have hlisted : listedConfigs [[some 500, none]] = [⟨0, 1, 1, 0⟩] := by
    rfl
  rw [hrun', hlisted] at hsent
  simp at hsent

end LinkRun
