import SyNetsim.Lib.Run
import SyNetsim.Simulator.Config

/-!
# The processes that the simulator starts

`sim_childproc.c`, and what `simulator.c`, `sim_remote_conf.c` and `main.c` do with processes. The
simulator starts a PHY for all nodes and a MAC and a NET for each of them, and keeps their process
ids. It kills what is behind these ids when the front end starts another simulation, and when it
ends.

Each process that runs is recorded, and each id that is recorded belongs to the process that was
started under it (`ChildProcs.Recorded`). The latter is because children that have ended are not
waited for, as `HANDLE_SIGCHLD` is 0: they keep their ids. So none of the processes that were
started before is left, and no other process of the machine is hit.
-/

/-- A program that the simulator executes, and the node for which it does. -/
inductive SimComponent where
  | phy
  | mac (node : ℕ)
  | net (node : ℕ)
deriving DecidableEq

namespace SimComponent

/-- What `start_simnode` starts. -/
def ofNode (i : ℕ) : List SimComponent := [.mac i, .net i]

/-- The PHY, and the programs of the given nodes, in the order in which they are started. -/
def ofNodes (nodes : List ℕ) : List SimComponent := .phy :: nodes.flatMap ofNode

/-- What `simulator_kill_all_process` goes through. -/
def all : List SimComponent := .phy :: (List.range maxNodeId).flatMap (fun i => [.net i, .mac i])

theorem mem_ofNodes {nodes : List ℕ} {c : SimComponent} :
  c ∈ ofNodes nodes ↔ c = .phy ∨ ∃ i ∈ nodes, c = .mac i ∨ c = .net i
  := by
  simp [ofNodes, ofNode]

theorem mem_all {c : SimComponent} :
  c ∈ all ↔ c = .phy ∨ ∃ i < maxNodeId, c = .net i ∨ c = .mac i
  := by
  simp [all]

theorem nodup_ofNodes {nodes : List ℕ} (h : nodes.Nodup) :
  (ofNodes nodes).Nodup
  := by
  rw [ofNodes, List.nodup_cons, List.nodup_flatMap]
  refine ⟨by simp [ofNode], by simp [ofNode], ?_⟩
  apply h.imp
  intro i j hne
  simp [Function.onFun, ofNode, hne.symm]

theorem ofNodes_subset_all {nodes : List ℕ} (h : ∀ i ∈ nodes, i < maxNodeId) {c : SimComponent}
    (hc : c ∈ ofNodes nodes) :
  c ∈ all
  := by
  rw [mem_all]
  rcases mem_ofNodes.mp hc with rfl | ⟨i, hi, hc⟩
  · apply Or.inl rfl
  · apply Or.inr ⟨i, h i hi, hc.symm⟩

end SimComponent

/-- What has a process id: a child of the simulator, which runs or has ended, or a process that has
nothing to do with it. -/
inductive Process where
  | child (c : SimComponent) (running : Bool)
  | other
deriving DecidableEq

/-- The process ids of `SimNode`. -/
structure NodePids where
  macPid : ℤ
  netPid : ℤ
deriving DecidableEq

/-- What `SimulatorCtx` says about processes, and the processes of the machine. The components in
`todo` are those that the simulator is about to start. -/
structure ChildProcs where
  serverMode : Option Bool
  phyPid : ℤ
  nodes : ℕ → NodePids
  todo : List SimComponent
  procs : ℤ → Option Process
  ended : Bool

/-- What the simulator does, one `fork` at a time, and what happens on the machine. -/
inductive ProcEvent where
  | startServer
  | startLocal (activeNode : ℕ → Bool)
  | start (nodenum : ℤ)
  | fork (pid : ℤ)
  | sigchld
  | appExit
  | ends (pid : ℤ)
  | other (pid : ℤ)

/-- `HANDLE_SIGCHLD`. -/
def handlesSigchld : Bool := false

namespace ChildProcs

/-- The process id that is recorded for a component. -/
def pidOf (s : ChildProcs) : SimComponent → ℤ
  | .phy => s.phyPid
  | .mac i => (s.nodes i).macPid
  | .net i => (s.nodes i).netPid

/-- Record the process id of a component. -/
def setPid (s : ChildProcs) (pid : ℤ) : SimComponent → ChildProcs
  | .phy => { s with phyPid := pid }
  | .mac i => { s with nodes := Function.update s.nodes i { s.nodes i with macPid := pid } }
  | .net i => { s with nodes := Function.update s.nodes i { s.nodes i with netPid := pid } }

/-- Change what has a process id. -/
def setProc (s : ChildProcs) (pid : ℤ) (p : Option Process) : ChildProcs :=
  { s with procs := Function.update s.procs pid p }

/-- `kill` with `SIGKILL`. A child keeps its process id until it is waited for. -/
def kill (s : ChildProcs) (pid : ℤ) : ChildProcs :=
  match s.procs pid with
  | some (.child c _) => s.setProc pid (some (.child c false))
  | some .other => s.setProc pid none
  | none => s

/-- Kill the process that is recorded for a component, if there is one. -/
def killRecorded (s : ChildProcs) (c : SimComponent) : ChildProcs :=
  if 0 < s.pidOf c then (s.kill (s.pidOf c)).setPid 0 c else s

/-- `simulator_kill_all_process`. -/
def simulatorKillAllProcess (s : ChildProcs) : ChildProcs :=
  SimComponent.all.foldl killRecorded s

/-- `start_simulate_local`, up to the starting of processes. -/
def startSimulateLocal (s : ChildProcs) (activeNode : ℕ → Bool) : ChildProcs :=
  { s with todo := SimComponent.ofNodes ((List.range maxNodeId).filter activeNode) }

/-- `start_simulate_remote`, up to the starting of processes. -/
def startSimulateRemote (s : ChildProcs) (nodenum : ℤ) : ChildProcs :=
  { s.simulatorKillAllProcess with todo := SimComponent.ofNodes (List.range nodenum.toNat) }

/-- `execute_simulation_component_binary`, where `fork` gives `pid`, with the recording of the
process id. The child of a `fork` that succeeds executes the program. -/
def executeSimulationComponentBinary (s : ChildProcs) (c : SimComponent) (pid : ℤ) :
    Option ChildProcs :=
  if pid = -1 then some (s.setPid pid c)
  else if 0 < pid ∧ s.procs pid = none then
    some ((s.setProc pid (some (.child c true))).setPid pid c)
  else none

/-- `handle_sigchld`: wait for all children that have ended. -/
def handleSigchld (s : ChildProcs) : ChildProcs :=
  { s with
    procs := fun pid => match s.procs pid with
      | some (.child _ false) => none
      | p => p }

/-- What an event does. It gives `none` if the event cannot happen, or if memory is used wrongly. -/
def step (handles : Bool) (s : ChildProcs) (e : ProcEvent) : Option ChildProcs :=
  if s.ended then none
  else match e with
    | .startServer =>
        if s.serverMode = none then some { s with serverMode := some true } else none
    | .startLocal activeNode =>
        if s.serverMode = none then
          some { s.startSimulateLocal activeNode with serverMode := some false }
        else none
    | .start nodenum =>
        if s.serverMode = some true ∧ s.todo = [] ∧ nodenum ≤ maxNodeId then
          some (s.startSimulateRemote nodenum)
        else none
    | .fork pid =>
        match s.todo with
        | [] => none
        | c :: todo => do
            let s ← s.executeSimulationComponentBinary c pid
            return { s with todo := todo }
    | .sigchld => if handles then some s.handleSigchld else none
    | .appExit => some { s.simulatorKillAllProcess with ended := true }
    | .ends pid =>
        match s.procs pid with
        | some (.child c true) => some (s.setProc pid (some (.child c false)))
        | some .other => some (s.setProc pid none)
        | _ => none
    | .other pid =>
        if s.procs pid = none then some (s.setProc pid (some .other)) else none

/-- The simulator has been started on a machine where other processes run. -/
def init (others : List ℤ) : ChildProcs where
  serverMode := none
  phyPid := 0
  nodes _ := ⟨0, 0⟩
  todo := []
  procs pid := if pid ∈ others then some .other else none
  ended := false

variable {s t : ChildProcs} {c d : SimComponent} {pid : ℤ}

/-! ### Process ids -/

@[simp]
theorem pidOf_setPid :
  (s.setPid pid c).pidOf d = if d = c then pid else s.pidOf d
  := by
  cases c <;> cases d <;> simp [setPid, pidOf, Function.update_apply] <;> split_ifs <;> simp_all

@[simp]
theorem procs_setPid :
  (s.setPid pid c).procs = s.procs
  := by
  cases c <;> rfl

@[simp]
theorem todo_setPid :
  (s.setPid pid c).todo = s.todo
  := by
  cases c <;> rfl

@[simp]
theorem serverMode_setPid :
  (s.setPid pid c).serverMode = s.serverMode
  := by
  cases c <;> rfl

theorem pidOf_withTodo {todo : List SimComponent} :
  ChildProcs.pidOf { s with todo := todo } c = s.pidOf c
  := by
  cases c <;> rfl

theorem pidOf_withEnded {ended : Bool} :
  ChildProcs.pidOf { s with ended := ended } c = s.pidOf c
  := by
  cases c <;> rfl

@[simp]
theorem pidOf_setProc {p : Option Process} :
  (s.setProc pid p).pidOf c = s.pidOf c
  := by
  cases c <;> rfl

@[simp]
theorem procs_setProc {p : Option Process} :
  (s.setProc pid p).procs = Function.update s.procs pid p
  := rfl

/-! ### What is recorded about processes -/

/-- Each child that runs is recorded. Each process id that is recorded is that of a child, of the
component it is recorded for, and is among those that are killed. -/
structure Recorded (s : ChildProcs) : Prop where
  running : ∀ pid c, s.procs pid = some (.child c true) → s.pidOf c = pid ∧ 0 < pid
  started : ∀ c, 0 < s.pidOf c →
    (∃ running, s.procs (s.pidOf c) = some (.child c running)) ∧ c ∈ SimComponent.all

/-- The same processes that are not the simulator's run in both states. -/
def Spares (s t : ChildProcs) : Prop :=
  ∀ pid, t.procs pid = some .other ↔ s.procs pid = some .other

theorem Recorded.congr (h : Recorded s) (hpid : ∀ c, t.pidOf c = s.pidOf c)
    (hprocs : t.procs = s.procs) :
  Recorded t
  := by
  refine ⟨?_, ?_⟩
  · intro pid c hrun
    rw [hpid]
    apply h.running pid c (hprocs ▸ hrun)
  · intro c hc
    rw [hpid] at hc ⊢
    rw [hprocs]
    apply h.started c hc

/-- A component that has no process id has no process. -/
theorem Recorded.not_running (h : Recorded s) (hc : s.pidOf c ≤ 0) :
  s.procs pid ≠ some (.child c true)
  := by
  intro hrun
  obtain ⟨rfl, hpos⟩ := h.running pid c hrun
  omega

/-- A child ends, or is killed. -/
theorem Recorded.stops (h : Recorded s) {running : Bool}
    (hpid : s.procs pid = some (.child c running)) :
  Recorded (s.setProc pid (some (.child c false))) ∧
    Spares s (s.setProc pid (some (.child c false)))
  := by
  refine ⟨⟨?_, ?_⟩, ?_⟩
  · intro pid' d hrun
    rw [procs_setProc, Function.update_apply] at hrun
    rw [pidOf_setProc]
    split_ifs at hrun with heq
    · simp at hrun
    · apply h.running pid' d hrun
  · intro d hd
    rw [pidOf_setProc] at hd ⊢
    obtain ⟨⟨running', hrun⟩, hall⟩ := h.started d hd
    refine ⟨?_, hall⟩
    rw [procs_setProc, Function.update_apply]
    split_ifs with heq
    · have hrun' : s.procs pid = some (.child d running') := heq ▸ hrun
      rw [hpid] at hrun'
      obtain ⟨rfl, -⟩ := Process.child.inj (Option.some.inj hrun')
      exact ⟨false, rfl⟩
    · exact ⟨running', hrun⟩
  · intro pid'
    rw [procs_setProc, Function.update_apply]
    split_ifs with heq
    · rw [heq, hpid]
      simp
    · apply Iff.rfl

/-- A process that is not the simulator's begins or ends. -/
theorem Recorded.others (h : Recorded s) (hpid : ∀ c running, s.procs pid ≠ some (.child c running))
    {p : Option Process} (hp : ∀ c running, p ≠ some (.child c running)) :
  Recorded (s.setProc pid p)
  := by
  refine ⟨?_, ?_⟩
  · intro pid' d hrun
    rw [procs_setProc, Function.update_apply] at hrun
    rw [pidOf_setProc]
    split_ifs at hrun with heq
    · apply absurd hrun (hp d true)
    · apply h.running pid' d hrun
  · intro d hd
    rw [pidOf_setProc] at hd ⊢
    obtain ⟨⟨running, hrun⟩, hall⟩ := h.started d hd
    have hne : s.pidOf d ≠ pid := by
      intro heq
      apply hpid d running (heq ▸ hrun)
    exact ⟨⟨running, (Function.update_of_ne hne _ _).trans hrun⟩, hall⟩

/-- The process id of a component without a process is forgotten. -/
theorem Recorded.setPid (h : Recorded s) {x : ℤ} (hx : x ≤ 0)
    (hc : ∀ pid, s.procs pid ≠ some (.child c true)) :
  Recorded (s.setPid x c)
  := by
  refine ⟨?_, ?_⟩
  · intro pid d hrun
    rw [procs_setPid] at hrun
    have hne : d ≠ c := by
      rintro rfl
      apply hc pid hrun
    rw [pidOf_setPid, if_neg hne]
    apply h.running pid d hrun
  · intro d hd
    rw [pidOf_setPid] at hd ⊢
    split_ifs at hd ⊢ with heq
    · omega
    · rw [procs_setPid]
      apply h.started d hd

/-- A component that has no process id is started. -/
theorem Recorded.executes (h : Recorded s) (hc : s.pidOf c ≤ 0) (hall : c ∈ SimComponent.all)
    (hexec : s.executeSimulationComponentBinary c pid = some t) :
  Recorded t
  := by
  rw [executeSimulationComponentBinary] at hexec
  split_ifs at hexec with hfails hfree
  · obtain rfl := Option.some.inj hexec
    apply h.setPid (by omega) (fun _ => h.not_running hc)
  obtain rfl := Option.some.inj hexec
  obtain ⟨hpos, hfree⟩ := hfree
  refine ⟨?_, ?_⟩
  · intro pid' d hrun
    rw [procs_setPid, procs_setProc, Function.update_apply] at hrun
    rw [pidOf_setPid, pidOf_setProc]
    split_ifs at hrun with heq
    · obtain ⟨rfl, -⟩ := Process.child.inj (Option.some.inj hrun)
      rw [if_pos rfl, heq]
      exact ⟨rfl, hpos⟩
    · have hne : d ≠ c := by
        rintro rfl
        apply h.not_running hc hrun
      rw [if_neg hne]
      apply h.running pid' d hrun
  · intro d hd
    rw [pidOf_setPid, pidOf_setProc] at hd ⊢
    rw [procs_setPid]
    split_ifs at hd ⊢ with heq
    · rw [heq]
      exact ⟨⟨true, Function.update_self _ _ _⟩, hall⟩
    · obtain ⟨⟨running, hrun⟩, hall'⟩ := h.started d hd
      have hne : s.pidOf d ≠ pid := by
        intro heq
        rw [heq, hfree] at hrun
        contradiction
      exact ⟨⟨running, (Function.update_of_ne hne _ _).trans hrun⟩, hall'⟩

/-! ### Killing what is recorded -/

/-- Killing changes what is recorded nowhere. -/
theorem kill_frame :
  (∀ c, (s.kill pid).pidOf c = s.pidOf c) ∧ (s.kill pid).todo = s.todo ∧
    (s.kill pid).serverMode = s.serverMode
  := by
  rw [kill]
  split
  · exact ⟨fun _ => pidOf_setProc, rfl, rfl⟩
  · exact ⟨fun _ => pidOf_setProc, rfl, rfl⟩
  · exact ⟨fun _ => rfl, rfl, rfl⟩

theorem pidOf_killRecorded :
  (s.killRecorded c).pidOf d = if d = c ∧ 0 < s.pidOf d then 0 else s.pidOf d
  := by
  rw [killRecorded]
  by_cases hc : 0 < s.pidOf c
  · rw [if_pos hc, pidOf_setPid, kill_frame.1]
    by_cases hd : d = c
    · rw [if_pos hd, if_pos ⟨hd, hd ▸ hc⟩]
    · rw [if_neg hd, if_neg (fun h => hd h.1)]
  · rw [if_neg hc, if_neg]
    rintro ⟨rfl, hd⟩
    apply hc hd

theorem pidOf_foldl_killRecorded (l : List SimComponent) :
  (l.foldl killRecorded s).pidOf d = if d ∈ l ∧ 0 < s.pidOf d then 0 else s.pidOf d
  := by
  induction l generalizing s with
  | nil => simp
  | cons c l ih =>
      rw [List.foldl_cons, ih, pidOf_killRecorded]
      by_cases hd : d = c
      · by_cases hpos : 0 < s.pidOf d
        · simp [hd, hd ▸ hpos]
        · simp [hd, hd ▸ hpos]
      · simp [hd]

theorem killRecorded_frame :
  (s.killRecorded c).todo = s.todo ∧ (s.killRecorded c).serverMode = s.serverMode
  := by
  rw [killRecorded]
  split_ifs
  · rw [todo_setPid, serverMode_setPid]
    apply kill_frame.2
  · exact ⟨rfl, rfl⟩

theorem foldl_killRecorded_frame (l : List SimComponent) :
  (l.foldl killRecorded s).todo = s.todo ∧ (l.foldl killRecorded s).serverMode = s.serverMode
  := by
  induction l generalizing s with
  | nil => exact ⟨rfl, rfl⟩
  | cons c l ih =>
      rw [List.foldl_cons, ih.1, ih.2]
      apply killRecorded_frame

theorem killAll_frame :
  s.simulatorKillAllProcess.todo = s.todo ∧ s.simulatorKillAllProcess.serverMode = s.serverMode
  := by
  rw [simulatorKillAllProcess]
  apply foldl_killRecorded_frame

/-- What is recorded for a component is a child, which is killed. No other process is. -/
theorem Recorded.killRecorded (h : Recorded s) (c : SimComponent) :
  Recorded (s.killRecorded c) ∧ Spares s (s.killRecorded c)
  := by
  rw [ChildProcs.killRecorded]
  split_ifs with hpos
  · obtain ⟨⟨running, hrun⟩, -⟩ := h.started c hpos
    have hkill : s.kill (s.pidOf c) = s.setProc (s.pidOf c) (some (.child c false)) := by
      rw [kill, hrun]
    rw [hkill]
    obtain ⟨hrecorded, hspares⟩ := h.stops hrun
    refine ⟨hrecorded.setPid le_rfl ?_, ?_⟩
    · intro pid hpid
      obtain ⟨hself, -⟩ := hrecorded.running pid c hpid
      rw [pidOf_setProc] at hself
      simp [← hself] at hpid
    · intro pid
      rw [procs_setPid]
      apply hspares pid
  · exact ⟨h, fun _ => Iff.rfl⟩

theorem Recorded.foldl_killRecorded (h : Recorded s) (l : List SimComponent) :
  Recorded (l.foldl ChildProcs.killRecorded s) ∧ Spares s (l.foldl ChildProcs.killRecorded s)
  := by
  induction l generalizing s with
  | nil => exact ⟨h, fun _ => Iff.rfl⟩
  | cons c l ih =>
      obtain ⟨hrecorded, hspares⟩ := h.killRecorded c
      obtain ⟨hrecorded', hspares'⟩ := ih hrecorded
      exact ⟨hrecorded', fun pid => (hspares' pid).trans (hspares pid)⟩

/-- All process ids are forgotten. -/
theorem Recorded.pidOf_killAll (h : Recorded s) (c : SimComponent) :
  s.simulatorKillAllProcess.pidOf c ≤ 0
  := by
  rw [simulatorKillAllProcess, pidOf_foldl_killRecorded]
  split_ifs with hif
  · apply le_rfl
  · by_contra! hpos
    apply hif ⟨(h.started c hpos).2, hpos⟩

/-- All children are killed, and no other process is. -/
theorem Recorded.killAll (h : Recorded s) :
  Recorded s.simulatorKillAllProcess ∧ Spares s s.simulatorKillAllProcess ∧
    ∀ pid c, s.simulatorKillAllProcess.procs pid ≠ some (.child c true)
  := by
  have hkill : Recorded s.simulatorKillAllProcess ∧ Spares s s.simulatorKillAllProcess := by
    rw [simulatorKillAllProcess]
    apply h.foldl_killRecorded
  obtain ⟨hrecorded, hspares⟩ := hkill
  exact ⟨hrecorded, hspares, fun pid c => hrecorded.not_running (h.pidOf_killAll c)⟩

/-! ### Runs -/

/-- What holds in every state. The components that are about to be started are those of a
simulation, and they have no process ids. -/
structure Inv (s : ChildProcs) : Prop where
  recorded : Recorded s
  todo : ∀ c ∈ s.todo, c ∈ SimComponent.all ∧ s.pidOf c ≤ 0
  nodup : s.todo.Nodup
  fresh : s.serverMode = none → s.todo = [] ∧ ∀ c, s.pidOf c ≤ 0

theorem init_inv (others : List ℤ) :
  Inv (init others)
  := by
  have hpid : ∀ c, (init others).pidOf c ≤ 0 := by
    intro c
    cases c <;> apply le_rfl
  refine ⟨⟨?_, ?_⟩, ?_, List.nodup_nil, fun _ => ⟨rfl, hpid⟩⟩
  · intro pid c hrun
    simp only [init] at hrun
    split_ifs at hrun
    simp at hrun
  · intro c hc
    apply absurd hc (not_lt.mpr (hpid c))
  · intro c hc
    contradiction

/-- The invariant is about process ids, processes and what is about to be started. -/
theorem Inv.of_recorded (h : Inv s) (hrecorded : Recorded t) (hpid : ∀ c, t.pidOf c = s.pidOf c)
    (htodo : t.todo = s.todo) (hmode : t.serverMode = s.serverMode) :
  Inv t
  := by
  refine ⟨hrecorded, ?_, ?_, ?_⟩
  · rw [htodo]
    intro c hc
    rw [hpid]
    apply h.todo c hc
  · rw [htodo]
    apply h.nodup
  · intro hnone
    obtain ⟨hnil, hle⟩ := h.fresh (hmode.symm.trans hnone)
    exact ⟨htodo.trans hnil, fun c => (hpid c).trans_le (hle c)⟩

/-- The components of a simulation are about to be started when no process id is left. -/
theorem Inv.of_ofNodes (nodes : List ℕ) (hrecorded : Recorded t) (hpid : ∀ c, t.pidOf c ≤ 0)
    (hnodup : nodes.Nodup) (hnodes : ∀ i ∈ nodes, i < maxNodeId)
    (htodo : t.todo = SimComponent.ofNodes nodes) (hmode : t.serverMode ≠ none) :
  Inv t
  := by
  refine ⟨hrecorded, ?_, ?_, fun hnone => absurd hnone hmode⟩
  · rw [htodo]
    intro c hc
    exact ⟨SimComponent.ofNodes_subset_all hnodes hc, hpid c⟩
  · rw [htodo]
    apply SimComponent.nodup_ofNodes hnodup

/-- A component is started. -/
theorem Inv.fork (h : Inv s) {todo : List SimComponent} (htodo : s.todo = c :: todo)
    (hexec : s.executeSimulationComponentBinary c pid = some t) :
  Inv { t with todo := todo }
  := by
  have hmem : ∀ d ∈ todo, d ∈ s.todo := by
    intro d hd
    rw [htodo]
    apply List.mem_cons_of_mem _ hd
  have hnodup := h.nodup
  rw [htodo, List.nodup_cons] at hnodup
  obtain ⟨hall, hle⟩ := h.todo c (htodo ▸ List.mem_cons_self)
  obtain ⟨s', hpid, hmode, ht⟩ : ∃ s' : ChildProcs, (∀ d, s'.pidOf d = s.pidOf d) ∧
      s'.serverMode = s.serverMode ∧ t = s'.setPid pid c := by
    rw [executeSimulationComponentBinary] at hexec
    split_ifs at hexec
    · exact ⟨s, fun _ => rfl, rfl, (Option.some.inj hexec).symm⟩
    · exact ⟨s.setProc pid _, fun _ => pidOf_setProc, rfl, (Option.some.inj hexec).symm⟩
  refine ⟨(h.recorded.executes hle hall hexec).congr (fun d => by cases d <;> rfl) rfl, ?_,
    hnodup.2, ?_⟩
  · intro d hd
    have hne : d ≠ c := by
      rintro rfl
      apply hnodup.1 hd
    have hpid' : ChildProcs.pidOf { t with todo := todo } d = s.pidOf d := by
      rw [← hpid d]
      calc ChildProcs.pidOf { t with todo := todo } d = t.pidOf d := by cases d <;> rfl
        _ = s'.pidOf d := by rw [ht, pidOf_setPid, if_neg hne]
    rw [hpid']
    apply h.todo d (hmem d hd)
  · intro hnone
    have hnone' : s.serverMode = none := by
      rw [← hmode, ← hnone, ht]
      apply serverMode_setPid.symm
    rw [(h.fresh hnone').1] at htodo
    contradiction

/-- The simulation is started anew. -/
theorem Inv.startSimulateRemote (h : Inv s) {nodenum : ℤ} (hmode : s.serverMode = some true)
    (hle : nodenum ≤ maxNodeId) :
  Inv (s.startSimulateRemote nodenum)
  := by
  have hrecorded := h.recorded.killAll.1
  have hpid := h.recorded.pidOf_killAll
  have hmode' := (killAll_frame (s := s)).2.trans hmode
  rw [ChildProcs.startSimulateRemote]
  generalize s.simulatorKillAllProcess = k at *
  refine Inv.of_ofNodes (List.range nodenum.toNat) ?_ ?_ ?_ ?_ ?_ ?_
  · exact hrecorded.congr (fun _ => pidOf_withTodo) rfl
  · intro c
    rw [pidOf_withTodo]
    apply hpid c
  · apply List.nodup_range
  · intro i hi
    have hi := List.mem_range.mp hi
    omega
  · rfl
  · rw [hmode']
    apply Option.some_ne_none

/-- The simulator ends. -/
theorem Inv.appExit (h : Inv s) :
  Inv { s.simulatorKillAllProcess with ended := true }
  := by
  have hrecorded := h.recorded.killAll.1
  have hpid := h.recorded.pidOf_killAll
  obtain ⟨htodo, hmode⟩ := killAll_frame (s := s)
  generalize s.simulatorKillAllProcess = k at *
  have hpid' : ∀ c, ChildProcs.pidOf { k with ended := true } c ≤ 0 := by
    intro c
    rw [pidOf_withEnded]
    apply hpid c
  refine ⟨hrecorded.congr (fun _ => pidOf_withEnded) rfl, ?_, ?_, ?_⟩
  · intro c hc
    exact ⟨(h.todo c (htodo ▸ hc)).1, hpid' c⟩
  · apply htodo ▸ h.nodup
  · intro hnone
    exact ⟨htodo.trans (h.fresh (hmode.symm.trans hnone)).1, hpid'⟩

/-- Every step keeps the invariant. -/
theorem Inv.step (h : Inv s) {e : ProcEvent} (hstep : step handlesSigchld s e = some t) :
  Inv t
  := by
  cases e with
  | startServer =>
      rw [ChildProcs.step] at hstep
      split_ifs at hstep with hended hnone
      obtain rfl := Option.some.inj hstep
      obtain ⟨hnil, -⟩ := h.fresh hnone
      refine ⟨h.recorded.congr (fun c => by cases c <;> rfl) rfl, ?_, h.nodup, ?_⟩
      · rw [hnil]
        intro c hc
        contradiction
      · intro hmode
        contradiction
  | startLocal activeNode =>
      rw [ChildProcs.step] at hstep
      split_ifs at hstep with hended hnone
      obtain rfl := Option.some.inj hstep
      obtain ⟨-, hle⟩ := h.fresh hnone
      refine Inv.of_ofNodes ((List.range maxNodeId).filter activeNode) ?_ ?_ ?_ ?_ ?_ ?_
      · exact h.recorded.congr (fun c => by cases c <;> rfl) rfl
      · intro c
        apply le_of_eq_of_le _ (hle c)
        cases c <;> rfl
      · apply List.nodup_range.filter
      · intro i hi
        apply List.mem_range.mp (List.mem_filter.mp hi).1
      · rfl
      · apply Option.some_ne_none
  | start nodenum =>
      rw [ChildProcs.step] at hstep
      split_ifs at hstep with hended hif
      obtain rfl := Option.some.inj hstep
      apply h.startSimulateRemote hif.1 hif.2.2
  | fork pid =>
      rw [ChildProcs.step] at hstep
      split_ifs at hstep
      split at hstep
      · contradiction
      next c todo htodo =>
        simp only [Option.bind_eq_bind, Option.bind_eq_some_iff, Option.pure_def,
          Option.some.injEq] at hstep
        obtain ⟨s', hexec, rfl⟩ := hstep
        apply h.fork htodo hexec
  | sigchld => simp [ChildProcs.step, handlesSigchld] at hstep
  | appExit =>
      rw [ChildProcs.step] at hstep
      split_ifs at hstep
      rw [← Option.some.inj hstep]
      apply h.appExit
  | ends pid =>
      rw [ChildProcs.step] at hstep
      split_ifs at hstep
      split at hstep
      next c hpid =>
        obtain rfl := Option.some.inj hstep
        apply h.of_recorded (h.recorded.stops hpid).1 (fun _ => pidOf_setProc) rfl rfl
      next hpid =>
        obtain rfl := Option.some.inj hstep
        apply h.of_recorded (h.recorded.others (by simp [hpid]) (by simp))
          (fun _ => pidOf_setProc) rfl rfl
      · contradiction
  | other pid =>
      rw [ChildProcs.step] at hstep
      split_ifs at hstep with hended hpid
      obtain rfl := Option.some.inj hstep
      apply h.of_recorded (h.recorded.others (by simp [hpid]) (by simp))
        (fun _ => pidOf_setProc) rfl rfl

/-- The states that the simulator gets to. -/
def Run (others : List ℤ) (s : ChildProcs) : Prop :=
  Reaches (step handlesSigchld) (fun _ _ => True) (init others) s

theorem Run.inv {others : List ℤ} (h : Run others s) :
  Inv s
  := by
  apply h.invariant _ (init_inv others)
  intro s e t hs _ hstep
  apply hs.step hstep

/-- The steps after a simulation has been started until another one is. -/
def SameSimulation (_ : ChildProcs) (e : ProcEvent) : Prop := ∀ nodenum, e ≠ .start nodenum

/-- The simulation goes on: no `fork` fails, and the children and the simulator do not end. -/
def Undisturbed (s : ChildProcs) : ProcEvent → Prop
  | .fork pid => pid ≠ -1
  | .ends pid => s.procs pid = some .other
  | .start _ => False
  | .appExit => False
  | _ => True

instance (s : ChildProcs) : (e : ProcEvent) → Decidable (Undisturbed s e)
  | .fork pid => inferInstanceAs (Decidable (pid ≠ -1))
  | .ends pid => inferInstanceAs (Decidable (s.procs pid = some .other))
  | .start _ => inferInstanceAs (Decidable False)
  | .appExit => inferInstanceAs (Decidable False)
  | .startServer => inferInstanceAs (Decidable True)
  | .startLocal _ => inferInstanceAs (Decidable True)
  | .sigchld => inferInstanceAs (Decidable True)
  | .other _ => inferInstanceAs (Decidable True)

/-! ### Simulations that are started anew -/

/-- In the simulation that has been started, only the components in `l` run or are about to be. -/
structure Only (l : List SimComponent) (s : ChildProcs) : Prop where
  mode : s.serverMode ≠ none
  running : ∀ pid c, s.procs pid = some (.child c true) → c ∈ l
  todo : ∀ c ∈ s.todo, c ∈ l

/-- All components in `l` run, but for those that are about to be started. -/
def Runs (l : List SimComponent) (s : ChildProcs) : Prop :=
  ∀ c ∈ l, c ∈ s.todo ∨ ∃ pid, s.procs pid = some (.child c true)

/-- What a start from the configuration file does: the components of the active nodes are about to
be started. -/
theorem Inv.startLocal (h : Inv s) {activeNode : ℕ → Bool}
    (hstep : ChildProcs.step handlesSigchld s (.startLocal activeNode) = some t) :
  (∀ pid c, t.procs pid ≠ some (.child c true)) ∧ t.serverMode ≠ none ∧
    t.todo = SimComponent.ofNodes ((List.range maxNodeId).filter activeNode)
  := by
  rw [ChildProcs.step] at hstep
  split_ifs at hstep with hended hnone
  obtain rfl := Option.some.inj hstep
  refine ⟨?_, Option.some_ne_none _, rfl⟩
  intro pid c
  apply h.recorded.not_running ((h.fresh hnone).2 c)

/-- What a start does: all children are killed, no other process is, and the components of the
nodes are about to be started. -/
theorem Inv.start (h : Inv s) {nodenum : ℤ}
    (hstep : ChildProcs.step handlesSigchld s (.start nodenum) = some t) :
  Spares s t ∧ (∀ pid c, t.procs pid ≠ some (.child c true)) ∧ t.serverMode ≠ none ∧
    t.todo = SimComponent.ofNodes (List.range nodenum.toNat)
  := by
  rw [ChildProcs.step] at hstep
  split_ifs at hstep with hended hif
  obtain ⟨-, hspares, hkilled⟩ := h.recorded.killAll
  have hmode := (killAll_frame (s := s)).2.trans hif.1
  rw [ChildProcs.startSimulateRemote] at hstep
  generalize s.simulatorKillAllProcess = k at *
  obtain rfl := Option.some.inj hstep
  exact ⟨hspares, hkilled, hmode ▸ Option.some_ne_none true, rfl⟩

/-- What a `fork` does: it fails, or the process runs. -/
theorem fork_cases {todo : List SimComponent} (htodo : s.todo = c :: todo)
    (hstep : step handlesSigchld s (.fork pid) = some t) :
  t.serverMode = s.serverMode ∧ t.todo = todo ∧
    ((pid = -1 ∧ t.procs = s.procs) ∨
      s.procs pid = none ∧ t.procs = Function.update s.procs pid (some (.child c true)))
  := by
  rw [step] at hstep
  split_ifs at hstep
  simp only [htodo, Option.bind_eq_bind, Option.bind_eq_some_iff, Option.pure_def,
    Option.some.injEq] at hstep
  obtain ⟨s', hexec, rfl⟩ := hstep
  rw [executeSimulationComponentBinary] at hexec
  split_ifs at hexec with hfails hfree
  · obtain rfl := Option.some.inj hexec
    exact ⟨serverMode_setPid, rfl, Or.inl ⟨hfails, procs_setPid⟩⟩
  · obtain rfl := Option.some.inj hexec
    exact ⟨serverMode_setPid, rfl, Or.inr ⟨hfree.2, procs_setPid⟩⟩

/-- No child begins to run. -/
theorem Only.setProc {l : List SimComponent} (h : Only l s) {p : Option Process}
    (hp : ∀ c, p ≠ some (.child c true)) :
  Only l (s.setProc pid p)
  := by
  refine ⟨h.mode, ?_, h.todo⟩
  intro pid' d hrun
  rw [procs_setProc, Function.update_apply] at hrun
  split_ifs at hrun
  · apply absurd hrun (hp d)
  · apply h.running pid' d hrun

/-- No child ends. -/
theorem Runs.setProc {l : List SimComponent} (h : Runs l s) {p : Option Process}
    (hpid : ∀ c, s.procs pid ≠ some (.child c true)) :
  Runs l (s.setProc pid p)
  := by
  intro c hc
  rcases h c hc with hmem | ⟨pid', hrun⟩
  · apply Or.inl hmem
  · have hne : pid' ≠ pid := by
      rintro rfl
      apply hpid c hrun
    apply Or.inr ⟨pid', (Function.update_of_ne hne _ _).trans hrun⟩

/-- Until the next start, no other components run. -/
theorem Only.step {l : List SimComponent} (h : Only l s) (hinv : Inv s) {e : ProcEvent}
    (hsame : SameSimulation s e) (hstep : step handlesSigchld s e = some t) :
  Only l t
  := by
  cases e with
  | startServer => simp [ChildProcs.step, h.mode] at hstep
  | startLocal activeNode => simp [ChildProcs.step, h.mode] at hstep
  | start nodenum => apply absurd rfl (hsame nodenum)
  | fork pid =>
      cases htodo : s.todo with
      | nil => simp [ChildProcs.step, htodo] at hstep
      | cons c todo =>
          obtain ⟨hmode, htodo', hprocs⟩ := fork_cases htodo hstep
          have hc : ∀ d ∈ c :: todo, d ∈ l := htodo ▸ h.todo
          refine ⟨hmode ▸ h.mode, ?_, ?_⟩
          · intro pid' d hrun
            rcases hprocs with ⟨-, hprocs⟩ | ⟨-, hprocs⟩
            · apply h.running pid' d (hprocs ▸ hrun)
            · rw [hprocs, Function.update_apply] at hrun
              split_ifs at hrun
              · obtain ⟨rfl, -⟩ := Process.child.inj (Option.some.inj hrun)
                apply hc c List.mem_cons_self
              · apply h.running pid' d hrun
          · rw [htodo']
            intro d hd
            apply hc d (List.mem_cons_of_mem _ hd)
  | sigchld => simp [ChildProcs.step, handlesSigchld] at hstep
  | appExit =>
      rw [ChildProcs.step] at hstep
      split_ifs at hstep
      obtain ⟨htodo, hmode⟩ := killAll_frame (s := s)
      obtain ⟨-, -, hkilled⟩ := hinv.recorded.killAll
      generalize s.simulatorKillAllProcess = k at *
      obtain rfl := Option.some.inj hstep
      refine ⟨hmode ▸ h.mode, fun pid c hrun => absurd hrun (hkilled pid c), ?_⟩
      intro c hc
      apply h.todo c (htodo ▸ hc)
  | ends pid =>
      rw [ChildProcs.step] at hstep
      split_ifs at hstep
      split at hstep
      next c hpid =>
        obtain rfl := Option.some.inj hstep
        apply h.setProc (by simp)
      next hpid =>
        obtain rfl := Option.some.inj hstep
        apply h.setProc (by simp)
      · contradiction
  | other pid =>
      rw [ChildProcs.step] at hstep
      split_ifs at hstep with hended hpid
      obtain rfl := Option.some.inj hstep
      apply h.setProc (by simp)

/-- As long as nothing disturbs the simulation, what has been started runs. -/
theorem Runs.step {l : List SimComponent} (h : Runs l s) (hmode : s.serverMode ≠ none)
    {e : ProcEvent} (hclear : Undisturbed s e) (hstep : step handlesSigchld s e = some t) :
  Runs l t
  := by
  cases e with
  | startServer => simp [ChildProcs.step, hmode] at hstep
  | startLocal activeNode => simp [ChildProcs.step, hmode] at hstep
  | start nodenum => apply hclear.elim
  | fork pid =>
      cases htodo : s.todo with
      | nil => simp [ChildProcs.step, htodo] at hstep
      | cons c todo =>
          obtain ⟨-, htodo', ⟨hfails, -⟩ | ⟨hfree, hprocs⟩⟩ := fork_cases htodo hstep
          · apply absurd hfails hclear
          intro d hd
          rw [htodo', hprocs]
          rcases h d hd with hmem | ⟨pid', hrun⟩
          · rcases List.mem_cons.mp (htodo ▸ hmem) with rfl | hmem
            · apply Or.inr ⟨pid, Function.update_self _ _ _⟩
            · apply Or.inl hmem
          · have hne : pid' ≠ pid := by
              rintro rfl
              rw [hfree] at hrun
              contradiction
            apply Or.inr ⟨pid', (Function.update_of_ne hne _ _).trans hrun⟩
  | sigchld => simp [ChildProcs.step, handlesSigchld] at hstep
  | appExit => apply hclear.elim
  | ends pid =>
      have hpid : s.procs pid = some .other := hclear
      rw [ChildProcs.step] at hstep
      split_ifs at hstep
      simp only [hpid] at hstep
      obtain rfl := Option.some.inj hstep
      apply h.setProc (by simp [hpid])
  | other pid =>
      rw [ChildProcs.step] at hstep
      split_ifs at hstep with hended hpid
      obtain rfl := Option.some.inj hstep
      apply h.setProc (by simp [hpid])

theorem Undisturbed.same {e : ProcEvent} (h : Undisturbed s e) :
  SameSimulation s e
  := by
  rintro nodenum rfl
  apply h

/-- A simulation begins when no child runs and all its components are about to be started. -/
theorem Only.begin {l : List SimComponent} (hmode : s.serverMode ≠ none)
    (hkilled : ∀ pid c, s.procs pid ≠ some (.child c true)) (htodo : s.todo = l) :
  Only l s
  := by
  refine ⟨hmode, fun pid c hrun => absurd hrun (hkilled pid c), ?_⟩
  rw [htodo]
  intro c hc
  apply hc

/-- What is known of a simulation from its beginning on. -/
theorem Only.run {l : List SimComponent} {u : ChildProcs} (h : Only l t) (hinv : Inv t)
    (hafter : Reaches (ChildProcs.step handlesSigchld) SameSimulation t u) :
  Inv u ∧ Only l u
  := by
  apply hafter.invariant
  · rintro s e t ⟨hinv, honly⟩ hsame hstep
    exact ⟨hinv.step hstep, honly.step hinv hsame hstep⟩
  · exact ⟨hinv, h⟩

/-- If nothing disturbs a simulation, exactly its components run in the end. -/
theorem Only.running_iff {l : List SimComponent} {u : ChildProcs} (h : Only l t) (hinv : Inv t)
    (hl : t.todo = l) (hafter : Reaches (ChildProcs.step handlesSigchld) Undisturbed t u)
    (htodo : u.todo = []) (c : SimComponent) :
  (∃ pid, u.procs pid = some (.child c true)) ↔ c ∈ l
  := by
  have hall : (Inv u ∧ Only l u) ∧ Runs l u := by
    apply hafter.invariant
    · rintro s e t ⟨⟨hinv, honly⟩, hruns⟩ hclear hstep
      exact ⟨⟨hinv.step hstep, honly.step hinv hclear.same hstep⟩,
        hruns.step honly.mode hclear hstep⟩
    · exact ⟨⟨hinv, h⟩, fun c hc => Or.inl (hl ▸ hc)⟩
  obtain ⟨⟨-, honly⟩, hruns⟩ := hall
  constructor
  · rintro ⟨pid, hrun⟩
    apply honly.running pid c hrun
  · intro hc
    rcases hruns c hc with hmem | hrun
    · rw [htodo] at hmem
      contradiction
    · apply hrun

/-- If nothing disturbs a simulation that is started from the configuration file, exactly the PHY
and the programs of the active nodes run in the end. -/
theorem Run.startLocal {others : List ℤ} {u : ChildProcs} (h : Run others s)
    {activeNode : ℕ → Bool}
    (hstart : ChildProcs.step handlesSigchld s (.startLocal activeNode) = some t)
    (hafter : Reaches (ChildProcs.step handlesSigchld) Undisturbed t u) (htodo : u.todo = [])
    (c : SimComponent) :
  (∃ pid, u.procs pid = some (.child c true)) ↔
    c ∈ SimComponent.ofNodes ((List.range maxNodeId).filter activeNode)
  := by
  obtain ⟨hnone, hmode, hl⟩ := h.inv.startLocal hstart
  apply (Only.begin hmode hnone hl).running_iff (h.inv.step hstart) hl hafter htodo

/-- Whenever the simulator ends, all its children are killed, and no other process is. -/
theorem Run.appExit {others : List ℤ} (h : Run others s)
    (hexit : ChildProcs.step handlesSigchld s .appExit = some t) :
  Spares s t ∧ ∀ pid c, t.procs pid ≠ some (.child c true)
  := by
  obtain ⟨-, hkilled⟩ := h.inv.recorded.killAll
  rw [ChildProcs.step] at hexit
  split_ifs at hexit
  generalize s.simulatorKillAllProcess = k at *
  obtain rfl := Option.some.inj hexit
  apply hkilled

/-- If children were waited for, a process that has got the id of one that has ended would be
killed. -/
theorem start_kills_other :
  ∃ s t : ChildProcs, Reaches (step true) (fun _ _ => True) (init []) s ∧
    step true s (.start 1) = some t ∧ ¬ Spares s t
  := by
  have hrun : (([.startServer, .start 1, .fork 7, .fork 8, .fork 9, .ends 9, .sigchld,
      .other 9].foldlM (step true) (init [])).bind fun s =>
        (step true s (.start 1)).map fun t => (s.procs 9, t.procs 9)) =
      some (some .other, none) := by
    decide +kernel
  obtain ⟨s, hs, hrun⟩ := Option.bind_eq_some_iff.mp hrun
  obtain ⟨t, hstart, hend⟩ := Option.map_eq_some_iff.mp hrun
  obtain ⟨hother, hnone⟩ := Prod.mk.inj hend
  refine ⟨s, t, Reaches.of_foldlM hs, hstart, ?_⟩
  intro hspares
  have hkept := (hspares 9).mpr hother
  simp [hnone] at hkept

end ChildProcs
