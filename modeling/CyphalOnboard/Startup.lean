import CyphalOnboard.Node
import CyphalOnboard.Periods

namespace CyphalOnboard

open OpenCyphal

section Due

variable {K : TaskClass}

/-- A call that finds no task due changes nothing. -/
theorem runTasks_idle {env : ℕ → K.Env} {time : UInt64} {tasks : List (Task K)} {host : K.Host}
    (h : ∀ task ∈ tasks, ¬ task.nextRun ≤ time) (pos : ℕ) :
    runTasks env time pos tasks host = (tasks, host, []) := by
  induction tasks generalizing pos with
  | nil => rfl
  | cons task tasks ih =>
    obtain ⟨htask, htasks⟩ := List.forall_mem_cons.mp h
    rw [runTasks_skip fun hdue => htask hdue.2]
    simp only [ih htasks]

/-- The first task that is due executes. -/
theorem runTasks_executes {time : UInt64} {tasks : List (Task K)} {task : Task K}
    (hmem : task ∈ tasks) (hdue : task.nextRun ≤ time) (env : ℕ → K.Env) {host : K.Host}
    (hrun : K.running host) (pos : ℕ) : (runTasks env time pos tasks host).2.2 ≠ [] := by
  induction tasks generalizing pos with
  | nil => cases hmem
  | cons first tasks ih =>
    by_cases h : time ≥ first.nextRun
    · rw [runTasks_execute ⟨hrun, h⟩]
      exact List.cons_ne_nil _ _
    · rw [runTasks_skip fun hc => h hc.2]
      apply ih
      rcases List.mem_cons.mp hmem with rfl | hmem
      · exact absurd hdue h
      · exact hmem

theorem checkScheduler_idle {s : Scheduler K} {time : UInt64}
    (h : s.online = false ∨ ∀ task ∈ s.schedule, ¬ task.nextRun ≤ time) (env : ℕ → K.Env) :
    s.checkScheduler env time = (s, []) := by
  unfold Scheduler.checkScheduler
  split_ifs with hon
  · rw [runTasks_idle (h.resolve_left (by simp [hon])) 0]
  · rfl

/-- Where `CheckScheduler` is not called, or called on a node that is offline, a task is left as it
is. -/
theorem runSteps_idle {steps : List (NodeStep K)} {s : Scheduler K}
    (h : polls steps = [] ∨ s.online = false ∧ ∀ startedAt, .startNode startedAt ∉ steps) {p : ℕ}
    {task : Task K} (hp : s.schedule[p]? = some task) :
    (runSteps s steps).1.schedule[p]? = some task := by
  induction steps generalizing s with
  | nil => exact hp
  | cons step steps ih =>
    by_cases hrun : K.running s.host
    swap
    · rw [runSteps_ended hrun]
      exact hp
    rw [runSteps_cons hrun]
    cases hpoll : step.poll with
    | none =>
      apply ih ?_ (run_of_no_poll hpoll hp).2
      rw [polls_cons_of_no_poll hpoll] at h
      refine h.imp_right fun h => ⟨?_, fun x hx => h.2 x (List.mem_cons_of_mem _ hx)⟩
      cases step with
      | startNode startedAt => exact absurd (List.mem_cons_self ..) (h.2 startedAt)
      | schedule task => exact h.1
      | other f => exact h.1
      | checkScheduler env time => cases hpoll
    | some time =>
      rw [polls_cons_of_poll hpoll] at h
      obtain ⟨hoff, hstart⟩ := h.resolve_left (List.cons_ne_nil _ _)
      cases step with
      | checkScheduler env t =>
        rw [NodeStep.run, checkScheduler_idle (.inl hoff)]
        exact ih (.inr ⟨hoff, fun x hx => hstart x (List.mem_cons_of_mem _ hx)⟩) hp
      | _ => cases hpoll

end Due

variable {C : Canard} {τ : Type} {R : ℕ}

/-- What is done with a node that is not started yet. -/
inductive Preparation (C : Canard) (τ : Type) (R : ℕ) where
  | schedule (task : Task (nodeTasks C τ R))
  | subscribe (kind : CanardTransferKind) (portId : CanardPortID) (extent : ℕ)
      (timeout : CanardMicrosecond)
  | checkScheduler (env : ℕ → TaskEnv) (time : UInt64)

namespace Preparation

def step : Preparation C τ R → NodeStep (nodeTasks C τ R)
  | schedule task => .schedule task
  | subscribe kind portId extent timeout => .other fun node : NodeCore C τ R =>
    { node with base := (node.base.subscribe kind portId extent timeout).1 }
  | checkScheduler env time => .checkScheduler env time

end Preparation

/-- No task executes and nothing is pushed. -/
structure Silent (node : Node C τ R) (preparations : List (Preparation C τ R)) : Prop where
  executions : (runSteps node (preparations.map Preparation.step)).2 = []
  events : (runSteps node (preparations.map Preparation.step)).1.host.base.events =
    node.host.base.events

/-- With `tasks` scheduled so far, no `CheckScheduler` call comes at or after the `next_run_` of a
task that is scheduled by then. -/
def NoneDue (tasks : List (Task (nodeTasks C τ R))) : List (Preparation C τ R) → Prop
  | [] => True
  | .schedule task :: preparations => NoneDue (tasks ++ [task]) preparations
  | .subscribe _ _ _ _ :: preparations => NoneDue tasks preparations
  | .checkScheduler _ time :: preparations =>
    (∀ task ∈ tasks, ¬ task.nextRun ≤ time) ∧ NoneDue tasks preparations

/-- A preparation without an execution or a push leaves the rest to be silent. -/
theorem silent_cons {node : Node C τ R} (preparation : Preparation C τ R)
    (preparations : List (Preparation C τ R)) (hrun : (nodeTasks C τ R).running node.host)
    (h : (preparation.step.run node).2 = [])
    (he : (preparation.step.run node).1.host.base.events = node.host.base.events) :
    Silent node (preparation :: preparations) ↔
      Silent (preparation.step.run node).1 preparations := by
  have hcons : runSteps node ((preparation :: preparations).map Preparation.step) =
      runSteps (preparation.step.run node).1 (preparations.map Preparation.step) := by
    rw [List.map_cons, runSteps_cons hrun, h]
    rfl
  constructor
  · rintro ⟨h1, h2⟩
    rw [hcons] at h1 h2
    exact ⟨h1, h2.trans he.symm⟩
  · rintro ⟨h1, h2⟩
    rw [← hcons] at h1 h2
    exact ⟨h1, h2.trans he⟩

theorem silent_iff_noneDue (preparations : List (Preparation C τ R)) (node : Node C τ R)
    (hrun : (nodeTasks C τ R).running node.host) :
    Silent node preparations ↔ node.online = false ∨ NoneDue node.schedule preparations := by
  induction preparations generalizing node with
  | nil => exact ⟨fun _ => .inr trivial, fun _ => ⟨rfl, rfl⟩⟩
  | cons preparation preparations ih =>
    cases preparation with
    | schedule task =>
      apply (silent_cons (.schedule task) preparations hrun rfl rfl).trans
      exact ih (node.addTask task) hrun
    | subscribe kind portId extent timeout =>
      have hc : node.host.base.crashed = none := Option.isNone_iff_eq_none.mp hrun
      have hsub : (node.host.base.subscribe kind portId extent timeout).1.crashed = none ∧
          (node.host.base.subscribe kind portId extent timeout).1.events =
            node.host.base.events := by
        simp only [subscribe, hc, and_self]
      apply (silent_cons (.subscribe kind portId extent timeout) preparations hrun rfl hsub.2).trans
      apply ih
      exact Option.isNone_iff_eq_none.mpr hsub.1
    | checkScheduler env time =>
      by_cases hidle : node.online = false ∨ ∀ task ∈ node.schedule, ¬ task.nextRun ≤ time
      · have hcall : (NodeStep.checkScheduler env time).run node = (node, []) :=
          checkScheduler_idle hidle env
        have hskip := silent_cons (.checkScheduler env time) preparations hrun
          (congrArg Prod.snd hcall) (by rw [Preparation.step, hcall])
        rw [Preparation.step, hcall, ih node hrun] at hskip
        rw [hskip, NoneDue]
        tauto
      -- the call finds a task due: it executes
      · obtain ⟨hon, hdue⟩ := not_or.mp hidle
        simp only [not_forall, not_not] at hdue
        obtain ⟨task, hmem, hdue⟩ := hdue
        have hexec := runTasks_executes hmem hdue env hrun 0
        constructor
        · intro h
          have hnone := h.executions
          rw [List.map_cons, runSteps_cons hrun, List.append_eq_nil_iff] at hnone
          simp only [Preparation.step, NodeStep.run, Scheduler.checkScheduler,
            if_pos (Bool.eq_true_of_not_eq_false hon)] at hnone
          exact absurd hnone.1 hexec
        · rintro (hoff | hnone)
          · exact absurd hoff hon
          · exact absurd hdue (hnone.1 task hmem)

/-- A node is silent until it is started exactly when the memory of `online_` read false, or when
none of the tasks was due by what the memory of its `next_run_` held. -/
theorem silent_iff (nodeId : CanardNodeID) (transceiver : τ) (info : GetInfoResponse)
    (latency : Option (Fin 32 → UInt64)) (online : Bool) (nextRun : UInt64)
    (preparations : List (Preparation C τ R)) :
    Silent (Node.construct nodeId transceiver info latency online nextRun) preparations ↔
      online = false ∨ NoneDue [⟨nextRun, .heartbeat (.construct .own 1000000)⟩] preparations :=
  silent_iff_noneDue preparations _ rfl

/-- A node whose `online_` reads true sends a heartbeat before it is started. -/
theorem not_silent_online :
    ¬ Silent (Node.construct 1 () heartbeatNode.host.info none true 0 :
      Node SingleFrame.canard Unit 1) [.checkScheduler (fun _ => quietEnv) 0] := by
  intro h
  have hlen := congrArg List.length h.executions
  revert hlen
  decide

section FirstCall

variable {K : TaskClass}

/-- On a node a task has just been scheduled on, the next call after `steps` is the first one since
the task is scheduled and the node is started. -/
def BeforeFirstCall (s : Scheduler K) (steps : List (NodeStep K)) : Prop :=
  s.online ∧ polls steps = [] ∨
    ∃ earlier startedAt later, steps = earlier ++ .startNode startedAt :: later ∧
      (∀ x, .startNode x ∉ earlier) ∧ polls later = []

theorem BeforeFirstCall.online {s : Scheduler K} {steps : List (NodeStep K)}
    (h : BeforeFirstCall s steps) (hrun : K.running (runSteps s steps).1.host) :
    (runSteps s steps).1.online := by
  rcases h with ⟨hon, -⟩ | ⟨earlier, startedAt, later, rfl, -, -⟩
  · exact runSteps_online hon steps
  · rw [runSteps_append] at hrun ⊢
    by_cases hmid : K.running (runSteps s earlier).1.host
    · rw [runSteps_cons hmid]
      apply runSteps_online
      rfl
    · rw [runSteps_ended hmid] at hrun
      exact absurd hrun hmid

/-- Before the first call a task is as it was scheduled, unless the node was called while offline
and ran the task although it was not started. -/
theorem BeforeFirstCall.task {s : Scheduler K} {steps : List (NodeStep K)}
    (h : BeforeFirstCall s steps) (hoff : s.online → polls steps = []) {p : ℕ} {task : Task K}
    (hp : s.schedule[p]? = some task) : (runSteps s steps).1.schedule[p]? = some task := by
  by_cases hon : s.online
  · exact runSteps_idle (.inl (hoff hon)) hp
  · rcases h with ⟨hon', -⟩ | ⟨earlier, startedAt, later, rfl, hstart, hlater⟩
    · exact absurd hon' hon
    · rw [runSteps_append]
      have hp' := runSteps_idle (.inr ⟨by simpa using hon, hstart⟩) hp
      apply runSteps_idle (.inl ?_) hp'
      rw [polls_cons_of_no_poll rfl]
      exact hlater

/-- A task keeps its place in the schedule. -/
theorem runSteps_scheduled (steps : List (NodeStep K)) {s : Scheduler K} {p : ℕ} {task : Task K}
    (hp : s.schedule[p]? = some task) :
    ∃ task', (runSteps s steps).1.schedule[p]? = some task' := by
  induction steps generalizing s task with
  | nil => exact ⟨task, hp⟩
  | cons step steps ih =>
    by_cases hrun : K.running s.host
    · rw [runSteps_cons hrun]
      rcases run_task hp step with ⟨-, hp'⟩ | ⟨env, time, host, -, -, -, -, hp', -⟩
      · exact ih hp'
      · exact ih hp'
    · rw [runSteps_ended hrun]
      exact ⟨task, hp⟩

/-- A call executes a task exactly if the task is due and none of those before it has ended the
process. -/
theorem checkScheduler_executes_iff {s : Scheduler K} (hon : K.running s.host → s.online)
    (env : ℕ → K.Env) (time : UInt64) {p : ℕ} {task : Task K} (hp : s.schedule[p]? = some task) :
    executionTimes p (s.checkScheduler env time).2 = [time.toNat] ↔
      K.running (runTasks env time 0 (s.schedule.take p) s.host).2.1 ∧ task.nextRun ≤ time := by
  obtain ⟨pre, post, hs, rfl⟩ := split_of_getElem hp
  rw [hs, List.take_left]
  unfold Scheduler.checkScheduler
  split_ifs with honline
  · rw [executionTimes, hs, runTasks_filter]
    by_cases h : K.running (runTasks env time 0 pre s.host).2.1 ∧ time ≥ task.nextRun
    · simp only [if_pos h]
      exact iff_of_true rfl h
    · simp only [if_neg h]
      exact iff_of_false (List.cons_ne_nil _ _).symm h
  · have hended : ¬ K.running s.host := fun h => honline (hon h)
    rw [runTasks_ended hended]
    exact iff_of_false (List.cons_ne_nil _ _).symm fun h => hended h.1

/-- In a call that returns none of the tasks has ended the process. -/
theorem running_of_checkScheduler {s : Scheduler K} {env : ℕ → K.Env} {time : UInt64}
    (h : K.running (s.checkScheduler env time).1.host) (hon : K.running s.host → s.online) {p : ℕ}
    {task : Task K} (hp : s.schedule[p]? = some task) :
    K.running (runTasks env time 0 (s.schedule.take p) s.host).2.1 := by
  obtain ⟨pre, post, hs, rfl⟩ := split_of_getElem hp
  rw [hs, List.take_left]
  unfold Scheduler.checkScheduler at h
  split_ifs at h with honline
  · rw [hs] at h
    exact running_of_runTasks h
  · exact absurd (hon h) honline

end FirstCall

/-- The first call after a task is scheduled and the node is started executes the task exactly when
its `next_run_` is not ahead of the call and no task before it ends the process, which none does in
a call that returns. No constructor has written `next_run_`: unless the task ran before the node
was started, it is what the memory held. -/
theorem first_call_executes_iff (node : Node C τ R) (task : Task (nodeTasks C τ R))
    (steps : List (NodeStep (nodeTasks C τ R))) (hfirst : BeforeFirstCall (node.addTask task) steps)
    (env : ℕ → TaskEnv) (time : UInt64) :
    let before := (runSteps (node.addTask task) steps).1
    let call := before.checkScheduler env time
    let reached := (runTasks env time 0 (before.schedule.take node.schedule.length) before.host).2.1
    ∃ task', before.schedule[node.schedule.length]? = some task' ∧
      ((node.online → polls steps = []) → task' = task) ∧
      (executionTimes node.schedule.length call.2 = [time.toNat] ↔
        (nodeTasks C τ R).running reached ∧ task'.nextRun ≤ time) ∧
      ((nodeTasks C τ R).running call.1.host →
        (executionTimes node.schedule.length call.2 = [time.toNat] ↔ task'.nextRun ≤ time)) := by
  intro before call reached
  have hp : (node.addTask task).schedule[node.schedule.length]? = some task := by
    simp [Scheduler.addTask]
  obtain ⟨task', hp'⟩ := runSteps_scheduled steps hp
  have hexec := checkScheduler_executes_iff hfirst.online env time hp'
  refine ⟨task', hp', fun hoff => ?_, hexec, fun hrun => ?_⟩
  · exact Option.some.inj (hp'.symm.trans (hfirst.task hoff hp))
  · exact hexec.trans (and_iff_right (running_of_checkScheduler hrun hfirst.online hp'))

/-- A second heartbeat task whose `next_run_` reads `nextRun`. -/
def secondHeartbeat (nextRun : UInt64) : Task (nodeTasks SingleFrame.canard Unit 1) :=
  ⟨nextRun, .heartbeat (.construct .own 1000000)⟩

/-- The heartbeat of the node before the task, at its first call. -/
def afterFirstHeartbeat : NodeCore SingleFrame.canard Unit 1 :=
  (runTasks (K := nodeTasks SingleFrame.canard Unit 1) (fun _ => quietEnv) 5 0
    heartbeatNode.schedule heartbeatNode.host).2.1

theorem first_call_executes_iff_zeroed :
    ∃ task', (runSteps (heartbeatNode.addTask (secondHeartbeat 0)) []).1.schedule[1]? =
        some task' ∧
      ((heartbeatNode.online → polls (K := nodeTasks SingleFrame.canard Unit 1) [] = []) →
        task' = secondHeartbeat 0) ∧
      (executionTimes 1 ((runSteps (heartbeatNode.addTask (secondHeartbeat 0)) []).1.checkScheduler
          (fun _ => quietEnv) 5).2 = [5] ↔
        (nodeTasks SingleFrame.canard Unit 1).running afterFirstHeartbeat ∧ task'.nextRun ≤ 5) ∧
      ((nodeTasks SingleFrame.canard Unit 1).running
          ((runSteps (heartbeatNode.addTask (secondHeartbeat 0)) []).1.checkScheduler
            (fun _ => quietEnv) 5).1.host →
        (executionTimes 1
          ((runSteps (heartbeatNode.addTask (secondHeartbeat 0)) []).1.checkScheduler
            (fun _ => quietEnv) 5).2 = [5] ↔ task'.nextRun ≤ 5)) :=
  first_call_executes_iff heartbeatNode (secondHeartbeat 0) [] (.inl ⟨rfl, rfl⟩)
    (fun _ => quietEnv) 5

/-- A task whose `next_run_` reads 2^63 does not run at a call one second after the start. -/
theorem first_call_passed_over :
    BeforeFirstCall (heartbeatNode.addTask (secondHeartbeat 9223372036854775808)) [] ∧
      executionTimes 1 ((heartbeatNode.addTask (secondHeartbeat 9223372036854775808)).checkScheduler
        (fun _ => quietEnv) 1000000).2 = [] :=
  ⟨.inl ⟨rfl, rfl⟩, by decide⟩

end CyphalOnboard
