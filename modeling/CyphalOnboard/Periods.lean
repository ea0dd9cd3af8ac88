import CyphalOnboard.Node
import CyphalOnboard.SingleFrameCanard

namespace CyphalOnboard

open Polling

variable {K : TaskClass}

theorem runSteps_online {s : Scheduler K} (h : s.online) (steps : List (NodeStep K)) :
    (runSteps s steps).1.online := by
  induction steps generalizing s with
  | nil => exact h
  | cons step steps ih =>
    by_cases hrun : K.running s.host
    · rw [runSteps_cons hrun]
      exact ih (run_online h step)
    · rw [runSteps_ended hrun]
      exact h

/-- The last step of a run. -/
theorem runSteps_snoc (s : Scheduler K) (steps : List (NodeStep K)) (step : NodeStep K) :
    runSteps s (steps ++ [step]) =
      if K.running (runSteps s steps).1.host then
        (((step.run (runSteps s steps).1).1),
          (runSteps s steps).2 ++ (step.run (runSteps s steps).1).2)
      else runSteps s steps := by
  rw [runSteps_append]
  by_cases hrun : K.running (runSteps s steps).1.host
  · rw [if_pos hrun, runSteps_cons hrun]
    simp [runSteps]
  · rw [if_neg hrun, runSteps_ended hrun]
    simp

/-- A `CheckScheduler` call of a run executes the due tasks in scheduling order. -/
theorem call_positions {s : Scheduler K} (hon : s.online) (pre : List (NodeStep K))
    (env : ℕ → K.Env) (time : UInt64) :
    ∃ executions,
      (runSteps s (pre ++ [.checkScheduler env time])).2 = (runSteps s pre).2 ++ executions ∧
      (∀ e ∈ executions, e.time = time) ∧
      executions.map Execution.task <+: duePositions time 0 (runSteps s pre).1.schedule ∧
      (K.running (runSteps s (pre ++ [.checkScheduler env time])).1.host →
        executions.map Execution.task = duePositions time 0 (runSteps s pre).1.schedule) := by
  rw [runSteps_snoc]
  have hon' := runSteps_online hon pre
  generalize runSteps s pre = r at hon'
  by_cases hrun : K.running r.1.host
  · have hpos := runTasks_positions env time 0 r.1.schedule r.1.host
    have htime := runTasks_time env time 0 r.1.schedule r.1.host
    simp only [hrun, if_true, NodeStep.run, Scheduler.checkScheduler, if_pos hon']
    exact ⟨_, rfl, fun e he => (htime e he).1, hpos.1, hpos.2⟩
  · rw [if_neg hrun]
    exact ⟨[], by simp, by simp, List.nil_prefix, fun h => absurd h hrun⟩

/-- What the scheduler owes its tasks over a run: each call that returns has executed those that
were due, once and in scheduling order, one that ends the process the first of them, and two
consecutive executions of a task are its interval apart, up to one gap between the calls. -/
structure Spaced (delta : ℕ) (s : Scheduler K) (steps : List (NodeStep K)) : Prop where
  calls : ∀ pre env time post, steps = pre ++ .checkScheduler env time :: post →
    ∃ executions,
      (runSteps s (pre ++ [.checkScheduler env time])).2 = (runSteps s pre).2 ++ executions ∧
      (∀ e ∈ executions, e.time = time) ∧
      executions.map Execution.task <+: duePositions time 0 (runSteps s pre).1.schedule ∧
      (K.running (runSteps s (pre ++ [.checkScheduler env time])).1.host →
        executions.map Execution.task = duePositions time 0 (runSteps s pre).1.schedule)
  executions : ∀ (p : ℕ) (task : Task K), s.schedule[p]? = some task → ∀ earlier e e' later,
    executionTimes p (runSteps s steps).2 = earlier ++ e :: e' :: later →
      e + task.interval.toNat ≤ e' ∧ e' ≤ e + task.interval.toNat + delta

/-- Started nodes space the executions of their tasks over every run of paced calls. -/
theorem executions_spaced (delta : ℕ) (s : Scheduler K) (hon : s.online)
    (steps : List (NodeStep K)) (hpaced : Paced delta (polls steps))
    (hov : ∀ task ∈ s.schedule, ∀ t ∈ polls steps, t + task.interval.toNat < 2 ^ 64) :
    Spaced delta s steps where
  calls pre env time _ _ := call_positions hon pre env time
  executions p task hp earlier e e' later htimes := by
    obtain ⟨n, hfire, -⟩ := runSteps_fire steps hon hp (hov task (List.mem_of_getElem? hp))
    rw [htimes] at hfire
    exact ⟨fire_spacing hfire.symm, fire_gap (hpaced.take n) hfire.symm⟩

/-- A started node with its heartbeat task due at once. -/
def heartbeatNode : Node SingleFrame.canard Unit 1 :=
  (Node.construct 1 ()
    { protocolVersion := ⟨1, 0⟩, hardwareVersion := ⟨0, 0⟩, softwareVersion := ⟨1, 0⟩,
      softwareVcsRevisionId := 0, uniqueId := List.replicate 16 0, name := ⟨[], 0⟩,
      softwareImageCrc := ⟨[0], 0⟩, certificateOfAuthenticity := ⟨[], 0⟩ }
    none false 0).startNode 0

def quietEnv : TaskEnv where
  clock := 0
  parentStartedAt := 0
  dataAddress := 0
  frame := ⟨fun _ => 0, ⟨List.replicate 256 0, 0⟩, List.length_replicate⟩

/-- `CheckScheduler` calls at the times given. -/
def callsAt (times : List UInt64) : List (NodeStep (nodeTasks SingleFrame.canard Unit 1)) :=
  times.map (.checkScheduler fun _ => quietEnv)

theorem executions_spaced_heartbeat :
    Spaced 600000 heartbeatNode (callsAt [0, 600000, 1200000]) :=
  executions_spaced 600000 heartbeatNode rfl (callsAt [0, 600000, 1200000])
    (by decide) (by decide)

/-- A plain node between whose heartbeats stands a latency measurement. -/
def plainNode : Node SingleFrame.canard Unit 1 :=
  (heartbeatNode.addTask
    ⟨0, .latencyMeasurement (.construct latencyMeasurementPortId 2 1000)⟩).addTask
      ⟨0, .heartbeat (.construct .own 1000000)⟩

/-- The latency measurement throws, and the heartbeat behind it is due but does not execute. -/
theorem due_task_unexecuted :
    plainNode.online ∧ Paced 0 (polls (callsAt [0])) ∧
      (∀ task ∈ plainNode.schedule, ∀ t ∈ polls (callsAt [0]),
        t + task.interval.toNat < 2 ^ 64) ∧
      duePositions 0 0 plainNode.schedule = [0, 1, 2] ∧
      (runSteps plainNode (callsAt [0])).2.map Execution.task = [0, 1] := by
  refine ⟨rfl, by decide, ?_, by decide, by decide +kernel⟩
  intro task htask t ht
  obtain rfl := List.mem_singleton.mp ht
  revert task
  decide

/-- The executions of the task at position `p` keep the rate of `interval` up to one gap between
the calls: the `k`-th later one is on time, and none that should have taken place is missing. -/
structure RateKept (p interval delta : ℕ) (s : Scheduler K) (steps : List (NodeStep K)) :
    Prop where
  onTime : ∀ first later, executionTimes p (runSteps s steps).2 = first :: later →
    ∀ k e, later[k]? = some e → e ≤ first + (k + 1) * interval + delta
  noneMissing : ∀ first later, executionTimes p (runSteps s steps).2 = first :: later →
    K.running (runSteps s steps).1.host →
      ∀ k, ∀ t ∈ polls steps, first + (k + 1) * interval + delta ≤ t → k < later.length

/-- A task keeps its rate over a run of paced calls if the times of the calls admit executions at
this rate, an interval or more apart. If all calls return it does so only then. -/
theorem rate_kept_iff (delta : ℕ) (s : Scheduler K) (hon : s.online) (p : ℕ) (task : Task K)
    (hp : s.schedule[p]? = some task) (hpos : 0 < task.interval.toNat)
    (steps : List (NodeStep K)) (hpaced : Paced delta (polls steps))
    (hov : ∀ t ∈ polls steps, t + task.interval.toNat < 2 ^ 64) :
    (KeepsRate task.interval.toNat delta task.nextRun.toNat (polls steps) →
        RateKept p task.interval.toNat delta s steps) ∧
      (K.running (runSteps s steps).1.host → RateKept p task.interval.toNat delta s steps →
        KeepsRate task.interval.toNat delta task.nextRun.toNat (polls steps)) := by
  obtain ⟨n, hfire, hend⟩ := runSteps_fire steps hon hp hov
  rw [keepsRate_iff hpos hpaced.sorted]
  constructor
  · intro hkeeps
    have hprefix : executionTimes p (runSteps s steps).2 <+:
        fire task.interval.toNat task.nextRun.toNat (polls steps) :=
      hfire ▸ fire_prefix_mono (List.take_prefix n (polls steps))
    have hfires {k e : ℕ} (h : (executionTimes p (runSteps s steps).2)[k]? = some e) :
        (fire task.interval.toNat task.nextRun.toNat (polls steps))[k]? = some e := by
      obtain ⟨hlt, rfl⟩ := List.getElem?_eq_some_iff.mp h
      exact List.prefix_iff_getElem?.mp hprefix k hlt
    constructor
    · intro first later h k e he
      exact (hkeeps first (hfires (by rw [h]; rfl))).1 (k + 1) e (hfires (by rw [h]; exact he))
    · intro first later h hrun k t ht hk
      have hlen := (hkeeps first (hfires (by rw [h]; rfl))).2 (k + 1) t ht hk
      rw [List.take_of_length_le (hend hrun)] at hfire
      rw [← hfire, h] at hlen
      exact Nat.lt_of_succ_lt_succ hlen
  · intro hrun hkept first hfirst
    rw [List.take_of_length_le (hend hrun)] at hfire
    rw [← hfire] at hfirst ⊢
    obtain ⟨later, h⟩ : ∃ later, executionTimes p (runSteps s steps).2 = first :: later :=
      List.head?_eq_some_iff.mp (by rw [List.head?_eq_getElem?]; exact hfirst)
    rw [h]
    constructor
    · intro k e he
      cases k with
      | zero =>
        obtain rfl := Option.some.inj (show some first = some e from he)
        omega
      | succ k => exact hkept.onTime first later h k e he
    · intro k t ht hk
      cases k with
      | zero => exact Nat.succ_pos _
      | succ k => exact Nat.succ_lt_succ (hkept.noneMissing first later h hrun k t ht hk)

/-- Calls at every multiple of a second, and others in between. -/
def punctualCalls : List (NodeStep (nodeTasks SingleFrame.canard Unit 1)) :=
  callsAt [0, 500000, 1000000, 1600000, 2000000, 2300000, 2900000]

theorem rate_kept_iff_heartbeat : RateKept 0 1000000 600000 heartbeatNode punctualCalls := by
  have hpolls : polls punctualCalls =
      [0, 500000, 1000000, 1600000, 2000000, 2300000, 2900000] := rfl
  refine (rate_kept_iff 600000 heartbeatNode rfl 0 _ rfl (by decide) punctualCalls (by decide)
    (by decide)).1 (keepsRate_of_due_polled ?_)
  intro first hfirst k t ht hk
  have hfirst' : first = 0 := (Option.some.inj hfirst).symm
  have ht' : t ≤ 2900000 := by
    rw [hpolls] at ht
    revert t
    simp
  change first + k * 1000000 + 600000 ≤ t at hk
  change first + k * 1000000 ∈ _
  rw [hpolls, hfirst']
  obtain rfl | rfl | rfl : k = 0 ∨ k = 1 ∨ k = 2 := by omega
  · decide
  · decide
  · decide

/-- Polled every 0.6 s, a heartbeat of 1 s is sent every 1.2 s: the fourth after the first is
0.2 s behind the one gap it may be late by. -/
theorem heartbeat_rate_lost :
    heartbeatNode.online ∧
      Paced 600000 (polls (callsAt
        [0, 600000, 1200000, 1800000, 2400000, 3000000, 3600000, 4200000, 4800000])) ∧
      ¬ RateKept 0 1000000 600000 heartbeatNode (callsAt
        [0, 600000, 1200000, 1800000, 2400000, 3000000, 3600000, 4200000, 4800000]) := by
  refine ⟨rfl, by decide, fun h => ?_⟩
  have htimes : executionTimes 0 (runSteps heartbeatNode (callsAt
      [0, 600000, 1200000, 1800000, 2400000, 3000000, 3600000, 4200000, 4800000])).2 =
      [0, 1200000, 2400000, 3600000, 4800000] := by decide +kernel
  have := h.onTime 0 _ htimes 3 4800000 rfl
  omega

end CyphalOnboard
