import CyphalOnboard.AtomicSteps
import CyphalOnboard.Uptime

namespace CyphalOnboard

open OpenCyphal

variable {C : Canard} {τ : Type} {R : ℕ}

/-- The count of the allocations that failed is never decreased. -/
structure OomLaws (C : Canard) : Prop where
  txPush : ∀ que ins deadline metadata payload, C.o1heapOomCount ins ≤
    C.o1heapOomCount (C.canardTxPush que ins deadline metadata payload).ins
  rxAccept : ∀ ins timestamp frame ifidx, C.o1heapOomCount ins ≤
    C.o1heapOomCount (C.canardRxAccept ins timestamp frame ifidx).ins
  rxSubscribe : ∀ ins kind portId extent timeout, C.o1heapOomCount ins ≤
    C.o1heapOomCount (C.canardRxSubscribe ins kind portId extent timeout).2
  memoryFree : ∀ ins block, C.o1heapOomCount ins ≤ C.o1heapOomCount (C.memoryFree ins block)

/-- The health of `s'` is that of `s` or worse. -/
def NoBetter (s s' : OpenCyphal C τ R) : Prop :=
  C.o1heapOomCount s.inst ≤ C.o1heapOomCount s'.inst

theorem NoBetter.trans {s s' s'' : OpenCyphal C τ R} (h : NoBetter s s') (h' : NoBetter s' s'') :
    NoBetter s s'' := UInt64.le_trans h h'

theorem OomLaws.lasting (hoom : OomLaws C) (count : UInt64) :
    Lasting fun ins : C.Instance => count ≤ C.o1heapOomCount ins where
  txPush que ins deadline metadata payload h :=
    UInt64.le_trans h (hoom.txPush que ins deadline metadata payload)
  rxAccept ins timestamp frame ifidx h :=
    UInt64.le_trans h (hoom.rxAccept ins timestamp frame ifidx)
  rxSubscribe ins kind portId extent timeout h :=
    UInt64.le_trans h (hoom.rxSubscribe ins kind portId extent timeout)
  memoryFree ins block h := UInt64.le_trans h (hoom.memoryFree ins block)

theorem Atomically.noBetter (hoom : OomLaws C) {s s' : OpenCyphal C τ R} (h : Atomically s s') :
    NoBetter s s' :=
  h.lasting (hoom.lasting _) (UInt64.le_refl _)

/-- A health that is no better is no smaller a number. -/
theorem NoBetter.health_le {s s' : OpenCyphal C τ R} (h : NoBetter s s') :
    s.health ≤ s'.health := by
  unfold health
  by_cases hfailed : C.o1heapOomCount s.inst > 0
  · have hfailed' : C.o1heapOomCount s'.inst > 0 := UInt64.lt_of_lt_of_le hfailed h
    rw [if_pos hfailed, if_pos hfailed']
    exact UInt8.le_refl 2
  · rw [if_neg hfailed]
    exact UInt8.zero_le

/-- A command as a step of the scheduler. -/
def NodeCommand.step : NodeCommand τ R → NodeStep (nodeTasks C τ R)
  | startNode startedAt => .startNode startedAt
  | schedule nextRun task _ => .schedule ⟨nextRun, task⟩
  | addTransceiver transceiver => .other fun node : NodeCore C τ R =>
    { node with base := node.base.addTransceiver (some transceiver) }
  | subscribe kind portId extent timeout => .other fun node : NodeCore C τ R =>
    { node with base := (node.base.subscribe kind portId extent timeout).1 }
  | checkScheduler env time => .checkScheduler env time
  | handleTxRxQueues ans clock time => .other fun node : NodeCore C τ R =>
    (node.handleTxRxQueues ans clock time).1

theorem NodeCommand.step_run (command : NodeCommand τ R) (node : Node C τ R) :
    (command.step.run node).1 = command.run node := by
  cases command <;> rfl

/-- Nothing a command does makes the health better. -/
theorem NodeCommand.step_within (hoom : OomLaws C) (command : NodeCommand τ R) :
    (command.step : NodeStep (nodeTasks C τ R)).Within
      fun node node' : NodeCore C τ R => NoBetter node.base node'.base := by
  have hcommand (node : NodeCore C τ R) : NoBetter node.base
      (command.run (⟨false, [], node⟩ : Node C τ R)).host.base :=
    (atomically_command command (⟨false, [], node⟩ : Node C τ R)).noBetter hoom
  cases command with
  | startNode startedAt => exact hcommand
  | schedule nextRun task constructed => trivial
  | addTransceiver transceiver => exact hcommand
  | subscribe kind portId extent timeout => exact hcommand
  | checkScheduler env time => trivial
  | handleTxRxQueues ans clock time => exact hcommand

/-- The heartbeats of an execution of a heartbeat task. -/
theorem mem_heartbeats_of_execute (L : TxLaws C) {e : Execution (nodeTasks C τ R)}
    {task : THeartbeat} (hbuffer : task.heartbeat.serialized.length = heartbeatBufferSize)
    {env : TaskEnv} (hafter : e.after = (task.execute env e.time e.before).2) {obj : Heartbeat}
    (hobj : obj ∈ e.heartbeats) : obj =
      heartbeatObject (task.startedAt env e.before) e.time (NodeCore.base e.before).health := by
  obtain ⟨evs, hevents, hpushes⟩ := publish_pushes L (NodeCore.base e.before) (e.time + mega)
    (IPMessage.metadata task.heartbeat).1 (heartbeatObject (task.startedAt env e.before) e.time
      (NodeCore.base e.before).health).representation
  have hlog : e.events = evs := by
    unfold Execution.events NodeCore.eventsSince
    rw [hafter, (task.execute_eq hbuffer env e.time e.before).2.2, hevents, List.drop_left]
  obtain ⟨ev, hev, hread⟩ := List.mem_filterMap.mp hobj
  obtain ⟨i, r, frames, rfl, -⟩ := hpushes ev (hlog ▸ hev)
  rw [heartbeat_of_push (heartbeatObject_inRange _ e.time (NodeCore.base e.before))] at hread
  exact (Option.some.inj hread).symm

/-- In every run the heartbeats of a task tell whether an allocation has failed, and once they tell
it they never stop. -/
theorem health_latched (L : TxLaws C) (hoom : OomLaws C) (node : Node C τ R) {p : ℕ}
    {nextRun : UInt64} {task : THeartbeat}
    (hp : node.schedule[p]? = some ⟨nextRun, .heartbeat task⟩)
    (hbuffer : task.heartbeat.serialized.length = heartbeatBufferSize)
    (commands : List (NodeCommand τ R)) :
    let executions := (runSteps node (commands.map NodeCommand.step)).2.filter fun e => e.task = p
    (∀ e ∈ executions, ∀ obj ∈ e.heartbeats, obj.health.value =
      if C.o1heapOomCount (NodeCore.base e.before).inst > 0 then 2 else 0) ∧
    executions.Pairwise fun e e' => ∀ obj ∈ e.heartbeats, ∀ obj' ∈ e'.heartbeats,
      obj.health.value ≤ obj'.health.value := by
  intro executions
  have hvalue : ∀ e ∈ executions, ∀ obj ∈ e.heartbeats,
      obj.health.value = (NodeCore.base e.before).health := by
    intro e he obj hobj
    have htrail := runSteps_trail (commands.map NodeCommand.step) hp
    obtain ⟨env, body, hsized, hafter⟩ := htrail.body
      (P := NodeTask.HeartbeatOf task.heartbeat.node) NodeTask.heartbeatOf_execute
      ⟨hbuffer, rfl⟩ e he
    cases body with
    | heartbeat task =>
      rw [mem_heartbeats_of_execute L hsized.1 hafter hobj]
      rfl
    | byteArray task => exact hsized.elim
    | latencyMeasurement task => exact hsized.elim
  have hsteps : ∀ step ∈ commands.map NodeCommand.step, step.Within
      fun node node' : NodeCore C τ R => NoBetter node.base node'.base := by
    intro step hstep
    obtain ⟨command, -, rfl⟩ := List.mem_map.mp hstep
    exact command.step_within hoom
  have hpairs := (runSteps_pairwise (K := nodeTasks C τ R)
    (Q := fun node node' : NodeCore C τ R => NoBetter node.base node'.base)
    (fun _ => UInt64.le_refl _) NoBetter.trans (fun env time body host =>
      (NodeTask.atomically_execute env time body host).noBetter hoom) node hsteps).2
  refine ⟨fun e he obj hobj => hvalue e he obj hobj, ?_⟩
  refine (hpairs.sublist List.filter_sublist).imp_of_mem ?_
  intro e e' he he' hworse obj hobj obj' hobj'
  rw [hvalue e he obj hobj, hvalue e' he' obj' hobj']
  exact NoBetter.health_le hworse

-- An answer for which the heap has no room.

/-- The single-frame libcanard with a count that does not wrap. -/
def countingCanard : Canard :=
  { SingleFrame.canard with
    canardTxPush := fun que ins deadline metadata payload =>
      let r := SingleFrame.txPush que ins deadline metadata payload
      ⟨r.result, r.que, { r.ins with
        oomCount := if ins.oomCount ≤ r.ins.oomCount then r.ins.oomCount else ins.oomCount }⟩ }

def countingTxLaws : TxLaws countingCanard where
  items := SingleFrame.txLaws.items
  txSize_eq := SingleFrame.txLaws.txSize_eq
  txInit_items := SingleFrame.txLaws.txInit_items
  txPeek_eq := SingleFrame.txLaws.txPeek_eq
  txPop_item := SingleFrame.txLaws.txPop_item
  txPop_items := SingleFrame.txLaws.txPop_items
  txPush_failed := SingleFrame.txLaws.txPush_failed
  txPush_count := SingleFrame.txLaws.txPush_count
  txPush_perm := SingleFrame.txLaws.txPush_perm
  txPush_sublist := SingleFrame.txLaws.txPush_sublist
  txFrames_deadline := SingleFrame.txLaws.txFrames_deadline

theorem countingOomLaws : OomLaws countingCanard where
  txPush que ins deadline metadata payload := by
    change ins.oomCount ≤ if ins.oomCount ≤ _ then _ else ins.oomCount
    split_ifs with h
    · exact h
    · exact UInt64.le_refl _
  rxAccept ins timestamp frame ifidx := by
    change ins.oomCount ≤ (SingleFrame.rxAccept ins timestamp frame).ins.oomCount
    unfold SingleFrame.rxAccept
    dsimp only
    split_ifs
    · exact UInt64.le_refl _
    · exact UInt64.le_refl _
  rxSubscribe _ _ _ _ _ := UInt64.le_refl _
  memoryFree _ _ := UInt64.le_refl _

def countingNode : Node countingCanard Unit 1 :=
  Node.construct 1 () heartbeatNode.host.info none false 0

/-- A GetInfo request of node 2. -/
def requestingAnswers : Answers 1 where
  send _ _ := 1
  receive _ := (1, (SingleFrame.txItem ⟨2, [], 0⟩ 0
    ⟨.nominal, .request, getInfoFixedPortId, 1, 0⟩ []).frame)

def unansweredRun : List (NodeCommand Unit 1) :=
  [.startNode 0, .checkScheduler (fun _ => quietEnv) 5,
    .handleTxRxQueues requestingAnswers (fun _ => 0) 6,
    .checkScheduler (fun _ => quietEnv) 1000005]

theorem health_latched_unanswered :
    ((runSteps countingNode (unansweredRun.map NodeCommand.step)).2.filter fun e =>
      e.task = 0).Pairwise fun e e' => ∀ obj ∈ e.heartbeats, ∀ obj' ∈ e'.heartbeats,
        obj.health.value ≤ obj'.health.value :=
  (health_latched countingTxLaws countingOomLaws countingNode rfl List.length_replicate
    unansweredRun).2

example : ((runSteps countingNode (unansweredRun.map NodeCommand.step)).2.map fun e =>
    e.heartbeats.map fun obj => obj.health.value) = [[0], [2]] := by
  decide +kernel

end CyphalOnboard
