import CyphalOnboard.ByteArrayPublication
import CyphalOnboard.FailureReports
import CyphalOnboard.HeapBalance
import CyphalOnboard.LatencyPairing

namespace CyphalOnboard

open EarlyExit OpenCyphal

variable {C : Canard} {τ : Type} {R : ℕ} {L : TxLaws C}

/-- The node runs with all its slots filled, or a latency measurement was executed on it though it
takes no part in measurements. `latencyTask` says that it was given such a task. -/
def KeepsRunning (latencyTask : Prop) (node : NodeCore C τ R) : Prop :=
  Ready node.base ∨ (node.base.crashed = some .badCast ∧ node.latency = none ∧ latencyTask)

theorem publish_of_crashed {s : OpenCyphal C τ R} {fault : Fault} (hc : s.crashed = some fault)
    (deadline : CanardMicrosecond) (metadata : CanardTransferMetadata) (payload : List UInt8) :
    (s.publish deadline metadata payload).1 = s :=
  foldl_publishOn_crashed hc deadline metadata payload (List.finRange R) (some 0)

/-- Publishing a message that serializes. -/
theorem KeepsRunning.publish (L : TxLaws C) {M : Type} [IPMessage M] {latencyTask : Prop}
    {node : NodeCore C τ R} (h : KeepsRunning latencyTask node) (timeout : CanardMicrosecond)
    {message : M} {r : List UInt8 × M}
    (hr : IPMessage.serializedMessage (IPMessage.metadata message).2 = .ok r) :
    KeepsRunning latencyTask (node.publish timeout message).2.1 := by
  have hbase : (node.publish timeout message).2.1 = { node with
      base := (node.base.publish timeout (IPMessage.metadata message).1
        (r.1.take (IPMessage.serializedSize r.2))).1 } := by
    simp only [NodeCore.publish, hr]
  rw [hbase]
  rcases h with hready | ⟨hc, hnone, htask⟩
  · exact .inl (ready_publishVia L hready none timeout _ _)
  · refine .inr ⟨?_, hnone, htask⟩
    change (node.base.publish _ _ _).1.crashed = _
    rw [publish_of_crashed hc, hc]

theorem THeartbeat.keepsRunning_execute (L : TxLaws C) {latencyTask : Prop}
    {node : NodeCore C τ R} (h : KeepsRunning latencyTask node) (env : TaskEnv) (time : UInt64)
    (task : THeartbeat) : KeepsRunning latencyTask (task.execute env time node).2 := by
  obtain ⟨heartbeat, hok⟩ : ∃ heartbeat,
      task.heartbeat.serializeMessage (task.startedAt env node) time node.base.health =
        .ok heartbeat := by
    unfold PMessageHeartbeat.serializeMessage
    obtain ⟨sub, hsub⟩ := Heartbeat.serialize_ok
      { uptime := ((time - task.startedAt env node) / mega).toUInt32
        health := ⟨node.base.health⟩
        mode := ⟨modeOperational⟩
        vendorSpecificStatusCode := 0 } task.heartbeat.serialized
    simp only [hsub]
    exact ⟨_, rfl⟩
  unfold execute
  rw [hok]
  exact h.publish L _ rfl

/-- An array of any size passes: one too large is published as it was before. -/
theorem TByteArray.keepsRunning_execute (L : TxLaws C) {latencyTask : Prop}
    {node : NodeCore C τ R} (h : KeepsRunning latencyTask node) (env : TaskEnv) (time : UInt64)
    (task : TByteArray) : KeepsRunning latencyTask (task.execute env time node).2 := by
  obtain ⟨r, hok⟩ : ∃ r,
      task.message.serializeMessage env.frame env.dataAddress task.size = .ok r := by
    by_cases hsize : task.size > integer8Capacity
    · exact ⟨_, if_pos hsize⟩
    · exact ⟨_, serializeMessage_eq _ _ _ (not_lt.mp hsize)⟩
  unfold execute
  rw [hok]
  exact h.publish L _ rfl

theorem TLatencyMeasurement.keepsRunning_execute (L : TxLaws C) {latencyTask : Prop}
    (htask : latencyTask) {node : NodeCore C τ R} (h : KeepsRunning latencyTask node)
    (env : TaskEnv) (time : UInt64) (task : TLatencyMeasurement) :
    KeepsRunning latencyTask (task.execute env time node).2 := by
  unfold execute
  cases hl : node.latency with
  | none => exact .inr ⟨rfl, hl, htask⟩
  | some latency =>
    have hready : Ready node.base := by
      rcases h with hready | ⟨-, hnone, -⟩
      · exact hready
      · rw [hl] at hnone
        cases hnone
    have hslot : KeepsRunning latencyTask { node with
        latency := some (Function.update latency
          (slot (IPMessage.metadata task.primitiveEmpty).1.transferId) env.clock) } := .inl hready
    exact hslot.publish L _ rfl

theorem NodeTask.keepsRunning_execute (L : TxLaws C) {latencyTask : Prop} {task : NodeTask}
    (htask : task.Measures → latencyTask) {node : NodeCore C τ R}
    (h : KeepsRunning latencyTask node) (env : TaskEnv) (time : UInt64) :
    KeepsRunning latencyTask (task.execute env time node).2 := by
  cases task with
  | heartbeat task => exact task.keepsRunning_execute L h env time
  | byteArray task => exact task.keepsRunning_execute L h env time
  | latencyMeasurement task => exact task.keepsRunning_execute L (htask trivial) h env time

theorem NodeTask.measures_execute (env : TaskEnv) (time : UInt64) (task : NodeTask)
    (node : NodeCore C τ R) : (task.execute env time node).1.Measures ↔ task.Measures := by
  cases task with
  | heartbeat task => exact Iff.rfl
  | byteArray task => exact Iff.rfl
  | latencyMeasurement task => exact Iff.rfl

theorem Reaction.Silent.returns {ok : Option (Fin R) → Prop} {reaction : Reaction R}
    (h : reaction.Silent) : reaction.Returns ok := by
  induction reaction with
  | done => trivial
  | crash fault => exact h
  | log entry k ih => exact ih h
  | publish ifidx deadline metadata payload k ih => exact h.elim

/-- A handler that answers does so on the interface of the transfer. -/
theorem Reaction.Answers.returns {measures : Bool} {i : Fin R} {transfer : CanardRxTransfer}
    {reaction : Reaction R} (h : reaction.Answers (answer measures i transfer)) :
    reaction.Returns fun ifidx => ifidx = some i := by
  cases ha : answer measures i transfer with
  | none =>
    rw [ha] at h
    exact Reaction.Silent.returns h
  | some x =>
    rw [ha] at h
    obtain ⟨payload, k, rfl, hk⟩ := h
    have hi : x.1 = i := answer_interface x (by rw [ha]; rfl)
    exact ⟨congrArg some hi, fun r => (hk r).returns⟩

/-- The handler of a node whose name fits in its response. -/
theorem NodeCore.receiver_onArrival {node : NodeCore C τ R}
    (hname : node.info.name.count ≤ getInfoNameCapacity) (clock : Fin R → UInt64) :
    AnsweringOnArrival [node.receiver clock] := by
  intro receiver hm i transfer htid
  rw [List.mem_singleton.mp hm]
  exact (node.receiver_answers hname clock i htid).returns

theorem NodeCore.receiver_always {node : NodeCore C τ R}
    (hname : node.info.name.count ≤ getInfoNameCapacity) (clock : Fin R → UInt64) :
    Returning.Always [node.receiver clock] :=
  (node.receiver_onArrival hname clock).always

/-- The invariant of a node with filled slots. -/
structure Sturdy (latencyTask : Prop) (measures : Bool) (node : Node C τ R) : Prop where
  name : node.host.info.name.count ≤ getInfoNameCapacity
  latency : node.host.latency.isSome = measures
  running : KeepsRunning latencyTask node.host
  tasks : ∀ task ∈ node.schedule, NodeTask.Measures task.body → latencyTask

/-- The invariant of the members an execution finds. -/
structure SturdyHost (latencyTask : Prop) (measures : Bool) (node : NodeCore C τ R) : Prop where
  name : node.info.name.count ≤ getInfoNameCapacity
  latency : node.latency.isSome = measures
  running : KeepsRunning latencyTask node

theorem sturdy_execute (L : TxLaws C) {latencyTask : Prop} {measures : Bool} {task : NodeTask}
    (htask : task.Measures → latencyTask) {node : NodeCore C τ R}
    (h : SturdyHost latencyTask measures node) (env : TaskEnv) (time : UInt64) :
    SturdyHost latencyTask measures (task.execute env time node).2 := by
  obtain ⟨evs, hpub⟩ := task.published_execute L env time node
  exact ⟨hpub.info ▸ h.name, hpub.latency.trans h.latency,
    task.keepsRunning_execute L htask h.running env time⟩

/-- Neither subscribing nor adding a transceiver unsettles a node that runs. -/
theorem KeepsRunning.of_base {latencyTask : Prop} {node : NodeCore C τ R}
    (h : KeepsRunning latencyTask node) {base : OpenCyphal C τ R}
    (hready : Ready node.base → Ready base)
    (hcrashed : ∀ fault, node.base.crashed = some fault → base.crashed = some fault) :
    KeepsRunning latencyTask { node with base := base } := by
  rcases h with h | ⟨hc, hnone, htask⟩
  · exact .inl (hready h)
  · exact .inr ⟨hcrashed _ hc, hnone, htask⟩

theorem ready_subscribe {s : OpenCyphal C τ R} (h : Ready s) (kind : CanardTransferKind)
    (portId : CanardPortID) (extent : ℕ) (timeout : CanardMicrosecond) :
    Ready (s.subscribe kind portId extent timeout).1 := by
  simp only [subscribe, h.running]
  exact ⟨rfl, h.slots, h.queues⟩

/-- A command that schedules a latency measurement. -/
def NodeCommand.SchedulesMeasurement : NodeCommand τ R → Prop
  | schedule _ task _ => task.Measures
  | _ => False

theorem sturdy_command (L : TxLaws C) (hrx : RxLaws C) {latencyTask : Prop} {measures : Bool}
    {node : Node C τ R} (h : Sturdy latencyTask measures node) (command : NodeCommand τ R)
    (hcommand : command.SchedulesMeasurement → latencyTask) :
    Sturdy latencyTask measures (command.run node) := by
  cases command with
  | startNode startedAt => exact ⟨h.name, h.latency, h.running, h.tasks⟩
  | schedule nextRun task constructed =>
    refine ⟨h.name, h.latency, h.running, ?_⟩
    intro x hx
    rcases List.mem_append.mp hx with hx | hx
    · exact h.tasks x hx
    · rw [List.mem_singleton.mp hx]
      exact hcommand
  | addTransceiver transceiver =>
    refine ⟨h.name, h.latency, h.running.of_base ?_ ?_, h.tasks⟩
    · intro hready
      rw [addTransceiver_full hready.running hready.slots]
      exact hready
    · intro fault hc
      rw [addTransceiver_of_crashed hc, hc]
  | subscribe kind portId extent timeout =>
    refine ⟨h.name, h.latency, h.running.of_base ?_ ?_, h.tasks⟩
    · exact fun hready => ready_subscribe hready kind portId extent timeout
    · intro fault hc
      simp only [subscribe, hc]
  | checkScheduler env time =>
    have hcall := checkScheduler_inv (K := nodeTasks C τ R)
      (P := fun body => NodeTask.Measures body → latencyTask)
      (Q := fun host => SturdyHost latencyTask measures host)
      (fun env time body host hbody hhost =>
        ⟨fun hm => hbody ((NodeTask.measures_execute env time body host).mp hm),
          sturdy_execute L hbody hhost env time⟩)
      h.tasks ⟨h.name, h.latency, h.running⟩ env time
    exact ⟨hcall.2.name, hcall.2.latency, hcall.2.running, hcall.1⟩
  | handleTxRxQueues ans clock time =>
    refine ⟨h.name, h.latency, h.running.of_base ?_ ?_, h.tasks⟩
    · exact fun hready =>
        ready_handle L hrx (node.host.receiver_always h.name clock) ans time hready
    · intro fault hc
      simp only [OpenCyphal.handleTxRxQueues, hc]

/-- `SerializeMessage` copies from the address of its parameter, an 8-byte pointer: what it reads of
more elements lies behind it. An array that is too large is not copied. -/
def NodeTask.CopiesInBounds : NodeTask → Prop
  | byteArray task => task.size ≤ 8 ∨ integer8Capacity < task.size
  | _ => True

theorem NodeTask.copiesInBounds_execute (env : TaskEnv) (time : UInt64) {task : NodeTask}
    (h : task.CopiesInBounds) (node : NodeCore C τ R) :
    (task.execute env time node).1.CopiesInBounds := by
  cases task with
  | heartbeat task => trivial
  | byteArray task =>
    have hsize : (task.execute env time node).1.size = task.size := by
      unfold TByteArray.execute
      split <;> rfl
    change _ ∨ _
    rw [hsize]
    exact h
  | latencyMeasurement task => trivial

/-- No execution of a task on the schedule copies from behind its parameter. -/
def CopiesInBounds (node : Node C τ R) : Prop :=
  ∀ task ∈ node.schedule, NodeTask.CopiesInBounds task.body

/-- A command that schedules no byte array of which too much would be copied. -/
def NodeCommand.CopiesInBounds : NodeCommand τ R → Prop
  | schedule _ task _ => task.CopiesInBounds
  | _ => True

theorem copiesInBounds_command {node : Node C τ R} (h : CopiesInBounds node)
    {command : NodeCommand τ R} (hcommand : command.CopiesInBounds) :
    CopiesInBounds (command.run node) := by
  cases command with
  | startNode startedAt => exact h
  | schedule nextRun task constructed =>
    intro x hx
    rcases List.mem_append.mp hx with hx | hx
    · exact h x hx
    · rw [List.mem_singleton.mp hx]
      exact hcommand
  | addTransceiver transceiver => exact h
  | subscribe kind portId extent timeout => exact h
  | checkScheduler env time =>
    exact (checkScheduler_inv (K := nodeTasks C τ R) (P := fun body => NodeTask.CopiesInBounds body)
      (Q := fun _ => True)
      (fun env time body host hbody _ => ⟨body.copiesInBounds_execute env time hbody host, trivial⟩)
      h trivial env time).1
  | handleTxRxQueues ans clock time => exact h

variable {ι : Type} [DecidableEq ι]

/-- What every command to a node preserves holds of this node after a run of the network. -/
theorem runNetwork_inv {P : ι → Node C τ R → Prop} {commands : List (ι × NodeCommand τ R)}
    (hstep : ∀ x ∈ commands, ∀ node, P x.1 node → P x.1 (x.2.run node)) {net : ι → Node C τ R}
    (h : ∀ n, P n (net n)) (n : ι) : P n (runNetwork net commands n) := by
  induction commands generalizing net with
  | nil => exact h n
  | cons x commands ih =>
    obtain ⟨hx, hcommands⟩ := List.forall_mem_cons.mp hstep
    apply ih hcommands
    intro m
    change P m (Function.update net x.1 (x.2.run (net x.1)) m)
    by_cases hm : m = x.1
    · subst hm
      rw [Function.update_self]
      exact hx _ (h x.1)
    · rw [Function.update_of_ne hm]
      exact h m

/-- A node that was given `more` transceivers besides the first one. -/
def NodeSetup.equipped (setup : NodeSetup τ) (more : List τ) : Node C τ R :=
  more.foldl (fun node transceiver => NodeCommand.run node (.addTransceiver transceiver)) setup.node

/-- Equipping a node changes nothing but its base. -/
theorem equipped_members (setup : NodeSetup τ) (more : List τ) :
    Configured (1 + more.length) (setup.equipped more : Node C τ R).host.base ∧
      (setup.equipped more : Node C τ R).host.info = setup.info ∧
      (setup.equipped more : Node C τ R).host.latency = setup.latency ∧
      (setup.equipped more : Node C τ R).schedule = (setup.node : Node C τ R).schedule := by
  have hfirst : Configured 1 (setup.node : Node C τ R).host.base :=
    (configured_construct setup.nodeId setup.transceiver).of_shape ⟨rfl, fun _ => rfl⟩ rfl
  unfold NodeSetup.equipped
  induction more using List.reverseRecOn with
  | nil => exact ⟨hfirst, rfl, rfl, rfl⟩
  | append_singleton more transceiver ih =>
    obtain ⟨hconf, hinfo, hlatency, hschedule⟩ := ih
    rw [List.foldl_append, List.length_append, ← Nat.add_assoc]
    exact ⟨configured_addTransceiver (by omega) hconf transceiver, hinfo, hlatency, hschedule⟩

theorem equipped_events (setup : NodeSetup τ) (more : List τ) :
    (setup.equipped more : Node C τ R).host.base.events = [] := by
  unfold NodeSetup.equipped
  induction more using List.reverseRecOn with
  | nil => rfl
  | append_singleton more transceiver ih =>
    rw [List.foldl_append]
    exact (addTransceiver_frame _ transceiver).2.1.trans ih

theorem sturdy_equipped {setup : NodeSetup τ} {more : List τ}
    (hname : setup.info.name.count ≤ getInfoNameCapacity) (hfull : R ≤ 1 + more.length)
    (latencyTask : Prop) :
    Sturdy latencyTask setup.latency.isSome (setup.equipped more : Node C τ R) := by
  obtain ⟨hconf, hinfo, hlatency, hschedule⟩ := equipped_members (C := C) (R := R) setup more
  refine ⟨hinfo ▸ hname, by rw [hlatency], .inl (hconf.ready (by omega) hfull), ?_⟩
  intro task htask
  rw [hschedule] at htask
  rw [List.mem_singleton.mp htask]
  exact False.elim

/-- The process did not end in this node, unless a latency measurement that was scheduled on it was
executed, though it takes no part in measurements, and nothing it has scheduled copies from behind
its parameter. -/
def Survives (setup : NodeSetup τ) (commands : List (NodeCommand τ R)) (node : Node C τ R) :
    Prop :=
  (node.host.base.crashed = none ∨ (node.host.base.crashed = some .badCast ∧
    setup.latency = none ∧ ∃ command ∈ commands, command.SchedulesMeasurement)) ∧
    CopiesInBounds node

/-- The commands to node `n`. -/
def commandsTo (n : ι) (commands : List (ι × NodeCommand τ R)) : List (NodeCommand τ R) :=
  (commands.filter (·.1 = n)).map (·.2)

theorem Sturdy.survives {setup : NodeSetup τ} {commands : List (NodeCommand τ R)}
    {node : Node C τ R} (h : Sturdy (∃ command ∈ commands, command.SchedulesMeasurement)
      setup.latency.isSome node) (hcopies : CopiesInBounds node) :
    Survives setup commands node := by
  refine ⟨?_, hcopies⟩
  rcases h.running with hready | ⟨hc, hnone, htask⟩
  · exact .inl hready.running
  · have hplain : setup.latency = none := by
      have hsome := h.latency
      rw [hnone] at hsome
      exact Option.isNone_iff_eq_none.mp (by simpa using hsome.symm)
    exact .inr ⟨hc, hplain, htask⟩

/-- Interfaces that take every frame and always have one to read. -/
def busyAnswers : Answers R where
  send _ _ := 1
  receive _ := (1, .zero)

/-- A node with an empty slot goes through it when the bus is busy. -/
theorem busy_handle_touched (L : TxLaws C) (hrx : RxLaws C) {node : NodeCore C τ R} {k : ℕ}
    (hname : node.info.name.count ≤ getInfoNameCapacity) (hconf : Configured k node.base)
    (hempty : k < R) (clock : Fin R → UInt64) (time : CanardMicrosecond) :
    ¬Untouched (node.handleTxRxQueues busyAnswers clock time).1.base := by
  apply (configured_handle L hrx (node.receiver_onArrival hname clock) busyAnswers time hconf).2
  rintro (hfull | ⟨i, t, -, -, hstop⟩)
  · omega
  · have hread : (1 : ℤ) ≤ 0 := (stops_of_accepting L time (fun _ => Int.one_pos) t).mp hstop
    exact absurd hread (by decide)

/-- Where no slot was missing, the process either runs or has ended for another reason. -/
theorem Survives.untouched {setup : NodeSetup τ} {commands : List (NodeCommand τ R)}
    {node : Node C τ R} (h : Survives setup commands node) : Untouched node.host.base := by
  intro i
  rcases h.1 with hc | ⟨hc, -⟩
  · rw [hc]
    exact ⟨nofun, nofun⟩
  · rw [hc]
    exact ⟨nofun, nofun⟩

theorem copiesInBounds_equipped (setup : NodeSetup τ) (more : List τ) :
    CopiesInBounds (setup.equipped more : Node C τ R) := by
  obtain ⟨-, -, -, hschedule⟩ := equipped_members (C := C) (R := R) setup more
  intro task htask
  rw [hschedule] at htask
  rw [List.mem_singleton.mp htask]
  trivial

/-- A network of nodes survives all runs in which no byte array of 9 to 256 elements is scheduled
exactly when every slot of every node is filled. -/
theorem network_survives_iff (L : TxLaws C) (hrx : RxLaws C) (setup : ι → NodeSetup τ)
    (more : ι → List τ) (hname : ∀ n, (setup n).info.name.count ≤ getInfoNameCapacity) :
    (∀ commands : List (ι × NodeCommand τ R), (∀ x ∈ commands, x.2.CopiesInBounds) → ∀ n,
        Survives (setup n) (commandsTo n commands)
          (runNetwork (fun n => ((setup n).equipped (more n) : Node C τ R)) commands n)) ↔
      ∀ n, R ≤ 1 + (more n).length := by
  constructor
  · intro h n
    by_contra hempty
    obtain ⟨hconf, hinfo, -, -⟩ := equipped_members (C := C) (R := R) (setup n) (more n)
    have hone := (h [(n, .handleTxRxQueues busyAnswers (fun _ => 0) 0)]
      (List.forall_mem_singleton.mpr trivial) n).untouched
    simp only [runNetwork, List.foldl_cons, List.foldl_nil, Function.update_self] at hone
    exact busy_handle_touched L hrx (hinfo ▸ hname n) hconf (not_le.mp hempty) _ 0 hone
  · intro hfull commands hcommands n
    have hstep : ∀ x ∈ commands, ∀ node : Node C τ R,
        Sturdy (∃ command ∈ commandsTo x.1 commands, command.SchedulesMeasurement)
          (setup x.1).latency.isSome node ∧ CopiesInBounds node →
        Sturdy (∃ command ∈ commandsTo x.1 commands, command.SchedulesMeasurement)
          (setup x.1).latency.isSome (x.2.run node) ∧ CopiesInBounds (x.2.run node) := by
      intro x hx node hnode
      refine ⟨sturdy_command L hrx hnode.1 x.2 ?_, copiesInBounds_command hnode.2 (hcommands x hx)⟩
      intro hschedules
      refine ⟨x.2, ?_, hschedules⟩
      exact List.mem_map.mpr ⟨x, List.mem_filter.mpr ⟨hx, by simp⟩, rfl⟩
    have hnode := runNetwork_inv (P := fun n node => Sturdy
      (∃ command ∈ commandsTo n commands, command.SchedulesMeasurement)
      (setup n).latency.isSome node ∧ CopiesInBounds node) hstep
      (fun n => ⟨sturdy_equipped (C := C) (R := R) (hname n) (hfull n) _,
        copiesInBounds_equipped (setup n) (more n)⟩) n
    exact hnode.1.survives hnode.2

/-- An array of one element every second. -/
def oneElement : TByteArray where
  message := .construct 32
  interval := 1000000
  size := 1
  data := 5 :: List.replicate 257 0

/-- A started node is given a byte array and publishes it. -/
def publishingRun : List (Bool × NodeCommand Unit 1) :=
  [(true, .startNode 0), (true, .schedule 0 (.byteArray oneElement) ⟨32, [5], 1, 1000000, rfl⟩),
    (true, .checkScheduler (fun _ => quietEnv) 5),
    (true, .handleTxRxQueues busyAnswers (fun _ => 0) 6)]

theorem publishingRun_copiesInBounds : ∀ x ∈ publishingRun, x.2.CopiesInBounds := by
  have hsize : oneElement.size ≤ 8 := by decide
  simp only [publishingRun, List.forall_mem_cons]
  exact ⟨trivial, .inl hsize, trivial, trivial, List.forall_mem_nil _⟩

theorem network_survives_iff_publishing :
    Survives (measurementPair true) (commandsTo true publishingRun)
      (runNetwork (fun n => ((measurementPair n).equipped [] : Node SingleFrame.canard Unit 1))
        publishingRun true) :=
  (network_survives_iff SingleFrame.txLaws SingleFrame.rxLaws measurementPair (fun _ => [])
    (by decide)).mpr (fun _ => le_rfl) publishingRun
    publishingRun_copiesInBounds true

end CyphalOnboard
