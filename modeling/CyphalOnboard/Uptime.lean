import CyphalOnboard.Deserialization
import CyphalOnboard.Periods
import CyphalOnboard.PublishResult

namespace CyphalOnboard

open OpenCyphal

variable {C : Canard} {τ : Type} {R : ℕ}

/-- The heartbeat of a push, as it is read back. -/
def Event.heartbeat : Event R → Option Heartbeat
  | .push _ _ _ payload _ _ =>
    match Heartbeat.deserialize payload payload.length with
    | .ok (obj, _) => some obj
    | .error _ => none
  | _ => none

/-- The events of an execution. -/
def Execution.events (e : Execution (nodeTasks C τ R)) : List (Event R) :=
  e.after.eventsSince e.before.base.events.length

/-- The heartbeats an execution publishes, one for each interface. -/
def Execution.heartbeats (e : Execution (nodeTasks C τ R)) : List Heartbeat :=
  e.events.filterMap Event.heartbeat

/-- The steps of a node that stays as it was started: nothing writes `started_at_`. -/
def StaysStarted : NodeStep (nodeTasks C τ R) → Prop
  | .startNode _ => False
  | .other f => ∀ node : NodeCore C τ R, (f node).startedAt = node.startedAt
  | .schedule _ => True
  | .checkScheduler _ _ => True

/-- What the executions of a heartbeat task publish: each push is read back as the uptime in whole
seconds, the health and the mode of the node, and the uptime grows from one execution to the
next. -/
structure UptimeAnnounced (startedAt interval : UInt64)
    (executions : List (Execution (nodeTasks C τ R))) : Prop where
  read : ∀ e ∈ executions, ∀ i deadline metadata payload r frames,
    .push i deadline metadata payload r frames ∈ e.events →
      metadata.portId = heartbeatFixedPortId ∧
      ∃ obj, Heartbeat.deserialize payload payload.length = .ok (obj, payload.length) ∧
        obj.uptime.toNat = (e.time.toNat - startedAt.toNat) / 1000000 ∧
        obj.health.value = e.before.base.health ∧ obj.mode.value = modeOperational
  pushed : ∀ e ∈ executions, (∃ i : Fin R, i.val = 0 ∧ (e.before.base.txQueues i).isSome) →
    e.heartbeats ≠ []
  monotone : ∀ earlier e e' later, executions = earlier ++ e :: e' :: later →
    ∀ obj ∈ e.heartbeats, ∀ obj' ∈ e'.heartbeats, obj.uptime ≤ obj'.uptime
  grows : mega ≤ interval →
    ∀ earlier e e' later, executions = earlier ++ e :: e' :: later →
      e.time.toNat + interval.toNat < 2 ^ 64 →
        ∀ obj ∈ e.heartbeats, ∀ obj' ∈ e'.heartbeats, obj.uptime < obj'.uptime

/-- The object a heartbeat carries. -/
def heartbeatObject (startedAt currentTime : UInt64) (health : UInt8) : Heartbeat where
  uptime := ((currentTime - startedAt) / mega).toUInt32
  health := ⟨health⟩
  mode := ⟨modeOperational⟩
  vendorSpecificStatusCode := 0

theorem health_lt (s : OpenCyphal C τ R) : s.health.toNat < 4 := by
  unfold health
  split_ifs <;> decide

theorem heartbeatObject_inRange (startedAt currentTime : UInt64) (s : OpenCyphal C τ R) :
    (heartbeatObject startedAt currentTime s.health).InRange where
  health := health_lt s
  mode := (by decide : modeOperational.toNat < 8)

/-- Neither the subtraction wraps nor the cast cuts anything off. -/
theorem uptime_eq {startedAt time : UInt64} (hle : startedAt.toNat ≤ time.toNat)
    (hlt : time.toNat < startedAt.toNat + 2 ^ 32 * 1000000) (health : UInt8) :
    (heartbeatObject startedAt time health).uptime.toNat =
      (time.toNat - startedAt.toNat) / 1000000 := by
  have hmega : mega.toNat = 1000000 := rfl
  have hsub := UInt64.toNat_sub_of_le _ _ (UInt64.le_iff_toNat_le.mpr hle)
  have hfits : (time.toNat - startedAt.toNat) / 1000000 < 2 ^ 32 := by omega
  change ((time - startedAt) / mega).toUInt32.toNat = _
  rw [UInt64.toNat_toUInt32, UInt64.toNat_div, hsub, hmega, Nat.mod_eq_of_lt hfits]

/-- The heartbeat task publishes the representation of the object. -/
theorem THeartbeat.execute_eq {task : THeartbeat}
    (hbuffer : task.heartbeat.serialized.length = heartbeatBufferSize) (env : TaskEnv)
    (currentTime : UInt64) (node : NodeCore C τ R) :
    let payload :=
      (heartbeatObject (task.startedAt env node) currentTime node.base.health).representation
    (task.execute env currentTime node).1.heartbeat.serialized = payload ∧
      (task.execute env currentTime node).1.heartbeat.node = task.heartbeat.node ∧
      (task.execute env currentTime node).2.base =
        (node.base.publish (currentTime + mega) (IPMessage.metadata task.heartbeat).1
          payload).1 := by
  intro payload
  have hrange := heartbeatObject_inRange (task.startedAt env node) currentTime node.base
  have hserialize := Heartbeat.serialize_eq hrange hbuffer
  have hmessage : task.heartbeat.serializeMessage (task.startedAt env node) currentTime
      node.base.health = .ok { task.heartbeat with serialized := payload } := by
    unfold PMessageHeartbeat.serializeMessage
    simp only [heartbeatObject] at hserialize
    simp only [hserialize]
    rfl
  have hlen : payload.length = heartbeatBufferSize := Heartbeat.representation_length _
  unfold execute
  simp only [hmessage, NodeCore.publish, IPMessage.metadata, IPMessage.serializedMessage,
    IPMessage.serializedSize]
  rw [← hlen, List.take_length]
  exact ⟨trivial, trivial, rfl⟩

/-- The tasks that are heartbeats with the buffer of the type, constructed with `parent`. -/
def NodeTask.HeartbeatOf (parent : ParentNode) : NodeTask → Prop
  | heartbeat task =>
    task.heartbeat.serialized.length = heartbeatBufferSize ∧ task.heartbeat.node = parent
  | _ => False

theorem NodeTask.heartbeatOf_execute {parent : ParentNode} (env : TaskEnv) (time : UInt64)
    (task : NodeTask) (node : NodeCore C τ R) (h : task.HeartbeatOf parent) :
    (task.execute env time node).1.HeartbeatOf parent := by
  cases task with
  | heartbeat task =>
    obtain ⟨hserialized, hnode, -⟩ := task.execute_eq h.1 env time node
    refine ⟨?_, hnode.trans h.2⟩
    rw [hserialized, Heartbeat.representation_length]
  | byteArray task => exact h.elim
  | latencyMeasurement task => exact h.elim

/-- The execution publishes the heartbeat of a node that runs and was started at `startedAt`. -/
structure Execution.Beats (startedAt : UInt64) (e : Execution (nodeTasks C τ R)) : Prop where
  running : e.before.base.crashed = none
  publishes : ∃ metadata, metadata.portId = heartbeatFixedPortId ∧
    e.after.base = (e.before.base.publish (e.time + mega) metadata
      (heartbeatObject startedAt e.time e.before.base.health).representation).1
  started : startedAt.toNat ≤ e.time.toNat
  inRange : e.time.toNat < startedAt.toNat + 2 ^ 32 * 1000000

theorem heartbeat_of_push {obj : Heartbeat} (h : obj.InRange) (i : Fin R)
    (deadline : CanardMicrosecond) (metadata : CanardTransferMetadata) (r : ℤ)
    (frames : List CanardTxQueueItem) :
    (Event.push i deadline metadata obj.representation r frames).heartbeat = some obj := by
  have hread := Heartbeat.deserialize_eq h []
  rw [List.append_nil] at hread
  simp only [Event.heartbeat, hread]

namespace Execution.Beats

variable {startedAt : UInt64} {e : Execution (nodeTasks C τ R)}

/-- All pushes carry the same object. -/
theorem pushesOf (L : TxLaws C) (h : e.Beats startedAt) :
    ∃ metadata, metadata.portId = heartbeatFixedPortId ∧ PushesOf (e.time + mega) metadata
      (heartbeatObject startedAt e.time e.before.base.health).representation e.events := by
  obtain ⟨metadata, hport, hafter⟩ := h.publishes
  obtain ⟨evs, hevents, hpushes⟩ := publish_pushes L e.before.base (e.time + mega) metadata
    (heartbeatObject startedAt e.time e.before.base.health).representation
  refine ⟨metadata, hport, ?_⟩
  unfold Execution.events NodeCore.eventsSince
  rw [hafter, hevents, List.drop_left]
  exact hpushes

theorem mem_heartbeats (L : TxLaws C) (h : e.Beats startedAt) {obj : Heartbeat}
    (hobj : obj ∈ e.heartbeats) :
    obj = heartbeatObject startedAt e.time e.before.base.health := by
  obtain ⟨metadata, -, hpushes⟩ := h.pushesOf L
  obtain ⟨ev, hev, hread⟩ := List.mem_filterMap.mp hobj
  obtain ⟨i, r, frames, rfl, -⟩ := hpushes ev hev
  rw [heartbeat_of_push (heartbeatObject_inRange startedAt e.time e.before.base)] at hread
  exact (Option.some.inj hread).symm

theorem heartbeats_ne_nil (L : TxLaws C) (h : e.Beats startedAt)
    (hq : ∃ i : Fin R, i.val = 0 ∧ (e.before.base.txQueues i).isSome) : e.heartbeats ≠ [] := by
  obtain ⟨i, hi, hq⟩ := hq
  obtain ⟨metadata, -, hafter⟩ := h.publishes
  obtain ⟨r, frames, evs, hevents⟩ := publish_first L h.running hi hq (e.time + mega) metadata
    (heartbeatObject startedAt e.time e.before.base.health).representation
  unfold Execution.heartbeats Execution.events NodeCore.eventsSince
  rw [hafter, hevents, List.drop_left, List.filterMap_cons,
    heartbeat_of_push (heartbeatObject_inRange startedAt e.time e.before.base)]
  exact List.cons_ne_nil _ _

theorem read (L : TxLaws C) (h : e.Beats startedAt) {i : Fin R} {deadline : CanardMicrosecond}
    {metadata : CanardTransferMetadata} {payload : List UInt8} {r : ℤ}
    {frames : List CanardTxQueueItem}
    (hpush : .push i deadline metadata payload r frames ∈ e.events) :
    metadata.portId = heartbeatFixedPortId ∧
      ∃ obj, Heartbeat.deserialize payload payload.length = .ok (obj, payload.length) ∧
        obj.uptime.toNat = (e.time.toNat - startedAt.toNat) / 1000000 ∧
        obj.health.value = e.before.base.health ∧ obj.mode.value = modeOperational := by
  obtain ⟨metadata', hport, hpushes⟩ := h.pushesOf L
  obtain ⟨_, _, _, heq, -⟩ := hpushes _ hpush
  cases heq
  have hread := Heartbeat.deserialize_eq
    (heartbeatObject_inRange startedAt e.time e.before.base) []
  rw [List.append_nil] at hread
  exact ⟨hport, _, hread, uptime_eq h.started h.inRange _, rfl, rfl⟩

/-- The uptime of all heartbeats of an execution. -/
theorem uptime (L : TxLaws C) (h : e.Beats startedAt) {obj : Heartbeat}
    (hobj : obj ∈ e.heartbeats) :
    obj.uptime.toNat = (e.time.toNat - startedAt.toNat) / 1000000 := by
  rw [h.mem_heartbeats L hobj, uptime_eq h.started h.inRange]

theorem uptime_le (L : TxLaws C) {e' : Execution (nodeTasks C τ R)} (h : e.Beats startedAt)
    (h' : e'.Beats startedAt) (hle : e.time.toNat ≤ e'.time.toNat) :
    ∀ obj ∈ e.heartbeats, ∀ obj' ∈ e'.heartbeats, obj.uptime ≤ obj'.uptime := by
  intro obj hobj obj' hobj'
  rw [UInt32.le_iff_toNat_le, h.uptime L hobj, h'.uptime L hobj']
  exact Nat.div_le_div_right (Nat.sub_le_sub_right hle _)

/-- Heartbeats a second apart do not tell the same. -/
theorem uptime_lt (L : TxLaws C) {e' : Execution (nodeTasks C τ R)} (h : e.Beats startedAt)
    (h' : e'.Beats startedAt) (hlt : e.time.toNat + 1000000 ≤ e'.time.toNat) :
    ∀ obj ∈ e.heartbeats, ∀ obj' ∈ e'.heartbeats, obj.uptime < obj'.uptime := by
  intro obj hobj obj' hobj'
  have hstarted := h.started
  rw [UInt32.lt_iff_toNat_lt, h.uptime L hobj, h'.uptime L hobj']
  omega

end Execution.Beats

/-- A node that stays started answers `StartedAt` with the time it was started at. -/
theorem startedAt_run (L : TxLaws C) (steps : List (NodeStep (nodeTasks C τ R)))
    (hsteps : ∀ step ∈ steps, StaysStarted step) (node : Node C τ R) :
    ∀ e ∈ (runSteps node steps).2, e.before.startedAt = node.host.startedAt := by
  induction steps generalizing node with
  | nil =>
    intro e he
    cases he
  | cons step steps ih =>
    obtain ⟨hstep, hsteps⟩ := List.forall_mem_cons.mp hsteps
    have hkept : (step.run node).1.host.startedAt = node.host.startedAt ∧
        ∀ e ∈ (step.run node).2, e.before.startedAt = node.host.startedAt := by
      cases step with
      | startNode startedAt => exact hstep.elim
      | schedule task => exact ⟨rfl, by simp [NodeStep.run]⟩
      | other f => exact ⟨hstep node.host, by simp [NodeStep.run]⟩
      | checkScheduler env time =>
        obtain ⟨hall, hlater⟩ := checkScheduler_rel (K := nodeTasks C τ R)
          (Q := fun a b : NodeCore C τ R => b.startedAt = a.startedAt) (fun _ => rfl)
          (fun h h' => h'.trans h) (fun env time body host =>
            (NodeTask.published_execute L env time body host).choose_spec.startedAt) node env time
        exact ⟨hall, fun e he => (hlater e he).2.symm.trans hall⟩
    intro e he
    rcases mem_runSteps_cons he with he | he
    · exact hkept.2 e he
    · exact (ih hsteps _ e he).trans hkept.1

/-- Every execution of a node's own heartbeat task publishes the heartbeat of the node. -/
theorem beats_run (L : TxLaws C) (node : Node C τ R) {p : ℕ} {nextRun : UInt64} {task : THeartbeat}
    (hp : node.schedule[p]? = some ⟨nextRun, .heartbeat task⟩)
    (hbuffer : task.heartbeat.serialized.length = heartbeatBufferSize)
    (hparent : task.heartbeat.node = .own)
    {steps : List (NodeStep (nodeTasks C τ R))} (hsteps : ∀ step ∈ steps, StaysStarted step)
    (htimes : ∀ t ∈ polls steps, node.host.startedAt.toNat ≤ t ∧
      t < node.host.startedAt.toNat + 2 ^ 32 * 1000000) :
    ∀ e ∈ (runSteps node steps).2.filter fun e => e.task = p,
      e.Beats node.host.startedAt := by
  intro e hmem
  have htrail := runSteps_trail steps hp
  obtain ⟨he, -⟩ := List.mem_filter.mp hmem
  obtain ⟨env, body, hown, hafter⟩ := htrail.body (P := NodeTask.HeartbeatOf .own)
    NodeTask.heartbeatOf_execute ⟨hbuffer, hparent⟩ e hmem
  obtain ⟨env', hcall⟩ := runSteps_time node steps e he
  obtain ⟨hle, hlt⟩ := htimes e.time.toNat (mem_polls hcall)
  refine ⟨Option.isNone_iff_eq_none.mp (htrail.running e hmem), ?_, hle, hlt⟩
  cases body with
  | heartbeat task =>
    have hstarted : task.startedAt env e.before = node.host.startedAt := by
      unfold THeartbeat.startedAt
      rw [hown.2]
      exact startedAt_run L steps hsteps node e he
    have hbase := (task.execute_eq hown.1 env e.time e.before).2.2
    rw [hstarted] at hbase
    rw [hafter]
    exact ⟨_, rfl, hbase⟩
  | byteArray task => exact hown.elim
  | latencyMeasurement task => exact hown.elim

/-- Over every run of a node that was started once its own heartbeats tell the whole seconds since
then, and no two in a row tell the same unless the time the second is due at has wrapped. -/
theorem uptime_announced (L : TxLaws C) (node : Node C τ R) (startedAt : UInt64) (p : ℕ)
    (nextRun : UInt64) (task : THeartbeat)
    (hp : node.schedule[p]? = some ⟨nextRun, .heartbeat task⟩)
    (hbuffer : task.heartbeat.serialized.length = heartbeatBufferSize)
    (hparent : task.heartbeat.node = .own)
    (steps : List (NodeStep (nodeTasks C τ R))) (hsteps : ∀ step ∈ steps, StaysStarted step)
    (hmono : (polls steps).Pairwise (· ≤ ·))
    (htimes : ∀ t ∈ polls steps, startedAt.toNat ≤ t ∧ t < startedAt.toNat + 2 ^ 32 * 1000000) :
    UptimeAnnounced startedAt task.interval.toUInt64
      ((runSteps (node.startNode startedAt) steps).2.filter fun e => e.task = p) := by
  have hbeats := beats_run L (node.startNode startedAt) hp hbuffer hparent hsteps htimes
  have htrail := runSteps_trail (s := node.startNode startedAt) steps hp
  have hsublist := executionTimes_sublist (s := node.startNode startedAt) steps hp
  unfold executionTimes at hsublist
  generalize (runSteps (node.startNode startedAt) steps).2.filter (fun e => e.task = p) =
    executions at hbeats htrail hsublist
  refine ⟨fun e he _ _ _ _ _ _ hpush => (hbeats e he).read L hpush,
    fun e he hq => (hbeats e he).heartbeats_ne_nil L hq, ?_, ?_⟩
  · intro earlier e e' later h
    have hle : e.time.toNat ≤ e'.time.toNat := by
      have horder := hmono.sublist hsublist
      rw [h, List.map_append, List.map_cons, List.map_cons, List.pairwise_append] at horder
      exact List.rel_of_pairwise_cons horder.2.1 (List.mem_cons_self ..)
    exact (hbeats e (by simp [h])).uptime_le L (hbeats e' (by simp [h])) hle
  · intro hinterval earlier e e' later h hwrap
    have hdue : e.time.toNat + task.interval.toUInt64.toNat ≤ e'.time.toNat :=
      (h ▸ htrail).spacing hwrap
    have hsecond : 1000000 ≤ task.interval.toUInt64.toNat := UInt64.le_iff_toNat_le.mp hinterval
    exact (hbeats e (by simp [h])).uptime_lt L (hbeats e' (by simp [h])) (by omega)

/-- A node that has not been started, with its heartbeat due at once. -/
def freshNode : Node SingleFrame.canard Unit 1 :=
  Node.construct 1 () heartbeatNode.host.info none false 0

theorem staysStarted_callsAt (times : List UInt64) :
    ∀ step ∈ callsAt times, StaysStarted step := by
  intro step hstep
  obtain ⟨time, -, rfl⟩ := List.mem_map.mp hstep
  trivial

theorem uptime_announced_heartbeat :
    UptimeAnnounced 5 mega
      ((runSteps (freshNode.startNode 5) (callsAt [5, 600000, 1200000])).2.filter fun e =>
        e.task = 0) :=
  uptime_announced SingleFrame.txLaws freshNode 5 0 0 (.construct .own 1000000) rfl
    List.length_replicate rfl (callsAt [5, 600000, 1200000]) (staysStarted_callsAt _) (by decide)
    (by decide)

/-- A heartbeat of a node that was started at 10 s, on a node that was started at 0. -/
def foreignHeartbeat : List (NodeStep (nodeTasks SingleFrame.canard Unit 1)) :=
  [.schedule ⟨0, .heartbeat (.construct .other 1000000)⟩,
    .checkScheduler (fun _ => { quietEnv with parentStartedAt := 10000000 }) 20000000]

/-- One interval before the clock wraps the next execution is due at once, and a second call at the
same time repeats the uptime. And a heartbeat that was constructed with another node tells that
node's uptime. -/
theorem uptime_repeated_or_foreign :
    ((polls (callsAt [18446744073708551616, 18446744073708551616])).Pairwise (· ≤ ·) ∧
      (∀ t ∈ polls (callsAt [18446744073708551616, 18446744073708551616]),
        18446744073708551616 ≤ t ∧ t < 18446744073708551616 + 2 ^ 32 * 1000000) ∧
      ¬ ∀ earlier e e' later,
        ((runSteps (freshNode.startNode 18446744073708551616)
            (callsAt [18446744073708551616, 18446744073708551616])).2.filter fun e =>
              e.task = 0) = earlier ++ e :: e' :: later →
          ∀ obj ∈ e.heartbeats, ∀ obj' ∈ e'.heartbeats, obj.uptime < obj'.uptime) ∧
    (runSteps (freshNode.startNode 0) foreignHeartbeat).2.map
      (fun e => (e.time, e.heartbeats.map (·.uptime))) = [(20000000, [20]), (20000000, [10])] := by
  refine ⟨⟨by decide, by decide, fun h => ?_⟩, by decide +kernel⟩
  have huptimes : ((runSteps (freshNode.startNode 18446744073708551616)
      (callsAt [18446744073708551616, 18446744073708551616])).2.filter fun e =>
        e.task = 0).map (fun e => e.heartbeats.map (·.uptime)) = [[0], [0]] := by decide +kernel
  generalize ((runSteps (freshNode.startNode 18446744073708551616)
    (callsAt [18446744073708551616, 18446744073708551616])).2.filter fun e => e.task = 0) =
      executions at huptimes h
  obtain ⟨e, rest, rfl, hfirst, hrest⟩ := List.map_eq_cons_iff.mp huptimes
  obtain ⟨e', rest, rfl, hsecond, -⟩ := List.map_eq_cons_iff.mp hrest
  obtain ⟨obj, objs, hobj, hzero, -⟩ := List.map_eq_cons_iff.mp hfirst
  obtain ⟨obj', objs', hobj', hzero', -⟩ := List.map_eq_cons_iff.mp hsecond
  have hgrows := h [] e e' rest rfl obj (by simp [hobj]) obj' (by simp [hobj'])
  rw [hzero, hzero'] at hgrows
  exact absurd hgrows (by decide)

end CyphalOnboard
