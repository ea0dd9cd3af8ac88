import CyphalOnboard.NodeSpec
import CyphalOnboard.Periods

namespace CyphalOnboard

open OpenCyphal

variable {C : Canard} {τ : Type} {R : ℕ}

/-- The interfaces and transfer-IDs an execution pushed under, in order. -/
def Execution.pushedIds (e : Execution (nodeTasks C τ R)) : List (Fin R × CanardTransferID) :=
  ((e.after.eventsSince e.before.base.events.length).filterMap Event.pushed).map
    fun x => (x.1, x.2.2.transferId)

/-- The transfer-IDs pushed under on one interface. -/
def idsOn (i : Fin R) (executions : List (Execution (nodeTasks C τ R))) : List CanardTransferID :=
  ((executions.flatMap Execution.pushedIds).filter fun x => x.1 = i).map Prod.snd

/-- The executions of a task use the transfer-IDs from `first` on: each one the next, on all
interfaces unless the process ends in it. -/
structure Sequenced (first : CanardTransferID) (executions : List (Execution (nodeTasks C τ R))) :
    Prop where
  redundant : ∀ n e, executions[n]? = some e →
    ∃ l, l <+: List.finRange R ∧ e.pushedIds = l.map (·, first + UInt8.ofNat n) ∧
      (e.after.base.crashed = none → l = List.finRange R)
  successor : ∀ i earlier a b later, idsOn i executions = earlier ++ a :: b :: later →
    b = a + 1 ∧ b.toNat % 32 = (a.toNat % 32 + 1) % 32

/-- The pushes of one publication, on one interface after another until the process ends. -/
theorem publish_pushed (s : OpenCyphal C τ R) (deadline : CanardMicrosecond)
    (metadata : CanardTransferMetadata) (payload : List UInt8) :
    ∃ evs l, (s.publish deadline metadata payload).1.events = s.events ++ evs ∧
      l <+: List.finRange R ∧ evs.filterMap Event.pushed = l.map (·, deadline, metadata) ∧
      ((s.publish deadline metadata payload).1.crashed = none → l = List.finRange R) := by
  unfold publish
  generalize (some 0 : Option ℤ) = r
  induction List.finRange R generalizing s r with
  | nil => exact ⟨[], [], by simp, List.nil_prefix, rfl, fun _ => rfl⟩
  | cons i is ih =>
    cases hc : s.crashed with
    | some fault =>
      rw [foldl_publishOn_crashed hc]
      exact ⟨[], [], by simp, List.nil_prefix, rfl, by simp [hc]⟩
    | none =>
      rw [List.foldl_cons]
      cases hq : s.txQueues i with
      | none =>
        have hcrash : s.publishOn deadline metadata payload i =
            (s.crash (.uninitialisedQueue i), none) := by simp only [publishOn, hc, hq]
        have hended : (s.crash (.uninitialisedQueue i)).crashed =
            some (.uninitialisedQueue i) := rfl
        rw [hcrash, foldl_publishOn_crashed hended]
        exact ⟨[], [], by simp [crash], List.nil_prefix, rfl,
          fun h => absurd h (Option.some_ne_none _)⟩
      | some que =>
        obtain ⟨evs, l, he, hl, hpushed, hall⟩ := ih (s.publishOn deadline metadata payload i).1
          (s.publishOn deadline metadata payload i).2
        obtain ⟨x, hx⟩ : ∃ x : ℤ × List CanardTxQueueItem,
            (s.publishOn deadline metadata payload i).1.events =
              s.events ++ [.push i deadline metadata payload x.1 x.2] := by
          simp only [publishOn, hc, hq]
          exact ⟨(_, _), rfl⟩
        refine ⟨.push i deadline metadata payload x.1 x.2 :: evs, i :: l, ?_,
          List.cons_prefix_cons.mpr ⟨rfl, hl⟩, ?_, fun h => congrArg (i :: ·) (hall h)⟩
        · rw [he, hx, List.append_assoc, List.singleton_append]
        · rw [List.filterMap_cons, hpushed]
          rfl

/-- The log between a node and itself after something was published under `metadata`. -/
def PushedUnder (deadline : CanardMicrosecond) (metadata : CanardTransferMetadata)
    (node node' : NodeCore C τ R) : Prop :=
  ∃ evs l, node'.base.events = node.base.events ++ evs ∧ l <+: List.finRange R ∧
    evs.filterMap Event.pushed = l.map (·, deadline, metadata) ∧
    (node'.base.crashed = none → l = List.finRange R)

theorem pushedUnder_crash (deadline : CanardMicrosecond) (metadata : CanardTransferMetadata)
    (node : NodeCore C τ R) (fault : Fault) :
    PushedUnder deadline metadata node (node.crash fault) :=
  ⟨[], [], by simp [NodeCore.crash, crash], List.nil_prefix, rfl,
    fun h => absurd h (Option.some_ne_none fault)⟩

theorem pushedUnder_publish {M : Type} [IPMessage M] (node : NodeCore C τ R)
    (timeout : CanardMicrosecond) (message : M) :
    PushedUnder timeout (IPMessage.metadata message).1 node (node.publish timeout message).2.1 := by
  unfold NodeCore.publish
  cases hm : IPMessage.metadata message with
  | mk metadata message' =>
    cases hs : IPMessage.serializedMessage message' with
    | error fault =>
      simp only [hs]
      exact pushedUnder_crash _ _ node fault
    | ok r =>
      simp only [hs]
      exact publish_pushed node.base timeout metadata _

/-- An execution pushes under the metadata of its task, and unless it ends the process the next one
will under the same with the next transfer-ID. -/
theorem NodeTask.pushedUnder_execute (env : TaskEnv) (currentTime : UInt64) (task : NodeTask)
    (node : NodeCore C τ R) :
    PushedUnder (task.deadline currentTime) task.metadata node
        (task.execute env currentTime node).2 ∧
      ((task.execute env currentTime node).2.base.crashed = none →
        (task.execute env currentTime node).1.metadata.transferId =
          task.metadata.transferId + 1) := by
  cases task with
  | heartbeat task =>
    simp only [execute, THeartbeat.execute, deadline, metadata]
    cases hs : task.heartbeat.serializeMessage (task.startedAt env node) currentTime
        node.base.health with
    | error fault => exact ⟨pushedUnder_crash _ _ node fault,
        fun h => absurd h (Option.some_ne_none fault)⟩
    | ok heartbeat =>
      have hid := PMessageHeartbeat.serializeMessage_transferId hs
      have hmeta := PMessageHeartbeat.metadata_of_serializeMessage hs
      refine ⟨hmeta ▸ pushedUnder_publish node _ heartbeat, fun _ => ?_⟩
      simp only [NodeCore.publish, IPMessage.metadata, IPMessage.serializedMessage, hid]
  | byteArray task =>
    simp only [execute, TByteArray.execute, deadline, metadata]
    cases hs : task.message.serializeMessage env.frame env.dataAddress task.size with
    | error fault => exact ⟨pushedUnder_crash _ _ node fault,
        fun h => absurd h (Option.some_ne_none fault)⟩
    | ok r =>
      have hid := PMessageByteArray.serializeMessage_metadata hs
      have hmeta := PMessageByteArray.metadata_of_serializeMessage hs
      refine ⟨hmeta ▸ pushedUnder_publish node _ r.2, fun _ => ?_⟩
      simp only [NodeCore.publish, IPMessage.metadata, IPMessage.serializedMessage, hid]
  | latencyMeasurement task =>
    simp only [execute, TLatencyMeasurement.execute, deadline, metadata]
    cases node.latency with
    | none => exact ⟨pushedUnder_crash _ _ node .badCast,
        fun h => absurd h (Option.some_ne_none _)⟩
    | some latency =>
      -- the metadata read before the publication leaves the counter as it is
      exact ⟨pushedUnder_publish _ _ task.primitiveEmpty, fun _ => rfl⟩

theorem ofNat_succ (first : UInt8) (n : ℕ) :
    first + 1 + UInt8.ofNat n = first + UInt8.ofNat (n + 1) := by
  rw [UInt8.ofNat_add, UInt8.add_assoc, UInt8.add_comm 1]
  rfl

theorem pushedIds_of_after {e : Execution (nodeTasks C τ R)} {env : TaskEnv} {task : NodeTask}
    (h : e.after = (task.execute env e.time e.before).2) :
    ∃ l, l <+: List.finRange R ∧ e.pushedIds = l.map (·, task.metadata.transferId) ∧
      (e.after.base.crashed = none → l = List.finRange R) := by
  obtain ⟨⟨evs, l, he, hl, hpushed, hall⟩, -⟩ := task.pushedUnder_execute env e.time e.before
  refine ⟨l, hl, ?_, fun hc => hall (h ▸ hc)⟩
  unfold Execution.pushedIds NodeCore.eventsSince
  rw [h, he, List.drop_left, hpushed, List.map_map]
  rfl

/-- An execution that is not the last leaves the process running and the next transfer-ID. -/
theorem next_of_later {e : Execution (nodeTasks C τ R)} {env : TaskEnv} {task : NodeTask}
    {later : List (Execution (nodeTasks C τ R))}
    (after : e.after = (task.execute env e.time e.before).2)
    (last : ¬ (nodeTasks C τ R).running e.after → later = []) (h : later ≠ []) :
    e.after.base.crashed = none ∧
      (task.execute env e.time e.before).1.metadata.transferId = task.metadata.transferId + 1 := by
  have hrun : (nodeTasks C τ R).running e.after := by
    by_contra hend
    exact h (last hend)
  have hc : e.after.base.crashed = none := Option.isNone_iff_eq_none.mp hrun
  exact ⟨hc, (task.pushedUnder_execute env e.time e.before).2 (after ▸ hc)⟩

/-- The executions of a task push under one transfer-ID after the other. -/
theorem pushedIds_trail {p : ℕ} {task : Task (nodeTasks C τ R)}
    {executions : List (Execution (nodeTasks C τ R))} (h : Trail p task executions) (n : ℕ)
    (e : Execution (nodeTasks C τ R)) (he : executions[n]? = some e) :
    ∃ l, l <+: List.finRange R ∧
      e.pushedIds = l.map (·, (NodeTask.metadata task.body).transferId + UInt8.ofNat n) ∧
      (e.after.base.crashed = none → l = List.finRange R) := by
  induction h generalizing n with
  | nil => cases he
  | cons hpos hdue hrun hafter hlast hrest ih =>
    cases n with
    | zero =>
      obtain rfl := Option.some.inj he
      obtain ⟨l, hl, hids, hall⟩ := pushedIds_of_after hafter
      exact ⟨l, hl, by simpa using hids, hall⟩
    | succ n =>
      obtain ⟨-, hnext⟩ := next_of_later hafter hlast (by rintro rfl; cases he)
      obtain ⟨l, hl, hids, hall⟩ := ih n he
      refine ⟨l, hl, ?_, hall⟩
      rw [hids, ← ofNat_succ, ← hnext]
      rfl

theorem ids_of_interface (i : Fin R) (l : List (Fin R)) (id : CanardTransferID) :
    ((l.map (·, id)).filter fun x => x.1 = i).map Prod.snd = List.replicate (l.count i) id := by
  rw [List.filter_map, List.map_map]
  change (l.filter (· = i)).map (fun _ => id) = _
  rw [List.filter_eq, List.map_replicate]

/-- On one interface no transfer-ID is left out or repeated. -/
theorem idsOn_trail {p : ℕ} {task : Task (nodeTasks C τ R)}
    {executions : List (Execution (nodeTasks C τ R))} (h : Trail p task executions) (i : Fin R) :
    ∃ m, idsOn i executions =
      (List.range m).map fun k => (NodeTask.metadata task.body).transferId + UInt8.ofNat k := by
  induction h with
  | nil => exact ⟨0, rfl⟩
  | @cons task env e later hpos hdue hrun hafter hlast hrest ih =>
    obtain ⟨l, hl, hids, hall⟩ := pushedIds_of_after hafter
    have hcons : idsOn i (e :: later) =
        List.replicate (l.count i) (NodeTask.metadata task.body).transferId ++ idsOn i later := by
      rw [idsOn, List.flatMap_cons, List.filter_append, List.map_append, hids, ids_of_interface]
      rfl
    rw [hcons]
    by_cases hend : later = []
    · -- the process may end before the last publication gets to interface `i`
      have hcount : l.count i ≤ 1 :=
        (hl.sublist.count_le i).trans (List.nodup_iff_count_le_one.mp (List.nodup_finRange R) i)
      refine ⟨l.count i, ?_⟩
      subst hend
      obtain h0 | h1 : l.count i = 0 ∨ l.count i = 1 := by omega
      · rw [h0]
        rfl
      · rw [h1]
        simp [idsOn]
    · obtain ⟨hc, hnext⟩ := next_of_later hafter hlast hend
      obtain ⟨m, hm⟩ := ih
      have hone : l.count i = 1 := by
        rw [hall hc]
        exact List.count_eq_one_of_mem (List.nodup_finRange R) (List.mem_finRange i)
      have hshift (k : ℕ) : (NodeTask.metadata
          (NodeTask.execute env e.time task.body e.before).1).transferId + UInt8.ofNat k =
          (NodeTask.metadata task.body).transferId + UInt8.ofNat (k + 1) := by
        rw [hnext, ofNat_succ]
      refine ⟨m + 1, ?_⟩
      rw [hm, hone, List.range_succ_eq_map, List.map_cons, List.map_map]
      refine congrArg₂ List.cons (by simp) (List.map_congr_left fun k _ => hshift k)

theorem consecutive_of_range {α : Type*} {f : ℕ → α} {m : ℕ} {earlier later : List α} {a b : α}
    (h : (List.range m).map f = earlier ++ a :: b :: later) :
    a = f earlier.length ∧ b = f (earlier.length + 1) := by
  have hget {k : ℕ} {x : α} (hx : (earlier ++ a :: b :: later)[k]? = some x) : x = f k := by
    rw [← h, List.getElem?_map, Option.map_eq_some_iff] at hx
    obtain ⟨j, hj, rfl⟩ := hx
    obtain ⟨-, rfl⟩ := List.getElem?_eq_some_iff.mp hj
    rw [List.getElem_range]
  exact ⟨hget (by simp), hget (by simp)⟩

/-- Over every run, whatever else the node publishes in it and whichever pushes fail, each
execution of a task publishes under the transfer-ID after that of the one before it, the same on
all interfaces. -/
theorem transfer_ids_sequenced (node : Node C τ R) (p : ℕ) (task : Task (nodeTasks C τ R))
    (hp : node.schedule[p]? = some task) (steps : List (NodeStep (nodeTasks C τ R))) :
    Sequenced (NodeTask.metadata task.body).transferId
      ((runSteps node steps).2.filter fun e => e.task = p) where
  redundant := pushedIds_trail (runSteps_trail steps hp)
  successor i earlier a b later h := by
    obtain ⟨m, hm⟩ := idsOn_trail (runSteps_trail steps hp) i
    obtain ⟨ha, hb⟩ := consecutive_of_range (hm.symm.trans h)
    have hab : b = a + 1 := by
      rw [ha, hb, UInt8.ofNat_add, UInt8.add_assoc]
      rfl
    refine ⟨hab, ?_⟩
    have hnat : b.toNat = (a.toNat + 1) % 256 := by
      rw [hab]
      exact UInt8.toNat_add a 1
    omega

/-- The second heartbeat of a node carries transfer-ID 1. -/
theorem transfer_ids_sequenced_heartbeat :
    Sequenced 0 ((runSteps heartbeatNode (callsAt [0, 1000000])).2.filter fun e => e.task = 0) :=
  transfer_ids_sequenced heartbeatNode 0 _ rfl (callsAt [0, 1000000])

end CyphalOnboard
