import CyphalOnboard.Node
import CyphalOnboard.ProcessSpec

namespace CyphalOnboard

open OpenCyphal

variable {C : Canard} {τ : Type} {R : ℕ} {L : TxLaws C}

/-- The events are pushes of the one transfer, whose frames carry its deadline. -/
def PushesOf (deadline : CanardMicrosecond) (metadata : CanardTransferMetadata)
    (payload : List UInt8) (evs : List (Event R)) : Prop :=
  ∀ e ∈ evs, ∃ i r frames, e = .push i deadline metadata payload r frames ∧
    ∀ item ∈ frames, item.txDeadlineUsec = deadline

theorem pushesOf_nil (deadline : CanardMicrosecond) (metadata : CanardTransferMetadata)
    (payload : List UInt8) : PushesOf deadline metadata payload ([] : List (Event R)) := by
  intro e he
  cases he

theorem PushesOf.append {deadline : CanardMicrosecond} {metadata : CanardTransferMetadata}
    {payload : List UInt8} {evs evs' : List (Event R)} (h : PushesOf deadline metadata payload evs)
    (h' : PushesOf deadline metadata payload evs') :
    PushesOf deadline metadata payload (evs ++ evs') := by
  intro e he
  rcases List.mem_append.mp he with he | he
  · exact h e he
  · exact h' e he

/-- Publishing on an initialised queue is recorded as one push. -/
theorem publishOn_events (L : TxLaws C) {s : OpenCyphal C τ R} (hc : s.crashed = none) {i : Fin R}
    (hq : (s.txQueues i).isSome) (deadline : CanardMicrosecond)
    (metadata : CanardTransferMetadata) (payload : List UInt8) :
    ∃ r frames, (s.publishOn deadline metadata payload i).1.events =
        s.events ++ [.push i deadline metadata payload r frames] ∧
      ∀ item ∈ frames, item.txDeadlineUsec = deadline := by
  obtain ⟨que, hq⟩ := Option.isSome_iff_exists.mp hq
  simp only [publishOn, hc, hq]
  refine ⟨_, _, rfl, ?_⟩
  intro item hitem
  split_ifs at hitem with hr
  · cases hitem
  · exact L.txFrames_deadline _ _ _ _ _ item hitem

theorem publishOn_pushes (L : TxLaws C) (s : OpenCyphal C τ R) (deadline : CanardMicrosecond)
    (metadata : CanardTransferMetadata) (payload : List UInt8) (i : Fin R) :
    ∃ evs, (s.publishOn deadline metadata payload i).1.events = s.events ++ evs ∧
      PushesOf deadline metadata payload evs := by
  have hnone : PushesOf deadline metadata payload ([] : List (Event R)) := pushesOf_nil _ _ _
  cases hc : s.crashed with
  | some f => exact ⟨[], by simp [publishOn, hc], hnone⟩
  | none =>
    cases hq : s.txQueues i with
    | none => exact ⟨[], by simp [publishOn, hc, hq, crash], hnone⟩
    | some que =>
      obtain ⟨r, frames, h, hframes⟩ := publishOn_events L hc (Option.isSome_of_eq_some hq)
        deadline metadata payload
      refine ⟨_, h, ?_⟩
      intro e he
      exact ⟨i, r, frames, List.mem_singleton.mp he, hframes⟩

/-- One push for each interface, until the process ends. -/
theorem foldl_publishOn_pushes (L : TxLaws C) (s : OpenCyphal C τ R) (deadline : CanardMicrosecond)
    (metadata : CanardTransferMetadata) (payload : List UInt8) (l : List (Fin R)) (r : Option ℤ) :
    ∃ evs, (l.foldl (fun acc i => acc.1.publishOn deadline metadata payload i) (s, r)).1.events =
        s.events ++ evs ∧ PushesOf deadline metadata payload evs := by
  induction l generalizing s r with
  | nil => exact ⟨[], by simp, pushesOf_nil _ _ _⟩
  | cons i l ih =>
    rw [List.foldl_cons]
    obtain ⟨evs, h, hpush⟩ := publishOn_pushes L s deadline metadata payload i
    obtain ⟨evs', h', hpush'⟩ := ih (s.publishOn deadline metadata payload i).1
      (s.publishOn deadline metadata payload i).2
    exact ⟨evs ++ evs', by rw [h', h, List.append_assoc], hpush.append hpush'⟩

theorem publish_pushes (L : TxLaws C) (s : OpenCyphal C τ R) (deadline : CanardMicrosecond)
    (metadata : CanardTransferMetadata) (payload : List UInt8) :
    ∃ evs, (s.publish deadline metadata payload).1.events = s.events ++ evs ∧
      PushesOf deadline metadata payload evs :=
  foldl_publishOn_pushes L s deadline metadata payload (List.finRange R) (some 0)

/-- The events recorded since the log had `n` of them. -/
def NodeCore.eventsSince (node : NodeCore C τ R) (n : ℕ) : List (Event R) :=
  node.base.events.drop n

/-- The deadline of what an execution publishes. -/
def NodeTask.deadline (currentTime : UInt64) : NodeTask → CanardMicrosecond
  | heartbeat _ => currentTime + mega
  | byteArray task => currentTime + task.interval - 1
  | latencyMeasurement task => currentTime + task.interval - 1

/-- The metadata of what an execution publishes. -/
def NodeTask.metadata : NodeTask → CanardTransferMetadata
  | heartbeat task => (IPMessage.metadata task.heartbeat).1
  | byteArray task => (IPMessage.metadata task.message).1
  | latencyMeasurement task => (IPMessage.metadata task.primitiveEmpty).1

/-- What a node shows after `evs` were published through it: the base has grown by them, and the
members an execution does not write are as before. -/
structure Published (L : TxLaws C) (node : NodeCore C τ R) (deadline : CanardMicrosecond)
    (metadata : CanardTransferMetadata) (evs : List (Event R)) (node' : NodeCore C τ R) :
    Prop where
  grows : Grows L node.base evs node'.base
  pushes : ∃ payload, PushesOf deadline metadata payload evs
  info : node'.info = node.info
  startedAt : node'.startedAt = node.startedAt
  latency : node'.latency.isSome = node.latency.isSome

theorem published_crash (L : TxLaws C) (node : NodeCore C τ R) (deadline : CanardMicrosecond)
    (metadata : CanardTransferMetadata) (fault : Fault) :
    Published L node deadline metadata [] (node.crash fault) :=
  ⟨grows_crash _ fault, ⟨[], pushesOf_nil _ _ _⟩, rfl, rfl, rfl⟩

theorem published_publish (L : TxLaws C) {M : Type} [IPMessage M] (node : NodeCore C τ R)
    (timeout : CanardMicrosecond) (message : M) :
    ∃ evs, Published L node timeout (IPMessage.metadata message).1 evs
      (node.publish timeout message).2.1 := by
  unfold NodeCore.publish
  cases hm : IPMessage.metadata message with
  | mk metadata message' =>
    cases hs : IPMessage.serializedMessage message' with
    | error fault =>
      simp only [hs]
      exact ⟨[], published_crash L node timeout metadata fault⟩
    | ok r =>
      simp only [hs]
      obtain ⟨evs, hg⟩ := grows_publish L node.base timeout metadata
        (r.1.take (IPMessage.serializedSize r.2))
      obtain ⟨evs', he, hp⟩ := publish_pushes L node.base timeout metadata
        (r.1.take (IPMessage.serializedSize r.2))
      -- both lemmas speak of what was appended to the same log
      obtain rfl : evs = evs' := List.append_cancel_left (hg.events.symm.trans he)
      exact ⟨evs, hg, ⟨_, hp⟩, rfl, rfl, rfl⟩

theorem THeartbeat.published_execute (L : TxLaws C) (env : TaskEnv) (currentTime : UInt64)
    (task : THeartbeat) (node : NodeCore C τ R) :
    ∃ evs, Published L node (currentTime + mega) (IPMessage.metadata task.heartbeat).1 evs
      (task.execute env currentTime node).2 := by
  unfold execute
  cases hs : task.heartbeat.serializeMessage (task.startedAt env node) currentTime
      node.base.health with
  | error fault => exact ⟨[], published_crash L node _ _ fault⟩
  | ok heartbeat =>
    rw [← PMessageHeartbeat.metadata_of_serializeMessage hs]
    exact published_publish L node _ heartbeat

theorem TByteArray.published_execute (L : TxLaws C) (env : TaskEnv) (currentTime : UInt64)
    (task : TByteArray) (node : NodeCore C τ R) :
    ∃ evs, Published L node (currentTime + task.interval - 1)
      (IPMessage.metadata task.message).1 evs (task.execute env currentTime node).2 := by
  unfold execute
  cases hs : task.message.serializeMessage env.frame env.dataAddress task.size with
  | error fault => exact ⟨[], published_crash L node _ _ fault⟩
  | ok r =>
    rw [← PMessageByteArray.metadata_of_serializeMessage hs]
    exact published_publish L node _ r.2

theorem TLatencyMeasurement.published_execute (L : TxLaws C) (env : TaskEnv)
    (currentTime : UInt64) (task : TLatencyMeasurement) (node : NodeCore C τ R) :
    ∃ evs, Published L node (currentTime + task.interval - 1)
      (IPMessage.metadata task.primitiveEmpty).1 evs (task.execute env currentTime node).2 := by
  unfold execute
  cases hl : node.latency with
  | none => exact ⟨[], published_crash L node _ _ .badCast⟩
  | some latency =>
    obtain ⟨evs, h⟩ := published_publish L
      { node with latency := some (Function.update latency
          (slot (IPMessage.metadata task.primitiveEmpty).1.transferId) env.clock) }
      (currentTime + task.interval - 1) task.primitiveEmpty
    exact ⟨evs, h.grows, h.pushes, h.info, h.startedAt, by rw [hl]; exact h.latency⟩

/-- An execution pushes one transfer, with the deadline and the metadata of its task. -/
theorem NodeTask.published_execute (L : TxLaws C) (env : TaskEnv) (currentTime : UInt64)
    (task : NodeTask) (node : NodeCore C τ R) :
    ∃ evs, Published L node (task.deadline currentTime) task.metadata evs
      (task.execute env currentTime node).2 := by
  cases task with
  | heartbeat task => exact task.published_execute L env currentTime node
  | byteArray task => exact task.published_execute L env currentTime node
  | latencyMeasurement task => exact task.published_execute L env currentTime node

/-- Executions do not change the kind of transfer a task publishes. -/
theorem NodeTask.kind_execute (env : TaskEnv) (currentTime : UInt64) (task : NodeTask)
    (node : NodeCore C τ R) :
    (task.execute env currentTime node).1.metadata.transferKind = task.metadata.transferKind := by
  cases task with
  | heartbeat task => rfl
  | byteArray task =>
    simp only [execute, TByteArray.execute, metadata, IPMessage.metadata]
    cases hs : task.message.serializeMessage env.frame env.dataAddress task.size with
    | error fault => rfl
    | ok r =>
      have hmeta := PMessageByteArray.serializeMessage_metadata hs
      simp only [NodeCore.publish, IPMessage.metadata, IPMessage.serializedMessage, hmeta]
  | latencyMeasurement task =>
    simp only [execute, TLatencyMeasurement.execute, metadata, IPMessage.metadata]
    cases node.latency with
    | none => rfl
    | some latency => rfl

/-- The transfer a node publishes in answer to one it has received: the interface, the deadline and
the metadata. Only requests are answered, those for its information by every node and those of a
latency measurement by a node that takes part in one. -/
def answer (measures : Bool) (i : Fin R) (transfer : CanardRxTransfer) :
    Option (Fin R × CanardMicrosecond × CanardTransferMetadata) :=
  if transfer.metadata.transferKind = .request ∧
      (transfer.metadata.portId = getInfoFixedPortId ∨
        measures ∧ transfer.metadata.portId = latencyMeasurementPortId) then
    some (i, transfer.timestampUsec + mega, { transfer.metadata with transferKind := .response })
  else none

/-- A reaction that publishes nothing and does not end the process. -/
def Reaction.Silent : Reaction R → Prop
  | .done => True
  | .crash _ => False
  | .log _ k => k.Silent
  | .publish _ _ _ _ _ => False

/-- A reaction that answers as `answer` says. -/
def Reaction.Answers (reaction : Reaction R) :
    Option (Fin R × CanardMicrosecond × CanardTransferMetadata) → Prop
  | none => reaction.Silent
  | some (i, deadline, metadata) => ∃ payload k,
      reaction = .publish (some i) deadline metadata payload k ∧ ∀ r, (k r).Silent

theorem Reaction.Answers.andThen_silent {reaction next : Reaction R}
    {a : Option (Fin R × CanardMicrosecond × CanardTransferMetadata)} (h : reaction.Answers a)
    (hnext : next.Silent) : (reaction.andThen next).Answers a := by
  have hsilent {first : Reaction R} (hfirst : first.Silent) : (first.andThen next).Silent := by
    induction first with
    | done => exact hnext
    | crash fault => exact hfirst.elim
    | log entry k ih => exact ih hfirst
    | publish i d m p k ih => exact hfirst.elim
  match a, h with
  | none, h => exact hsilent h
  | some (i, deadline, metadata), ⟨payload, k, heq, hk⟩ =>
    subst heq
    exact ⟨payload, fun r => (k r).andThen next, rfl, fun r => hsilent (hk r)⟩

/-- A name within its capacity makes a response that serializes. -/
theorem processRequestNodeGetInfo_ok {info : GetInfoResponse}
    (hname : info.name.count ≤ getInfoNameCapacity) :
    ∃ resp r, processRequestNodeGetInfo info = .ok resp ∧
      resp.serialize (List.replicate getInfoResponseBufferSize 0) getInfoResponseBufferSize =
        .ok r := by
  obtain ⟨resp, hresp, hcount, hcrc, hcoa⟩ : ∃ resp, processRequestNodeGetInfo info = .ok resp ∧
      resp.name.count = info.name.count ∧ resp.softwareImageCrc.count = 0 ∧
      resp.certificateOfAuthenticity.count = 0 :=
    ⟨_, if_neg (not_lt.mpr hname), rfl, rfl, rfl⟩
  obtain ⟨r, hr⟩ := GetInfoResponse.serialize_ok (hcount.trans_le hname)
    (hcrc.trans_le (by decide)) (hcoa.trans_le (by decide))
    (List.replicate getInfoResponseBufferSize 0)
  exact ⟨resp, r, hresp, hr⟩

theorem Node.processReceivedTransfer_answers {info : GetInfoResponse}
    (hname : info.name.count ≤ getInfoNameCapacity) (i : Fin R) (transfer : CanardRxTransfer) :
    (Node.processReceivedTransfer info i transfer).Answers (answer false i transfer) := by
  obtain ⟨resp, r, hresp, hr⟩ := processRequestNodeGetInfo_ok hname
  unfold Node.processReceivedTransfer answer
  simp only [Bool.false_eq_true, false_and, or_false]
  by_cases hkind : transfer.metadata.transferKind = .request
  · by_cases hport : transfer.metadata.portId = getInfoFixedPortId
    · simp only [hkind, hport, and_self, if_true, hresp, hr]
      exact ⟨_, _, rfl, fun _ => trivial⟩
    · simp only [hkind, hport, and_false, if_true, if_false]
      trivial
  · simp only [hkind, false_and, if_false]
    trivial

theorem LatencyMeasurementNode.processReceivedTransfer_answers {info : GetInfoResponse}
    (hname : info.name.count ≤ getInfoNameCapacity) (latency : Fin 32 → UInt64)
    (clock : Fin R → UInt64) (i : Fin R) {transfer : CanardRxTransfer}
    (htid : transfer.metadata.transferId < 32) :
    (LatencyMeasurementNode.processReceivedTransfer info latency clock i transfer).Answers
      (answer true i transfer) := by
  have hbase := Node.processReceivedTransfer_answers hname i transfer
  have hlt : transfer.metadata.transferId.toNat < 32 := UInt8.lt_iff_toNat_lt.mp htid
  have h430 : getInfoFixedPortId ≠ latencyMeasurementPortId ∧
      getInfoFixedPortId ≠ latencyMeasurementPortId + 1 := by decide
  unfold processReceivedTransfer
  cases hkind : transfer.metadata.transferKind with
  | message =>
    simp only [answer, hkind, reduceCtorEq, false_and, if_false] at hbase ⊢
    exact hbase.andThen_silent trivial
  | response =>
    simp only [answer, hkind, reduceCtorEq, false_and, if_false, if_true] at hbase ⊢
    apply hbase.andThen_silent
    rw [dif_pos hlt]
    split_ifs <;> trivial
  | request =>
    by_cases hport : transfer.metadata.portId = getInfoFixedPortId
    · simp only [answer, hkind, hport, true_and, true_or, if_true, h430.1, h430.2, if_false,
        reduceCtorEq] at hbase ⊢
      exact hbase.andThen_silent trivial
    · simp only [answer, hkind, hport, true_and, false_or, if_true, if_false, Bool.false_eq_true,
        false_and, reduceCtorEq] at hbase ⊢
      -- the base class is silent: what follows decides
      have hdone : Node.processReceivedTransfer info i transfer = .done := by
        simp only [Node.processReceivedTransfer, hkind, hport, if_true, if_false]
      rw [hdone]
      by_cases hmeasure : transfer.metadata.portId = latencyMeasurementPortId
      · simp only [hmeasure, if_true]
        exact ⟨_, _, rfl, fun _ => trivial⟩
      · simp only [hmeasure, if_false]
        split_ifs <;> trivial

/-- What a node's handler answers. -/
theorem NodeCore.receiver_answers {node : NodeCore C τ R}
    (hname : node.info.name.count ≤ getInfoNameCapacity) (clock : Fin R → UInt64) (i : Fin R)
    {transfer : CanardRxTransfer} (htid : transfer.metadata.transferId < 32) :
    (node.receiver clock i transfer).Answers (answer node.latency.isSome i transfer) := by
  unfold receiver
  cases hl : node.latency with
  | none => exact Node.processReceivedTransfer_answers hname i transfer
  | some latency =>
    exact LatencyMeasurementNode.processReceivedTransfer_answers hname latency clock i htid

end CyphalOnboard
