import CyphalOnboard.RequestResponse
import CyphalOnboard.Library.SlotRing

namespace CyphalOnboard

open OpenCyphal

variable {C : Canard} {τ : Type} {R : ℕ}

inductive Party where
  | requester
  | responder
  deriving DecidableEq

def Party.other : Party → Party
  | requester => responder
  | responder => requester

/-- A transfer on the bus. `number` says which of the requests it carries or answers; the nodes
do not see it. -/
structure Parcel (R : ℕ) where
  number : ℕ
  source : Party
  ifidx : Fin R
  metadata : CanardTransferMetadata
  deriving DecidableEq

/-- The transfer libcanard makes of it: the remote node is now the source, and five bits of the
transfer-ID were on the wire. -/
def Parcel.received (id : Party → CanardNodeID) (parcel : Parcel R)
    (timestamp : CanardMicrosecond) (payload : Option (List UInt8)) : CanardRxTransfer where
  metadata := { parcel.metadata with
    remoteNodeId := id parcel.source
    transferId := parcel.metadata.transferId % 32 }
  timestampUsec := timestamp
  payload := payload

/-- The transfers pushed on the way from `s` to `s'`. -/
def parcels (number : ℕ) (source : Party) (s s' : OpenCyphal C τ R) : List (Parcel R) :=
  ((s'.events.drop s.events.length).filterMap Event.pushed).map fun x =>
    ⟨number, source, x.1, x.2.2⟩

/-- The two nodes and the bus, with the value of the clock at each request so far. -/
structure Measurement (C : Canard) (τ : Type) (R : ℕ) where
  nodes : Party → Node C τ R
  stamps : List UInt64
  bus : List (Parcel R)

/-- `deliver k` hands over the transfer that was sent as number `k`, `foreign` one of another port.
`service` stands for what else is done to a node's queues. -/
inductive MeasurementStep (C : Canard) (τ : Type) (R : ℕ) where
  | startNode (party : Party) (startedAt : UInt64)
  | checkScheduler (party : Party) (env : ℕ → TaskEnv) (time : UInt64)
  | service (party : Party) (f : OpenCyphal C τ R → OpenCyphal C τ R)
  | deliver (k : ℕ) (timestamp : CanardMicrosecond) (payload : Option (List UInt8))
      (clock : Fin R → UInt64)
  | foreign (party : Party) (ifidx : Fin R) (transfer : CanardRxTransfer)
      (clock : Fin R → UInt64)

namespace Measurement

def setNode (m : Measurement C τ R) (party : Party) (node : Node C τ R) : Measurement C τ R :=
  { m with nodes := Function.update m.nodes party node }

def setBase (m : Measurement C τ R) (party : Party) (base : OpenCyphal C τ R) :
    Measurement C τ R :=
  m.setNode party { m.nodes party with host := { (m.nodes party).host with base := base } }

/-- The base of a party once `HandleTxRxQueues` has passed a transfer on to its receiver. -/
def delivered (m : Measurement C τ R) (party : Party) (ifidx : Fin R)
    (transfer : CanardRxTransfer) (clock : Fin R → UInt64) : OpenCyphal C τ R :=
  OpenCyphal.deliver ifidx transfer 0 [(m.nodes party).host.receiver clock]
    (m.nodes party).host.base

/-- The executions of the requester's task at position `p` are the requests. -/
def requests (p : ℕ) (party : Party) (executions : List (Execution (nodeTasks C τ R))) :
    List (Execution (nodeTasks C τ R)) :=
  if party = .requester then executions.filter fun e => e.task = p else []

def step (id : Party → CanardNodeID) (p : ℕ) (m : Measurement C τ R) :
    MeasurementStep C τ R → Measurement C τ R
  | .startNode party startedAt => m.setNode party ((m.nodes party).startNode startedAt)
  | .checkScheduler party env time =>
    let r := (m.nodes party).checkScheduler env time
    let requests := requests p party r.2
    { m.setNode party r.1 with
      stamps := m.stamps ++ requests.map fun _ => (env p).clock
      bus := m.bus ++ (requests.zipIdx m.stamps.length).flatMap fun x =>
        parcels x.2 party (NodeCore.base x.1.before) (NodeCore.base x.1.after) }
  | .service party f => m.setBase party (f (m.nodes party).host.base)
  | .deliver k timestamp payload clock =>
    match m.bus[k]? with
    | none => m
    | some parcel =>
      let party := parcel.source.other
      if parcel.metadata.remoteNodeId = id party then
        let base := m.delivered party parcel.ifidx (parcel.received id timestamp payload) clock
        { m.setBase party base with
          bus := m.bus ++ parcels parcel.number party (m.nodes party).host.base base }
      else m
  | .foreign party ifidx transfer clock =>
    if transfer.metadata.portId = latencyMeasurementPortId then m
    else m.setBase party (m.delivered party ifidx transfer clock)

def run (id : Party → CanardNodeID) (p : ℕ) (m : Measurement C τ R)
    (steps : List (MeasurementStep C τ R)) : Measurement C τ R :=
  steps.foldl (step id p) m

end Measurement

/-- The tasks that write `latency_`. -/
def NodeTask.Measures : NodeTask → Prop
  | latencyMeasurement _ => True
  | _ => False

theorem NodeCore.publish_latency {M : Type} [IPMessage M] (node : NodeCore C τ R)
    (timeout : CanardMicrosecond) (message : M) :
    (node.publish timeout message).2.1.latency = node.latency := by
  unfold NodeCore.publish
  cases IPMessage.metadata message with
  | mk metadata message' =>
    cases hs : IPMessage.serializedMessage message' with
    | error fault => simp only [hs, NodeCore.crash]
    | ok r => simp only [hs]

/-- Other tasks leave `latency_` alone. -/
theorem NodeTask.latency_execute (env : TaskEnv) (time : UInt64) {task : NodeTask}
    (h : ¬ task.Measures) (node : NodeCore C τ R) :
    ¬ (task.execute env time node).1.Measures ∧
      (task.execute env time node).2.latency = node.latency := by
  cases task with
  | heartbeat task =>
    refine ⟨id, ?_⟩
    simp only [execute, THeartbeat.execute]
    split
    · rfl
    · exact node.publish_latency _ _
  | byteArray task =>
    refine ⟨id, ?_⟩
    simp only [execute, TByteArray.execute]
    split
    · rfl
    · exact node.publish_latency _ _
  | latencyMeasurement task => exact absurd trivial h

/-- The next message of the task is request number `n`. -/
structure TLatencyMeasurement.Numbered (task : TLatencyMeasurement) (n : ℕ) : Prop where
  kind : task.primitiveEmpty.metadata.transferKind = .request
  port : task.primitiveEmpty.metadata.portId = latencyMeasurementPortId
  transferId : task.primitiveEmpty.metadata.transferId = UInt8.ofNat n

/-- The 8-bit transfer-ID wraps at a multiple of the number of slots. -/
theorem ofNat_mod_32 (n : ℕ) : (UInt8.ofNat n).toNat % 32 = n % 32 := by
  rw [UInt8.toNat_ofNat']
  exact Nat.mod_mod_of_dvd n (by decide)

/-- An execution stamps the slot of its request and goes on to the next number. -/
theorem TLatencyMeasurement.execute_numbered (env : TaskEnv) (time : UInt64)
    {task : TLatencyMeasurement} {n : ℕ} (h : task.Numbered n) {node : NodeCore C τ R}
    {latency : Fin 32 → UInt64} (hl : node.latency = some latency) :
    (task.execute env time node).1.Numbered (n + 1) ∧
      (task.execute env time node).2.latency =
        some (Function.update latency (Fin.ofNat 32 n) env.clock) := by
  have hslot : slot task.primitiveEmpty.metadata.transferId = Fin.ofNat 32 n := by
    rw [h.transferId]
    exact Fin.ext (ofNat_mod_32 n)
  unfold execute
  rw [hl]
  refine ⟨⟨h.kind, h.port, ?_⟩, ?_⟩
  · change task.primitiveEmpty.metadata.transferId + 1 = _
    rw [h.transferId, UInt8.ofNat_add]
    rfl
  · simp only [NodeCore.publish_latency, IPMessage.metadata, hslot]

/-- The requester: its one latency measurement is at position `p` and will send the request after
those stamped so far, and `latency_` holds the last of the stamps. -/
structure Requesting (p : ℕ) (stamps : List UInt64) (node : Node C τ R) : Prop where
  tasks : ∃ nextRun task, node.Only (fun body => ¬ NodeTask.Measures body) p
      ⟨nextRun, NodeTask.latencyMeasurement task⟩ ∧ task.Numbered stamps.length
  latency : ∃ latency, node.host.latency = some latency ∧ SlotRing.Holds latency stamps

/-- A transfer on the bus is one of the requests sent so far or a response to one, and its
transfer-ID agrees with the number of the request. -/
structure Parcel.Tagged (count : ℕ) (parcel : Parcel R) : Prop where
  number : parcel.number < count
  kind : parcel.metadata.transferKind =
    match parcel.source with
    | .requester => .request
    | .responder => .response
  port : parcel.metadata.portId = latencyMeasurementPortId
  transferId : parcel.metadata.transferId.toNat % 32 = parcel.number % 32

theorem Parcel.Tagged.mono {count count' : ℕ} {parcel : Parcel R} (h : parcel.Tagged count)
    (hle : count ≤ count') : parcel.Tagged count' :=
  ⟨h.number.trans_le hle, h.kind, h.port, h.transferId⟩

structure Measurement.Inv (p : ℕ) (m : Measurement C τ R) : Prop where
  requester : Requesting p m.stamps (m.nodes .requester)
  bus : ∀ parcel ∈ m.bus, parcel.Tagged m.stamps.length

theorem parcels_of_quiet {s s' : OpenCyphal C τ R} {evs : List (Event R)}
    (hevs : s'.events = s.events ++ evs) (h : ∀ e ∈ evs, e.pushed = none) (number : ℕ)
    (source : Party) : parcels number source s s' = [] := by
  unfold parcels
  rw [hevs, List.drop_left, List.filterMap_eq_nil_iff.mpr h, List.map_nil]

theorem parcels_self (s : OpenCyphal C τ R) (number : ℕ) (source : Party) :
    parcels number source s s = [] :=
  parcels_of_quiet (List.append_nil _).symm (List.forall_mem_nil _) number source

theorem parcels_record {e : Event R} (he : e.pushed = none) {s s' : OpenCyphal C τ R}
    {evs : List (Event R)} (hevs : s'.events = (s.record e).events ++ evs) (number : ℕ)
    (source : Party) : parcels number source s s' = parcels number source (s.record e) s' := by
  unfold parcels
  rw [hevs, List.drop_left, record, List.append_assoc, List.drop_left, List.singleton_append,
    List.filterMap_cons, he]

/-- What is pushed under one metadata. -/
theorem PushesOf.parcels {deadline : CanardMicrosecond} {metadata : CanardTransferMetadata}
    {payload : List UInt8} {evs : List (Event R)} (h : PushesOf deadline metadata payload evs)
    {s s' : OpenCyphal C τ R} (hevs : s'.events = s.events ++ evs) (number : ℕ)
    (source : Party) :
    ∀ parcel ∈ CyphalOnboard.parcels number source s s',
      ∃ i, parcel = ⟨number, source, i, metadata⟩ := by
  intro parcel hparcel
  unfold CyphalOnboard.parcels at hparcel
  rw [hevs, List.drop_left, List.mem_map] at hparcel
  obtain ⟨x, hx, rfl⟩ := hparcel
  obtain ⟨e, he, hpushed⟩ := List.mem_filterMap.mp hx
  obtain ⟨i, r, frames, rfl, -⟩ := h e he
  rw [← Option.some.inj hpushed]
  exact ⟨i, rfl⟩

/-- An execution of the task puts its request on the bus. -/
theorem TLatencyMeasurement.execute_parcels (L : TxLaws C) (env : TaskEnv) (time : UInt64)
    {task : TLatencyMeasurement} {n : ℕ} (h : task.Numbered n) (node : NodeCore C τ R) :
    ∀ parcel ∈ parcels n .requester node.base (task.execute env time node).2.base,
      parcel.Tagged (n + 1) := by
  intro parcel hparcel
  obtain ⟨evs, hpub⟩ := task.published_execute L env time node
  obtain ⟨payload, hpush⟩ := hpub.pushes
  obtain ⟨i, rfl⟩ := hpush.parcels hpub.grows.events n .requester parcel hparcel
  refine ⟨Nat.lt_succ_self n, h.kind, h.port, ?_⟩
  change (IPMessage.metadata task.primitiveEmpty).1.transferId.toNat % 32 = n % 32
  exact (congrArg (fun x : CanardTransferID => x.toNat % 32) h.transferId).trans (ofNat_mod_32 n)

/-- A call of the requester's scheduler sends at most one request, stamped with the clock. -/
theorem requesting_checkScheduler (L : TxLaws C) {p : ℕ} {stamps : List UInt64}
    {node : Node C τ R} (h : Requesting p stamps node) (env : ℕ → TaskEnv) (time : UInt64) :
    Requesting p (stamps ++ (Measurement.requests p .requester
        (node.checkScheduler env time).2).map fun _ => (env p).clock)
      (node.checkScheduler env time).1 ∧
    (Measurement.requests p .requester (node.checkScheduler env time).2 = [] ∨
      ∃ e, Measurement.requests p .requester (node.checkScheduler env time).2 = [e] ∧
        ∀ parcel ∈ parcels stamps.length .requester (NodeCore.base e.before)
            (NodeCore.base e.after), parcel.Tagged (stamps.length + 1)) := by
  obtain ⟨nextRun, task, honly, hnumbered⟩ := h.tasks
  obtain ⟨latency, hlatency, hholds⟩ := h.latency
  have hquiet (latency : Fin 32 → UInt64) (env : TaskEnv) (time : UInt64) (body : NodeTask)
      (host : NodeCore C τ R) (hbody : ¬ body.Measures) (hhost : host.latency = some latency) :
      ¬ (body.execute env time host).1.Measures ∧
        (body.execute env time host).2.latency = some latency :=
    ⟨(body.latency_execute env time hbody host).1,
      (body.latency_execute env time hbody host).2.trans hhost⟩
  have hrequests : Measurement.requests p .requester (node.checkScheduler env time).2 =
      (node.checkScheduler env time).2.filter fun e => e.task = p := if_pos rfl
  rw [hrequests]
  -- the stamps are the old ones up to the task's turn and the new ones from then on
  rcases checkScheduler_only (K := nodeTasks C τ R) (hquiet latency) (hquiet _) honly hlatency env
      time fun host hhost => (task.execute_numbered (env p) time hnumbered hhost).2
    with ⟨hnone, honly', hlatency'⟩ | ⟨host, hhost, hone, honly', hlatency'⟩
  · rw [hnone]
    simp only [List.map_nil, List.append_nil]
    exact ⟨⟨⟨nextRun, task, honly', hnumbered⟩, latency, hlatency', hholds⟩, .inl trivial⟩
  · rw [hone]
    refine ⟨⟨⟨_, _, honly', ?_⟩, _, hlatency', hholds.push (env p).clock⟩,
      .inr ⟨_, rfl, task.execute_parcels L (env p) time hnumbered host⟩⟩
    rw [List.length_append]
    exact (task.execute_numbered (env p) time hnumbered hhost).1

/-- A node that takes part in measurements answers a request, a plain node is silent. -/
theorem NodeCore.receiver_request (node : NodeCore C τ R) (clock : Fin R → UInt64) (i : Fin R)
    (transfer : CanardRxTransfer) (hkind : transfer.metadata.transferKind = .request)
    (hport : transfer.metadata.portId = latencyMeasurementPortId) :
    node.receiver clock i transfer = .done ∨ node.receiver clock i transfer =
      .publish (some i) (transfer.timestampUsec + mega)
        { transfer.metadata with transferKind := .response } [] fun _ => .done := by
  have h430 : latencyMeasurementPortId ≠ getInfoFixedPortId := by decide
  have hbase : Node.processReceivedTransfer node.info i transfer = .done := by
    simp only [Node.processReceivedTransfer, hkind, hport, if_true, if_neg h430]
  unfold NodeCore.receiver
  cases node.latency with
  | none => exact .inl hbase
  | some latency =>
    right
    simp only [LatencyMeasurementNode.processReceivedTransfer, hbase, hkind, hport, if_true,
      reduceCtorEq, if_false]
    rfl

/-- A response is measured against the slot its transfer-ID selects. -/
theorem NodeCore.receiver_response {node : NodeCore C τ R} {latency : Fin 32 → UInt64}
    (hl : node.latency = some latency) (clock : Fin R → UInt64) (i : Fin R)
    {transfer : CanardRxTransfer} (hkind : transfer.metadata.transferKind = .response)
    (hport : transfer.metadata.portId = latencyMeasurementPortId)
    (hlt : transfer.metadata.transferId.toNat < 32) :
    node.receiver clock i transfer =
      .log (.latency transfer.metadata.remoteNodeId transfer.metadata.transferId
        (clock i - latency ⟨transfer.metadata.transferId.toNat, hlt⟩)) .done := by
  have hbase : Node.processReceivedTransfer node.info i transfer = .done := by
    simp only [Node.processReceivedTransfer, hkind, reduceCtorEq, if_false]
  unfold NodeCore.receiver
  rw [hl]
  simp only [LatencyMeasurementNode.processReceivedTransfer, hbase, hkind, hport, if_true,
    reduceCtorEq, if_false, dif_pos hlt]
  rfl

theorem deliver_of_crashed (receiver : Receiver R) (i : Fin R) (transfer : CanardRxTransfer)
    {s : OpenCyphal C τ R} {fault : Fault} (hc : s.crashed = some fault) :
    deliver i transfer 0 [receiver] s = s := by
  simp only [deliver, hc]

theorem run_publish_done (s : OpenCyphal C τ R) (i : Fin R) (deadline : CanardMicrosecond)
    (metadata : CanardTransferMetadata) (payload : List UInt8) :
    (Reaction.publish (some i) deadline metadata payload fun _ => .done).run s =
      (s.publishOn deadline metadata payload i).1 := by
  simp only [Reaction.run, publishVia]
  cases s.publishOn deadline metadata payload i with
  | mk s' r => cases r <;> rfl

namespace Measurement

variable {p : ℕ} {m : Measurement C τ R} {parcel : Parcel R}

theorem received_transferId (id : Party → CanardNodeID) (parcel : Parcel R)
    (timestamp : CanardMicrosecond) (payload : Option (List UInt8)) :
    (parcel.received id timestamp payload).metadata.transferId.toNat =
      parcel.metadata.transferId.toNat % 32 := by
  change (parcel.metadata.transferId % 32).toNat = _
  rw [UInt8.toNat_mod]
  rfl

/-- What delivering a request puts on the bus are responses to it. -/
theorem request_parcels (L : TxLaws C) {count : ℕ} (htag : parcel.Tagged count)
    (hsource : parcel.source = .requester) (id : Party → CanardNodeID)
    (timestamp : CanardMicrosecond) (payload : Option (List UInt8)) (clock : Fin R → UInt64) :
    ∀ response ∈ parcels parcel.number .responder (m.nodes .responder).host.base
        (m.delivered .responder parcel.ifidx (parcel.received id timestamp payload) clock),
      response.Tagged count := by
  have hkind := htag.kind
  rw [hsource] at hkind
  intro response hresponse
  unfold delivered at hresponse
  cases hc : (m.nodes .responder).host.base.crashed with
  | some fault =>
    rw [deliver_of_crashed _ _ _ hc, parcels_self] at hresponse
    cases hresponse
  | none =>
    rw [deliver_of_running _ _ _ hc] at hresponse
    rcases (m.nodes .responder).host.receiver_request clock parcel.ifidx
      (parcel.received id timestamp payload) hkind htag.port with hr | hr
    · rw [hr, Reaction.run, parcels_of_quiet rfl (by simp [Event.pushed])] at hresponse
      cases hresponse
    · rw [hr, run_publish_done] at hresponse
      obtain ⟨evs, hevs, hpush⟩ := publishOn_pushes L
        ((m.nodes .responder).host.base.record
          (.process 0 parcel.ifidx (parcel.received id timestamp payload)))
        ((parcel.received id timestamp payload).timestampUsec + mega)
        { (parcel.received id timestamp payload).metadata with transferKind := .response } []
        parcel.ifidx
      -- the response has the metadata of the request as it was received, but for its kind
      rw [parcels_record rfl hevs] at hresponse
      obtain ⟨i, rfl⟩ := hpush.parcels hevs _ _ response hresponse
      refine ⟨htag.number, rfl, htag.port, ?_⟩
      change (parcel.received id timestamp payload).metadata.transferId.toNat % 32 = _
      rw [received_transferId, Nat.mod_mod, htag.transferId]

/-- What delivering a response makes of the requester. -/
theorem delivered_response (h : m.Inv p) (hmem : parcel ∈ m.bus)
    (hsource : parcel.source = .responder) (id : Party → CanardNodeID)
    (timestamp : CanardMicrosecond) (payload : Option (List UInt8)) (clock : Fin R → UInt64)
    (hc : (m.nodes .requester).host.base.crashed = none) :
    ∃ delta, m.delivered .requester parcel.ifidx (parcel.received id timestamp payload) clock =
        ((m.nodes .requester).host.base.record
          (.process 0 parcel.ifidx (parcel.received id timestamp payload))).record
          (.log (.latency (id .responder) (parcel.metadata.transferId % 32) delta)) ∧
      ∀ stamp, m.stamps[parcel.number]? = some stamp → m.stamps.length ≤ parcel.number + 32 →
        delta = clock parcel.ifidx - stamp := by
  have htag := h.bus parcel hmem
  have hkind := htag.kind
  rw [hsource] at hkind
  have htid := received_transferId id parcel timestamp payload
  have hlt : (parcel.received id timestamp payload).metadata.transferId.toNat < 32 := by
    rw [htid]
    exact Nat.mod_lt _ (by decide)
  obtain ⟨latency, hlatency, hholds⟩ := h.requester.latency
  refine ⟨clock parcel.ifidx - latency ⟨_, hlt⟩, ?_, ?_⟩
  · unfold delivered
    rw [deliver_of_running _ _ _ hc,
      NodeCore.receiver_response hlatency clock parcel.ifidx hkind htag.port hlt, Reaction.run,
      Reaction.run]
    simp only [Parcel.received, hsource]
  · intro stamp hstamp hwindow
    rw [hholds.read hstamp hwindow (htid.trans htag.transferId)]

/-- Delivering a response puts nothing on the bus. -/
theorem response_parcels (h : m.Inv p) (hmem : parcel ∈ m.bus)
    (hsource : parcel.source = .responder) (id : Party → CanardNodeID)
    (timestamp : CanardMicrosecond) (payload : Option (List UInt8)) (clock : Fin R → UInt64)
    (number : ℕ) (source : Party) :
    parcels number source (m.nodes .requester).host.base
      (m.delivered .requester parcel.ifidx (parcel.received id timestamp payload) clock) = [] := by
  cases hc : (m.nodes .requester).host.base.crashed with
  | some fault =>
    unfold delivered
    rw [deliver_of_crashed _ _ _ hc]
    exact parcels_self _ number source
  | none =>
    obtain ⟨delta, heq, -⟩ := delivered_response h hmem hsource id timestamp payload clock hc
    rw [heq]
    exact parcels_of_quiet (List.append_assoc _ _ _) (by simp [Event.pushed]) number source

theorem Inv.setNode (h : m.Inv p) (party : Party) (node : Node C τ R)
    (hnode : party = .requester → Requesting p m.stamps node) : (m.setNode party node).Inv p := by
  refine ⟨?_, h.bus⟩
  change Requesting p m.stamps (Function.update m.nodes party node .requester)
  by_cases hparty : party = .requester
  · rw [hparty, Function.update_self]
    exact hnode hparty
  · rw [Function.update_of_ne (Ne.symm hparty)]
    exact h.requester

/-- Neither the tasks nor the stamps are in the base. -/
theorem Inv.setBase (h : m.Inv p) (party : Party) (base : OpenCyphal C τ R) :
    (m.setBase party base).Inv p := by
  apply h.setNode
  intro hparty
  subst hparty
  exact ⟨h.requester.tasks, h.requester.latency⟩

theorem Inv.append_bus (h : m.Inv p) {sent : List (Parcel R)}
    (hsent : ∀ parcel ∈ sent, parcel.Tagged m.stamps.length) :
    ({ m with bus := m.bus ++ sent } : Measurement C τ R).Inv p := by
  refine ⟨h.requester, ?_⟩
  intro parcel hparcel
  rcases List.mem_append.mp hparcel with hold | hnew
  · exact h.bus parcel hold
  · exact hsent parcel hnew

theorem inv_checkScheduler (L : TxLaws C) (id : Party → CanardNodeID) (h : m.Inv p)
    (party : Party) (env : ℕ → TaskEnv) (time : UInt64) :
    (m.step id p (.checkScheduler party env time)).Inv p := by
  cases party with
  | responder =>
    have hnone : requests p .responder
        ((m.nodes .responder).checkScheduler env time).2 = [] := rfl
    simp only [step, hnone, List.map_nil, List.append_nil, List.zipIdx_nil, List.flatMap_nil]
    exact h.setNode .responder _ nofun
  | requester =>
    obtain ⟨hnode, hsent⟩ := requesting_checkScheduler L h.requester env time
    rcases hsent with hnone | ⟨e, hone, hparcels⟩
    · rw [hnone] at hnode
      simp only [step, hnone, List.map_nil, List.append_nil, List.zipIdx_nil, List.flatMap_nil]
      exact h.setNode .requester _ fun _ => by simpa using hnode
    · rw [hone] at hnode
      simp only [step, hone, List.map_cons, List.map_nil, List.zipIdx_cons, List.zipIdx_nil,
        List.flatMap_cons, List.flatMap_nil, List.append_nil]
      refine ⟨?_, ?_⟩
      · change Requesting p _ (Function.update m.nodes .requester _ .requester)
        rw [Function.update_self]
        exact hnode
      · rw [List.length_append]
        intro parcel hparcel
        rcases List.mem_append.mp hparcel with hold | hnew
        · exact (h.bus parcel hold).mono (Nat.le_add_right _ _)
        · exact hparcels parcel hnew

theorem inv_step (L : TxLaws C) (id : Party → CanardNodeID) (h : m.Inv p)
    (s : MeasurementStep C τ R) : (m.step id p s).Inv p := by
  cases s with
  | startNode party startedAt =>
    apply h.setNode
    intro hparty
    subst hparty
    exact ⟨h.requester.tasks, h.requester.latency⟩
  | checkScheduler party env time => exact inv_checkScheduler L id h party env time
  | service party f => exact h.setBase party _
  | deliver k timestamp payload clock =>
    cases hk : m.bus[k]? with
    | none =>
      simp only [step, hk]
      exact h
    | some parcel =>
      have hmem : parcel ∈ m.bus := List.mem_of_getElem? hk
      simp only [step, hk]
      split_ifs with haddressed
      · apply (h.setBase _ _).append_bus
        intro sent hsent
        -- requests go to the responder and responses to the requester
        cases hsource : parcel.source with
        | requester =>
          rw [hsource] at hsent
          exact request_parcels L (h.bus parcel hmem) hsource id timestamp payload clock sent hsent
        | responder =>
          rw [hsource] at hsent
          have hnil := response_parcels h hmem hsource id timestamp payload clock parcel.number
            .requester
          exact absurd hsent (List.eq_nil_iff_forall_not_mem.mp hnil sent)
      · exact h
  | foreign party ifidx transfer clock =>
    simp only [step]
    split_ifs
    · exact h
    · exact h.setBase party _

theorem inv_run (L : TxLaws C) (id : Party → CanardNodeID) (h : m.Inv p)
    (steps : List (MeasurementStep C τ R)) : (m.run id p steps).Inv p := by
  induction steps generalizing m with
  | nil => exact h
  | cons s steps ih => exact ih (inv_step L id h s)

/-- The bus is empty and no request has been sent. -/
def start (requester responder : Node C τ R) : Measurement C τ R where
  nodes
    | .requester => requester
    | .responder => responder
  stamps := []
  bus := []

/-- A state in which every response is measured right, whenever and in whatever order it is
delivered: with fewer than 32 requests sent after its own the difference logged is to the stamp of
that request, and late or not its index is one of the 32 slots. -/
structure Paired (id : Party → CanardNodeID) (p : ℕ) (m : Measurement C τ R) : Prop where
  delta : ∀ k parcel, m.bus[k]? = some parcel → parcel.source = .responder →
    parcel.metadata.remoteNodeId = id .requester → m.stamps.length ≤ parcel.number + 32 →
    (m.nodes .requester).host.base.crashed = none → ∀ timestamp payload clock,
      ∃ stamp, m.stamps[parcel.number]? = some stamp ∧
        ((m.step id p (.deliver k timestamp payload clock)).nodes .requester).host.base.events =
          (m.nodes .requester).host.base.events ++
            [.process 0 parcel.ifidx (parcel.received id timestamp payload),
              .log (.latency (id .responder) (parcel.metadata.transferId % 32)
                (clock parcel.ifidx - stamp))]
  index : ∀ k parcel, m.bus[k]? = some parcel → parcel.source = .responder →
    ∀ timestamp payload clock,
      (parcel.received id timestamp payload).metadata.transferId.toNat < 32 ∧
        ((m.nodes .requester).host.base.crashed = none →
          ((m.step id p (.deliver k timestamp payload clock)).nodes
            .requester).host.base.crashed = none)

theorem paired_of_inv (id : Party → CanardNodeID) (h : m.Inv p) : m.Paired id p := by
  have hstep {k : ℕ} {parcel : Parcel R} (hk : m.bus[k]? = some parcel)
      (hsource : parcel.source = .responder) (timestamp : CanardMicrosecond)
      (payload : Option (List UInt8)) (clock : Fin R → UInt64) :
      ((m.step id p (.deliver k timestamp payload clock)).nodes .requester).host.base =
        if parcel.metadata.remoteNodeId = id .requester then
          m.delivered .requester parcel.ifidx (parcel.received id timestamp payload) clock
        else (m.nodes .requester).host.base := by
    simp only [step, hk, hsource, Party.other]
    split_ifs
    · simp only [setBase, setNode, Function.update_self]
    · rfl
  constructor
  · intro k parcel hk hsource haddressed hwindow hc timestamp payload clock
    have hmem : parcel ∈ m.bus := List.mem_of_getElem? hk
    obtain ⟨delta, heq, hdelta⟩ := delivered_response h hmem hsource id timestamp payload clock hc
    -- the request of the response is among those sent
    have hstamp := List.getElem?_eq_getElem (h.bus parcel hmem).number
    refine ⟨_, hstamp, ?_⟩
    rw [hstep hk hsource, if_pos haddressed, heq, hdelta _ hstamp hwindow]
    simp only [record, List.append_assoc, List.cons_append, List.nil_append]
  · intro k parcel hk hsource timestamp payload clock
    refine ⟨?_, ?_⟩
    · rw [received_transferId]
      exact Nat.mod_lt _ (by decide)
    · intro hc
      rw [hstep hk hsource]
      split_ifs
      · obtain ⟨delta, heq, -⟩ := delivered_response h (List.mem_of_getElem? hk) hsource id
          timestamp payload clock hc
        rw [heq]
        exact hc
      · exact hc

end Measurement

/-- Every response a node receives is measured right, in every run of the two nodes and the bus. -/
theorem responses_paired (L : TxLaws C) (id : Party → CanardNodeID) (a b : Node C τ R)
    (latency : Fin 32 → UInt64) (hlatency : a.host.latency = some latency) (p : ℕ)
    (nextRun : UInt64) (target : CanardNodeID) (interval : UInt64)
    (htask : a.Only (fun body => ¬ NodeTask.Measures body) p
      ⟨nextRun, .latencyMeasurement (.construct latencyMeasurementPortId target interval)⟩)
    (steps : List (MeasurementStep C τ R)) :
    ((Measurement.start a b).run id p steps).Paired id p := by
  apply Measurement.paired_of_inv
  apply Measurement.inv_run L
  exact ⟨⟨⟨nextRun, _, htask, rfl, rfl, rfl⟩, latency, hlatency, SlotRing.holds_nil latency⟩,
    List.forall_mem_nil _⟩

def measurementIds : Party → CanardNodeID
  | .requester => 1
  | .responder => 2

/-- A request sent at clock 7 and answered. -/
def answeredRequest : Measurement SingleFrame.canard Unit 1 :=
  (Measurement.start
    ((measurementSetup 1).node.addTask
      ⟨0, NodeTask.latencyMeasurement (.construct latencyMeasurementPortId 2 100000)⟩)
    (measurementSetup 2).node).run measurementIds 1
    [.startNode .requester 0, .checkScheduler .requester (fun _ => { quietEnv with clock := 7 }) 5,
      .deliver 0 10 none fun _ => 0]

theorem responses_paired_measurement :
    ∃ parcel, answeredRequest.bus[1]? = some parcel ∧
      ((answeredRequest.step measurementIds 1 (.deliver 1 20 none fun _ => 57)).nodes
          .requester).host.base.events =
        (answeredRequest.nodes .requester).host.base.events ++
          [.process 0 parcel.ifidx (parcel.received measurementIds 20 none),
            .log (.latency 2 (parcel.metadata.transferId % 32) 50)] := by
  have hpaired : answeredRequest.Paired measurementIds 1 :=
    responses_paired SingleFrame.txLaws measurementIds _ _ _ rfl 1 0 2 100000
      ⟨[⟨0, .heartbeat (.construct .own 1000000)⟩], [], rfl, rfl, by simp [NodeTask.Measures],
        by simp⟩ _
  have hstamps : answeredRequest.stamps = [7] := by decide +kernel
  have hbus : answeredRequest.bus[1]? = some ⟨0, .responder, 0,
      { priority := .immediate, transferKind := .response, portId := 256, remoteNodeId := 1,
        transferId := 0 }⟩ := by decide +kernel
  obtain ⟨stamp, hstamp, hevents⟩ := hpaired.delta 1 _ hbus rfl rfl (by simp [hstamps])
    (by decide +kernel) 20 none fun _ => 57
  obtain rfl : stamp = 7 := by simpa [hstamps, eq_comm] using hstamp
  exact ⟨_, hbus, hevents⟩

end CyphalOnboard
