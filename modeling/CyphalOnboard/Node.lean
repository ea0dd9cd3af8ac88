import CyphalOnboard.Messages
import CyphalOnboard.Scheduler

namespace CyphalOnboard

open ByteBuffer OpenCyphal

variable {C : Canard} {τ : Type} {R : ℕ}

def latencyMeasurementPortId : CanardPortID := 256

/-- The members of a node the scheduler does not work on. -/
structure NodeCore (C : Canard) (τ : Type) (R : ℕ) where
  base : OpenCyphal C τ R
  info : GetInfoResponse
  startedAt : UInt64
  /-- `latency_` of a `LatencyMeasurementNode`, `none` for a plain `Node`. -/
  latency : Option (Fin 32 → UInt64)

namespace NodeCore

def crash (node : NodeCore C τ R) (fault : Fault) : NodeCore C τ R :=
  { node with base := node.base.crash fault }

/-- `Node::Publish`. The metadata is taken before the other accessors change the message. -/
def publish {M : Type} [IPMessage M] (node : NodeCore C τ R) (timeout : CanardMicrosecond)
    (message : M) : M × NodeCore C τ R × Option ℤ :=
  let (metadata, message) := IPMessage.metadata message
  match IPMessage.serializedMessage message with
  | .error fault => (message, node.crash fault, none)
  | .ok (payload, message) =>
    let r := node.base.publish timeout metadata (payload.take (IPMessage.serializedSize message))
    (message, { node with base := r.1 }, r.2)

end NodeCore

/-- What an execution finds outside the node: the clock, when the node was started that a heartbeat
was constructed with if it is another one, and for a byte array the address of its data and the
stack `SerializeMessage` runs on. -/
structure TaskEnv where
  clock : UInt64
  parentStartedAt : UInt64
  dataAddress : UInt64
  frame : StackFrame

structure THeartbeat where
  heartbeat : PMessageHeartbeat
  interval : Int64

namespace THeartbeat

def construct (node : ParentNode) (interval : Int64) : THeartbeat where
  heartbeat := .construct node
  interval := interval

/-- `node_->StartedAt()`. -/
def startedAt (env : TaskEnv) (task : THeartbeat) (node : NodeCore C τ R) : UInt64 :=
  match task.heartbeat.node with
  | .own => node.startedAt
  | .other => env.parentStartedAt

def execute (env : TaskEnv) (currentTime : UInt64) (task : THeartbeat) (node : NodeCore C τ R) :
    THeartbeat × NodeCore C τ R :=
  match task.heartbeat.serializeMessage (task.startedAt env node) currentTime node.base.health with
  | .error fault => (task, node.crash fault)
  | .ok heartbeat =>
    let r := node.publish (currentTime + mega) heartbeat
    ({ task with heartbeat := r.1 }, r.2.1)

end THeartbeat

structure TByteArray where
  message : PMessageByteArray
  interval : UInt64
  size : ℕ
  data : List Int8

namespace TByteArray

/-- The constructor copies `size` elements into the zeroed `data_`, which has room for those of a
serialized message. -/
def construct (portId : CanardPortID) (data : List Int8) (size : ℕ) (interval : UInt64) :
    Except Fault TByteArray :=
  if size > integer8BufferSize then .error .outOfBounds
  else .ok {
    message := .construct portId
    interval := interval
    size := size
    data := overwrite (List.replicate integer8BufferSize 0) 0 (data.take size) }

/-- `SerializeMessage` is given the address of `data_`. -/
def execute (env : TaskEnv) (currentTime : UInt64) (task : TByteArray) (node : NodeCore C τ R) :
    TByteArray × NodeCore C τ R :=
  match task.message.serializeMessage env.frame env.dataAddress task.size with
  | .error fault => (task, node.crash fault)
  | .ok (_, message) =>
    let r := node.publish (currentTime + task.interval - 1) message
    ({ task with message := r.1 }, r.2.1)

end TByteArray

structure TLatencyMeasurement where
  primitiveEmpty : PUavcanPrimitiveEmpty
  interval : UInt64

namespace TLatencyMeasurement

def construct (portId : CanardPortID) (target : CanardNodeID) (interval : UInt64) :
    TLatencyMeasurement where
  primitiveEmpty := .construct portId target
  interval := interval

/-- The slot of `latency_` a transfer-ID selects. -/
def slot (transferId : CanardTransferID) : Fin 32 := ⟨transferId.toNat % 32, by omega⟩

/-- The cast throws on a node that is no `LatencyMeasurementNode`. -/
def execute (env : TaskEnv) (currentTime : UInt64) (task : TLatencyMeasurement)
    (node : NodeCore C τ R) : TLatencyMeasurement × NodeCore C τ R :=
  match node.latency with
  | none => (task, node.crash .badCast)
  | some latency =>
    let (metadata, primitiveEmpty) := IPMessage.metadata task.primitiveEmpty
    let node := { node with
      latency := some (Function.update latency (slot metadata.transferId) env.clock) }
    let r := node.publish (currentTime + task.interval - 1) primitiveEmpty
    ({ task with primitiveEmpty := r.1 }, r.2.1)

end TLatencyMeasurement

inductive NodeTask where
  | heartbeat (task : THeartbeat)
  | byteArray (task : TByteArray)
  | latencyMeasurement (task : TLatencyMeasurement)

namespace NodeTask

def interval : NodeTask → UInt64
  | heartbeat task => task.interval.toUInt64
  | byteArray task => task.interval
  | latencyMeasurement task => task.interval

def execute (env : TaskEnv) (currentTime : UInt64) : NodeTask → NodeCore C τ R →
    NodeTask × NodeCore C τ R
  | heartbeat task, node =>
    let r := task.execute env currentTime node
    (heartbeat r.1, r.2)
  | byteArray task, node =>
    let r := task.execute env currentTime node
    (byteArray r.1, r.2)
  | latencyMeasurement task, node =>
    let r := task.execute env currentTime node
    (latencyMeasurement r.1, r.2)

theorem interval_execute (env : TaskEnv) (currentTime : UInt64) (task : NodeTask)
    (node : NodeCore C τ R) : (task.execute env currentTime node).1.interval = task.interval := by
  cases task with
  | heartbeat task =>
    simp only [execute, THeartbeat.execute, interval]
    split <;> rfl
  | byteArray task =>
    simp only [execute, TByteArray.execute, interval]
    split <;> rfl
  | latencyMeasurement task =>
    simp only [execute, TLatencyMeasurement.execute, interval]
    split <;> rfl

end NodeTask

/-- The tasks of the repository on its nodes. -/
def nodeTasks (C : Canard) (τ : Type) (R : ℕ) : TaskClass where
  Body := NodeTask
  Host := NodeCore C τ R
  Env := TaskEnv
  interval := NodeTask.interval
  execute := NodeTask.execute
  start startedAt node := { node with startedAt := startedAt }
  running node := node.base.crashed.isNone
  interval_execute := NodeTask.interval_execute

abbrev Node (C : Canard) (τ : Type) (R : ℕ) := Scheduler (nodeTasks C τ R)

namespace Node

/-- The constructor. `online` and the `nextRun` of the heartbeat are the members it leaves
uninitialised, `latency` is those of a `LatencyMeasurementNode`. -/
def construct (nodeId : CanardNodeID) (transceiver : τ) (info : GetInfoResponse)
    (latency : Option (Fin 32 → UInt64)) (online : Bool) (nextRun : UInt64) : Node C τ R where
  online := online
  schedule := [⟨nextRun, .heartbeat (.construct .own 1000000)⟩]
  host := {
    base := ((OpenCyphal.construct nodeId transceiver).subscribe .request getInfoFixedPortId
      getInfoRequestExtent canardDefaultTransferIdTimeoutUsec).1
    info := info
    startedAt := 0
    latency := latency }

end Node

/-- One reaction after another. -/
def Reaction.andThen : Reaction R → Reaction R → Reaction R
  | .done, next => next
  | .crash fault, _ => .crash fault
  | .log entry k, next => .log entry (k.andThen next)
  | .publish ifidx deadline metadata payload k, next =>
    .publish ifidx deadline metadata payload fun r => (k r).andThen next

/-- `Node::ProcessRequestNodeGetInfo`. A name beyond its capacity overruns the response. -/
def processRequestNodeGetInfo (info : GetInfoResponse) : Except Fault GetInfoResponse :=
  if info.name.count > getInfoNameCapacity then .error .outOfBounds
  else .ok {
    protocolVersion :=
      ⟨canardCyphalSpecificationVersionMajor, canardCyphalSpecificationVersionMinor⟩
    hardwareVersion := ⟨0, 0⟩
    softwareVersion := ⟨info.softwareVersion.major, info.softwareVersion.minor⟩
    softwareVcsRevisionId := info.softwareVcsRevisionId
    uniqueId := info.uniqueId.take getInfoUniqueIdCapacity
    name :=
      { elements := overwrite (List.replicate getInfoNameCapacity 0) 0
          (info.name.elements.take info.name.count)
        count := info.name.count }
    softwareImageCrc := ⟨[0], 0⟩
    certificateOfAuthenticity := ⟨List.replicate 222 0, 0⟩ }

/-- `Node::ProcessReceivedTransfer`. -/
def Node.processReceivedTransfer (info : GetInfoResponse) : Receiver R := fun ifidx transfer =>
  if transfer.metadata.transferKind = .request then
    if transfer.metadata.portId = getInfoFixedPortId then
      match processRequestNodeGetInfo info with
      | .error fault => .crash fault
      | .ok resp =>
        match resp.serialize (List.replicate getInfoResponseBufferSize 0)
            getInfoResponseBufferSize with
        | .ok (serialized, serializedSize) =>
          .publish (some ifidx) (transfer.timestampUsec + mega)
            { transfer.metadata with transferKind := .response } (serialized.take serializedSize)
            fun _ => .done
        | .error _ => .crash .assertion
    else .done
  else .done

/-- `LatencyMeasurementNode::ProcessReceivedTransfer`. The answer is sent under the metadata of the
request; the transfer-ID of the message object goes unused. -/
def LatencyMeasurementNode.processReceivedTransfer (info : GetInfoResponse)
    (latency : Fin 32 → UInt64) (clock : Fin R → UInt64) : Receiver R := fun ifidx transfer =>
  (Node.processReceivedTransfer info ifidx transfer).andThen <|
    let onRequest : Reaction R :=
      if transfer.metadata.transferKind = .request then
        if transfer.metadata.portId = latencyMeasurementPortId then
          let metadata := { transfer.metadata with transferKind := .response }
          let answer := PUavcanPrimitiveEmpty.ofMetadata metadata
          match IPMessage.serializedMessage answer with
          | .ok (payload, answer) =>
            .publish (some ifidx) (transfer.timestampUsec + mega) metadata
              (payload.take (IPMessage.serializedSize answer)) fun _ => .done
          | .error fault => .crash fault
        else if transfer.metadata.portId = latencyMeasurementPortId + 1 then
          .log (.gotLatencyResponse transfer.metadata.remoteNodeId transfer.metadata.transferId)
            .done
        else .done
      else .done
    onRequest.andThen <|
      if transfer.metadata.transferKind = .response then
        if transfer.metadata.portId = latencyMeasurementPortId then
          if h : transfer.metadata.transferId.toNat < 32 then
            let delta := clock ifidx - latency ⟨transfer.metadata.transferId.toNat, h⟩
            .log (.latency transfer.metadata.remoteNodeId transfer.metadata.transferId delta) .done
          else .crash .outOfBounds
        else .done
      else .done

namespace NodeCore

/-- The override of `ProcessReceivedTransfer` the node registered; `clock` is what
`GetMonotonicMicroseconds` answers while a transfer of an interface is handled. -/
def receiver (node : NodeCore C τ R) (clock : Fin R → UInt64) : Receiver R :=
  match node.latency with
  | none => Node.processReceivedTransfer node.info
  | some latency => LatencyMeasurementNode.processReceivedTransfer node.info latency clock

def handleTxRxQueues (node : NodeCore C τ R) (answers : Answers R) (clock : Fin R → UInt64)
    (time : CanardMicrosecond) : NodeCore C τ R × Option ℤ :=
  let r := OpenCyphal.handleTxRxQueues [node.receiver clock] answers time node.base
  ({ node with base := r.1 }, r.2)

end NodeCore

end CyphalOnboard
