import CyphalOnboard.OpenCyphal
import CyphalOnboard.Dsdl

namespace CyphalOnboard

open ByteBuffer

/-- The interface of publish messages. Both accessors may change the object; a failed assertion
is an error. -/
class IPMessage (M : Type) where
  metadata : M → CanardTransferMetadata × M
  serializedMessage : M → Except Fault (List UInt8 × M)
  serializedSize : M → ℕ

/-- The node a heartbeat message was constructed with: the one its task is scheduled on, or another
one that is still there. -/
inductive ParentNode where
  | own
  | other

structure PMessageHeartbeat where
  node : ParentNode
  serialized : List UInt8
  transferId : CanardTransferID

namespace PMessageHeartbeat

def construct (parentNode : ParentNode) : PMessageHeartbeat where
  node := parentNode
  serialized := List.replicate heartbeatBufferSize 0
  transferId := 0

/-- `startedAt` is what `node_` answers. -/
def serializeMessage (m : PMessageHeartbeat) (startedAt currentTime : UInt64) (health : UInt8) :
    Except Fault PMessageHeartbeat :=
  let heartbeat : Heartbeat :=
    { uptime := ((currentTime - startedAt) / mega).toUInt32
      health := ⟨health⟩
      mode := ⟨modeOperational⟩
      vendorSpecificStatusCode := 0 }
  match heartbeat.serialize m.serialized heartbeatBufferSize with
  | .ok (serialized, _) => .ok { m with serialized := serialized }
  | .error _ => .error .assertion

theorem serializeMessage_transferId {m m' : PMessageHeartbeat} {startedAt currentTime : UInt64}
    {health : UInt8} (h : m.serializeMessage startedAt currentTime health = .ok m') :
    m'.transferId = m.transferId := by
  simp only [serializeMessage] at h
  split at h
  · rw [← Except.ok.inj h]
  · cases h

instance : IPMessage PMessageHeartbeat where
  metadata m :=
    -- post-increment: the metadata carry the transfer-ID from before the call
    ({ priority := .nominal
       transferKind := .message
       portId := heartbeatFixedPortId
       remoteNodeId := canardNodeIdUnset
       transferId := m.transferId },
      { m with transferId := m.transferId + 1 })
  serializedMessage m := .ok (m.serialized, m)
  serializedSize _ := heartbeatBufferSize

theorem metadata_of_serializeMessage {m m' : PMessageHeartbeat} {startedAt currentTime : UInt64}
    {health : UInt8} (h : m.serializeMessage startedAt currentTime health = .ok m') :
    (IPMessage.metadata m').1 = (IPMessage.metadata m).1 := by
  simp only [IPMessage.metadata, serializeMessage_transferId h]

end PMessageHeartbeat

structure PMessageByteArray where
  serialized : List UInt8
  metadata : CanardTransferMetadata

/-- The stack of a call of `SerializeMessage`, none of it written by the call so far: the bytes
behind the parameter `byte_array`, and the memory of the local `array`. -/
structure StackFrame where
  beyond : ℕ → UInt8
  array : Integer8Array
  array_length : array.elements.length = integer8Capacity

/-- The first `size` bytes from the address of the parameter `byte_array` on: the pointer itself,
lowest byte first, and what lies behind it. More than eight bytes are out of the bounds of the
parameter (`NodeTask.CopiesInBounds`), and any of them may come. -/
def StackFrame.bytesAtParameter (frame : StackFrame) (byteArray : UInt64) (size : ℕ) : List UInt8 :=
  (leBytes 8 byteArray.toNat ++ (List.range (size - 8)).map frame.beyond).take size

namespace PMessageByteArray

def construct (portId : CanardPortID) : PMessageByteArray where
  serialized := List.replicate integer8BufferSize 0
  metadata := {
    priority := .nominal
    transferKind := .message
    portId := portId
    remoteNodeId := canardNodeIdUnset
    transferId := 0 }

/-- The array is given by its address `byteArray`. The copy takes `&byte_array` for its source. -/
def serializeMessage (m : PMessageByteArray) (frame : StackFrame) (byteArray : UInt64)
    (size : ℕ) : Except Fault (UInt8 × PMessageByteArray) :=
  if size > integer8Capacity then .ok (5, m)
  else
    let array := frame.array.initialized
    let array : Integer8Array :=
      { elements := overwrite array.elements 0
          ((frame.bytesAtParameter byteArray size).map UInt8.toInt8)
        count := size }
    match array.serialize m.serialized integer8BufferSize with
    | .ok (serialized, _) => .ok (0, { m with serialized := serialized })
    | .error _ => .error .assertion

theorem serializeMessage_metadata {m : PMessageByteArray} {frame : StackFrame}
    {byteArray : UInt64} {size : ℕ} {r : UInt8 × PMessageByteArray}
    (h : m.serializeMessage frame byteArray size = .ok r) : r.2.metadata = m.metadata := by
  simp only [serializeMessage] at h
  split_ifs at h
  · rw [← Except.ok.inj h]
  · split at h
    · rw [← Except.ok.inj h]
    · cases h

instance : IPMessage PMessageByteArray where
  metadata m :=
    -- incremented before it is handed out
    let metadata := { m.metadata with transferId := m.metadata.transferId + 1 }
    (metadata, { m with metadata := metadata })
  serializedMessage m := .ok (m.serialized, m)
  serializedSize _ := integer8BufferSize

theorem metadata_of_serializeMessage {m : PMessageByteArray} {frame : StackFrame}
    {byteArray : UInt64} {size : ℕ} {r : UInt8 × PMessageByteArray}
    (h : m.serializeMessage frame byteArray size = .ok r) :
    (IPMessage.metadata r.2).1 = (IPMessage.metadata m).1 := by
  simp only [IPMessage.metadata, serializeMessage_metadata h]

end PMessageByteArray

structure PUavcanPrimitiveEmpty where
  metadata : CanardTransferMetadata
  serialized : List UInt8

namespace PUavcanPrimitiveEmpty

def construct (portId : CanardPortID) (target : CanardNodeID) : PUavcanPrimitiveEmpty where
  metadata := {
    priority := .immediate
    transferKind := .request
    portId := portId
    remoteNodeId := target
    transferId := 0 }
  serialized := []

/-- The constructor from metadata. -/
def ofMetadata (metadata : CanardTransferMetadata) : PUavcanPrimitiveEmpty where
  metadata := metadata
  serialized := []

instance : IPMessage PUavcanPrimitiveEmpty where
  metadata m := (m.metadata, m)
  serializedMessage m :=
    -- only this accessor advances the transfer-ID
    let metadata := { m.metadata with transferId := m.metadata.transferId + 1 }
    match emptySerialize m.serialized with
    | .ok (serialized, _) => .ok (serialized, ⟨metadata, serialized⟩)
    | .error _ => .error .assertion
  serializedSize _ := emptyBufferSize

end PUavcanPrimitiveEmpty

end CyphalOnboard
