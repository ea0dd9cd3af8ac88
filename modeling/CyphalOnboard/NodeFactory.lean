import CyphalOnboard.RequestResponse
import CyphalOnboard.SocketCan

namespace CyphalOnboard

open ByteBuffer EarlyExit OpenCyphal

variable {C : Canard} {R : ℕ}

/-- `VERSION_MAJOR` and `VERSION_MINOR`. -/
def softwareVersion : Version := ⟨0, 1⟩

/-- What a creation finds outside the factory: the memory `node_info` and the new node stand in, the
values of `rand`, the revision of the build, and the kernel while interface `i` is opened. -/
structure CreationEnv where
  info : GetInfoResponse
  latency : Fin 32 → UInt64
  online : Bool
  nextRun : UInt64
  random : ℕ → UInt8
  vcsRevisionId : UInt64
  kernel : (i : ℕ) → Kernel

structure NodeFactory where
  usedIds : List UInt8
  socketCanInterfaces : List String

namespace NodeFactory

/-- `used_ids` are the elements of an array; without one all node ids are available. -/
def construct (usedIds : List UInt8) : NodeFactory where
  usedIds := usedIds.foldl (fun ids id => ids ++ [id]) []
  socketCanInterfaces := []

def addSocketCanInterface (factory : NodeFactory) (socketCanInterface : String) : NodeFactory :=
  { factory with socketCanInterfaces := factory.socketCanInterfaces ++ [socketCanInterface] }

def getUniqueId (env : CreationEnv) : List UInt8 :=
  (List.range getInfoUniqueIdCapacity).map env.random

/-- The fields of `node_info` the factory sets. -/
def nodeInfo (env : CreationEnv) (baseName : String) (nodeId : UInt8) : GetInfoResponse :=
  let name := (baseName ++ toString nodeId.toNat).toUTF8.data.toList
  { env.info with
    name := ⟨overwrite env.info.name.elements 0 name, name.length⟩
    softwareVersion := softwareVersion
    softwareVcsRevisionId := env.vcsRevisionId
    uniqueId := getUniqueId env }

/-- One iteration of the loop over `used_ids_`; `n` counts the values drawn. -/
def compareId (draw : ℕ → UInt8) (nodeId : UInt8) :
    UInt8 × ℕ → Flow (UInt8 × ℕ) Empty
  | (randomId, n) => if randomId = nodeId then .brk (draw n, n + 1) else .next (randomId, n)

/-- The ID `CreateNode()` picks; `draw` are the values of the generator, which every call starts
anew. The `break` behind the loop over `used_ids_` ends the `while` around it in its first pass. -/
def pickId (draw : ℕ → UInt8) (usedIds : List UInt8) : UInt8 :=
  (forLoop (compareId draw) usedIds (draw 0, 1)).1.1

/-- `CreateNode(uint8_t)`. Without an interface the access to the first one is out of bounds, and
`none` says that the process has ended. -/
def createNodeWithId (env : CreationEnv) (nodeId : UInt8) (factory : NodeFactory) :
    Option (NodeFactory × Node C SocketCANTransceiver R) :=
  match factory.socketCanInterfaces with
  | [] => none
  | ifrName :: _ => do
    let transceiver ← SocketCANTransceiver.construct (env.kernel 0) ifrName true
    return ({ factory with usedIds := factory.usedIds ++ [nodeId] },
      Node.construct nodeId transceiver (nodeInfo env "org.icarus.nodefactory." nodeId) none
        env.online env.nextRun)

/-- `CreateNode()`. -/
def createNode (env : CreationEnv) (draw : ℕ → UInt8) (factory : NodeFactory) :
    Option (NodeFactory × Node C SocketCANTransceiver R) :=
  factory.createNodeWithId env (pickId draw factory.usedIds)

/-- The loop over the interfaces behind the first one. -/
def addInterfaces (env : CreationEnv) :
    (i : ℕ) → List String → Node C SocketCANTransceiver R → Option (Node C SocketCANTransceiver R)
  | _, [], node => some node
  | i, ifrName :: names, node => do
    let transceiver ← SocketCANTransceiver.construct (env.kernel i) ifrName true
    addInterfaces env (i + 1) names (NodeCommand.run node (.addTransceiver transceiver))

def createLatencyNode (env : CreationEnv) (nodeId : UInt8) (factory : NodeFactory) :
    Option (NodeFactory × Node C SocketCANTransceiver R) :=
  match factory.socketCanInterfaces with
  | [] => none
  | ifrName :: names => do
    let transceiver ← SocketCANTransceiver.construct (env.kernel 0) ifrName true
    let node := Node.construct nodeId transceiver (nodeInfo env "org.icarus.latency." nodeId)
      (some env.latency) env.online env.nextRun
    let node ← addInterfaces env 1 names node
    return ({ factory with usedIds := factory.usedIds ++ [nodeId] }, node)

/-- Subscribe to primitive messages on the port of the measurement. -/
def subscribeLatency (kind : CanardTransferKind) (node : Node C SocketCANTransceiver R) :
    Node C SocketCANTransceiver R :=
  NodeCommand.run node
    (.subscribe kind latencyMeasurementPortId 0 canardDefaultTransferIdTimeoutUsec)

/-- `taskNextRun` is the memory of `next_run_` in the new task. -/
def createLatencyRequestNode (env : CreationEnv) (taskNextRun : UInt64) (nodeId : UInt8)
    (interval : UInt64) (factory : NodeFactory) :
    Option (NodeFactory × Node C SocketCANTransceiver R) := do
  let (factory, node) ← factory.createLatencyNode env nodeId
  return (factory, NodeCommand.run (subscribeLatency .response node) (.schedule taskNextRun
    (.latencyMeasurement (.construct latencyMeasurementPortId 2 interval)) ⟨_, _, _, rfl⟩))

def createLatencyResponseNode (env : CreationEnv) (nodeId : UInt8) (factory : NodeFactory) :
    Option (NodeFactory × Node C SocketCANTransceiver R) := do
  let (factory, node) ← factory.createLatencyNode env nodeId
  return (factory, subscribeLatency .request node)

end NodeFactory

/-- A kernel that opens every interface and has nothing to read from it. -/
def vcanKernel : Kernel where
  socket := 3
  ioctlIfIndex _ _ := (0, 5)
  bind _ _ := 0
  setsockopt _ _ := 0
  ppoll _ events _ := if events = pollOut then (1, pollOut) else (0, 0)
  write _ _ mtu := mtu
  recvmsg _ := (-1, ⟨⟨0, 0, 0, []⟩, 0, none⟩)
  errno := 11

def vcanEnv : CreationEnv where
  info := heartbeatNode.host.info
  latency _ := 0
  online := false
  nextRun := 0
  random n := UInt8.ofNat n
  vcsRevisionId := 1
  kernel _ := vcanKernel

end CyphalOnboard
