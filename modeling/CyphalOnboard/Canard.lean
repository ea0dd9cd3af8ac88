import Mathlib.Algebra.Ring.Nat
import Mathlib.Data.Int.Notation
import Mathlib.Data.List.Perm.Basic
import Mathlib.Data.Multiset.MapFold

namespace CyphalOnboard

abbrev CanardMicrosecond := UInt64
abbrev CanardPortID := UInt16
abbrev CanardNodeID := UInt8
abbrev CanardTransferID := UInt8

inductive CanardPriority where
  | exceptional | immediate | fast | high | nominal | low | slow | optional
  deriving DecidableEq, Repr

inductive CanardTransferKind where
  | message | response | request
  deriving DecidableEq, Repr

def canardNodeIdUnset : CanardNodeID := 255
def canardMtuCanFd : ℕ := 64
def canardErrorOutOfMemory : ℤ := 3
def canardCyphalSpecificationVersionMajor : UInt8 := 1
def canardCyphalSpecificationVersionMinor : UInt8 := 0
def canardDefaultTransferIdTimeoutUsec : CanardMicrosecond := 2000000

structure CanardTransferMetadata where
  priority : CanardPriority
  transferKind : CanardTransferKind
  portId : CanardPortID
  remoteNodeId : CanardNodeID
  transferId : CanardTransferID
  deriving DecidableEq, Repr

structure CanardFrame where
  extendedCanId : UInt32
  payload : List UInt8
  /-- The bits above the 29th are zero. -/
  extendedCanId_lt : extendedCanId.toNat < 2 ^ 29
  deriving DecidableEq, Repr

/-- `CanardFrame frame = {0}`. -/
def CanardFrame.zero : CanardFrame := ⟨0, [], by decide⟩

structure CanardTxQueueItem where
  txDeadlineUsec : CanardMicrosecond
  frame : CanardFrame
  deriving DecidableEq, Repr

structure CanardRxTransfer where
  metadata : CanardTransferMetadata
  timestampUsec : CanardMicrosecond
  /-- `none` is the null pointer. -/
  payload : Option (List UInt8)
  deriving DecidableEq, Repr

/-- A heap block the code hands back to `memory_free`. -/
inductive MemoryBlock where
  | txItem (item : CanardTxQueueItem)
  | rxPayload (payload : List UInt8)
  deriving DecidableEq

/-- The blocks of frames: one for each. -/
def frameBlocks (frames : List CanardTxQueueItem) : Multiset MemoryBlock :=
  Multiset.map .txItem frames

/-- The block of a payload, none for the null pointer. -/
def payloadBlock (payload : Option (List UInt8)) : Multiset MemoryBlock :=
  (payload.map MemoryBlock.rxPayload).toList

structure TxPushResult (TxQueue Instance : Type) where
  result : ℤ
  que : TxQueue
  ins : Instance

structure RxAcceptResult (Instance : Type) where
  result : ℤ
  transfer : CanardRxTransfer
  ins : Instance

/-- The interface of libcanard, which the repository does not contain. An `Instance` includes the
o1heap behind its `user_reference`. `txFrames` are the frames `canardTxPush` builds of a
transfer. -/
structure Canard where
  TxQueue : Type
  Instance : Type
  canardInit : (nodeId : CanardNodeID) → Instance
  canardTxInit : (capacity mtuBytes : ℕ) → TxQueue
  txSize : TxQueue → ℕ
  txFrames : TxQueue → Instance → CanardMicrosecond → CanardTransferMetadata → List UInt8 →
    List CanardTxQueueItem
  canardTxPush : TxQueue → Instance → CanardMicrosecond → CanardTransferMetadata → List UInt8 →
    TxPushResult TxQueue Instance
  canardTxPeek : TxQueue → Option CanardTxQueueItem
  canardTxPop : TxQueue → CanardTxQueueItem → Option CanardTxQueueItem × TxQueue
  canardRxAccept : Instance → CanardMicrosecond → CanardFrame → (ifidx : ℕ) →
    RxAcceptResult Instance
  canardRxSubscribe : Instance → CanardTransferKind → CanardPortID → (extent : ℕ) →
    CanardMicrosecond → ℤ × Instance
  memoryFree : Instance → Option MemoryBlock → Instance
  o1heapOomCount : Instance → UInt64

/-- The transmission side: a queue is a list in the order in which `canardTxPeek` hands the
items out, a push adds all frames of its transfer or none, a pop takes exactly the peeked item. -/
structure TxLaws (C : Canard) where
  items : C.TxQueue → List CanardTxQueueItem
  txSize_eq : ∀ que, C.txSize que = (items que).length
  txInit_items : ∀ capacity mtu, items (C.canardTxInit capacity mtu) = []
  txPeek_eq : ∀ que, C.canardTxPeek que = (items que).head?
  txPop_item : ∀ que item, C.canardTxPeek que = some item →
    (C.canardTxPop que item).1 = some item
  txPop_items : ∀ que item, C.canardTxPeek que = some item →
    items (C.canardTxPop que item).2 = (items que).tail
  txPush_failed : ∀ que ins deadline metadata payload,
    (C.canardTxPush que ins deadline metadata payload).result < 0 →
      items (C.canardTxPush que ins deadline metadata payload).que = items que
  txPush_count : ∀ que ins deadline metadata payload,
    0 ≤ (C.canardTxPush que ins deadline metadata payload).result →
      (C.canardTxPush que ins deadline metadata payload).result =
        (C.txFrames que ins deadline metadata payload).length
  txPush_perm : ∀ que ins deadline metadata payload,
    0 ≤ (C.canardTxPush que ins deadline metadata payload).result →
      (items (C.canardTxPush que ins deadline metadata payload).que).Perm
        (items que ++ C.txFrames que ins deadline metadata payload)
  txPush_sublist : ∀ que ins deadline metadata payload,
    0 ≤ (C.canardTxPush que ins deadline metadata payload).result →
      (items que).Sublist (items (C.canardTxPush que ins deadline metadata payload).que)
  txFrames_deadline : ∀ que ins deadline metadata payload,
    ∀ item ∈ C.txFrames que ins deadline metadata payload, item.txDeadlineUsec = deadline

/-- The reception side: with valid arguments, a frame with an identifier of 29 bits among them, the
only error is a lack of memory, and the transfer-ID of a transfer is the five bits of the tail
byte. -/
structure RxLaws (C : Canard) : Prop where
  rxAccept_result : ∀ ins timestamp frame ifidx,
    0 ≤ (C.canardRxAccept ins timestamp frame ifidx).result ∨
      (C.canardRxAccept ins timestamp frame ifidx).result = -canardErrorOutOfMemory
  rxAccept_transferId : ∀ ins timestamp frame ifidx,
    0 < (C.canardRxAccept ins timestamp frame ifidx).result →
      (C.canardRxAccept ins timestamp frame ifidx).transfer.metadata.transferId < 32

/-- The heap: the live blocks, among them those the RX sessions own. A push allocates one block for
each frame or none. A payload passes to the caller with a completed transfer only. A live block is
released once, and releasing the null pointer does nothing. -/
structure HeapLaws (C : Canard) where
  Session : Type
  blocks : C.Instance → Multiset (MemoryBlock ⊕ Session)
  sessions : C.Instance → Multiset Session
  init_blocks : ∀ nodeId, blocks (C.canardInit nodeId) = 0 ∧ sessions (C.canardInit nodeId) = 0
  txPush_failed : ∀ que ins deadline metadata payload,
    (C.canardTxPush que ins deadline metadata payload).result < 0 →
      blocks (C.canardTxPush que ins deadline metadata payload).ins = blocks ins
  txPush_blocks : ∀ que ins deadline metadata payload,
    0 ≤ (C.canardTxPush que ins deadline metadata payload).result →
      blocks (C.canardTxPush que ins deadline metadata payload).ins =
        (frameBlocks (C.txFrames que ins deadline metadata payload)).map .inl + blocks ins
  txPush_sessions : ∀ que ins deadline metadata payload,
    sessions (C.canardTxPush que ins deadline metadata payload).ins = sessions ins
  rxAccept_blocks : ∀ ins timestamp frame ifidx,
    blocks (C.canardRxAccept ins timestamp frame ifidx).ins + (sessions ins).map .inr =
      (if 0 < (C.canardRxAccept ins timestamp frame ifidx).result then
        (payloadBlock (C.canardRxAccept ins timestamp frame ifidx).transfer.payload).map .inl
        else 0) +
        (blocks ins + (sessions (C.canardRxAccept ins timestamp frame ifidx).ins).map .inr)
  rxSubscribe_blocks : ∀ ins kind portId extent timeout,
    blocks (C.canardRxSubscribe ins kind portId extent timeout).2 + (sessions ins).map .inr =
      blocks ins + (sessions (C.canardRxSubscribe ins kind portId extent timeout).2).map .inr
  free_null : ∀ ins, blocks (C.memoryFree ins none) = blocks ins
  free_block : ∀ ins block, .inl block ∈ blocks ins →
    blocks ins = .inl block ::ₘ blocks (C.memoryFree ins (some block))
  free_sessions : ∀ ins block, sessions (C.memoryFree ins block) = sessions ins

end CyphalOnboard
