import CyphalOnboard.Canard
import Mathlib.Data.List.Perm.Lattice
import Mathlib.Algebra.Order.Group.Multiset
import Mathlib.Tactic.Abel

namespace CyphalOnboard.SingleFrame

structure TxQueue where
  capacity : ℕ
  items : List CanardTxQueueItem

structure Instance where
  nodeId : CanardNodeID
  subscriptions : List (CanardTransferKind × CanardPortID)
  oomCount : UInt64

def priorityCode : CanardPriority → UInt32
  | .exceptional => 0
  | .immediate => 1
  | .fast => 2
  | .high => 3
  | .nominal => 4
  | .low => 5
  | .slow => 6
  | .optional => 7

def priorityOf (code : UInt32) : CanardPriority :=
  match code.toNat with
  | 0 => .exceptional
  | 1 => .immediate
  | 2 => .fast
  | 3 => .high
  | 4 => .nominal
  | 5 => .low
  | 6 => .slow
  | _ => .optional

/-- The 29-bit CAN ID: priority, session specifier and source. -/
def canId (nodeId : CanardNodeID) (metadata : CanardTransferMetadata) : UInt32 :=
  let service : UInt32 :=
    metadata.portId.toUInt32 <<< 14 ||| metadata.remoteNodeId.toUInt32 <<< 7
  let session : UInt32 :=
    match metadata.transferKind with
    | .message => metadata.portId.toUInt32 <<< 8 ||| 0x600000
    | .response => service ||| 0x2000000
    | .request => service ||| 0x3000000
  priorityCode metadata.priority <<< 26 ||| session ||| nodeId.toUInt32

/-- The payload with the tail byte of a single-frame transfer. -/
def txItem (ins : Instance) (deadline : CanardMicrosecond) (metadata : CanardTransferMetadata)
    (payload : List UInt8) : CanardTxQueueItem where
  txDeadlineUsec := deadline
  frame :=
    { extendedCanId := canId ins.nodeId metadata &&& 0x1FFFFFFF
      payload := payload ++ [0xE0 ||| metadata.transferId % 32]
      extendedCanId_lt := by
        rw [UInt32.toNat_and]
        exact Nat.and_lt_two_pow _ (by decide : (0x1FFFFFFF : UInt32).toNat < 2 ^ 29) }

/-- Behind all items of the same or a higher priority. -/
def insert (item : CanardTxQueueItem) : List CanardTxQueueItem → List CanardTxQueueItem
  | [] => [item]
  | x :: xs =>
    if item.frame.extendedCanId < x.frame.extendedCanId then item :: x :: xs
    else x :: insert item xs

def txPush (que : TxQueue) (ins : Instance) (deadline : CanardMicrosecond)
    (metadata : CanardTransferMetadata) (payload : List UInt8) : TxPushResult TxQueue Instance :=
  if que.capacity ≤ que.items.length then ⟨-canardErrorOutOfMemory, que, ins⟩
  else if 7 < payload.length then
    ⟨-canardErrorOutOfMemory, que, { ins with oomCount := ins.oomCount + 1 }⟩
  else ⟨1, { que with items := insert (txItem ins deadline metadata payload) que.items }, ins⟩

/-- The metadata of a transfer as the receiver sees it, with the source as the remote node. -/
def parse (frame : CanardFrame) : CanardTransferMetadata :=
  let id := frame.extendedCanId
  let kind : CanardTransferKind :=
    if id &&& 0x2000000 = 0 then .message else if id &&& 0x1000000 = 0 then .response else .request
  { priority := priorityOf (id >>> 26 &&& 7)
    transferKind := kind
    portId := if kind = .message then (id >>> 8 &&& 0x1FFF).toUInt16
      else (id >>> 14 &&& 0x1FF).toUInt16
    remoteNodeId := (id &&& 0x7F).toUInt8
    transferId := frame.payload.getLastD 0 &&& 0x1F }

def rxAccept (ins : Instance) (timestamp : CanardMicrosecond) (frame : CanardFrame) :
    RxAcceptResult Instance :=
  let metadata := parse frame
  let transfer : CanardRxTransfer := ⟨metadata, timestamp, some frame.payload.dropLast⟩
  let addressed := metadata.transferKind = .message ∨
    (frame.extendedCanId >>> 7 &&& 0x7F).toUInt8 = ins.nodeId
  if addressed ∧ (metadata.transferKind, metadata.portId) ∈ ins.subscriptions ∧
      frame.payload.getLastD 0 &&& 0xE0 = 0xE0 then ⟨1, transfer, ins⟩
  else ⟨0, transfer, ins⟩

def canard : Canard where
  TxQueue := TxQueue
  Instance := Instance
  canardInit nodeId := ⟨nodeId, [], 0⟩
  canardTxInit capacity _ := ⟨capacity, []⟩
  txSize que := que.items.length
  txFrames _ ins deadline metadata payload := [txItem ins deadline metadata payload]
  canardTxPush := txPush
  canardTxPeek que := que.items.head?
  canardTxPop que item := (some item, { que with items := que.items.erase item })
  canardRxAccept ins timestamp frame _ := rxAccept ins timestamp frame
  canardRxSubscribe ins kind portId _ _ :=
    (1, { ins with subscriptions := (kind, portId) :: ins.subscriptions })
  memoryFree ins _ := ins
  o1heapOomCount ins := ins.oomCount

theorem insert_perm (item : CanardTxQueueItem) (l : List CanardTxQueueItem) :
    (insert item l).Perm (l ++ [item]) := by
  induction l with
  | nil => exact .refl _
  | cons x xs ih =>
    simp only [insert]
    split_ifs with h
    · exact (List.perm_append_comm : ([item] ++ x :: xs).Perm (x :: xs ++ [item]))
    · exact ih.cons x

theorem insert_sublist (item : CanardTxQueueItem) (l : List CanardTxQueueItem) :
    l.Sublist (insert item l) := by
  induction l with
  | nil => exact List.nil_sublist _
  | cons x xs ih =>
    simp only [insert]
    split_ifs with h
    · exact List.sublist_cons_self item _
    · exact ih.cons_cons x

/-- What a push can do: fail and change nothing, or enqueue the one frame. -/
theorem txPush_cases (que : TxQueue) (ins : Instance) (deadline : CanardMicrosecond)
    (metadata : CanardTransferMetadata) (payload : List UInt8) :
    ((txPush que ins deadline metadata payload).result = -3 ∧
      (txPush que ins deadline metadata payload).que.items = que.items) ∨
    ((txPush que ins deadline metadata payload).result = 1 ∧
      (txPush que ins deadline metadata payload).que.items =
        insert (txItem ins deadline metadata payload) que.items) := by
  unfold txPush canardErrorOutOfMemory
  split_ifs
  · exact .inl ⟨rfl, rfl⟩
  · exact .inl ⟨rfl, rfl⟩
  · exact .inr ⟨rfl, rfl⟩

def txLaws : TxLaws canard where
  items que := que.items
  txSize_eq _ := rfl
  txInit_items _ _ := rfl
  txPeek_eq _ := rfl
  txPop_item _ _ _ := rfl
  txPop_items que item h := by
    obtain ⟨rest, hr⟩ := List.head?_eq_some_iff.mp h
    show que.items.erase item = que.items.tail
    rw [hr, List.erase_cons_head, List.tail_cons]
  txPush_failed que ins deadline metadata payload h := by
    rcases txPush_cases que ins deadline metadata payload with ⟨_, hi⟩ | ⟨hr, _⟩
    · exact hi
    · have h' : (txPush que ins deadline metadata payload).result < 0 := h
      omega
  txPush_count que ins deadline metadata payload h := by
    have h' : 0 ≤ (txPush que ins deadline metadata payload).result := h
    rcases txPush_cases que ins deadline metadata payload with ⟨hr, _⟩ | ⟨hr, _⟩
    · omega
    · exact hr
  txPush_perm que ins deadline metadata payload h := by
    have h' : 0 ≤ (txPush que ins deadline metadata payload).result := h
    rcases txPush_cases que ins deadline metadata payload with ⟨hr, _⟩ | ⟨_, hi⟩
    · omega
    · show (txPush que ins deadline metadata payload).que.items.Perm _
      rw [hi]
      exact insert_perm _ _
  txPush_sublist que ins deadline metadata payload h := by
    have h' : 0 ≤ (txPush que ins deadline metadata payload).result := h
    rcases txPush_cases que ins deadline metadata payload with ⟨hr, _⟩ | ⟨_, hi⟩
    · omega
    · show que.items.Sublist (txPush que ins deadline metadata payload).que.items
      rw [hi]
      exact insert_sublist _ _
  txFrames_deadline _ _ _ _ _ item h := by
    rw [List.mem_singleton.mp h]
    rfl

theorem rxLaws : RxLaws canard where
  rxAccept_result ins timestamp frame _ := by
    left
    show 0 ≤ (rxAccept ins timestamp frame).result
    simp only [rxAccept]
    split_ifs
    · exact Int.one_nonneg
    · exact Int.le_refl 0
  rxAccept_transferId ins timestamp frame _ _ := by
    have htransfer : (rxAccept ins timestamp frame).transfer.metadata = parse frame := by
      simp only [rxAccept]
      split_ifs <;> rfl
    show (rxAccept ins timestamp frame).transfer.metadata.transferId < 32
    rw [htransfer, UInt8.lt_iff_toNat_lt]
    simp only [parse, UInt8.toNat_and]
    exact Nat.and_lt_two_pow _ (by decide : (0x1F : UInt8).toNat < 2 ^ 5)

/-- An RX session is that of a subscription and a remote node. -/
abbrev RxSession := CanardTransferKind × CanardPortID × CanardNodeID

structure HeapInstance where
  base : Instance
  blocks : List MemoryBlock
  sessions : List RxSession

/-- The session is allocated with the first transfer of its remote node. -/
def openSession (metadata : CanardTransferMetadata) (sessions : List RxSession) :
    List RxSession :=
  sessions.insert (metadata.transferKind, metadata.portId, metadata.remoteNodeId)

def heapCanard : Canard where
  TxQueue := TxQueue
  Instance := HeapInstance
  canardInit nodeId := ⟨canard.canardInit nodeId, [], []⟩
  canardTxInit := canard.canardTxInit
  txSize := canard.txSize
  txFrames que ins := canard.txFrames que ins.base
  canardTxPush que ins deadline metadata payload :=
    let r := txPush que ins.base deadline metadata payload
    let frames := if r.result < 0 then [] else [txItem ins.base deadline metadata payload]
    ⟨r.result, r.que, { ins with base := r.ins, blocks := frames.map .txItem ++ ins.blocks }⟩
  canardTxPeek := canard.canardTxPeek
  canardTxPop := canard.canardTxPop
  canardRxAccept ins timestamp frame _ :=
    let r := rxAccept ins.base timestamp frame
    if 0 < r.result then
      ⟨r.result, r.transfer,
        { base := r.ins
          blocks := (r.transfer.payload.map .rxPayload).toList ++ ins.blocks
          sessions := openSession r.transfer.metadata ins.sessions }⟩
    else ⟨r.result, r.transfer, { ins with base := r.ins }⟩
  canardRxSubscribe ins kind portId extent timeout :=
    let r := canard.canardRxSubscribe ins.base kind portId extent timeout
    (r.1, { ins with base := r.2 })
  memoryFree ins block := { ins with blocks := block.elim ins.blocks ins.blocks.erase }
  o1heapOomCount ins := ins.base.oomCount

def heapTxLaws : TxLaws heapCanard where
  items := txLaws.items
  txSize_eq := txLaws.txSize_eq
  txInit_items := txLaws.txInit_items
  txPeek_eq := txLaws.txPeek_eq
  txPop_item := txLaws.txPop_item
  txPop_items := txLaws.txPop_items
  txPush_failed que ins := txLaws.txPush_failed que ins.base
  txPush_count que ins := txLaws.txPush_count que ins.base
  txPush_perm que ins := txLaws.txPush_perm que ins.base
  txPush_sublist que ins := txLaws.txPush_sublist que ins.base
  txFrames_deadline que ins := txLaws.txFrames_deadline que ins.base

def HeapInstance.live (ins : HeapInstance) : Multiset (MemoryBlock ⊕ RxSession) :=
  Multiset.map Sum.inl ins.blocks + Multiset.map Sum.inr ins.sessions

theorem txPush_live (que : TxQueue) (ins : HeapInstance) (deadline : CanardMicrosecond)
    (metadata : CanardTransferMetadata) (payload : List UInt8) :
    (heapCanard.canardTxPush que ins deadline metadata payload).ins.live =
      Multiset.map Sum.inl (frameBlocks
        (if (txPush que ins.base deadline metadata payload).result < 0 then []
          else [txItem ins.base deadline metadata payload])) + ins.live := by
  simp only [HeapInstance.live, heapCanard, frameBlocks, ← Multiset.coe_add, Multiset.map_add,
    Multiset.map_coe]
  abel

theorem rxAccept_live (ins : HeapInstance) (timestamp : CanardMicrosecond) (frame : CanardFrame)
    (ifidx : ℕ) :
    (heapCanard.canardRxAccept ins timestamp frame ifidx).ins.live +
        Multiset.map Sum.inr (ins.sessions : Multiset RxSession) =
      (if 0 < (rxAccept ins.base timestamp frame).result then
        Multiset.map Sum.inl (payloadBlock (rxAccept ins.base timestamp frame).transfer.payload)
        else 0) +
        (ins.live + Multiset.map Sum.inr
          ((heapCanard.canardRxAccept ins timestamp frame ifidx).ins.sessions :
            Multiset RxSession)) := by
  by_cases h : 0 < (rxAccept ins.base timestamp frame).result
  · simp only [HeapInstance.live, heapCanard, if_pos h, payloadBlock, ← Multiset.coe_add,
      Multiset.map_add]
    abel
  · simp only [HeapInstance.live, heapCanard, if_neg h, zero_add]

theorem memoryFree_live (ins : HeapInstance) {block : MemoryBlock}
    (h : Sum.inl block ∈ ins.live) :
    ins.live = Sum.inl block ::ₘ (heapCanard.memoryFree ins (some block)).live := by
  have hm : block ∈ (ins.blocks : Multiset MemoryBlock) := by
    simpa [HeapInstance.live] using h
  simp only [HeapInstance.live, heapCanard, Option.elim_some, ← Multiset.coe_erase]
  rw [← Multiset.cons_add, ← Multiset.map_cons, Multiset.cons_erase hm]

def heapLaws : HeapLaws heapCanard where
  Session := RxSession
  blocks := HeapInstance.live
  sessions ins := ins.sessions
  init_blocks _ := ⟨rfl, rfl⟩
  txPush_failed que ins deadline metadata payload h := by
    have hlive := txPush_live que ins deadline metadata payload
    have h' : (txPush que ins.base deadline metadata payload).result < 0 := h
    rw [if_pos h'] at hlive
    exact hlive.trans (zero_add _)
  txPush_blocks que ins deadline metadata payload h := by
    have hlive := txPush_live que ins deadline metadata payload
    have h' : ¬ (txPush que ins.base deadline metadata payload).result < 0 := not_lt.mpr h
    rwa [if_neg h'] at hlive
  txPush_sessions _ _ _ _ _ := rfl
  rxAccept_blocks ins timestamp frame ifidx := by
    have hlive := rxAccept_live ins timestamp frame ifidx
    by_cases h : 0 < (rxAccept ins.base timestamp frame).result
    · simpa only [heapCanard, if_pos h] using hlive
    · simpa only [heapCanard, if_neg h] using hlive
  rxSubscribe_blocks _ _ _ _ _ := rfl
  free_null _ := rfl
  free_block ins _ := memoryFree_live ins
  free_sessions _ _ := rfl

/-- The node of a CAN ID a service transfer is addressed to. -/
def destination (extendedCanId : UInt32) : CanardNodeID := (extendedCanId >>> 7 &&& 0x7F).toUInt8

/-- The session is one that a 29-bit CAN ID can tell. -/
def Valid (ins : Instance) (metadata : CanardTransferMetadata) : Prop :=
  canId ins.nodeId metadata &&& 0x1FFFFFFF = canId ins.nodeId metadata ∧
    parse (txItem ins 0 metadata []).frame =
      { metadata with remoteNodeId := ins.nodeId, transferId := metadata.transferId % 32 } ∧
    (metadata.transferKind = .message ∨
      destination (canId ins.nodeId metadata) = metadata.remoteNodeId)

instance (ins : Instance) (metadata : CanardTransferMetadata) : Decidable (Valid ins metadata) :=
  inferInstanceAs (Decidable (_ ∧ _ ∧ _))

/-- Any other session is an invalid argument. -/
def strictPush (que : TxQueue) (ins : Instance) (deadline : CanardMicrosecond)
    (metadata : CanardTransferMetadata) (payload : List UInt8) : TxPushResult TxQueue Instance :=
  if Valid ins metadata then txPush que ins deadline metadata payload else ⟨-2, que, ins⟩

def strictCanard : Canard := { canard with canardTxPush := strictPush }

/-- A push that is not refused is one of `canard`. -/
theorem strictPush_eq {que : TxQueue} {ins : Instance} {deadline : CanardMicrosecond}
    {metadata : CanardTransferMetadata} {payload : List UInt8}
    (h : 0 ≤ (strictPush que ins deadline metadata payload).result) :
    Valid ins metadata ∧ 0 ≤ (txPush que ins deadline metadata payload).result ∧
      strictPush que ins deadline metadata payload = txPush que ins deadline metadata payload := by
  unfold strictPush at h ⊢
  split_ifs at h ⊢ with hvalid
  · exact ⟨hvalid, h, rfl⟩
  · exact absurd h (by change ¬(0 : ℤ) ≤ -2; decide)

theorem strictPush_nodeId (que : TxQueue) (ins : Instance) (deadline : CanardMicrosecond)
    (metadata : CanardTransferMetadata) (payload : List UInt8) :
    (strictPush que ins deadline metadata payload).ins.nodeId = ins.nodeId := by
  unfold strictPush txPush
  split_ifs <;> rfl

def strictTxLaws : TxLaws strictCanard where
  items := txLaws.items
  txSize_eq := txLaws.txSize_eq
  txInit_items := txLaws.txInit_items
  txPeek_eq := txLaws.txPeek_eq
  txPop_item := txLaws.txPop_item
  txPop_items := txLaws.txPop_items
  txPush_failed que ins deadline metadata payload h := by
    change (strictPush que ins deadline metadata payload).result < 0 at h
    change txLaws.items (strictPush que ins deadline metadata payload).que = txLaws.items que
    unfold strictPush at h ⊢
    split_ifs at h ⊢
    · exact txLaws.txPush_failed que ins deadline metadata payload h
    · rfl
  txPush_count que ins deadline metadata payload h := by
    obtain ⟨-, hr, heq⟩ := strictPush_eq h
    change (strictPush que ins deadline metadata payload).result = _
    rw [heq]
    exact txLaws.txPush_count que ins deadline metadata payload hr
  txPush_perm que ins deadline metadata payload h := by
    obtain ⟨-, hr, heq⟩ := strictPush_eq h
    change (txLaws.items (strictPush que ins deadline metadata payload).que).Perm _
    rw [heq]
    exact txLaws.txPush_perm que ins deadline metadata payload hr
  txPush_sublist que ins deadline metadata payload h := by
    obtain ⟨-, hr, heq⟩ := strictPush_eq h
    change (txLaws.items que).Sublist
      (txLaws.items (strictPush que ins deadline metadata payload).que)
    rw [heq]
    exact txLaws.txPush_sublist que ins deadline metadata payload hr
  txFrames_deadline := txLaws.txFrames_deadline

theorem strictRxLaws : RxLaws strictCanard where
  rxAccept_result := rxLaws.rxAccept_result
  rxAccept_transferId := rxLaws.rxAccept_transferId

/-- The metadata is read off the CAN ID and the tail byte. -/
theorem parse_txItem (ins : Instance) (deadline : CanardMicrosecond)
    (metadata : CanardTransferMetadata) (payload : List UInt8) :
    parse (txItem ins deadline metadata payload).frame =
      parse (txItem ins 0 metadata []).frame := by
  have htail : (payload ++ [0xE0 ||| metadata.transferId % 32]).getLastD 0 =
      ([] ++ [0xE0 ||| metadata.transferId % 32]).getLastD 0 := by
    rw [List.getLastD_concat, List.getLastD_concat]
  unfold parse txItem
  simp only [htail]

theorem rxAccept_ins (ins : Instance) (timestamp : CanardMicrosecond) (frame : CanardFrame) :
    (rxAccept ins timestamp frame).ins = ins := by
  simp only [rxAccept]
  split_ifs <;> rfl

/-- A transfer that completes has the metadata of its frame, and is addressed to its receiver. -/
theorem rxAccept_txItem {ins ins' : Instance} {deadline timestamp : CanardMicrosecond}
    {metadata : CanardTransferMetadata} {payload : List UInt8} (hvalid : Valid ins metadata)
    (h : 0 < (rxAccept ins' timestamp (txItem ins deadline metadata payload).frame).result) :
    (rxAccept ins' timestamp (txItem ins deadline metadata payload).frame).transfer.metadata =
        { metadata with remoteNodeId := ins.nodeId, transferId := metadata.transferId % 32 } ∧
      (metadata.transferKind = .message ∨ metadata.remoteNodeId = ins'.nodeId) := by
  obtain ⟨hwide, hparse, hdestination⟩ := hvalid
  have hmetadata := (parse_txItem ins deadline metadata payload).trans hparse
  unfold rxAccept at h ⊢
  simp only [hmetadata] at h ⊢
  split_ifs at h ⊢ with haccepted
  · refine ⟨rfl, ?_⟩
    rcases haccepted.1 with hmessage | hself
    · exact .inl hmessage
    · have hself' : destination (canId ins.nodeId metadata &&& 0x1FFFFFFF) = ins'.nodeId := hself
      rw [hwide] at hself'
      exact hdestination.imp_right fun hremote => hremote.symm.trans hself'
  · exact absurd h (lt_irrefl 0)

end CyphalOnboard.SingleFrame
