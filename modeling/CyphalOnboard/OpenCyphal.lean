import CyphalOnboard.Canard
import CyphalOnboard.Library.EarlyExit
import CyphalOnboard.Library.Drain
import Mathlib.Data.List.FinRange
import Mathlib.Logic.Function.Basic

namespace CyphalOnboard

open EarlyExit Drain

/-- `MEGA`, converted to the unsigned type of the sums it occurs in. -/
def mega : UInt64 := 1000000

/-- What ends the process: undefined behaviour, a failed assertion, an exception. -/
inductive Fault where
  | uninitialisedQueue (ifidx : ℕ)
  | nullTransceiver (ifidx : ℕ)
  | assertion
  | outOfBounds
  | badCast
  | divergence
  deriving DecidableEq, Repr

/-- A line of the log. -/
inductive LogEntry where
  /-- `Got latency response from <remote> with transmission id<id>`. -/
  | gotLatencyResponse (remoteNodeId : CanardNodeID) (transferId : CanardTransferID)
  /-- `;<remote>;<id>;<delta>`. -/
  | latency (remoteNodeId : CanardNodeID) (transferId : CanardTransferID) (delta : UInt64)
  deriving DecidableEq, Repr

inductive Event (R : ℕ) where
  /-- `canardTxPush` with its result and the frames it enqueued. -/
  | push (ifidx : Fin R) (deadline : CanardMicrosecond) (metadata : CanardTransferMetadata)
      (payload : List UInt8) (result : ℤ) (frames : List CanardTxQueueItem)
  /-- `SendCanardFrame` in a call at `time`. -/
  | send (ifidx : Fin R) (time : CanardMicrosecond) (item : CanardTxQueueItem) (result : ℤ)
  /-- A timed-out frame is taken off its queue without being sent. -/
  | drop (ifidx : Fin R) (time : CanardMicrosecond) (item : CanardTxQueueItem)
  /-- `ReceiveCanardFrame`. -/
  | receive (ifidx : Fin R) (result : ℤ)
  | rxAccept (ifidx : Fin R) (frame : CanardFrame) (result : ℤ)
  /-- `ProcessReceivedTransfer` of the receiver registered as number `receiver`. -/
  | process (receiver : ℕ) (ifidx : Fin R) (transfer : CanardRxTransfer)
  /-- `memory_free`; `none` is the null pointer. -/
  | release (block : Option MemoryBlock)
  | log (entry : LogEntry)

/-- A node over `R` redundant interfaces (`CAN_REDUNDANCY_FACTOR`) with transceivers of type `τ`.
The loops over the interfaces count in a `uint8_t`, which does not wrap for `R ≤ 255`. What the
object does to its environment is recorded in `events`, in order. -/
structure OpenCyphal (C : Canard) (τ : Type) (R : ℕ) where
  /-- `none` is a queue `canardTxInit` has never written. -/
  txQueues : Fin R → Option C.TxQueue
  transceiver : Fin R → Option τ
  inst : C.Instance
  crashed : Option Fault
  events : List (Event R)

/-- The answers of the transceivers in one call: `send i n` to the `n`-th frame offered to
interface `i`, `receive i` with the frame read from it. They are an argument of the call. -/
structure Answers (R : ℕ) where
  send : Fin R → ℕ → ℤ
  receive : Fin R → ℤ × CanardFrame

/-- What a receiver does with a transfer. It may publish, on one interface or on all of them,
and go on depending on the result. -/
inductive Reaction (R : ℕ) where
  | done
  | crash (fault : Fault)
  | log (entry : LogEntry) (k : Reaction R)
  | publish (ifidx : Option (Fin R)) (deadline : CanardMicrosecond)
      (metadata : CanardTransferMetadata) (payload : List UInt8) (k : ℤ → Reaction R)

/-- A `CanardTransferReceiver`. -/
abbrev Receiver (R : ℕ) := Fin R → CanardRxTransfer → Reaction R

variable {C : Canard} {τ : Type} {R : ℕ}

namespace OpenCyphal

/-- The state the constructor leaves: slot and queue 0 are set, the members of the other
interfaces are not. -/
def construct (nodeId : CanardNodeID) (transceiver : τ) : OpenCyphal C τ R where
  txQueues i := if i.val = 0 then some (C.canardTxInit 100 canardMtuCanFd) else none
  transceiver i := if i.val = 0 then some transceiver else none
  inst := C.canardInit nodeId
  crashed := none
  events := []

def crash (s : OpenCyphal C τ R) (fault : Fault) : OpenCyphal C τ R :=
  { s with crashed := some fault }

def record (s : OpenCyphal C τ R) (event : Event R) : OpenCyphal C τ R :=
  { s with events := s.events ++ [event] }

/-- `memory_free`. -/
def release (s : OpenCyphal C τ R) (block : Option MemoryBlock) : OpenCyphal C τ R :=
  { s with inst := C.memoryFree s.inst block, events := s.events ++ [.release block] }

def subscribe (s : OpenCyphal C τ R) (kind : CanardTransferKind) (portId : CanardPortID)
    (extent : ℕ) (timeout : CanardMicrosecond) : OpenCyphal C τ R × Option ℤ :=
  match s.crashed with
  | some _ => (s, none)
  | none =>
    let r := C.canardRxSubscribe s.inst kind portId extent timeout
    ({ s with inst := r.2 }, some r.1)

/-- `Publish` on one interface. Without a result the process has ended. -/
def publishOn (s : OpenCyphal C τ R) (deadline : CanardMicrosecond)
    (metadata : CanardTransferMetadata) (payload : List UInt8) (ifidx : Fin R) :
    OpenCyphal C τ R × Option ℤ :=
  match s.crashed, s.txQueues ifidx with
  | some _, _ => (s, none)
  | none, none => (s.crash (.uninitialisedQueue ifidx), none)
  | none, some que =>
    let r := C.canardTxPush que s.inst deadline metadata payload
    let frames := if r.result < 0 then [] else C.txFrames que s.inst deadline metadata payload
    ({ s with
        txQueues := Function.update s.txQueues ifidx (some r.que)
        inst := r.ins
        events := s.events ++ [.push ifidx deadline metadata payload r.result frames] },
      some r.result)

/-- `Publish` on all interfaces: the result is that of the last one. -/
def publish (s : OpenCyphal C τ R) (deadline : CanardMicrosecond)
    (metadata : CanardTransferMetadata) (payload : List UInt8) : OpenCyphal C τ R × Option ℤ :=
  (List.finRange R).foldl (fun acc ifidx => acc.1.publishOn deadline metadata payload ifidx)
    (s, some 0)

/-- Either overload of `Publish`; `none` stands for all interfaces. -/
def publishVia (s : OpenCyphal C τ R) (ifidx : Option (Fin R)) (deadline : CanardMicrosecond)
    (metadata : CanardTransferMetadata) (payload : List UInt8) : OpenCyphal C τ R × Option ℤ :=
  match ifidx with
  | some i => s.publishOn deadline metadata payload i
  | none => s.publish deadline metadata payload

/-- The loop of `addTransceiver`. The first empty slot takes the pointer, which is null from
then on; the loop goes on over the slots that are still empty. -/
def addTransceiver (s : OpenCyphal C τ R) (transceiver : Option τ) : OpenCyphal C τ R :=
  match s.crashed with
  | some _ => s
  | none =>
    ((List.finRange R).foldl
      (fun (acc : OpenCyphal C τ R × Option τ) ifidx =>
        if (acc.1.transceiver ifidx).isNone then
          ({ acc.1 with
              transceiver := Function.update acc.1.transceiver ifidx acc.2
              txQueues := Function.update acc.1.txQueues ifidx
                (some (C.canardTxInit 100 canardMtuCanFd)) }, none)
        else acc)
      (s, transceiver)).1

end OpenCyphal

/-- Run a receiver's reaction on the object it publishes through. -/
def Reaction.run : Reaction R → OpenCyphal C τ R → OpenCyphal C τ R
  | .done, s => s
  | .crash fault, s => s.crash fault
  | .log entry k, s => k.run (s.record (.log entry))
  | .publish ifidx deadline metadata payload k, s =>
    match s.publishVia ifidx deadline metadata payload with
    | (s', some r) => (k r).run s'
    | (s', none) => s'

namespace OpenCyphal

/-- The frame is not yet timed out while waiting in the queue. -/
def Live (time : CanardMicrosecond) (item : CanardTxQueueItem) : Prop :=
  item.txDeadlineUsec = 0 ∨ item.txDeadlineUsec > time

instance (time : CanardMicrosecond) : DecidablePred (Live time) :=
  fun item => inferInstanceAs (Decidable (item.txDeadlineUsec = 0 ∨ item.txDeadlineUsec > time))

/-- The item leaves the queue `que` of interface `ifidx` and its block is freed. -/
def popAndFree (s : OpenCyphal C τ R) (ifidx : Fin R) (que : C.TxQueue)
    (tqi : CanardTxQueueItem) : OpenCyphal C τ R :=
  let r := C.canardTxPop que tqi
  { s with txQueues := Function.update s.txQueues ifidx (some r.2) }.release
    (r.1.map .txItem)

/-- The `while` loop over the TX queue. The queue shrinks with every iteration, so its size
bounds their number; `n` counts the frames sent so far. -/
def txLoop (send : ℕ → ℤ) (time : CanardMicrosecond) (ifidx : Fin R) :
    (fuel n : ℕ) → C.TxQueue → OpenCyphal C τ R → OpenCyphal C τ R × Option Exit
  | 0, _, _, s => (s.crash .divergence, none)
  | fuel + 1, n, que, s =>
    match C.canardTxPeek que with
    | none => (s, some .drained)
    | some tqi =>
      -- a deadline of 0 is none
      if tqi.txDeadlineUsec = 0 ∨ tqi.txDeadlineUsec > time then
        match s.transceiver ifidx with
        | none => (s.crash (.nullTransceiver ifidx), none)
        | some _ =>
          let result := send n
          let s := s.record (.send ifidx time tqi result)
          -- nothing was accepted: the frame stays first in the queue
          if result = 0 then (s, some .full)
          else if result < 0 then (s, some (.failed result))
          else txLoop send time ifidx fuel (n + 1) (C.canardTxPop que tqi).2
            (s.popAndFree ifidx que tqi)
      else
        txLoop send time ifidx fuel n (C.canardTxPop que tqi).2
          ((s.record (.drop ifidx time tqi)).popAndFree ifidx que tqi)

/-- Transmit pending frames from the prioritized TX queue of one interface. -/
def transmit (send : ℕ → ℤ) (time : CanardMicrosecond) (ifidx : Fin R) (s : OpenCyphal C τ R) :
    OpenCyphal C τ R × Option Exit :=
  match s.txQueues ifidx with
  | none => (s.crash (.uninitialisedQueue ifidx), none)
  | some que => txLoop send time ifidx (C.txSize que + 1) 0 que s

/-- The loop over `transfer_receiver_`; `k` numbers the receivers. -/
def deliver (ifidx : Fin R) (transfer : CanardRxTransfer) :
    ℕ → List (Receiver R) → OpenCyphal C τ R → OpenCyphal C τ R
  | _, [], s => s
  | k, receiver :: receivers, s =>
    match s.crashed with
    | some _ => s
    | none =>
      deliver ifidx transfer (k + 1) receivers
        ((receiver ifidx transfer).run (s.record (.process k ifidx transfer)))

/-- Process received frames by feeding them to libcanard. An interface with nothing to read
breaks out of the loop over the interfaces. -/
def receive (receivers : List (Receiver R)) (answer : ℤ × CanardFrame)
    (time : CanardMicrosecond) (ifidx : Fin R) (s : OpenCyphal C τ R) :
    Flow (OpenCyphal C τ R) (Option ℤ) :=
  match s.transceiver ifidx with
  | none => .ret (s.crash (.nullTransceiver ifidx)) none
  | some _ =>
    let s := s.record (.receive ifidx answer.1)
    -- `break` in the source leaves the loop over the interfaces, not only this iteration
    if answer.1 = 0 then .brk s
    else if answer.1 < 0 then .ret s (some (-answer.1))
    else
      let r := C.canardRxAccept s.inst time answer.2 ifidx
      let s := { s with
        inst := r.ins
        events := s.events ++ [.rxAccept ifidx answer.2 r.result] }
      if r.result > 0 then
        let s := deliver ifidx r.transfer 0 receivers s
        if s.crashed.isSome then .ret s none
        else .next (s.release (r.transfer.payload.map .rxPayload))
      -- an incomplete transfer, or one the heap had no room for, is no error
      else if r.result = 0 ∨ r.result = -canardErrorOutOfMemory then .next s
      else .ret (s.crash .assertion) none

/-- One iteration of the loop over the interfaces. -/
def serveInterface (receivers : List (Receiver R)) (answers : Answers R)
    (time : CanardMicrosecond) (ifidx : Fin R) (s : OpenCyphal C τ R) :
    Flow (OpenCyphal C τ R) (Option ℤ) :=
  match transmit (answers.send ifidx) time ifidx s with
  | (s, none) => .ret s none
  | (s, some (.failed result)) => .ret s (some (-result))
  | (s, some .full) => receive receivers (answers.receive ifidx) time ifidx s
  | (s, some .drained) => receive receivers (answers.receive ifidx) time ifidx s

def handleTxRxQueues (receivers : List (Receiver R)) (answers : Answers R)
    (time : CanardMicrosecond) (s : OpenCyphal C τ R) : OpenCyphal C τ R × Option ℤ :=
  match s.crashed with
  | some _ => (s, none)
  | none =>
    match forLoop (serveInterface receivers answers time) (List.finRange R) s with
    | (s, none) => (s, some 0)
    | (s, some result) => (s, result)

/-- `uavcan_node_Health_1_0` CAUTION after an allocation failed, else NOMINAL. -/
def health (s : OpenCyphal C τ R) : UInt8 :=
  if C.o1heapOomCount s.inst > 0 then 2 else 0

end OpenCyphal

end CyphalOnboard
