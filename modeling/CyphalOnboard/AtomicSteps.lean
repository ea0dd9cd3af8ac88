import CyphalOnboard.NodeSafety
import Mathlib.Logic.Relation

namespace CyphalOnboard

open EarlyExit OpenCyphal

variable {C : Canard} {τ : Type} {R : ℕ}

/-- A step calls libcanard once, or it writes a record, fills a slot or ends the process. -/
inductive Atomic : OpenCyphal C τ R → OpenCyphal C τ R → Prop
  | crash (s : OpenCyphal C τ R) (fault : Fault) : Atomic s (s.crash fault)
  | record (s : OpenCyphal C τ R) (event : Event R) (h : event.pushed = none) :
      Atomic s (s.record event)
  | fill (s : OpenCyphal C τ R) (i : Fin R) (transceiver : Option τ)
      (h : (s.transceiver i).isNone) : Atomic s (fill s i transceiver)
  | push (s : OpenCyphal C τ R) (i : Fin R) (que : C.TxQueue) (deadline : CanardMicrosecond)
      (metadata : CanardTransferMetadata) (payload : List UInt8)
      (h : s.txQueues i = some que) :
      Atomic s (s.publishOn deadline metadata payload i).1
  | pop (s : OpenCyphal C τ R) (i : Fin R) (que : C.TxQueue) (tqi : CanardTxQueueItem)
      (h : s.txQueues i = some que) (hpeek : C.canardTxPeek que = some tqi) :
      Atomic s (s.popAndFree i que tqi)
  | accept (s : OpenCyphal C τ R) (i : Fin R) (time : CanardMicrosecond) (frame : CanardFrame) :
      Atomic s { s with
        inst := (C.canardRxAccept s.inst time frame i).ins
        events := s.events ++
          [.rxAccept i frame (C.canardRxAccept s.inst time frame i).result] }
  | release (s : OpenCyphal C τ R) (block : Option MemoryBlock) : Atomic s (s.release block)
  | subscribe (s : OpenCyphal C τ R) (kind : CanardTransferKind) (portId : CanardPortID)
      (extent : ℕ) (timeout : CanardMicrosecond) :
      Atomic s { s with inst := (C.canardRxSubscribe s.inst kind portId extent timeout).2 }

/-- Any number of steps. -/
abbrev Atomically : OpenCyphal C τ R → OpenCyphal C τ R → Prop := Relation.ReflTransGen Atomic

/-- A preorder that contains the steps contains what is made of them. -/
theorem Atomically.rel {P : OpenCyphal C τ R → OpenCyphal C τ R → Prop} (hrefl : ∀ s, P s s)
    (htrans : ∀ {a b c}, P a b → P b c → P a c) (hstep : ∀ {s s'}, Atomic s s' → P s s')
    {s s' : OpenCyphal C τ R} (h : Atomically s s') : P s s' := by
  induction h with
  | refl => exact hrefl s
  | tail _ hlast ih => exact htrans ih (hstep hlast)

/-- What libcanard does with an instance does not take this from it. -/
structure Lasting (own : C.Instance → Prop) : Prop where
  txPush : ∀ que ins deadline metadata payload, own ins →
    own (C.canardTxPush que ins deadline metadata payload).ins
  rxAccept : ∀ ins timestamp frame ifidx, own ins →
    own (C.canardRxAccept ins timestamp frame ifidx).ins
  rxSubscribe : ∀ ins kind portId extent timeout, own ins →
    own (C.canardRxSubscribe ins kind portId extent timeout).2
  memoryFree : ∀ ins block, own ins → own (C.memoryFree ins block)

theorem lasting_true : Lasting fun _ : C.Instance => True :=
  ⟨fun _ _ _ _ _ => id, fun _ _ _ _ => id, fun _ _ _ _ _ => id, fun _ _ => id⟩

theorem Atomic.lasting {own : C.Instance → Prop} (hown : Lasting own) {s s' : OpenCyphal C τ R}
    (h : Atomic s s') (hs : own s.inst) : own s'.inst := by
  cases h with
  | crash fault => exact hs
  | record event hevent => exact hs
  | fill i transceiver hempty => exact hs
  | push i que deadline metadata payload hque =>
    unfold publishOn
    split
    · exact hs
    · exact hs
    next que' _ _ => exact hown.txPush que' s.inst deadline metadata payload hs
  | pop i que tqi hque hpeek => exact hown.memoryFree s.inst _ hs
  | accept i time frame => exact hown.rxAccept s.inst time frame i hs
  | release block => exact hown.memoryFree s.inst block hs
  | subscribe kind portId extent timeout =>
    exact hown.rxSubscribe s.inst kind portId extent timeout hs

theorem Atomically.lasting {own : C.Instance → Prop} (hown : Lasting own)
    {s s' : OpenCyphal C τ R} (h : Atomically s s') : own s.inst → own s'.inst :=
  h.rel (P := fun s s' => own s.inst → own s'.inst) (fun _ => id) (fun h h' => h' ∘ h)
    (Atomic.lasting hown)

theorem atomically_publishOn (s : OpenCyphal C τ R) (deadline : CanardMicrosecond)
    (metadata : CanardTransferMetadata) (payload : List UInt8) (i : Fin R) :
    Atomically s (s.publishOn deadline metadata payload i).1 := by
  cases hc : s.crashed with
  | some fault =>
    simp only [publishOn, hc]
    exact .refl
  | none =>
    cases hq : s.txQueues i with
    | none =>
      simp only [publishOn, hc, hq]
      exact .single (.crash s _)
    | some que => exact .single (.push s i que deadline metadata payload hq)

theorem atomically_publish (s : OpenCyphal C τ R) (deadline : CanardMicrosecond)
    (metadata : CanardTransferMetadata) (payload : List UInt8) :
    Atomically s (s.publish deadline metadata payload).1 := by
  unfold publish
  generalize (some 0 : Option ℤ) = r
  induction List.finRange R generalizing s r with
  | nil => exact .refl
  | cons i l ih =>
    rw [List.foldl_cons]
    exact (atomically_publishOn s deadline metadata payload i).trans (ih _ _)

theorem atomically_publishVia (s : OpenCyphal C τ R) (ifidx : Option (Fin R))
    (deadline : CanardMicrosecond) (metadata : CanardTransferMetadata) (payload : List UInt8) :
    Atomically s (s.publishVia ifidx deadline metadata payload).1 := by
  cases ifidx with
  | some i => exact atomically_publishOn s deadline metadata payload i
  | none => exact atomically_publish s deadline metadata payload

theorem atomically_run (reaction : Reaction R) (s : OpenCyphal C τ R) :
    Atomically s (reaction.run s) := by
  induction reaction generalizing s with
  | done => exact .refl
  | crash fault => exact .single (.crash s fault)
  | log entry k ih => exact .head (.record s (.log entry) rfl) (ih _)
  | publish ifidx deadline metadata payload k ih =>
    have h := atomically_publishVia s ifidx deadline metadata payload
    simp only [Reaction.run]
    cases hp : s.publishVia ifidx deadline metadata payload with
    | mk s' r =>
      rw [hp] at h
      cases r with
      | none => exact h
      | some r => exact h.trans (ih r s')

theorem atomically_deliver (i : Fin R) (transfer : CanardRxTransfer) (k : ℕ)
    (receivers : List (Receiver R)) (s : OpenCyphal C τ R) :
    Atomically s (deliver i transfer k receivers s) := by
  induction receivers generalizing k s with
  | nil => exact .refl
  | cons receiver receivers ih =>
    unfold deliver
    split
    · exact .refl
    · have hprocess : Atomic s (s.record (.process k i transfer)) := .record s _ rfl
      exact .head hprocess ((atomically_run (receiver i transfer) _).trans (ih (k + 1) _))

theorem atomically_txLoop (send : ℕ → ℤ) (time : CanardMicrosecond) (i : Fin R) (fuel n : ℕ)
    {que : C.TxQueue} {s : OpenCyphal C τ R} (hque : s.txQueues i = some que) :
    Atomically s (txLoop send time i fuel n que s).1 := by
  induction fuel generalizing n que s with
  | zero => exact .single (.crash s .divergence)
  | succ fuel ih =>
    have hnext (event : Event R) (hevent : event.pushed = none) {tqi : CanardTxQueueItem}
        (hpeek : C.canardTxPeek que = some tqi) (m : ℕ) :
        Atomically s (txLoop send time i fuel m (C.canardTxPop que tqi).2
          ((s.record event).popAndFree i que tqi)).1 := by
      have hrecord : Atomic s (s.record event) := .record s event hevent
      have hpop : Atomic (s.record event) ((s.record event).popAndFree i que tqi) :=
        .pop _ i que tqi hque hpeek
      exact .head hrecord (.head hpop (ih m (Function.update_self ..)))
    unfold txLoop
    cases hpeek : C.canardTxPeek que with
    | none => exact .refl
    | some tqi =>
      by_cases hlive : tqi.txDeadlineUsec = 0 ∨ tqi.txDeadlineUsec > time
      · simp only [if_pos hlive]
        cases s.transceiver i with
        | none => exact .single (.crash s _)
        | some t =>
          simp only
          split_ifs
          · exact .single (.record s _ rfl)
          · exact .single (.record s _ rfl)
          · exact hnext (.send i time tqi (send n)) rfl hpeek (n + 1)
      · simp only [if_neg hlive]
        exact hnext (.drop i time tqi) rfl hpeek n

theorem atomically_transmit (send : ℕ → ℤ) (time : CanardMicrosecond) (i : Fin R)
    (s : OpenCyphal C τ R) : Atomically s (transmit send time i s).1 := by
  cases hq : s.txQueues i with
  | none =>
    simp only [transmit, hq]
    exact .single (.crash s _)
  | some que =>
    simp only [transmit, hq]
    exact atomically_txLoop send time i _ 0 hq

theorem atomically_receive (receivers : List (Receiver R)) (answer : ℤ × CanardFrame)
    (time : CanardMicrosecond) (i : Fin R) (s : OpenCyphal C τ R) :
    Atomically s (receive receivers answer time i s).state := by
  have hread : Atomic s (s.record (.receive i answer.1)) := .record s _ rfl
  cases ht : s.transceiver i with
  | none =>
    simp only [receive, ht]
    exact .single (.crash s _)
  | some t =>
    simp only [receive, ht]
    by_cases hzero : answer.1 = 0
    · simp only [if_pos hzero]
      exact .single hread
    by_cases hneg : answer.1 < 0
    · simp only [if_neg hzero, if_pos hneg]
      exact .single hread
    simp only [if_neg hzero, if_neg hneg]
    have hfed := (Relation.ReflTransGen.single hread).tail
      (.accept (s.record (.receive i answer.1)) i time answer.2)
    generalize C.canardRxAccept (s.record (.receive i answer.1)).inst time answer.2 i = r at hfed ⊢
    by_cases hpos : r.result > 0
    · simp only [if_pos hpos]
      have hdone := hfed.trans (atomically_deliver i r.transfer 0 receivers _)
      split_ifs
      · exact hdone
      · exact hdone.tail (.release _ _)
    · simp only [if_neg hpos]
      split_ifs
      · exact hfed
      · exact hfed.tail (.crash _ _)

theorem atomically_serveInterface (receivers : List (Receiver R)) (answers : Answers R)
    (time : CanardMicrosecond) (i : Fin R) (s : OpenCyphal C τ R) :
    Atomically s (serveInterface receivers answers time i s).state := by
  have h := atomically_transmit (answers.send i) time i s
  unfold serveInterface
  cases htx : transmit (answers.send i) time i s with
  | mk s' exit =>
    rw [htx] at h
    have hread := h.trans (atomically_receive receivers (answers.receive i) time i s')
    cases exit with
    | none => exact h
    | some exit =>
      cases exit with
      | failed r => exact h
      | full => exact hread
      | drained => exact hread

theorem atomically_handle (receivers : List (Receiver R)) (answers : Answers R)
    (time : CanardMicrosecond) (s : OpenCyphal C τ R) :
    Atomically s (handleTxRxQueues receivers answers time s).1 := by
  cases hc : s.crashed with
  | some fault =>
    simp only [handleTxRxQueues, hc]
    exact .refl
  | none =>
    rw [handleTxRxQueues_of_running receivers answers time hc]
    exact forLoop_rel (P := Atomically) (fun _ => .refl) (fun h h' => h.trans h')
      (fun i _ => atomically_serveInterface receivers answers time i) s

theorem atomically_addTransceiver (s : OpenCyphal C τ R) (transceiver : Option τ) :
    Atomically s (s.addTransceiver transceiver) := by
  cases hc : s.crashed with
  | some fault =>
    rw [addTransceiver_of_crashed hc]
  | none =>
    rw [addTransceiver_eq hc]
    induction List.finRange R generalizing s transceiver with
    | nil => exact .refl
    | cons i l ih =>
      rw [List.foldl_cons]
      cases hi : s.transceiver i with
      | none =>
        rw [addStep_empty hi]
        exact .head (.fill s i transceiver (Option.isNone_iff_eq_none.mpr hi)) (ih _ none hc)
      | some t =>
        rw [addStep_filled (Option.isSome_of_eq_some hi)]
        exact ih s transceiver hc

theorem atomically_publishMessage {M : Type} [IPMessage M] (node : NodeCore C τ R)
    (timeout : CanardMicrosecond) (message : M) :
    Atomically node.base (node.publish timeout message).2.1.base := by
  unfold NodeCore.publish
  cases IPMessage.metadata message with
  | mk metadata message' =>
    cases hs : IPMessage.serializedMessage message' with
    | error fault =>
      simp only [hs]
      exact .single (.crash node.base fault)
    | ok r =>
      simp only [hs]
      exact atomically_publish node.base timeout metadata _

theorem NodeTask.atomically_execute (env : TaskEnv) (time : UInt64) (task : NodeTask)
    (node : NodeCore C τ R) : Atomically node.base (task.execute env time node).2.base := by
  cases task with
  | heartbeat task =>
    simp only [execute, THeartbeat.execute]
    split
    · exact .single (.crash node.base _)
    · exact atomically_publishMessage node _ _
  | byteArray task =>
    simp only [execute, TByteArray.execute]
    split
    · exact .single (.crash node.base _)
    · exact atomically_publishMessage node _ _
  | latencyMeasurement task =>
    simp only [execute, TLatencyMeasurement.execute]
    split
    · exact .single (.crash node.base _)
    next latency _ =>
      exact atomically_publishMessage
        { node with latency := some (Function.update latency _ env.clock) } _ task.primitiveEmpty

/-- Every command is a sequence of steps. -/
theorem atomically_command (command : NodeCommand τ R) (node : Node C τ R) :
    Atomically node.host.base (command.run node).host.base := by
  cases command with
  | startNode startedAt => exact .refl
  | schedule nextRun task constructed => exact .refl
  | addTransceiver transceiver => exact atomically_addTransceiver node.host.base (some transceiver)
  | subscribe kind portId extent timeout =>
    change Atomically _ (node.host.base.subscribe kind portId extent timeout).1
    unfold subscribe
    split
    · exact .refl
    · exact .single (.subscribe node.host.base kind portId extent timeout)
  | checkScheduler env time =>
    exact (checkScheduler_rel (K := nodeTasks C τ R)
      (Q := fun host host' => Atomically host.base host'.base) (fun _ => .refl)
      (fun h h' => h.trans h') (fun env time body host =>
        NodeTask.atomically_execute env time body host) node env time).1
  | handleTxRxQueues ans clock time => exact atomically_handle _ ans time node.host.base

end CyphalOnboard
