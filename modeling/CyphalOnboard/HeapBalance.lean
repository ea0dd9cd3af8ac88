import CyphalOnboard.Configuration
import CyphalOnboard.AddedTransceivers
import CyphalOnboard.FaultIsolation
import Mathlib.Algebra.BigOperators.Group.Finset.Basic
import Mathlib.Data.Fintype.Basic

namespace CyphalOnboard

open EarlyExit OpenCyphal

variable {C : Canard} {τ : Type} {R : ℕ} {L : TxLaws C} {H : HeapLaws C}

/-- The blocks of the items in the queues. -/
def TxLaws.queuedBlocks (L : TxLaws C) (s : OpenCyphal C τ R) : Multiset MemoryBlock :=
  ∑ i, frameBlocks (L.queued s i)

/-- The live blocks are the queued items, what the RX sessions own, and `held`. -/
def Balanced (L : TxLaws C) (H : HeapLaws C) (held : Multiset MemoryBlock)
    (s : OpenCyphal C τ R) : Prop :=
  H.blocks s.inst = (held + L.queuedBlocks s).map .inl + (H.sessions s.inst).map .inr

theorem frameBlocks_append (l l' : List CanardTxQueueItem) :
    frameBlocks (l ++ l') = frameBlocks l + frameBlocks l' := by
  simp only [frameBlocks, ← Multiset.coe_add, Multiset.map_add]

theorem frameBlocks_perm {l l' : List CanardTxQueueItem} (h : l.Perm l') :
    frameBlocks l = frameBlocks l' :=
  congrArg (Multiset.map MemoryBlock.txItem) (Multiset.coe_eq_coe.mpr h)

/-- What one queue gains and loses, the sum over the queues does. -/
theorem queuedBlocks_update {s s' : OpenCyphal C τ R} {i : Fin R} {que que' : C.TxQueue}
    (hi : s.txQueues i = some que)
    (hq : s'.txQueues = Function.update s.txQueues i (some que'))
    (gained lost : Multiset MemoryBlock)
    (h : gained + frameBlocks (L.items que) = lost + frameBlocks (L.items que')) :
    gained + L.queuedBlocks s = lost + L.queuedBlocks s' := by
  have hi' : s'.txQueues i = some que' := by rw [hq, Function.update_self]
  have hrest : ∑ j ∈ Finset.univ.erase i, frameBlocks (L.queued s j) =
      ∑ j ∈ Finset.univ.erase i, frameBlocks (L.queued s' j) := by
    apply Finset.sum_congr rfl
    intro j hj
    apply congrArg frameBlocks (queued_congr _).symm
    rw [hq, Function.update_of_ne (Finset.ne_of_mem_erase hj)]
  unfold TxLaws.queuedBlocks
  rw [← Finset.add_sum_erase _ _ (Finset.mem_univ i),
    ← Finset.add_sum_erase _ (fun j => frameBlocks (L.queued s' j)) (Finset.mem_univ i),
    queued_of_some hi, queued_of_some hi', hrest, ← add_assoc, h, add_assoc]

theorem queuedBlocks_congr {s s' : OpenCyphal C τ R} (h : s'.txQueues = s.txQueues) :
    L.queuedBlocks s' = L.queuedBlocks s :=
  Finset.sum_congr rfl fun i _ => by rw [queued_congr (congrFun h i)]

/-- Blocks are allocated for `held'` or for the queues. -/
theorem Balanced.allocate {held held' gained : Multiset MemoryBlock} {s s' : OpenCyphal C τ R}
    (h : Balanced L H held s) (hsessions : H.sessions s'.inst = H.sessions s.inst)
    (hblocks : H.blocks s'.inst = gained.map .inl + H.blocks s.inst)
    (howned : held' + L.queuedBlocks s' = gained + (held + L.queuedBlocks s)) :
    Balanced L H held' s' := by
  unfold Balanced at h ⊢
  rw [hblocks, h, hsessions, howned, Multiset.map_add _ gained, add_assoc]

/-- A block is released that was held or queued. -/
theorem Balanced.release {held held' : Multiset MemoryBlock} {block : MemoryBlock}
    {s s' : OpenCyphal C τ R} (h : Balanced L H held s)
    (hinst : s'.inst = C.memoryFree s.inst (some block))
    (howned : held + L.queuedBlocks s = block ::ₘ (held' + L.queuedBlocks s')) :
    Balanced L H held' s' := by
  unfold Balanced at h ⊢
  have hlive : .inl block ∈ H.blocks s.inst := by
    rw [h, howned, Multiset.map_cons]
    simp
  have hfree := H.free_block s.inst block hlive
  rw [h, howned, Multiset.map_cons, Multiset.cons_add, Multiset.cons_inj_right] at hfree
  rw [hinst, ← hfree, H.free_sessions]

/-- What a receiver records while it reacts. -/
def Event.FromReceiver : Event R → Prop
  | .push _ _ _ _ _ _ => True
  | .log _ => True
  | _ => False

/-- Events that complete no transfer and take no item off a queue. -/
def Event.Idle : Event R → Prop
  | .push _ _ _ _ _ _ => True
  | .send _ _ _ r => r ≤ 0
  | .receive _ _ => True
  | .rxAccept _ _ r => r ≤ 0
  | _ => False

/-- The event takes an item off its queue. -/
def Event.Pops (item : CanardTxQueueItem) : Event R → Prop
  | .send _ _ item' r => item' = item ∧ 0 < r
  | .drop _ _ item' => item' = item
  | _ => False

/-- A transfer goes to one receiver after the other, from number `k` on; `reactions` is what each of
them records. -/
def deliveries (i : Fin R) (transfer : CanardRxTransfer) :
    (k : ℕ) → (reactions : List (List (Event R))) → List (Event R)
  | _, [] => []
  | k, reaction :: reactions =>
    .process k i transfer :: reaction ++ deliveries i transfer (k + 1) reactions

/-- The record of a call with `n` registered receivers; `accepts i frame r` is what libcanard makes
of a frame from interface `i`. An item that is popped is released next. A transfer that is completed
is passed to the receivers `0, .., n - 1` in order, and its payload is released next. No other block
is released, and no receiver is called for anything else. -/
inductive Ledger (accepts : Fin R → CanardFrame → RxAcceptResult C.Instance → Prop) (n : ℕ) :
    List (Event R) → Prop
  | nil : Ledger accepts n []
  | idle {event : Event R} {rest : List (Event R)} (idle : event.Idle)
      (later : Ledger accepts n rest) : Ledger accepts n (event :: rest)
  | popped {event : Event R} {item : CanardTxQueueItem} {rest : List (Event R)}
      (pops : event.Pops item) (later : Ledger accepts n rest) :
      Ledger accepts n (event :: .release (some (.txItem item)) :: rest)
  | completed {i : Fin R} {frame : CanardFrame} {r : RxAcceptResult C.Instance}
      {reactions : List (List (Event R))} {rest : List (Event R)}
      (accepted : accepts i frame r) (completes : 0 < r.result) (all : reactions.length = n)
      (reacted : ∀ reaction ∈ reactions, ∀ event ∈ reaction, event.FromReceiver)
      (later : Ledger accepts n rest) :
      Ledger accepts n (.rxAccept i frame r.result :: (deliveries i r.transfer 0 reactions ++
        .release (r.transfer.payload.map .rxPayload) :: rest))

variable {accepts : Fin R → CanardFrame → RxAcceptResult C.Instance → Prop} {n : ℕ}

theorem Ledger.append {evs evs' : List (Event R)} (h : Ledger accepts n evs)
    (h' : Ledger accepts n evs') : Ledger accepts n (evs ++ evs') := by
  induction h with
  | nil => exact h'
  | idle hidle _ ih => exact .idle hidle ih
  | popped hpops _ ih => exact .popped hpops ih
  | completed haccepted hcompletes hall hreacted _ ih =>
    simp only [List.cons_append, List.append_assoc]
    exact .completed haccepted hcompletes hall hreacted ih

/-- In a process that still runs, the way from `s` to `s'` is recorded by events in `T` and keeps
the balance. -/
def Books (L : TxLaws C) (H : HeapLaws C) (T : List (Event R) → Prop) (s s' : OpenCyphal C τ R) :
    Prop :=
  s'.crashed = none → s.crashed = none ∧ ∃ evs, s'.events = s.events ++ evs ∧ T evs ∧
    ∀ held, Balanced L H held s → Balanced L H held s'

theorem Books.refl {T : List (Event R) → Prop} (hT : T []) (s : OpenCyphal C τ R) :
    Books L H T s s :=
  fun hc => ⟨hc, [], by simp, hT, fun _ h => h⟩

theorem Books.trans {T : List (Event R) → Prop} (hT : ∀ evs evs', T evs → T evs' → T (evs ++ evs'))
    {s s' s'' : OpenCyphal C τ R} (h : Books L H T s s') (h' : Books L H T s' s'') :
    Books L H T s s'' := by
  intro hc
  obtain ⟨hc', evs', he', ht', hb'⟩ := h' hc
  obtain ⟨hc, evs, he, ht, hb⟩ := h hc'
  exact ⟨hc, evs ++ evs', by rw [he', he, List.append_assoc], hT _ _ ht ht',
    fun held hs => hb' held (hb held hs)⟩

theorem books_crash {T : List (Event R) → Prop} (s s' : OpenCyphal C τ R) (fault : Fault) :
    Books L H T s (s'.crash fault) := by
  intro hc
  cases hc

/-- An event that touches neither the queues nor the heap. -/
theorem books_record {T : List (Event R) → Prop} (s : OpenCyphal C τ R) {event : Event R}
    (hT : T [event]) : Books L H T s (s.record event) :=
  fun hc => ⟨hc, [event], rfl, hT, fun _ h => h⟩

/-- Records that can be continued, and in which something may be published. -/
structure Publishing (T : List (Event R) → Prop) : Prop where
  nil : T []
  append : ∀ evs evs', T evs → T evs' → T (evs ++ evs')
  push : ∀ i deadline metadata payload r frames, T [.push i deadline metadata payload r frames]

theorem publishing_ledger : Publishing (Ledger accepts n) where
  nil := .nil
  append _ _ := .append
  push _ _ _ _ _ _ := .idle trivial .nil

theorem publishing_reaction :
    Publishing fun evs : List (Event R) => ∀ event ∈ evs, event.FromReceiver where
  nil := by simp
  append evs evs' h h' event he := (List.mem_append.mp he).elim (h event) (h' event)
  push i deadline metadata payload r frames event he := by
    rw [List.mem_singleton.mp he]
    trivial

/-- A push allocates the blocks of the frames it enqueues. -/
theorem books_publishOn {T : List (Event R) → Prop} (hT : Publishing T) (s : OpenCyphal C τ R)
    (deadline : CanardMicrosecond) (metadata : CanardTransferMetadata) (payload : List UInt8)
    (i : Fin R) : Books L H T s (s.publishOn deadline metadata payload i).1 := by
  cases hc : s.crashed with
  | some fault =>
    simp only [publishOn, hc]
    exact .refl hT.nil s
  | none =>
    cases hq : s.txQueues i with
    | none =>
      simp only [publishOn, hc, hq]
      exact books_crash s s _
    | some que =>
      have hqueues : (s.publishOn deadline metadata payload i).1.txQueues =
          Function.update s.txQueues i
            (some (C.canardTxPush que s.inst deadline metadata payload).que) := by
        simp only [publishOn, hc, hq]
      have hinst : (s.publishOn deadline metadata payload i).1.inst =
          (C.canardTxPush que s.inst deadline metadata payload).ins := by
        simp only [publishOn, hc, hq]
      obtain ⟨r, frames, hevents⟩ : ∃ r frames,
          (s.publishOn deadline metadata payload i).1.events =
            s.events ++ [.push i deadline metadata payload r frames] := by
        simp only [publishOn, hc, hq]
        exact ⟨_, _, rfl⟩
      refine fun _ => ⟨hc, _, hevents, hT.push .., fun held hb => ?_⟩
      have hsessions := H.txPush_sessions que s.inst deadline metadata payload
      rw [← hinst] at hsessions
      by_cases hr : (C.canardTxPush que s.inst deadline metadata payload).result < 0
      · have hblocks := H.txPush_failed _ _ _ _ _ hr
        have hqueued := queuedBlocks_update (L := L) hq hqueues 0 0
          (by rw [L.txPush_failed _ _ _ _ _ hr])
        rw [zero_add, zero_add] at hqueued
        rw [← hinst] at hblocks
        apply hb.allocate hsessions (by rw [hblocks, Multiset.map_zero, zero_add])
        rw [zero_add, hqueued]
      · have hblocks := H.txPush_blocks _ _ _ _ _ (not_lt.mp hr)
        have hqueued := queuedBlocks_update (L := L) hq hqueues
          (frameBlocks (C.txFrames que s.inst deadline metadata payload)) 0 (by
            rw [frameBlocks_perm (L.txPush_perm _ _ _ _ _ (not_lt.mp hr)), frameBlocks_append,
              zero_add, add_comm])
        rw [zero_add] at hqueued
        rw [← hinst] at hblocks
        apply hb.allocate hsessions hblocks
        rw [add_left_comm, hqueued]

theorem books_publish {T : List (Event R) → Prop} (hT : Publishing T) (s : OpenCyphal C τ R)
    (deadline : CanardMicrosecond) (metadata : CanardTransferMetadata) (payload : List UInt8) :
    Books L H T s (s.publish deadline metadata payload).1 := by
  unfold publish
  generalize (some 0 : Option ℤ) = r
  induction List.finRange R generalizing s r with
  | nil => exact .refl hT.nil s
  | cons i l ih =>
    rw [List.foldl_cons]
    apply (books_publishOn hT s deadline metadata payload i).trans hT.append
    exact ih _ _

theorem books_publishVia {T : List (Event R) → Prop} (hT : Publishing T) (s : OpenCyphal C τ R)
    (ifidx : Option (Fin R)) (deadline : CanardMicrosecond) (metadata : CanardTransferMetadata)
    (payload : List UInt8) : Books L H T s (s.publishVia ifidx deadline metadata payload).1 := by
  cases ifidx with
  | some i => exact books_publishOn hT s deadline metadata payload i
  | none => exact books_publish hT s deadline metadata payload

/-- A receiver reacts by publishing and logging. -/
theorem books_run (reaction : Reaction R) (s : OpenCyphal C τ R) :
    Books L H (fun evs => ∀ event ∈ evs, event.FromReceiver) s (reaction.run s) := by
  have hT := publishing_reaction (R := R)
  induction reaction generalizing s with
  | done => exact .refl hT.nil s
  | crash fault => exact books_crash s s fault
  | log entry k ih =>
    apply (books_record s _).trans hT.append (ih (s.record (.log entry)))
    simp [Event.FromReceiver]
  | publish ifidx deadline metadata payload k ih =>
    have h := books_publishVia (L := L) (H := H) hT s ifidx deadline metadata payload
    simp only [Reaction.run]
    cases hp : s.publishVia ifidx deadline metadata payload with
    | mk s' r =>
      rw [hp] at h
      cases r with
      | none => exact h
      | some r => exact h.trans hT.append (ih r s')

/-- All receivers react to a transfer, one after the other. -/
theorem books_deliver (i : Fin R) (transfer : CanardRxTransfer) (k : ℕ)
    (receivers : List (Receiver R)) (s : OpenCyphal C τ R)
    (hc : (deliver i transfer k receivers s).crashed = none) :
    s.crashed = none ∧ ∃ reactions, reactions.length = receivers.length ∧
      (∀ reaction ∈ reactions, ∀ event ∈ reaction, event.FromReceiver) ∧
      (deliver i transfer k receivers s).events =
        s.events ++ deliveries i transfer k reactions ∧
      ∀ held, Balanced L H held s → Balanced L H held (deliver i transfer k receivers s) := by
  induction receivers generalizing k s with
  | nil => exact ⟨hc, [], rfl, by simp, by simp [deliver, deliveries], fun _ h => h⟩
  | cons receiver receivers ih =>
    cases hcrash : s.crashed with
    | some fault =>
      simp only [deliver, hcrash] at hc
      cases hc
    | none =>
      simp only [deliver, hcrash] at hc ⊢
      obtain ⟨hc', reactions, hlen, hreacted, hevents, hbalance⟩ := ih _ _ hc
      obtain ⟨-, evs, hevs, hfrom, hkeep⟩ := books_run (L := L) (H := H) (receiver i transfer)
        (s.record (.process k i transfer)) hc'
      refine ⟨trivial, evs :: reactions, by rw [List.length_cons, hlen, List.length_cons],
        List.forall_mem_cons.mpr ⟨hfrom, hreacted⟩, ?_, fun held h => hbalance held (hkeep held h)⟩
      rw [hevents, hevs]
      simp only [record, deliveries, List.append_assoc, List.cons_append, List.nil_append]

/-- The item first in the queue leaves it, and its block is released. -/
theorem books_pop {s : OpenCyphal C τ R} {i : Fin R}
    {que : C.TxQueue} (hq : s.txQueues i = some que) {tqi : CanardTxQueueItem}
    (hpeek : C.canardTxPeek que = some tqi) {event : Event R} (hpops : event.Pops tqi) :
    Books L H (Ledger accepts n) s ((s.record event).popAndFree i que tqi) := by
  obtain ⟨rest, hitems⟩ := List.head?_eq_some_iff.mp ((L.txPeek_eq que).symm.trans hpeek)
  have hpop := L.txPop_item que tqi hpeek
  have htail : L.items (C.canardTxPop que tqi).2 = rest := by
    rw [L.txPop_items que tqi hpeek, hitems, List.tail_cons]
  have hqueued := queuedBlocks_update (L := L) (s := s) hq
    (show ((s.record event).popAndFree i que tqi).txQueues = _ from rfl) 0 {.txItem tqi} (by
      rw [hitems, htail, zero_add]
      exact frameBlocks_append [tqi] rest)
  have hinst : ((s.record event).popAndFree i que tqi).inst =
      C.memoryFree s.inst (some (.txItem tqi)) := by
    simp only [popAndFree, OpenCyphal.release, hpop, record, Option.map_some]
  have hevents : ((s.record event).popAndFree i que tqi).events =
      s.events ++ [event, .release (some (.txItem tqi))] := by
    simp only [popAndFree, OpenCyphal.release, hpop, record, Option.map_some, List.append_assoc,
      List.singleton_append]
  refine fun hc => ⟨hc, _, hevents, .popped hpops .nil, fun held h => h.release hinst ?_⟩
  rw [zero_add] at hqueued
  rw [hqueued, Multiset.singleton_add, Multiset.add_cons]

theorem books_txLoop (send : ℕ → ℤ) (time : CanardMicrosecond) (i : Fin R) (fuel m : ℕ)
    (que : C.TxQueue) (s : OpenCyphal C τ R) (hq : s.txQueues i = some que) :
    Books L H (Ledger accepts n) s (txLoop send time i fuel m que s).1 := by
  induction fuel generalizing m que s with
  | zero => exact books_crash s s _
  | succ fuel ih =>
    have hnext (event : Event R) {tqi : CanardTxQueueItem}
        (hpeek : C.canardTxPeek que = some tqi) (hpops : event.Pops tqi) (m : ℕ) :
        Books L H (Ledger accepts n) s
          (txLoop send time i fuel m (C.canardTxPop que tqi).2
            ((s.record event).popAndFree i que tqi)).1 :=
      (books_pop hq hpeek hpops).trans (fun _ _ => .append)
        (ih m _ _ (Function.update_self ..))
    unfold txLoop
    cases hpeek : C.canardTxPeek que with
    | none => exact .refl .nil s
    | some tqi =>
      by_cases hlive : tqi.txDeadlineUsec = 0 ∨ tqi.txDeadlineUsec > time
      · simp only [if_pos hlive]
        cases s.transceiver i with
        | none => exact books_crash s s _
        | some t =>
          simp only
          split_ifs with hzero hneg
          · exact books_record s (.idle (show send m ≤ 0 by omega) .nil)
          · exact books_record s (.idle (show send m ≤ 0 by omega) .nil)
          · exact hnext (.send i time tqi (send m)) hpeek ⟨rfl, by omega⟩ (m + 1)
      · simp only [if_neg hlive]
        exact hnext (.drop i time tqi) hpeek rfl m

theorem books_transmit (send : ℕ → ℤ) (time : CanardMicrosecond) (i : Fin R)
    (s : OpenCyphal C τ R) : Books L H (Ledger accepts n) s (transmit send time i s).1 := by
  unfold transmit
  cases hq : s.txQueues i with
  | none => exact books_crash s s _
  | some que => exact books_txLoop send time i _ 0 que s hq

/-- A payload passes to the caller with the transfer it completes. -/
theorem balanced_fed {held : Multiset MemoryBlock} {s : OpenCyphal C τ R}
    (h : Balanced L H held s) (i : Fin R) (answer : ℤ × CanardFrame) (time : CanardMicrosecond) :
    Balanced L H
      ((if 0 < (C.canardRxAccept s.inst time answer.2 i).result then
        payloadBlock (C.canardRxAccept s.inst time answer.2 i).transfer.payload else 0) + held)
      (fed i answer (C.canardRxAccept s.inst time answer.2 i) s) := by
  have hblocks := H.rxAccept_blocks s.inst time answer.2 i
  have hqueued : L.queuedBlocks (fed i answer (C.canardRxAccept s.inst time answer.2 i) s) =
      L.queuedBlocks s := queuedBlocks_congr rfl
  unfold Balanced at h ⊢
  rw [hqueued]
  apply add_right_cancel (b := (H.sessions s.inst).map .inr)
  show H.blocks (C.canardRxAccept s.inst time answer.2 i).ins + _ = _
  rw [hblocks, h]
  split_ifs
  · simp only [fed, Multiset.map_add]
    abel
  · simp only [fed, Multiset.map_add, Multiset.map_zero]
    abel

/-- Releasing the payload of a transfer, or the null pointer. -/
theorem Balanced.release_payload {held : Multiset MemoryBlock} {s : OpenCyphal C τ R}
    (payload : Option (List UInt8)) (h : Balanced L H (payloadBlock payload + held) s) :
    Balanced L H held (s.release (payload.map .rxPayload)) := by
  have hqueued (block : Option MemoryBlock) :
      L.queuedBlocks (s.release block) = L.queuedBlocks s := queuedBlocks_congr rfl
  cases payload with
  | none =>
    unfold Balanced at h ⊢
    rw [hqueued]
    simp only [OpenCyphal.release, Option.map_none, H.free_null, H.free_sessions]
    rw [h]
    simp [payloadBlock]
  | some payload =>
    apply h.release rfl
    rw [hqueued]
    simp only [payloadBlock, Option.map_some, Option.toList_some, Multiset.coe_singleton,
      Multiset.singleton_add, Multiset.cons_add]

/-- A frame that completes no transfer is fed to libcanard and to nobody else. -/
theorem books_incomplete {s : OpenCyphal C τ R} {i : Fin R} {answer : ℤ × CanardFrame}
    {time : CanardMicrosecond} {r : RxAcceptResult C.Instance}
    (hr : r = C.canardRxAccept s.inst time answer.2 i) (hpos : ¬ r.result > 0) :
    Books L H (Ledger accepts n) s (fed i answer r s) := by
  refine fun hc => ⟨hc, [.receive i answer.1, .rxAccept i answer.2 r.result], rfl,
    .idle trivial (.idle (not_lt.mp hpos) .nil), fun held h => ?_⟩
  have hheld := balanced_fed h i answer time
  rwa [← hr, if_neg hpos, zero_add] at hheld

/-- A frame that completes a transfer: its payload is held while the receivers run, and released
when the last one has returned. -/
theorem books_completed {receivers : List (Receiver R)} {s : OpenCyphal C τ R} {i : Fin R}
    {answer : ℤ × CanardFrame} {time : CanardMicrosecond} {r : RxAcceptResult C.Instance}
    (hr : r = C.canardRxAccept s.inst time answer.2 i) (hpos : r.result > 0)
    (haccepts : accepts i answer.2 r)
    (hd : (deliver i r.transfer 0 receivers (fed i answer r s)).crashed = none) :
    Books L H (Ledger accepts receivers.length) s
      ((deliver i r.transfer 0 receivers (fed i answer r s)).release
        (r.transfer.payload.map .rxPayload)) := by
  obtain ⟨hc, reactions, hlen, hreacted, hevents, hbalance⟩ :=
    books_deliver (L := L) (H := H) i r.transfer 0 receivers (fed i answer r s) hd
  have hidle : (Event.receive i answer.1 : Event R).Idle := trivial
  refine fun _ => ⟨hc, _, ?_, .idle hidle (.completed haccepts hpos hlen hreacted .nil),
    fun held h => (hbalance _ ?_).release_payload⟩
  · show (deliver i r.transfer 0 receivers (fed i answer r s)).events ++ _ = _
    rw [hevents]
    simp only [fed, List.append_assoc, List.cons_append, List.nil_append]
  · have hheld := balanced_fed h i answer time
    rwa [← hr, if_pos hpos] at hheld

theorem books_receive (receivers : List (Receiver R)) (answer : ℤ × CanardFrame)
    (time : CanardMicrosecond) (i : Fin R) (s : OpenCyphal C τ R)
    (haccepts : accepts i answer.2 (C.canardRxAccept s.inst time answer.2 i)) :
    Books L H (Ledger accepts receivers.length) s
      (receive receivers answer time i s).state := by
  have hfed (r : RxAcceptResult C.Instance) : { s.record (.receive i answer.1) with
      inst := r.ins
      events := (s.record (.receive i answer.1)).events ++ [.rxAccept i answer.2 r.result] } =
      fed i answer r s := by
    simp [fed, record]
  have hinst : (s.record (.receive i answer.1)).inst = s.inst := rfl
  have hheard : Books L H (Ledger accepts receivers.length) s (s.record (.receive i answer.1)) :=
    books_record s (.idle trivial .nil)
  cases ht : s.transceiver i with
  | none =>
    simp only [receive, ht]
    exact books_crash s s _
  | some t =>
    simp only [receive, ht, hinst, hfed]
    by_cases hzero : answer.1 = 0
    · simp only [if_pos hzero]
      exact hheard
    by_cases hneg : answer.1 < 0
    · simp only [if_neg hzero, if_pos hneg]
      exact hheard
    simp only [if_neg hzero, if_neg hneg]
    set r := C.canardRxAccept s.inst time answer.2 i with hr
    by_cases hpos : r.result > 0
    · simp only [if_pos hpos]
      cases hd : (deliver i r.transfer 0 receivers (fed i answer r s)).crashed with
      | some fault =>
        simp only [Option.isSome_some, if_true, Flow.state_ret]
        intro hc
        rw [hd] at hc
        cases hc
      | none =>
        simp only [Option.isSome_none, Bool.false_eq_true, if_false, Flow.state_next]
        exact books_completed hr hpos haccepts hd
    · simp only [if_neg hpos]
      split_ifs
      · exact books_incomplete hr hpos
      · exact books_crash s _ _

/-- In a call of `HandleTxRxQueues` from `s`, libcanard answers the frame read from interface `i`
with `r`: the loop reaches the interface, transmits, and feeds the frame. -/
def Accepts (receivers : List (Receiver R)) (answers : Answers R) (time : CanardMicrosecond)
    (s : OpenCyphal C τ R) (i : Fin R) (frame : CanardFrame)
    (r : RxAcceptResult C.Instance) : Prop :=
  ∃ t, Reaches (serveInterface receivers answers time) (List.finRange R) s i t ∧
    frame = (answers.receive i).2 ∧
    r = C.canardRxAccept (transmit (answers.send i) time i t).1.inst time frame i

theorem books_serveInterface (receivers : List (Receiver R)) (answers : Answers R)
    (time : CanardMicrosecond) {i : Fin R} {s t : OpenCyphal C τ R}
    (ht : Reaches (serveInterface receivers answers time) (List.finRange R) s i t) :
    Books L H (Ledger (Accepts receivers answers time s) receivers.length) t
      (serveInterface receivers answers time i t).state := by
  have h : Books L H (Ledger (Accepts receivers answers time s) receivers.length) t
      (transmit (answers.send i) time i t).1 := books_transmit (answers.send i) time i t
  have haccepts : Accepts receivers answers time s i (answers.receive i).2 _ := ⟨t, ht, rfl, rfl⟩
  have hread := h.trans (fun _ _ => .append)
    (books_receive receivers (answers.receive i) time i _ haccepts)
  cases htx : transmit (answers.send i) time i t with
  | mk t' exit =>
    rw [htx] at h hread
    simp only [serveInterface, htx]
    cases exit with
    | none => exact h
    | some exit =>
      cases exit with
      | failed r => exact h
      | full => exact hread
      | drained => exact hread

theorem books_handleTxRxQueues (receivers : List (Receiver R)) (answers : Answers R)
    (time : CanardMicrosecond) (s : OpenCyphal C τ R) :
    Books L H (Ledger (Accepts receivers answers time s) receivers.length) s
      (handleTxRxQueues receivers answers time s).1 := by
  cases hc : s.crashed with
  | some fault =>
    simp only [handleTxRxQueues, hc]
    exact .refl .nil s
  | none =>
    rw [handleTxRxQueues_of_running receivers answers time hc]
    apply forLoop_rel_of_reaches
      (P := Books L H (Ledger (Accepts receivers answers time s) receivers.length))
    · exact .refl .nil
    · exact .trans fun _ _ => .append
    · exact fun i t => books_serveInterface receivers answers time

/-- The record of a call in the state `s`: of what it published, or of the queues it served. -/
def Call.Recorded (s : OpenCyphal C τ R) (evs : List (Event R)) : Call R → Prop
  | .publish _ _ _ _ => Ledger (C := C) (fun _ _ _ => False) 0 evs
  | .handle receivers answers time => Ledger (Accepts receivers answers time s) receivers.length evs

theorem books_call (call : Call R) (s : OpenCyphal C τ R) :
    Books L H (fun evs => call.Recorded s evs) s (call.run s) := by
  cases call with
  | publish ifidx deadline metadata payload =>
    exact books_publishVia publishing_ledger s ifidx deadline metadata payload
  | handle receivers answers time => exact books_handleTxRxQueues receivers answers time s

theorem balanced_runCalls (calls : List (Call R)) {s : OpenCyphal C τ R}
    {held : Multiset MemoryBlock} (h : Balanced L H held s)
    (hc : (runCalls s calls).crashed = none) : Balanced L H held (runCalls s calls) := by
  induction calls using List.reverseRecOn with
  | nil => exact h
  | append_singleton calls call ih =>
    rw [runCalls_append] at hc ⊢
    obtain ⟨hc', -, -, -, hkeep⟩ := books_call (L := L) (H := H) call (runCalls s calls) hc
    exact hkeep held (ih hc')

/-- The calls that configure a node before it is used. -/
def NodeCall.Configures : NodeCall τ R → Prop
  | .addTransceiver _ => True
  | .subscribe _ _ _ _ => True
  | _ => False

/-- A node that has `k` transceivers and has enqueued nothing. -/
structure SetUp (L : TxLaws C) (H : HeapLaws C) (k : ℕ) (s : OpenCyphal C τ R) : Prop where
  configured : Configured k s
  queued : ∀ i, L.queued s i = []
  balanced : Balanced L H 0 s

theorem balanced_idle_iff {s : OpenCyphal C τ R} (h : ∀ i, L.queued s i = []) :
    Balanced L H 0 s ↔ H.blocks s.inst = (H.sessions s.inst).map .inr := by
  have hzero : L.queuedBlocks s = 0 := Finset.sum_eq_zero fun i _ => by rw [h i]; rfl
  unfold Balanced
  rw [hzero, add_zero, Multiset.map_zero, zero_add]

theorem setUp_construct (L : TxLaws C) (H : HeapLaws C) (nodeId : CanardNodeID)
    (transceiver : τ) : SetUp L H 1 (construct nodeId transceiver : OpenCyphal C τ R) := by
  have hqueued (i : Fin R) :
      L.queued (construct nodeId transceiver : OpenCyphal C τ R) i = [] := by
    by_cases hi : i.val = 0
    · rw [queued_of_some (if_pos hi), L.txInit_items]
    · simp only [TxLaws.queued, construct, if_neg hi]
  obtain ⟨hblocks, hsessions⟩ := H.init_blocks nodeId
  refine ⟨configured_construct nodeId transceiver, hqueued, (balanced_idle_iff hqueued).mpr ?_⟩
  simp only [construct, hblocks, hsessions, Multiset.map_zero]

theorem setUp_call {k : ℕ} (hk : 1 ≤ k) {s : OpenCyphal C τ R} (h : SetUp L H k s)
    {call : NodeCall τ R} (hcall : call.Configures) :
    SetUp L H (k + call.given) (call.run s) := by
  have hc := h.configured.running
  cases call with
  | addTransceiver transceiver =>
    have hqueued (i : Fin R) : L.queued (s.addTransceiver (some transceiver)) i = [] := by
      by_cases hi : s.transceiver i = none
      · rw [queued_of_some ((addTransceiver_queues hc transceiver i).trans (if_pos hi)),
          L.txInit_items]
      · rw [queued_congr ((addTransceiver_queues hc transceiver i).trans (if_neg hi)), h.queued]
    refine ⟨configured_addTransceiver hk h.configured transceiver, hqueued,
      (balanced_idle_iff hqueued).mpr ?_⟩
    rw [(addTransceiver_frame s transceiver).1]
    exact (balanced_idle_iff h.queued).mp h.balanced
  | subscribe kind portId extent timeout =>
    have hrun : NodeCall.run s (.subscribe kind portId extent timeout) =
        { s with inst := (C.canardRxSubscribe s.inst kind portId extent timeout).2 } := by
      simp only [NodeCall.run, subscribe, hc]
    have hblocks := H.rxSubscribe_blocks s.inst kind portId extent timeout
    rw [(balanced_idle_iff h.queued).mp h.balanced, add_comm, add_right_inj] at hblocks
    rw [hrun]
    refine ⟨h.configured.of_shape ⟨rfl, fun _ => rfl⟩ hc, h.queued, ?_⟩
    rw [balanced_idle_iff]
    · exact hblocks
    · exact h.queued
  | publish ifidx deadline metadata payload => exact hcall.elim
  | handle receivers answers time => exact hcall.elim

theorem setUp_run {k : ℕ} (hk : 1 ≤ k) {s : OpenCyphal C τ R} (h : SetUp L H k s)
    {calls : List (NodeCall τ R)} (hcalls : ∀ call ∈ calls, call.Configures) :
    SetUp L H (k + givenIn calls) (runNode s calls) := by
  induction calls generalizing k s with
  | nil => exact h
  | cons call calls ih =>
    obtain ⟨hcall, hcalls⟩ := List.forall_mem_cons.mp hcalls
    have hrest := ih (Nat.le_add_right_of_le hk) (setUp_call hk h hcall) hcalls
    rwa [Nat.add_assoc] at hrest

theorem Configured.ready {k : ℕ} {s : OpenCyphal C τ R} (h : Configured k s) (hk : 1 ≤ k)
    (hall : R ≤ k) : Ready s where
  running := h.running
  slots i := (h.slots i).mpr (by omega)
  queues i := (h.queues i).mpr (by omega)

/-- As many blocks are live as items are queued and blocks are owned by the RX sessions. -/
theorem Balanced.card {s : OpenCyphal C τ R} (h : Balanced L H 0 s) :
    (H.blocks s.inst).card = ∑ i, (L.queued s i).length + (H.sessions s.inst).card := by
  unfold Balanced at h
  rw [h, zero_add, Multiset.card_add, Multiset.card_map, Multiset.card_map]
  simp only [TxLaws.queuedBlocks, Multiset.card_sum, frameBlocks, Multiset.card_map,
    Multiset.coe_card]

/-- In every run of a node that has all its transceivers each call keeps the books: completed
transfers go to all receivers in order, and the blocks of payloads and popped items are released
once. So the live blocks are the queued items and those of the RX sessions. Receivers that return
let every call return. -/
theorem heap_balanced (L : TxLaws C) (H : HeapLaws C) (nodeId : CanardNodeID) (transceiver : τ)
    (setup : List (NodeCall τ R)) (hsetup : ∀ call ∈ setup, call.Configures)
    (hall : R ≤ 1 + givenIn setup) (calls : List (Call R)) :
    let start : OpenCyphal C τ R := runNode (construct nodeId transceiver) setup
    (∀ pre call post, calls = pre ++ call :: post →
      (runCalls start (pre ++ [call])).crashed = none →
        ∃ evs, (runCalls start (pre ++ [call])).events = (runCalls start pre).events ++ evs ∧
          call.Recorded (runCalls start pre) evs) ∧
    (∀ pre post, calls = pre ++ post → (runCalls start pre).crashed = none →
      (H.blocks (runCalls start pre).inst).card =
        ∑ i, (L.queued (runCalls start pre) i).length +
          (H.sessions (runCalls start pre).inst).card) ∧
    (RxLaws C → (∀ receivers answers time, .handle receivers answers time ∈ calls →
        Returning.Always receivers) →
      ∀ pre post, calls = pre ++ post → (runCalls start pre).crashed = none) := by
  intro start
  have hstart : SetUp L H (1 + givenIn setup) start :=
    setUp_run le_rfl (setUp_construct L H nodeId transceiver) hsetup
  refine ⟨?_, ?_, ?_⟩
  · intro pre call post _ hc
    rw [runCalls_append] at hc ⊢
    obtain ⟨-, evs, hevents, hrecorded, -⟩ :=
      books_call (L := L) (H := H) call (runCalls start pre) hc
    exact ⟨evs, hevents, hrecorded⟩
  · intro pre post _ hc
    exact (balanced_runCalls pre hstart.balanced hc).card
  · rintro hrx hret pre post rfl
    have hready : Ready start := hstart.configured.ready (Nat.le_add_right 1 _) hall
    apply (ready_runCalls L hrx _ hready).running
    intro receivers answers time hm
    exact hret receivers answers time (List.mem_append_left _ hm)

/-- A receiver that answers a transfer on the interface it arrived on. -/
def answering : Receiver 2 := fun i transfer =>
  .publish (some i) 0 { transfer.metadata with transferKind := .response } [7] fun _ => .done

/-- A request of node 2 arrives on the first interface while a message waits; the second one has
nothing to read. -/
def requested : Answers 2 where
  send _ _ := 1
  receive i := (if i.val = 0 then 1 else 0, ⟨0x136B8082, [0xE0], by decide⟩)

def nodeSetup : List (NodeCall Unit 2) :=
  [.addTransceiver (), .subscribe .request 430 0 canardDefaultTransferIdTimeoutUsec]

def served : List (Call 2) :=
  [.publish none 0 ⟨.nominal, .message, 7509, canardNodeIdUnset, 0⟩ [0],
    .handle [answering] requested 1]

theorem heap_balanced_served :
    let s : OpenCyphal SingleFrame.heapCanard Unit 2 :=
      runCalls (runNode (construct 1 ()) nodeSetup) served
    (SingleFrame.heapLaws.blocks s.inst).card =
      ∑ i, (SingleFrame.heapTxLaws.queued s i).length +
        (SingleFrame.heapLaws.sessions s.inst).card :=
  (heap_balanced SingleFrame.heapTxLaws SingleFrame.heapLaws 1 () nodeSetup
    (by simp [nodeSetup, NodeCall.Configures]) (by decide) served).2.1 served []
    (List.append_nil served).symm rfl

end CyphalOnboard
