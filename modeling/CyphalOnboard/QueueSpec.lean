import CyphalOnboard.OpenCyphal
import Mathlib.Data.List.Perm.Lattice
import Mathlib.Tactic.Abel

namespace CyphalOnboard

open EarlyExit Drain OpenCyphal

variable {C : Canard} {τ : Type} {R : ℕ}

/-- The interface whose transceiver or queue head an event is about. -/
def Event.wire : Event R → Option (Fin R)
  | .send i _ _ _ => some i
  | .drop i _ _ => some i
  | .receive i _ => some i
  | .rxAccept i _ _ => some i
  | _ => none

def Event.enqueued (i : Fin R) : Event R → List CanardTxQueueItem
  | .push j _ _ _ _ frames => if j = i then frames else []
  | _ => []

def Event.accepted (i : Fin R) : Event R → List CanardTxQueueItem
  | .send j _ item r => if j = i ∧ 0 < r then [item] else []
  | _ => []

def Event.dropped (i : Fin R) : Event R → List CanardTxQueueItem
  | .drop j _ item => if j = i then [item] else []
  | _ => []

/-- The interface, deadline and metadata of a push. -/
def Event.pushed : Event R → Option (Fin R × CanardMicrosecond × CanardTransferMetadata)
  | .push i deadline metadata _ _ _ => some (i, deadline, metadata)
  | _ => none

/-- A transfer passed to a receiver. -/
def Event.delivered : Event R → Option (Fin R × CanardRxTransfer)
  | .process _ i transfer => some (i, transfer)
  | _ => none

/-- Frames are offered before their deadline and dropped from it on. -/
def Event.Timely (time : CanardMicrosecond) : Event R → Prop
  | .send _ t item _ => t = time ∧ Live time item
  | .drop _ t item => t = time ∧ ¬ Live time item
  | _ => True

theorem accepted_of_wire {i : Fin R} {e : Event R} (h : e.wire ≠ some i) : e.accepted i = [] := by
  cases e with
  | send j t item r =>
    have : j ≠ i := fun hj => h (by simp [Event.wire, hj])
    simp [Event.accepted, this]
  | _ => rfl

theorem dropped_of_wire {i : Fin R} {e : Event R} (h : e.wire ≠ some i) : e.dropped i = [] := by
  cases e with
  | drop j t item =>
    have : j ≠ i := fun hj => h (by simp [Event.wire, hj])
    simp [Event.dropped, this]
  | _ => rfl

theorem timely_of_wire {time : CanardMicrosecond} {e : Event R} (h : e.wire = none) :
    e.Timely time := by
  cases e with
  | send _ _ _ _ => cases h
  | drop _ _ _ => cases h
  | _ => trivial

/-- The frames waiting on interface `i`, in the order in which they are offered. -/
def TxLaws.queued (L : TxLaws C) (s : OpenCyphal C τ R) (i : Fin R) : List CanardTxQueueItem :=
  match s.txQueues i with
  | none => []
  | some que => L.items que

variable {L : TxLaws C}

theorem queued_of_some {s : OpenCyphal C τ R} {i : Fin R} {que : C.TxQueue}
    (h : s.txQueues i = some que) : L.queued s i = L.items que := by
  simp only [TxLaws.queued, h]

theorem queued_congr {s s' : OpenCyphal C τ R} {i : Fin R} (h : s'.txQueues i = s.txQueues i) :
    L.queued s' i = L.queued s i := by
  simp only [TxLaws.queued, h]

/-- The events `evs` account for the way from `s` to `s'`: on each interface the frames at the
start and those enqueued are those at the end, accepted or dropped. -/
structure Accounts (L : TxLaws C) (time : CanardMicrosecond) (s : OpenCyphal C τ R)
    (evs : List (Event R)) (s' : OpenCyphal C τ R) : Prop where
  events : s'.events = s.events ++ evs
  transceiver : s'.transceiver = s.transceiver
  initialised : ∀ i, (s'.txQueues i).isSome = (s.txQueues i).isSome
  balance : ∀ i, (L.queued s i : Multiset CanardTxQueueItem) +
      (evs.flatMap (Event.enqueued i) : List CanardTxQueueItem) =
    L.queued s' i + (evs.flatMap (Event.accepted i) : List CanardTxQueueItem) +
      (evs.flatMap (Event.dropped i) : List CanardTxQueueItem)
  timely : ∀ e ∈ evs, e.Timely time

theorem Accounts.refl (time : CanardMicrosecond) (s : OpenCyphal C τ R) :
    Accounts L time s [] s where
  events := by simp
  transceiver := rfl
  initialised _ := rfl
  balance i := by simp
  timely _ h := by cases h

/-- Two balanced steps in a row balance. -/
theorem balance_trans {α : Type*} {q q' q'' : Multiset α} {e a d e' a' d' : List α}
    (h : q + e = q' + a + d) (h' : q' + e' = q'' + a' + d') :
    q + (e ++ e' : List α) = q'' + (a ++ a' : List α) + (d ++ d' : List α) := by
  simp only [← Multiset.coe_add]
  calc q + ((e : Multiset α) + e') = (q + e) + e' := by abel
    _ = (q' + e') + (a + d) := by rw [h]; abel
    _ = _ := by rw [h']; abel

theorem Accounts.trans {time : CanardMicrosecond} {s s' s'' : OpenCyphal C τ R}
    {evs evs' : List (Event R)} (h : Accounts L time s evs s') (h' : Accounts L time s' evs' s'') :
    Accounts L time s (evs ++ evs') s'' where
  events := by rw [h'.events, h.events, List.append_assoc]
  transceiver := h'.transceiver.trans h.transceiver
  initialised i := (h'.initialised i).trans (h.initialised i)
  balance i := by
    simp only [List.flatMap_append]
    exact balance_trans (h.balance i) (h'.balance i)
  timely e he := by
    rcases List.mem_append.mp he with he | he
    · exact h.timely e he
    · exact h'.timely e he

/-- What publishing can do: queues grow, and no transceiver is touched. -/
structure Grows (L : TxLaws C) (s : OpenCyphal C τ R) (evs : List (Event R))
    (s' : OpenCyphal C τ R) : Prop where
  events : s'.events = s.events ++ evs
  transceiver : s'.transceiver = s.transceiver
  initialised : ∀ i, (s'.txQueues i).isSome = (s.txQueues i).isSome
  offWire : ∀ e ∈ evs, e.wire = none
  queued_perm : ∀ i, (L.queued s' i).Perm (L.queued s i ++ evs.flatMap (Event.enqueued i))
  queued_sublist : ∀ i, (L.queued s i).Sublist (L.queued s' i)

theorem Grows.accepted {s s' : OpenCyphal C τ R} {evs : List (Event R)} (h : Grows L s evs s')
    (i : Fin R) : evs.flatMap (Event.accepted i) = [] := by
  rw [List.flatMap_eq_nil_iff]
  intro e he
  exact accepted_of_wire (by simp [h.offWire e he])

theorem Grows.dropped {s s' : OpenCyphal C τ R} {evs : List (Event R)} (h : Grows L s evs s')
    (i : Fin R) : evs.flatMap (Event.dropped i) = [] := by
  rw [List.flatMap_eq_nil_iff]
  intro e he
  exact dropped_of_wire (by simp [h.offWire e he])

theorem Grows.accounts {s s' : OpenCyphal C τ R} {evs : List (Event R)} (h : Grows L s evs s')
    (time : CanardMicrosecond) : Accounts L time s evs s' where
  events := h.events
  transceiver := h.transceiver
  initialised := h.initialised
  balance i := by
    have hp := Multiset.coe_eq_coe.mpr (h.queued_perm i)
    rw [h.accepted, h.dropped, hp]
    simp
  timely e he := timely_of_wire (h.offWire e he)

theorem Grows.refl (s : OpenCyphal C τ R) : Grows L s [] s where
  events := by simp
  transceiver := rfl
  initialised _ := rfl
  offWire _ h := by cases h
  queued_perm i := by simp
  queued_sublist i := .refl _

theorem Grows.trans {s s' s'' : OpenCyphal C τ R} {evs evs' : List (Event R)}
    (h : Grows L s evs s') (h' : Grows L s' evs' s'') : Grows L s (evs ++ evs') s'' where
  events := by rw [h'.events, h.events, List.append_assoc]
  transceiver := h'.transceiver.trans h.transceiver
  initialised i := (h'.initialised i).trans (h.initialised i)
  offWire e he := by
    rcases List.mem_append.mp he with he | he
    · exact h.offWire e he
    · exact h'.offWire e he
  queued_perm i := by
    rw [List.flatMap_append, ← List.append_assoc]
    exact (h'.queued_perm i).trans ((h.queued_perm i).append_right _)
  queued_sublist i := (h.queued_sublist i).trans (h'.queued_sublist i)

/-- A step that leaves the queues and slots alone and writes at most off-wire events. -/
theorem Grows.of_frame {s s' : OpenCyphal C τ R} {evs : List (Event R)}
    (hq : s'.txQueues = s.txQueues) (ht : s'.transceiver = s.transceiver)
    (he : s'.events = s.events ++ evs) (hw : ∀ e ∈ evs, e.wire = none)
    (hn : ∀ i, ∀ e ∈ evs, e.enqueued i = []) : Grows L s evs s' where
  events := he
  transceiver := ht
  initialised i := by rw [hq]
  offWire := hw
  queued_perm i := by
    rw [queued_congr (congrFun hq i), List.flatMap_eq_nil_iff.mpr (hn i), List.append_nil]
  queued_sublist i := by rw [queued_congr (congrFun hq i)]

theorem grows_crash (s : OpenCyphal C τ R) (fault : Fault) : Grows L s [] (s.crash fault) :=
  .of_frame rfl rfl (by simp [crash]) (by simp) (by simp)

theorem grows_release (s : OpenCyphal C τ R) (block : Option MemoryBlock) :
    Grows L s [.release block] (s.release block) :=
  .of_frame rfl rfl rfl (by simp [Event.wire]) (by simp [Event.enqueued])

theorem grows_log (s : OpenCyphal C τ R) (entry : LogEntry) :
    Grows L s [.log entry] (s.record (.log entry)) :=
  .of_frame rfl rfl rfl (by simp [Event.wire]) (by simp [Event.enqueued])

theorem grows_process (s : OpenCyphal C τ R) (k : ℕ) (i : Fin R) (transfer : CanardRxTransfer) :
    Grows L s [.process k i transfer] (s.record (.process k i transfer)) :=
  .of_frame rfl rfl rfl (by simp [Event.wire]) (by simp [Event.enqueued])

theorem grows_publishOn (L : TxLaws C) (s : OpenCyphal C τ R) (deadline : CanardMicrosecond)
    (metadata : CanardTransferMetadata) (payload : List UInt8) (i : Fin R) :
    ∃ evs, Grows L s evs (s.publishOn deadline metadata payload i).1 := by
  cases hc : s.crashed with
  | some f =>
    have : (s.publishOn deadline metadata payload i).1 = s := by simp only [publishOn, hc]
    rw [this]
    exact ⟨[], .refl s⟩
  | none =>
    cases hq : s.txQueues i with
    | none =>
      have : (s.publishOn deadline metadata payload i).1 = s.crash (.uninitialisedQueue i) := by
        simp only [publishOn, hc, hq]
      rw [this]
      exact ⟨[], grows_crash s _⟩
    | some que =>
      simp only [publishOn, hc, hq]
      have hkeep (j : Fin R) (hji : j ≠ i) (que' : C.TxQueue) :
          Function.update s.txQueues i (some que') j = s.txQueues j :=
        Function.update_of_ne hji _ _
      -- queue `i` takes the frames or, if the push fails, stays as it is
      refine ⟨_, rfl, rfl, ?_, by simp [Event.wire], ?_, ?_⟩
      · intro j
        by_cases hji : j = i
        · subst hji; simp [hq]
        · exact congrArg Option.isSome (hkeep j hji _)
      · intro j
        by_cases hji : j = i
        · subst hji
          rw [queued_of_some hq, queued_of_some (Function.update_self ..)]
          simp only [List.flatMap_cons, List.flatMap_nil, List.append_nil, Event.enqueued, if_true]
          split_ifs with hr
          · rw [L.txPush_failed _ _ _ _ _ hr, List.append_nil]
          · exact L.txPush_perm _ _ _ _ _ (by omega)
        · rw [queued_congr (s := s) (hkeep j hji _)]
          simp [Event.enqueued, Ne.symm hji]
      · intro j
        by_cases hji : j = i
        · subst hji
          rw [queued_of_some hq, queued_of_some (Function.update_self ..)]
          by_cases hr : (C.canardTxPush que s.inst deadline metadata payload).result < 0
          · rw [L.txPush_failed _ _ _ _ _ hr]
          · exact L.txPush_sublist _ _ _ _ _ (by omega)
        · simp only [TxLaws.queued, hkeep j hji, List.Sublist.refl]

/-- Once the process has ended nothing more is published. -/
theorem foldl_publishOn_crashed {s : OpenCyphal C τ R} {fault : Fault}
    (hc : s.crashed = some fault) (deadline : CanardMicrosecond)
    (metadata : CanardTransferMetadata) (payload : List UInt8) (l : List (Fin R)) (r : Option ℤ) :
    (l.foldl (fun acc i => acc.1.publishOn deadline metadata payload i) (s, r)).1 = s := by
  induction l generalizing r with
  | nil => rfl
  | cons i l ih =>
    have : s.publishOn deadline metadata payload i = (s, none) := by simp only [publishOn, hc]
    rw [List.foldl_cons, this]
    exact ih none

theorem grows_publish (L : TxLaws C) (s : OpenCyphal C τ R) (deadline : CanardMicrosecond)
    (metadata : CanardTransferMetadata) (payload : List UInt8) :
    ∃ evs, Grows L s evs (s.publish deadline metadata payload).1 := by
  unfold publish
  -- the result the loop starts from does not matter
  generalize (some 0 : Option ℤ) = r
  induction List.finRange R generalizing s r with
  | nil => exact ⟨[], .refl s⟩
  | cons i l ih =>
    rw [List.foldl_cons]
    obtain ⟨evs, h⟩ := grows_publishOn L s deadline metadata payload i
    obtain ⟨evs', h'⟩ := ih (s.publishOn deadline metadata payload i).1
      (s.publishOn deadline metadata payload i).2
    exact ⟨evs ++ evs', h.trans h'⟩

theorem grows_publishVia (L : TxLaws C) (s : OpenCyphal C τ R) (ifidx : Option (Fin R))
    (deadline : CanardMicrosecond) (metadata : CanardTransferMetadata) (payload : List UInt8) :
    ∃ evs, Grows L s evs (s.publishVia ifidx deadline metadata payload).1 := by
  cases ifidx with
  | some i => exact grows_publishOn L s deadline metadata payload i
  | none => exact grows_publish L s deadline metadata payload

theorem grows_run (L : TxLaws C) (reaction : Reaction R) (s : OpenCyphal C τ R) :
    ∃ evs, Grows L s evs (reaction.run s) := by
  induction reaction generalizing s with
  | done => exact ⟨[], .refl s⟩
  | crash fault => exact ⟨[], grows_crash s fault⟩
  | log entry k ih =>
    obtain ⟨evs, h⟩ := ih (s.record (.log entry))
    exact ⟨_, (grows_log s entry).trans h⟩
  | publish ifidx deadline metadata payload k ih =>
    obtain ⟨evs, h⟩ := grows_publishVia L s ifidx deadline metadata payload
    simp only [Reaction.run]
    cases hp : s.publishVia ifidx deadline metadata payload with
    | mk s' r =>
      rw [hp] at h
      cases r with
      | none => exact ⟨evs, h⟩
      | some r =>
        obtain ⟨evs', h'⟩ := ih r s'
        exact ⟨evs ++ evs', h.trans h'⟩

theorem grows_deliver (L : TxLaws C) (i : Fin R) (transfer : CanardRxTransfer) (k : ℕ)
    (receivers : List (Receiver R)) (s : OpenCyphal C τ R) :
    ∃ evs, Grows L s evs (deliver i transfer k receivers s) := by
  induction receivers generalizing k s with
  | nil => exact ⟨[], .refl s⟩
  | cons receiver receivers ih =>
    cases hc : s.crashed with
    | some f =>
      have : deliver i transfer k (receiver :: receivers) s = s := by simp only [deliver, hc]
      rw [this]
      exact ⟨[], .refl s⟩
    | none =>
      simp only [deliver, hc]
      obtain ⟨evs, h⟩ := grows_run L (receiver i transfer) (s.record (.process k i transfer))
      obtain ⟨evs', h'⟩ := ih (k + 1)
        ((receiver i transfer).run (s.record (.process k i transfer)))
      exact ⟨_, ((grows_process s k i transfer).trans h).trans h'⟩

end CyphalOnboard
