import CyphalOnboard.ProcessSpec
import CyphalOnboard.SingleFrameCanard
import Mathlib.Order.WellFounded

namespace CyphalOnboard

open EarlyExit Drain OpenCyphal

variable {C : Canard} {τ : Type} {R : ℕ} {L : TxLaws C}

/-- A call on a constructed node. -/
inductive NodeCall (τ : Type) (R : ℕ) where
  | addTransceiver (transceiver : τ)
  | subscribe (kind : CanardTransferKind) (portId : CanardPortID) (extent : ℕ)
      (timeout : CanardMicrosecond)
  | publish (ifidx : Option (Fin R)) (deadline : CanardMicrosecond)
      (metadata : CanardTransferMetadata) (payload : List UInt8)
  | handle (receivers : List (Receiver R)) (answers : Answers R) (time : CanardMicrosecond)

namespace NodeCall

def run (s : OpenCyphal C τ R) : NodeCall τ R → OpenCyphal C τ R
  | addTransceiver transceiver => s.addTransceiver (some transceiver)
  | subscribe kind portId extent timeout => (s.subscribe kind portId extent timeout).1
  | publish ifidx deadline metadata payload => (s.publishVia ifidx deadline metadata payload).1
  | handle receivers answers time => (handleTxRxQueues receivers answers time s).1

/-- The number of transceivers a call gives to the node. -/
def given : NodeCall τ R → ℕ
  | addTransceiver _ => 1
  | _ => 0

/-- With `k` transceivers given, the call in the state `s` does not get beyond them: what is
published goes to interface 0 or comes after a second transceiver, and the loop over the
interfaces, if it could run past the filled slots, is stopped by one of them. -/
def WithinReach (L : TxLaws C) (k : ℕ) (s : OpenCyphal C τ R) : NodeCall τ R → Prop
  | addTransceiver _ => True
  | subscribe _ _ _ _ => True
  | publish none _ _ _ => R ≤ 1 ∨ 2 ≤ k
  | publish (some i) _ _ _ => i.val = 0 ∨ 2 ≤ k
  | handle receivers answers time => R ≤ k ∨ ∃ i t, i.val < k ∧
      Reaches (serveInterface receivers answers time) (List.finRange R) s i t ∧
        Stops L answers time i t

end NodeCall

def runNode (s : OpenCyphal C τ R) (calls : List (NodeCall τ R)) : OpenCyphal C τ R :=
  calls.foldl NodeCall.run s

def givenIn (calls : List (NodeCall τ R)) : ℕ := (calls.map NodeCall.given).sum

/-- No queue was used before `canardTxInit` and no transceiver called through a null slot. -/
def Untouched (s : OpenCyphal C τ R) : Prop :=
  ∀ i, s.crashed ≠ some (.uninitialisedQueue i) ∧ s.crashed ≠ some (.nullTransceiver i)

/-- What `k` transceivers make of a node that still runs. -/
structure Configured (k : ℕ) (s : OpenCyphal C τ R) : Prop where
  running : s.crashed = none
  slots : ∀ i, (s.transceiver i).isSome ↔ i.val < k
  queues : ∀ i, (s.txQueues i).isSome ↔ i.val = 0 ∨ 2 ≤ k

theorem Configured.untouched {k : ℕ} {s : OpenCyphal C τ R} (h : Configured k s) : Untouched s := by
  intro i
  rw [h.running]
  exact ⟨nofun, nofun⟩

theorem configured_construct (nodeId : CanardNodeID) (transceiver : τ) :
    Configured 1 (construct nodeId transceiver : OpenCyphal C τ R) where
  running := rfl
  slots i := by
    simp only [construct]
    split_ifs with h
    · simp [h]
    · simp [h]
  queues i := by
    simp only [construct]
    split_ifs with h
    · simp [h]
    · simp [h]

theorem Configured.of_shape {k : ℕ} {s s' : OpenCyphal C τ R} (h : Configured k s)
    (hs : SameShape s s') (hc : s'.crashed = none) : Configured k s' where
  running := hc
  slots i := by rw [hs.transceiver]; exact h.slots i
  queues i := by rw [hs.initialised]; exact h.queues i

/-- Slot `i` takes the pointer, and queue `i` is initialised. -/
def fill (s : OpenCyphal C τ R) (i : Fin R) (transceiver : Option τ) : OpenCyphal C τ R :=
  { s with
    transceiver := Function.update s.transceiver i transceiver
    txQueues := Function.update s.txQueues i (some (C.canardTxInit 100 canardMtuCanFd)) }

theorem fill_transceiver (s : OpenCyphal C τ R) (i : Fin R) (transceiver : Option τ) (j : Fin R) :
    (fill s i transceiver).transceiver j = if j = i then transceiver else s.transceiver j := by
  simp only [fill, Function.update_apply]

/-- One iteration of the loop of `addTransceiver`; the pointer is null once it has been moved. -/
def addStep (acc : OpenCyphal C τ R × Option τ) (i : Fin R) : OpenCyphal C τ R × Option τ :=
  if (acc.1.transceiver i).isNone then (fill acc.1 i acc.2, none) else acc

theorem addTransceiver_eq {s : OpenCyphal C τ R} (hc : s.crashed = none)
    (transceiver : Option τ) :
    s.addTransceiver transceiver = ((List.finRange R).foldl addStep (s, transceiver)).1 := by
  simp only [addTransceiver, hc]
  rfl

theorem addTransceiver_of_crashed {s : OpenCyphal C τ R} {fault : Fault}
    (hc : s.crashed = some fault) (transceiver : Option τ) :
    s.addTransceiver transceiver = s := by
  simp only [addTransceiver, hc]

theorem addStep_filled {acc : OpenCyphal C τ R × Option τ} {i : Fin R}
    (h : (acc.1.transceiver i).isSome) : addStep acc i = acc := by
  obtain ⟨t, ht⟩ := Option.isSome_iff_exists.mp h
  simp [addStep, ht]

theorem addStep_empty {acc : OpenCyphal C τ R × Option τ} {i : Fin R}
    (h : acc.1.transceiver i = none) : addStep acc i = (fill acc.1 i acc.2, none) := by
  simp [addStep, h]

theorem foldl_addStep_filled {l : List (Fin R)} (acc : OpenCyphal C τ R × Option τ)
    (h : ∀ i ∈ l, (acc.1.transceiver i).isSome) : l.foldl addStep acc = acc := by
  induction l with
  | nil => rfl
  | cons i l ih =>
    obtain ⟨hi, hl⟩ := List.forall_mem_cons.mp h
    rw [List.foldl_cons, addStep_filled hi]
    exact ih hl

/-- Slots and queues are all the loop changes. -/
theorem foldl_addStep_frame (l : List (Fin R)) (acc : OpenCyphal C τ R × Option τ) :
    (l.foldl addStep acc).1.inst = acc.1.inst ∧ (l.foldl addStep acc).1.events = acc.1.events ∧
      (l.foldl addStep acc).1.crashed = acc.1.crashed := by
  induction l generalizing acc with
  | nil => exact ⟨rfl, rfl, rfl⟩
  | cons i l ih =>
    rw [List.foldl_cons]
    obtain ⟨hinst, hevents, hcrashed⟩ := ih (addStep acc i)
    rw [hinst, hevents, hcrashed, addStep]
    split_ifs
    · exact ⟨rfl, rfl, rfl⟩
    · exact ⟨rfl, rfl, rfl⟩

theorem addTransceiver_frame (s : OpenCyphal C τ R) (transceiver : τ) :
    (s.addTransceiver (some transceiver)).inst = s.inst ∧
      (s.addTransceiver (some transceiver)).events = s.events ∧
      (s.addTransceiver (some transceiver)).crashed = s.crashed := by
  cases hc : s.crashed with
  | some fault =>
    rw [addTransceiver_of_crashed hc]
    exact ⟨rfl, rfl, hc⟩
  | none =>
    rw [addTransceiver_eq hc, ← hc]
    exact foldl_addStep_frame (List.finRange R) (s, some transceiver)

/-- With the pointer moved, no slot changes any more. -/
theorem foldl_addStep_moved (l : List (Fin R)) (s : OpenCyphal C τ R) (i : Fin R) :
    (l.foldl addStep (s, none)).1.transceiver i = s.transceiver i := by
  induction l generalizing s with
  | nil => rfl
  | cons j l ih =>
    rw [List.foldl_cons]
    cases hj : s.transceiver j with
    | some t =>
      rw [addStep_filled (Option.isSome_of_eq_some hj)]
      exact ih s
    | none =>
      -- a null pointer leaves the slot empty
      rw [addStep_empty hj, ih (fill s j none), fill_transceiver]
      split_ifs with hij
      · rw [hij, hj]
      · rfl

/-- The queues of the slots found empty are initialised, the others are left as they are. -/
theorem foldl_addStep_queues {l : List (Fin R)} (hl : l.Nodup)
    (acc : OpenCyphal C τ R × Option τ) (i : Fin R) :
    (l.foldl addStep acc).1.txQueues i =
      if i ∈ l ∧ acc.1.transceiver i = none then some (C.canardTxInit 100 canardMtuCanFd)
      else acc.1.txQueues i := by
  induction l generalizing acc with
  | nil => simp
  | cons j l ih =>
    obtain ⟨hjl, hl⟩ := List.nodup_cons.mp hl
    rw [List.foldl_cons, ih hl]
    cases hj : acc.1.transceiver j with
    | some t =>
      rw [addStep_filled (Option.isSome_of_eq_some hj)]
      by_cases hij : i = j
      · subst hij
        simp [hjl, hj]
      · simp [hij]
    | none =>
      rw [addStep_empty hj]
      by_cases hij : i = j
      · subst hij
        simp [hjl, hj, fill]
      · simp [hij, fill]

theorem addTransceiver_queues {s : OpenCyphal C τ R} (hc : s.crashed = none) (transceiver : τ)
    (i : Fin R) :
    (s.addTransceiver (some transceiver)).txQueues i =
      if s.transceiver i = none then some (C.canardTxInit 100 canardMtuCanFd)
      else s.txQueues i := by
  rw [addTransceiver_eq hc, foldl_addStep_queues (List.nodup_finRange R)]
  simp only [List.mem_finRange, true_and]

theorem addTransceiver_full {s : OpenCyphal C τ R} (hc : s.crashed = none)
    (hfull : ∀ i, (s.transceiver i).isSome) (transceiver : τ) :
    s.addTransceiver (some transceiver) = s := by
  rw [addTransceiver_eq hc, foldl_addStep_filled (s, some transceiver) fun i _ => hfull i]

/-- The first empty slot takes the pointer; the null pointer it leaves fills no slot behind it. -/
theorem addTransceiver_first_empty {s : OpenCyphal C τ R} (hc : s.crashed = none) {k : Fin R}
    (hbefore : ∀ i < k, (s.transceiver i).isSome) (hk : s.transceiver k = none) (transceiver : τ)
    (i : Fin R) :
    (s.addTransceiver (some transceiver)).transceiver i =
      if i = k then some transceiver else s.transceiver i := by
  obtain ⟨pre, post, hl⟩ := List.append_of_mem (List.mem_finRange k)
  have hpre : ∀ i ∈ pre, (s.transceiver i).isSome := by
    intro i hi
    exact hbefore i ((mem_before_of_finRange hl).mp hi)
  rw [addTransceiver_eq hc, hl, List.foldl_append,
    foldl_addStep_filled (s, some transceiver) hpre, List.foldl_cons, addStep_empty hk,
    foldl_addStep_moved, fill_transceiver]

/-- A transceiver goes to one empty slot, if there is one. -/
theorem addTransceiver_slots {s : OpenCyphal C τ R} (hc : s.crashed = none) (transceiver : τ) :
    (∀ i, (s.addTransceiver (some transceiver)).transceiver i = s.transceiver i) ∨
      ∃ k, s.transceiver k = none ∧
        ∀ i, i ≠ k → (s.addTransceiver (some transceiver)).transceiver i = s.transceiver i := by
  by_cases hfull : ∀ i, (s.transceiver i).isSome
  · rw [addTransceiver_full hc hfull]
    exact .inl fun _ => rfl
  obtain ⟨j, hj⟩ := not_forall.mp hfull
  obtain ⟨k, hk, hfirst⟩ := wellFounded_lt.has_min {i | s.transceiver i = none}
    ⟨j, Option.not_isSome_iff_eq_none.mp hj⟩
  have hbefore : ∀ i < k, (s.transceiver i).isSome :=
    fun i hi => Option.isSome_iff_ne_none.mpr fun hnone => hfirst i hnone hi
  refine .inr ⟨k, hk, fun i hik => ?_⟩
  rw [addTransceiver_first_empty hc hbefore hk, if_neg hik]

/-- A node with `k` transceivers takes one more: the first empty slot is filled, and all queues
are initialised from then on. -/
theorem configured_addTransceiver {k : ℕ} (hk : 1 ≤ k) {s : OpenCyphal C τ R}
    (h : Configured k s) (transceiver : τ) :
    Configured (k + 1) (s.addTransceiver (some transceiver)) := by
  have hrun := (addTransceiver_frame s transceiver).2.2.trans h.running
  have hqueue (i : Fin R) : ((s.addTransceiver (some transceiver)).txQueues i).isSome := by
    rw [addTransceiver_queues h.running]
    split_ifs with hi
    · rfl
    · have hslot := (h.slots i).mp (Option.isSome_iff_ne_none.mpr hi)
      exact (h.queues i).mpr (by omega)
  have hqueues (i : Fin R) : ((s.addTransceiver (some transceiver)).txQueues i).isSome ↔
      i.val = 0 ∨ 2 ≤ k + 1 := ⟨fun _ => .inr (by omega), fun _ => hqueue i⟩
  by_cases hfull : R ≤ k
  · have hsame := addTransceiver_full h.running
      (fun i => (h.slots i).mpr (lt_of_lt_of_le i.isLt hfull)) transceiver
    refine ⟨hrun, fun i => ?_, hqueues⟩
    rw [hsame, h.slots]
    omega
  -- slot `k` takes the pointer
  have hkR : k < R := not_le.mp hfull
  have hempty : s.transceiver ⟨k, hkR⟩ = none := by
    rw [← Option.not_isSome_iff_eq_none, h.slots]
    exact lt_irrefl k
  have hbefore : ∀ i < (⟨k, hkR⟩ : Fin R), (s.transceiver i).isSome :=
    fun i hi => (h.slots i).mpr (Fin.lt_def.mp hi)
  refine ⟨hrun, fun i => ?_, hqueues⟩
  rw [addTransceiver_first_empty h.running hbefore hempty]
  split_ifs with hik
  · simp [hik]
  · have hne : i.val ≠ k := fun he => hik (Fin.ext he)
    rw [h.slots]
    omega

theorem publishOn_uninitialised {s : OpenCyphal C τ R} (hc : s.crashed = none) {i : Fin R}
    (hq : s.txQueues i = none) (deadline : CanardMicrosecond) (metadata : CanardTransferMetadata)
    (payload : List UInt8) :
    (s.publishOn deadline metadata payload i).1.crashed = some (.uninitialisedQueue i) := by
  simp only [publishOn, hc, hq, crash]

/-- `Publish` on all interfaces ends the process if one of them has no queue. -/
theorem publish_uninitialised (L : TxLaws C) {s : OpenCyphal C τ R} (hc : s.crashed = none)
    {i : Fin R} (hq : s.txQueues i = none) (deadline : CanardMicrosecond)
    (metadata : CanardTransferMetadata) (payload : List UInt8) :
    ∃ j, (s.publish deadline metadata payload).1.crashed = some (.uninitialisedQueue j) := by
  unfold publish
  have hi : i ∈ List.finRange R := List.mem_finRange i
  generalize (some 0 : Option ℤ) = r
  generalize List.finRange R = l at hi
  induction l generalizing s r with
  | nil => cases hi
  | cons j l ih =>
    rw [List.foldl_cons]
    cases hj : s.txQueues j with
    | none =>
      have hcrash := publishOn_uninitialised hc hj deadline metadata payload
      exact ⟨j, by rw [foldl_publishOn_crashed hcrash]; exact hcrash⟩
    | some que =>
      obtain ⟨evs, hg⟩ := grows_publishOn L s deadline metadata payload j
      have hne : i ≠ j := by rintro rfl; rw [hq] at hj; cases hj
      have hq' : (s.publishOn deadline metadata payload j).1.txQueues i = none := by
        rw [← Option.not_isSome_iff_eq_none, hg.initialised, hq]
        simp
      -- queue `j` is there: the loop goes on towards `i`
      exact ih (publishOn_running hc deadline metadata payload (Option.isSome_of_eq_some hj)).1 hq'
        _ ((List.mem_cons.mp hi).resolve_left hne)

/-- Handlers that answer on the interface a transfer arrived on, as those of the nodes do. -/
abbrev AnsweringOnArrival (receivers : List (Receiver R)) : Prop :=
  Returning (fun i ifidx => ifidx = some i) receivers

/-- An iteration over an empty slot ends the process. -/
theorem serve_unfilled (L : TxLaws C) (receivers : List (Receiver R)) (answers : Answers R)
    (time : CanardMicrosecond) {i : Fin R} {s : OpenCyphal C τ R} (hslot : s.transceiver i = none) :
    ∃ t, serveInterface receivers answers time i s = .ret t none ∧
      (t.crashed = some (.uninitialisedQueue i) ∨ t.crashed = some (.nullTransceiver i)) := by
  cases hq : s.txQueues i with
  | none =>
    refine ⟨s.crash (.uninitialisedQueue i), ?_, .inl rfl⟩
    simp only [serveInterface, transmit, hq]
  | some que =>
    obtain ⟨dead, que', ins', fault, -, -, hstate, hexit⟩ :=
      txLoop_null L (answers.send i) time i (C.txSize que + 1) 0 que s hslot hq
        (by rw [L.txSize_eq]; omega)
    cases htx : txLoop (answers.send i) time i (C.txSize que + 1) 0 que s with
    | mk s' exit =>
      simp only [htx] at hstate hexit
      have hslot' : s'.transceiver i = none := by rw [hstate]; exact hslot
      rcases hexit with rfl | ⟨rfl, hfault⟩
      · refine ⟨s'.crash (.nullTransceiver i), ?_, .inr rfl⟩
        simp only [serveInterface, transmit, hq, htx, receive, hslot']
      · refine ⟨s', ?_, .inr (by rw [hstate, hfault])⟩
        simp only [serveInterface, transmit, hq, htx]

theorem configured_serve (L : TxLaws C) (hrx : RxLaws C) {receivers : List (Receiver R)}
    (hret : AnsweringOnArrival receivers) (answers : Answers R) (time : CanardMicrosecond) {k : ℕ}
    {i : Fin R} (hi : i.val < k) {s : OpenCyphal C τ R} (h : Configured k s) :
    Configured k (serveInterface receivers answers time i s).state ∧
      ((∃ t, serveInterface receivers answers time i s = .next t) ↔
        ¬ Stops L answers time i s) := by
  have hque : (s.txQueues i).isSome := (h.queues i).mpr (by omega)
  obtain ⟨evs, hv⟩ := visit_serveInterface L receivers answers time i s
  obtain ⟨hc, hnext⟩ := serve_running L hrx hret answers time ((h.slots i).mpr hi) hque h.running
    (by rintro _ rfl; exact hque)
  exact ⟨h.of_shape hv.shape hc, hnext⟩

theorem configured_forLoop (L : TxLaws C) (hrx : RxLaws C) {receivers : List (Receiver R)}
    (hret : AnsweringOnArrival receivers) (answers : Answers R) (time : CanardMicrosecond) {k : ℕ}
    {l : List (Fin R)} (hl : ∀ i ∈ l, i.val < k) {s : OpenCyphal C τ R} (h : Configured k s) :
    Configured k (forLoop (serveInterface receivers answers time) l s).1 :=
  forLoop_rel (P := fun a b => Configured k a → Configured k b) (fun _ h => h)
    (fun hab hbc h => hbc (hab h))
    (fun _ hi _ h => (configured_serve L hrx hret answers time (hl _ hi) h).1) s h

/-- What the loop reaches before slot `k` it reaches in the loop over the slots before `k`. -/
theorem reaches_before {body : Fin R → OpenCyphal C τ R → Flow (OpenCyphal C τ R) (Option ℤ)}
    {pre post : List (Fin R)} {k i : Fin R} {s t : OpenCyphal C τ R}
    (hl : List.finRange R = pre ++ k :: post) :
    Reaches body pre s i t ↔ i < k ∧ Reaches body (List.finRange R) s i t := by
  constructor
  · rintro ⟨pre', post', rfl, ht⟩
    refine ⟨(mem_before_of_finRange hl).mp (by simp), pre', post' ++ k :: post, ?_, ht⟩
    rw [hl, List.append_assoc, List.cons_append]
  · rintro ⟨hik, pre', post', hl', ht⟩
    rcases List.append_eq_append_iff.mp (hl'.symm.trans hl) with
      ⟨mid, hpre, hmid⟩ | ⟨mid, hpre, hmid⟩
    · cases mid with
      | nil =>
        rw [List.nil_append, List.cons.injEq] at hmid
        exact absurd hmid.1 hik.ne
      | cons j mid =>
        rw [List.cons_append, List.cons.injEq] at hmid
        exact ⟨pre', mid, by rw [hpre, ← hmid.1], ht⟩
    · have hk : k ∉ pre' := fun hm => absurd ((mem_before_of_finRange hl').mp hm) (lt_asymm hik)
      cases mid with
      | nil =>
        rw [List.nil_append, List.cons.injEq] at hmid
        exact absurd hmid.1.symm hik.ne
      | cons j mid =>
        rw [List.cons_append, List.cons.injEq] at hmid
        exact absurd (by simp [hpre, hmid.1]) hk

/-- With an empty slot `k` a call stays within reach when the slots before it do not fall
through. -/
theorem withinReach_iff_stop (L : TxLaws C) (hrx : RxLaws C) {receivers : List (Receiver R)}
    (hret : AnsweringOnArrival receivers) (answers : Answers R) (time : CanardMicrosecond)
    {pre post : List (Fin R)} {k : Fin R} (hl : List.finRange R = pre ++ k :: post)
    {s : OpenCyphal C τ R} (h : Configured k.val s) :
    (NodeCall.handle receivers answers time : NodeCall τ R).WithinReach L k.val s ↔
      fallThrough (serveInterface receivers answers time) pre s = none := by
  have hpre : ∀ i ∈ pre, i.val < k.val :=
    fun i hi => Fin.lt_def.mp ((mem_before_of_finRange hl).mp hi)
  have hserve {i : Fin R} {t : OpenCyphal C τ R}
      (hr : Reaches (serveInterface receivers answers time) pre s i t) :
      Stops L answers time i t ↔ ∀ t', serveInterface receivers answers time i t ≠ .next t' := by
    obtain ⟨pre', post', rfl, ht⟩ := hr
    have hconf : Configured k.val t := by
      have := configured_forLoop L hrx hret answers time
        (fun j hj => hpre j (List.mem_append_left _ hj)) h
      rwa [forLoop_of_fallThrough ht] at this
    have hi : i.val < k.val := hpre i (by simp)
    rw [← not_iff_not, ← (configured_serve L hrx hret answers time hi hconf).2]
    simp
  have hfull : ¬ R ≤ k.val := not_le.mpr k.isLt
  rw [fallThrough_eq_none_iff]
  simp only [NodeCall.WithinReach, hfull, false_or]
  constructor
  · rintro ⟨i, t, hi, hr, hs⟩
    have hr' := (reaches_before hl).mpr ⟨Fin.lt_def.mpr hi, hr⟩
    exact ⟨i, t, hr', (hserve hr').mp hs⟩
  · rintro ⟨i, t, hr, hn⟩
    obtain ⟨hi, hr'⟩ := (reaches_before hl).mp hr
    exact ⟨i, t, Fin.lt_def.mp hi, hr', (hserve hr).mpr hn⟩

/-- Whether the loop over the interfaces stays within `k` filled slots. -/
theorem configured_handle (L : TxLaws C) (hrx : RxLaws C) {receivers : List (Receiver R)}
    (hret : AnsweringOnArrival receivers) (answers : Answers R) (time : CanardMicrosecond) {k : ℕ}
    {s : OpenCyphal C τ R} (h : Configured k s) :
    ((NodeCall.handle receivers answers time : NodeCall τ R).WithinReach L k s →
      Configured k (handleTxRxQueues receivers answers time s).1) ∧
    (¬ (NodeCall.handle receivers answers time : NodeCall τ R).WithinReach L k s →
      ¬ Untouched (handleTxRxQueues receivers answers time s).1) := by
  rw [handleTxRxQueues_of_running receivers answers time h.running]
  by_cases hfull : R ≤ k
  · refine ⟨fun _ => ?_, fun hreach => absurd (.inl hfull) hreach⟩
    exact configured_forLoop L hrx hret answers time (fun i _ => by omega) h
  have hkR : k < R := not_le.mp hfull
  obtain ⟨pre, post, hl⟩ := List.append_of_mem (List.mem_finRange (⟨k, hkR⟩ : Fin R))
  have hpre : ∀ i ∈ pre, i.val < k := by
    intro i hi
    exact Fin.lt_def.mp ((mem_before_of_finRange hl).mp hi)
  rw [withinReach_iff_stop L hrx hret answers time hl h]
  have hforLoop := configured_forLoop L hrx hret answers time hpre h
  cases hft : fallThrough (serveInterface receivers answers time) pre s with
  | none =>
    refine ⟨fun _ => ?_, fun hne => absurd rfl hne⟩
    rwa [hl, forLoop_append_of_not_fallThrough _ hft]
  | some t =>
    refine ⟨nofun, fun _ htouch => ?_⟩
    rw [forLoop_of_fallThrough hft] at hforLoop
    have hslot : t.transceiver ⟨k, hkR⟩ = none := by
      rw [← Option.not_isSome_iff_eq_none, hforLoop.slots]
      simp
    obtain ⟨u, hu, hfault⟩ := serve_unfilled L receivers answers time hslot
    have hend : (forLoop (serveInterface receivers answers time) (List.finRange R) s).1 = u := by
      rw [hl, forLoop_append_of_fallThrough _ hft]
      simp only [forLoop, hu]
    rw [hend] at htouch
    rcases hfault with hfault | hfault
    · exact (htouch k).1 hfault
    · exact (htouch k).2 hfault

/-- The handlers that run in a call answer on the interface a transfer arrived on. -/
def NodeCall.OnArrival : NodeCall τ R → Prop
  | .handle receivers _ _ => AnsweringOnArrival receivers
  | _ => True

/-- One call of a node with `k` transceivers stays within them exactly when it is within
reach. -/
theorem configured_call (L : TxLaws C) (hrx : RxLaws C) {call : NodeCall τ R}
    (hcall : call.OnArrival) {k : ℕ} (hk : 1 ≤ k) {s : OpenCyphal C τ R} (h : Configured k s) :
    (call.WithinReach L k s → Configured (k + call.given) (call.run s)) ∧
      (¬ call.WithinReach L k s → ¬ Untouched (call.run s)) := by
  cases call with
  | addTransceiver transceiver =>
    exact ⟨fun _ => configured_addTransceiver hk h transceiver, fun hr => absurd trivial hr⟩
  | subscribe kind portId extent timeout =>
    refine ⟨fun _ => ?_, fun hr => absurd trivial hr⟩
    simp only [NodeCall.run, subscribe, h.running]
    exact ⟨rfl, h.slots, h.queues⟩
  | publish ifidx deadline metadata payload =>
    obtain ⟨evs, hg⟩ := grows_publishVia L s ifidx deadline metadata payload
    have hok (hp : Publishable s ifidx) :
        Configured k (s.publishVia ifidx deadline metadata payload).1 :=
      h.of_shape hg.shape (publishVia_running L h.running deadline metadata payload hp).1
    have hnone {i : Fin R} (hi : ¬ (i.val = 0 ∨ 2 ≤ k)) : s.txQueues i = none := by
      rw [← Option.not_isSome_iff_eq_none, h.queues]
      exact hi
    cases ifidx with
    | some i =>
      refine ⟨fun hr => hok ((h.queues i).mpr hr), fun hr htouch => ?_⟩
      exact (htouch i).1 (publishOn_uninitialised h.running (hnone hr) deadline metadata payload)
    | none =>
      refine ⟨fun hr => hok fun i => (h.queues i).mpr ?_, fun hr htouch => ?_⟩
      · simp only [NodeCall.WithinReach] at hr
        omega
      · simp only [NodeCall.WithinReach] at hr
        obtain ⟨j, hj⟩ := publish_uninitialised L h.running
          (i := ⟨1, by omega⟩) (hnone (by simp; omega)) deadline metadata payload
        exact (htouch j).1 hj
  | handle receivers answers time => exact configured_handle L hrx hcall answers time h

theorem untouched_run_iff (L : TxLaws C) (hrx : RxLaws C) {calls : List (NodeCall τ R)}
    (hcalls : ∀ call ∈ calls, call.OnArrival) {k : ℕ} (hk : 1 ≤ k) {s : OpenCyphal C τ R}
    (h : Configured k s) :
    (∀ pre post, calls = pre ++ post → Untouched (runNode s pre)) ↔
      ∀ pre call post, calls = pre ++ call :: post →
        call.WithinReach L (k + givenIn pre) (runNode s pre) := by
  induction calls generalizing k s with
  | nil =>
    constructor
    · intro _ pre call post hc; simp at hc
    · intro _ pre post hc
      obtain ⟨rfl, rfl⟩ := List.nil_eq_append_iff.mp hc
      exact h.untouched
  | cons call calls ih =>
    obtain ⟨hc, hcs⟩ := List.forall_mem_cons.mp hcalls
    obtain ⟨hstep, hbad⟩ := configured_call L hrx hc hk h
    by_cases hr : call.WithinReach L k s
    · -- the first call leaves a configured node: the rest of the run decides
      have ih := ih hcs (Nat.le_add_right_of_le hk) (hstep hr)
      constructor
      · intro hu pre call' post hl
        cases pre with
        | nil =>
          obtain ⟨rfl, rfl⟩ := List.cons.inj hl
          exact hr
        | cons c pre =>
          rw [List.cons_append, List.cons.injEq] at hl
          obtain ⟨rfl, hl⟩ := hl
          have := ih.mp (fun p q hpq => hu (call :: p) q (by rw [hpq]; rfl)) pre call' post hl
          simpa only [givenIn, List.map_cons, List.sum_cons, Nat.add_assoc, runNode,
            List.foldl_cons] using this
      · intro hw pre post hl
        cases pre with
        | nil => exact h.untouched
        | cons c pre =>
          rw [List.cons_append, List.cons.injEq] at hl
          obtain ⟨rfl, hl⟩ := hl
          refine ih.mpr (fun p c q hpq => ?_) pre post hl
          have := hw (call :: p) c q (by rw [hpq]; rfl)
          simpa only [givenIn, List.map_cons, List.sum_cons, Nat.add_assoc, runNode,
            List.foldl_cons] using this
    -- the first call is already out of reach: both sides fail at it
    · constructor
      · intro hu
        exact absurd (hu [call] calls rfl) (hbad hr)
      · intro hw
        exact absurd (hw [] call calls rfl) hr

/-- No operation of a node's run touches an interface without a transceiver if and only if every
call stays within reach of the transceivers given so far. -/
theorem untouched_iff_withinReach (L : TxLaws C) (hrx : RxLaws C) (nodeId : CanardNodeID)
    (transceiver : τ) (calls : List (NodeCall τ R)) (hcalls : ∀ call ∈ calls, call.OnArrival) :
    (∀ pre post, calls = pre ++ post →
        Untouched (runNode (construct nodeId transceiver : OpenCyphal C τ R) pre)) ↔
      ∀ pre call post, calls = pre ++ call :: post →
        call.WithinReach L (1 + givenIn pre) (runNode (construct nodeId transceiver) pre) :=
  untouched_run_iff L hrx hcalls le_rfl (configured_construct nodeId transceiver)

/-- A task publishes on all interfaces. -/
def taskPublication : NodeCall Unit 2 :=
  .publish none 0 ⟨.nominal, .message, 7509, canardNodeIdUnset, 0⟩ [0]

theorem untouched_iff_single :
    (∀ pre post, [taskPublication] = pre ++ post →
        Untouched (runNode (construct 1 () : OpenCyphal SingleFrame.canard Unit 2) pre)) ↔
      ∀ pre call post, [taskPublication] = pre ++ call :: post →
        call.WithinReach SingleFrame.txLaws (1 + givenIn pre) (runNode (construct 1 ()) pre) :=
  untouched_iff_withinReach SingleFrame.txLaws SingleFrame.rxLaws 1 () [taskPublication] (by
    intro call hm
    rw [List.mem_singleton.mp hm]
    trivial)

/-- A node with one transceiver of two publishes into a queue that was never initialised. -/
theorem second_queue_touched : ¬ ∀ pre post, [taskPublication] = pre ++ post →
    Untouched (runNode (construct 1 () : OpenCyphal SingleFrame.canard Unit 2) pre) := by
  intro h
  exact (h [taskPublication] [] rfl 1).1 (by decide)

end CyphalOnboard
