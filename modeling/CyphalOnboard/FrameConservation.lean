import CyphalOnboard.VisitSpec

namespace CyphalOnboard

open OpenCyphal

variable {C : Canard} {τ : Type} {R : ℕ} {L : TxLaws C}

/-- A call made on the object. `publish` without an interface is the overload for all of them. -/
inductive Call (R : ℕ) where
  | publish (ifidx : Option (Fin R)) (deadline : CanardMicrosecond)
      (metadata : CanardTransferMetadata) (payload : List UInt8)
  | handle (receivers : List (Receiver R)) (answers : Answers R) (time : CanardMicrosecond)

def Call.run (s : OpenCyphal C τ R) : Call R → OpenCyphal C τ R
  | .publish ifidx deadline metadata payload =>
    (s.publishVia ifidx deadline metadata payload).1
  | .handle receivers answers time => (handleTxRxQueues receivers answers time s).1

def runCalls (s : OpenCyphal C τ R) (calls : List (Call R)) : OpenCyphal C τ R :=
  calls.foldl Call.run s

theorem runCalls_append (s : OpenCyphal C τ R) (calls calls' : List (Call R)) :
    runCalls s (calls ++ calls') = runCalls (runCalls s calls) calls' :=
  List.foldl_append ..

/-- `evs` is the record of a run from `s` to `s'` of the calls of `calls`: the frames of every
interface add up, and each one was accepted or dropped in time in one of the calls. -/
structure Conserved (L : TxLaws C) (s : OpenCyphal C τ R) (calls : List (Call R))
    (evs : List (Event R)) (s' : OpenCyphal C τ R) : Prop where
  events : s'.events = s.events ++ evs
  balance : ∀ i, (L.queued s i : Multiset CanardTxQueueItem) +
      (evs.flatMap (Event.enqueued i) : List CanardTxQueueItem) =
    L.queued s' i + (evs.flatMap (Event.accepted i) : List CanardTxQueueItem) +
      (evs.flatMap (Event.dropped i) : List CanardTxQueueItem)
  accepted : ∀ i time item r, .send i time item r ∈ evs → 0 < r →
    (item.txDeadlineUsec = 0 ∨ item.txDeadlineUsec > time) ∧
      ∃ receivers answers, .handle receivers answers time ∈ calls
  dropped : ∀ i time item, .drop i time item ∈ evs →
    (item.txDeadlineUsec ≠ 0 ∧ item.txDeadlineUsec ≤ time) ∧
      ∃ receivers answers, .handle receivers answers time ∈ calls

/-- The frames refused in `evs` are still queued in `s`. -/
def RefusedWait (L : TxLaws C) (evs : List (Event R)) (s : OpenCyphal C τ R) : Prop :=
  ∀ i time item r, .send i time item r ∈ evs → r ≤ 0 → item ∈ L.queued s i

theorem Conserved.trans {s s' s'' : OpenCyphal C τ R} {calls calls' : List (Call R)}
    {evs evs' : List (Event R)} (h : Conserved L s calls evs s')
    (h' : Conserved L s' calls' evs' s'') :
    Conserved L s (calls ++ calls') (evs ++ evs') s'' where
  events := by rw [h'.events, h.events, List.append_assoc]
  balance i := by
    simp only [List.flatMap_append]
    exact balance_trans (h.balance i) (h'.balance i)
  accepted i time item r he hr := by
    rcases List.mem_append.mp he with he | he
    · obtain ⟨hlive, receivers, answers, hm⟩ := h.accepted i time item r he hr
      exact ⟨hlive, receivers, answers, List.mem_append_left _ hm⟩
    · obtain ⟨hlive, receivers, answers, hm⟩ := h'.accepted i time item r he hr
      exact ⟨hlive, receivers, answers, List.mem_append_right _ hm⟩
  dropped i time item he := by
    rcases List.mem_append.mp he with he | he
    · obtain ⟨hdead, receivers, answers, hm⟩ := h.dropped i time item he
      exact ⟨hdead, receivers, answers, List.mem_append_left _ hm⟩
    · obtain ⟨hdead, receivers, answers, hm⟩ := h'.dropped i time item he
      exact ⟨hdead, receivers, answers, List.mem_append_right _ hm⟩

/-- One call conserves the frames and leaves the refused ones queued. -/
theorem conserved_call (L : TxLaws C) (s : OpenCyphal C τ R) (call : Call R) :
    ∃ evs, Conserved L s [call] evs (call.run s) ∧ RefusedWait L evs (call.run s) := by
  cases call with
  | publish ifidx deadline metadata payload =>
    obtain ⟨evs, h⟩ := grows_publishVia L s ifidx deadline metadata payload
    refine ⟨evs, ⟨h.events, (h.accounts 0).balance, ?_, ?_⟩, ?_⟩
    · intro i time item r he; cases h.offWire _ he
    · intro i time item he; cases h.offWire _ he
    · intro i time item r he; cases h.offWire _ he
  | handle receivers answers time =>
    obtain ⟨evs, h⟩ := visit_handleTxRxQueues L receivers answers time s
    refine ⟨evs, ⟨h.events, h.balance, ?_, ?_⟩, h.refused⟩
    · intro i t item r he hr
      obtain ⟨rfl, hlive⟩ := h.timely _ he
      exact ⟨hlive, receivers, answers, List.mem_singleton.mpr rfl⟩
    · intro i t item he
      obtain ⟨rfl, hdead⟩ := h.timely _ he
      rw [Live, not_or, UInt64.not_lt] at hdead
      exact ⟨hdead, receivers, answers, List.mem_singleton.mpr rfl⟩

theorem conserved_run (L : TxLaws C) (s : OpenCyphal C τ R) (calls : List (Call R)) :
    ∃ evs, Conserved L s calls evs (runCalls s calls) := by
  induction calls generalizing s with
  | nil => exact ⟨[], by simp [runCalls], by simp [runCalls], by simp, by simp⟩
  | cons call calls ih =>
    obtain ⟨evs, h, -⟩ := conserved_call L s call
    obtain ⟨evs', h'⟩ := ih (call.run s)
    exact ⟨evs ++ evs', h.trans h'⟩

/-- At every moment of a run the frames enqueued on an interface are waiting, accepted before
their deadline or dropped from it on, and a refused frame stays queued over its call. -/
theorem frames_conserved (L : TxLaws C) (s : OpenCyphal C τ R) (calls : List (Call R)) :
    (∃ evs, Conserved L s calls evs (runCalls s calls)) ∧
      ∀ pre call post, calls = pre ++ call :: post →
        ∃ evs, (runCalls s (pre ++ [call])).events = (runCalls s pre).events ++ evs ∧
          RefusedWait L evs (runCalls s (pre ++ [call])) := by
  refine ⟨conserved_run L s calls, ?_⟩
  intro pre call post _
  obtain ⟨evs, h, hwait⟩ := conserved_call L (runCalls s pre) call
  rw [runCalls_append]
  exact ⟨evs, h.events, hwait⟩

end CyphalOnboard
