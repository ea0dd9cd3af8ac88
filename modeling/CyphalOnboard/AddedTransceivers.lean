import CyphalOnboard.Configuration
import CyphalOnboard.PublishResult

namespace CyphalOnboard

open OpenCyphal

variable {C : Canard} {τ : Type} {R : ℕ}

/-- At most one slot has changed, from empty to filled, all frames are still queued, and no queue
that holds any has been initialised again. -/
structure LosesNothing (L : TxLaws C) (s s' : OpenCyphal C τ R) : Prop where
  slot : ∀ i, s'.transceiver i ≠ s.transceiver i →
    s.transceiver i = none ∧ ∀ j, s'.transceiver j ≠ s.transceiver j → j = i
  queued : ∀ i, L.queued s' i = L.queued s i
  kept : ∀ i que, s.txQueues i = some que → L.items que ≠ [] → s'.txQueues i = some que

/-- No frame waits on an interface without a transceiver. -/
def EmptySlotsIdle (L : TxLaws C) (s : OpenCyphal C τ R) : Prop :=
  s.crashed = none → ∀ i, s.transceiver i = none → L.queued s i = []

/-- A call loses nothing exactly when no frame waits on an interface without a transceiver. -/
theorem losesNothing_call_iff (L : TxLaws C) (s : OpenCyphal C τ R) (transceiver : τ) :
    LosesNothing L s (s.addTransceiver (some transceiver)) ↔ EmptySlotsIdle L s := by
  cases hc : s.crashed with
  | some fault =>
    rw [addTransceiver_of_crashed hc]
    exact ⟨fun _ h => by simp [hc] at h,
      fun _ => ⟨fun i hi => absurd rfl hi, fun _ => rfl, fun _ _ h _ => h⟩⟩
  | none =>
    have hinit {i : Fin R} (hi : s.transceiver i = none) :
        L.queued (s.addTransceiver (some transceiver)) i = [] := by
      have hq := addTransceiver_queues hc transceiver i
      rw [if_pos hi] at hq
      rw [queued_of_some hq, L.txInit_items]
    have hkeep {i : Fin R} (hi : s.transceiver i ≠ none) :
        (s.addTransceiver (some transceiver)).txQueues i = s.txQueues i := by
      rw [addTransceiver_queues hc, if_neg hi]
    constructor
    · intro h _ i hi
      rw [← h.queued, hinit hi]
    · intro hidle
      have hidle := hidle hc
      refine ⟨fun i hi => ?_, fun i => ?_, fun i que hque hitems => ?_⟩
      · rcases addTransceiver_slots hc transceiver with hall | ⟨j, hj, hall⟩
        · exact absurd (hall i) hi
        · have hij {k : Fin R} (hk : (s.addTransceiver (some transceiver)).transceiver k ≠
              s.transceiver k) : k = j := not_imp_comm.mp (hall k) hk
          rw [hij hi]
          exact ⟨hj, fun k hk => hij hk⟩
      · by_cases hi : s.transceiver i = none
        · rw [hinit hi, hidle i hi]
        · exact queued_congr (hkeep hi)
      · by_cases hi : s.transceiver i = none
        · have hnil := hidle i hi
          rw [queued_of_some hque] at hnil
          exact absurd hnil hitems
        · rw [hkeep hi, hque]

/-- Over every run of a node its `addTransceiver` calls lose nothing exactly when each is made while
no frame waits on an interface without a transceiver. -/
theorem addTransceiver_losesNothing_iff (L : TxLaws C) (nodeId : CanardNodeID) (transceiver : τ)
    (calls : List (NodeCall τ R)) :
    (∀ pre t post, calls = pre ++ .addTransceiver t :: post →
        LosesNothing L (runNode (construct nodeId transceiver : OpenCyphal C τ R) pre)
          (runNode (construct nodeId transceiver) (pre ++ [.addTransceiver t]))) ↔
      ∀ pre t post, calls = pre ++ .addTransceiver t :: post →
        EmptySlotsIdle L (runNode (construct nodeId transceiver : OpenCyphal C τ R) pre) := by
  have hcall (pre : List (NodeCall τ R)) (t : τ) :
      runNode (construct nodeId transceiver : OpenCyphal C τ R) (pre ++ [.addTransceiver t]) =
        (runNode (construct nodeId transceiver) pre).addTransceiver (some t) := by
    simp only [runNode, List.foldl_append, List.foldl_cons, List.foldl_nil, NodeCall.run]
  refine forall_congr' fun pre => forall_congr' fun t => forall_congr' fun post =>
    imp_congr_right fun _ => ?_
  rw [hcall]
  exact losesNothing_call_iff L _ t

/-- Publishing between the second and the third transceiver: the frame on the third interface is
gone when its transceiver is added. -/
theorem queued_frame_lost :
    ¬ ∀ pre t post,
      [.addTransceiver (), .publish none 0 emptyMetadata [], .addTransceiver ()] =
        pre ++ NodeCall.addTransceiver t :: post →
      LosesNothing SingleFrame.txLaws
        (runNode (construct 1 () : OpenCyphal SingleFrame.canard Unit 3) pre)
        (runNode (construct 1 ()) (pre ++ [.addTransceiver t])) := by
  intro h
  have hlost := congrArg List.length
    ((h [.addTransceiver (), .publish none 0 emptyMetadata []] () [] rfl).queued (Fin.last 2))
  revert hlost
  decide

end CyphalOnboard
