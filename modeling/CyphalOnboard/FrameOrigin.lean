import CyphalOnboard.AtomicSteps

namespace CyphalOnboard

open EarlyExit OpenCyphal

variable {C : Canard} {τ : Type} {R : ℕ} {L : TxLaws C}

variable {own : C.Instance → Prop}

/-- What a push enqueues are the frames that libcanard builds of its transfer, or none. -/
def Event.Built (own : C.Instance → Prop) : Event R → Prop
  | .push _ deadline metadata payload result frames => ∃ que ins, own ins ∧
      result = (C.canardTxPush que ins deadline metadata payload).result ∧
      frames = if result < 0 then [] else C.txFrames que ins deadline metadata payload
  | _ => True

/-- All pushes up to `s` were built. -/
structure Built (own : C.Instance → Prop) (s : OpenCyphal C τ R) : Prop where
  inst : own s.inst
  pushes : ∀ e ∈ s.events, e.Built own

theorem Built.append {s s' : OpenCyphal C τ R} (h : Built own s) (hinst : own s'.inst)
    {e : Event R} (hevents : s'.events = s.events ++ [e]) (he : e.Built own) : Built own s' := by
  refine ⟨hinst, ?_⟩
  rw [hevents]
  exact List.forall_mem_append.mpr ⟨h.pushes, List.forall_mem_singleton.mpr he⟩

theorem built_of_not_pushed {e : Event R} (h : e.pushed = none) : e.Built own := by
  cases e with
  | push i deadline metadata payload result frames => cases h
  | _ => trivial

theorem Atomic.built (hown : Lasting own) {s s' : OpenCyphal C τ R} (h : Atomic s s')
    (hs : Built own s) : Built own s' := by
  have hinst := h.lasting hown hs.inst
  cases h with
  | crash fault => exact ⟨hinst, hs.pushes⟩
  | record event hevent => exact hs.append hinst rfl (built_of_not_pushed hevent)
  | fill i transceiver hempty => exact ⟨hinst, hs.pushes⟩
  | push i que deadline metadata payload hque =>
    unfold publishOn at hinst ⊢
    split at hinst
    · exact hs
    · exact ⟨hinst, hs.pushes⟩
    next que' _ _ => exact hs.append hinst rfl ⟨que', s.inst, hs.inst, rfl, rfl⟩
  | pop i que tqi hque hpeek => exact hs.append hinst rfl trivial
  | accept i time frame => exact hs.append hinst rfl trivial
  | release block => exact hs.append hinst rfl trivial
  | subscribe kind portId extent timeout => exact ⟨hinst, hs.pushes⟩

theorem Atomically.built (hown : Lasting own) {s s' : OpenCyphal C τ R} (h : Atomically s s') :
    Built own s → Built own s' :=
  h.rel (P := fun s s' => Built own s → Built own s') (fun _ => id) (fun h h' => h' ∘ h)
    (Atomic.built hown)

/-- All frames the node has enqueued are waiting, accepted or dropped, and libcanard built them. -/
structure Traced (L : TxLaws C) (own : C.Instance → Prop) (s : OpenCyphal C τ R) : Prop where
  built : Built own s
  balance : ∀ i, ((s.events.flatMap (Event.enqueued i) : List CanardTxQueueItem) :
      Multiset CanardTxQueueItem) =
    L.queued s i + (s.events.flatMap (Event.accepted i) : List CanardTxQueueItem) +
      (s.events.flatMap (Event.dropped i) : List CanardTxQueueItem)

theorem Traced.trans {time : CanardMicrosecond} {s s' : OpenCyphal C τ R} {evs : List (Event R)}
    (h : Traced L own s) (hacc : Accounts L time s evs s')
    (hbuilt : Built own s → Built own s') : Traced L own s' := by
  refine ⟨hbuilt h.built, fun i => ?_⟩
  have hold := h.balance i
  rw [← zero_add (Multiset.ofList (s.events.flatMap (Event.enqueued i)))] at hold
  have hnew := balance_trans hold (hacc.balance i)
  rw [zero_add] at hnew
  rw [hacc.events, List.flatMap_append, List.flatMap_append, List.flatMap_append]
  exact hnew

theorem equipped_queued (setup : NodeSetup τ) (more : List τ) (i : Fin R) :
    L.queued (setup.equipped more : Node C τ R).host.base i = [] := by
  induction more using List.reverseRecOn with
  | nil =>
    by_cases hi : i.val = 0
    · have hqueue : (setup.equipped [] : Node C τ R).host.base.txQueues i =
          some (C.canardTxInit 100 canardMtuCanFd) := if_pos hi
      rw [queued_of_some hqueue, L.txInit_items]
    · have hqueue : (setup.equipped [] : Node C τ R).host.base.txQueues i = none := if_neg hi
      simp only [TxLaws.queued, hqueue]
  | append_singleton more transceiver ih =>
    have hrun := (equipped_members (C := C) (R := R) setup more).1.running
    have hqueue := addTransceiver_queues hrun transceiver i
    unfold NodeSetup.equipped at hqueue ih ⊢
    rw [List.foldl_append]
    split_ifs at hqueue
    · exact (queued_of_some hqueue).trans (L.txInit_items ..)
    · exact (queued_congr hqueue).trans ih

theorem equipped_inst (hown : Lasting own) (setup : NodeSetup τ) (more : List τ)
    (hinit : own (C.canardInit setup.nodeId)) :
    own (setup.equipped more : Node C τ R).host.base.inst := by
  unfold NodeSetup.equipped
  induction more using List.reverseRecOn with
  | nil => exact hown.rxSubscribe _ _ _ _ _ hinit
  | append_singleton more transceiver ih =>
    rw [List.foldl_append]
    exact (atomically_command (.addTransceiver transceiver) _).lasting hown ih

theorem traced_equipped (L : TxLaws C) (hown : Lasting own) (setup : NodeSetup τ) (more : List τ)
    (hinit : own (C.canardInit setup.nodeId)) :
    Traced L own (setup.equipped more : Node C τ R).host.base := by
  have hevents := equipped_events (C := C) (R := R) setup more
  refine ⟨⟨equipped_inst hown setup more hinit, ?_⟩, fun i => ?_⟩
  · rw [hevents]
    exact List.forall_mem_nil _
  · rw [hevents, equipped_queued]
    rfl

/-- A command of a node that keeps running. -/
theorem traced_command (L : TxLaws C) (hown : Lasting own) {latencyTask : Prop} {measures : Bool}
    {node : Node C τ R} (h : Sturdy latencyTask measures node)
    (htraced : Traced L own node.host.base) (command : NodeCommand τ R) :
    Traced L own (command.run node).host.base := by
  have hbuilt := (atomically_command command node).built hown
  have hsame (hq : (command.run node).host.base.txQueues = node.host.base.txQueues)
      (hev : (command.run node).host.base.events = node.host.base.events) :
      Traced L own (command.run node).host.base := by
    refine ⟨hbuilt htraced.built, fun i => ?_⟩
    rw [hev, queued_congr (congrFun hq i)]
    exact htraced.balance i
  cases command with
  | startNode startedAt => exact htraced
  | schedule nextRun task constructed => exact htraced
  | addTransceiver transceiver =>
    apply hsame _ (addTransceiver_frame node.host.base transceiver).2.1
    change (node.host.base.addTransceiver (some transceiver)).txQueues = _
    rcases h.running with hready | ⟨hc, -⟩
    · rw [addTransceiver_full hready.running hready.slots]
    · rw [addTransceiver_of_crashed hc]
  | subscribe kind portId extent timeout =>
    have hframe : (node.host.base.subscribe kind portId extent timeout).1.txQueues =
        node.host.base.txQueues ∧
        (node.host.base.subscribe kind portId extent timeout).1.events =
          node.host.base.events := by
      unfold subscribe
      split <;> exact ⟨rfl, rfl⟩
    exact hsame hframe.1 hframe.2
  | checkScheduler env time =>
    exact (checkScheduler_rel (K := nodeTasks C τ R)
      (Q := fun host host' => Traced L own host.base → Traced L own host'.base) (fun _ => id)
      (fun h h' => h' ∘ h) (fun env time body host hold => by
        obtain ⟨evs, hpub⟩ := NodeTask.published_execute L env time body host
        exact hold.trans (hpub.grows.accounts time)
          ((NodeTask.atomically_execute env time body host).built hown)) node env time).1 htraced
  | handleTxRxQueues ans clock time =>
    obtain ⟨evs, hv⟩ := visit_handleTxRxQueues L [node.host.receiver clock] ans time node.host.base
    exact htraced.trans hv.toAccounts hbuilt

/-- What was accepted on interface `i` was built of a transfer published there. -/
theorem Traced.origin {s : OpenCyphal C τ R} (h : Traced L own s) {i : Fin R}
    {item : CanardTxQueueItem} (hitem : item ∈ s.events.flatMap (Event.accepted i)) :
    ∃ que ins deadline metadata payload frames, own ins ∧
      .push i deadline metadata payload (C.canardTxPush que ins deadline metadata payload).result
          frames ∈ s.events ∧ item ∈ frames ∧
        0 ≤ (C.canardTxPush que ins deadline metadata payload).result ∧
        item ∈ C.txFrames que ins deadline metadata payload := by
  have henqueued : item ∈ s.events.flatMap (Event.enqueued i) := by
    rw [← Multiset.mem_coe, h.balance i, Multiset.mem_add, Multiset.mem_add]
    exact .inl (.inr hitem)
  obtain ⟨e, he, hin⟩ := List.mem_flatMap.mp henqueued
  cases e with
  | push j deadline metadata payload result frames =>
    simp only [Event.enqueued] at hin
    split_ifs at hin with hj
    · subst hj
      obtain ⟨que, ins, hins, rfl, hframes⟩ := h.built.pushes _ he
      refine ⟨que, ins, deadline, metadata, payload, frames, hins, he, hin, ?_⟩
      rw [hframes] at hin
      split_ifs at hin with hfailed
      · cases hin
      · exact ⟨not_lt.mp hfailed, hin⟩
    · cases hin
  | _ => cases hin

end CyphalOnboard
