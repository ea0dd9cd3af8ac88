import CyphalOnboard.BusOrder

namespace CyphalOnboard

open BroadcastLog EarlyExit OpenCyphal

variable {C : Canard} {τ : Type} {R : ℕ} {L : TxLaws C} {own : C.Instance → Prop}

/-- A transfer of interface `i` passed to a receiver. -/
def Event.processed (i : Fin R) : Event R → Option CanardRxTransfer
  | .process _ j transfer => if j = i then some transfer else none
  | _ => none

theorem processed_of_delivered {e : Event R} (h : e.delivered = none) (i : Fin R) :
    e.processed i = none := by
  cases e with
  | process k j transfer => cases h
  | _ => rfl

theorem mem_processed {evs : List (Event R)} {i : Fin R} {transfer : CanardRxTransfer} :
    transfer ∈ evs.filterMap (Event.processed i) ↔
      (i, transfer) ∈ evs.filterMap Event.delivered := by
  rw [List.mem_filterMap, List.mem_filterMap]
  refine exists_congr fun e => and_congr_right fun _ => ?_
  cases e with
  | process k j transfer' =>
    simp only [Event.processed, Event.delivered, Option.some.injEq, Prod.mk.injEq]
    split_ifs with hj
    · simp [hj]
    · simp [hj]
  | _ => simp [Event.processed, Event.delivered]

/-- An instance makes the transfer of the frame. -/
def Completes (own : C.Instance → Prop) (i : Fin R) (frame : CanardFrame)
    (transfer : CanardRxTransfer) : Prop :=
  ∃ ins time, own ins ∧ 0 < (C.canardRxAccept ins time frame i).result ∧
    transfer = (C.canardRxAccept ins time frame i).transfer

/-- The transfers that are processed are made of frames that are fed, each of one, in order. -/
def Attested (own : C.Instance → Prop) (evs : List (Event R)) : Prop :=
  ∀ i, ∃ frames, frames.Sublist (evs.filterMap (Event.fed i)) ∧
    List.Forall₂ (Completes own i) frames (evs.filterMap (Event.processed i))

theorem attested_of_undelivered {evs : List (Event R)} (h : ∀ e ∈ evs, e.delivered = none) :
    Attested own evs := by
  intro i
  have hnone : evs.filterMap (Event.processed i) = [] :=
    List.filterMap_eq_nil_iff.mpr fun e he => processed_of_delivered (h e he) i
  rw [hnone]
  exact ⟨[], List.nil_sublist _, .nil⟩

theorem Attested.append {evs evs' : List (Event R)} (h : Attested own evs)
    (h' : Attested own evs') : Attested own (evs ++ evs') := by
  intro i
  obtain ⟨frames, hsub, hmade⟩ := h i
  obtain ⟨frames', hsub', hmade'⟩ := h' i
  rw [List.filterMap_append, List.filterMap_append]
  exact ⟨frames ++ frames', hsub.append hsub', List.rel_append hmade hmade'⟩

/-- A frame that is fed and the transfer it completes. -/
theorem attested_completed {i : Fin R} {frame : CanardFrame} {transfer : CanardRxTransfer}
    (h : Completes own i frame transfer) (result : ℤ) (k : ℕ) :
    Attested own [.rxAccept i frame result, .process k i transfer] := by
  intro j
  by_cases hj : i = j
  · subst hj
    refine ⟨[frame], ?_, ?_⟩
    · simp [Event.fed]
    · have hprocessed : [Event.rxAccept i frame result, .process k i transfer].filterMap
          (Event.processed i) = [transfer] := by
        rw [List.filterMap_cons, List.filterMap_cons]
        simp only [Event.processed, if_true, List.filterMap_nil]
      rw [hprocessed]
      exact .cons h .nil
  · refine ⟨[], List.nil_sublist _, ?_⟩
    simp [Event.processed, hj]

/-- What is recorded from `s` to `s'` is attested. -/
def Attests (own : C.Instance → Prop) (s s' : OpenCyphal C τ R) : Prop :=
  ∃ evs, s'.events = s.events ++ evs ∧ Attested own evs

theorem Attests.refl (s : OpenCyphal C τ R) : Attests own s s :=
  ⟨[], (List.append_nil _).symm, attested_of_undelivered (List.forall_mem_nil _)⟩

theorem Attests.trans {s s' s'' : OpenCyphal C τ R} (h : Attests own s s')
    (h' : Attests own s' s'') : Attests own s s'' := by
  obtain ⟨evs, hevents, hevs⟩ := h
  obtain ⟨evs', hevents', hevs'⟩ := h'
  exact ⟨evs ++ evs', by rw [hevents', hevents, List.append_assoc], hevs.append hevs'⟩

/-- The records from `s` to `s'` are no transfers. -/
def Undelivered (s s' : OpenCyphal C τ R) : Prop :=
  ∃ evs, s'.events = s.events ++ evs ∧ ∀ e ∈ evs, e.delivered = none

theorem undelivered_same {s s' : OpenCyphal C τ R} (h : s'.events = s.events) : Undelivered s s' :=
  ⟨[], h.trans (List.append_nil _).symm, List.forall_mem_nil _⟩

theorem undelivered_one {s s' : OpenCyphal C τ R} {e : Event R}
    (h : s'.events = s.events ++ [e]) (he : e.delivered = none) : Undelivered s s' :=
  ⟨[e], h, List.forall_mem_singleton.mpr he⟩

theorem Undelivered.trans {s s' s'' : OpenCyphal C τ R} (h : Undelivered s s')
    (h' : Undelivered s' s'') : Undelivered s s'' := by
  obtain ⟨evs, hevents, hevs⟩ := h
  obtain ⟨evs', hevents', hevs'⟩ := h'
  exact ⟨evs ++ evs', by rw [hevents', hevents, List.append_assoc],
    List.forall_mem_append.mpr ⟨hevs, hevs'⟩⟩

theorem Undelivered.attests {s s' : OpenCyphal C τ R} (h : Undelivered s s') :
    Attests own s s' := by
  obtain ⟨evs, hevents, hevs⟩ := h
  exact ⟨evs, hevents, attested_of_undelivered hevs⟩

theorem undelivered_publishVia (s : OpenCyphal C τ R) (ifidx : Option (Fin R))
    (deadline : CanardMicrosecond) (metadata : CanardTransferMetadata) (payload : List UInt8) :
    Undelivered s (s.publishVia ifidx deadline metadata payload).1 := by
  have hone (s : OpenCyphal C τ R) (i : Fin R) :
      Undelivered s (s.publishOn deadline metadata payload i).1 := by
    unfold publishOn
    split
    · exact undelivered_same rfl
    · exact undelivered_same rfl
    · exact undelivered_one rfl rfl
  cases ifidx with
  | some i => exact hone s i
  | none =>
    change Undelivered s (s.publish deadline metadata payload).1
    unfold publish
    generalize (some 0 : Option ℤ) = r
    induction List.finRange R generalizing s r with
    | nil => exact undelivered_same rfl
    | cons i l ih =>
      rw [List.foldl_cons]
      exact (hone s i).trans (ih _ _)

/-- What a receiver does passes no transfers on. -/
theorem undelivered_run (reaction : Reaction R) (s : OpenCyphal C τ R) :
    Undelivered s (reaction.run s) := by
  induction reaction generalizing s with
  | done => exact undelivered_same rfl
  | crash fault => exact undelivered_same rfl
  | log entry k ih =>
    have hlog : Undelivered s (s.record (.log entry)) := undelivered_one rfl rfl
    exact hlog.trans (ih _)
  | publish ifidx deadline metadata payload k ih =>
    have h := undelivered_publishVia s ifidx deadline metadata payload
    simp only [Reaction.run]
    cases hp : s.publishVia ifidx deadline metadata payload with
    | mk s' r =>
      rw [hp] at h
      cases r with
      | none => exact h
      | some r => exact h.trans (ih r s')

/-- A frame is fed, and the transfer it completes passed on. -/
theorem attests_deliver (receiver : Receiver R) {i : Fin R} {frame : CanardFrame}
    {transfer : CanardRxTransfer} (h : Completes own i frame transfer) {s s' : OpenCyphal C τ R}
    {result : ℤ} (hfed : s'.events = s.events ++ [.rxAccept i frame result]) :
    Attests own s (deliver i transfer 0 [receiver] s') := by
  cases hc : s'.crashed with
  | some fault =>
    rw [deliver_of_crashed _ _ _ hc]
    exact (undelivered_one hfed rfl).attests
  | none =>
    rw [deliver_of_running _ _ _ hc]
    have hpassed : Attests own s (s'.record (.process 0 i transfer)) := by
      refine ⟨_, ?_, attested_completed h result 0⟩
      rw [record, hfed, List.append_assoc]
      rfl
    exact hpassed.trans (undelivered_run _ _).attests

theorem attests_receive (receiver : Receiver R) (answer : ℤ × CanardFrame)
    (time : CanardMicrosecond) (i : Fin R) {s : OpenCyphal C τ R} (h : own s.inst) :
    Attests own s (receive [receiver] answer time i s).state := by
  cases ht : s.transceiver i with
  | none =>
    simp only [receive, ht]
    exact (undelivered_same rfl).attests
  | some t =>
    have hread : Undelivered s (s.record (.receive i answer.1)) := undelivered_one rfl rfl
    simp only [receive, ht]
    by_cases hzero : answer.1 = 0
    · simp only [if_pos hzero]
      exact hread.attests
    by_cases hneg : answer.1 < 0
    · simp only [if_neg hzero, if_pos hneg]
      exact hread.attests
    simp only [if_neg hzero, if_neg hneg]
    have hmade (hpos :
        0 < (C.canardRxAccept (s.record (.receive i answer.1)).inst time answer.2 i).result) :
        Completes own i answer.2
          (C.canardRxAccept (s.record (.receive i answer.1)).inst time answer.2 i).transfer :=
      ⟨s.inst, time, h, hpos, rfl⟩
    generalize C.canardRxAccept (s.record (.receive i answer.1)).inst time answer.2 i = r at hmade ⊢
    have hfed : Undelivered (s.record (.receive i answer.1)) { s.record (.receive i answer.1) with
        inst := r.ins
        events := (s.record (.receive i answer.1)).events ++ [.rxAccept i answer.2 r.result] } :=
      undelivered_one rfl rfl
    by_cases hpos : r.result > 0
    · simp only [if_pos hpos]
      split_ifs
      · exact hread.attests.trans (attests_deliver receiver (hmade hpos) rfl)
      · exact (hread.attests.trans (attests_deliver receiver (hmade hpos) rfl)).trans
          (undelivered_one rfl rfl).attests
    · simp only [if_neg hpos]
      split_ifs
      · exact (hread.trans hfed).attests
      · exact (hread.trans hfed).attests

theorem attests_serveInterface (receiver : Receiver R) (answers : Answers R)
    (time : CanardMicrosecond) (i : Fin R) (hown : Lasting own) {s : OpenCyphal C τ R}
    (h : own s.inst) : Attests own s (serveInterface [receiver] answers time i s).state := by
  obtain ⟨evs, hevents, hquiet⟩ := transmit_quiet (answers.send i) time i s
  have hsent : Undelivered s (transmit (answers.send i) time i s).1 :=
    ⟨evs, hevents, fun e he => (hquiet e he).2⟩
  have hinst := (atomically_transmit (answers.send i) time i s).lasting hown h
  unfold serveInterface
  cases htx : transmit (answers.send i) time i s with
  | mk s' exit =>
    rw [htx] at hsent hinst
    have hread := hsent.attests.trans (attests_receive receiver (answers.receive i) time i hinst)
    match exit with
    | none => exact hsent.attests
    | some (.failed r) => exact hsent.attests
    | some .full => exact hread
    | some .drained => exact hread

theorem attests_handle (receiver : Receiver R) (answers : Answers R) (time : CanardMicrosecond)
    (hown : Lasting own) {s : OpenCyphal C τ R} (h : own s.inst) :
    Attests own s (OpenCyphal.handleTxRxQueues [receiver] answers time s).1 := by
  cases hc : s.crashed with
  | some fault =>
    simp only [OpenCyphal.handleTxRxQueues, hc]
    exact .refl s
  | none =>
    rw [handleTxRxQueues_of_running _ _ _ hc]
    have hbody (i : Fin R) (s : OpenCyphal C τ R) : own s.inst →
        own (serveInterface [receiver] answers time i s).state.inst ∧
          Attests own s (serveInterface [receiver] answers time i s).state := fun h =>
      ⟨(atomically_serveInterface [receiver] answers time i s).lasting hown h,
        attests_serveInterface receiver answers time i hown h⟩
    exact (forLoop_rel (P := fun s s' : OpenCyphal C τ R =>
        own s.inst → own s'.inst ∧ Attests own s s') (fun s h => ⟨h, .refl s⟩)
      (fun {a b c} hab hbc h => ⟨(hbc (hab h).1).1, (hab h).2.trans (hbc (hab h).1).2⟩)
      (fun i _ => hbody i) s h).2

theorem undelivered_execute (L : TxLaws C) (env : TaskEnv) (time : UInt64) (task : NodeTask)
    (node : NodeCore C τ R) : Undelivered node.base (task.execute env time node).2.base := by
  obtain ⟨evs, hpub⟩ := task.published_execute L env time node
  obtain ⟨payload, hpush⟩ := hpub.pushes
  refine ⟨evs, hpub.grows.events, fun e he => ?_⟩
  obtain ⟨i, r, frames, rfl, -⟩ := hpush e he
  rfl

/-- A command passes on what it completes. -/
theorem attests_command (L : TxLaws C) (hown : Lasting own) (command : NodeCommand τ R)
    {node : Node C τ R} (h : own node.host.base.inst) :
    Attests own node.host.base (command.run node).host.base := by
  cases command with
  | startNode startedAt => exact .refl _
  | schedule nextRun task constructed => exact .refl _
  | addTransceiver transceiver =>
    exact (undelivered_same (addTransceiver_frame node.host.base transceiver).2.1).attests
  | subscribe kind portId extent timeout =>
    refine (undelivered_same ?_).attests
    change (node.host.base.subscribe kind portId extent timeout).1.events = _
    unfold subscribe
    split <;> rfl
  | checkScheduler env time =>
    exact ((checkScheduler_rel (K := nodeTasks C τ R)
      (Q := fun host host' => Undelivered host.base host'.base) (fun _ => undelivered_same rfl)
      (fun h h' => h.trans h') (fun env time body host =>
        undelivered_execute L env time body host) node env time).1).attests
  | handleTxRxQueues ans clock time => exact attests_handle _ ans time hown h

/-- The transfers of a node are made of frames by its own instance. -/
def Genuine (own : C.Instance → Prop) (node : Node C τ R) : Prop :=
  own node.host.base.inst ∧ Attested own node.host.base.events

theorem genuine_equipped (hown : Lasting own) (setup : NodeSetup τ) (more : List τ)
    (hinit : own (C.canardInit setup.nodeId)) :
    Genuine own (setup.equipped more : Node C τ R) := by
  refine ⟨equipped_inst hown setup more hinit, ?_⟩
  rw [equipped_events]
  exact attested_of_undelivered (List.forall_mem_nil _)

theorem genuine_command (L : TxLaws C) (hown : Lasting own) {node : Node C τ R}
    (h : Genuine own node) (command : NodeCommand τ R) : Genuine own (command.run node) := by
  obtain ⟨evs, hevents, hevs⟩ := attests_command L hown command h.1
  refine ⟨(atomically_command command node).lasting hown h.1, ?_⟩
  rw [hevents]
  exact h.2.append hevs

theorem sound_equipped (L : TxLaws C) (hrx : RxLaws C) {setup : NodeSetup τ}
    (hname : setup.info.name.count ≤ getInfoNameCapacity) (more : List τ) :
    Sound setup.latency.isSome (setup.equipped more : Node C τ R) := by
  unfold NodeSetup.equipped
  induction more using List.reverseRecOn with
  | nil => exact sound_node hname
  | append_singleton more transceiver ih =>
    rw [List.foldl_append]
    exact sound_command L hrx ih (.addTransceiver transceiver)

/-- The metadata of a transfer as it arrives: the remote node is now the source, and five bits of
the transfer-ID were on the wire. -/
def CanardTransferMetadata.received (metadata : CanardTransferMetadata) (source : CanardNodeID) :
    CanardTransferMetadata :=
  { metadata with remoteNodeId := source, transferId := metadata.transferId % 32 }

/-- The node-ID the others see. A node whose ID is out of range is anonymous. -/
def wireNodeId (nodeId : CanardNodeID) : CanardNodeID :=
  if nodeId ≤ 127 then nodeId else canardNodeIdUnset

/-- A frame of libcanard tells the metadata of its transfer. One of a service transfer completes
nothing at nodes it is not addressed to. -/
structure FrameLaws (C : Canard) where
  nodeId : C.Instance → CanardNodeID
  init_nodeId : ∀ id, nodeId (C.canardInit id) = wireNodeId id
  lasting : ∀ id, Lasting fun ins => nodeId ins = id
  rxAccept_metadata : ∀ que ins deadline metadata payload,
    0 ≤ (C.canardTxPush que ins deadline metadata payload).result →
      ∀ item ∈ C.txFrames que ins deadline metadata payload, ∀ ins' timestamp ifidx,
        0 < (C.canardRxAccept ins' timestamp item.frame ifidx).result →
          (C.canardRxAccept ins' timestamp item.frame ifidx).transfer.metadata =
              metadata.received (nodeId ins) ∧
            (metadata.transferKind = .message ∨ metadata.remoteNodeId = nodeId ins')

variable {ι : Type}

/-- The transfer was made of a frame of bus `i` that its sender had built of a transfer it
published to all nodes or to `n`. -/
def Conveys (setup : ι → NodeSetup SocketCANTransceiver) (net : BusNetwork ι C R) (i : Fin R)
    (n : ι) (x : ι × CanardFrame) (transfer : CanardRxTransfer) : Prop :=
  ∃ deadline metadata payload result frames, 0 ≤ result ∧
    .push i deadline metadata payload result frames ∈ (net.nodes x.1).host.base.events ∧
    (∃ item ∈ frames, item.frame = x.2) ∧
    transfer.metadata = metadata.received (wireNodeId (setup x.1).nodeId) ∧
    (metadata.transferKind = .message ∨ metadata.remoteNodeId = wireNodeId (setup n).nodeId)

theorem Traced.conveys (F : FrameLaws C) {setup : ι → NodeSetup SocketCANTransceiver}
    {net : BusNetwork ι C R} {x : ι × CanardFrame}
    (h : Traced L (fun ins => F.nodeId ins = wireNodeId (setup x.1).nodeId)
      (net.nodes x.1).host.base) {i : Fin R}
    (hframe : x.2 ∈
      ((net.nodes x.1).host.base.events.flatMap (Event.accepted i)).map (·.frame)) {n : ι}
    {transfer : CanardRxTransfer}
    (hmade : Completes (fun ins => F.nodeId ins = wireNodeId (setup n).nodeId) i x.2 transfer) :
    Conveys setup net i n x transfer := by
  obtain ⟨item, hitem, hx⟩ := List.mem_map.mp hframe
  obtain ⟨que, ins, deadline, metadata, payload, frames, hins, hpush, hin, hresult, hbuilt⟩ :=
    h.origin hitem
  obtain ⟨ins', time, hins', hpos, htransfer⟩ := hmade
  rw [← hx] at hpos htransfer
  obtain ⟨hmetadata, haddressed⟩ := F.rxAccept_metadata que ins deadline metadata payload hresult
    item hbuilt ins' time i hpos
  refine ⟨deadline, metadata, payload, _, frames, hresult, hpush, ⟨item, hin, hx⟩, ?_, ?_⟩
  · rw [htransfer, hmetadata, hins]
  · rw [← hins']
    exact haddressed

variable [DecidableEq ι]

/-- On a bus on which only the nodes write, each node processes transfers of the others, in the
order of their frames. -/
theorem transfers_conveyed (L : TxLaws C) (hrx : RxLaws C)
    (F : FrameLaws C) {setup : ι → NodeSetup SocketCANTransceiver}
    {more : ι → List SocketCANTransceiver}
    (hname : ∀ n, (setup n).info.name.count ≤ getInfoNameCapacity)
    (hfull : ∀ n, R ≤ 1 + (more n).length) {net : BusNetwork ι C R}
    (hrun : Relation.ReflTransGen BusStep (.start setup more) net) {i : Fin R}
    (hclosed : ∀ entry ∈ (net.buses i).entries, entry.sender ≠ none) :
    ∃ order, Ordered net i order ∧ ∀ n, ∃ sources, sources.Sublist (order.filter (·.1 ≠ n)) ∧
      List.Forall₂ (Conveys setup net i n) sources
        ((net.nodes n).host.base.events.filterMap (Event.processed i)) := by
  have hown (n : ι) := F.lasting (wireNodeId (setup n).nodeId)
  have hinit (n : ι) := F.init_nodeId (setup n).nodeId
  have htraced := reachable_traced L hrx hown hinit hname hfull hrun
  have hordered := (reachable_delivering L hrx hname hfull hrun).ordered htraced hclosed
  have hgenuine := reachable_nodes
    (P := fun n => Genuine fun ins => F.nodeId ins = wireNodeId (setup n).nodeId)
    (fun n => genuine_equipped (hown n) (setup n) (more n) (hinit n))
    (fun n _ h => genuine_command L (hown n) h) hrun
  refine ⟨_, hordered, fun n => ?_⟩
  obtain ⟨frames, hfed, hmade⟩ := (hgenuine n).2 i
  obtain ⟨sources, hsources, rfl⟩ :=
    List.sublist_map_iff.mp (hfed.trans (hordered.received n))
  refine ⟨sources, hsources, ?_⟩
  have hsent : ∀ x ∈ sources, x.2 ∈
      ((net.nodes x.1).host.base.events.flatMap (Event.accepted i)).map (·.frame) := by
    intro x hx
    rw [← hordered.sent x.1]
    have horder := (List.mem_filter.mp (hsources.subset hx)).1
    exact List.mem_map_of_mem (List.mem_filter.mpr ⟨horder, decide_eq_true rfl⟩)
  refine ((List.forall₂_and_left sources _).mpr ⟨hsent, List.forall₂_map_left_iff.mp hmade⟩).imp ?_
  exact fun x transfer h => (htraced x.1).conveys F h.1 h.2

/-- What was conveyed came from another node. -/
theorem mem_conveyed {setup : ι → NodeSetup SocketCANTransceiver} {net : BusNetwork ι C R}
    {i : Fin R} {n : ι} {order sources : List (ι × CanardFrame)} {transfers : List CanardRxTransfer}
    (hsources : sources.Sublist (order.filter (·.1 ≠ n)))
    (h : List.Forall₂ (Conveys setup net i n) sources transfers) {transfer : CanardRxTransfer}
    (hmem : transfer ∈ transfers) : ∃ x : ι × CanardFrame, x.1 ≠ n ∧
      Conveys setup net i n x transfer := by
  induction h with
  | nil => cases hmem
  | @cons x transfer' sources transfers hx _ ih =>
    rcases List.mem_cons.mp hmem with rfl | hmem
    · have hx' := (List.mem_filter.mp (hsources.subset List.mem_cons_self)).2
      exact ⟨x, of_decide_eq_true hx', hx⟩
    · exact ih ((List.sublist_cons_self x sources).trans hsources) hmem

/-- An answer is that to a request which was processed on the interface. -/
theorem mem_answers {measures : Bool} {evs : List (Event R)} {i : Fin R}
    {deadline : CanardMicrosecond} {metadata : CanardTransferMetadata}
    (h : (i, deadline, metadata) ∈ answers measures evs) :
    ∃ request ∈ evs.filterMap (Event.processed i), request.metadata.transferKind = .request ∧
      metadata = { request.metadata with transferKind := .response } := by
  obtain ⟨⟨j, request⟩, hdelivered, hanswers⟩ := List.mem_filterMap.mp h
  unfold answer at hanswers
  split_ifs at hanswers with hrequest
  simp only [Option.some.injEq, Prod.mk.injEq] at hanswers
  obtain ⟨rfl, -, hmetadata⟩ := hanswers
  exact ⟨request, mem_processed.mpr hdelivered, hrequest.1, hmetadata.symm⟩

/-- The node has published a request to the node `remote`, as which it takes the transfer. -/
def Requests (node : Node C τ R) (i : Fin R) (remote : CanardNodeID)
    (received : CanardTransferMetadata) : Prop :=
  ∃ deadline metadata payload result frames, 0 ≤ result ∧
    .push i deadline metadata payload result frames ∈ node.host.base.events ∧
    metadata.transferKind = .request ∧ metadata.remoteNodeId = remote ∧
    metadata.received received.remoteNodeId = received

/-- On a bus on which only the nodes write, and each of them with a node-ID of its own, a node that
processes a response has published a request with its port, priority and transfer-ID, and the node
it names has processed this request. -/
theorem responses_solicited (L : TxLaws C) (hrx : RxLaws C)
    (F : FrameLaws C) {setup : ι → NodeSetup SocketCANTransceiver}
    {more : ι → List SocketCANTransceiver}
    (hname : ∀ n, (setup n).info.name.count ≤ getInfoNameCapacity)
    (hfull : ∀ n, R ≤ 1 + (more n).length)
    (hunique : Function.Injective fun n => wireNodeId (setup n).nodeId) {net : BusNetwork ι C R}
    (hrun : Relation.ReflTransGen BusStep (.start setup more) net) {i : Fin R}
    (hclosed : ∀ entry ∈ (net.buses i).entries, entry.sender ≠ none) {n : ι}
    {response : CanardRxTransfer} (hresponse : response ∈
      (net.nodes n).host.base.events.filterMap (Event.processed i))
    (hkind : response.metadata.transferKind = .response) :
    ∃ m ≠ n, response.metadata.remoteNodeId = wireNodeId (setup m).nodeId ∧
      ∃ request ∈ (net.nodes m).host.base.events.filterMap (Event.processed i),
        request.metadata = { response.metadata with
          transferKind := .request, remoteNodeId := wireNodeId (setup n).nodeId } ∧
        Requests (net.nodes n) i (wireNodeId (setup m).nodeId) request.metadata := by
  obtain ⟨order, -, hconveyed⟩ := transfers_conveyed L hrx F hname hfull hrun hclosed
  have horigin (k : ι) (transfer : CanardRxTransfer)
      (h : transfer ∈ (net.nodes k).host.base.events.filterMap (Event.processed i)) :
      ∃ x : ι × CanardFrame, x.1 ≠ k ∧ Conveys setup net i k x transfer := by
    obtain ⟨sources, hsources, hmade⟩ := hconveyed k
    exact mem_conveyed hsources hmade h
  have hsound (m : ι) := reachable_nodes (P := fun n => Sound (setup n).latency.isSome)
    (fun n => sound_equipped L hrx (hname n) (more n))
    (fun n _ h command => sound_command L hrx h command) hrun m
  obtain ⟨⟨m, frame⟩, hm, deadline, metadata, payload, result, frames, -, hpush, -, hreceived,
    haddressed⟩ := horigin n response hresponse
  have hmetadata : metadata.transferKind = .response := by
    rw [hreceived] at hkind
    exact hkind
  -- the response was an answer, and so it names the node the request came from
  have hanswer : (i, deadline, metadata) ∈ answers (setup m).latency.isSome
      (net.nodes m).host.base.events := by
    rw [← (hsound m).host.responses]
    exact List.mem_filter.mpr ⟨List.mem_filterMap.mpr ⟨_, hpush, rfl⟩, decide_eq_true hmetadata⟩
  obtain ⟨request, hrequest, hasked, hmetadata⟩ := mem_answers hanswer
  obtain ⟨⟨m', frame'⟩, -, deadline', metadata', payload', result', frames', hresult, hpush', -,
    hreceived', haddressed'⟩ := horigin m request hrequest
  have hremote : request.metadata.remoteNodeId = wireNodeId (setup n).nodeId := by
    rw [hmetadata] at haddressed
    exact haddressed.resolve_left nofun
  have hm' : m' = n := by
    apply hunique
    rw [hreceived'] at hremote
    exact hremote
  subst hm'
  have hkind' : metadata'.transferKind = .request := by
    rw [hreceived'] at hasked
    exact hasked
  have hshort : request.metadata.transferId % 32 = request.metadata.transferId := by
    rw [hreceived', ← UInt8.toNat_inj]
    change (metadata'.transferId % 32 % 32).toNat = (metadata'.transferId % 32).toNat
    rw [UInt8.toNat_mod, UInt8.toNat_mod]
    exact Nat.mod_mod _ _
  refine ⟨m, hm, by rw [hreceived]; rfl, request, hrequest, ?_, deadline', metadata', payload',
    result', frames', hresult, hpush', hkind', ?_, ?_⟩
  · rw [hreceived, hmetadata]
    unfold CanardTransferMetadata.received
    rw [hshort, ← hasked, ← hremote]
  · rw [hkind'] at haddressed'
    exact haddressed'.resolve_left nofun
  · rw [hremote]
    exact hreceived'.symm

-- A request and its response on a bus of two nodes.

def measuringSetup (requests : Bool) : NodeSetup SocketCANTransceiver :=
  { busSetup requests with latency := some fun _ => 0, nextRun := 1000000000 }

def requestItem : CanardTxQueueItem := ⟨1004, ⟨0x07400101, [0xE0], by decide⟩⟩

def responseItem : CanardTxQueueItem := ⟨1000007, ⟨0x06400082, [0xE0], by decide⟩⟩

def measuredResponse : CanardRxTransfer :=
  ⟨⟨.immediate, .response, latencyMeasurementPortId, 2, 0⟩, 9, some []⟩

def measurementCommands : List (Bool × NodeCommand SocketCANTransceiver 1) :=
  [(true, .startNode 0),
    (true, .schedule 5 measurementTask measurementTask_constructed),
    (true, .subscribe .response latencyMeasurementPortId 0 2000000),
    (false, .subscribe .request latencyMeasurementPortId 0 2000000),
    (true, .checkScheduler (fun _ => quietEnv) 5)]

def preparedBus : BusNetwork Bool SingleFrame.strictCanard 1 :=
  measurementCommands.foldl (fun net x => net.setNode x.1 (x.2.run (net.nodes x.1)))
    (.start measuringSetup fun _ => [])

def readAnswers (frame : CanardFrame) : Answers 1 := ⟨fun _ _ => 1, fun _ => (1, frame)⟩

def requestedBus : BusNetwork Bool SingleFrame.strictCanard 1 :=
  preparedBus.called true quietTraffic
    (NodeCommand.run (preparedBus.nodes true) (.handleTxRxQueues sendingAnswers (fun _ => 0) 6))

def servedBus : BusNetwork Bool SingleFrame.strictCanard 1 :=
  requestedBus.called false quietTraffic (NodeCommand.run (requestedBus.nodes false)
    (.handleTxRxQueues (readAnswers requestItem.frame) (fun _ => 0) 7))

def respondedBus : BusNetwork Bool SingleFrame.strictCanard 1 :=
  servedBus.called false quietTraffic
    (NodeCommand.run (servedBus.nodes false) (.handleTxRxQueues sendingAnswers (fun _ => 0) 8))

def measuredBus : BusNetwork Bool SingleFrame.strictCanard 1 :=
  respondedBus.called true quietTraffic (NodeCommand.run (respondedBus.nodes true)
    (.handleTxRxQueues (readAnswers responseItem.frame) (fun _ => 0) 9))

theorem requestedBus_answered :
    preparedBus.Answered true quietTraffic sendingAnswers
      [.send 0 6 requestItem 1, .release (some (.txItem requestItem)), .receive 0 0] :=
  answered_sending rfl rfl rfl rfl

theorem servedBus_answered :
    requestedBus.Answered false quietTraffic (readAnswers requestItem.frame)
      [.receive 0 1, .rxAccept 0 requestItem.frame 1,
        .process 0 0 ⟨⟨.immediate, .request, latencyMeasurementPortId, 1, 0⟩, 7, some []⟩,
        .push 0 1000007 ⟨.immediate, .response, latencyMeasurementPortId, 1, 0⟩ [] 1 [responseItem],
        .release (some (.rxPayload []))] := by
  constructor
  · intro i k item r he
    cases he
  · intro i r he
    rw [Subsingleton.elim i 0]
    exact ⟨_, ⟨1, some requestItem.frame, some 1000000, none⟩, rfl, rfl, rfl⟩

theorem respondedBus_answered :
    servedBus.Answered false quietTraffic sendingAnswers
      [.send 0 8 responseItem 1, .release (some (.txItem responseItem)), .receive 0 0] :=
  answered_sending rfl rfl rfl rfl

theorem measuredBus_answered :
    respondedBus.Answered true quietTraffic (readAnswers responseItem.frame)
      [.receive 0 1, .rxAccept 0 responseItem.frame 1, .process 0 0 measuredResponse,
        .log (.latency 2 0 0), .release (some (.rxPayload []))] := by
  constructor
  · intro i k item r he
    cases he
  · intro i r he
    rw [Subsingleton.elim i 0]
    exact ⟨_, ⟨1, some responseItem.frame, some 1000000, none⟩, rfl, rfl, rfl⟩

theorem preparedBus_reachable :
    Relation.ReflTransGen BusStep (.start measuringSetup fun _ => []) preparedBus := by
  have hoff : ∀ x ∈ measurementCommands, ¬x.2.Communicates := by
    simp [measurementCommands, NodeCommand.Communicates]
  unfold preparedBus
  generalize (.start measuringSetup fun _ => [] : BusNetwork Bool SingleFrame.strictCanard 1) = net
  generalize measurementCommands = commands at hoff
  induction commands generalizing net with
  | nil => exact .refl
  | cons x commands ih =>
    obtain ⟨hx, hoff⟩ := List.forall_mem_cons.mp hoff
    exact .head (.command x.1 x.2 hx) (ih _ hoff)

theorem measuredBus_reachable :
    Relation.ReflTransGen BusStep (.start measuringSetup fun _ => []) measuredBus :=
  (((preparedBus_reachable.tail
    (.call true quietTraffic sendingAnswers (fun _ => 0) 6 _ rfl requestedBus_answered)).tail
    (.call false quietTraffic (readAnswers requestItem.frame) (fun _ => 0) 7 _ rfl
      servedBus_answered)).tail
    (.call false quietTraffic sendingAnswers (fun _ => 0) 8 _ rfl respondedBus_answered)).tail
    (.call true quietTraffic (readAnswers responseItem.frame) (fun _ => 0) 9 _ rfl
      measuredBus_answered)

theorem wireNodeId_masked (bits : UInt32) :
    wireNodeId (bits &&& 0x7F).toUInt8 = (bits &&& 0x7F).toUInt8 := by
  refine if_pos (UInt8.le_iff_toNat_le.mpr ?_)
  have hbits : (bits &&& 0x7F).toNat ≤ 127 := by
    rw [UInt32.toNat_and]
    exact Nat.and_le_right
  rw [UInt32.toNat_toUInt8]
  exact (Nat.mod_le _ _).trans hbits

def strictFrameLaws : FrameLaws SingleFrame.strictCanard where
  nodeId ins := wireNodeId ins.nodeId
  init_nodeId _ := rfl
  lasting id :=
    { txPush := fun que ins deadline metadata payload h =>
        (congrArg wireNodeId
          (SingleFrame.strictPush_nodeId que ins deadline metadata payload)).trans h
      rxAccept := fun ins timestamp frame _ h =>
        (congrArg (wireNodeId ·.nodeId) (SingleFrame.rxAccept_ins ins timestamp frame)).trans h
      rxSubscribe := fun _ _ _ _ _ h => h
      memoryFree := fun _ _ h => h }
  rxAccept_metadata _ ins _ metadata _ hresult item hitem ins' timestamp _ hpos := by
    rw [List.mem_singleton.mp hitem] at hpos ⊢
    have hvalid := (SingleFrame.strictPush_eq hresult).1
    obtain ⟨hmetadata, haddressed⟩ := SingleFrame.rxAccept_txItem hvalid hpos
    have hsource : wireNodeId ins.nodeId = ins.nodeId := by
      have hparsed := congrArg (·.remoteNodeId) hvalid.2.1
      rw [← show _ = ins.nodeId from hparsed]
      exact wireNodeId_masked _
    refine ⟨?_, ?_⟩
    · rw [hsource]
      exact hmetadata
    · rcases haddressed with hmessage | hself
      · exact .inl hmessage
      · refine hvalid.2.2.imp_right fun hremote => ?_
        rw [← hself, ← hremote]
        exact (wireNodeId_masked _).symm

theorem measuredBus_closed : ∀ entry ∈ (measuredBus.buses 0).entries, entry.sender ≠ none := by
  have hentries : (measuredBus.buses 0).entries =
      [⟨some true, canFdFrameOf requestItem.frame, fun _ => true⟩,
        ⟨some false, canFdFrameOf responseItem.frame, fun _ => true⟩] := rfl
  rw [hentries]
  simp

theorem measuredBus_processed :
    (measuredBus.nodes true).host.base.events.filterMap (Event.processed 0) = [measuredResponse] :=
  rfl

theorem transfers_conveyed_measured :
    ∃ order, Ordered measuredBus 0 order ∧ ∀ n, ∃ sources,
      sources.Sublist (order.filter (·.1 ≠ n)) ∧
        List.Forall₂ (Conveys measuringSetup measuredBus 0 n) sources
          ((measuredBus.nodes n).host.base.events.filterMap (Event.processed 0)) :=
  transfers_conveyed SingleFrame.strictTxLaws SingleFrame.strictRxLaws
    strictFrameLaws (by decide) (by decide) measuredBus_reachable measuredBus_closed

theorem responses_solicited_measured :
    ∃ m ≠ true, measuredResponse.metadata.remoteNodeId = wireNodeId (measuringSetup m).nodeId ∧
      ∃ request ∈ (measuredBus.nodes m).host.base.events.filterMap (Event.processed 0),
        request.metadata = { measuredResponse.metadata with
          transferKind := .request, remoteNodeId := wireNodeId (measuringSetup true).nodeId } ∧
        Requests (measuredBus.nodes true) 0 (wireNodeId (measuringSetup m).nodeId)
          request.metadata :=
  responses_solicited SingleFrame.strictTxLaws SingleFrame.strictRxLaws
    strictFrameLaws (by decide) (by decide) (by decide) measuredBus_reachable measuredBus_closed
    (measuredBus_processed ▸ List.mem_singleton_self _) rfl

end CyphalOnboard
