import CyphalOnboard.Configuration
import CyphalOnboard.NodeSpec
import CyphalOnboard.Periods
import Mathlib.Algebra.BigOperators.Group.Finset.Basic
import Mathlib.Algebra.Order.BigOperators.Group.Finset

namespace CyphalOnboard

open EarlyExit OpenCyphal

variable {C : Canard} {τ : Type} {R : ℕ} {L : TxLaws C}

def answers (measures : Bool) (evs : List (Event R)) :
    List (Fin R × CanardMicrosecond × CanardTransferMetadata) :=
  (evs.filterMap Event.delivered).filterMap fun x => answer measures x.1 x.2

/-- What is pushed are the answers to what is delivered, in order. -/
def Answering (measures : Bool) (evs : List (Event R)) : Prop :=
  evs.filterMap Event.pushed = answers measures evs

theorem Answering.append {measures : Bool} {evs evs' : List (Event R)}
    (h : Answering measures evs) (h' : Answering measures evs') :
    Answering measures (evs ++ evs') := by
  unfold Answering answers at *
  simp only [List.filterMap_append, h, h']

def Event.Quiet (e : Event R) : Prop := e.pushed = none ∧ e.delivered = none

theorem answering_of_quiet {evs : List (Event R)} (h : ∀ e ∈ evs, e.Quiet) (measures : Bool) :
    Answering measures evs := by
  have hpushed : evs.filterMap Event.pushed = [] :=
    List.filterMap_eq_nil_iff.mpr fun e he => (h e he).1
  have hdelivered : evs.filterMap Event.delivered = [] :=
    List.filterMap_eq_nil_iff.mpr fun e he => (h e he).2
  unfold Answering answers
  rw [hpushed, hdelivered, List.filterMap_nil]

/-- On the way from `s` to `s'` the node has published its answers and nothing else. -/
def Answered (measures : Bool) (s s' : OpenCyphal C τ R) : Prop :=
  ∃ evs, s'.events = s.events ++ evs ∧ Answering measures evs

theorem Answered.refl (measures : Bool) (s : OpenCyphal C τ R) : Answered measures s s :=
  ⟨[], by simp, rfl⟩

theorem Answered.trans {measures : Bool} {s s' s'' : OpenCyphal C τ R}
    (h : Answered measures s s') (h' : Answered measures s' s'') : Answered measures s s'' := by
  obtain ⟨evs, he, ha⟩ := h
  obtain ⟨evs', he', ha'⟩ := h'
  exact ⟨evs ++ evs', by rw [he', he, List.append_assoc], ha.append ha'⟩

theorem Answered.of_quiet {s s' : OpenCyphal C τ R} (evs : List (Event R))
    (he : s'.events = s.events ++ evs) (h : ∀ e ∈ evs, e.Quiet) (measures : Bool) :
    Answered measures s s' :=
  ⟨evs, he, answering_of_quiet h measures⟩

/-- A silent reaction writes to the log only. -/
theorem Reaction.Silent.run {reaction : Reaction R} (h : reaction.Silent) (s : OpenCyphal C τ R) :
    ∃ evs, reaction.run s = { s with events := s.events ++ evs } ∧ ∀ e ∈ evs, e.Quiet := by
  induction reaction generalizing s with
  | done => exact ⟨[], by simp [Reaction.run], by simp⟩
  | crash fault => exact h.elim
  | log entry k ih =>
    obtain ⟨evs, heq, hquiet⟩ := ih h (s.record (.log entry))
    refine ⟨.log entry :: evs, ?_, List.forall_mem_cons.mpr ⟨⟨rfl, rfl⟩, hquiet⟩⟩
    rw [Reaction.run, heq]
    simp only [record, List.append_assoc, List.singleton_append]
  | publish ifidx deadline metadata payload k ih => exact h.elim

/-- An answering reaction pushes its answer, on a queue that is initialised. -/
theorem Reaction.Answers.run (L : TxLaws C) {reaction : Reaction R}
    {a : Option (Fin R × CanardMicrosecond × CanardTransferMetadata)} (h : reaction.Answers a)
    {s : OpenCyphal C τ R} (hc : s.crashed = none)
    (hq : ∀ x ∈ a, (s.txQueues x.1).isSome) :
    ∃ evs, (reaction.run s).events = s.events ++ evs ∧
      evs.filterMap Event.pushed = a.toList ∧ evs.filterMap Event.delivered = [] := by
  have hquiet {evs : List (Event R)} (h : ∀ e ∈ evs, e.Quiet) :
      evs.filterMap Event.pushed = [] ∧ evs.filterMap Event.delivered = [] :=
    ⟨List.filterMap_eq_nil_iff.mpr fun e he => (h e he).1,
      List.filterMap_eq_nil_iff.mpr fun e he => (h e he).2⟩
  match a, h with
  | none, h =>
    obtain ⟨evs, heq, hevs⟩ := Reaction.Silent.run h s
    exact ⟨evs, by rw [heq], (hquiet hevs).1, (hquiet hevs).2⟩
  | some (i, deadline, metadata), ⟨payload, k, heq, hk⟩ =>
    subst heq
    have hi : (s.txQueues i).isSome := hq _ rfl
    obtain ⟨r, frames, hpush, -⟩ := publishOn_events L hc hi deadline metadata payload
    obtain ⟨-, hsome⟩ := publishOn_running hc deadline metadata payload hi
    simp only [Reaction.run, publishVia]
    cases hp : s.publishOn deadline metadata payload i with
    | mk s' res =>
      rw [hp] at hpush hsome
      obtain ⟨res, rfl⟩ := Option.isSome_iff_exists.mp hsome
      obtain ⟨evs, hrun, hevs⟩ := Reaction.Silent.run (hk res) s'
      refine ⟨.push i deadline metadata payload r frames :: evs, ?_, ?_, ?_⟩
      · have hpush' : s'.events = s.events ++ [.push i deadline metadata payload r frames] := hpush
        change ((k res).run s').events = _
        rw [hrun]
        simp only [hpush', List.append_assoc, List.singleton_append]
      · rw [List.filterMap_cons, (hquiet hevs).1]
        rfl
      · rw [List.filterMap_cons, (hquiet hevs).2]
        rfl

/-- Slots that are filled have initialised queues. -/
def Wired (s : OpenCyphal C τ R) : Prop :=
  ∀ i, (s.transceiver i).isSome → (s.txQueues i).isSome

theorem Wired.of_shape {s s' : OpenCyphal C τ R} (h : Wired s) (hs : SameShape s s') :
    Wired s' := by
  intro i hi
  rw [hs.initialised]
  rw [hs.transceiver] at hi
  exact h i hi

theorem answer_interface {measures : Bool} {i : Fin R} {transfer : CanardRxTransfer} :
    ∀ x ∈ answer measures i transfer, x.1 = i := by
  unfold answer
  split_ifs with h
  · rintro x hx
    rw [← Option.some.inj hx]
  · rintro x hx
    cases hx

theorem deliver_of_running (receiver : Receiver R) (i : Fin R) (transfer : CanardRxTransfer)
    {s : OpenCyphal C τ R} (hc : s.crashed = none) :
    deliver i transfer 0 [receiver] s =
      (receiver i transfer).run (s.record (.process 0 i transfer)) := by
  simp only [deliver, hc]

/-- A transfer delivered to the node is processed once and answered as it should be. -/
theorem deliver_answered (L : TxLaws C) {receiver : Receiver R} {measures : Bool} {i : Fin R}
    {transfer : CanardRxTransfer}
    (ha : (receiver i transfer).Answers (answer measures i transfer)) {s : OpenCyphal C τ R}
    (hq : (s.txQueues i).isSome) : Answered measures s (deliver i transfer 0 [receiver] s) := by
  cases hc : s.crashed with
  | some f =>
    simp only [deliver, hc]
    exact .refl measures s
  | none =>
    obtain ⟨evs, hrun, hpushed, hdelivered⟩ := Reaction.Answers.run L ha
      (s := s.record (.process 0 i transfer)) hc (fun x hx => by
        rw [answer_interface x hx]
        exact hq)
    rw [deliver_of_running receiver i transfer hc]
    refine ⟨.process 0 i transfer :: evs, ?_, ?_⟩
    · rw [hrun]
      simp only [record, List.append_assoc, List.singleton_append]
    · unfold Answering answers
      rw [List.filterMap_cons, List.filterMap_cons, hpushed, hdelivered]
      simp only [Event.pushed, Event.delivered, List.filterMap_cons, List.filterMap_nil]
      cases answer measures i transfer <;> rfl

/-- The loop over a TX queue neither publishes nor delivers. -/
theorem txLoop_quiet (send : ℕ → ℤ) (time : CanardMicrosecond) (i : Fin R) (fuel n : ℕ)
    (que : C.TxQueue) (s : OpenCyphal C τ R) :
    ∃ evs, (txLoop send time i fuel n que s).1.events = s.events ++ evs ∧
      ∀ e ∈ evs, e.Quiet := by
  induction fuel generalizing n que s with
  | zero => exact ⟨[], by simp [txLoop, crash], by simp⟩
  | succ fuel ih =>
    -- both branches that go on record one event and the release of the item
    have hnext {s' : OpenCyphal C τ R} {e : Event R} (he : e.Quiet)
        (hs : ∃ block, s'.events = s.events ++ [e, .release block]) (m : ℕ) (que' : C.TxQueue) :
        ∃ evs, (txLoop send time i fuel m que' s').1.events = s.events ++ evs ∧
          ∀ e ∈ evs, e.Quiet := by
      obtain ⟨block, hs⟩ := hs
      obtain ⟨evs, hevs, hquiet⟩ := ih m que' s'
      refine ⟨e :: .release block :: evs, ?_, ?_⟩
      · rw [hevs, hs, List.append_assoc]
        rfl
      · exact List.forall_mem_cons.mpr ⟨he, List.forall_mem_cons.mpr ⟨⟨rfl, rfl⟩, hquiet⟩⟩
    unfold txLoop
    cases C.canardTxPeek que with
    | none => exact ⟨[], by simp, by simp⟩
    | some tqi =>
      by_cases hlive : tqi.txDeadlineUsec = 0 ∨ tqi.txDeadlineUsec > time
      · simp only [if_pos hlive]
        cases s.transceiver i with
        | none => exact ⟨[], by simp [crash], by simp⟩
        | some t =>
          simp only
          split_ifs with hzero hneg
          · exact ⟨_, rfl, List.forall_mem_cons.mpr ⟨⟨rfl, rfl⟩, by simp⟩⟩
          · exact ⟨_, rfl, List.forall_mem_cons.mpr ⟨⟨rfl, rfl⟩, by simp⟩⟩
          · refine hnext (e := .send i time tqi (send n)) ⟨rfl, rfl⟩
              ⟨(C.canardTxPop que tqi).1.map .txItem, ?_⟩ _ _
            simp only [popAndFree, release, record, List.append_assoc, List.singleton_append]
      · simp only [if_neg hlive]
        refine hnext (e := .drop i time tqi) ⟨rfl, rfl⟩
          ⟨(C.canardTxPop que tqi).1.map .txItem, ?_⟩ _ _
        simp only [popAndFree, release, record, List.append_assoc, List.singleton_append]

theorem transmit_quiet (send : ℕ → ℤ) (time : CanardMicrosecond) (i : Fin R)
    (s : OpenCyphal C τ R) :
    ∃ evs, (transmit send time i s).1.events = s.events ++ evs ∧ ∀ e ∈ evs, e.Quiet := by
  unfold transmit
  cases s.txQueues i with
  | none => exact ⟨[], by simp [crash], by simp⟩
  | some que => exact txLoop_quiet send time i _ 0 que s

/-- A receiver that answers what libcanard hands it. -/
def AnswersOnArrival (measures : Bool) (receiver : Receiver R) : Prop :=
  ∀ i transfer, transfer.metadata.transferId < 32 →
    (receiver i transfer).Answers (answer measures i transfer)

theorem receive_answered (L : TxLaws C) (hrx : RxLaws C) {receiver : Receiver R} {measures : Bool}
    (ha : AnswersOnArrival measures receiver) (ans : ℤ × CanardFrame) (time : CanardMicrosecond)
    (i : Fin R) {s : OpenCyphal C τ R} (hw : Wired s) :
    Answered measures s (receive [receiver] ans time i s).state := by
  cases hslot : s.transceiver i with
  | none =>
    simp only [receive, hslot, Flow.state_ret]
    exact .of_quiet [] (by simp [crash]) (by simp) measures
  | some t =>
    have hque : (s.txQueues i).isSome := hw i (by rw [hslot]; rfl)
    have hread : Answered measures s (s.record (.receive i ans.1)) :=
      .of_quiet [.receive i ans.1] rfl
        (by simp [Event.Quiet, Event.pushed, Event.delivered]) measures
    have hresult := hrx.rxAccept_transferId (s.record (.receive i ans.1)).inst time ans.2 i
    simp only [receive, hslot]
    generalize C.canardRxAccept (s.record (.receive i ans.1)).inst time ans.2 i = r at hresult
    have hfed : Answered measures s { s.record (.receive i ans.1) with
        inst := r.ins
        events := (s.record (.receive i ans.1)).events ++ [.rxAccept i ans.2 r.result] } :=
      hread.trans (.of_quiet [.rxAccept i ans.2 r.result] rfl
        (by simp [Event.Quiet, Event.pushed, Event.delivered]) measures)
    split_ifs with hzero hneg hpos hcrash hoom
    · exact hread
    · exact hread
    · exact hfed.trans (deliver_answered L (ha i r.transfer (hresult hpos)) hque)
    · refine (hfed.trans (deliver_answered L (ha i r.transfer (hresult hpos)) hque)).trans ?_
      exact .of_quiet [.release (r.transfer.payload.map .rxPayload)] rfl
        (by simp [Event.Quiet, Event.pushed, Event.delivered]) measures
    · exact hfed
    · exact hfed

theorem serve_answered (L : TxLaws C) (hrx : RxLaws C) {receiver : Receiver R} {measures : Bool}
    (ha : AnswersOnArrival measures receiver) (ans : Answers R) (time : CanardMicrosecond)
    (i : Fin R) {s : OpenCyphal C τ R} (hw : Wired s) :
    Answered measures s (serveInterface [receiver] ans time i s).state := by
  obtain ⟨evs, he, hquiet⟩ := transmit_quiet (ans.send i) time i s
  obtain ⟨evs', hv⟩ := visit_transmit L (ans.send i) time i s
  unfold serveInterface
  cases htx : transmit (ans.send i) time i s with
  | mk s' exit =>
    rw [htx] at he hv
    have hsent : Answered measures s s' := .of_quiet evs he hquiet measures
    have hrest := hsent.trans
      (receive_answered L hrx ha (ans.receive i) time i (hw.of_shape hv.shape))
    match exit with
    | none => exact hsent
    | some (.failed r) => exact hsent
    | some .full => exact hrest
    | some .drained => exact hrest

/-- A call of `HandleTxRxQueues` publishes the answers to the transfers it delivers. -/
theorem handle_answered (L : TxLaws C) (hrx : RxLaws C) {receiver : Receiver R} {measures : Bool}
    (ha : AnswersOnArrival measures receiver) (ans : Answers R) (time : CanardMicrosecond)
    {s : OpenCyphal C τ R} (hw : Wired s) :
    Answered measures s (OpenCyphal.handleTxRxQueues [receiver] ans time s).1 ∧
      Wired (OpenCyphal.handleTxRxQueues [receiver] ans time s).1 := by
  obtain ⟨evs, hv⟩ := visit_handleTxRxQueues L [receiver] ans time s
  refine ⟨?_, hw.of_shape hv.shape⟩
  cases hc : s.crashed with
  | some f =>
    simp only [OpenCyphal.handleTxRxQueues, hc]
    exact .refl measures s
  | none =>
    rw [handleTxRxQueues_of_running _ _ _ hc]
    have hbody : ∀ i ∈ List.finRange R, ∀ s : OpenCyphal C τ R, Wired s →
        Wired (serveInterface [receiver] ans time i s).state ∧
          Answered measures s (serveInterface [receiver] ans time i s).state := by
      intro i _ s h
      obtain ⟨evs, hv⟩ := visit_serveInterface L [receiver] ans time i s
      exact ⟨h.of_shape hv.shape, serve_answered L hrx ha ans time i h⟩
    -- the loop keeps the wiring, without which an answer would end the process
    exact (forLoop_rel (P := fun s s' => Wired s → Wired s' ∧ Answered measures s s')
      (fun s h => ⟨h, .refl measures s⟩)
      (fun hab hbc h => ⟨(hbc (hab h).1).1, (hab h).2.trans (hbc (hab h).1).2⟩) hbody s hw).2

/-- A task as its constructor leaves it. -/
def NodeTask.Constructed : NodeTask → Prop
  | heartbeat task => ∃ node interval, task = .construct node interval
  | byteArray task => ∃ portId data size interval,
      TByteArray.construct portId data size interval = .ok task
  | latencyMeasurement task => ∃ portId target interval,
      task = .construct portId target interval

theorem NodeTask.Constructed.kind {task : NodeTask} (h : task.Constructed) :
    task.metadata.transferKind ≠ .response := by
  cases task with
  | heartbeat task => exact nofun
  | byteArray task =>
    obtain ⟨portId, data, size, interval, h⟩ := h
    unfold TByteArray.construct at h
    split_ifs at h
    rw [← Except.ok.inj h]
    exact nofun
  | latencyMeasurement task =>
    obtain ⟨portId, target, interval, rfl⟩ := h
    exact nofun

/-- What is done with a node of a network, in the main loop or while it is set up. -/
inductive NodeCommand (τ : Type) (R : ℕ) where
  | startNode (startedAt : UInt64)
  | schedule (nextRun : UInt64) (task : NodeTask) (constructed : task.Constructed)
  | addTransceiver (transceiver : τ)
  | subscribe (kind : CanardTransferKind) (portId : CanardPortID) (extent : ℕ)
      (timeout : CanardMicrosecond)
  | checkScheduler (env : ℕ → TaskEnv) (time : UInt64)
  | handleTxRxQueues (ans : Answers R) (clock : Fin R → UInt64) (time : CanardMicrosecond)

def NodeCommand.run (node : Node C τ R) : NodeCommand τ R → Node C τ R
  | startNode startedAt => node.startNode startedAt
  | schedule nextRun task _ => node.addTask ⟨nextRun, task⟩
  | addTransceiver transceiver => { node with
      host := { node.host with base := node.host.base.addTransceiver (some transceiver) } }
  | subscribe kind portId extent timeout => { node with
      host := { node.host with base := (node.host.base.subscribe kind portId extent timeout).1 } }
  | checkScheduler env time => (node.checkScheduler env time).1
  | handleTxRxQueues ans clock time => { node with
      host := (node.host.handleTxRxQueues ans clock time).1 }

/-- The responses a node has pushed. -/
def NodeCore.responses (node : NodeCore C τ R) :
    List (Fin R × CanardMicrosecond × CanardTransferMetadata) :=
  (node.base.events.filterMap Event.pushed).filter fun x => x.2.2.transferKind = .response

/-- The requests delivered to a node. -/
def NodeCore.requests (node : NodeCore C τ R) : List (Fin R × CanardRxTransfer) :=
  (node.base.events.filterMap Event.delivered).filter fun x =>
    x.2.metadata.transferKind = .request

/-- The state of a node that keeps the discipline. -/
structure Disciplined (measures : Bool) (node : NodeCore C τ R) : Prop where
  name : node.info.name.count ≤ getInfoNameCapacity
  latency : node.latency.isSome = measures
  wired : Wired node.base
  responses : node.responses = answers measures node.base.events

theorem answers_append (measures : Bool) (evs evs' : List (Event R)) :
    answers measures (evs ++ evs') = answers measures evs ++ answers measures evs' := by
  unfold answers
  rw [List.filterMap_append, List.filterMap_append]

/-- All answers are responses. -/
theorem filter_answers (measures : Bool) (evs : List (Event R)) :
    (answers measures evs).filter (fun x => x.2.2.transferKind = .response) =
      answers measures evs := by
  rw [List.filter_eq_self]
  intro x hx
  obtain ⟨y, -, hy⟩ := List.mem_filterMap.mp hx
  unfold answer at hy
  split_ifs at hy
  rw [← Option.some.inj hy]
  rfl

theorem disciplined_handle (L : TxLaws C) (hrx : RxLaws C) {measures : Bool}
    {node : NodeCore C τ R} (h : Disciplined measures node) (ans : Answers R)
    (clock : Fin R → UInt64) (time : CanardMicrosecond) :
    Answered measures node.base (node.handleTxRxQueues ans clock time).1.base ∧
      Disciplined measures (node.handleTxRxQueues ans clock time).1 := by
  have ha : AnswersOnArrival measures (node.receiver clock) := by
    intro i transfer htid
    rw [← h.latency]
    exact node.receiver_answers h.name clock i htid
  obtain ⟨hans, hwired⟩ := handle_answered L hrx ha ans time h.wired
  refine ⟨hans, h.name, h.latency, hwired, ?_⟩
  obtain ⟨evs, he, hpush⟩ := hans
  have he' : (node.handleTxRxQueues ans clock time).1.base.events = node.base.events ++ evs := he
  unfold NodeCore.responses
  rw [he', List.filterMap_append, List.filter_append, answers_append, hpush, filter_answers,
    ← h.responses]
  rfl

/-- Executions push no responses. -/
theorem disciplined_execute (L : TxLaws C) {measures : Bool} (env : TaskEnv) (time : UInt64)
    {task : NodeTask} (htask : task.metadata.transferKind ≠ .response) {node : NodeCore C τ R}
    (h : Disciplined measures node) : Disciplined measures (task.execute env time node).2 := by
  obtain ⟨evs, hpub⟩ := task.published_execute L env time node
  obtain ⟨payload, hpush⟩ := hpub.pushes
  refine ⟨hpub.info ▸ h.name, hpub.latency.trans h.latency, h.wired.of_shape hpub.grows.shape, ?_⟩
  have hnone : (evs.filterMap Event.pushed).filter
      (fun x => x.2.2.transferKind = .response) = [] := by
    rw [List.filter_eq_nil_iff]
    intro x hx
    obtain ⟨e, he, hpushed⟩ := List.mem_filterMap.mp hx
    obtain ⟨i, r, frames, rfl, -⟩ := hpush e he
    rw [← Option.some.inj hpushed]
    simpa using htask
  have hdelivered : evs.filterMap Event.delivered = [] := by
    rw [List.filterMap_eq_nil_iff]
    intro e he
    obtain ⟨i, r, frames, rfl, -⟩ := hpush e he
    rfl
  have hanswers : answers measures evs = [] := by
    unfold answers
    rw [hdelivered, List.filterMap_nil]
  have hresponses := h.responses
  unfold NodeCore.responses at hresponses ⊢
  rw [hpub.grows.events, List.filterMap_append, List.filter_append, answers_append, hnone,
    hanswers, List.append_nil, List.append_nil]
  exact hresponses

/-- Adding a transceiver fills slots along with their queues. -/
theorem addTransceiver_wired {s : OpenCyphal C τ R} (h : Wired s) (transceiver : τ) :
    Wired (s.addTransceiver (some transceiver)) := by
  cases hc : s.crashed with
  | some fault =>
    rw [addTransceiver_of_crashed hc]
    exact h
  | none =>
    intro i _
    rw [addTransceiver_queues hc]
    split_ifs with hempty
    · rfl
    · exact h i (Option.isSome_iff_ne_none.mpr hempty)

/-- The invariant of a node of a network. -/
structure Sound (measures : Bool) (node : Node C τ R) : Prop where
  host : Disciplined measures node.host
  tasks : ∀ task ∈ node.schedule, (NodeTask.metadata task.body).transferKind ≠ .response

theorem sound_command (L : TxLaws C) (hrx : RxLaws C) {measures : Bool} {node : Node C τ R}
    (h : Sound measures node) (command : NodeCommand τ R) : Sound measures (command.run node) := by
  cases command with
  | startNode startedAt =>
    exact ⟨⟨h.host.name, h.host.latency, h.host.wired, h.host.responses⟩, h.tasks⟩
  | schedule nextRun task constructed =>
    refine ⟨h.host, ?_⟩
    intro x hx
    rcases List.mem_append.mp hx with hx | hx
    · exact h.tasks x hx
    · rw [List.mem_singleton.mp hx]
      exact constructed.kind
  | addTransceiver transceiver =>
    have hevents := (addTransceiver_frame node.host.base transceiver).2.1
    refine ⟨⟨h.host.name, h.host.latency, addTransceiver_wired h.host.wired transceiver, ?_⟩,
      h.tasks⟩
    have hresponses := h.host.responses
    unfold NodeCore.responses at hresponses ⊢
    simp only [NodeCommand.run, hevents]
    exact hresponses
  | subscribe kind portId extent timeout =>
    have hsame : (node.host.base.subscribe kind portId extent timeout).1.events =
        node.host.base.events ∧ Wired (node.host.base.subscribe kind portId extent timeout).1 := by
      unfold subscribe
      cases node.host.base.crashed with
      | none => exact ⟨rfl, h.host.wired⟩
      | some f => exact ⟨rfl, h.host.wired⟩
    refine ⟨⟨h.host.name, h.host.latency, hsame.2, ?_⟩, h.tasks⟩
    have hresponses := h.host.responses
    unfold NodeCore.responses at hresponses ⊢
    simp only [NodeCommand.run, hsame.1]
    exact hresponses
  | checkScheduler env time =>
    -- tasks stay tasks that publish no responses
    have hcall := checkScheduler_inv (K := nodeTasks C τ R)
      (P := fun body => (NodeTask.metadata body).transferKind ≠ .response)
      (Q := fun host => Disciplined measures host)
      (fun env time body host hbody hhost =>
        ⟨(NodeTask.kind_execute env time body host).trans_ne hbody,
          disciplined_execute L env time hbody hhost⟩) h.tasks h.host env time
    exact ⟨hcall.2, hcall.1⟩
  | handleTxRxQueues ans clock time =>
    exact ⟨(disciplined_handle L hrx h.host ans clock time).2, h.tasks⟩

/-- What a node of a network is constructed from. -/
structure NodeSetup (τ : Type) where
  nodeId : CanardNodeID
  transceiver : τ
  info : GetInfoResponse
  latency : Option (Fin 32 → UInt64)
  online : Bool
  nextRun : UInt64

def NodeSetup.node (setup : NodeSetup τ) : Node C τ R :=
  Node.construct setup.nodeId setup.transceiver setup.info setup.latency setup.online
    setup.nextRun

theorem sound_node {setup : NodeSetup τ} (hname : setup.info.name.count ≤ getInfoNameCapacity) :
    Sound setup.latency.isSome (setup.node : Node C τ R) := by
  refine ⟨⟨hname, rfl, ?_, rfl⟩, ?_⟩
  · intro i hi
    have hi' : ((OpenCyphal.construct setup.nodeId setup.transceiver :
        OpenCyphal C τ R).transceiver i).isSome := hi
    rw [(configured_construct setup.nodeId setup.transceiver).slots] at hi'
    exact ((configured_construct setup.nodeId setup.transceiver).queues i).mpr (by omega)
  · intro task htask
    rw [List.mem_singleton.mp htask]
    exact nofun

variable {ι : Type} [DecidableEq ι]

/-- A run of a network: commands to its nodes in any order. -/
def runNetwork (net : ι → Node C τ R) (commands : List (ι × NodeCommand τ R)) : ι → Node C τ R :=
  commands.foldl (fun net x => Function.update net x.1 (x.2.run (net x.1))) net

theorem sound_runNetwork (L : TxLaws C) (hrx : RxLaws C) (measures : ι → Bool)
    (commands : List (ι × NodeCommand τ R)) (net : ι → Node C τ R)
    (h : ∀ n, Sound (measures n) (net n)) (n : ι) :
    Sound (measures n) (runNetwork net commands n) := by
  induction commands generalizing net with
  | nil => exact h n
  | cons x commands ih =>
    apply ih
    intro m
    change Sound (measures m) (Function.update net x.1 (x.2.run (net x.1)) m)
    by_cases hm : m = x.1
    · subst hm
      rw [Function.update_self]
      exact sound_command L hrx (h x.1) x.2
    · rw [Function.update_of_ne hm]
      exact h m

/-- Requests and responses in a network: every call answers each request it delivers that a node
serves by exactly one push, the response on the interface of the request, and pushes nothing else;
other transfers change no queue; so the responses of any nodes are at most their requests. -/
structure RequestResponse (measures : ι → Bool) (net : ι → Node C τ R) : Prop where
  calls : ∀ n ans clock time,
    Answered (measures n) (net n).host.base
      ((net n).host.handleTxRxQueues ans clock time).1.base
  others : ∀ n clock i (transfer : CanardRxTransfer), transfer.metadata.transferId < 32 →
    answer (measures n) i transfer = none →
      ∀ s : OpenCyphal C τ R, (((net n).host.receiver clock i transfer).run s).txQueues = s.txQueues
  responses : ∀ n, (net n).host.responses = answers (measures n) (net n).host.base.events
  counts : ∀ nodes : Finset ι,
    ∑ n ∈ nodes, (net n).host.responses.length ≤ ∑ n ∈ nodes, (net n).host.requests.length

/-- Only requests are answered, each at most once. -/
theorem answers_length_le (measures : Bool) (evs : List (Event R)) :
    (answers measures evs).length ≤ ((evs.filterMap Event.delivered).filter fun x =>
      x.2.metadata.transferKind = .request).length := by
  unfold answers
  generalize evs.filterMap Event.delivered = l
  induction l with
  | nil => simp
  | cons x l ih =>
    rw [List.filterMap_cons, List.filter_cons]
    by_cases hkind : x.2.metadata.transferKind = .request
    · cases answer measures x.1 x.2 with
      | none => simp only [hkind, decide_true, if_true, List.length_cons]; omega
      | some y => simp only [hkind, decide_true, if_true, List.length_cons]; omega
    · have hnone : answer measures x.1 x.2 = none := by simp [answer, hkind]
      simp only [hnone, hkind, decide_false, Bool.false_eq_true, if_false]
      exact ih

/-- Nodes and latency nodes keep the discipline in every network and every run. -/
theorem request_response (L : TxLaws C) (hrx : RxLaws C) (setup : ι → NodeSetup τ)
    (hname : ∀ n, (setup n).info.name.count ≤ getInfoNameCapacity)
    (commands : List (ι × NodeCommand τ R)) :
    RequestResponse (fun n => (setup n).latency.isSome)
      (runNetwork (fun n => ((setup n).node : Node C τ R)) commands) := by
  have hsound := sound_runNetwork L hrx (fun n => (setup n).latency.isSome) commands
    (fun n => ((setup n).node : Node C τ R)) fun n => sound_node (hname n)
  refine ⟨?_, ?_, fun n => (hsound n).host.responses, ?_⟩
  · intro n ans clock time
    exact (disciplined_handle L hrx (hsound n).host ans clock time).1
  · intro n clock i transfer htid hnone s
    have ha := NodeCore.receiver_answers (hsound n).host.name clock i htid
    rw [(hsound n).host.latency, hnone] at ha
    obtain ⟨evs, heq, -⟩ := Reaction.Silent.run ha s
    rw [heq]
  · intro nodes
    apply Finset.sum_le_sum
    intro n _
    rw [(hsound n).host.responses]
    exact answers_length_le _ _

/-- A node that takes part in a latency measurement. -/
def measurementSetup (nodeId : CanardNodeID) : NodeSetup Unit where
  nodeId := nodeId
  transceiver := ()
  info := heartbeatNode.host.info
  latency := some fun _ => 0
  online := false
  nextRun := 0

def measurementPair (requests : Bool) : NodeSetup Unit :=
  measurementSetup (if requests then 1 else 2)

/-- The first node measures the latency to the second. -/
def measurementTask : NodeTask :=
  .latencyMeasurement (.construct latencyMeasurementPortId 2 1000)

theorem measurementTask_constructed : measurementTask.Constructed := ⟨_, _, _, rfl⟩

/-- The frame of a request from the first node to the second. -/
def measurementRequest : CanardFrame :=
  (SingleFrame.txItem ⟨1, [], 0⟩ 0
    ⟨.immediate, .request, latencyMeasurementPortId, 2, 0⟩ []).frame

/-- The first node publishes a request, which the second reads. -/
def measurementRun : List (Bool × NodeCommand Unit 1) :=
  [(true, .startNode 0),
    (true, .schedule 5 measurementTask measurementTask_constructed),
    (false, .startNode 0),
    (false, .subscribe .request latencyMeasurementPortId 0 2000000),
    (true, .checkScheduler (fun _ => quietEnv) 5),
    (true, .handleTxRxQueues ⟨fun _ _ => 1, fun _ => (0, .zero)⟩ (fun _ => 0) 6),
    (false, .handleTxRxQueues ⟨fun _ _ => 1, fun _ => (1, measurementRequest)⟩ (fun _ => 7) 7)]

def measurementNetwork : Bool → Node SingleFrame.canard Unit 1 :=
  runNetwork (fun n => (measurementPair n).node) measurementRun

theorem request_response_measurement :
    RequestResponse (fun n => (measurementPair n).latency.isSome) measurementNetwork ∧
      (measurementNetwork false).host.responses =
        [(0, 1000007, ⟨.immediate, .response, latencyMeasurementPortId, 1, 0⟩)] :=
  ⟨request_response SingleFrame.txLaws SingleFrame.rxLaws measurementPair (by decide)
    measurementRun, rfl⟩

end CyphalOnboard
