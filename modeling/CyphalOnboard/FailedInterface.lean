import CyphalOnboard.Configuration
import CyphalOnboard.InterfaceService
import CyphalOnboard.SocketCan

namespace CyphalOnboard

open EarlyExit Drain OpenCyphal

variable {C : Canard} {τ : Type} {R : ℕ} {L : TxLaws C}

/-- The transceiver of an interface for which `socketcanOpen` returned a negated errno. -/
structure FailedToOpen (kernel : Kernel) (ifrName : String) (canFd : Bool)
    (transceiver : SocketCANTransceiver) : Prop where
  constructed : SocketCANTransceiver.construct kernel ifrName canFd = some transceiver
  negated : transceiver.socket < 0

/-- An interface fails to open exactly when its name is too long or a step of opening it fails. -/
theorem failedToOpen_iff {kernel : Kernel} {ifrName : String} {canFd : Bool}
    {transceiver : SocketCANTransceiver}
    (h : SocketCANTransceiver.construct kernel ifrName canFd = some transceiver) :
    FailedToOpen kernel ifrName canFd transceiver ↔ ifNameSize ≤ (cStr ifrName).utf8ByteSize ∨
      socketReady kernel kernel.socket (cStr ifrName) canFd = false := by
  obtain ⟨socket, hopen, rfl⟩ := Option.map_eq_some_iff.mp h
  rw [← socketcanOpen_neg_iff hopen]
  exact ⟨fun hfailed => hfailed.negated, fun hneg => ⟨h, hneg⟩⟩

/-- In `evs` interface `i` answers as `transceiver` does, over kernels that ignore negative
descriptors. -/
structure AnswersAs (i : Fin R) (transceiver : SocketCANTransceiver) (evs : List (Event R)) :
    Prop where
  send : ∀ time item r, .send i time item r ∈ evs → ∃ kernel : Kernel,
    kernel.IgnoresNegative ∧ transceiver.sendCanardFrame kernel item.frame 0 = some r
  receive : ∀ r, .receive i r ∈ evs → ∃ (kernel : Kernel) (pop : PopResult),
    kernel.IgnoresNegative ∧
      transceiver.receiveCanardFrame kernel 0 canardMtuCanFd = some pop ∧ pop.result = r

/-- All that is ever answered on the failed descriptor. -/
theorem AnswersAs.send_eq {i : Fin R} {transceiver : SocketCANTransceiver} {evs : List (Event R)}
    (h : AnswersAs i transceiver evs) (hfail : transceiver.socket < 0) {time : CanardMicrosecond}
    {item : CanardTxQueueItem} {r : ℤ} (he : .send i time item r ∈ evs) :
    r = if item.frame.payload.length > 255 then -errnoInvalid else 0 := by
  obtain ⟨kernel, hkernel, hr⟩ := h.send time item r he
  exact Option.some.inj (hr.symm.trans (socketcanPush_of_negative hkernel hfail item.frame 0))

theorem AnswersAs.receive_eq {i : Fin R} {transceiver : SocketCANTransceiver}
    {evs : List (Event R)} (h : AnswersAs i transceiver evs) (hfail : transceiver.socket < 0)
    {r : ℤ} (he : .receive i r ∈ evs) : r = 0 := by
  obtain ⟨kernel, pop, hkernel, hpop, hr⟩ := h.receive r he
  have hzero := hpop.symm.trans (socketcanPop_of_negative hkernel hfail canardMtuCanFd 0 false)
  rw [← hr, Option.some.inj hzero]
  rfl

section

variable (receivers : List (Receiver R)) {answers : Answers R} {time : CanardMicrosecond}
  {i : Fin R} {s : OpenCyphal C τ R}

variable (answers time) in
/-- The first interface is offered its frames in every call, and read unless one of them fails. -/
theorem handle_first_events (L : TxLaws C) (hi : i.val = 0) (hc : s.crashed = none)
    (hslot : (s.transceiver i).isSome) (hque : (s.txQueues i).isSome) :
    ∃ read rest, (handleTxRxQueues receivers answers time s).1.events = s.events ++
        ((drainOf L (answers.send i) time i s).attempts.flatMap (attemptEvents time i) ++
          (read ++ rest)) ∧
      ((∀ r, (drainOf L (answers.send i) time i s).exit ≠ .failed r) →
        .receive i (answers.receive i).1 ∈ read) := by
  obtain ⟨post, hl⟩ := finRange_first hi
  have hnd : (i :: post).Nodup := hl ▸ List.nodup_finRange R
  obtain ⟨que, ins, hitems, hserve⟩ := serve_cases L receivers answers time i s hslot hque
  obtain ⟨rest, hrest⟩ := visit_forLoop_cons (L := L) receivers answers time post i s
    (visit_forLoop L receivers answers time post (List.nodup_cons.mp hnd).2)
  rw [handleTxRxQueues_of_running receivers answers time hc, hl]
  rcases hserve with ⟨r, hr, hserve⟩ | ⟨hsent, hserve⟩
  · rw [hserve] at hrest
    refine ⟨[], rest, ?_, fun h => absurd hr (h r)⟩
    rw [hrest.events, Flow.state_ret, drained, List.nil_append, List.append_assoc]
  · obtain ⟨read, hread, hmem, -⟩ := visit_receive (visit_drained _ _ ins hque hitems) receivers
      (answers.receive i)
    rw [hserve] at hrest
    refine ⟨read, rest, ?_, fun _ => hmem hslot⟩
    rw [hrest.events, hread.events]
    simp only [List.append_assoc]

/-- A first interface that fails no frame and has nothing to read ends the call with 0. -/
theorem handle_first_idle (L : TxLaws C) (hi : i.val = 0) (hc : s.crashed = none)
    (hslot : (s.transceiver i).isSome) (hque : (s.txQueues i).isSome)
    (hidle : Idle L answers time i s) :
    (handleTxRxQueues receivers answers time s).2 = some 0 := by
  obtain ⟨post, hl⟩ := finRange_first hi
  obtain ⟨t, ht⟩ := (serve_brk_iff L receivers hslot hque).mpr hidle
  rw [handleTxRxQueues_of_running receivers answers time hc, hl]
  simp only [forLoop, ht]
  rfl

theorem handle_first_failed (L : TxLaws C) (hi : i.val = 0) (hc : s.crashed = none)
    (hslot : (s.transceiver i).isSome) (hque : (s.txQueues i).isSome) {r : ℤ}
    (hr : (drainOf L (answers.send i) time i s).exit = .failed r) :
    (handleTxRxQueues receivers answers time s).2 = some (-r) := by
  obtain ⟨post, hl⟩ := finRange_first hi
  obtain ⟨que, ins, -, hserve⟩ := serve_cases L receivers answers time i s hslot hque
  rw [handleTxRxQueues_of_running receivers answers time hc, hl]
  rcases hserve with ⟨r', hr', hserve⟩ | ⟨hsent, -⟩
  · have hsame : r = r' := by
      rw [hr] at hr'
      cases hr'
      rfl
    simp only [forLoop, hserve, hsame]
    rfl
  · exact absurd hr (hsent r)

end

/-- The first frame that is not timed out, if there is one, has a payload that `socketcanPush`
rejects before it polls. -/
def Rejected (L : TxLaws C) (time : CanardMicrosecond) (i : Fin R) (s : OpenCyphal C τ R) : Prop :=
  ∃ item, (L.queued s i).find? (Live time ·) = some item ∧ 255 < item.frame.payload.length

section

variable {transceiver : SocketCANTransceiver} {i : Fin R} {s : OpenCyphal C τ R}
  {receivers : List (Receiver R)} {answers : Answers R} {time : CanardMicrosecond}
  {evs : List (Event R)}

/-- Over a failed descriptor a call in which no frame fails reads the interface and returns 0. -/
theorem handle_unfailed_socket (L : TxLaws C) (hfail : transceiver.socket < 0) (hi : i.val = 0)
    (hc : s.crashed = none) (hslot : (s.transceiver i).isSome) (hque : (s.txQueues i).isSome)
    (hevs : (handleTxRxQueues receivers answers time s).1.events = s.events ++ evs)
    (hanswers : AnswersAs i transceiver evs)
    (hsent : ∀ r, (drainOf L (answers.send i) time i s).exit ≠ .failed r) :
    (handleTxRxQueues receivers answers time s).2 = some 0 ∧ .receive i 0 ∈ evs := by
  obtain ⟨read, rest, hevs', hread⟩ :=
    handle_first_events receivers answers time L hi hc hslot hque
  have hmem : .receive i (answers.receive i).1 ∈ evs := by
    rw [List.append_cancel_left (hevs.symm.trans hevs')]
    exact List.mem_append_right _ (List.mem_append_left _ (hread hsent))
  have hzero := hanswers.receive_eq hfail hmem
  exact ⟨handle_first_idle receivers L hi hc hslot hque ⟨hsent, hzero⟩, hzero ▸ hmem⟩

/-- The first frame that is not timed out is offered to the failed descriptor. -/
theorem answer_first_live (L : TxLaws C) (hfail : transceiver.socket < 0) (hi : i.val = 0)
    (hc : s.crashed = none) (hslot : (s.transceiver i).isSome) (hque : (s.txQueues i).isSome)
    (hevs : (handleTxRxQueues receivers answers time s).1.events = s.events ++ evs)
    (hanswers : AnswersAs i transceiver evs) {item : CanardTxQueueItem}
    (hsent : .sent item (answers.send i 0) ∈ (drainOf L (answers.send i) time i s).attempts) :
    answers.send i 0 = if item.frame.payload.length > 255 then -errnoInvalid else 0 := by
  obtain ⟨read, rest, hevs', -⟩ :=
    handle_first_events receivers answers time L hi hc hslot hque
  have hmem : .send i time item (answers.send i 0) ∈ evs := by
    rw [List.append_cancel_left (hevs.symm.trans hevs')]
    exact List.mem_append_left _ (sent_mem_attemptEvents hsent)
  exact hanswers.send_eq hfail hmem

/-- What a call returns over a failed descriptor, and that it is offered a frame or read. -/
theorem handle_failed_socket (L : TxLaws C) (hfail : transceiver.socket < 0) (hi : i.val = 0)
    (hc : s.crashed = none) (hslot : (s.transceiver i).isSome) (hque : (s.txQueues i).isSome)
    (hevs : (handleTxRxQueues receivers answers time s).1.events = s.events ++ evs)
    (hanswers : AnswersAs i transceiver evs) :
    (Rejected L time i s ∧
        (handleTxRxQueues receivers answers time s).2 = some errnoInvalid) ∨
      (¬ Rejected L time i s ∧ (handleTxRxQueues receivers answers time s).2 = some 0 ∧
        .receive i 0 ∈ evs) := by
  have hidle := handle_unfailed_socket L hfail hi hc hslot hque hevs hanswers
  cases hfirst : (L.queued s i).find? (Live time ·) with
  | none =>
    have hexit : (drainOf L (answers.send i) time i s).exit = .drained :=
      exit_of_no_live (Live time) (answers.send i) hfirst
    refine .inr ⟨?_, hidle fun r hr => by rw [hexit] at hr; cases hr⟩
    rintro ⟨item, hitem, -⟩
    rw [hfirst] at hitem
    cases hitem
  | some item =>
    obtain ⟨hsent, hfull, hfailed⟩ :=
      exit_of_first_live (Live time) (answers.send i) (n := 0) hfirst
    have hanswer := answer_first_live L hfail hi hc hslot hque hevs hanswers hsent
    by_cases hlong : item.frame.payload.length > 255
    · rw [if_pos hlong] at hanswer
      have hneg : answers.send i 0 < 0 := by rw [hanswer]; decide
      have hresult := handle_first_failed receivers L hi hc hslot hque (hfailed hneg)
      refine .inl ⟨⟨item, hfirst, hlong⟩, ?_⟩
      rw [hresult, hanswer, neg_neg]
    · rw [if_neg hlong] at hanswer
      have hexit : (drainOf L (answers.send i) time i s).exit = .full := hfull hanswer
      refine .inr ⟨?_, hidle fun r hr => by rw [hexit] at hr; cases hr⟩
      rintro ⟨item', hitem', hlong'⟩
      rw [hfirst] at hitem'
      cases hitem'
      exact hlong hlong'

end

/-- If a frame that is not timed out waits for interface `i`, or the interface is read, the call
returns an error. -/
def FailsLoudly (L : TxLaws C) (receivers : List (Receiver R)) (answers : Answers R)
    (time : CanardMicrosecond) (i : Fin R) (s : OpenCyphal C τ R) : Prop :=
  ((∃ item ∈ L.queued s i, Live time item) ∨
    ∃ evs r, (handleTxRxQueues receivers answers time s).1.events = s.events ++ evs ∧
      .receive i r ∈ evs) →
  ∃ r, (handleTxRxQueues receivers answers time s).2 = some r ∧ r ≠ 0

theorem failsLoudly_call_iff (L : TxLaws C) {transceiver : SocketCANTransceiver}
    (hfail : transceiver.socket < 0) {i : Fin R} (hi : i.val = 0) {s : OpenCyphal C τ R}
    (hc : s.crashed = none) (hslot : (s.transceiver i).isSome) (hque : (s.txQueues i).isSome)
    {receivers : List (Receiver R)} {answers : Answers R} {time : CanardMicrosecond}
    (hanswers : ∀ evs, (handleTxRxQueues receivers answers time s).1.events = s.events ++ evs →
      AnswersAs i transceiver evs) :
    FailsLoudly L receivers answers time i s ↔ Rejected L time i s := by
  obtain ⟨evs, hv⟩ := visit_handleTxRxQueues L receivers answers time s
  rcases handle_failed_socket L hfail hi hc hslot hque hv.events (hanswers evs hv.events) with
    ⟨hrejected, hresult⟩ | ⟨hnot, hresult, hread⟩
  · refine ⟨fun _ => hrejected, fun _ _ => ⟨errnoInvalid, hresult, by decide⟩⟩
  · constructor
    · intro hloud
      obtain ⟨r, hr, hne⟩ := hloud (.inr ⟨evs, 0, hv.events, hread⟩)
      exact absurd (Option.some.inj (hr.symm.trans hresult)) hne
    · intro h
      exact absurd h hnot

/-- Slot `i` holds the transceiver, and its queue is initialised. -/
structure Equipped (i : Fin R) (transceiver : τ) (s : OpenCyphal C τ R) : Prop where
  slot : s.transceiver i = some transceiver
  queue : (s.txQueues i).isSome

theorem Equipped.of_shape {i : Fin R} {transceiver : τ} {s s' : OpenCyphal C τ R}
    (h : Equipped i transceiver s) (hs : SameShape s s') : Equipped i transceiver s' where
  slot := (congrFun hs.transceiver i).trans h.slot
  queue := hs.initialised i ▸ h.queue

/-- A filled slot keeps its transceiver and its queue when another transceiver is added. -/
theorem Equipped.addTransceiver {i : Fin R} {transceiver : τ} {s : OpenCyphal C τ R}
    (h : Equipped i transceiver s) (other : τ) :
    Equipped i transceiver (s.addTransceiver (some other)) := by
  cases hc : s.crashed with
  | some fault =>
    rwa [addTransceiver_of_crashed hc]
  | none =>
    have hfilled : s.transceiver i ≠ none := by rw [h.slot]; exact Option.some_ne_none _
    refine ⟨?_, ?_⟩
    · rcases addTransceiver_slots hc other with hall | ⟨j, hj, hall⟩
      · rw [hall, h.slot]
      · have hij : i ≠ j := by
          rintro rfl
          exact hfilled hj
        rw [hall i hij, h.slot]
    · rw [addTransceiver_queues hc, if_neg hfilled]
      exact h.queue

theorem Equipped.call (L : TxLaws C) {i : Fin R} {transceiver : τ} {s : OpenCyphal C τ R}
    (h : Equipped i transceiver s) (call : NodeCall τ R) : Equipped i transceiver (call.run s) := by
  cases call with
  | addTransceiver other => exact h.addTransceiver other
  | subscribe kind portId extent timeout =>
    simp only [NodeCall.run, subscribe]
    split
    · exact h
    · exact ⟨h.slot, h.queue⟩
  | publish ifidx deadline metadata payload =>
    obtain ⟨evs, hg⟩ := grows_publishVia L s ifidx deadline metadata payload
    exact h.of_shape hg.shape
  | handle receivers answers time =>
    obtain ⟨evs, hv⟩ := visit_handleTxRxQueues L receivers answers time s
    exact h.of_shape hv.shape

theorem Equipped.run (L : TxLaws C) {i : Fin R} {transceiver : τ} {s : OpenCyphal C τ R}
    (h : Equipped i transceiver s) (calls : List (NodeCall τ R)) :
    Equipped i transceiver (runNode s calls) := by
  induction calls generalizing s with
  | nil => exact h
  | cons call calls ih => exact ih (h.call L call)

theorem equipped_construct (nodeId : CanardNodeID) (transceiver : τ) {i : Fin R} (hi : i.val = 0) :
    Equipped i transceiver (construct nodeId transceiver : OpenCyphal C τ R) := by
  constructor
  · simp only [construct, if_pos hi]
  · simp only [construct, if_pos hi, Option.isSome_some]

/-- `P` holds of every call of `HandleTxRxQueues` in a run, as long as the process has not ended. -/
def InEveryHandle (s : OpenCyphal C τ R) (calls : List (NodeCall τ R))
    (P : List (Receiver R) → Answers R → CanardMicrosecond → OpenCyphal C τ R → Prop) : Prop :=
  ∀ pre receivers answers time post, calls = pre ++ .handle receivers answers time :: post →
    (runNode s pre).crashed = none → P receivers answers time (runNode s pre)

/-- In a run of a node whose first interface failed to open, every call that has a frame to send
there or reads it returns an error, if and only if every call meets a frame that no interface would
take. -/
theorem failedInterface_reported_iff (L : TxLaws C) (kernel : Kernel) (ifrName : String)
    (canFd : Bool) (transceiver : SocketCANTransceiver)
    (hfailed : FailedToOpen kernel ifrName canFd transceiver) (nodeId : CanardNodeID) (i : Fin R)
    (hi : i.val = 0) (calls : List (NodeCall SocketCANTransceiver R))
    (hanswers : InEveryHandle (construct nodeId transceiver : OpenCyphal C _ R) calls
      fun receivers answers time s => ∀ evs,
        (handleTxRxQueues receivers answers time s).1.events = s.events ++ evs →
          AnswersAs i transceiver evs) :
    InEveryHandle (construct nodeId transceiver : OpenCyphal C _ R) calls
        (fun receivers answers time s => FailsLoudly L receivers answers time i s) ↔
      InEveryHandle (construct nodeId transceiver : OpenCyphal C _ R) calls
        fun _ _ time s => Rejected L time i s := by
  unfold InEveryHandle
  refine forall₄_congr fun pre receivers answers time => forall₂_congr fun post hcalls =>
    forall_congr' fun hc => ?_
  have hslot0 := (equipped_construct (C := C) nodeId transceiver hi).run L pre
  exact failsLoudly_call_iff L hfailed.negated hi hc (by rw [hslot0.slot]; rfl) hslot0.queue
    (hanswers pre receivers answers time post hcalls hc)

/-- A kernel without the device that is asked for. -/
def noSuchDevice : Kernel where
  socket := 3
  ioctlIfIndex _ _ := (-1, 0)
  bind _ _ := 0
  setsockopt _ _ := 0
  ppoll fd events _ := if fd < 0 then (0, 0) else (1, events)
  write _ _ mtu := mtu
  recvmsg _ := (-1, ⟨⟨0, 0, 0, []⟩, 0, none⟩)
  errno := 19

/-- The transceiver keeps `-ENODEV` as its socket. -/
def deadTransceiver : SocketCANTransceiver := ⟨-19, "can9", true⟩

def silentAnswers : Answers 1 where
  send _ _ := 0
  receive _ := (0, .zero)

/-- A message is published, and the queues are handled. -/
def deadRun : List (NodeCall SocketCANTransceiver 1) :=
  [.publish none 0 heartbeatMetadata [0], .handle [] silentAnswers 1]

theorem noSuchDevice_ignoresNegative : noSuchDevice.IgnoresNegative := by
  intro fd events ts hfd
  simp only [noSuchDevice, if_pos hfd]

theorem deadTransceiver_failed : FailedToOpen noSuchDevice "can9" true deadTransceiver :=
  ⟨by rfl, by decide⟩

theorem inEveryHandle_deadRun {s : OpenCyphal C SocketCANTransceiver 1}
    {P : List (Receiver 1) → Answers 1 → CanardMicrosecond →
      OpenCyphal C SocketCANTransceiver 1 → Prop} :
    InEveryHandle s deadRun P ↔
      ((runNode s [.publish none 0 heartbeatMetadata [0]]).crashed = none →
        P [] silentAnswers 1 (runNode s [.publish none 0 heartbeatMetadata [0]])) := by
  constructor
  · intro h
    exact h [.publish none 0 heartbeatMetadata [0]] [] silentAnswers 1 [] rfl
  · intro h pre receivers answers time post hcalls hc
    cases pre with
    | nil => cases hcalls
    | cons call pre =>
      rw [deadRun, List.cons_append, List.cons.injEq] at hcalls
      obtain ⟨rfl, hcalls⟩ := hcalls
      cases pre with
      | nil =>
        rw [List.nil_append, List.cons.injEq, NodeCall.handle.injEq] at hcalls
        obtain ⟨⟨rfl, rfl, rfl⟩, -⟩ := hcalls
        exact h hc
      | cons call pre => simp at hcalls

theorem deadRun_answers :
    InEveryHandle (construct 1 deadTransceiver : OpenCyphal SingleFrame.canard _ 1) deadRun
      fun receivers answers time s => ∀ evs,
        (handleTxRxQueues receivers answers time s).1.events = s.events ++ evs →
          AnswersAs 0 deadTransceiver evs := by
  rw [inEveryHandle_deadRun]
  intro _ evs hevs
  have hconcrete : evs = [.send 0 1 (SingleFrame.txItem ⟨1, [], 0⟩ 0 heartbeatMetadata [0]) 0,
      .receive 0 0] := List.append_cancel_left (hevs.symm.trans rfl)
  rw [hconcrete]
  constructor
  · intro time item r he
    simp only [List.mem_cons, Event.send.injEq, reduceCtorEq, List.not_mem_nil, or_false] at he
    obtain ⟨-, -, rfl, rfl⟩ := he
    exact ⟨noSuchDevice, noSuchDevice_ignoresNegative, by rfl⟩
  · intro r he
    simp only [List.mem_cons, Event.receive.injEq, reduceCtorEq, List.not_mem_nil, or_false,
      false_or, true_and] at he
    exact ⟨noSuchDevice, .early 0, noSuchDevice_ignoresNegative, by rfl, he.symm⟩

theorem failedInterface_reported_iff_dead :
    InEveryHandle (construct 1 deadTransceiver : OpenCyphal SingleFrame.canard _ 1) deadRun
        (fun receivers answers time s =>
          FailsLoudly SingleFrame.txLaws receivers answers time 0 s) ↔
      InEveryHandle (construct 1 deadTransceiver : OpenCyphal SingleFrame.canard _ 1) deadRun
        fun _ _ time s => Rejected SingleFrame.txLaws time 0 s :=
  failedInterface_reported_iff SingleFrame.txLaws noSuchDevice "can9" true deadTransceiver
    deadTransceiver_failed 1 0 rfl deadRun deadRun_answers

/-- The frame waits and the interface is read, and the call returns 0. -/
theorem failed_interface_passes_as_idle :
    FailedToOpen noSuchDevice "can9" true deadTransceiver ∧
      InEveryHandle (construct 1 deadTransceiver : OpenCyphal SingleFrame.canard _ 1) deadRun
        (fun receivers answers time s => ∀ evs,
          (handleTxRxQueues receivers answers time s).1.events = s.events ++ evs →
            AnswersAs 0 deadTransceiver evs) ∧
      ¬ InEveryHandle (construct 1 deadTransceiver : OpenCyphal SingleFrame.canard _ 1) deadRun
        fun receivers answers time s =>
          FailsLoudly SingleFrame.txLaws receivers answers time 0 s := by
  refine ⟨deadTransceiver_failed, deadRun_answers, ?_⟩
  rw [inEveryHandle_deadRun]
  intro h
  obtain ⟨r, hr, hne⟩ := h rfl (.inl ⟨_, List.mem_singleton.mpr rfl, by decide⟩)
  exact hne (Option.some.inj (hr.symm.trans (by decide)))

end CyphalOnboard
