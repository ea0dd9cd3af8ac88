import CyphalOnboard.NodeSafety
import CyphalOnboard.SocketBus
import Mathlib.Data.List.ReduceOption
import Mathlib.Logic.Relation

namespace CyphalOnboard

open BroadcastLog Drain EarlyExit OpenCyphal

variable {C : Canard} {τ : Type} {R : ℕ} {L : TxLaws C}

/-- A frame offered to interface `i` and the answer. -/
def Event.sent (i : Fin R) : Event R → Option (CanardTxQueueItem × ℤ)
  | .send j _ item r => if j = i then some (item, r) else none
  | _ => none

/-- The result of reading interface `i`. -/
def Event.received (i : Fin R) : Event R → Option ℤ
  | .receive j r => if j = i then some r else none
  | _ => none

/-- A frame of interface `i` fed to libcanard. -/
def Event.fed (i : Fin R) : Event R → Option CanardFrame
  | .rxAccept j frame _ => if j = i then some frame else none
  | _ => none

theorem received_of_wire {i : Fin R} {e : Event R} (h : e.wire = none) :
    e.received i = none ∧ e.fed i = none := by
  cases e with
  | receive j r => cases h
  | rxAccept j frame r => cases h
  | _ => exact ⟨rfl, rfl⟩

theorem filterMap_offWire {evs : List (Event R)} (h : ∀ e ∈ evs, e.wire = none) (i : Fin R) :
    evs.filterMap (Event.received i) = [] ∧ evs.filterMap (Event.fed i) = [] :=
  ⟨List.filterMap_eq_nil_iff.mpr fun e he => (received_of_wire (h e he)).1,
    List.filterMap_eq_nil_iff.mpr fun e he => (received_of_wire (h e he)).2⟩

/-- Interface `i` was not read. -/
def Unread (i : Fin R) (evs : List (Event R)) : Prop :=
  evs.filterMap (Event.received i) = [] ∧ evs.filterMap (Event.fed i) = []

/-- Interface `i` was read once, and the frame fed to libcanard if there was one. -/
def ReadOnce (answers : Answers R) (i : Fin R) (evs : List (Event R)) : Prop :=
  evs.filterMap (Event.received i) = [(answers.receive i).1] ∧
    evs.filterMap (Event.fed i) =
      if 0 < (answers.receive i).1 then [(answers.receive i).2] else []

/-- The interfaces `l` were read at most once and no others. -/
def ReadsAtMost (answers : Answers R) (l : List (Fin R)) (evs : List (Event R)) : Prop :=
  (∀ i ∉ l, Unread i evs) ∧ ∀ i ∈ l, Unread i evs ∨ ReadOnce answers i evs

theorem Unread.append {i : Fin R} {evs evs' : List (Event R)} (h : Unread i evs)
    (h' : Unread i evs') : Unread i (evs ++ evs') := by
  unfold Unread at *
  rw [List.filterMap_append, List.filterMap_append, h.1, h.2, h'.1, h'.2]
  exact ⟨rfl, rfl⟩

theorem ReadOnce.append {answers : Answers R} {i : Fin R} {evs evs' : List (Event R)}
    (h : ReadOnce answers i evs) (h' : Unread i evs') : ReadOnce answers i (evs ++ evs') := by
  unfold ReadOnce Unread at *
  rw [List.filterMap_append, List.filterMap_append, h.1, h.2, h'.1, h'.2, List.append_nil,
    List.append_nil]
  exact ⟨rfl, rfl⟩

theorem ReadOnce.prepend {answers : Answers R} {i : Fin R} {evs evs' : List (Event R)}
    (h' : Unread i evs) (h : ReadOnce answers i evs') : ReadOnce answers i (evs ++ evs') := by
  unfold ReadOnce Unread at *
  rw [List.filterMap_append, List.filterMap_append, h.1, h.2, h'.1, h'.2, List.nil_append,
    List.nil_append]
  exact ⟨rfl, rfl⟩

theorem ReadsAtMost.nil (answers : Answers R) (l : List (Fin R)) : ReadsAtMost answers l [] :=
  ⟨fun _ _ => ⟨rfl, rfl⟩, fun _ _ => .inl ⟨rfl, rfl⟩⟩

theorem ReadsAtMost.trans {answers : Answers R} {l l' : List (Fin R)} (hd : l.Disjoint l')
    {evs evs' : List (Event R)} (h : ReadsAtMost answers l evs)
    (h' : ReadsAtMost answers l' evs') : ReadsAtMost answers (l ++ l') (evs ++ evs') := by
  constructor
  · intro i hi
    rw [List.mem_append, not_or] at hi
    exact (h.1 i hi.1).append (h'.1 i hi.2)
  · intro i hi
    by_cases hil : i ∈ l
    · have hrest := h'.1 i (hd hil)
      exact (h.2 i hil).imp (·.append hrest) (·.append hrest)
    · have hfirst := h.1 i hil
      have hil' := (List.mem_append.mp hi).resolve_left hil
      exact (h'.2 i hil').imp hfirst.append (ReadOnce.prepend hfirst)

/-- Neither offering frames nor dropping them reads an interface. -/
theorem unread_attempts (time : CanardMicrosecond) (i j : Fin R)
    (attempts : List (Attempt CanardTxQueueItem)) :
    Unread j (attempts.flatMap (attemptEvents time i)) := by
  have hnone : ∀ e ∈ attempts.flatMap (attemptEvents time i),
      e.received j = none ∧ e.fed j = none := by
    intro e he
    rcases mem_attemptEvents he with ⟨item, r, rfl, -⟩ | ⟨item, rfl, -⟩ | ⟨block, rfl⟩
    · exact ⟨rfl, rfl⟩
    · exact ⟨rfl, rfl⟩
    · exact ⟨rfl, rfl⟩
  exact ⟨List.filterMap_eq_nil_iff.mpr fun e he => (hnone e he).1,
    List.filterMap_eq_nil_iff.mpr fun e he => (hnone e he).2⟩

theorem readsAtMost_none {evs : List (Event R)} (h : ∀ j, Unread j evs) (answers : Answers R) :
    ReadsAtMost answers [] evs :=
  ⟨fun j _ => h j, List.forall_mem_nil _⟩

theorem readsAtMost_nothing {answers : Answers R} {i : Fin R} (h : ¬0 < (answers.receive i).1) :
    ReadsAtMost answers [i] [.receive i (answers.receive i).1] := by
  constructor
  · intro j hj
    have hij : ¬i = j := fun he => hj (List.mem_singleton.mpr he.symm)
    simp [Unread, Event.received, Event.fed, hij]
  · intro j hj
    rw [List.mem_singleton.mp hj]
    exact .inr (by simp [ReadOnce, Event.received, Event.fed, h])

theorem readsAtMost_frame {answers : Answers R} {i : Fin R} (h : 0 < (answers.receive i).1)
    (result : ℤ) : ReadsAtMost answers [i]
      [.receive i (answers.receive i).1, .rxAccept i (answers.receive i).2 result] := by
  constructor
  · intro j hj
    have hij : ¬i = j := fun he => hj (List.mem_singleton.mpr he.symm)
    simp [Unread, Event.received, Event.fed, hij]
  · intro j hj
    rw [List.mem_singleton.mp hj]
    refine .inr ⟨by simp [Event.received], ?_⟩
    simp [List.filterMap_cons, Event.fed, h]

/-- An iteration reads its own interface, or none. -/
theorem readsAtMost_serve (L : TxLaws C) (receivers : List (Receiver R)) (answers : Answers R)
    (time : CanardMicrosecond) {i : Fin R} {s : OpenCyphal C τ R}
    (hslot : (s.transceiver i).isSome) (hque : (s.txQueues i).isSome) :
    ∃ evs, (serveInterface receivers answers time i s).state.events = s.events ++ evs ∧
      ReadsAtMost answers [i] evs := by
  obtain ⟨que, ins, -, hserve⟩ := serve_cases L receivers answers time i s hslot hque
  have hsent : ReadsAtMost answers []
      ((drainOf L (answers.send i) time i s).attempts.flatMap (attemptEvents time i)) :=
    readsAtMost_none (fun j => unread_attempts time i j _) answers
  have hd : List.Disjoint [] [i] := List.disjoint_nil_left _
  rcases hserve with ⟨r, -, hserve⟩ | ⟨-, hserve⟩
  · rw [hserve]
    refine ⟨_ ++ [], ?_, hsent.trans hd (.nil answers [i])⟩
    rw [List.append_nil]
    rfl
  rw [hserve]
  rcases receive_cases L receivers (answers.receive i) time i
    (drained time i s (drainOf L (answers.send i) time i s) que ins) hslot with
    ⟨hzero, hr⟩ | ⟨hneg, hr⟩ | ⟨hpos, evs, t, hg, hr⟩
  · rw [hr]
    exact ⟨_, List.append_assoc .., hsent.trans hd (readsAtMost_nothing (by omega))⟩
  · rw [hr]
    exact ⟨_, List.append_assoc .., hsent.trans hd (readsAtMost_nothing (by omega))⟩
  · have hstate : (receive receivers (answers.receive i) time i
        (drained time i s (drainOf L (answers.send i) time i s) que ins)).state = t := by
      rcases hr with hr | hr <;> rw [hr] <;> rfl
    -- what the receivers record comes behind the frame and reads nothing
    have hafter : ReadsAtMost answers [] evs :=
      readsAtMost_none (fun j => filterMap_offWire hg.offWire j) answers
    have hframe := (hsent.trans hd (readsAtMost_frame hpos
      (C.canardRxAccept (drained time i s (drainOf L (answers.send i) time i s) que ins).inst time
        (answers.receive i).2 i).result)).trans (List.disjoint_nil_right _) hafter
    refine ⟨_, ?_, hframe⟩
    rw [hstate, hg.events]
    simp only [fed, drained, List.append_assoc]

/-- A call reads every interface at most once. -/
theorem readsAtMost_forLoop (L : TxLaws C) (hrx : RxLaws C) {receivers : List (Receiver R)}
    (hret : Returning.Always receivers) (answers : Answers R) (time : CanardMicrosecond)
    {l : List (Fin R)} (hl : l.Nodup) {s : OpenCyphal C τ R} (hs : Ready s) :
    ∃ evs, (forLoop (serveInterface receivers answers time) l s).1.events = s.events ++ evs ∧
      ReadsAtMost answers l evs := by
  induction l generalizing s with
  | nil =>
    exact ⟨[], by rw [List.append_nil]; rfl, .nil answers []⟩
  | cons i l ih =>
    obtain ⟨hnot, hl⟩ := List.nodup_cons.mp hl
    have hd : [i].Disjoint l := by simpa using hnot
    obtain ⟨evs, hevents, hreads⟩ :=
      readsAtMost_serve L receivers answers time (hs.slots i) (hs.queues i)
    have hready := (ready_serve L hrx hret answers time i hs).1
    cases hb : serveInterface receivers answers time i s with
    | next t =>
      rw [hb] at hevents hready
      obtain ⟨evs', hevents', hreads'⟩ := ih hl (s := t) hready
      have hfirst : t.events = s.events ++ evs := hevents
      refine ⟨evs ++ evs', ?_, hreads.trans hd hreads'⟩
      simp only [forLoop, hb]
      rw [hevents', hfirst, List.append_assoc]
    | brk t =>
      rw [hb] at hevents
      refine ⟨evs ++ [], ?_, hreads.trans hd (.nil answers l)⟩
      simp only [forLoop, hb, List.append_nil]
      exact hevents
    | ret t r =>
      rw [hb] at hevents
      refine ⟨evs ++ [], ?_, hreads.trans hd (.nil answers l)⟩
      simp only [forLoop, hb, List.append_nil]
      exact hevents

theorem readsAtMost_handle (L : TxLaws C) (hrx : RxLaws C) {receivers : List (Receiver R)}
    (hret : Returning.Always receivers) (answers : Answers R) (time : CanardMicrosecond)
    {s : OpenCyphal C τ R} (hs : Ready s) :
    ∃ evs, (handleTxRxQueues receivers answers time s).1.events = s.events ++ evs ∧
      ∀ i, Unread i evs ∨ ReadOnce answers i evs := by
  rw [handleTxRxQueues_of_running receivers answers time hs.running]
  obtain ⟨evs, hevents, hreads⟩ :=
    readsAtMost_forLoop L hrx hret answers time (List.nodup_finRange R) hs
  exact ⟨evs, hevents, fun i => hreads.2 i (List.mem_finRange i)⟩

/-- The command that lets a node send and receive. -/
def NodeCommand.Communicates : NodeCommand τ R → Prop
  | handleTxRxQueues _ _ _ => True
  | _ => False

/-- The base has recorded `evs` and none of them is about a transceiver. -/
def OffWire (evs : List (Event R)) (s s' : OpenCyphal C τ R) : Prop :=
  s'.events = s.events ++ evs ∧ ∀ e ∈ evs, e.wire = none

theorem offWire_same {s s' : OpenCyphal C τ R} (h : s'.events = s.events) : OffWire [] s s' :=
  ⟨h.trans (List.append_nil _).symm, List.forall_mem_nil _⟩

theorem offWire_checkScheduler (L : TxLaws C) (node : Node C τ R) (env : ℕ → TaskEnv)
    (time : UInt64) :
    ∃ evs, OffWire evs node.host.base (node.checkScheduler env time).1.host.base :=
  (checkScheduler_rel (K := nodeTasks C τ R)
    (Q := fun host host' => ∃ evs, OffWire evs host.base host'.base)
    (fun _ => ⟨[], offWire_same rfl⟩)
    (fun {a b c} h h' => by
      obtain ⟨evs, hevs, hoff⟩ := h
      obtain ⟨evs', hevs', hoff'⟩ := h'
      exact ⟨evs ++ evs', by rw [hevs', hevs, List.append_assoc],
        List.forall_mem_append.mpr ⟨hoff, hoff'⟩⟩)
    (fun env time body host => by
      obtain ⟨evs, hpub⟩ := NodeTask.published_execute L env time body host
      exact ⟨evs, hpub.grows.events, hpub.grows.offWire⟩)
    node env time).1

/-- Only the one command communicates. -/
theorem offWire_command (L : TxLaws C) {command : NodeCommand τ R} (h : ¬command.Communicates)
    (node : Node C τ R) : ∃ evs, OffWire evs node.host.base (command.run node).host.base := by
  cases command with
  | startNode startedAt => exact ⟨[], offWire_same rfl⟩
  | schedule nextRun task constructed => exact ⟨[], offWire_same rfl⟩
  | addTransceiver transceiver =>
    exact ⟨[], offWire_same (addTransceiver_frame node.host.base transceiver).2.1⟩
  | subscribe kind portId extent timeout =>
    refine ⟨[], offWire_same ?_⟩
    change (node.host.base.subscribe kind portId extent timeout).1.events = _
    unfold subscribe
    split <;> rfl
  | checkScheduler env time => exact offWire_checkScheduler L node env time
  | handleTxRxQueues ans clock time => exact (h trivial).elim

/-- What node `node'` has recorded since it was `node`. -/
def recordedSince (node node' : Node C τ R) : List (Event R) :=
  node'.host.eventsSince node.host.base.events.length

theorem recordedSince_eq {node node' : Node C τ R} {evs : List (Event R)}
    (h : node'.host.base.events = node.host.base.events ++ evs) :
    recordedSince node node' = evs := by
  unfold recordedSince NodeCore.eventsSince
  rw [h, List.drop_left]

/-- What a call of a node that keeps running reads. -/
theorem readsAtMost_command (L : TxLaws C) (hrx : RxLaws C) {latencyTask : Prop} {measures : Bool}
    {node : Node C τ R} (h : Sturdy latencyTask measures node) (ans : Answers R)
    (clock : Fin R → UInt64) (time : CanardMicrosecond) :
    ∃ evs, (NodeCommand.run node (.handleTxRxQueues ans clock time)).host.base.events =
        node.host.base.events ++ evs ∧ ∀ i, Unread i evs ∨ ReadOnce ans i evs := by
  rcases h.running with hready | ⟨hc, -⟩
  · exact readsAtMost_handle L hrx (node.host.receiver_always h.name clock) ans time hready
  · refine ⟨[], ?_, fun i => .inl ⟨rfl, rfl⟩⟩
    change (OpenCyphal.handleTxRxQueues _ _ _ node.host.base).1.events = _
    rw [List.append_nil]
    simp only [OpenCyphal.handleTxRxQueues, hc]

variable {ι : Type}

/-- Interface number `i` of every node is on bus number `i`. -/
structure BusNetwork (ι : Type) (C : Canard) (R : ℕ) where
  nodes : ι → Node C SocketCANTransceiver R
  buses : Fin R → Log ι CanFdFrame

/-- What happens on the buses during a call: the kernel when each of the frames is pushed, the
messages from outside before each of the frames the node writes and behind the last one, and the
sockets with room for each of them. `reading` is how the read goes. -/
structure Traffic (ι : Type) (R : ℕ) where
  pushing : Fin R → ℕ → Kernel
  arrivals : Fin R → ℕ → List (CanFdFrame × (ι → Bool))
  admits : Fin R → ℕ → ι → Bool
  reading : Fin R → Reading

/-- The messages node `n` writes, as they stand on the bus. -/
def written (n : ι) (admits : ℕ → ι → Bool) (messages : List CanFdFrame) :
    List (Entry ι CanFdFrame) :=
  messages.mapIdx fun k message => ⟨some n, message, admits k⟩

namespace BusNetwork

variable [DecidableEq ι]

def setNode (net : BusNetwork ι C R) (n : ι) (node : Node C SocketCANTransceiver R) :
    BusNetwork ι C R :=
  { net with nodes := Function.update net.nodes n node }

@[simp] theorem setNode_self (net : BusNetwork ι C R) (n : ι)
    (node : Node C SocketCANTransceiver R) : (net.setNode n node).nodes n = node :=
  Function.update_self ..

theorem setNode_of_ne (net : BusNetwork ι C R) {n m : ι} (h : m ≠ n)
    (node : Node C SocketCANTransceiver R) : (net.setNode n node).nodes m = net.nodes m :=
  Function.update_of_ne h ..

/-- The messages the kernel takes on bus `i` of the frames that node `n` pushes in a call that is
recorded as `evs`. -/
def puts (net : BusNetwork ι C R) (n : ι) (traffic : Traffic ι R) (evs : List (Event R))
    (i : Fin R) : List CanFdFrame :=
  match (net.nodes n).host.base.transceiver i with
  | some transceiver =>
    ((evs.filterMap (Event.sent i)).mapIdx fun k x =>
      socketcanWritten (traffic.pushing i k) transceiver.socket x.1.frame 0).reduceOption
  | none => []

/-- Bus `i` once node `n` has sent in a call that is recorded as `evs`. -/
def sentOn (net : BusNetwork ι C R) (n : ι) (traffic : Traffic ι R) (evs : List (Event R))
    (i : Fin R) : Log ι CanFdFrame :=
  (net.buses i).append
    (weave (written n (traffic.admits i) (net.puts n traffic evs i)) (traffic.arrivals i))

/-- The number of messages node `n` takes off its socket on bus `i`. -/
def takes (net : BusNetwork ι C R) (n : ι) (traffic : Traffic ι R) (evs : List (Event R))
    (i : Fin R) : ℕ :=
  match evs.filterMap (Event.received i), (net.nodes n).host.base.transceiver i with
  | _ :: _, some transceiver => (traffic.reading i).pops transceiver.socket
  | _, _ => 0

/-- A call of node `n`, which becomes `node`. -/
def called (net : BusNetwork ι C R) (n : ι) (traffic : Traffic ι R)
    (node : Node C SocketCANTransceiver R) : BusNetwork ι C R :=
  let evs := recordedSince (net.nodes n) node
  { net.setNode n node with
    buses := fun i => (net.sentOn n traffic evs i).take n (net.takes n traffic evs i) }

/-- The answers to the call that is recorded as `evs` are those of `socketcan.c` on the sockets of
node `n`: each frame is pushed, and what is read is popped behind what was sent. -/
structure Answered (net : BusNetwork ι C R) (n : ι) (traffic : Traffic ι R) (ans : Answers R)
    (evs : List (Event R)) : Prop where
  sends : ∀ i k item r, (evs.filterMap (Event.sent i))[k]? = some (item, r) → ∃ transceiver,
    (net.nodes n).host.base.transceiver i = some transceiver ∧
      transceiver.sendCanardFrame (traffic.pushing i k) item.frame 0 = some r
  receives : ∀ i r, .receive i r ∈ evs → ∃ transceiver pop,
    (net.nodes n).host.base.transceiver i = some transceiver ∧
      transceiver.receiveCanardFrame
        ((traffic.reading i).kernelFor n ((net.sentOn n traffic evs i).waiting n)) 0
        canardMtuCanFd = some pop ∧
      ans.receive i = (pop.result, pop.frame.getD .zero)

end BusNetwork

/-- A node does something on its own, or it communicates, or somebody outside writes. -/
inductive BusStep [DecidableEq ι] (net : BusNetwork ι C R) : BusNetwork ι C R → Prop
  | command (n : ι) (command : NodeCommand SocketCANTransceiver R) (h : ¬command.Communicates) :
      BusStep net (net.setNode n (command.run (net.nodes n)))
  | call (n : ι) (traffic : Traffic ι R) (ans : Answers R) (clock : Fin R → UInt64)
      (time : CanardMicrosecond) (node : Node C SocketCANTransceiver R)
      (hnode : node = NodeCommand.run (net.nodes n) (.handleTxRxQueues ans clock time))
      (h : net.Answered n traffic ans (recordedSince (net.nodes n) node)) :
      BusStep net (net.called n traffic node)
  | outside (arrivals : Fin R → List (CanFdFrame × (ι → Bool))) :
      BusStep net { net with
        buses := fun i => (net.buses i).append (weave [] fun _ => arrivals i) }

/-- Nodes with all their slots filled on buses on which nothing was written yet. -/
def BusNetwork.start (setup : ι → NodeSetup SocketCANTransceiver)
    (more : ι → List SocketCANTransceiver) : BusNetwork ι C R where
  nodes n := (setup n).equipped (more n)
  buses _ := .empty

/-- In a step a node executes at most one command. -/
theorem BusStep.node [DecidableEq ι] {net net' : BusNetwork ι C R} (h : BusStep net net') (n : ι) :
    net'.nodes n = net.nodes n ∨ ∃ command : NodeCommand SocketCANTransceiver R,
      net'.nodes n = command.run (net.nodes n) := by
  cases h with
  | command m command hcommand =>
    by_cases hn : n = m
    · subst hn
      exact .inr ⟨command, net.setNode_self n _⟩
    · exact .inl (net.setNode_of_ne hn _)
  | call m traffic ans clock time node hnode hans =>
    by_cases hn : n = m
    · subst hn
      have hself : (net.called n traffic node).nodes n = node := Function.update_self ..
      exact .inr ⟨.handleTxRxQueues ans clock time, hself.trans hnode⟩
    · exact .inl (Function.update_of_ne hn ..)
  | outside arrivals => exact .inl rfl

/-- What every command keeps, the nodes keep in every run. -/
theorem reachable_nodes [DecidableEq ι] {P : ι → Node C SocketCANTransceiver R → Prop}
    {setup : ι → NodeSetup SocketCANTransceiver} {more : ι → List SocketCANTransceiver}
    (hstart : ∀ n, P n ((setup n).equipped (more n)))
    (hcommand : ∀ n node, P n node → ∀ command : NodeCommand SocketCANTransceiver R,
      P n (command.run node)) {net : BusNetwork ι C R}
    (hrun : Relation.ReflTransGen BusStep (.start setup more) net) (n : ι) :
    P n (net.nodes n) := by
  induction hrun with
  | refl => exact hstart n
  | tail _ hstep ih =>
    rcases hstep.node n with hsame | ⟨command, hnode⟩
    · rw [hsame]
      exact ih
    · rw [hnode]
      exact hcommand n _ ih command

/-- The messages of node `n` on bus `i` are the frames its transceiver accepted, and the frames it
fed to libcanard are those of the messages it has taken off its socket. -/
structure Faithful [DecidableEq ι] (net : BusNetwork ι C R) (i : Fin R) (n : ι) : Prop where
  sent : (net.buses i).writtenBy n =
    ((net.nodes n).host.base.events.flatMap (Event.accepted i)).map
      fun item => canFdFrameOf item.frame
  fits : ∀ item ∈ (net.nodes n).host.base.events.flatMap (Event.accepted i),
    item.frame.payload.length ≤ canFdMaxDlen
  received : (net.nodes n).host.base.events.filterMap (Event.fed i) =
    ((net.buses i).taken n).filterMap (handedOut n)

/-- The invariant of the runs. -/
structure Delivering [DecidableEq ι] (measures : ι → Bool) (net : BusNetwork ι C R) : Prop where
  sturdy : ∀ n, Sturdy True (measures n) (net.nodes n)
  wellFormed : ∀ i, (net.buses i).WellFormed
  faithful : ∀ i n, Faithful net i n

theorem map_written (n : ι) (admits : ℕ → ι → Bool) (messages : List CanFdFrame) :
    (written n admits messages).map (·.message) = messages := by
  have hmessages : messages.zipIdx.map Prod.fst = messages := List.zipIdx_map_fst 0 messages
  unfold written
  rw [List.mapIdx_eq_zipIdx_map, List.map_map]
  nth_rewrite 2 [← hmessages]
  rfl

variable [DecidableEq ι]

theorem filter_written (n m : ι) (admits : ℕ → ι → Bool) (messages : List CanFdFrame) :
    (written n admits messages).filter (·.sender = some m) =
      if n = m then written n admits messages else [] := by
  have hsender : ∀ entry ∈ written n admits messages, entry.sender = some n := by
    intro entry hentry
    obtain ⟨k, hk, rfl⟩ := List.mem_mapIdx.mp hentry
    rfl
  split_ifs with hnm
  · rw [List.filter_eq_self]
    intro entry hentry
    rw [hsender entry hentry, hnm]
    exact decide_eq_true rfl
  · rw [List.filter_eq_nil_iff]
    intro entry hentry
    rw [hsender entry hentry]
    simpa using hnm

/-- Node `n` writes what the kernel takes, and no other node writes. -/
theorem writtenBy_sentOn (net : BusNetwork ι C R) (n : ι) (traffic : Traffic ι R)
    (evs : List (Event R)) (i : Fin R) (m : ι) :
    (net.sentOn n traffic evs i).writtenBy m = (net.buses i).writtenBy m ++
      if n = m then net.puts n traffic evs i else [] := by
  unfold BusNetwork.sentOn Log.writtenBy Log.append
  rw [List.filter_append, List.map_append, filter_weave, filter_written]
  split_ifs with hnm
  · rw [map_written]
  · rfl

/-- The frames accepted are those offered with an answer above zero. -/
theorem accepted_eq_sent (i : Fin R) (evs : List (Event R)) :
    evs.flatMap (Event.accepted i) = (evs.filterMap (Event.sent i)).filterMap fun x =>
      if 0 < x.2 then some x.1 else none := by
  rw [List.filterMap_filterMap, List.filterMap_eq_flatMap_toList]
  refine List.flatMap_congr fun e _ => ?_
  cases e with
  | send j time item r =>
    by_cases hji : j = i
    · by_cases hr : 0 < r <;> simp [Event.accepted, Event.sent, hji, hr]
    · simp [Event.accepted, Event.sent, hji]
  | _ => rfl

/-- What the kernel takes in a call are the frames the transceiver accepts. -/
theorem BusNetwork.Answered.puts {net : BusNetwork ι C R} {n : ι} {traffic : Traffic ι R}
    {ans : Answers R} {evs : List (Event R)} (h : net.Answered n traffic ans evs) (i : Fin R) :
    net.puts n traffic evs i =
      (evs.flatMap (Event.accepted i)).map fun item => canFdFrameOf item.frame := by
  rw [accepted_eq_sent, List.map_filterMap]
  unfold BusNetwork.puts
  cases hslot : (net.nodes n).host.base.transceiver i with
  | none =>
    have hnone : evs.filterMap (Event.sent i) = [] := by
      refine List.eq_nil_iff_forall_not_mem.mpr fun x hx => ?_
      obtain ⟨k, hk⟩ := List.mem_iff_getElem?.mp hx
      obtain ⟨transceiver, hsome, -⟩ := h.sends i k x.1 x.2 hk
      rw [hslot] at hsome
      cases hsome
    rw [hnone]
    rfl
  | some transceiver =>
    have hwritten : ((evs.filterMap (Event.sent i)).mapIdx fun k x =>
        socketcanWritten (traffic.pushing i k) transceiver.socket x.1.frame 0) =
        (evs.filterMap (Event.sent i)).map fun x =>
          if 0 < x.2 then some (canFdFrameOf x.1.frame) else none := by
      rw [List.mapIdx_eq_iff]
      intro k
      rw [List.getElem?_map]
      cases hk : (evs.filterMap (Event.sent i))[k]? with
      | none => rfl
      | some x =>
        obtain ⟨transceiver', hslot', hsend⟩ := h.sends i k x.1 x.2 hk
        rw [hslot] at hslot'
        cases hslot'
        exact congrArg some (socketcanWritten_eq hsend).symm
    dsimp only
    rw [hwritten, List.reduceOption, List.filterMap_map]
    refine List.filterMap_congr fun x _ => ?_
    by_cases hr : 0 < x.2 <;> simp [hr]

/-- In a call each frame the transceiver accepts fits in a frame of the kernel. -/
theorem BusNetwork.Answered.fits {net : BusNetwork ι C R} {n : ι} {traffic : Traffic ι R}
    {ans : Answers R} {evs : List (Event R)} (h : net.Answered n traffic ans evs) {i : Fin R}
    {item : CanardTxQueueItem} (hitem : item ∈ evs.flatMap (Event.accepted i)) :
    item.frame.payload.length ≤ canFdMaxDlen := by
  rw [accepted_eq_sent] at hitem
  obtain ⟨x, hx, hitem⟩ := List.mem_filterMap.mp hitem
  obtain ⟨k, hk⟩ := List.mem_iff_getElem?.mp hx
  obtain ⟨transceiver, -, hsend⟩ := h.sends i k x.1 x.2 hk
  split_ifs at hitem with hr
  rw [← Option.some.inj hitem]
  exact ((socketcanPush_accepted_iff hsend).mp hr).1

/-- In a call the frame fed to libcanard is that of the message taken off the socket. -/
theorem BusNetwork.Answered.fed {net : BusNetwork ι C R} {n : ι} {traffic : Traffic ι R}
    {ans : Answers R} {evs : List (Event R)} (h : net.Answered n traffic ans evs) {i : Fin R}
    (hread : Unread i evs ∨ ReadOnce ans i evs) :
    evs.filterMap (Event.fed i) = (((net.sentOn n traffic evs i).waiting n).take
      (net.takes n traffic evs i)).filterMap (handedOut n) := by
  rcases hread with ⟨hnone, hfed⟩ | ⟨hone, hfed⟩
  · have htakes : net.takes n traffic evs i = 0 := by
      unfold BusNetwork.takes
      rw [hnone]
    rw [hfed, htakes, List.take_zero]
    rfl
  · have hmem : Event.receive i (ans.receive i).1 ∈ evs := by
      have hin : (ans.receive i).1 ∈ evs.filterMap (Event.received i) :=
        hone ▸ List.mem_singleton_self _
      obtain ⟨e, he, hr⟩ := List.mem_filterMap.mp hin
      cases e with
      | receive j r =>
        simp only [Event.received] at hr
        split_ifs at hr with hij
        subst hij
        exact Option.some.inj hr ▸ he
      | _ => cases hr
    obtain ⟨transceiver, pop, htransceiver, hpop, hans⟩ := h.receives i _ hmem
    have htakes : net.takes n traffic evs i = (traffic.reading i).pops transceiver.socket := by
      unfold BusNetwork.takes
      rw [hone, htransceiver]
    rw [hfed, htakes, hans, ← receive_handedOut hpop]

variable {measures : ι → Bool} {net : BusNetwork ι C R}

/-- What is off the wire changes nothing on the buses. -/
theorem Faithful.offWire {evs : List (Event R)} {i : Fin R} {m : ι} (h : Faithful net i m)
    {net' : BusNetwork ι C R}
    (hnode : OffWire evs (net.nodes m).host.base (net'.nodes m).host.base)
    (hsent : (net'.buses i).writtenBy m = (net.buses i).writtenBy m)
    (htaken : (net'.buses i).taken m = (net.buses i).taken m) : Faithful net' i m := by
  obtain ⟨hevents, hoff⟩ := hnode
  have haccepted : (net'.nodes m).host.base.events.flatMap (Event.accepted i) =
      (net.nodes m).host.base.events.flatMap (Event.accepted i) := by
    have hnone : evs.flatMap (Event.accepted i) = [] :=
      List.flatMap_eq_nil_iff.mpr fun e he => accepted_of_wire (by simp [hoff e he])
    rw [hevents, List.flatMap_append, hnone, List.append_nil]
  constructor
  · rw [hsent, haccepted, h.sent]
  · rw [haccepted]
    exact h.fits
  · rw [htaken, hevents, List.filterMap_append, (filterMap_offWire hoff i).2, List.append_nil,
      h.received]

theorem Delivering.command (L : TxLaws C) (hrx : RxLaws C) (h : Delivering measures net) (n : ι)
    {command : NodeCommand SocketCANTransceiver R} (hcommand : ¬command.Communicates) :
    Delivering measures (net.setNode n (command.run (net.nodes n))) := by
  constructor
  · intro m
    by_cases hm : m = n
    · subst hm
      rw [BusNetwork.setNode_self]
      exact sturdy_command L hrx (h.sturdy m) command fun _ => trivial
    · rw [BusNetwork.setNode_of_ne _ hm]
      exact h.sturdy m
  · exact h.wellFormed
  · intro i m
    by_cases hm : m = n
    · subst hm
      obtain ⟨evs, hoff⟩ := offWire_command L hcommand (net.nodes m)
      refine (h.faithful i m).offWire (?_ : OffWire evs _ _) rfl rfl
      rw [BusNetwork.setNode_self]
      exact hoff
    · refine (h.faithful i m).offWire (offWire_same ?_) rfl rfl
      rw [BusNetwork.setNode_of_ne _ hm]

theorem Delivering.outside (h : Delivering measures net)
    (arrivals : Fin R → List (CanFdFrame × (ι → Bool))) :
    Delivering measures { net with
      buses := fun i => (net.buses i).append (weave [] fun _ => arrivals i) } := by
  refine ⟨h.sturdy, fun i => (h.wellFormed i).append _, fun i m => ?_⟩
  refine (h.faithful i m).offWire (offWire_same rfl) ?_ ?_
  · unfold Log.writtenBy Log.append
    rw [List.filter_append, filter_weave, List.filter_nil, List.append_nil]
  · exact Log.taken_append (h.wellFormed i) _ m

theorem Delivering.call (L : TxLaws C) (hrx : RxLaws C) (h : Delivering measures net) {n : ι}
    {traffic : Traffic ι R} {ans : Answers R} {clock : Fin R → UInt64} {time : CanardMicrosecond}
    {node : Node C SocketCANTransceiver R}
    (hnode : node = NodeCommand.run (net.nodes n) (.handleTxRxQueues ans clock time))
    (hans : net.Answered n traffic ans (recordedSince (net.nodes n) node)) :
    Delivering measures (net.called n traffic node) := by
  obtain ⟨evs, hevents, hreads⟩ := readsAtMost_command L hrx (h.sturdy n) ans clock time
  rw [← hnode] at hevents
  have hevs := recordedSince_eq hevents
  rw [hevs] at hans
  have hwell (i : Fin R) : (net.sentOn n traffic evs i).WellFormed := (h.wellFormed i).append _
  have hkept (i : Fin R) (m : ι) : (net.sentOn n traffic evs i).taken m = (net.buses i).taken m :=
    Log.taken_append (h.wellFormed i) _ m
  have hbus (i : Fin R) : (net.called n traffic node).buses i =
      (net.sentOn n traffic evs i).take n (net.takes n traffic evs i) := by
    rw [← hevs]
    rfl
  have hself : (net.called n traffic node).nodes n = node := Function.update_self ..
  have hother {m : ι} (hm : m ≠ n) : (net.called n traffic node).nodes m = net.nodes m :=
    Function.update_of_ne hm ..
  have hsent (i : Fin R) (m : ι) : ((net.called n traffic node).buses i).writtenBy m =
      (net.buses i).writtenBy m ++ if n = m then
        (evs.flatMap (Event.accepted i)).map fun item => canFdFrameOf item.frame else [] := by
    rw [hbus, ← hans.puts, ← writtenBy_sentOn]
    rfl
  constructor
  · intro m
    by_cases hm : m = n
    · subst hm
      rw [hself, hnode]
      exact sturdy_command L hrx (h.sturdy m) _ fun _ => trivial
    · rw [hother hm]
      exact h.sturdy m
  · intro i
    rw [hbus]
    exact (hwell i).take n _
  · intro i m
    have hold := h.faithful i m
    by_cases hm : m = n
    · subst hm
      constructor
      · rw [hself, hsent, if_pos rfl, hevents, List.flatMap_append, List.map_append, hold.sent]
      · rw [hself, hevents, List.flatMap_append]
        exact List.forall_mem_append.mpr ⟨hold.fits, fun item => hans.fits⟩
      · rw [hself, hbus, Log.taken_take, hkept, hevents, List.filterMap_append,
          List.filterMap_append, hold.received, hans.fed (hreads i)]
    · refine hold.offWire (offWire_same (by rw [hother hm])) ?_ ?_
      · rw [hsent, if_neg (Ne.symm hm), List.append_nil]
      · rw [hbus, Log.taken_take_of_ne _ hm, hkept]

theorem Delivering.step (L : TxLaws C) (hrx : RxLaws C) (h : Delivering measures net)
    {net' : BusNetwork ι C R} (hstep : BusStep net net') : Delivering measures net' := by
  cases hstep with
  | command n command hcommand => exact h.command L hrx n hcommand
  | call n traffic ans clock time node hnode hans => exact h.call L hrx hnode hans
  | outside arrivals => exact h.outside arrivals

theorem delivering_start {setup : ι → NodeSetup SocketCANTransceiver}
    {more : ι → List SocketCANTransceiver}
    (hname : ∀ n, (setup n).info.name.count ≤ getInfoNameCapacity)
    (hfull : ∀ n, R ≤ 1 + (more n).length) :
    Delivering (fun n => (setup n).latency.isSome)
      (BusNetwork.start setup more : BusNetwork ι C R) := by
  refine ⟨fun n => sturdy_equipped (hname n) (hfull n) True, fun i => Log.wellFormed_empty, ?_⟩
  intro i n
  have hevents : ((BusNetwork.start setup more : BusNetwork ι C R).nodes n).host.base.events = [] :=
    equipped_events (setup n) (more n)
  constructor
  · rw [hevents]
    rfl
  · rw [hevents]
    exact List.forall_mem_nil _
  · rw [hevents]
    exact congrArg _ (List.take_nil (i := 0)).symm

theorem reachable_delivering (L : TxLaws C) (hrx : RxLaws C)
    {setup : ι → NodeSetup SocketCANTransceiver} {more : ι → List SocketCANTransceiver}
    (hname : ∀ n, (setup n).info.name.count ≤ getInfoNameCapacity)
    (hfull : ∀ n, R ≤ 1 + (more n).length) {net : BusNetwork ι C R}
    (hrun : Relation.ReflTransGen BusStep (.start setup more) net) :
    Delivering (fun n => (setup n).latency.isSome) net := by
  induction hrun with
  | refl => exact delivering_start hname hfull
  | tail _ hstep ih => exact ih.step L hrx hstep

/-- On the buses of nodes whose slots are filled nothing is lost, doubled or made up: in every
run, whatever the kernel refuses and the world outside writes. -/
theorem bus_faithful (L : TxLaws C) (hrx : RxLaws C) {setup : ι → NodeSetup SocketCANTransceiver}
    {more : ι → List SocketCANTransceiver}
    (hname : ∀ n, (setup n).info.name.count ≤ getInfoNameCapacity)
    (hfull : ∀ n, R ≤ 1 + (more n).length) {net : BusNetwork ι C R}
    (hrun : Relation.ReflTransGen BusStep (.start setup more) net) (i : Fin R) (n : ι) :
    (net.buses i).WellFormed ∧ Faithful net i n := by
  have hinv := reachable_delivering L hrx hname hfull hrun
  exact ⟨hinv.wellFormed i, hinv.faithful i n⟩

-- A node publishes a heartbeat and the other one hears it.

def busSetup (publishes : Bool) : NodeSetup SocketCANTransceiver where
  nodeId := if publishes then 1 else 2
  transceiver := ⟨if publishes then 3 else 4, "vcan0", true⟩
  info := heartbeatNode.host.info
  latency := none
  online := false
  nextRun := 0

def readyKernel : Kernel where
  socket := 3
  ioctlIfIndex _ _ := (0, 5)
  bind _ _ := 0
  setsockopt _ _ := 0
  ppoll _ events _ := (1, events)
  write _ _ mtu := mtu
  recvmsg _ := (-1, ⟨⟨0, 0, 0, []⟩, 0, none⟩)
  errno := 11

/-- Buses with room for everything on which nobody else writes. -/
def quietTraffic : Traffic Bool R where
  pushing _ _ := readyKernel
  arrivals _ _ := []
  admits _ _ _ := true
  reading _ := ⟨readyKernel, false, 1, 0⟩

def heartbeatItem : CanardTxQueueItem :=
  ⟨1000005, ⟨0x107D5501, [0, 0, 0, 0, 0, 0, 0, 0xE0], by decide⟩⟩

def silentBus : BusNetwork Bool SingleFrame.strictCanard 1 := .start busSetup fun _ => []

def onlineBus : BusNetwork Bool SingleFrame.strictCanard 1 :=
  silentBus.setNode true (NodeCommand.run (silentBus.nodes true) (.startNode 0))

def publishedBus : BusNetwork Bool SingleFrame.strictCanard 1 :=
  onlineBus.setNode true
    (NodeCommand.run (onlineBus.nodes true) (.checkScheduler (fun _ => quietEnv) 5))

/-- The node reads the copy of its own frame. -/
def sendingAnswers : Answers 1 := ⟨fun _ _ => 1, fun _ => (0, .zero)⟩

def sentBus : BusNetwork Bool SingleFrame.strictCanard 1 :=
  publishedBus.called true quietTraffic
    (NodeCommand.run (publishedBus.nodes true) (.handleTxRxQueues sendingAnswers (fun _ => 0) 6))

def hearingAnswers : Answers R := ⟨fun _ _ => 1, fun _ => (1, heartbeatItem.frame)⟩

def heardBus : BusNetwork Bool SingleFrame.strictCanard 1 :=
  sentBus.called false quietTraffic
    (NodeCommand.run (sentBus.nodes false) (.handleTxRxQueues hearingAnswers (fun _ => 0) 7))

/-- A call that sends one frame. -/
theorem answered_sending {net : BusNetwork Bool SingleFrame.strictCanard 1} {n : Bool}
    {time : CanardMicrosecond} {item : CanardTxQueueItem} {transceiver : SocketCANTransceiver}
    {evs : List (Event 1)} (hevs : evs =
      [.send 0 time item 1, .release (some (.txItem item)), .receive 0 0])
    (hslot : (net.nodes n).host.base.transceiver 0 = some transceiver)
    (hsend : transceiver.sendCanardFrame readyKernel item.frame 0 = some 1)
    (hpop : transceiver.receiveCanardFrame
      (((quietTraffic : Traffic Bool 1).reading 0).kernelFor n
        ((net.sentOn n quietTraffic evs 0).waiting n)) 0 canardMtuCanFd = some (.early 0)) :
    net.Answered n quietTraffic sendingAnswers evs := by
  constructor
  · intro i k item' r he
    rw [Subsingleton.elim i 0] at he ⊢
    subst hevs
    obtain ⟨hk, heq⟩ := List.getElem?_eq_some_iff.mp he
    obtain rfl : k = 0 := Nat.lt_one_iff.mp hk
    cases heq
    exact ⟨transceiver, hslot, hsend⟩
  · intro i r he
    rw [Subsingleton.elim i 0]
    exact ⟨transceiver, .early 0, hslot, hpop, rfl⟩

theorem sentBus_answered :
    publishedBus.Answered true quietTraffic sendingAnswers
      [.send 0 6 heartbeatItem 1, .release (some (.txItem heartbeatItem)), .receive 0 0] :=
  answered_sending rfl rfl rfl rfl

theorem heardBus_answered :
    sentBus.Answered false quietTraffic hearingAnswers
      [.receive 0 1, .rxAccept 0 heartbeatItem.frame 0] := by
  constructor
  · intro i k item r he
    cases he
  · intro i r he
    rw [Subsingleton.elim i 0]
    exact ⟨_, ⟨1, some heartbeatItem.frame, some 1000000, none⟩, rfl, rfl, rfl⟩

theorem heardBus_reachable : Relation.ReflTransGen BusStep silentBus heardBus :=
  ((((Relation.ReflTransGen.refl.tail (.command true (.startNode 0) id)).tail
    (.command true (.checkScheduler (fun _ => quietEnv) 5) id)).tail
    (.call true quietTraffic sendingAnswers (fun _ => 0) 6 _ rfl sentBus_answered)).tail
    (.call false quietTraffic hearingAnswers (fun _ => 0) 7 _ rfl heardBus_answered))

theorem bus_faithful_heard :
    (heardBus.buses 0).WellFormed ∧ Faithful heardBus 0 false :=
  bus_faithful SingleFrame.strictTxLaws SingleFrame.strictRxLaws (by decide) (by decide)
    heardBus_reachable 0 false

end CyphalOnboard
