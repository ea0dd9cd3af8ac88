import CyphalOnboard.BusDelivery
import CyphalOnboard.FrameOrigin

namespace CyphalOnboard

open BroadcastLog OpenCyphal

variable {C : Canard} {R : ℕ} {L : TxLaws C} {ι : Type}

/-- What the nodes have written, with the senders. -/
def frameOrder (entries : List (Entry ι CanFdFrame)) : List (ι × CanardFrame) :=
  entries.filterMap fun entry => entry.sender.map fun n => (n, frameOf entry.message)

/-- The entry is a frame of node `n` that the kernel can carry. -/
structure CarriesFrame (entry : Entry ι CanFdFrame) (n : ι) (frame : CanardFrame) : Prop where
  sender : entry.sender = some n
  message : entry.message = canFdFrameOf frame
  fits : frame.payload.length ≤ canFdMaxDlen

theorem CarriesFrame.frameOf {entry : Entry ι CanFdFrame} {n : ι} {frame : CanardFrame}
    (h : CarriesFrame entry n frame) : frameOf entry.message = frame := by
  rw [h.message, frameOf_canFdFrameOf h.fits]

variable [DecidableEq ι]

/-- A frame is handed out to every node but its sender. -/
theorem CarriesFrame.handedOut {entry : Entry ι CanFdFrame} {n : ι} {frame : CanardFrame}
    (h : CarriesFrame entry n frame) (m : ι) :
    handedOut m entry = if n = m then none else some frame := by
  split_ifs with hnm
  · exact handedOut_own (h.sender.trans (congrArg some hnm))
  · apply handedOut_written h.fits h.message
    rw [h.sender]
    exact fun he => hnm (Option.some.inj he)

/-- The frames of one sender are its messages, in order. -/
theorem frameOrder_filter (entries : List (Entry ι CanFdFrame)) (n : ι) :
    ((frameOrder entries).filter (·.1 = n)).map (·.2) =
      ((entries.filter (·.sender = some n)).map (·.message)).map frameOf := by
  unfold frameOrder
  induction entries with
  | nil => rfl
  | cons entry entries ih =>
    cases hs : entry.sender with
    | none => simp only [List.filterMap_cons, hs, Option.map_none, List.filter_cons, reduceCtorEq,
        decide_false, Bool.false_eq_true, if_false, ih]
    | some m =>
      by_cases hm : m = n
      · simp [hs, hm, ih]
      · simp [hs, hm, ih]

/-- What a node makes of all messages are the frames of the others. -/
theorem filterMap_handedOut {entries : List (Entry ι CanFdFrame)}
    (h : ∀ entry ∈ entries, ∃ m frame, CarriesFrame entry m frame) (n : ι) :
    entries.filterMap (handedOut n) = ((frameOrder entries).filter (·.1 ≠ n)).map (·.2) := by
  unfold frameOrder
  induction entries with
  | nil => rfl
  | cons entry entries ih =>
    obtain ⟨⟨m, frame, hcarries⟩, h⟩ := List.forall_mem_cons.mp h
    rw [List.filterMap_cons, List.filterMap_cons, hcarries.handedOut, hcarries.sender, ih h]
    by_cases hm : m = n
    · simp [hm]
    · simp [hm, hcarries.frameOf]

/-- The order of bus `i`, on which nobody outside has written: each node's frames are those its
transceiver accepted, each of a transfer it published, and every node is fed frames of the others
in this order, all of them if its socket had room and is read to the end. -/
structure Ordered (net : BusNetwork ι C R) (i : Fin R) (order : List (ι × CanardFrame)) :
    Prop where
  sent : ∀ n, (order.filter (·.1 = n)).map (·.2) =
    ((net.nodes n).host.base.events.flatMap (Event.accepted i)).map (·.frame)
  origin : ∀ x ∈ order, ∃ que ins deadline metadata payload frames,
    .push i deadline metadata payload (C.canardTxPush que ins deadline metadata payload).result
        frames ∈ (net.nodes x.1).host.base.events ∧
      ∃ item ∈ frames, item ∈ C.txFrames que ins deadline metadata payload ∧ item.frame = x.2
  received : ∀ n, ((net.nodes n).host.base.events.filterMap (Event.fed i)).Sublist
    ((order.filter (·.1 ≠ n)).map (·.2))
  complete : ∀ n, (∀ entry ∈ (net.buses i).entries, entry.admitted n) →
    (net.buses i).waiting n = [] → (net.nodes n).host.base.events.filterMap (Event.fed i) =
      (order.filter (·.1 ≠ n)).map (·.2)

/-- What a node has written are frames its transceiver has accepted. -/
theorem Delivering.carries {measures : ι → Bool} {net : BusNetwork ι C R}
    (h : Delivering measures net) {i : Fin R} {entry : Entry ι CanFdFrame}
    (hentry : entry ∈ (net.buses i).entries) {m : ι} (hm : entry.sender = some m) :
    ∃ item ∈ (net.nodes m).host.base.events.flatMap (Event.accepted i),
      CarriesFrame entry m item.frame := by
  have hwritten : entry.message ∈ (net.buses i).writtenBy m :=
    List.mem_map_of_mem (List.mem_filter.mpr ⟨hentry, decide_eq_true hm⟩)
  rw [(h.faithful i m).sent] at hwritten
  obtain ⟨item, hitem, hmessage⟩ := List.mem_map.mp hwritten
  exact ⟨item, hitem, hm, hmessage.symm, (h.faithful i m).fits item hitem⟩

/-- The frames a node has written are those its transceiver has accepted, in order. -/
theorem Delivering.written {measures : ι → Bool} {net : BusNetwork ι C R}
    (h : Delivering measures net) (i : Fin R) (m : ι) :
    ((net.buses i).writtenBy m).map frameOf =
      ((net.nodes m).host.base.events.flatMap (Event.accepted i)).map (·.frame) := by
  rw [(h.faithful i m).sent, List.map_map]
  exact List.map_congr_left fun item hitem =>
    frameOf_canFdFrameOf ((h.faithful i m).fits item hitem)

theorem Delivering.ordered {measures : ι → Bool} {net : BusNetwork ι C R}
    (h : Delivering measures net) {own : ι → C.Instance → Prop}
    (htraced : ∀ n, Traced L (own n) (net.nodes n).host.base) {i : Fin R}
    (hclosed : ∀ entry ∈ (net.buses i).entries, entry.sender ≠ none) :
    Ordered net i (frameOrder (net.buses i).entries) := by
  have hcarries : ∀ entry ∈ (net.buses i).entries, ∃ m, ∃ item ∈
      (net.nodes m).host.base.events.flatMap (Event.accepted i),
        CarriesFrame entry m item.frame := by
    intro entry hentry
    obtain ⟨m, hm⟩ := Option.ne_none_iff_exists'.mp (hclosed entry hentry)
    exact ⟨m, h.carries hentry hm⟩
  have hmade := filterMap_handedOut fun entry hentry =>
    (hcarries entry hentry).imp fun m ⟨item, _, hc⟩ => ⟨item.frame, hc⟩
  constructor
  · intro n
    rw [frameOrder_filter, ← Log.writtenBy]
    exact h.written i n
  · intro x hx
    obtain ⟨entry, hentry, hx⟩ := List.mem_filterMap.mp hx
    obtain ⟨m, item, hitem, hc⟩ := hcarries entry hentry
    rw [hc.sender, Option.map_some, hc.frameOf] at hx
    obtain ⟨que, ins, deadline, metadata, payload, frames, -, hpush, hin, -, hframe⟩ :=
      (htraced m).origin hitem
    rw [← Option.some.inj hx]
    exact ⟨que, ins, deadline, metadata, payload, frames, hpush, item, hin, hframe, rfl⟩
  · intro n
    rw [(h.faithful i n).received, ← hmade n]
    exact ((net.buses i).taken_sublist n).filterMap _
  · intro n hall hwait
    rw [(h.faithful i n).received, ← hmade n, Log.taken_eq_entries hall hwait]

/-- All nodes have accounted for their frames. -/
theorem reachable_traced (L : TxLaws C) (hrx : RxLaws C) {own : ι → C.Instance → Prop}
    (hown : ∀ n, Lasting (own n)) {setup : ι → NodeSetup SocketCANTransceiver}
    {more : ι → List SocketCANTransceiver} (hinit : ∀ n, own n (C.canardInit (setup n).nodeId))
    (hname : ∀ n, (setup n).info.name.count ≤ getInfoNameCapacity)
    (hfull : ∀ n, R ≤ 1 + (more n).length) {net : BusNetwork ι C R}
    (hrun : Relation.ReflTransGen BusStep (.start setup more) net) (n : ι) :
    Traced L (own n) (net.nodes n).host.base := by
  refine (reachable_nodes (P := fun n node => Sturdy True (setup n).latency.isSome node ∧
    Traced L (own n) node.host.base) ?_ ?_ hrun n).2
  · exact fun n => ⟨sturdy_equipped (hname n) (hfull n) True,
      traced_equipped L (hown n) (setup n) (more n) (hinit n)⟩
  · exact fun n node h command => ⟨sturdy_command L hrx h.1 command fun _ => trivial,
      traced_command L (hown n) h.1 h.2 command⟩

/-- In every run each bus on which only the nodes have written has one order. -/
theorem bus_total_order (L : TxLaws C) (hrx : RxLaws C)
    {setup : ι → NodeSetup SocketCANTransceiver} {more : ι → List SocketCANTransceiver}
    (hname : ∀ n, (setup n).info.name.count ≤ getInfoNameCapacity)
    (hfull : ∀ n, R ≤ 1 + (more n).length) {net : BusNetwork ι C R}
    (hrun : Relation.ReflTransGen BusStep (.start setup more) net) {i : Fin R}
    (hclosed : ∀ entry ∈ (net.buses i).entries, entry.sender ≠ none) :
    ∃ order, Ordered net i order := by
  have htraced := reachable_traced L hrx (fun _ => lasting_true) (fun _ => trivial) hname hfull hrun
  exact ⟨_, (reachable_delivering L hrx hname hfull hrun).ordered htraced hclosed⟩

theorem bus_total_order_heard : ∃ order, Ordered heardBus 0 order :=
  bus_total_order SingleFrame.strictTxLaws SingleFrame.strictRxLaws (by decide)
    (by decide) heardBus_reachable (by
      intro entry hentry
      have hentries : (heardBus.buses 0).entries =
          [⟨some true, canFdFrameOf heartbeatItem.frame, fun _ => true⟩] := rfl
      rw [hentries] at hentry
      rw [List.mem_singleton.mp hentry]
      exact Option.some_ne_none true)

end CyphalOnboard
