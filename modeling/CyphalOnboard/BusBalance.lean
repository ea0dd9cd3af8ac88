import CyphalOnboard.BusOrder

namespace CyphalOnboard

open BroadcastLog OpenCyphal

variable {C : Canard} {R : ℕ} {L : TxLaws C} {ι : Type}

namespace BusNetwork

def framesOf (items : List CanardTxQueueItem) : Multiset CanardFrame :=
  ((items.map (·.frame) : List CanardFrame) : Multiset CanardFrame)

/-- The frames node `m` has enqueued for bus `i`. -/
def enqueuedBy (net : BusNetwork ι C R) (i : Fin R) (m : ι) : Multiset CanardFrame :=
  framesOf ((net.nodes m).host.base.events.flatMap (Event.enqueued i))

/-- Those of them that wait in its queue or were dropped after their deadline. -/
def heldBy (L : TxLaws C) (net : BusNetwork ι C R) (i : Fin R) (m : ι) : Multiset CanardFrame :=
  framesOf (L.queued (net.nodes m).host.base i) +
    framesOf ((net.nodes m).host.base.events.flatMap (Event.dropped i))

def fedTo (net : BusNetwork ι C R) (i : Fin R) (n : ι) : Multiset CanardFrame :=
  ((net.nodes n).host.base.events.filterMap (Event.fed i) : List CanardFrame)

variable [DecidableEq ι]

/-- The frames of bus `i` that wait at the socket of node `n`. -/
def waitingFor (net : BusNetwork ι C R) (i : Fin R) (n : ι) : Multiset CanardFrame :=
  (((net.buses i).waiting n).filterMap (handedOut n) : List CanardFrame)

/-- The frames for which that socket had no room. -/
def refusedBy (net : BusNetwork ι C R) (i : Fin R) (n : ι) : Multiset CanardFrame :=
  (((net.buses i).entries.filter (!·.admitted n)).filterMap (handedOut n) : List CanardFrame)

/-- The frames for node `n` that none of the nodes has written. -/
def fromOutside (net : BusNetwork ι C R) (i : Fin R) (n : ι) : Multiset CanardFrame :=
  (((net.buses i).entries.filter (·.sender = none)).filterMap (handedOut n) : List CanardFrame)

end BusNetwork

open BusNetwork

/-- What a node has enqueued was accepted by its transceiver, or it holds it. -/
theorem Traced.balanced {own : C.Instance → Prop} {net : BusNetwork ι C R} {m : ι}
    (h : Traced L own (net.nodes m).host.base) (i : Fin R) :
    net.enqueuedBy i m = framesOf ((net.nodes m).host.base.events.flatMap (Event.accepted i)) +
      heldBy L net i m := by
  have hframes := congrArg (Multiset.map (·.frame)) (h.balance i)
  rw [Multiset.map_add, Multiset.map_add, Multiset.map_coe, Multiset.map_coe, Multiset.map_coe,
    Multiset.map_coe] at hframes
  unfold enqueuedBy heldBy framesOf
  rw [hframes]
  abel

variable [DecidableEq ι]

/-- What is handed out of the frames of one node. -/
theorem Delivering.handedOut_of {measures : ι → Bool} {net : BusNetwork ι C R}
    (h : Delivering measures net) (i : Fin R) (n m : ι) :
    (((net.buses i).entries.filter (·.sender = some m)).filterMap (handedOut n) :
        Multiset CanardFrame) =
      if m = n then 0
      else framesOf ((net.nodes m).host.base.events.flatMap (Event.accepted i)) := by
  split_ifs with hm
  · subst hm
    have hnone : ((net.buses i).entries.filter (·.sender = some m)).filterMap (handedOut m) = [] :=
      List.filterMap_eq_nil_iff.mpr fun entry hentry =>
        handedOut_own (of_decide_eq_true (List.mem_filter.mp hentry).2)
    rw [hnone]
    rfl
  · have hsome : ∀ entry ∈ (net.buses i).entries.filter (·.sender = some m),
        handedOut n entry = some (frameOf entry.message) := by
      intro entry hentry
      obtain ⟨hmem, hsender⟩ := List.mem_filter.mp hentry
      obtain ⟨item, -, hcarries⟩ := h.carries hmem (of_decide_eq_true hsender)
      rw [hcarries.handedOut, if_neg hm, hcarries.frameOf]
    rw [List.filterMap_congr hsome, List.filterMap_eq_map', framesOf,
      ← h.written i m, Log.writtenBy, List.map_map]
    rfl

/-- In every run of nodes whose slots are filled the books of a bus balance. -/
theorem frames_balanced [Fintype ι] (L : TxLaws C) (hrx : RxLaws C)
    {setup : ι → NodeSetup SocketCANTransceiver} {more : ι → List SocketCANTransceiver}
    (hname : ∀ n, (setup n).info.name.count ≤ getInfoNameCapacity)
    (hfull : ∀ n, R ≤ 1 + (more n).length) {net : BusNetwork ι C R}
    (hrun : Relation.ReflTransGen BusStep (.start setup more) net) (i : Fin R) (n : ι) :
    ∑ m ∈ Finset.univ.erase n, net.enqueuedBy i m + net.fromOutside i n =
      net.fedTo i n + (net.waitingFor i n + net.refusedBy i n) +
        ∑ m ∈ Finset.univ.erase n, heldBy L net i m := by
  have htraced := reachable_traced L hrx (fun _ => lasting_true) (fun _ => trivial) hname hfull hrun
  have hdelivering := reachable_delivering L hrx hname hfull hrun
  have hfed : net.fedTo i n = (((net.buses i).taken n).filterMap (handedOut n) : List _) :=
    congrArg _ (hdelivering.faithful i n).received
  have hadmission := (net.buses i).filterMap_admission n (handedOut n)
  rw [filterMap_bySender, ← hfed] at hadmission
  have haccepted : ∑ m ∈ Finset.univ.erase n,
      framesOf ((net.nodes m).host.base.events.flatMap (Event.accepted i)) +
        net.fromOutside i n = net.fedTo i n + (net.waitingFor i n + net.refusedBy i n) := by
    rw [fromOutside, waitingFor, refusedBy, ← hadmission]
    congr 1
    rw [← Finset.sum_erase Finset.univ (a := n) ((hdelivering.handedOut_of i n n).trans
      (if_pos rfl))]
    refine Finset.sum_congr rfl fun m hm => ?_
    rw [hdelivering.handedOut_of i n m, if_neg (Finset.ne_of_mem_erase hm)]
  calc ∑ m ∈ Finset.univ.erase n, net.enqueuedBy i m + net.fromOutside i n
    _ = ∑ m ∈ Finset.univ.erase n,
          (framesOf ((net.nodes m).host.base.events.flatMap (Event.accepted i)) +
            heldBy L net i m) + net.fromOutside i n :=
        congrArg (· + _) (Finset.sum_congr rfl fun m _ => (htraced m).balanced i)
    _ = ∑ m ∈ Finset.univ.erase n,
          framesOf ((net.nodes m).host.base.events.flatMap (Event.accepted i)) +
            net.fromOutside i n + ∑ m ∈ Finset.univ.erase n, heldBy L net i m := by
        rw [Finset.sum_add_distrib, add_right_comm]
    _ = net.fedTo i n + (net.waitingFor i n + net.refusedBy i n) +
          ∑ m ∈ Finset.univ.erase n, heldBy L net i m := by rw [haccepted]

theorem frames_balanced_heard :
    ∑ m ∈ Finset.univ.erase false, heardBus.enqueuedBy 0 m + heardBus.fromOutside 0 false =
      heardBus.fedTo 0 false + (heardBus.waitingFor 0 false + heardBus.refusedBy 0 false) +
        ∑ m ∈ Finset.univ.erase false, heldBy SingleFrame.strictTxLaws heardBus 0 m :=
  frames_balanced SingleFrame.strictTxLaws SingleFrame.strictRxLaws (by decide)
    (by decide) heardBus_reachable 0 false

end CyphalOnboard
