import CyphalOnboard.InterfaceService
import CyphalOnboard.FrameConservation
import Mathlib.Order.Minimal
import Mathlib.Order.WellFounded

namespace CyphalOnboard

open EarlyExit Drain OpenCyphal

variable {C : Canard} {τ : Type} {R : ℕ} {L : TxLaws C}

/-- Receivers that handle every transfer without ending the process. -/
abbrev Returning.Always (receivers : List (Receiver R)) : Prop :=
  Returning (fun _ _ => True) receivers

theorem Ready.publishable {s : OpenCyphal C τ R} (hs : Ready s) (ifidx : Option (Fin R)) :
    Publishable s ifidx := by
  cases ifidx with
  | some i => exact hs.queues i
  | none => exact hs.queues

theorem Ready.of_shape {s s' : OpenCyphal C τ R} (hs : Ready s) (h : SameShape s s')
    (hc : s'.crashed = none) : Ready s' where
  running := hc
  slots i := h.transceiver ▸ hs.slots i
  queues i := h.initialised i ▸ hs.queues i

theorem ready_publishVia (L : TxLaws C) {s : OpenCyphal C τ R} (hs : Ready s)
    (ifidx : Option (Fin R)) (deadline : CanardMicrosecond) (metadata : CanardTransferMetadata)
    (payload : List UInt8) : Ready (s.publishVia ifidx deadline metadata payload).1 := by
  obtain ⟨evs, hg⟩ := grows_publishVia L s ifidx deadline metadata payload
  exact hs.of_shape hg.shape
    (publishVia_running L hs.running deadline metadata payload (hs.publishable ifidx)).1

theorem ready_serve (L : TxLaws C) (hrx : RxLaws C) {receivers : List (Receiver R)}
    (hret : Returning.Always receivers) (answers : Answers R) (time : CanardMicrosecond)
    (i : Fin R) {s : OpenCyphal C τ R} (hs : Ready s) :
    Ready (serveInterface receivers answers time i s).state ∧
      ((∃ t, serveInterface receivers answers time i s = .next t) ↔
        ¬ Stops L answers time i s) := by
  obtain ⟨evs, hv⟩ := visit_serveInterface L receivers answers time i s
  obtain ⟨hc, hnext⟩ := serve_running L hrx hret answers time (hs.slots i) (hs.queues i)
    hs.running fun ifidx _ => hs.publishable ifidx
  exact ⟨hs.of_shape hv.shape hc, hnext⟩

theorem ready_handle (L : TxLaws C) (hrx : RxLaws C) {receivers : List (Receiver R)}
    (hret : Returning.Always receivers) (answers : Answers R) (time : CanardMicrosecond)
    {s : OpenCyphal C τ R} (hs : Ready s) :
    Ready (handleTxRxQueues receivers answers time s).1 := by
  rw [handleTxRxQueues_of_running receivers answers time hs.running]
  have hbody : ∀ i ∈ List.finRange R, ∀ s : OpenCyphal C τ R,
      Ready s → Ready (serveInterface receivers answers time i s).state :=
    fun i _ s hs => (ready_serve L hrx hret answers time i hs).1
  exact forLoop_rel (P := fun a b => Ready a → Ready b) (fun _ h => h)
    (fun hab hbc h => hbc (hab h)) hbody s hs

/-- Interface `i` fails whatever it is asked, the others accept every frame. -/
structure Lost (answers : Answers R) (i : Fin R) : Prop where
  sendFails : ∀ n, answers.send i n < 0
  receiveFails : (answers.receive i).1 < 0
  othersAccept : ∀ j ≠ i, ∀ n, 0 < answers.send j n

/-- Either there is nothing to do on interface `j`, or all interfaces before it have a frame to
read. The lost interface never has one. -/
def Spared (answers : Answers R) (time : CanardMicrosecond) (j : Fin R)
    (frames : Multiset CanardTxQueueItem) : Prop :=
  ((∀ item ∈ frames, ¬ Live time item) ∧ (answers.receive j).1 ≤ 0) ∨
    ∀ h < j, 0 < (answers.receive h).1

/-- With the events `evs` transceiver `j` takes all of `frames` that are live, and a frame
waiting at it is fed to libcanard. -/
def Carries (answers : Answers R) (time : CanardMicrosecond) (j : Fin R)
    (frames : Multiset CanardTxQueueItem) (evs : List (Event R)) : Prop :=
  frames.filter (Live time ·) ≤ (evs.flatMap (Event.accepted j) : List CanardTxQueueItem) ∧
    (0 < (answers.receive j).1 → ∃ r, .rxAccept j (answers.receive j).2 r ∈ evs)

theorem Carries.mono {answers : Answers R} {time : CanardMicrosecond} {j : Fin R}
    {frames frames' : Multiset CanardTxQueueItem} {evs : List (Event R)}
    (h : Carries answers time j frames evs) (hf : frames' ≤ frames) :
    Carries answers time j frames' evs :=
  ⟨le_trans (Multiset.filter_le_filter _ hf) h.1, h.2⟩

/-- Interfaces that accept all frames stop the loop only with nothing to read. -/
theorem stops_of_accepting (L : TxLaws C) {answers : Answers R} (time : CanardMicrosecond)
    {i : Fin R} (hsend : ∀ n, 0 < answers.send i n) (s : OpenCyphal C τ R) :
    Stops L answers time i s ↔ (answers.receive i).1 ≤ 0 := by
  constructor
  · rintro (⟨r, hr⟩ | h)
    · have hexit := (drain_of_accepting (Live time) (answers.send i) hsend 0 (L.queued s i)).1
      rw [drainOf, hexit] at hr
      cases hr
    · exact h
  · exact .inr

/-- The loop runs through interfaces that accept all frames and have one to read. -/
theorem fallThrough_of_reading (L : TxLaws C) (hrx : RxLaws C) {receivers : List (Receiver R)}
    (hret : Returning.Always receivers) {answers : Answers R} (time : CanardMicrosecond)
    {l : List (Fin R)} (hsend : ∀ h ∈ l, ∀ n, 0 < answers.send h n)
    (hread : ∀ h ∈ l, 0 < (answers.receive h).1) {s : OpenCyphal C τ R} (hs : Ready s) :
    ∃ t, fallThrough (serveInterface receivers answers time) l s = some t ∧ Ready t := by
  induction l generalizing s with
  | nil => exact ⟨s, rfl, hs⟩
  | cons i l ih =>
    obtain ⟨hi, hl⟩ := List.forall_mem_cons.mp hsend
    obtain ⟨hri, hrl⟩ := List.forall_mem_cons.mp hread
    obtain ⟨hready, hnext⟩ := ready_serve L hrx hret answers time i hs
    obtain ⟨t, ht⟩ := hnext.mpr (by rw [stops_of_accepting L time hi]; omega)
    rw [ht] at hready
    simp only [fallThrough, ht]
    exact ih hl hrl hready

theorem forLoop_stop {body : Fin R → OpenCyphal C τ R → Flow (OpenCyphal C τ R) (Option ℤ)}
    {i : Fin R} {l : List (Fin R)} {s : OpenCyphal C τ R} (h : ∀ t, body i s ≠ .next t) :
    (forLoop body (i :: l) s).1 = (body i s).state := by
  cases hb : body i s with
  | next t => exact absurd hb (h t)
  | brk t => simp only [forLoop, hb, Flow.state_brk]
  | ret t r => simp only [forLoop, hb, Flow.state_ret]

/-- The loop reaches an interface behind others that all have a frame to read. -/
theorem reaches_of_reading (L : TxLaws C) (hrx : RxLaws C) {receivers : List (Receiver R)}
    (hret : Returning.Always receivers) {answers : Answers R} {i : Fin R} (hlost : Lost answers i)
    (time : CanardMicrosecond) {k : Fin R} (hfirst : ∀ h < k, 0 < (answers.receive h).1)
    {s : OpenCyphal C τ R} (hs : Ready s) :
    ∃ pre post t evs, List.finRange R = pre ++ k :: post ∧
      fallThrough (serveInterface receivers answers time) pre s = some t ∧ Ready t ∧
      Visit L time pre s evs t := by
  obtain ⟨pre, post, hl⟩ := List.append_of_mem (List.mem_finRange k)
  have hpre : ∀ h ∈ pre, h < k := fun h => (mem_before_of_finRange hl).mp
  have hsend : ∀ h ∈ pre, ∀ n, 0 < answers.send h n := by
    intro h hm
    apply hlost.othersAccept
    rintro rfl
    exact absurd (hfirst h (hpre h hm)) (not_lt.mpr hlost.receiveFails.le)
  obtain ⟨t, hft, ht⟩ := fallThrough_of_reading L hrx hret time hsend
    (fun h hm => hfirst h (hpre h hm)) hs
  obtain ⟨evs, hv⟩ := visit_of_reaches L (List.nodup_append'.mp (nodup_of_finRange hl)).1 hft
  exact ⟨pre, post, t, evs, hl, hft, ht, hv⟩

/-- The interfaces up to the first one `k` with nothing to read are the only ones visited. -/
theorem visit_up_to (L : TxLaws C) (hrx : RxLaws C) {receivers : List (Receiver R)}
    (hret : Returning.Always receivers) {answers : Answers R} {i : Fin R} (hlost : Lost answers i)
    (time : CanardMicrosecond) {k : Fin R} (hk : (answers.receive k).1 ≤ 0)
    (hfirst : ∀ h < k, 0 < (answers.receive h).1) {s : OpenCyphal C τ R} (hs : Ready s) :
    ∃ evs, (handleTxRxQueues receivers answers time s).1.events = s.events ++ evs ∧
      ∀ e ∈ evs, ∀ j, e.wire = some j → j ≤ k := by
  obtain ⟨pre, post, t, evs, hl, hft, ht, hv⟩ :=
    reaches_of_reading L hrx hret hlost time hfirst hs
  obtain ⟨evs', hv'⟩ := visit_serveInterface L receivers answers time k t
  have hstop : ∀ t', serveInterface receivers answers time k t ≠ .next t' := fun t' hn =>
    (ready_serve L hrx hret answers time k ht).2.mp ⟨t', hn⟩ (.inr hk)
  refine ⟨evs ++ evs', ?_, ?_⟩
  · rw [handleTxRxQueues_of_running receivers answers time hs.running, hl,
      forLoop_append_of_fallThrough _ hft, forLoop_stop hstop,
      hv'.events, hv.events, List.append_assoc]
  · intro e he j hw
    rcases List.mem_append.mp he with he | he
    · exact ((mem_before_of_finRange hl).mp (hv.wires e he j hw)).le
    · exact (List.mem_singleton.mp (hv'.wires e he j hw)).le

/-- An interface behind others that all have a frame to read is drained, and read. -/
theorem carries_of_reading (L : TxLaws C) (hrx : RxLaws C) {receivers : List (Receiver R)}
    (hret : Returning.Always receivers) {answers : Answers R} {i : Fin R} (hlost : Lost answers i)
    (time : CanardMicrosecond) {j : Fin R} (hji : j ≠ i)
    (hfirst : ∀ h < j, 0 < (answers.receive h).1) {s : OpenCyphal C τ R} (hs : Ready s) :
    ∃ evs, (handleTxRxQueues receivers answers time s).1.events = s.events ++ evs ∧
      Carries answers time j (L.queued s j) evs := by
  obtain ⟨pre, post, t, evs, hl, hft, ht, hv⟩ :=
    reaches_of_reading L hrx hret hlost time hfirst hs
  have hnd' := List.nodup_append'.mp (nodup_of_finRange hl)
  have hj : j ∉ pre := fun hm => absurd ((mem_before_of_finRange hl).mp hm) (lt_irrefl _)
  obtain ⟨que, ins, hitems, hserve⟩ := serve_cases L receivers answers time j t (ht.slots j)
    (ht.queues j)
  obtain ⟨hexit, -, hacc⟩ := drain_of_accepting (Live time) (answers.send j)
    (hlost.othersAccept j hji) 0 (L.queued t j)
  -- `j` is not the lost interface, so no frame fails on it
  rcases hserve with ⟨r, hr, -⟩ | ⟨-, hserve⟩
  · rw [drainOf, hexit] at hr; cases hr
  obtain ⟨read, hread, -, hfeed, -⟩ := visit_receive (visit_drained _ _ ins (ht.queues j) hitems)
    receivers (answers.receive j)
  rw [← hserve] at hread
  obtain ⟨evs', hpost⟩ := visit_forLoop_cons (L := L) receivers answers time post j t
    (visit_forLoop L receivers answers time post (List.nodup_cons.mp hnd'.2.1).2)
  refine ⟨evs ++ ((drainOf L (answers.send j) time j t).attempts.flatMap
    (attemptEvents time j) ++ read ++ evs'), ?_, ?_, ?_⟩
  · rw [handleTxRxQueues_of_running receivers answers time hs.running, hl,
      forLoop_append_of_fallThrough _ hft, hpost.events, hread.events, hv.events]
    simp only [List.append_assoc]
  · have hsub : ((L.queued s j).filter (Live time ·)).Subperm
        (((drainOf L (answers.send j) time j t).attempts.flatMap (attemptEvents time j)).flatMap
          (Event.accepted j)) := by
      rw [accepted_attemptEvents, drainOf, hacc]
      exact ((hv.others j hj).filter _).subperm
    apply (Multiset.coe_le.mpr hsub).trans
    simp only [List.flatMap_append, ← Multiset.coe_add]
    exact (Multiset.le_add_right _ _).trans
      ((Multiset.le_add_right _ _).trans (Multiset.le_add_left _ _))
  · intro hpos
    obtain ⟨r, hr⟩ := hfeed (ht.slots j) hpos
    exact ⟨r, List.mem_append_right _ (List.mem_append_left _ (List.mem_append_right _ hr))⟩

/-- With interface `i` lost, a call carries the traffic of another interface exactly when that
interface is spared. -/
theorem carries_iff (L : TxLaws C) (hrx : RxLaws C) {receivers : List (Receiver R)}
    (hret : Returning.Always receivers) {answers : Answers R} {i : Fin R} (hlost : Lost answers i)
    (time : CanardMicrosecond) {j : Fin R} (hji : j ≠ i) {s : OpenCyphal C τ R} (hs : Ready s)
    {frames : Multiset CanardTxQueueItem} (hframes : frames ≤ (L.queued s j : List _)) :
    (∃ evs, (handleTxRxQueues receivers answers time s).1.events = s.events ++ evs ∧
      Carries answers time j frames evs) ↔ Spared answers time j frames := by
  constructor
  · rintro ⟨evs, hevs, hacc, hfeed⟩
    by_cases hfirst : ∀ h < j, 0 < (answers.receive h).1
    · exact .inr hfirst
    -- the loop ends at the first interface with nothing to read, before `j`
    simp only [not_forall, not_lt] at hfirst
    obtain ⟨h, hhj, hh⟩ := hfirst
    obtain ⟨k, hkh, hk⟩ := exists_minimal_le_of_wellFoundedLT
      (fun k : Fin R => (answers.receive k).1 ≤ 0) h hh
    have hkj : k < j := lt_of_le_of_lt hkh hhj
    obtain ⟨evs', hevs', hwire⟩ := visit_up_to L hrx hret hlost time hk.prop
      (fun x hx => not_le.mp (hk.not_prop_of_lt hx)) hs
    rw [List.append_cancel_left (hevs.symm.trans hevs')] at hacc hfeed
    have hoff : ∀ e ∈ evs', e.wire ≠ some j :=
      fun e he hw => absurd (hwire e he j hw) (not_le.mpr hkj)
    left
    constructor
    · rw [List.flatMap_eq_nil_iff.mpr fun e he => accepted_of_wire (hoff e he)] at hacc
      exact Multiset.filter_eq_nil.mp (Multiset.le_zero.mp hacc)
    · by_contra hpos
      obtain ⟨r, hr⟩ := hfeed (not_le.mp hpos)
      exact hoff _ hr rfl
  -- with nothing to do on `j` it does not matter how far the loop gets
  · rintro (⟨hdead, hread⟩ | hfirst)
    · obtain ⟨evs, hv⟩ := visit_handleTxRxQueues L receivers answers time s
      refine ⟨evs, hv.events, ?_, fun hpos => absurd hpos (not_lt.mpr hread)⟩
      rw [Multiset.filter_eq_nil.mpr hdead]
      exact Multiset.zero_le _
    · obtain ⟨evs, hevs, hc⟩ := carries_of_reading L hrx hret hlost time hji hfirst hs
      exact ⟨evs, hevs, hc.mono hframes⟩

/-- From `s` on interface `i` is lost in every call of `HandleTxRxQueues`. -/
def LostFrom (i : Fin R) (calls : List (Call R)) : Prop :=
  ∀ receivers answers time, .handle receivers answers time ∈ calls →
    Lost answers i ∧ Returning.Always receivers

/-- The frames that were enqueued on interface `j` by the calls, in publications or by the
receivers, and still wait there. Of equal frames the older ones leave first. -/
def stillWaiting (L : TxLaws C) (s : OpenCyphal C τ R) (calls : List (Call R)) (j : Fin R) :
    Multiset CanardTxQueueItem :=
  (((runCalls s calls).events.drop s.events.length).flatMap (Event.enqueued j) : List _) ∩
    (L.queued (runCalls s calls) j : List _)

/-- What holds in every call of `HandleTxRxQueues` for every interface but `i`, and the frames
enqueued on it since `s` that still wait when the call is entered. -/
def InEveryCall (L : TxLaws C) (i : Fin R) (s : OpenCyphal C τ R) (calls : List (Call R))
    (P : List (Receiver R) → Answers R → CanardMicrosecond → Fin R → OpenCyphal C τ R →
      Multiset CanardTxQueueItem → Prop) : Prop :=
  ∀ pre receivers answers time post, calls = pre ++ .handle receivers answers time :: post →
    ∀ j ≠ i, P receivers answers time j (runCalls s pre) (stillWaiting L s pre j)

/-- The loss of interface `i` silences and deafens no other one: each call carries what has been
enqueued there since, and what waits to be read. -/
def Isolated (L : TxLaws C) (i : Fin R) (s : OpenCyphal C τ R) (calls : List (Call R)) : Prop :=
  InEveryCall L i s calls fun receivers answers time j s frames =>
    ∃ evs, (handleTxRxQueues receivers answers time s).1.events = s.events ++ evs ∧
      Carries answers time j frames evs

theorem ready_runCalls (L : TxLaws C) (hrx : RxLaws C) {calls : List (Call R)}
    (hret : ∀ receivers answers time, .handle receivers answers time ∈ calls →
      Returning.Always receivers) {s : OpenCyphal C τ R} (hs : Ready s) :
    Ready (runCalls s calls) := by
  induction calls generalizing s with
  | nil => exact hs
  | cons call calls ih =>
    apply ih fun receivers answers time hm => hret _ _ _ (List.mem_cons_of_mem _ hm)
    cases call with
    | publish ifidx deadline metadata payload =>
      exact ready_publishVia L hs ifidx deadline metadata payload
    | handle receivers answers time =>
      exact ready_handle L hrx (hret _ _ _ (List.mem_cons_self ..)) answers time hs

/-- In a run with interface `i` lost, the other interfaces are isolated from it exactly when each
is spared in every call. -/
theorem isolated_iff (L : TxLaws C) (hrx : RxLaws C) (i : Fin R) (s : OpenCyphal C τ R)
    (hs : Ready s) (calls : List (Call R)) (hlost : LostFrom i calls) :
    Isolated L i s calls ↔
      InEveryCall L i s calls fun _ answers time j _ frames => Spared answers time j frames := by
  unfold Isolated InEveryCall
  refine forall₄_congr fun pre receivers answers time => forall₂_congr fun post hcalls =>
    forall₂_congr fun j hji => ?_
  have hlostNow := hlost receivers answers time (by rw [hcalls]; simp)
  have hready : Ready (runCalls s pre) := ready_runCalls L hrx (fun receivers answers time hm =>
    (hlost receivers answers time (by rw [hcalls]; exact List.mem_append_left _ hm)).2) hs
  exact carries_iff L hrx hlostNow.2 hlostNow.1 time hji hready (Multiset.inter_le_right ..)

/-- Node 1 with three transceivers, which listens to heartbeats. -/
def threeTransceivers : OpenCyphal SingleFrame.canard Unit 3 :=
  ((((construct 1 ()).addTransceiver (some ())).addTransceiver (some ())).subscribe .message
    heartbeatMetadata.portId 12 0).1

/-- The link of the second interface is down; a heartbeat of node 2 waits at the first one. -/
def secondDown : Answers 3 where
  send i _ := if i = 1 then -100 else 1
  receive i := (if i = 1 then -100 else if i = 0 then 1 else 0,
    (SingleFrame.txItem ⟨2, [], 0⟩ 0 heartbeatMetadata [0]).frame)

/-- What is received is passed on to the third interface. -/
def relay : Receiver 3 := fun _ transfer =>
  .publish (some 2) 10 transfer.metadata [0] fun _ => .done

def relayingCalls : List (Call 3) := [.handle [relay] secondDown 1, .handle [relay] secondDown 2]

theorem threeTransceivers_ready : Ready threeTransceivers := ⟨rfl, by decide, by decide⟩

theorem secondDown_lost : LostFrom 1 relayingCalls := by
  have hlost : Lost secondDown 1 := by
    refine ⟨fun n => ?_, by decide, fun j hj n => ?_⟩
    · simp [secondDown]
    · simp [secondDown, hj]
  have hret : Returning.Always [relay] := by
    intro receiver hm i transfer _
    rw [List.mem_singleton.mp hm]
    exact ⟨trivial, fun _ => trivial⟩
  intro receivers answers time hm
  simp only [relayingCalls, List.mem_cons, Call.handle.injEq, List.not_mem_nil, or_false] at hm
  rcases hm with ⟨rfl, rfl, -⟩ | ⟨rfl, rfl, -⟩
  · exact ⟨hlost, hret⟩
  · exact ⟨hlost, hret⟩

/-- What the receiver publishes in the first call does not leave in the second one. -/
theorem isolated_iff_relayed :
    ¬ Isolated SingleFrame.txLaws 1 threeTransceivers relayingCalls := by
  rw [isolated_iff SingleFrame.txLaws SingleFrame.rxLaws 1 threeTransceivers
    threeTransceivers_ready relayingCalls secondDown_lost]
  intro h
  rcases h [.handle [relay] secondDown 1] [relay] secondDown 2 [] rfl 2 (by decide) with
    ⟨hdead, -⟩ | hread
  · exact absurd (Multiset.filter_eq_nil.mpr hdead) (by decide)
  · exact absurd (hread 1 (by decide)) (by decide)

/-- Node 1 with two transceivers. -/
def twoTransceivers : OpenCyphal SingleFrame.canard Unit 2 :=
  (construct 1 ()).addTransceiver (some ())

/-- The link of the first interface is down; the second accepts everything. -/
def firstDown : Answers 2 where
  send i _ := if i = 0 then -100 else 1
  receive i := (if i = 0 then -100 else 0, .zero)

def publication : Call 2 := .publish none 0 heartbeatMetadata [0]

/-- The message published on both interfaces stays queued on the one whose link is up. -/
theorem second_interface_silenced :
    ¬ Isolated SingleFrame.txLaws 0 twoTransceivers [publication, .handle [] firstDown 1] := by
  intro h
  obtain ⟨evs, hevs, hacc, -⟩ := h [publication] [] firstDown 1 [] rfl 1 (by decide)
  have hnone : (handleTxRxQueues [] firstDown 1
      (runCalls twoTransceivers [publication])).1.events.flatMap (Event.accepted 1) = [] := by
    decide
  rw [hevs, List.flatMap_append, List.append_eq_nil_iff] at hnone
  rw [hnone.2] at hacc
  exact absurd (Multiset.le_zero.mp hacc) (by decide)

end CyphalOnboard
