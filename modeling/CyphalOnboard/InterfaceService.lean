import CyphalOnboard.ProcessSpec
import CyphalOnboard.SingleFrameCanard
import Mathlib.Data.Fintype.Fin

namespace CyphalOnboard

open EarlyExit Drain OpenCyphal

variable {C : Canard} {τ : Type} {R : ℕ} {L : TxLaws C}

/-- Every slot is filled, every queue initialised, and the process runs. -/
structure Ready (s : OpenCyphal C τ R) : Prop where
  running : s.crashed = none
  slots : ∀ i, (s.transceiver i).isSome
  queues : ∀ i, (s.txQueues i).isSome

/-- Interface `i` was served on the way from `s` to `s'`: its transceiver was read, and the
frames `s` had queued for it are accepted, timed out, or wait behind one answered `0`. -/
structure Served (L : TxLaws C) (time : CanardMicrosecond) (s : OpenCyphal C τ R)
    (evs : List (Event R)) (s' : OpenCyphal C τ R) (i : Fin R) : Prop where
  received : ∃ r, .receive i r ∈ evs
  frames : ∃ waiting : List CanardTxQueueItem,
    (L.queued s i : Multiset CanardTxQueueItem) ≤
      (evs.flatMap (Event.accepted i) : List CanardTxQueueItem) +
        (evs.flatMap (Event.dropped i) : List CanardTxQueueItem) + waiting ∧
    waiting.Sublist (L.queued s' i) ∧
    (waiting = [] ∨ ∃ x tail, waiting = x :: tail ∧ .send i time x 0 ∈ evs)
  timedOut : ∀ x ∈ evs.flatMap (Event.dropped i), x.txDeadlineUsec ≠ 0 ∧ x.txDeadlineUsec ≤ time

/-- The transceiver of `i` fails no frame of the queue it is offered in `s`, and has nothing to
read. -/
def Idle (L : TxLaws C) (answers : Answers R) (time : CanardMicrosecond) (i : Fin R)
    (s : OpenCyphal C τ R) : Prop :=
  (∀ r, (drainOf L (answers.send i) time i s).exit ≠ .failed r) ∧ (answers.receive i).1 = 0

theorem timedOut_of_timely {time : CanardMicrosecond} {evs : List (Event R)} {i : Fin R}
    (h : ∀ e ∈ evs, e.Timely time) {x : CanardTxQueueItem}
    (hx : x ∈ evs.flatMap (Event.dropped i)) :
    x.txDeadlineUsec ≠ 0 ∧ x.txDeadlineUsec ≤ time := by
  obtain ⟨e, he, hxe⟩ := List.mem_flatMap.mp hx
  cases e with
  | drop j t item =>
    have hitem : x = item := by
      simp only [Event.dropped] at hxe
      split_ifs at hxe
      · exact List.mem_singleton.mp hxe
      · cases hxe
    have hdead := (h _ he).2
    rw [Live, not_or] at hdead
    rw [hitem]
    exact ⟨hdead.1, UInt64.not_lt.mp hdead.2⟩
  | _ => cases hxe

/-- The frames queued for an interface are among those its drain takes or leaves. -/
theorem queued_le_drainOf (L : TxLaws C) (send : ℕ → ℤ) (time : CanardMicrosecond) (i : Fin R)
    (s : OpenCyphal C τ R) {evs : List (Event R)}
    (h : ((drainOf L send time i s).attempts.flatMap (attemptEvents time i)).Sublist evs) :
    (L.queued s i : Multiset CanardTxQueueItem) ≤
      (evs.flatMap (Event.accepted i) : List CanardTxQueueItem) +
        (evs.flatMap (Event.dropped i) : List CanardTxQueueItem) +
        (drainOf L send time i s).rest := by
  have haccepted := (h.flatMap (Event.accepted i)).subperm
  have hdropped := (h.flatMap (Event.dropped i)).subperm
  rw [accepted_attemptEvents] at haccepted
  rw [dropped_attemptEvents] at hdropped
  rw [drain_conserves (Live time) send 0 (L.queued s i), add_assoc, add_comm]
  exact add_le_add (add_le_add haccepted hdropped) le_rfl

/-- An interface that was visited without a failing frame was served. -/
theorem served_of_visit {receivers : List (Receiver R)} {answers : Answers R}
    {time : CanardMicrosecond} {pre post : List (Fin R)} {i : Fin R}
    {s t s' : OpenCyphal C τ R} {evs evs' : List (Event R)} (hs : Ready s)
    (hd : (pre ++ i :: post).Nodup) (hpre : Visit L time pre s evs t)
    (hfail : ∀ r, (drainOf L (answers.send i) time i t).exit ≠ .failed r)
    (hpost : Visit L time post (serveInterface receivers answers time i t).state evs' s') :
    ∃ evs'', Visit L time (pre ++ i :: post) s evs'' s' ∧ Served L time s evs'' s' i := by
  have hi : i ∉ pre ∧ i ∉ post := by
    have := List.nodup_middle.mp hd
    simpa using (List.nodup_cons.mp this).1
  have hslot : (t.transceiver i).isSome := by rw [hpre.transceiver]; exact hs.slots i
  have hinit : (t.txQueues i).isSome := by rw [hpre.initialised]; exact hs.queues i
  obtain ⟨que, ins, hitems, hserve⟩ := serve_cases L receivers answers time i t hslot hinit
  rcases hserve with ⟨r, hr, -⟩ | ⟨-, hserve⟩
  · exact absurd hr (hfail r)
  obtain ⟨read, hread, hmem, -, hgrow⟩ := visit_receive (visit_drained _ _ ins hinit hitems)
    receivers (answers.receive i)
  rw [hserve] at hpost
  have hd1 : pre.Disjoint ([i] ++ post) := (List.nodup_append'.mp hd).2.2
  have hd2 : [i].Disjoint post := by simpa using hi.2
  have hvisit := hpre.trans hd1 (hread.trans hd2 hpost)
  refine ⟨_, hvisit, ⟨(answers.receive i).1, ?_⟩, ?_,
    fun x hx => timedOut_of_timely hvisit.timely hx⟩
  · exact List.mem_append_right _ (List.mem_append_left _ (List.mem_append_right _ (hmem hslot)))
  have hrest : L.queued (drained time i t (drainOf L (answers.send i) time i t) que ins) i =
      (drainOf L (answers.send i) time i t).rest := queued_drained hitems
  refine ⟨(drainOf L (answers.send i) time i t).rest, ?_, ?_, ?_⟩
  · have hbefore := (hpre.others i hi.1).subperm
    -- the events of the drain are among those of the call
    have hdrain := queued_le_drainOf L (answers.send i) time i t
      (((List.sublist_append_left _ read).trans (List.sublist_append_left _ evs')).trans
        (List.sublist_append_right evs _))
    exact (Multiset.coe_le.mpr hbefore).trans hdrain
  · rw [← hrest]
    exact (hgrow i).trans (hpost.others i hi.2)
  · refine (rest_of_not_failed (Live time) (answers.send i) 0 _ hfail).imp id ?_
    rintro ⟨x, tail, hx, hsent⟩
    refine ⟨x, tail, hx, ?_⟩
    exact List.mem_append_right _ (List.mem_append_left _
      (List.mem_append_left _ (sent_mem_attemptEvents hsent)))

/-- A filled slot is left early with an error, never with `0`. -/
theorem serve_ret_ne_zero (L : TxLaws C) {receivers : List (Receiver R)} {answers : Answers R}
    {time : CanardMicrosecond} {i : Fin R} {s s' : OpenCyphal C τ R} {r : Option ℤ}
    (hslot : (s.transceiver i).isSome) (hque : (s.txQueues i).isSome)
    (h : serveInterface receivers answers time i s = .ret s' r) : r ≠ some 0 := by
  obtain ⟨que, ins, hitems, hserve⟩ := serve_cases L receivers answers time i s hslot hque
  rcases hserve with ⟨r', hr', hserve⟩ | ⟨-, hserve⟩
  · have hneg : r' < 0 := (attempts_of_failed _ _ hr').1
    rw [hserve] at h
    cases h
    simpa using hneg.ne
  · rw [hserve] at h
    set d := drained time i s (drainOf L (answers.send i) time i s) que ins
    rcases receive_cases L receivers (answers.receive i) time i d hslot with
      ⟨_, hr⟩ | ⟨hneg, hr⟩ | ⟨_, _, _, _, hr | hr⟩ <;> rw [hr] at h <;> cases h
    · simpa using hneg.ne
    · simp

/-- The loop is left by `break` exactly at an idle interface. -/
theorem serve_brk_iff (L : TxLaws C) (receivers : List (Receiver R)) {answers : Answers R}
    {time : CanardMicrosecond} {i : Fin R} {s : OpenCyphal C τ R}
    (hslot : (s.transceiver i).isSome) (hque : (s.txQueues i).isSome) :
    (∃ s', serveInterface receivers answers time i s = .brk s') ↔ Idle L answers time i s := by
  obtain ⟨que, ins, hitems, hserve⟩ := serve_cases L receivers answers time i s hslot hque
  rcases hserve with ⟨r, hr, hserve⟩ | ⟨hfail, hserve⟩
  · rw [hserve]
    constructor
    · rintro ⟨s', h⟩; cases h
    · intro h; exact absurd hr (h.1 r)
  · rw [hserve]
    set d := drained time i s (drainOf L (answers.send i) time i s) que ins
    rcases receive_cases L receivers (answers.receive i) time i d hslot with
      ⟨hzero, hr⟩ | ⟨hneg, hr⟩ | ⟨hpos, _, _, _, hr⟩
    · exact ⟨fun _ => ⟨hfail, hzero⟩, fun _ => ⟨_, hr⟩⟩
    · rw [hr]
      constructor
      · rintro ⟨s', h⟩; cases h
      · intro h; exact absurd h.2 hneg.ne
    · constructor
      · rintro ⟨s', h⟩; rcases hr with hr | hr <;> rw [hr] at h <;> cases h
      · intro h; exact absurd h.2 hpos.ne'

/-- A call that returns `0` has served every interface. -/
def ServesAll (L : TxLaws C) (receivers : List (Receiver R)) (answers : Answers R)
    (time : CanardMicrosecond) (s : OpenCyphal C τ R) : Prop :=
  (handleTxRxQueues receivers answers time s).2 = some 0 →
    ∃ evs, (handleTxRxQueues receivers answers time s).1.events = s.events ++ evs ∧
      ∀ i, Served L time s evs (handleTxRxQueues receivers answers time s).1 i

section

variable {receivers : List (Receiver R)} {answers : Answers R} {time : CanardMicrosecond}
  {s t : OpenCyphal C τ R} {i : Fin R}

/-- Slots and queues are still there when the loop reaches them. -/
theorem Ready.filled (hs : Ready s) (L : TxLaws C) {pre post : List (Fin R)}
    (hl : List.finRange R = pre ++ i :: post)
    (hft : fallThrough (serveInterface receivers answers time) pre s = some t) :
    (t.transceiver i).isSome ∧ (t.txQueues i).isSome := by
  obtain ⟨evs, hpre⟩ :=
    visit_of_reaches L (List.nodup_append'.mp (nodup_of_finRange hl)).1 hft
  exact ⟨hpre.transceiver ▸ hs.slots i, hpre.initialised i ▸ hs.queues i⟩

/-- An idle interface ends the loop, which has not read the next one. -/
theorem unread_of_idle (L : TxLaws C) (hs : Ready s)
    (hreach : Reaches (serveInterface receivers answers time) (List.finRange R) s i t)
    (hidle : Idle L answers time i t) :
    (handleTxRxQueues receivers answers time s).2 = some 0 ∧
      ∃ evs, (handleTxRxQueues receivers answers time s).1.events = s.events ++ evs ∧
        ∀ j, i < j → ∀ r, .receive j r ∉ evs := by
  obtain ⟨pre, post, hl, hft⟩ := hreach
  obtain ⟨hslot, hinit⟩ := hs.filled L hl hft
  obtain ⟨t', hbrk⟩ := (serve_brk_iff L receivers hslot hinit).mpr hidle
  have hloop : forLoop (serveInterface receivers answers time) (List.finRange R) s =
      (t', none) := by
    rw [hl, forLoop_append_of_fallThrough _ hft]
    simp only [forLoop, hbrk]
  rw [handleTxRxQueues_of_running receivers answers time hs.running, hloop]
  obtain ⟨evs, hvisit⟩ := visit_upTo L hl hft
  rw [hbrk] at hvisit
  refine ⟨rfl, evs, hvisit.events, ?_⟩
  intro j hij r hr
  exact notMem_upTo hl hij (hvisit.wires _ hr j rfl)

/-- It is enough that the loop reaches an interface and no frame fails there. -/
theorem served_of_reaches (L : TxLaws C) (hs : Ready s) {evs : List (Event R)}
    (hall : Visit L time (List.finRange R) s evs
      (forLoop (serveInterface receivers answers time) (List.finRange R) s).1)
    (hreach : Reaches (serveInterface receivers answers time) (List.finRange R) s i t)
    (hfail : ∀ r, (drainOf L (answers.send i) time i t).exit ≠ .failed r) :
    Served L time s evs
      (forLoop (serveInterface receivers answers time) (List.finRange R) s).1 i := by
  obtain ⟨pre, post, hl, hft⟩ := hreach
  have hnd := nodup_of_finRange hl
  have hnd' := List.nodup_append'.mp hnd
  obtain ⟨evs1, hpre⟩ := visit_of_reaches L hnd'.1 hft
  obtain ⟨evs2, hpost⟩ := visit_forLoop_cons (L := L) receivers answers time post i t
    (visit_forLoop L receivers answers time post (List.nodup_cons.mp hnd'.2.1).2)
  rw [← forLoop_append_of_fallThrough (i :: post) hft, ← hl] at hpost
  obtain ⟨evs', hv, hserved⟩ := served_of_visit hs hnd hpre hfail hpost
  rwa [List.append_cancel_left (hall.events.symm.trans hv.events)]

/-- Where the loop goes on no frame has failed. -/
theorem not_failed_of_next (L : TxLaws C) {t' : OpenCyphal C τ R}
    (hslot : (t.transceiver i).isSome) (hque : (t.txQueues i).isSome)
    (hb : serveInterface receivers answers time i t = .next t') :
    ∀ r, (drainOf L (answers.send i) time i t).exit ≠ .failed r := by
  intro r hr
  obtain ⟨que, ins, -, hserve⟩ := serve_cases L receivers answers time i t hslot hque
  rcases hserve with ⟨r', -, hserve⟩ | ⟨hfail, -⟩
  · rw [hserve] at hb
    cases hb
  · exact hfail r hr

end

/-- All interfaces are served by the calls that return `0` if and only if none but the last is
idle when the loop reaches it. -/
theorem servesAll_iff (L : TxLaws C) (receivers : List (Receiver R)) (answers : Answers R)
    (time : CanardMicrosecond) (s : OpenCyphal C τ R) (hs : Ready s) :
    ServesAll L receivers answers time s ↔
      ∀ i t, Reaches (serveInterface receivers answers time) (List.finRange R) s i t →
        i.val + 1 < R → ¬ Idle L answers time i t := by
  constructor
  · intro hall i t hreach hlast hidle
    obtain ⟨hzero, evs, hevs, hunread⟩ := unread_of_idle L hs hreach hidle
    obtain ⟨evs', hevs', hserved⟩ := hall hzero
    obtain rfl : evs' = evs := List.append_cancel_left (hevs'.symm.trans hevs)
    obtain ⟨r, hr⟩ := (hserved ⟨i.val + 1, hlast⟩).received
    exact hunread _ (Fin.lt_def.mpr (Nat.lt_succ_self _)) r hr
  · intro hidle hzero
    rw [handleTxRxQueues_of_running receivers answers time hs.running] at hzero ⊢
    obtain ⟨evs, hall⟩ :=
      visit_forLoop L receivers answers time _ (List.nodup_finRange R) s
    refine ⟨evs, hall.events, fun i => ?_⟩
    have hnext {pre : List (Fin R)} (post : List (Fin R)) {t t' : OpenCyphal C τ R}
        (hl : List.finRange R = pre ++ i :: post)
        (hft : fallThrough (serveInterface receivers answers time) pre s = some t)
        (hb : serveInterface receivers answers time i t = .next t') :=
      served_of_reaches L hs hall ⟨pre, post, hl, hft⟩
        (not_failed_of_next L (hs.filled L hl hft).1 (hs.filled L hl hft).2 hb)
    -- the loop ran to its end, was left by `break`, or returned
    rcases forLoop_cases (serveInterface receivers answers time) (List.finRange R) s with
      ⟨u, hu, -⟩ | ⟨k, u, u', ⟨pre, post, hl, hft⟩, hbrk, -⟩ |
        ⟨k, u, u', r, ⟨pre, post, hl, hft⟩, hret, hloop⟩
    · obtain ⟨pre, post, t, t', hl, hft, hb⟩ := split_of_fallThrough hu (List.mem_finRange i)
      exact hnext post hl hft hb
    · -- the interface that broke is idle, hence the last one
      obtain ⟨hslot, hque⟩ := hs.filled L hl hft
      have hk : Idle L answers time k u := (serve_brk_iff L receivers hslot hque).mp ⟨u', hbrk⟩
      have hlast : ¬ k.val + 1 < R := fun h => hidle k u ⟨pre, post, hl, hft⟩ h hk
      by_cases hik : i = k
      · subst hik
        exact served_of_reaches L hs hall ⟨pre, post, hl, hft⟩ hk.1
      · have hlt : i < k := by
          have : i.val ≠ k.val := fun h => hik (Fin.ext h)
          rw [Fin.lt_def]
          omega
        obtain ⟨pre', mid, t, t', rfl, hft', hb⟩ :=
          split_of_fallThrough hft ((mem_before_of_finRange hl).mpr hlt)
        refine hnext (mid ++ k :: post) ?_ hft' hb
        rw [hl, List.append_assoc, List.cons_append]
    · obtain ⟨hslot, hque⟩ := hs.filled L hl hft
      rw [hloop] at hzero
      exact absurd hzero (serve_ret_ne_zero L hslot hque hret)

def heartbeatMetadata : CanardTransferMetadata :=
  ⟨.nominal, .message, 7509, canardNodeIdUnset, 0⟩

/-- Node 1 with two transceivers, and a message waiting for each of them. -/
def twoInterfaces : OpenCyphal SingleFrame.canard Unit 2 :=
  (((construct 1 ()).addTransceiver (some ())).publish 0 heartbeatMetadata [0]).1

/-- Every frame is accepted, and there is nothing to read. -/
def quietAnswers : Answers 2 where
  send _ _ := 1
  receive _ := (0, .zero)

theorem twoInterfaces_ready : Ready twoInterfaces := ⟨rfl, by decide, by decide⟩

theorem servesAll_iff_twoInterfaces :
    ServesAll SingleFrame.txLaws [] quietAnswers 1 twoInterfaces ↔
      ∀ i t, Reaches (serveInterface [] quietAnswers 1) (List.finRange 2) twoInterfaces i t →
        i.val + 1 < 2 → ¬ Idle SingleFrame.txLaws quietAnswers 1 i t :=
  servesAll_iff SingleFrame.txLaws [] quietAnswers 1 twoInterfaces twoInterfaces_ready

/-- The first interface has nothing to read, so the second is neither sent to nor read. -/
theorem second_interface_unserved :
    ¬ ServesAll SingleFrame.txLaws [] quietAnswers 1 twoInterfaces := by
  intro h
  obtain ⟨evs, hevs, hserved⟩ := h (by decide)
  have hwires : (handleTxRxQueues [] quietAnswers 1 twoInterfaces).1.events.map Event.wire =
      twoInterfaces.events.map Event.wire ++ [some 0, none, some 0] := by decide
  rw [hevs, List.map_append, List.append_cancel_left_eq] at hwires
  obtain ⟨r, hr⟩ := (hserved 1).received
  have hmem := List.mem_map_of_mem (f := Event.wire) hr
  rw [hwires] at hmem
  simp [Event.wire] at hmem

end CyphalOnboard
