import CyphalOnboard.FaultIsolation
import CyphalOnboard.PublishResult

namespace CyphalOnboard

open EarlyExit Drain OpenCyphal

variable {C : Canard} {τ : Type} {R : ℕ} {L : TxLaws C}

/-- What a transceiver answered. -/
def Event.answer : Event R → Option ℤ
  | .send _ _ _ r => some r
  | .receive _ r => some r
  | _ => none

/-- A send or a read that failed. -/
def Event.Failed (e : Event R) : Prop := ∃ r, e.answer = some r ∧ r < 0

/-- Interface `i` fails a frame of the queue it has in `s`, or the read after it. -/
def Fails (L : TxLaws C) (answers : Answers R) (time : CanardMicrosecond) (i : Fin R)
    (s : OpenCyphal C τ R) : Prop :=
  (∃ r, (drainOf L (answers.send i) time i s).exit = .failed r) ∨ (answers.receive i).1 < 0

/-- Nothing failed on the way from `s` to `s'`. -/
def Unfailed (s s' : OpenCyphal C τ R) : Prop :=
  ∃ evs, s'.events = s.events ++ evs ∧ ∀ e ∈ evs, ¬ e.Failed

theorem Unfailed.refl (s : OpenCyphal C τ R) : Unfailed s s := ⟨[], by simp⟩

theorem Unfailed.trans {s s' s'' : OpenCyphal C τ R} (h : Unfailed s s') (h' : Unfailed s' s'') :
    Unfailed s s'' := by
  obtain ⟨evs, he, hf⟩ := h
  obtain ⟨evs', he', hf'⟩ := h'
  refine ⟨evs ++ evs', by rw [he', he, List.append_assoc], fun e hm => ?_⟩
  exact (List.mem_append.mp hm).elim (hf e) (hf' e)

theorem not_failed_of_wire {e : Event R} (h : e.wire = none) : ¬ e.Failed := by
  rintro ⟨r, hr, -⟩
  cases e with
  | send i t item r' => cases h
  | receive i r' => cases h
  | _ => cases hr

theorem not_failed_attemptEvents {time : CanardMicrosecond} {i : Fin R}
    {attempts : List (Attempt CanardTxQueueItem)} (h : ∀ a ∈ attempts, ¬ a.Failed) :
    ∀ e ∈ attempts.flatMap (attemptEvents time i), ¬ e.Failed := by
  intro e he
  rintro ⟨r, hr, hneg⟩
  rcases mem_attemptEvents he with ⟨item, r', rfl, ha⟩ | ⟨item, rfl, -⟩ | ⟨block, rfl⟩
  · cases hr
    exact h _ ha hneg
  · cases hr
  · cases hr

/-- The operation `e` is the first that failed, with the answer `r`, and the last that was
performed on the way from `s` to `s'`. -/
structure FirstFailure (s s' : OpenCyphal C τ R) (before : List (Event R)) (e : Event R) (r : ℤ) :
    Prop where
  events : s'.events = s.events ++ (before ++ [e])
  before : ∀ e' ∈ before, ¬ e'.Failed
  answer : e.answer = some r
  negative : r < 0

theorem FirstFailure.failed {s s' : OpenCyphal C τ R} {before : List (Event R)} {e : Event R}
    {r : ℤ} (h : FirstFailure s s' before e r) : e.Failed := ⟨r, h.answer, h.negative⟩

/-- The failure comes after what did not fail. -/
theorem Unfailed.then {s s' s'' : OpenCyphal C τ R} (h : Unfailed s s') {before : List (Event R)}
    {e : Event R} {r : ℤ} (h' : FirstFailure s' s'' before e r) :
    ∃ before', FirstFailure s s'' before' e r := by
  obtain ⟨evs, he, hf⟩ := h
  refine ⟨evs ++ before, ?_, ?_, h'.answer, h'.negative⟩
  · rw [h'.events, he]
    simp only [List.append_assoc]
  · intro e' hm
    exact (List.mem_append.mp hm).elim (hf e') (h'.before e')

theorem Grows.unfailed {s s' : OpenCyphal C τ R} {evs : List (Event R)} (h : Grows L s evs s') :
    Unfailed s s' :=
  ⟨evs, h.events, fun e he => not_failed_of_wire (h.offWire e he)⟩

theorem unfailed_receive (i : Fin R) {r : ℤ} (hr : 0 ≤ r) (s : OpenCyphal C τ R) :
    Unfailed s (s.record (.receive i r)) := by
  refine ⟨[.receive i r], rfl, fun e he => ?_⟩
  rw [List.mem_singleton.mp he]
  rintro ⟨r', hr', hneg⟩
  cases hr'
  omega

theorem unfailed_fed (i : Fin R) {answer : ℤ × CanardFrame} (hpos : 0 < answer.1)
    (r : RxAcceptResult C.Instance) (s : OpenCyphal C τ R) : Unfailed s (fed i answer r s) := by
  apply (unfailed_receive i hpos.le s).trans
  refine ⟨[.rxAccept i answer.2 r.result], by simp [fed, record], fun e he => ?_⟩
  rw [List.mem_singleton.mp he]
  rintro ⟨r', hr', -⟩
  cases hr'

/-- What a failing iteration over interface `i` leaves: the frame whose send failed heads its queue,
and the other queues are as they were. -/
structure FailedAt (L : TxLaws C) (i : Fin R) (s s' : OpenCyphal C τ R) (e : Event R) : Prop where
  wire : e.wire = some i
  head : ∀ j t item r, e = .send j t item r → (L.queued s' j).head? = some item
  others : ∀ j ≠ i, L.queued s' j = L.queued s j

section

variable {receivers : List (Receiver R)} {answers : Answers R} {time : CanardMicrosecond}
  {i : Fin R} {s : OpenCyphal C τ R}

theorem unfailed_drained (que : C.TxQueue) (ins : C.Instance)
    (hsent : ∀ r, (drainOf L (answers.send i) time i s).exit ≠ .failed r) :
    Unfailed s (drained time i s (drainOf L (answers.send i) time i s) que ins) :=
  ⟨_, rfl, not_failed_attemptEvents (not_failed_of_exit _ _ hsent)⟩

/-- A send that fails ends the call before the interface is read. -/
theorem send_failed (ins : C.Instance) {que : C.TxQueue}
    (hitems : L.items que = (drainOf L (answers.send i) time i s).rest) {r : ℤ}
    (hr : (drainOf L (answers.send i) time i s).exit = .failed r) :
    ∃ before e, FirstFailure s (drained time i s (drainOf L (answers.send i) time i s) que ins)
        before e r ∧
      FailedAt L i s (drained time i s (drainOf L (answers.send i) time i s) que ins) e := by
  obtain ⟨hneg, pre, x, tail, hattempts, hrest, hpre⟩ := attempts_of_failed _ _ hr
  have hlast : attemptEvents time i (.sent x r) = [.send i time x r] := if_neg (by omega)
  refine ⟨pre.flatMap (attemptEvents time i), .send i time x r, ⟨?_, ?_, rfl, hneg⟩, rfl, ?_, ?_⟩
  · simp only [drained, drainOf, hattempts, List.flatMap_append, List.flatMap_cons,
      List.flatMap_nil, List.append_nil, hlast]
  · exact not_failed_attemptEvents hpre
  · intro j t item r' he
    cases he
    rw [queued_drained hitems, drainOf, hrest, List.head?_cons]
  · intro j hj
    exact queued_drained_other hj

theorem receive_failed (i : Fin R) {r : ℤ} (hneg : r < 0) (s : OpenCyphal C τ R) :
    FirstFailure s (s.record (.receive i r)) [] (.receive i r) r where
  events := rfl
  before := by simp
  answer := rfl
  negative := hneg

/-- Reading fails and the call returns the negated answer, or nothing fails and it goes on. -/
theorem receive_report (L : TxLaws C) (hrx : RxLaws C) (hret : Returning.Always receivers)
    (answer : ℤ × CanardFrame) (time : CanardMicrosecond) (i : Fin R) {d : OpenCyphal C τ R}
    (hd : Ready d) :
    (answer.1 < 0 ∧ receive receivers answer time i d =
        .ret (d.record (.receive i answer.1)) (some (-answer.1))) ∨
      (0 ≤ answer.1 ∧ Unfailed d (receive receivers answer time i d).state ∧
        ∀ t r, receive receivers answer time i d ≠ .ret t r) := by
  rcases receive_cases L receivers answer time i d (hd.slots i) with
    ⟨hzero, hr⟩ | ⟨hneg, hr⟩ | ⟨hpos, evs, u, hg, hr⟩
  · rw [hr]
    exact .inr ⟨hzero.ge, unfailed_receive i hzero.ge d, by simp⟩
  · exact .inl ⟨hneg, hr⟩
  · obtain ⟨t, ht, -⟩ := receive_next L hrx hret hpos time (hd.slots i) hd.running
      fun ifidx _ => hd.publishable ifidx
    have hu : t = u := by
      rcases hr with hr | hr <;> rw [ht] at hr <;> cases hr
      rfl
    rw [ht]
    exact .inr ⟨hpos.le, (unfailed_fed i hpos _ d).trans (hu ▸ hg.unfailed), by simp⟩

/-- An iteration fails where its interface does, and then returns the negated answer. Elsewhere
nothing fails and the call does not return. -/
theorem serve_report (L : TxLaws C) (hrx : RxLaws C) (hret : Returning.Always receivers)
    (hs : Ready s) :
    (¬ Fails L answers time i s ∧ Unfailed s (serveInterface receivers answers time i s).state ∧
        ∀ t r, serveInterface receivers answers time i s ≠ .ret t r) ∨
      (Fails L answers time i s ∧ ∃ t before e r,
        serveInterface receivers answers time i s = .ret t (some (-r)) ∧
          FirstFailure s t before e r ∧ FailedAt L i s t e) := by
  obtain ⟨que, ins, hitems, hserve⟩ :=
    serve_cases L receivers answers time i s (hs.slots i) (hs.queues i)
  rcases hserve with ⟨r, hr, hserve⟩ | ⟨hsent, hserve⟩
  · obtain ⟨before, e, hfirst, hat⟩ := send_failed ins hitems hr
    exact .inr ⟨.inl ⟨r, hr⟩, _, before, e, r, hserve, hfirst, hat⟩
  -- every frame went out or stayed without a failure: the read decides
  have hquiet := unfailed_drained (L := L) que ins hsent
  have hshape := (visit_drained (L := L) (answers.send i) time ins (hs.queues i) hitems).shape
  have hd : Ready (drained time i s (drainOf L (answers.send i) time i s) que ins) :=
    hs.of_shape hshape hs.running
  rw [hserve]
  rcases receive_report L hrx hret (answers.receive i) time i hd with
    ⟨hneg, hr⟩ | ⟨hpos, hread, hno⟩
  · obtain ⟨before, hfirst⟩ := hquiet.then (receive_failed i hneg _)
    refine .inr ⟨.inr hneg, _, before, _, _, hr, hfirst, rfl, ?_, ?_⟩
    · intro j t item r he
      cases he
    · intro j hj
      have hother : L.queued (drained time i s (drainOf L (answers.send i) time i s) que ins) j =
          L.queued s j := queued_drained_other hj
      exact (queued_congr rfl).trans hother
  · refine .inl ⟨?_, hquiet.trans hread, hno⟩
    rintro (⟨r, hr⟩ | hneg)
    · exact hsent r hr
    · exact absurd hneg (not_lt.mpr hpos)

/-- The iterations the loop falls through fail nothing. -/
theorem fallThrough_report (L : TxLaws C) (hrx : RxLaws C) (hret : Returning.Always receivers)
    {l : List (Fin R)} {t : OpenCyphal C τ R} (hs : Ready s)
    (h : fallThrough (serveInterface receivers answers time) l s = some t) :
    Ready t ∧ Unfailed s t := by
  induction l generalizing s with
  | nil =>
    cases h
    exact ⟨hs, .refl _⟩
  | cons i l ih =>
    simp only [fallThrough] at h
    cases hb : serveInterface receivers answers time i s with
    | next u =>
      rw [hb] at h
      have hready := (ready_serve L hrx hret answers time i hs).1
      rw [hb] at hready
      obtain ⟨ht, hu⟩ := ih hready h
      rcases serve_report L hrx hret hs (i := i) with ⟨-, hquiet, -⟩ | ⟨-, v, before, e, r, hv, -⟩
      · rw [hb] at hquiet
        exact ⟨ht, hquiet.trans hu⟩
      · rw [hb] at hv
        cases hv
    | brk u => rw [hb] at h; cases h
    | ret u r => rw [hb] at h; cases h

/-- If no interface fails when the loop reaches it, no operation has failed and the result is 0. -/
theorem no_failure (L : TxLaws C) (hrx : RxLaws C) (hret : Returning.Always receivers)
    (hs : Ready s)
    (h : ∀ i t, Reaches (serveInterface receivers answers time) (List.finRange R) s i t →
      ¬ Fails L answers time i t) :
    (handleTxRxQueues receivers answers time s).2 = some 0 ∧
      Unfailed s (handleTxRxQueues receivers answers time s).1 := by
  rw [handleTxRxQueues_of_running receivers answers time hs.running]
  rcases forLoop_cases (serveInterface receivers answers time) (List.finRange R) s with
    ⟨t, hft, hloop⟩ | ⟨i, t, t', hreach, hbrk, hloop⟩ | ⟨i, t, t', r, hreach, hret', hloop⟩
  · rw [hloop]
    exact ⟨rfl, (fallThrough_report L hrx hret hs hft).2⟩
  · obtain ⟨pre, post, -, hft⟩ := hreach
    obtain ⟨ht, hquiet⟩ := fallThrough_report L hrx hret hs hft
    rw [hloop]
    refine ⟨rfl, hquiet.trans ?_⟩
    rcases serve_report L hrx hret ht (i := i) with ⟨-, hi, -⟩ | ⟨-, u, before, e, r, hu, -⟩
    · rwa [hbrk] at hi
    · rw [hbrk] at hu
      cases hu
  · obtain ⟨pre, post, -, hft⟩ := id hreach
    have ht := (fallThrough_report L hrx hret hs hft).1
    rcases serve_report L hrx hret ht (i := i) with ⟨-, -, hno⟩ | ⟨hfails, -⟩
    · exact absurd hret' (hno t' r)
    · exact absurd hfails (h i t hreach)

/-- A queue that is not visited loses nothing, and gains what receivers publish on it. -/
theorem Visit.unvisited {l : List (Fin R)} {s' : OpenCyphal C τ R} {evs : List (Event R)}
    (h : Visit L time l s evs s') {j : Fin R} (hj : j ∉ l) :
    (L.queued s j).Sublist (L.queued s' j) ∧
      (L.queued s' j).Perm (L.queued s j ++ evs.flatMap (Event.enqueued j)) := by
  have hwire : ∀ e ∈ evs, e.wire ≠ some j := fun e he hw => hj (h.wires e he j hw)
  have hb := h.balance j
  rw [List.flatMap_eq_nil_iff.mpr fun e he => accepted_of_wire (hwire e he),
    List.flatMap_eq_nil_iff.mpr fun e he => dropped_of_wire (hwire e he)] at hb
  refine ⟨h.others j hj, Multiset.coe_eq_coe.mp ?_⟩
  rw [← Multiset.coe_add, hb]
  simp

/-- If the loop reaches an interface that fails, the call returns the negated answer of the
operation that failed, and this is the first that did. Its frame is still at the head of its queue,
and the queues not reached yet hold what they held and what receivers have published on them. -/
theorem failure_at (L : TxLaws C) (hrx : RxLaws C) (hret : Returning.Always receivers)
    (hs : Ready s) {t : OpenCyphal C τ R}
    (hreach : Reaches (serveInterface receivers answers time) (List.finRange R) s i t)
    (hfails : Fails L answers time i t) :
    ∃ before e r, FirstFailure s (handleTxRxQueues receivers answers time s).1 before e r ∧
      (handleTxRxQueues receivers answers time s).2 = some (-r) ∧
      FailedAt L i t (handleTxRxQueues receivers answers time s).1 e ∧
      ∀ j, i < j →
        (L.queued s j).Sublist (L.queued (handleTxRxQueues receivers answers time s).1 j) ∧
          (L.queued (handleTxRxQueues receivers answers time s).1 j).Perm
            (L.queued s j ++ (before ++ [e]).flatMap (Event.enqueued j)) := by
  obtain ⟨pre, post, hl, hft⟩ := hreach
  obtain ⟨ht, hquiet⟩ := fallThrough_report L hrx hret hs hft
  rcases serve_report L hrx hret ht (i := i) with ⟨hno, -⟩ | ⟨-, u, before, e, r, hu, hfirst, hat⟩
  · exact absurd hfails hno
  have hloop : forLoop (serveInterface receivers answers time) (List.finRange R) s =
      (u, some (some (-r))) := by
    rw [hl, forLoop_append_of_fallThrough _ hft]
    simp only [forLoop, hu]
  rw [handleTxRxQueues_of_running receivers answers time hs.running, hloop]
  obtain ⟨before', hfirst'⟩ := hquiet.then hfirst
  refine ⟨before', e, r, hfirst', rfl, hat, fun j hj => ?_⟩
  obtain ⟨evs, hall⟩ := visit_upTo L hl hft
  rw [hu] at hall
  rw [List.append_cancel_left (hfirst'.events.symm.trans hall.events)]
  exact hall.unvisited (notMem_upTo hl hj)

end

theorem run_queue {i j : Fin R} (hji : j ≠ i) {reaction : Reaction R}
    (h : reaction.Returns (· = some i)) (s : OpenCyphal C τ R) :
    (reaction.run s).txQueues j = s.txQueues j := by
  induction reaction generalizing s with
  | done => rfl
  | crash fault => rfl
  | log entry k ih => exact ih h (s.record (.log entry))
  | publish ifidx deadline metadata payload k ih =>
    obtain ⟨rfl, hk⟩ := h
    have hother := publishOn_other s deadline metadata payload hji
    simp only [Reaction.run, publishVia]
    cases hp : s.publishOn deadline metadata payload i with
    | mk s' r =>
      rw [hp] at hother
      cases r with
      | none => exact hother
      | some r => exact (ih r (hk r) s').trans hother

theorem deliver_queue {i j : Fin R} (hji : j ≠ i) {transfer : CanardRxTransfer}
    (htid : transfer.metadata.transferId < 32) {receivers : List (Receiver R)}
    (hret : AnsweringOnArrival receivers) (k : ℕ) (s : OpenCyphal C τ R) :
    (deliver i transfer k receivers s).txQueues j = s.txQueues j := by
  induction receivers generalizing k s with
  | nil => rfl
  | cons receiver receivers ih =>
    obtain ⟨hr, hrs⟩ := List.forall_mem_cons.mp hret
    simp only [deliver]
    split
    · rfl
    · exact (ih hrs _ _).trans (run_queue hji (hr i transfer htid) _)

theorem receive_queue (hrx : RxLaws C) {receivers : List (Receiver R)}
    (hret : AnsweringOnArrival receivers) (answer : ℤ × CanardFrame) (time : CanardMicrosecond)
    {i j : Fin R} (hji : j ≠ i) (s : OpenCyphal C τ R) :
    (receive receivers answer time i s).state.txQueues j = s.txQueues j := by
  have htid := hrx.rxAccept_transferId s.inst time answer.2 i
  simp only [receive]
  cases s.transceiver i with
  | none => rfl
  | some t =>
    dsimp only
    split_ifs with hzero hneg hres hcrash hoom
    · rfl
    · rfl
    · exact deliver_queue hji (htid hres) hret 0 _
    · exact deliver_queue hji (htid hres) hret 0 _
    · rfl
    · rfl

/-- An iteration over one interface leaves the queues of the others alone. -/
theorem serve_queue (L : TxLaws C) (hrx : RxLaws C) {receivers : List (Receiver R)}
    (hret : AnsweringOnArrival receivers) (answers : Answers R) (time : CanardMicrosecond)
    {i j : Fin R} (hji : j ≠ i) {s : OpenCyphal C τ R} (hslot : (s.transceiver i).isSome)
    (hque : (s.txQueues i).isSome) :
    (serveInterface receivers answers time i s).state.txQueues j = s.txQueues j := by
  obtain ⟨que, ins, -, hserve⟩ := serve_cases L receivers answers time i s hslot hque
  have hd : (drained time i s (drainOf L (answers.send i) time i s) que ins).txQueues j =
      s.txQueues j := Function.update_of_ne hji _ _
  rcases hserve with ⟨r, -, hserve⟩ | ⟨-, hserve⟩
  · rw [hserve]
    exact hd
  · rw [hserve]
    exact (receive_queue hrx hret _ time hji _).trans hd

theorem Reaction.Returns.always {ok : Option (Fin R) → Prop} {reaction : Reaction R}
    (h : reaction.Returns ok) : reaction.Returns fun _ => True := by
  induction reaction with
  | done => trivial
  | crash fault => exact h
  | log entry k ih => exact ih h
  | publish ifidx deadline metadata payload k ih => exact ⟨trivial, fun r => ih r (h.2 r)⟩

theorem Returning.always {ok : Fin R → Option (Fin R) → Prop} {receivers : List (Receiver R)}
    (h : Returning ok receivers) : Returning.Always receivers :=
  fun receiver hm i transfer htid => (h receiver hm i transfer htid).always

/-- If the receivers publish on the interface a transfer arrived on, the queues of the interfaces
not yet reached stay as they are. -/
theorem unreached_unchanged (L : TxLaws C) (hrx : RxLaws C) {receivers : List (Receiver R)}
    (hret : AnsweringOnArrival receivers) {answers : Answers R} {time : CanardMicrosecond}
    {s t : OpenCyphal C τ R} (hs : Ready s) {i j : Fin R} (hij : i < j)
    (hreach : Reaches (serveInterface receivers answers time) (List.finRange R) s i t) :
    L.queued (serveInterface receivers answers time i t).state j = L.queued s j := by
  obtain ⟨pre, post, hl, hft⟩ := hreach
  have hbefore : ∀ h ∈ pre, j ≠ h := by
    rintro h hm rfl
    exact absurd ((mem_before_of_finRange hl).mp hm) (lt_asymm hij)
  have hbody : ∀ h ∈ pre, ∀ u : OpenCyphal C τ R, Ready u →
      Ready (serveInterface receivers answers time h u).state ∧
        (serveInterface receivers answers time h u).state.txQueues j = u.txQueues j :=
    fun h hm u hu => ⟨(ready_serve L hrx hret.always answers time h hu).1,
      serve_queue L hrx hret answers time (hbefore h hm) (hu.slots h) (hu.queues h)⟩
  -- the iterations before `i` leave queue `j` alone, and so does the one over `i`
  have hpre := forLoop_rel (P := fun a b => Ready a → Ready b ∧ b.txQueues j = a.txQueues j)
    (fun _ h => ⟨h, rfl⟩) (fun hab hbc h => ⟨(hbc (hab h).1).1, (hbc (hab h).1).2.trans (hab h).2⟩)
    hbody s hs
  rw [forLoop_of_fallThrough hft] at hpre
  obtain ⟨ht, hqueue⟩ := hpre
  have hi := serve_queue L hrx hret answers time hij.ne' (ht.slots i) (ht.queues i)
  exact queued_congr (hi.trans hqueue)

/-- The result is negative and is the negated errno of the operation `e`, the frame whose send
failed is at the head of its queue, and the queues not yet reached are unchanged. -/
structure Reported (L : TxLaws C) (s s' : OpenCyphal C τ R) (result : Option ℤ) (e : Event R) :
    Prop where
  result : ∃ r, e.answer = some r ∧ r < 0 ∧ result = some r
  head : ∀ i t item r, e = .send i t item r → (L.queued s' i).head? = some item
  unreached : ∀ i, e.wire = some i → ∀ j, i < j → L.queued s' j = L.queued s j

/-- A call returns 0 exactly if no operation has failed, and else reports the first that did. -/
def ReportsErrno (L : TxLaws C) (receivers : List (Receiver R)) (answers : Answers R)
    (time : CanardMicrosecond) (s : OpenCyphal C τ R) : Prop :=
  ∃ evs, (handleTxRxQueues receivers answers time s).1.events = s.events ++ evs ∧
    ((handleTxRxQueues receivers answers time s).2 = some 0 ↔ ∀ e ∈ evs, ¬ e.Failed) ∧
    ∀ before e after, evs = before ++ e :: after → (∀ e' ∈ before, ¬ e'.Failed) → e.Failed →
      Reported L s (handleTxRxQueues receivers answers time s).1
        (handleTxRxQueues receivers answers time s).2 e

/-- A failure is never reported as documented: the answer is negative and the call returns it
negated. -/
theorem not_reported (L : TxLaws C) (hrx : RxLaws C) {receivers : List (Receiver R)}
    (hret : Returning.Always receivers) {answers : Answers R} {time : CanardMicrosecond}
    {s t : OpenCyphal C τ R} (hs : Ready s) {i : Fin R}
    (hreach : Reaches (serveInterface receivers answers time) (List.finRange R) s i t)
    (hfails : Fails L answers time i t) : ¬ ReportsErrno L receivers answers time s := by
  rintro ⟨evs, hevs, -, hreport⟩
  obtain ⟨before, e, r, hfirst, hresult, -⟩ := failure_at L hrx hret hs hreach hfails
  have hsplit : evs = before ++ [e] := List.append_cancel_left (hevs.symm.trans hfirst.events)
  obtain ⟨r', hr', hneg, hres⟩ := (hreport before e [] hsplit hfirst.before hfirst.failed).result
  have hsame : r = r' := Option.some.inj (hfirst.answer.symm.trans hr')
  have hflip : -r = r' := Option.some.inj (hresult.symm.trans hres)
  omega

/-- A call reports the failures of transceivers as documented if and only if there is none to
report: no interface that the loop reaches fails a frame or a read. -/
theorem reportsErrno_iff (L : TxLaws C) (hrx : RxLaws C) (receivers : List (Receiver R))
    (hret : Returning.Always receivers) (answers : Answers R) (time : CanardMicrosecond)
    (s : OpenCyphal C τ R) (hs : Ready s) :
    ReportsErrno L receivers answers time s ↔
      ∀ i t, Reaches (serveInterface receivers answers time) (List.finRange R) s i t →
        ¬ Fails L answers time i t := by
  constructor
  · intro hreport i t hreach hfails
    exact not_reported L hrx hret hs hreach hfails hreport
  · intro hno
    obtain ⟨hzero, evs, hevs, hquiet⟩ := no_failure L hrx hret hs hno
    refine ⟨evs, hevs, ⟨fun _ => hquiet, fun _ => hzero⟩, ?_⟩
    intro before e after hsplit _ hfailed
    exact absurd hfailed (hquiet e (hsplit ▸ List.mem_append_right _ (List.mem_cons_self ..)))

theorem reportsErrno_iff_quiet :
    ReportsErrno SingleFrame.txLaws [] quietAnswers 1 twoInterfaces ↔
      ∀ i t, Reaches (serveInterface [] quietAnswers 1) (List.finRange 2) twoInterfaces i t →
        ¬ Fails SingleFrame.txLaws quietAnswers 1 i t :=
  reportsErrno_iff SingleFrame.txLaws SingleFrame.rxLaws []
    (by simp [Returning.Always, Returning]) quietAnswers 1 twoInterfaces twoInterfaces_ready

/-- The link of the first interface is down. The call returns 100, not -100. -/
theorem failure_returned_positive :
    (handleTxRxQueues [] firstDown 1 twoInterfaces).2 = some 100 ∧
      ¬ ReportsErrno SingleFrame.txLaws [] firstDown 1 twoInterfaces := by
  refine ⟨by decide, ?_⟩
  apply not_reported SingleFrame.txLaws SingleFrame.rxLaws
    (by simp [Returning.Always, Returning]) twoInterfaces_ready (i := 0) ⟨[], [1], rfl, rfl⟩
  exact .inr (by decide)

end CyphalOnboard
