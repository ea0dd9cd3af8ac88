import CyphalOnboard.QueueSpec

namespace CyphalOnboard

open EarlyExit Drain OpenCyphal

variable {C : Canard} {τ : Type} {R : ℕ} {L : TxLaws C}

/-- The events of an attempt on interface `i`. A frame that leaves the queue is freed. -/
def attemptEvents (time : CanardMicrosecond) (i : Fin R) :
    Attempt CanardTxQueueItem → List (Event R)
  | .sent item r =>
    if 0 < r then [.send i time item r, .release (some (.txItem item))]
    else [.send i time item r]
  | .dropped item => [.drop i time item, .release (some (.txItem item))]

theorem accepted_attemptEvents (time : CanardMicrosecond) (i : Fin R)
    (attempts : List (Attempt CanardTxQueueItem)) :
    (attempts.flatMap (attemptEvents time i)).flatMap (Event.accepted i) =
      attempts.flatMap Attempt.accepted := by
  rw [List.flatMap_assoc]
  congr 1
  funext a
  cases a with
  | sent item r =>
    by_cases hr : 0 < r <;> simp [attemptEvents, Event.accepted, Attempt.accepted, hr]
  | dropped item => simp [attemptEvents, Event.accepted, Attempt.accepted]

theorem dropped_attemptEvents (time : CanardMicrosecond) (i : Fin R)
    (attempts : List (Attempt CanardTxQueueItem)) :
    (attempts.flatMap (attemptEvents time i)).flatMap (Event.dropped i) =
      attempts.flatMap Attempt.discarded := by
  rw [List.flatMap_assoc]
  congr 1
  funext a
  cases a with
  | sent item r =>
    by_cases hr : 0 < r <;> simp [attemptEvents, Event.dropped, Attempt.discarded, hr]
  | dropped item => simp [attemptEvents, Event.dropped, Attempt.discarded]

theorem mem_attemptEvents {time : CanardMicrosecond} {i : Fin R}
    {attempts : List (Attempt CanardTxQueueItem)} {e : Event R}
    (h : e ∈ attempts.flatMap (attemptEvents time i)) :
    (∃ item r, e = .send i time item r ∧ .sent item r ∈ attempts) ∨
      (∃ item, e = .drop i time item ∧ .dropped item ∈ attempts) ∨
      ∃ block, e = .release block := by
  obtain ⟨a, ha, he⟩ := List.mem_flatMap.mp h
  cases a with
  | sent item r =>
    have he' : e = .send i time item r ∨ e = .release (some (.txItem item)) := by
      simp only [attemptEvents] at he
      split_ifs at he
      · simpa using he
      · exact .inl (by simpa using he)
    rcases he' with rfl | rfl
    · exact .inl ⟨item, r, rfl, ha⟩
    · exact .inr (.inr ⟨_, rfl⟩)
  | dropped item =>
    have he' : e = .drop i time item ∨ e = .release (some (.txItem item)) := by
      simpa [attemptEvents] using he
    rcases he' with rfl | rfl
    · exact .inr (.inl ⟨item, rfl, ha⟩)
    · exact .inr (.inr ⟨_, rfl⟩)

theorem sent_mem_attemptEvents {time : CanardMicrosecond} {i : Fin R}
    {attempts : List (Attempt CanardTxQueueItem)} {item : CanardTxQueueItem} {r : ℤ}
    (h : .sent item r ∈ attempts) :
    .send i time item r ∈ attempts.flatMap (attemptEvents time i) := by
  rw [List.mem_flatMap]
  refine ⟨_, h, ?_⟩
  simp only [attemptEvents]
  split_ifs <;> simp

/-- The abstract drain of the queue of interface `i`. -/
def drainOf (L : TxLaws C) (send : ℕ → ℤ) (time : CanardMicrosecond) (i : Fin R)
    (s : OpenCyphal C τ R) : Outcome CanardTxQueueItem :=
  drain (Live time) send 0 (L.queued s i)

/-- The state after the attempts `o`, with the queue `que` and the instance `ins` left. -/
def drained (time : CanardMicrosecond) (i : Fin R) (s : OpenCyphal C τ R)
    (o : Outcome CanardTxQueueItem) (que : C.TxQueue) (ins : C.Instance) : OpenCyphal C τ R :=
  { s with
    txQueues := Function.update s.txQueues i (some que)
    inst := ins
    events := s.events ++ o.attempts.flatMap (attemptEvents time i) }

/-- Over a filled slot the loop is the drain of the items, whatever the fuel beyond their
number. -/
theorem txLoop_eq_drain (L : TxLaws C) (send : ℕ → ℤ) (time : CanardMicrosecond) (i : Fin R)
    (fuel n : ℕ) (que : C.TxQueue) (s : OpenCyphal C τ R) (hslot : (s.transceiver i).isSome)
    (hque : s.txQueues i = some que) (hfuel : (L.items que).length < fuel) :
    ∃ que' ins', L.items que' = (drain (Live time) send n (L.items que)).rest ∧
      txLoop send time i fuel n que s =
        (drained time i s (drain (Live time) send n (L.items que)) que' ins',
          some (drain (Live time) send n (L.items que)).exit) := by
  -- on the fuel: each iteration takes one item off the queue
  induction fuel generalizing n que s with
  | zero => omega
  | succ fuel ih =>
    have hpeek := L.txPeek_eq que
    cases hitems : L.items que with
    | nil =>
      rw [hitems] at hpeek
      refine ⟨que, s.inst, by simpa [drain] using hitems, ?_⟩
      simp only [txLoop, hpeek, List.head?_nil, drain, drained, List.flatMap_nil,
        List.append_nil, ← hque, Function.update_eq_self]
    | cons tqi rest =>
      rw [hitems, List.head?_cons] at hpeek
      have hpop := L.txPop_item que tqi hpeek
      have hrest := L.txPop_items que tqi hpeek
      rw [hitems, List.tail_cons] at hrest
      rw [hitems, List.length_cons] at hfuel
      obtain ⟨t, ht⟩ := Option.isSome_iff_exists.mp hslot
      have hlen : (L.items (C.canardTxPop que tqi).2).length < fuel := by rw [hrest]; omega
      by_cases hlive : Live time tqi
      · have hl : tqi.txDeadlineUsec = 0 ∨ tqi.txDeadlineUsec > time := hlive
        by_cases hzero : send n = 0
        · refine ⟨que, s.inst, by simpa [drain, hlive, hzero] using hitems, ?_⟩
          simp [txLoop, hpeek, hl, ht, hzero, drain, hlive, drained, attemptEvents, record, ← hque]
        by_cases hneg : send n < 0
        · have hpos : ¬ 0 < send n := by omega
          refine ⟨que, s.inst, by simpa [drain, hlive, hzero, hneg] using hitems, ?_⟩
          simp [txLoop, hpeek, hl, ht, hzero, hneg, hpos, drain, hlive, drained, attemptEvents,
            record, ← hque]
        -- the frame is accepted: it leaves the queue and the loop goes on with the rest
        have hpos : 0 < send n := by omega
        obtain ⟨que', ins', hque', heq⟩ := ih (n + 1) (C.canardTxPop que tqi).2
          ((s.record (.send i time tqi (send n))).popAndFree i que tqi) hslot
          (Function.update_self ..) hlen
        rw [hrest] at hque' heq
        refine ⟨que', ins', by simpa [drain, hlive, hzero, hneg] using hque', ?_⟩
        simp only [txLoop, hpeek, hl, if_true, ht, if_neg hzero, if_neg hneg, heq]
        simp [drain, hlive, hzero, hneg, hpos, drained, popAndFree, release, record, hpop,
          attemptEvents]
      · have hl : ¬ (tqi.txDeadlineUsec = 0 ∨ tqi.txDeadlineUsec > time) := hlive
        obtain ⟨que', ins', hque', heq⟩ := ih n (C.canardTxPop que tqi).2
          ((s.record (.drop i time tqi)).popAndFree i que tqi) hslot (Function.update_self ..) hlen
        rw [hrest] at hque' heq
        refine ⟨que', ins', by simpa [drain, hlive] using hque', ?_⟩
        simp only [txLoop, hpeek, if_neg hl, heq]
        simp [drain, hlive, drained, popAndFree, release, record, hpop, attemptEvents]

theorem transmit_eq_drain (L : TxLaws C) (send : ℕ → ℤ) (time : CanardMicrosecond) (i : Fin R)
    (s : OpenCyphal C τ R) (hslot : (s.transceiver i).isSome) (hque : (s.txQueues i).isSome) :
    ∃ que' ins', L.items que' = (drainOf L send time i s).rest ∧
      transmit send time i s = (drained time i s (drainOf L send time i s) que' ins',
        some (drainOf L send time i s).exit) := by
  obtain ⟨que, hq⟩ := Option.isSome_iff_exists.mp hque
  have hfuel : (L.items que).length < C.txSize que + 1 := by rw [L.txSize_eq]; omega
  have h := txLoop_eq_drain L send time i _ 0 que s hslot hq hfuel
  simpa only [transmit, hq, drainOf, queued_of_some hq] using h

/-- Through an empty slot nothing is sent: timed-out frames are dropped up to the first live one,
where the process ends. -/
theorem txLoop_null (L : TxLaws C) (send : ℕ → ℤ) (time : CanardMicrosecond) (i : Fin R)
    (fuel n : ℕ) (que : C.TxQueue) (s : OpenCyphal C τ R) (hslot : s.transceiver i = none)
    (hque : s.txQueues i = some que) (hfuel : (L.items que).length < fuel) :
    ∃ dead que' ins' fault, (∀ item ∈ dead, ¬ Live time item) ∧
      L.items que = dead ++ L.items que' ∧
      (txLoop send time i fuel n que s).1 =
        { drained time i s ⟨.drained, [], dead.map .dropped⟩ que' ins' with crashed := fault } ∧
      ((txLoop send time i fuel n que s).2 = some .drained ∨
        (txLoop send time i fuel n que s).2 = none ∧ fault = some (.nullTransceiver i)) := by
  induction fuel generalizing n que s with
  | zero => omega
  | succ fuel ih =>
    have hpeek := L.txPeek_eq que
    cases hitems : L.items que with
    | nil =>
      rw [hitems] at hpeek
      refine ⟨[], que, s.inst, s.crashed, by simp, by simp [hitems], ?_, .inl ?_⟩
      · simp [txLoop, hpeek, drained, ← hque]
      · simp [txLoop, hpeek]
    | cons tqi rest =>
      rw [hitems, List.head?_cons] at hpeek
      have hpop := L.txPop_item que tqi hpeek
      have hrest := L.txPop_items que tqi hpeek
      rw [hitems, List.tail_cons] at hrest
      by_cases hl : tqi.txDeadlineUsec = 0 ∨ tqi.txDeadlineUsec > time
      · refine ⟨[], que, s.inst, some (.nullTransceiver i), by simp, by simp [hitems], ?_,
          .inr ⟨?_, rfl⟩⟩
        · simp [txLoop, hpeek, hl, hslot, crash, drained, ← hque]
        · simp [txLoop, hpeek, hl, hslot]
      · have hlen : (L.items (C.canardTxPop que tqi).2).length < fuel := by
          rw [hitems, List.length_cons] at hfuel
          rw [hrest]
          omega
        obtain ⟨dead, que', ins', fault, hdead, hd, hstate, hexit⟩ := ih n
          (C.canardTxPop que tqi).2 ((s.record (.drop i time tqi)).popAndFree i que tqi) hslot
          (Function.update_self ..) hlen
        refine ⟨tqi :: dead, que', ins', fault, ?_, ?_, ?_, ?_⟩
        · exact List.forall_mem_cons.mpr ⟨hl, hdead⟩
        · rw [List.cons_append, ← hd, hrest]
        · simp only [txLoop, hpeek, if_neg hl, hstate]
          simp [drained, popAndFree, release, record, hpop, attemptEvents]
        · simpa only [txLoop, hpeek, if_neg hl] using hexit

/-- What visiting the interfaces `l` does. -/
structure Visit (L : TxLaws C) (time : CanardMicrosecond) (l : List (Fin R))
    (s : OpenCyphal C τ R) (evs : List (Event R)) (s' : OpenCyphal C τ R) : Prop
    extends Accounts L time s evs s' where
  others : ∀ j ∉ l, (L.queued s j).Sublist (L.queued s' j)
  wires : ∀ e ∈ evs, ∀ j, e.wire = some j → j ∈ l
  refused : ∀ j t item r, .send j t item r ∈ evs → r ≤ 0 → item ∈ L.queued s' j

theorem Visit.refl (time : CanardMicrosecond) (l : List (Fin R)) (s : OpenCyphal C τ R) :
    Visit L time l s [] s where
  toAccounts := .refl time s
  others _ _ := .refl _
  wires _ h := by cases h
  refused _ _ _ _ h := by cases h

theorem Visit.trans {time : CanardMicrosecond} {l l' : List (Fin R)} {s s' s'' : OpenCyphal C τ R}
    {evs evs' : List (Event R)} (hd : l.Disjoint l') (h : Visit L time l s evs s')
    (h' : Visit L time l' s' evs' s'') : Visit L time (l ++ l') s (evs ++ evs') s'' where
  toAccounts := h.toAccounts.trans h'.toAccounts
  others j hj := by
    rw [List.mem_append, not_or] at hj
    exact (h.others j hj.1).trans (h'.others j hj.2)
  wires e he j hj := by
    rw [List.mem_append] at he ⊢
    exact he.imp (h.wires e · j hj) (h'.wires e · j hj)
  refused j t item r he hr := by
    rcases List.mem_append.mp he with he | he
    · have hj : j ∉ l' := hd (h.wires _ he j rfl)
      exact (h'.others j hj).subset (h.refused j t item r he hr)
    · exact h'.refused j t item r he hr

theorem Visit.grow {time : CanardMicrosecond} {l : List (Fin R)} {s s' s'' : OpenCyphal C τ R}
    {evs evs' : List (Event R)} (h : Visit L time l s evs s') (h' : Grows L s' evs' s'') :
    Visit L time l s (evs ++ evs') s'' where
  toAccounts := h.toAccounts.trans (h'.accounts time)
  others j hj := (h.others j hj).trans (h'.queued_sublist j)
  wires e he j hj := by
    rcases List.mem_append.mp he with he | he
    · exact h.wires e he j hj
    · rw [h'.offWire e he] at hj; cases hj
  refused j t item r he hr := by
    rcases List.mem_append.mp he with he | he
    · exact (h'.queued_sublist j).subset (h.refused j t item r he hr)
    · cases h'.offWire _ he

/-- Reading a frame and feeding it to libcanard leave the queues and the slots alone. -/
theorem Visit.listen {time : CanardMicrosecond} {l : List (Fin R)} {i : Fin R}
    {s s' s'' : OpenCyphal C τ R} {evs : List (Event R)} {e : Event R}
    (h : Visit L time l s evs s') (hi : i ∈ l) (hq : s''.txQueues = s'.txQueues)
    (ht : s''.transceiver = s'.transceiver) (hev : s''.events = s'.events ++ [e])
    (he : (∃ r, e = .receive i r) ∨ ∃ frame r, e = .rxAccept i frame r) :
    Visit L time l s (evs ++ [e]) s'' := by
  have hqueued (j : Fin R) : L.queued s'' j = L.queued s' j := queued_congr (congrFun hq j)
  have hnone (j : Fin R) : e.enqueued j = [] ∧ e.accepted j = [] ∧ e.dropped j = [] := by
    rcases he with ⟨r, rfl⟩ | ⟨frame, r, rfl⟩ <;> exact ⟨rfl, rfl, rfl⟩
  refine ⟨⟨?_, ht.trans h.transceiver, ?_, ?_, ?_⟩, ?_, ?_, ?_⟩
  · rw [hev, h.events, List.append_assoc]
  · intro j
    rw [hq]
    exact h.initialised j
  · intro j
    obtain ⟨h1, h2, h3⟩ := hnone j
    simpa [h1, h2, h3, hqueued j] using h.balance j
  · intro e' he'
    rcases List.mem_append.mp he' with he' | he'
    · exact h.timely e' he'
    · rw [List.mem_singleton.mp he']
      rcases he with ⟨r, rfl⟩ | ⟨frame, r, rfl⟩ <;> trivial
  · intro j hj
    rw [hqueued]
    exact h.others j hj
  · intro e' he' j hj
    rcases List.mem_append.mp he' with he' | he'
    · exact h.wires e' he' j hj
    · rw [List.mem_singleton.mp he'] at hj
      rcases he with ⟨r, rfl⟩ | ⟨frame, r, rfl⟩ <;> exact Option.some.inj hj ▸ hi
  · intro j t item r hs hr
    rw [hqueued]
    rcases List.mem_append.mp hs with hs | hs
    · exact h.refused j t item r hs hr
    · rcases he with ⟨r', rfl⟩ | ⟨frame, r', rfl⟩ <;> simp at hs

theorem queued_drained {time : CanardMicrosecond} {i : Fin R} {s : OpenCyphal C τ R}
    {o : Outcome CanardTxQueueItem} {que' : C.TxQueue} {ins' : C.Instance}
    (hque : L.items que' = o.rest) : L.queued (drained time i s o que' ins') i = o.rest := by
  rw [← hque]
  exact queued_of_some (Function.update_self ..)

theorem queued_drained_other {time : CanardMicrosecond} {i j : Fin R} {s : OpenCyphal C τ R}
    {o : Outcome CanardTxQueueItem} {que' : C.TxQueue} {ins' : C.Instance} (hj : j ≠ i) :
    L.queued (drained time i s o que' ins') j = L.queued s j :=
  queued_congr (Function.update_of_ne hj _ _)

/-- Attempts concern their own interface only. -/
theorem wire_attemptEvents {time : CanardMicrosecond} {i : Fin R}
    {attempts : List (Attempt CanardTxQueueItem)} {e : Event R}
    (he : e ∈ attempts.flatMap (attemptEvents time i)) {j : Fin R} (hw : e.wire = some j) :
    j = i := by
  rcases mem_attemptEvents he with ⟨_, _, rfl, _⟩ | ⟨_, rfl, _⟩ | ⟨_, rfl⟩
  · exact (Option.some.inj hw).symm
  · exact (Option.some.inj hw).symm
  · cases hw

theorem enqueued_attemptEvents (time : CanardMicrosecond) (i j : Fin R)
    (attempts : List (Attempt CanardTxQueueItem)) :
    (attempts.flatMap (attemptEvents time i)).flatMap (Event.enqueued j) = [] := by
  rw [List.flatMap_eq_nil_iff]
  intro e he
  rcases mem_attemptEvents he with ⟨_, _, rfl, _⟩ | ⟨_, rfl, _⟩ | ⟨_, rfl⟩ <;> rfl

/-- Attempts on interface `i` that conserve its frames and respect their deadlines. -/
theorem visit_attempts {time : CanardMicrosecond} {i : Fin R} {s : OpenCyphal C τ R}
    {o : Outcome CanardTxQueueItem} {que' : C.TxQueue} (ins' : C.Instance)
    (hinit : (s.txQueues i).isSome) (hque : L.items que' = o.rest)
    (hconserves : (L.queued s i : Multiset CanardTxQueueItem) = o.rest +
      (o.attempts.flatMap Attempt.accepted : List CanardTxQueueItem) +
      (o.attempts.flatMap Attempt.discarded : List CanardTxQueueItem))
    (hlive : ∀ item r, .sent item r ∈ o.attempts → Live time item)
    (hdead : ∀ item, .dropped item ∈ o.attempts → ¬ Live time item)
    (hrefused : ∀ item r, .sent item r ∈ o.attempts → r ≤ 0 → item ∈ o.rest) :
    Visit L time [i] s (o.attempts.flatMap (attemptEvents time i))
      (drained time i s o que' ins') := by
  refine ⟨⟨rfl, rfl, ?_, ?_, ?_⟩, ?_, ?_, ?_⟩
  · intro j
    by_cases hji : j = i
    · subst hji; simp [drained, hinit]
    · simp [drained, hji]
  -- the balance: interface `i` by the drain, the others because nothing concerns them
  · intro j
    rw [enqueued_attemptEvents, Multiset.coe_nil, add_zero]
    by_cases hji : j = i
    · subst hji
      rw [queued_drained hque, accepted_attemptEvents, dropped_attemptEvents]
      exact hconserves
    · have hne : ∀ e ∈ o.attempts.flatMap (attemptEvents time i), e.wire ≠ some j :=
        fun e he hw => hji (wire_attemptEvents he hw)
      rw [queued_drained_other hji,
        List.flatMap_eq_nil_iff.mpr fun e he => accepted_of_wire (hne e he),
        List.flatMap_eq_nil_iff.mpr fun e he => dropped_of_wire (hne e he)]
      simp
  · intro e he
    rcases mem_attemptEvents he with ⟨item, r, rfl, ha⟩ | ⟨item, rfl, ha⟩ | ⟨_, rfl⟩
    · exact ⟨rfl, hlive item r ha⟩
    · exact ⟨rfl, hdead item ha⟩
    · trivial
  · intro j hj
    rw [queued_drained_other (by simpa using hj)]
  · intro e he j hw
    simp [wire_attemptEvents he hw]
  · intro j t item r he hr
    rcases mem_attemptEvents he with ⟨_, _, heq, ha⟩ | ⟨_, heq, _⟩ | ⟨_, heq⟩
    · cases heq
      rw [queued_drained hque]
      exact hrefused item r ha hr
    · cases heq
    · cases heq

theorem visit_drained (send : ℕ → ℤ) (time : CanardMicrosecond) {i : Fin R}
    {s : OpenCyphal C τ R} {que' : C.TxQueue} (ins' : C.Instance) (hinit : (s.txQueues i).isSome)
    (hque : L.items que' = (drainOf L send time i s).rest) :
    Visit L time [i] s ((drainOf L send time i s).attempts.flatMap (attemptEvents time i))
      (drained time i s (drainOf L send time i s) que' ins') := by
  apply visit_attempts ins' hinit hque (drain_conserves (Live time) send 0 _)
  · intro item r h
    exact live_of_sent _ _ h
  · intro item h
    exact not_live_of_dropped _ _ h
  · intro item r h hr
    obtain ⟨tail, ht⟩ := rest_of_refused _ _ hr h
    exact ht ▸ List.mem_cons_self ..

theorem flatMap_dropped (dead : List CanardTxQueueItem) :
    (dead.map Attempt.dropped).flatMap Attempt.accepted = [] ∧
      (dead.map Attempt.dropped).flatMap Attempt.discarded = dead := by
  induction dead with
  | nil => exact ⟨rfl, rfl⟩
  | cons x xs ih =>
    simpa only [List.map_cons, List.flatMap_cons, Attempt.accepted, Attempt.discarded,
      List.nil_append, List.singleton_append, List.cons.injEq, true_and] using ih

/-- A fault changes nothing the books are about. -/
theorem Visit.fault {time : CanardMicrosecond} {l : List (Fin R)} {s s' : OpenCyphal C τ R}
    {evs : List (Event R)} (h : Visit L time l s evs s') (fault : Option Fault) :
    Visit L time l s evs { s' with crashed := fault } :=
  ⟨⟨h.events, h.transceiver, h.initialised, h.balance, h.timely⟩, h.others, h.wires, h.refused⟩

theorem visit_transmit (L : TxLaws C) (send : ℕ → ℤ) (time : CanardMicrosecond) (i : Fin R)
    (s : OpenCyphal C τ R) : ∃ evs, Visit L time [i] s evs (transmit send time i s).1 := by
  cases hq : s.txQueues i with
  | none =>
    refine ⟨[], ?_⟩
    simp only [transmit, hq]
    exact (Visit.refl time [i] s).fault (some (.uninitialisedQueue i))
  | some que =>
    have hqueued : L.queued s i = L.items que := queued_of_some hq
    cases hslot : s.transceiver i with
    | some t =>
      obtain ⟨que', ins', hque', h⟩ := transmit_eq_drain L send time i s
        (Option.isSome_of_eq_some hslot) (Option.isSome_of_eq_some hq)
      rw [h]
      exact ⟨_, visit_drained _ _ ins' (Option.isSome_of_eq_some hq) hque'⟩
    | none =>
      obtain ⟨dead, que', ins', fault, hdead, hitems, hstate, -⟩ :=
        txLoop_null L send time i (C.txSize que + 1) 0 que s hslot hq (by rw [L.txSize_eq]; omega)
      obtain ⟨hacc, hdisc⟩ := flatMap_dropped dead
      have hv : Visit L time [i] s ((dead.map .dropped).flatMap (attemptEvents time i))
          (drained time i s ⟨.drained, L.items que', dead.map .dropped⟩ que' ins') := by
        refine visit_attempts (o := ⟨.drained, L.items que', dead.map .dropped⟩) ins'
          (Option.isSome_of_eq_some hq) rfl ?_ ?_ ?_ ?_
        · rw [hqueued, hacc, hdisc, hitems, Multiset.coe_nil, add_zero, Multiset.coe_add,
            Multiset.coe_eq_coe]
          exact List.perm_append_comm
        · intro item r h; simp at h
        · intro item h
          exact hdead item (by simpa using h)
        · intro item r h; simp at h
      -- the fault at the first live frame comes after the drops
      simp only [transmit, hq, hstate]
      exact ⟨_, hv.fault fault⟩

/-- The state in which libcanard has answered the frame read from interface `i` with `r`. -/
def fed (i : Fin R) (answer : ℤ × CanardFrame) (r : RxAcceptResult C.Instance)
    (s : OpenCyphal C τ R) : OpenCyphal C τ R :=
  { s with
    inst := r.ins
    events := s.events ++ [.receive i answer.1, .rxAccept i answer.2 r.result] }

/-- How reading interface `i` can end; `t` is what the receivers made of a frame. -/
theorem receive_cases (L : TxLaws C) (receivers : List (Receiver R)) (answer : ℤ × CanardFrame)
    (time : CanardMicrosecond) (i : Fin R) (s : OpenCyphal C τ R)
    (hslot : (s.transceiver i).isSome) :
    (answer.1 = 0 ∧ receive receivers answer time i s = .brk (s.record (.receive i answer.1))) ∨
    (answer.1 < 0 ∧ receive receivers answer time i s =
      .ret (s.record (.receive i answer.1)) (some (-answer.1))) ∨
    (0 < answer.1 ∧ ∃ evs t,
      Grows L (fed i answer (C.canardRxAccept s.inst time answer.2 i) s) evs t ∧
      (receive receivers answer time i s = .next t ∨
        receive receivers answer time i s = .ret t none)) := by
  obtain ⟨_, ht⟩ := Option.isSome_iff_exists.mp hslot
  rcases lt_trichotomy answer.1 0 with hneg | hzero | hpos
  · exact .inr (.inl ⟨hneg, by simp [receive, ht, hneg, hneg.ne]⟩)
  · exact .inl ⟨hzero, by simp [receive, ht, hzero]⟩
  refine .inr (.inr ⟨hpos, ?_⟩)
  have h0 : ¬ answer.1 = 0 := hpos.ne'
  have h1 : ¬ answer.1 < 0 := by omega
  have hfed (r : RxAcceptResult C.Instance) : { s.record (.receive i answer.1) with
      inst := r.ins
      events := (s.record (.receive i answer.1)).events ++ [.rxAccept i answer.2 r.result] } =
      fed i answer r s := by
    simp [fed, record]
  have hinst : (s.record (.receive i answer.1)).inst = s.inst := rfl
  simp only [receive, ht, if_neg h0, if_neg h1, hinst, hfed]
  generalize C.canardRxAccept s.inst time answer.2 i = r
  by_cases hr : r.result > 0
  · obtain ⟨evs, hg⟩ := grows_deliver L i r.transfer 0 receivers (fed i answer r s)
    by_cases hc : (deliver i r.transfer 0 receivers (fed i answer r s)).crashed.isSome
    · exact ⟨evs, _, hg, .inr (by rw [if_pos hr, if_pos hc])⟩
    · exact ⟨_, _, hg.trans (grows_release _ (r.transfer.payload.map .rxPayload)),
        .inl (by rw [if_pos hr, if_neg hc])⟩
  · by_cases hoom : r.result = 0 ∨ r.result = -canardErrorOutOfMemory
    · exact ⟨[], _, .refl _, .inl (by rw [if_neg hr, if_pos hoom])⟩
    · exact ⟨[], _, grows_crash _ .assertion, .inr (by rw [if_neg hr, if_neg hoom])⟩

theorem Visit.record_receive {time : CanardMicrosecond} {i : Fin R} {s s' : OpenCyphal C τ R}
    {evs : List (Event R)} (h : Visit L time [i] s evs s') (r : ℤ) :
    Visit L time [i] s (evs ++ [.receive i r]) (s'.record (.receive i r)) :=
  h.listen (by simp) rfl rfl rfl (.inl ⟨r, rfl⟩)

theorem Visit.feed {time : CanardMicrosecond} {i : Fin R} {s s' : OpenCyphal C τ R}
    {evs : List (Event R)} (h : Visit L time [i] s evs s') (answer : ℤ × CanardFrame)
    (r : RxAcceptResult C.Instance) :
    Visit L time [i] s (evs ++ [.receive i answer.1] ++ [.rxAccept i answer.2 r.result])
      (fed i answer r s') :=
  (h.record_receive answer.1).listen (by simp) rfl rfl (by simp [fed, record])
    (.inr ⟨_, _, rfl⟩)

theorem visit_receive {time : CanardMicrosecond} {i : Fin R} {s s' : OpenCyphal C τ R}
    {evs : List (Event R)} (h : Visit L time [i] s evs s') (receivers : List (Receiver R))
    (answer : ℤ × CanardFrame) :
    ∃ evs', Visit L time [i] s (evs ++ evs') (receive receivers answer time i s').state ∧
      ((s'.transceiver i).isSome → .receive i answer.1 ∈ evs') ∧
      ((s'.transceiver i).isSome → 0 < answer.1 → ∃ r, .rxAccept i answer.2 r ∈ evs') ∧
      ∀ j, (L.queued s' j).Sublist (L.queued (receive receivers answer time i s').state j) := by
  cases hslot : s'.transceiver i with
  | none =>
    refine ⟨[], ?_, by simp, by simp, ?_⟩ <;> simp only [receive, hslot, List.append_nil]
    · exact h.fault (some (.nullTransceiver i))
    · exact fun j => .refl _
  | some t =>
    rcases receive_cases L receivers answer time i s' (Option.isSome_of_eq_some hslot) with
      ⟨hzero, hr⟩ | ⟨hneg, hr⟩ | ⟨_, evs', t', hg, hr⟩
    · rw [hr]
      exact ⟨_, h.record_receive answer.1, by simp, fun _ hpos => absurd hzero hpos.ne',
        fun j => .refl _⟩
    · rw [hr]
      exact ⟨_, h.record_receive answer.1, by simp, fun _ hpos => absurd hneg (by omega),
        fun j => .refl _⟩
    · have hstate : (receive receivers answer time i s').state = t' := by
        rcases hr with hr | hr <;> rw [hr] <;> rfl
      have hv := (h.feed answer _).grow hg
      rw [List.append_assoc, List.append_assoc] at hv
      rw [hstate]
      refine ⟨_, hv, by simp, fun _ _ =>
        ⟨(C.canardRxAccept s'.inst time answer.2 i).result, ?_⟩, hg.queued_sublist⟩
      exact List.mem_append_right _ (List.mem_append_left _ (List.mem_singleton.mpr rfl))

theorem visit_serveInterface (L : TxLaws C) (receivers : List (Receiver R)) (answers : Answers R)
    (time : CanardMicrosecond) (i : Fin R) (s : OpenCyphal C τ R) :
    ∃ evs, Visit L time [i] s evs (serveInterface receivers answers time i s).state := by
  obtain ⟨evs, h⟩ := visit_transmit L (answers.send i) time i s
  cases htx : transmit (answers.send i) time i s with
  | mk s' exit =>
    rw [htx] at h
    obtain ⟨evs', h', -⟩ := visit_receive h receivers (answers.receive i)
    simp only [serveInterface, htx]
    match exit with
    | none => exact ⟨evs, h⟩
    | some (.failed r) => exact ⟨evs, h⟩
    | some .full => exact ⟨evs ++ evs', h'⟩
    | some .drained => exact ⟨evs ++ evs', h'⟩

/-- What the loop does after the iteration over `i` is a visit of the interfaces behind `i`. -/
theorem visit_forLoop_cons (receivers : List (Receiver R)) (answers : Answers R)
    (time : CanardMicrosecond) (l : List (Fin R)) (i : Fin R) (s : OpenCyphal C τ R)
    (ih : ∀ s' : OpenCyphal C τ R, ∃ evs,
      Visit L time l s' evs (forLoop (serveInterface receivers answers time) l s').1) :
    ∃ evs, Visit L time l (serveInterface receivers answers time i s).state evs
      (forLoop (serveInterface receivers answers time) (i :: l) s).1 := by
  cases hb : serveInterface receivers answers time i s with
  | next s' =>
    simp only [forLoop, hb]
    exact ih s'
  | brk s' =>
    refine ⟨[], ?_⟩
    simp only [forLoop, hb]
    exact .refl time l s'
  | ret s' r =>
    refine ⟨[], ?_⟩
    simp only [forLoop, hb]
    exact .refl time l s'

/-- The frames of an interface outside `l` wait while the loop over `l` runs. -/
theorem visit_forLoop (L : TxLaws C) (receivers : List (Receiver R)) (answers : Answers R)
    (time : CanardMicrosecond) (l : List (Fin R)) (hl : l.Nodup) (s : OpenCyphal C τ R) :
    ∃ evs, Visit L time l s evs (forLoop (serveInterface receivers answers time) l s).1 := by
  induction l generalizing s with
  | nil => exact ⟨[], .refl time [] s⟩
  | cons i l ih =>
    obtain ⟨hi, hl⟩ := List.nodup_cons.mp hl
    have hd : [i].Disjoint l := by simpa using hi
    obtain ⟨evs, h⟩ := visit_serveInterface L receivers answers time i s
    obtain ⟨evs', h'⟩ := visit_forLoop_cons receivers answers time l i s (ih hl)
    exact ⟨evs ++ evs', h.trans hd h'⟩

theorem visit_handleTxRxQueues (L : TxLaws C) (receivers : List (Receiver R))
    (answers : Answers R) (time : CanardMicrosecond) (s : OpenCyphal C τ R) :
    ∃ evs, Visit L time (List.finRange R) s evs
      (handleTxRxQueues receivers answers time s).1 := by
  cases hc : s.crashed with
  | some f =>
    refine ⟨[], ?_⟩
    simpa only [handleTxRxQueues, hc] using Visit.refl time (List.finRange R) s
  | none =>
    obtain ⟨evs, h⟩ := visit_forLoop L receivers answers time _ (List.nodup_finRange R) s
    refine ⟨evs, ?_⟩
    simp only [handleTxRxQueues, hc]
    cases hf : forLoop (serveInterface receivers answers time) (List.finRange R) s with
    | mk s' r =>
      rw [hf] at h
      cases r <;> exact h

end CyphalOnboard
