import CyphalOnboard.VisitSpec

namespace CyphalOnboard

open EarlyExit Drain OpenCyphal

variable {C : Canard} {τ : Type} {R : ℕ} {L : TxLaws C}

/-- One iteration over a filled slot: it returns where a frame fails, and else goes on to
read. -/
theorem serve_cases (L : TxLaws C) (receivers : List (Receiver R)) (answers : Answers R)
    (time : CanardMicrosecond) (i : Fin R) (s : OpenCyphal C τ R)
    (hslot : (s.transceiver i).isSome) (hque : (s.txQueues i).isSome) :
    ∃ que ins, L.items que = (drainOf L (answers.send i) time i s).rest ∧
      ((∃ r, (drainOf L (answers.send i) time i s).exit = .failed r ∧
          serveInterface receivers answers time i s =
            .ret (drained time i s (drainOf L (answers.send i) time i s) que ins) (some (-r))) ∨
        (∀ r, (drainOf L (answers.send i) time i s).exit ≠ .failed r) ∧
          serveInterface receivers answers time i s =
            receive receivers (answers.receive i) time i
              (drained time i s (drainOf L (answers.send i) time i s) que ins)) := by
  obtain ⟨que, ins, hitems, htx⟩ := transmit_eq_drain L (answers.send i) time i s hslot hque
  refine ⟨que, ins, hitems, ?_⟩
  simp only [serveInterface, htx]
  cases (drainOf L (answers.send i) time i s).exit with
  | failed r => exact .inl ⟨r, rfl, rfl⟩
  | full => exact .inr ⟨by simp, rfl⟩
  | drained => exact .inr ⟨by simp, rfl⟩

theorem handleTxRxQueues_of_running (receivers : List (Receiver R)) (answers : Answers R)
    (time : CanardMicrosecond) {s : OpenCyphal C τ R} (h : s.crashed = none) :
    handleTxRxQueues receivers answers time s =
      ((forLoop (serveInterface receivers answers time) (List.finRange R) s).1,
        (forLoop (serveInterface receivers answers time) (List.finRange R) s).2.getD (some 0)) := by
  simp only [handleTxRxQueues, h]
  cases forLoop (serveInterface receivers answers time) (List.finRange R) s with
  | mk s' r => cases r <;> rfl

/-- The state in which the loop reaches interface `i`. -/
theorem visit_of_reaches (L : TxLaws C) {receivers : List (Receiver R)} {answers : Answers R}
    {time : CanardMicrosecond} {pre : List (Fin R)} {s t : OpenCyphal C τ R} (hpre : pre.Nodup)
    (h : fallThrough (serveInterface receivers answers time) pre s = some t) :
    ∃ evs, Visit L time pre s evs t := by
  have hv := visit_forLoop L receivers answers time pre hpre s
  rwa [forLoop_of_fallThrough h] at hv

theorem nodup_of_finRange {pre post : List (Fin R)} {i : Fin R}
    (h : List.finRange R = pre ++ i :: post) : (pre ++ i :: post).Nodup :=
  h ▸ List.nodup_finRange R

theorem mem_before_of_finRange {pre post : List (Fin R)} {i j : Fin R}
    (h : List.finRange R = pre ++ i :: post) : j ∈ pre ↔ j < i := by
  have hp := List.pairwise_lt_finRange R
  have hj : j ∈ pre ++ i :: post := h ▸ List.mem_finRange j
  rw [h, List.pairwise_append, List.pairwise_cons] at hp
  constructor
  · intro hm
    exact hp.2.2 j hm i (by simp)
  · intro hlt
    rcases List.mem_append.mp hj with hm | hm
    · exact hm
    · rcases List.mem_cons.mp hm with rfl | hm
      · exact absurd hlt (lt_irrefl _)
      · exact absurd (hp.2.1.1 j hm) (lt_asymm hlt)

/-- The loop starts at the first interface. -/
theorem finRange_first {i : Fin R} (hi : i.val = 0) : ∃ post, List.finRange R = i :: post := by
  obtain ⟨pre, post, hl⟩ := List.append_of_mem (List.mem_finRange i)
  cases pre with
  | nil => exact ⟨post, hl⟩
  | cons j pre =>
    have hj : j < i := (mem_before_of_finRange hl).mp (List.mem_cons_self ..)
    exact absurd (Fin.lt_def.mp hj) (by omega)

/-- Once the iteration over interface `i` is done, the loop has visited the interfaces up to `i`. -/
theorem visit_upTo (L : TxLaws C) {receivers : List (Receiver R)} {answers : Answers R}
    {time : CanardMicrosecond} {pre post : List (Fin R)} {i : Fin R} {s t : OpenCyphal C τ R}
    (hl : List.finRange R = pre ++ i :: post)
    (h : fallThrough (serveInterface receivers answers time) pre s = some t) :
    ∃ evs, Visit L time (pre ++ [i]) s evs (serveInterface receivers answers time i t).state := by
  have hnd := nodup_of_finRange hl
  obtain ⟨evs, hpre⟩ := visit_of_reaches L (List.nodup_append'.mp hnd).1 h
  obtain ⟨evs', hi⟩ := visit_serveInterface L receivers answers time i t
  have hd : pre.Disjoint [i] := by
    have := (List.nodup_cons.mp (List.nodup_middle.mp hnd)).1
    simpa using fun hm => this (List.mem_append_left _ hm)
  exact ⟨evs ++ evs', hpre.trans hd hi⟩

theorem notMem_upTo {pre post : List (Fin R)} {i j : Fin R}
    (hl : List.finRange R = pre ++ i :: post) (hij : i < j) : j ∉ pre ++ [i] := by
  intro hm
  rcases List.mem_append.mp hm with hm | hm
  · exact absurd ((mem_before_of_finRange hl).mp hm) (lt_asymm hij)
  · exact absurd (List.mem_singleton.mp hm) hij.ne'

/-- Publishing by the overload `ifidx` touches initialised queues only. -/
def Publishable (s : OpenCyphal C τ R) : Option (Fin R) → Prop
  | some i => (s.txQueues i).isSome
  | none => ∀ i, (s.txQueues i).isSome

/-- A reaction that does not end the process by itself and publishes by overloads in `ok`. -/
def Reaction.Returns (ok : Option (Fin R) → Prop) : Reaction R → Prop
  | .done => True
  | .crash _ => False
  | .log _ k => k.Returns ok
  | .publish ifidx _ _ _ k => ok ifidx ∧ ∀ r, (k r).Returns ok

/-- Receivers that handle whatever libcanard hands them from interface `i`, publishing by
overloads in `ok i`. -/
def Returning (ok : Fin R → Option (Fin R) → Prop) (receivers : List (Receiver R)) : Prop :=
  ∀ receiver ∈ receivers, ∀ i transfer, transfer.metadata.transferId < 32 →
    (receiver i transfer).Returns (ok i)

/-- The queues that are initialised, and the slots that are filled, are the same. -/
structure SameShape (s s' : OpenCyphal C τ R) : Prop where
  transceiver : s'.transceiver = s.transceiver
  initialised : ∀ i, (s'.txQueues i).isSome = (s.txQueues i).isSome

theorem Publishable.of_shape {s s' : OpenCyphal C τ R} (h : SameShape s s')
    {ifidx : Option (Fin R)} (hp : Publishable s ifidx) : Publishable s' ifidx := by
  cases ifidx with
  | some i => simpa only [Publishable, h.initialised] using hp
  | none => simpa only [Publishable, h.initialised] using hp

theorem Grows.shape {s s' : OpenCyphal C τ R} {evs : List (Event R)} (h : Grows L s evs s') :
    SameShape s s' := ⟨h.transceiver, h.initialised⟩

theorem Visit.shape {time : CanardMicrosecond} {l : List (Fin R)} {s s' : OpenCyphal C τ R}
    {evs : List (Event R)} (h : Visit L time l s evs s') : SameShape s s' :=
  ⟨h.transceiver, h.initialised⟩

theorem publishOn_running {s : OpenCyphal C τ R} (hc : s.crashed = none)
    (deadline : CanardMicrosecond) (metadata : CanardTransferMetadata) (payload : List UInt8)
    {i : Fin R} (hq : (s.txQueues i).isSome) :
    (s.publishOn deadline metadata payload i).1.crashed = none ∧
      (s.publishOn deadline metadata payload i).2.isSome := by
  obtain ⟨que, hq⟩ := Option.isSome_iff_exists.mp hq
  simp only [publishOn, hc, hq, Option.isSome_some, and_self]

/-- Publishing on some of the interfaces, one after the other. -/
theorem foldl_publishOn_running (L : TxLaws C) (deadline : CanardMicrosecond)
    (metadata : CanardTransferMetadata) (payload : List UInt8) (l : List (Fin R))
    {s : OpenCyphal C τ R} {r : Option ℤ} (hc : s.crashed = none) (hr : r.isSome)
    (hq : ∀ i, (s.txQueues i).isSome) :
    let acc := l.foldl (fun acc i => acc.1.publishOn deadline metadata payload i) (s, r)
    acc.1.crashed = none ∧ acc.2.isSome ∧ ∀ i, (acc.1.txQueues i).isSome := by
  induction l generalizing s r with
  | nil => exact ⟨hc, hr, hq⟩
  | cons i l ih =>
    rw [List.foldl_cons]
    obtain ⟨evs, h⟩ := grows_publishOn L s deadline metadata payload i
    obtain ⟨hc', hr'⟩ := publishOn_running hc deadline metadata payload (hq i)
    apply ih hc' hr'
    intro j
    rw [h.initialised]
    exact hq j

theorem publish_running (L : TxLaws C) {s : OpenCyphal C τ R} (hc : s.crashed = none)
    (deadline : CanardMicrosecond) (metadata : CanardTransferMetadata) (payload : List UInt8)
    (hq : ∀ i, (s.txQueues i).isSome) :
    (s.publish deadline metadata payload).1.crashed = none ∧
      (s.publish deadline metadata payload).2.isSome := by
  obtain ⟨hc', hr, -⟩ := foldl_publishOn_running L deadline metadata payload (List.finRange R)
    (r := some 0) hc rfl hq
  exact ⟨hc', hr⟩

theorem publishVia_running (L : TxLaws C) {s : OpenCyphal C τ R} (hc : s.crashed = none)
    {ifidx : Option (Fin R)} (deadline : CanardMicrosecond) (metadata : CanardTransferMetadata)
    (payload : List UInt8) (hp : Publishable s ifidx) :
    (s.publishVia ifidx deadline metadata payload).1.crashed = none ∧
      (s.publishVia ifidx deadline metadata payload).2.isSome := by
  cases ifidx with
  | some i => exact publishOn_running hc deadline metadata payload hp
  | none => exact publish_running L hc deadline metadata payload hp

theorem run_running (L : TxLaws C) {ok : Option (Fin R) → Prop} {reaction : Reaction R}
    (hr : reaction.Returns ok) {s : OpenCyphal C τ R} (hc : s.crashed = none)
    (hok : ∀ ifidx, ok ifidx → Publishable s ifidx) : (reaction.run s).crashed = none := by
  induction reaction generalizing s with
  | done => exact hc
  | crash fault => exact hr.elim
  | log entry k ih =>
    exact ih hr hc fun ifidx h => (hok ifidx h).of_shape (grows_log (L := L) s entry).shape
  | publish ifidx deadline metadata payload k ih =>
    obtain ⟨evs, hg⟩ := grows_publishVia L s ifidx deadline metadata payload
    obtain ⟨hc', hsome⟩ := publishVia_running L hc deadline metadata payload (hok ifidx hr.1)
    simp only [Reaction.run]
    cases hp : s.publishVia ifidx deadline metadata payload with
    | mk s' r =>
      rw [hp] at hg hc' hsome
      cases r with
      | none => cases hsome
      | some r => exact ih r (hr.2 r) hc' fun j h => (hok j h).of_shape hg.shape

theorem deliver_running (L : TxLaws C) {ok : Fin R → Option (Fin R) → Prop}
    {receivers : List (Receiver R)} (hret : Returning ok receivers) {s : OpenCyphal C τ R}
    (hc : s.crashed = none) (i : Fin R) (hok : ∀ ifidx, ok i ifidx → Publishable s ifidx)
    {transfer : CanardRxTransfer} (htid : transfer.metadata.transferId < 32) (k : ℕ) :
    (deliver i transfer k receivers s).crashed = none := by
  induction receivers generalizing k s with
  | nil => exact hc
  | cons receiver receivers ih =>
    have hr : (receiver i transfer).Returns (ok i) :=
      hret receiver (List.mem_cons_self ..) i transfer htid
    have hl : Returning ok receivers := fun x hx => hret x (List.mem_cons_of_mem _ hx)
    have hg := grows_process (L := L) s k i transfer
    have hok' : ∀ ifidx, ok i ifidx → Publishable (s.record (.process k i transfer)) ifidx :=
      fun j h => (hok j h).of_shape hg.shape
    obtain ⟨evs, hg'⟩ := grows_run L (receiver i transfer) (s.record (.process k i transfer))
    have hc' := run_running (s := s.record (.process k i transfer)) L hr hc hok'
    simp only [deliver, hc]
    exact ih hl hc' (fun j h => (hok' j h).of_shape hg'.shape) (k + 1)

/-- A frame that can be read is fed to libcanard, and the loop goes on. -/
theorem receive_next (L : TxLaws C) (hrx : RxLaws C) {ok : Fin R → Option (Fin R) → Prop}
    {receivers : List (Receiver R)} (hret : Returning ok receivers) {answer : ℤ × CanardFrame}
    (hpos : 0 < answer.1) (time : CanardMicrosecond) {i : Fin R} {s : OpenCyphal C τ R}
    (hslot : (s.transceiver i).isSome) (hc : s.crashed = none)
    (hok : ∀ ifidx, ok i ifidx → Publishable s ifidx) :
    ∃ t, receive receivers answer time i s = .next t ∧ t.crashed = none := by
  obtain ⟨_, ht⟩ := Option.isSome_iff_exists.mp hslot
  have h0 : ¬ answer.1 = 0 := hpos.ne'
  have h1 : ¬ answer.1 < 0 := by omega
  simp only [receive, ht, if_neg h0, if_neg h1]
  generalize hr : C.canardRxAccept (s.record (.receive i answer.1)).inst time answer.2 i = r
  have hres : 0 ≤ r.result ∨ r.result = -canardErrorOutOfMemory := by
    rw [← hr]
    exact hrx.rxAccept_result _ _ _ _
  by_cases hr0 : r.result > 0
  · have htid : r.transfer.metadata.transferId < 32 := by
      rw [← hr] at hr0 ⊢
      exact hrx.rxAccept_transferId _ _ _ _ hr0
    have hd := deliver_running L hret (s := { s.record (.receive i answer.1) with
      inst := r.ins
      events := (s.record (.receive i answer.1)).events ++ [.rxAccept i answer.2 r.result] })
      hc i (fun j h => (hok j h).of_shape ⟨rfl, fun _ => rfl⟩) htid 0
    rw [if_pos hr0]
    exact ⟨_, if_neg (by simp [hd]), hd⟩
  · have hoom : r.result = 0 ∨ r.result = -canardErrorOutOfMemory := by omega
    rw [if_neg hr0]
    exact ⟨_, if_pos hoom, hc⟩

/-- A transceiver with nothing to read ends the loop, or the call, but not the process. -/
theorem receive_stops (L : TxLaws C) (receivers : List (Receiver R)) {answer : ℤ × CanardFrame}
    (hread : answer.1 ≤ 0) (time : CanardMicrosecond) {i : Fin R} {s : OpenCyphal C τ R}
    (hslot : (s.transceiver i).isSome) (hc : s.crashed = none) :
    (∀ t, receive receivers answer time i s ≠ .next t) ∧
      (receive receivers answer time i s).state.crashed = none := by
  rcases receive_cases L receivers answer time i s hslot with ⟨_, h⟩ | ⟨_, h⟩ | ⟨h, _⟩
  · rw [h]
    exact ⟨by simp, hc⟩
  · rw [h]
    exact ⟨by simp, hc⟩
  · omega

/-- Interface `i`, with the queue it has in `s`, fails a frame or has nothing to read. -/
def Stops (L : TxLaws C) (answers : Answers R) (time : CanardMicrosecond) (i : Fin R)
    (s : OpenCyphal C τ R) : Prop :=
  (∃ r, (drainOf L (answers.send i) time i s).exit = .failed r) ∨ (answers.receive i).1 ≤ 0

/-- An iteration over a filled slot with an initialised queue never ends the process, and the loop
goes on unless the interface stops it. -/
theorem serve_running (L : TxLaws C) (hrx : RxLaws C) {ok : Fin R → Option (Fin R) → Prop}
    {receivers : List (Receiver R)} (hret : Returning ok receivers) (answers : Answers R)
    (time : CanardMicrosecond) {i : Fin R} {s : OpenCyphal C τ R}
    (hslot : (s.transceiver i).isSome) (hque : (s.txQueues i).isSome) (hc : s.crashed = none)
    (hok : ∀ ifidx, ok i ifidx → Publishable s ifidx) :
    (serveInterface receivers answers time i s).state.crashed = none ∧
      ((∃ t, serveInterface receivers answers time i s = .next t) ↔
        ¬ Stops L answers time i s) := by
  obtain ⟨que, ins, hitems, hserve⟩ := serve_cases L receivers answers time i s hslot hque
  have hv := visit_drained (L := L) (answers.send i) time ins hque hitems
  set d := drained time i s (drainOf L (answers.send i) time i s) que ins
  rcases hserve with ⟨r, hr, hserve⟩ | ⟨hfail, hserve⟩
  · rw [hserve]
    refine ⟨hc, ?_, fun h => absurd (.inl ⟨r, hr⟩) h⟩
    rintro ⟨t, ht⟩
    cases ht
  · rw [hserve]
    by_cases hpos : 0 < (answers.receive i).1
    · obtain ⟨t, ht, htc⟩ := receive_next L hrx hret hpos time (s := d) hslot hc
        fun j h => (hok j h).of_shape hv.shape
      rw [ht]
      refine ⟨htc, fun _ => ?_, fun _ => ⟨t, rfl⟩⟩
      rintro (⟨r, hr⟩ | hread)
      · exact hfail r hr
      · omega
    · obtain ⟨hnext, hstate⟩ := receive_stops L receivers (not_lt.mp hpos) time (s := d) hslot hc
      refine ⟨hstate, ?_, fun h => absurd (.inr (not_lt.mp hpos)) h⟩
      rintro ⟨t, ht⟩
      exact absurd ht (hnext t)

end CyphalOnboard
