import CyphalOnboard.AtomicSteps
import CyphalOnboard.BusDelivery
import CyphalOnboard.FailureReports

namespace CyphalOnboard

open BroadcastLog Drain EarlyExit OpenCyphal

variable {C : Canard} {τ : Type} {R : ℕ}

/-- The result of a send on interface `i` that failed. -/
def Event.failedSend (i : Fin R) : Event R → Option ℤ
  | .send j _ _ r => if j = i ∧ r < 0 then some r else none
  | _ => none

/-- The number of sends on interface `i` that failed. -/
def failedCount (i : Fin R) (evs : List (Event R)) : ℕ :=
  (evs.filterMap (Event.failedSend i)).length

/-- The number of reads of interface `i`. -/
def readCount (i : Fin R) (evs : List (Event R)) : ℕ := (evs.filterMap (Event.received i)).length

/-- The number of frames of interface `i` fed to libcanard. -/
def fedCount (i : Fin R) (evs : List (Event R)) : ℕ := (evs.filterMap (Event.fed i)).length

structure Tally (i : Fin R) (evs : List (Event R)) (failed read fed : ℕ) : Prop where
  failed : failedCount i evs = failed
  read : readCount i evs = read
  fed : fedCount i evs = fed

theorem Tally.append {i : Fin R} {evs evs' : List (Event R)}
    {failed failed' read read' fed fed' : ℕ} (h : Tally i evs failed read fed)
    (h' : Tally i evs' failed' read' fed') :
    Tally i (evs ++ evs') (failed + failed') (read + read') (fed + fed') := by
  constructor
  · rw [failedCount, List.filterMap_append, List.length_append]
    exact congrArg₂ (· + ·) h.failed h'.failed
  · rw [readCount, List.filterMap_append, List.length_append]
    exact congrArg₂ (· + ·) h.read h'.read
  · rw [fedCount, List.filterMap_append, List.length_append]
    exact congrArg₂ (· + ·) h.fed h'.fed

theorem tally_nil (i : Fin R) : Tally i [] 0 0 0 := ⟨rfl, rfl, rfl⟩

theorem failedSend_of_not_failed {e : Event R} (h : ¬e.Failed) (i : Fin R) :
    e.failedSend i = none := by
  cases e with
  | send j time item r => exact if_neg fun hr => h ⟨r, rfl, hr.2⟩
  | _ => rfl

theorem failedSend_of_wire {e : Event R} (h : e.wire = none) (i : Fin R) :
    e.failedSend i = none := failedSend_of_not_failed (not_failed_of_wire h) i

theorem tally_offWire {evs : List (Event R)} (h : ∀ e ∈ evs, e.wire = none) (i : Fin R) :
    Tally i evs 0 0 0 := by
  obtain ⟨hread, hfed⟩ := filterMap_offWire h i
  have hfailed : evs.filterMap (Event.failedSend i) = [] :=
    List.filterMap_eq_nil_iff.mpr fun e he => failedSend_of_wire (h e he) i
  exact ⟨congrArg List.length hfailed, congrArg List.length hread, congrArg List.length hfed⟩

/-- As long as no frame fails, sending changes no count. -/
theorem tally_attempts (time : CanardMicrosecond) (i j : Fin R)
    {attempts : List (Attempt CanardTxQueueItem)} (h : ∀ a ∈ attempts, ¬a.Failed) :
    Tally j (attempts.flatMap (attemptEvents time i)) 0 0 0 := by
  obtain ⟨hread, hfed⟩ := unread_attempts time i j attempts
  have hfailed : (attempts.flatMap (attemptEvents time i)).filterMap (Event.failedSend j) = [] :=
    List.filterMap_eq_nil_iff.mpr fun e he =>
      failedSend_of_not_failed (not_failed_attemptEvents h e he) j
  exact ⟨congrArg List.length hfailed, congrArg List.length hread, congrArg List.length hfed⟩

theorem tally_failed (time : CanardMicrosecond) (i : Fin R) (item : CanardTxQueueItem) {r : ℤ}
    (hr : r < 0) : attemptEvents time i (.sent item r) = [.send i time item r] ∧
      Tally i [.send i time item r] 1 0 0 ∧
      ∀ j, j ≠ i → Tally j [.send i time item r] 0 0 0 := by
  refine ⟨if_neg (not_lt.mpr hr.le), ⟨?_, rfl, rfl⟩, ?_⟩
  · simp [failedCount, Event.failedSend, hr]
  · intro j hj
    have hij : i ≠ j := hj.symm
    exact ⟨by simp [failedCount, Event.failedSend, hij], rfl, rfl⟩

theorem tally_receive (i : Fin R) (r : ℤ) : Tally i [.receive i r] 0 1 0 ∧
    ∀ j, j ≠ i → Tally j [.receive i r] 0 0 0 := by
  refine ⟨⟨rfl, by simp [readCount, Event.received], rfl⟩, ?_⟩
  intro j hj
  have hij : i ≠ j := hj.symm
  exact ⟨rfl, by simp [readCount, Event.received, hij], rfl⟩

theorem tally_rxAccept (i : Fin R) (frame : CanardFrame) (r : ℤ) :
    Tally i [.rxAccept i frame r] 0 0 1 ∧ ∀ j, j ≠ i → Tally j [.rxAccept i frame r] 0 0 0 := by
  refine ⟨⟨rfl, rfl, by simp [fedCount, Event.fed]⟩, ?_⟩
  intro j hj
  have hij : i ≠ j := hj.symm
  exact ⟨rfl, rfl, by simp [fedCount, Event.fed, hij]⟩

/-- A round comes to interface `i`: it fails to send, or it is read, and behind a frame the round
goes on. -/
structure ComesTo (i : Fin R) (evs : List (Event R)) (goesOn : Prop) : Prop where
  self : Tally i evs 1 0 0 ∧ ¬goesOn ∨ Tally i evs 0 1 0 ∧ ¬goesOn ∨ Tally i evs 0 1 1 ∧ goesOn
  others : ∀ j, j ≠ i → Tally j evs 0 0 0

theorem comesTo_serve (L : TxLaws C) (hrx : RxLaws C) {receivers : List (Receiver R)}
    (hret : Returning.Always receivers) (answers : Answers R) (time : CanardMicrosecond)
    (i : Fin R) {s : OpenCyphal C τ R} (hs : Ready s) :
    ∃ evs, (serveInterface receivers answers time i s).state.events = s.events ++ evs ∧
      ComesTo i evs (∃ t, serveInterface receivers answers time i s = .next t) := by
  obtain ⟨-, hgoes⟩ := ready_serve L hrx hret answers time i hs
  obtain ⟨que, ins, -, hserve⟩ :=
    serve_cases L receivers answers time i s (hs.slots i) (hs.queues i)
  rcases hserve with ⟨r, hfailed, hserve⟩ | ⟨hsent, hserve⟩
  · obtain ⟨hr, pre, x, tail, hattempts, -, hpre⟩ := attempts_of_failed _ _ hfailed
    obtain ⟨hevent, hself, hothers⟩ := tally_failed time i x hr
    have hevs : (drainOf L (answers.send i) time i s).attempts.flatMap (attemptEvents time i) =
        pre.flatMap (attemptEvents time i) ++ [.send i time x r] := by
      change (drain _ _ _ _).attempts.flatMap _ = _
      rw [hattempts, List.flatMap_append, List.flatMap_singleton, hevent]
    have hstops : ¬∃ t, serveInterface receivers answers time i s = .next t := by
      rw [hgoes]
      exact not_not.mpr (.inl ⟨r, hfailed⟩)
    refine ⟨pre.flatMap (attemptEvents time i) ++ [.send i time x r], ?_,
      .inl ⟨(tally_attempts time i i hpre).append hself, hstops⟩,
      fun j hj => (tally_attempts time i j hpre).append (hothers j hj)⟩
    rw [hserve, ← hevs]
    rfl
  have hbefore (j : Fin R) : Tally j ((drainOf L (answers.send i) time i s).attempts.flatMap
      (attemptEvents time i)) 0 0 0 := tally_attempts time i j (not_failed_of_exit _ _ hsent)
  obtain ⟨hself, hothers⟩ := tally_receive i (answers.receive i).1
  have hread := (hbefore i).append hself
  have hreadOthers (j : Fin R) (hj : j ≠ i) := (hbefore j).append (hothers j hj)
  have hstops (hr : (answers.receive i).1 ≤ 0) :
      ¬∃ t, serveInterface receivers answers time i s = .next t := by
    rw [hgoes]
    exact not_not.mpr (.inr hr)
  rcases receive_cases L receivers (answers.receive i) time i
    (drained time i s (drainOf L (answers.send i) time i s) que ins) (hs.slots i) with
    ⟨hzero, hr⟩ | ⟨hneg, hr⟩ | ⟨hpos, evs, t, hg, hr⟩
  · refine ⟨_, ?_, .inr (.inl ⟨hread, hstops hzero.le⟩), hreadOthers⟩
    rw [hserve, hr]
    exact List.append_assoc ..
  · refine ⟨_, ?_, .inr (.inl ⟨hread, hstops hneg.le⟩), hreadOthers⟩
    rw [hserve, hr]
    exact List.append_assoc ..
  · obtain ⟨hself', hothers'⟩ := tally_rxAccept i (answers.receive i).2
      (C.canardRxAccept (drained time i s (drainOf L (answers.send i) time i s) que ins).inst time
        (answers.receive i).2 i).result
    have hafter (j : Fin R) : Tally j evs 0 0 0 := tally_offWire hg.offWire j
    have hstate : (serveInterface receivers answers time i s).state = t := by
      rw [hserve]
      rcases hr with hr | hr <;> rw [hr] <;> rfl
    have hnext : ∃ t, serveInterface receivers answers time i s = .next t := by
      rw [hgoes]
      rintro (⟨r, hfailed⟩ | hnone)
      · exact hsent r hfailed
      · omega
    refine ⟨_, ?_, .inr (.inr ⟨(hread.append hself').append (hafter i), hnext⟩),
      fun j hj => ((hreadOthers j hj).append (hothers' j hj)).append (hafter j)⟩
    rw [hstate, hg.events]
    simp only [fed, drained, List.append_assoc, List.cons_append, List.nil_append]

/-- That many rounds come to the first of the interfaces, and each frame that is read there lets one
go on to the others. -/
def Passes : List (Fin R) → ℕ → List (Event R) → Prop
  | [], _, _ => True
  | i :: l, rounds, evs => failedCount i evs + readCount i evs = rounds ∧
      fedCount i evs ≤ readCount i evs ∧ Passes l (fedCount i evs) evs

theorem passes_cons {i : Fin R} {l : List (Fin R)} {evs : List (Event R)} {failed read fed : ℕ}
    (hi : Tally i evs failed read fed) (hfed : fed ≤ read) (hl : Passes l fed evs) :
    Passes (i :: l) (failed + read) evs := by
  refine ⟨by rw [hi.failed, hi.read], ?_, ?_⟩
  · rw [hi.fed, hi.read]
    exact hfed
  · rw [hi.fed]
    exact hl

theorem passes_zero {l : List (Fin R)} {evs : List (Event R)} (h : ∀ i ∈ l, Tally i evs 0 0 0) :
    Passes l 0 evs := by
  induction l with
  | nil => trivial
  | cons i l ih =>
    obtain ⟨hi, hl⟩ := List.forall_mem_cons.mp h
    exact passes_cons hi le_rfl (ih hl)

theorem Passes.append {l : List (Fin R)} {rounds rounds' : ℕ} {evs evs' : List (Event R)}
    (h : Passes l rounds evs) (h' : Passes l rounds' evs') :
    Passes l (rounds + rounds') (evs ++ evs') := by
  induction l generalizing rounds rounds' with
  | nil => trivial
  | cons i l ih =>
    obtain ⟨rfl, hfed, hl⟩ := h
    obtain ⟨rfl, hfed', hl'⟩ := h'
    have hi : Tally i evs _ _ _ := ⟨rfl, rfl, rfl⟩
    have hi' : Tally i evs' _ _ _ := ⟨rfl, rfl, rfl⟩
    rw [Nat.add_add_add_comm]
    exact passes_cons (hi.append hi') (Nat.add_le_add hfed hfed') (ih hl hl')

/-- One round passes through the interfaces of a call. -/
theorem passes_forLoop (L : TxLaws C) (hrx : RxLaws C) {receivers : List (Receiver R)}
    (hret : Returning.Always receivers) (answers : Answers R) (time : CanardMicrosecond)
    {l : List (Fin R)} (hl : l.Nodup) {s : OpenCyphal C τ R} (hs : Ready s) :
    ∃ evs, (forLoop (serveInterface receivers answers time) l s).1.events = s.events ++ evs ∧
      Passes l 1 evs ∧ ∀ j ∉ l, Tally j evs 0 0 0 := by
  induction l generalizing s with
  | nil =>
    exact ⟨[], by rw [List.append_nil]; rfl, trivial, fun j _ => tally_nil j⟩
  | cons i l ih =>
    obtain ⟨hi, hl⟩ := List.nodup_cons.mp hl
    obtain ⟨evs, hevents, hcomes⟩ := comesTo_serve L hrx hret answers time i hs
    have hothers (j : Fin R) (hj : j ∉ i :: l) : Tally j evs 0 0 0 :=
      hcomes.others j fun hji => hj (hji ▸ List.mem_cons_self)
    have hl0 : Passes l 0 evs :=
      passes_zero fun j hj => hcomes.others j fun hji => hi (hji ▸ hj)
    have hready := (ready_serve L hrx hret answers time i hs).1
    by_cases hnext : ∃ t, serveInterface receivers answers time i s = .next t
    · obtain ⟨t, hb⟩ := hnext
      rw [hb] at hevents hready
      have htally : Tally i evs 0 1 1 := by
        rcases hcomes.self with ⟨-, h⟩ | ⟨-, h⟩ | ⟨h, -⟩
        · exact absurd ⟨t, hb⟩ h
        · exact absurd ⟨t, hb⟩ h
        · exact h
      obtain ⟨evs', hevents', hpasses, hothers'⟩ := ih hl (s := t) hready
      refine ⟨evs ++ evs', ?_, ?_, ?_⟩
      · have hfirst : t.events = s.events ++ evs := hevents
        simp only [forLoop, hb]
        rw [hevents', hfirst, List.append_assoc]
      · exact passes_cons (htally.append (hothers' i hi)) le_rfl (hl0.append hpasses)
      · intro j hj
        exact (hothers j hj).append (hothers' j fun h => hj (List.mem_cons_of_mem i h))
    · have hstate : (forLoop (serveInterface receivers answers time) (i :: l) s).1 =
          (serveInterface receivers answers time i s).state := by
        cases hb : serveInterface receivers answers time i s with
        | next t => exact absurd ⟨t, hb⟩ hnext
        | brk t => simp only [forLoop, hb, Flow.state]
        | ret t r => simp only [forLoop, hb, Flow.state]
      refine ⟨evs, hstate ▸ hevents, ?_, hothers⟩
      rcases hcomes.self with ⟨h, -⟩ | ⟨h, -⟩ | ⟨-, h⟩
      · exact passes_cons h le_rfl hl0
      · exact passes_cons h (Nat.zero_le 1) hl0
      · exact absurd h hnext

/-- Every call comes to the first interface, and every frame brings it to the next one; what comes
to an interface fails to send or reads it. -/
structure Accounted (calls : ℕ) (evs : List (Event R)) : Prop where
  first : ∀ i : Fin R, i.val = 0 → failedCount i evs + readCount i evs = calls
  next : ∀ i j : Fin R, i.val + 1 = j.val →
    failedCount j evs + readCount j evs = fedCount i evs
  fed : ∀ i, fedCount i evs ≤ readCount i evs

theorem Passes.first {l : List (Fin R)} {rounds : ℕ} {evs : List (Event R)}
    (h : Passes l rounds evs) (hl : 0 < l.length) :
    failedCount l[0] evs + readCount l[0] evs = rounds := by
  cases l with
  | nil => cases hl
  | cons i l => exact h.1

theorem Passes.next {l : List (Fin R)} {rounds : ℕ} {evs : List (Event R)}
    (h : Passes l rounds evs) {k : ℕ} (hk : k + 1 < l.length) :
    failedCount l[k + 1] evs + readCount l[k + 1] evs = fedCount l[k] evs := by
  induction l generalizing rounds k with
  | nil => cases hk
  | cons i l ih =>
    have hlen : k < l.length := Nat.lt_of_succ_lt_succ hk
    cases k with
    | zero => exact h.2.2.first hlen
    | succ k => exact ih h.2.2 hlen

theorem Passes.fed {l : List (Fin R)} {rounds : ℕ} {evs : List (Event R)}
    (h : Passes l rounds evs) {i : Fin R} (hi : i ∈ l) : fedCount i evs ≤ readCount i evs := by
  induction l generalizing rounds with
  | nil => cases hi
  | cons j l ih =>
    rcases List.mem_cons.mp hi with rfl | hi
    · exact h.2.1
    · exact ih h.2.2 hi

theorem Passes.accounted {calls : ℕ} {evs : List (Event R)}
    (h : Passes (List.finRange R) calls evs) : Accounted calls evs := by
  have hget (i : Fin R) : ∃ hi : i.val < (List.finRange R).length, (List.finRange R)[i.val] = i :=
    ⟨by simp, by simp⟩
  constructor
  · intro i hzero
    obtain ⟨hi, hget⟩ := hget i
    simp only [hzero] at hi hget
    rw [← hget]
    exact h.first hi
  · intro i j hij
    obtain ⟨hi, hgeti⟩ := hget i
    obtain ⟨hj, hgetj⟩ := hget j
    simp only [← hij] at hj hgetj
    rw [← hgetj]
    exact (h.next hj).trans (congrArg (fedCount · evs) hgeti)
  · exact fun i => h.fed (List.mem_finRange i)

/-- An interface is read no more often than there are frames on any interface before it. -/
theorem Accounted.read_le_fed {calls : ℕ} {evs : List (Event R)} (h : Accounted calls evs)
    {i j : Fin R} (hij : i < j) : readCount j evs ≤ fedCount i evs := by
  obtain ⟨d, hd⟩ := Nat.exists_eq_add_of_lt hij
  induction d generalizing j with
  | zero =>
    have hnext := h.next i j hd.symm
    omega
  | succ d ih =>
    have hlast : i.val + d + 1 + 1 = j.val := hd.symm
    have hlt : i.val + d + 1 < R := (Nat.lt_of_succ_le hlast.le).trans j.isLt
    have hi : i < ⟨i.val + d + 1, hlt⟩ := Nat.lt_succ_of_le (Nat.le_add_right ..)
    have hbefore := ih hi rfl
    have hnext := h.next ⟨i.val + d + 1, hlt⟩ j hlast
    have hfed := h.fed ⟨i.val + d + 1, hlt⟩
    omega

instance : DecidablePred (NodeCommand.Communicates (τ := τ) (R := R)) := fun command =>
  match command with
  | .handleTxRxQueues _ _ _ => isTrue trivial
  | .startNode _ | .schedule _ _ _ | .addTransceiver _ | .subscribe _ _ _ _ |
    .checkScheduler _ _ => isFalse id

/-- The number of calls of `HandleTxRxQueues`. -/
def callCount (commands : List (NodeCommand τ R)) : ℕ :=
  commands.countP fun command => decide command.Communicates

theorem callCount_cons (command : NodeCommand τ R) (commands : List (NodeCommand τ R)) :
    callCount (command :: commands) = callCount [command] + callCount commands := by
  rw [callCount, ← List.singleton_append, List.countP_append]
  rfl

/-- Between `s` and `s'` are `evs`, the records of `made` calls; of `calls` calls these are the ones
before the process ended. -/
structure Passed (calls made : ℕ) (s s' : OpenCyphal C τ R) (evs : List (Event R)) : Prop where
  events : s'.events = s.events ++ evs
  passes : Passes (List.finRange R) made evs
  made_le : made ≤ calls
  running : s'.crashed = none → s.crashed = none ∧ made = calls

theorem passed_nil (s : OpenCyphal C τ R) : Passed 0 0 s s [] where
  events := (List.append_nil _).symm
  passes := passes_zero fun i _ => tally_nil i
  made_le := le_rfl
  running h := ⟨h, rfl⟩

theorem Passed.trans {calls calls' made made' : ℕ} {s s' s'' : OpenCyphal C τ R}
    {evs evs' : List (Event R)} (h : Passed calls made s s' evs)
    (h' : Passed calls' made' s' s'' evs') :
    Passed (calls + calls') (made + made') s s'' (evs ++ evs') where
  events := by rw [h'.events, h.events, List.append_assoc]
  passes := h.passes.append h'.passes
  made_le := Nat.add_le_add h.made_le h'.made_le
  running hrun := by
    obtain ⟨hmid, hmade'⟩ := h'.running hrun
    obtain ⟨hstart, hmade⟩ := h.running hmid
    exact ⟨hstart, by rw [hmade, hmade']⟩

/-- A process that has ended does not run again. -/
theorem Atomically.running {s s' : OpenCyphal C τ R} (h : Atomically s s')
    (hrun : s'.crashed = none) : s.crashed = none := by
  refine h.rel (P := fun s s' => s'.crashed = none → s.crashed = none) (fun _ h => h)
    (fun h h' hc => h (h' hc)) (fun {s s'} hstep hc => ?_) hrun
  cases hstep with
  | crash fault => cases hc
  | push i que deadline metadata payload hque =>
    cases hs : s.crashed with
    | none => rfl
    | some fault =>
      simp only [publishOn, hs] at hc
      cases hc
  | _ => exact hc

theorem passed_command (L : TxLaws C) (hrx : RxLaws C) {latencyTask : Prop} {measures : Bool}
    {node : Node C τ R} (h : Sturdy latencyTask measures node) (command : NodeCommand τ R) :
    ∃ made evs, Passed (callCount [command]) made node.host.base (command.run node).host.base
      evs := by
  have hrunning := (atomically_command command node).running
  by_cases hcommand : command.Communicates
  · cases command with
    | handleTxRxQueues ans clock time =>
      rcases h.running with hready | ⟨hc, -⟩
      · obtain ⟨evs, hevents, hpasses, -⟩ := passes_forLoop L hrx
          (node.host.receiver_always h.name clock) ans time (List.nodup_finRange R) hready
        refine ⟨1, evs, ?_, hpasses, le_rfl, fun hrun => ⟨hrunning hrun, rfl⟩⟩
        change (OpenCyphal.handleTxRxQueues _ _ _ node.host.base).1.events = _
        rw [handleTxRxQueues_of_running _ ans time hready.running]
        exact hevents
      · have hsame : (NodeCommand.run node (.handleTxRxQueues ans clock time)).host.base =
            node.host.base := by
          change (OpenCyphal.handleTxRxQueues _ _ _ node.host.base).1 = _
          simp only [OpenCyphal.handleTxRxQueues, hc]
        refine ⟨0, [], ?_, passes_zero fun i _ => tally_nil i, Nat.zero_le _, fun hrun => ?_⟩
        · rw [hsame, List.append_nil]
        · rw [hsame, hc] at hrun
          cases hrun
    | _ => exact hcommand.elim
  · obtain ⟨evs, hevents, hoff⟩ := offWire_command L hcommand node
    have hnone : callCount [command] = 0 := by simp [callCount, hcommand]
    exact ⟨0, evs, hevents, passes_zero fun i _ => tally_offWire hoff i, Nat.zero_le _,
      fun hrun => ⟨hrunning hrun, hnone.symm⟩⟩

variable {ι : Type}

/-- What node `n` has taken off bus `i`. -/
def takenCount (net : BusNetwork ι C R) (i : Fin R) (n : ι) : ℕ := ((net.buses i).taken n).length

/-- The calls of the node are accounted for, and each message it has taken off a bus was read. -/
def KeepsPace (net : BusNetwork ι C R) (n : ι) : Prop :=
  (∃ calls, Passes (List.finRange R) calls (net.nodes n).host.base.events) ∧
    ∀ i, takenCount net i n ≤ readCount i (net.nodes n).host.base.events

theorem KeepsPace.step {net net' : BusNetwork ι C R} {n : ι} (h : KeepsPace net n)
    {calls made : ℕ} {evs : List (Event R)}
    (hpassed : Passed calls made (net.nodes n).host.base (net'.nodes n).host.base evs)
    (htaken : ∀ i, takenCount net' i n ≤ takenCount net i n + readCount i evs) :
    KeepsPace net' n := by
  obtain ⟨⟨calls', hcalls⟩, hread⟩ := h
  rw [KeepsPace, hpassed.events]
  refine ⟨⟨_, hcalls.append hpassed.passes⟩, fun i => ?_⟩
  have hsum : readCount i ((net.nodes n).host.base.events ++ evs) =
      readCount i (net.nodes n).host.base.events + readCount i evs := by
    rw [readCount, List.filterMap_append, List.length_append]
    rfl
  rw [hsum]
  exact (htaken i).trans (Nat.add_le_add_right (hread i) _)

theorem KeepsPace.same {net net' : BusNetwork ι C R} {n : ι} (h : KeepsPace net n)
    (hnode : net'.nodes n = net.nodes n) (htaken : ∀ i, takenCount net' i n = takenCount net i n) :
    KeepsPace net' n := by
  have hpassed : Passed 0 0 (net.nodes n).host.base (net'.nodes n).host.base [] := by
    rw [hnode]
    exact passed_nil _
  exact h.step hpassed fun i => (htaken i).le.trans (Nat.le_add_right _ _)

/-- A message is taken only where one is read. -/
theorem takes_le (net : BusNetwork ι C R) (n : ι) (traffic : Traffic ι R) (evs : List (Event R))
    (i : Fin R) : net.takes n traffic evs i ≤ readCount i evs := by
  unfold BusNetwork.takes readCount
  cases evs.filterMap (Event.received i) with
  | nil => exact le_rfl
  | cons r rs =>
    cases (net.nodes n).host.base.transceiver i with
    | none => exact Nat.zero_le _
    | some transceiver =>
      have hone : (traffic.reading i).pops transceiver.socket ≤ 1 := by
        unfold Reading.pops
        split_ifs
        · exact le_rfl
        · exact Nat.zero_le 1
      exact hone.trans (Nat.succ_le_succ (Nat.zero_le _))

variable [DecidableEq ι]

/-- In a network of nodes that keep running the calls of each node are accounted for. -/
theorem passed_runNetwork (L : TxLaws C) (hrx : RxLaws C) {measures : ι → Bool}
    {net : ι → Node C τ R} (h : ∀ n, Sturdy True (measures n) (net n))
    (commands : List (ι × NodeCommand τ R)) (n : ι) :
    ∃ made evs, Passed (callCount (commandsTo n commands)) made (net n).host.base
      (runNetwork net commands n).host.base evs := by
  induction commands generalizing net with
  | nil => exact ⟨0, [], passed_nil _⟩
  | cons x commands ih =>
    have hsturdy : ∀ m, Sturdy True (measures m)
        (Function.update net x.1 (x.2.run (net x.1)) m) := by
      intro m
      by_cases hm : m = x.1
      · subst hm
        rw [Function.update_self]
        exact sturdy_command L hrx (h x.1) x.2 fun _ => trivial
      · rw [Function.update_of_ne hm]
        exact h m
    obtain ⟨made', evs', hpassed'⟩ := ih hsturdy
    by_cases hx : x.1 = n
    · subst hx
      obtain ⟨made, evs, hpassed⟩ := passed_command L hrx (h x.1) x.2
      rw [Function.update_self] at hpassed'
      have hcommands : commandsTo x.1 (x :: commands) = x.2 :: commandsTo x.1 commands := by
        simp [commandsTo]
      rw [hcommands, callCount_cons]
      exact ⟨_, _, hpassed.trans hpassed'⟩
    · rw [Function.update_of_ne (Ne.symm hx)] at hpassed'
      have hcommands : commandsTo n (x :: commands) = commandsTo n commands := by
        simp [commandsTo, hx]
      exact ⟨made', evs', hcommands ▸ hpassed'⟩

/-- In every run of a network the calls of a node up to the end of its process are accounted for. -/
theorem calls_accounted (L : TxLaws C) (hrx : RxLaws C) (setup : ι → NodeSetup τ)
    (more : ι → List τ) (hname : ∀ n, (setup n).info.name.count ≤ getInfoNameCapacity)
    (hfull : ∀ n, R ≤ 1 + (more n).length) (commands : List (ι × NodeCommand τ R)) (n : ι) :
    let base :=
      (runNetwork (fun n => ((setup n).equipped (more n) : Node C τ R)) commands n).host.base
    ∃ calls ≤ callCount (commandsTo n commands), Accounted calls base.events ∧
      (base.crashed = none → calls = callCount (commandsTo n commands)) := by
  obtain ⟨made, evs, hpassed⟩ := passed_runNetwork L hrx
    (fun n => sturdy_equipped (C := C) (hname n) (hfull n) True) commands n
  have hevents := hpassed.events
  rw [equipped_events, List.nil_append] at hevents
  dsimp only
  rw [hevents]
  exact ⟨made, hpassed.made_le, hpassed.passes.accounted, fun hrun => (hpassed.running hrun).2⟩

/-- Two calls, each of them with a frame on both interfaces. -/
theorem calls_accounted_busy :
    let base := (runNetwork
      (fun n => ((measurementPair n).equipped [()] : Node SingleFrame.canard Unit 2))
      [(true, .handleTxRxQueues busyAnswers (fun _ => 0) 0), (false, .startNode 0),
        (true, .handleTxRxQueues busyAnswers (fun _ => 0) 1)] true).host.base
    ∃ calls ≤ 2, Accounted calls base.events ∧ (base.crashed = none → calls = 2) :=
  calls_accounted SingleFrame.txLaws SingleFrame.rxLaws measurementPair (fun _ => [()]) (by decide)
    (fun _ => le_rfl) [(true, .handleTxRxQueues busyAnswers (fun _ => 0) 0), (false, .startNode 0),
      (true, .handleTxRxQueues busyAnswers (fun _ => 0) 1)] true

theorem keepsPace_step (L : TxLaws C) (hrx : RxLaws C) {measures : ι → Bool}
    {net net' : BusNetwork ι C R} (hdelivering : Delivering measures net)
    (h : ∀ n, KeepsPace net n) (hstep : BusStep net net') (n : ι) : KeepsPace net' n := by
  cases hstep with
  | command m command hcommand =>
    by_cases hn : n = m
    · subst hn
      obtain ⟨made, evs, hpassed⟩ := passed_command L hrx (hdelivering.sturdy n) command
      rw [← net.setNode_self n (command.run (net.nodes n))] at hpassed
      exact (h n).step hpassed fun i => Nat.le_add_right _ _
    · exact (h n).same (BusNetwork.setNode_of_ne _ hn _) fun _ => rfl
  | call m traffic ans clock time node hnode hans =>
    obtain ⟨made, evs, hpassed⟩ :=
      passed_command L hrx (hdelivering.sturdy m) (.handleTxRxQueues ans clock time)
    rw [← hnode] at hpassed
    have hevs := recordedSince_eq hpassed.events
    have hkept (i : Fin R) (k : ι) : (net.sentOn m traffic evs i).taken k =
        (net.buses i).taken k := Log.taken_append (hdelivering.wellFormed i) _ k
    have hbus (i : Fin R) : (net.called m traffic node).buses i =
        (net.sentOn m traffic evs i).take m (net.takes m traffic evs i) := by
      rw [← hevs]
      rfl
    by_cases hn : n = m
    · subst hn
      have hself : (net.called n traffic node).nodes n = node := Function.update_self ..
      refine (h n).step (hself.symm ▸ hpassed) fun i => ?_
      rw [takenCount, hbus, Log.taken_take, hkept, List.length_append, List.length_take]
      exact Nat.add_le_add_left ((Nat.min_le_left ..).trans (takes_le net n traffic evs i)) _
    · refine (h n).same (Function.update_of_ne hn ..) fun i => ?_
      rw [takenCount, hbus, Log.taken_take_of_ne _ hn, hkept]
      rfl
  | outside arrivals =>
    refine (h n).same rfl fun i => ?_
    exact congrArg List.length (Log.taken_append (hdelivering.wellFormed i) _ n)

/-- On no bus a node takes more messages than frames were handed out to it on any bus before. Those
that arrive faster wait. -/
theorem backlog_bound (L : TxLaws C) (hrx : RxLaws C)
    {setup : ι → NodeSetup SocketCANTransceiver} {more : ι → List SocketCANTransceiver}
    (hname : ∀ n, (setup n).info.name.count ≤ getInfoNameCapacity)
    (hfull : ∀ n, R ≤ 1 + (more n).length) {net : BusNetwork ι C R}
    (hrun : Relation.ReflTransGen BusStep (.start setup more) net) (n : ι) {i j : Fin R}
    (hij : i < j) :
    ((net.buses j).admittedTo n).length ≤
      ((net.buses j).waiting n).length +
        (((net.buses i).taken n).filterMap (handedOut n)).length := by
  have hdelivering := reachable_delivering L hrx hname hfull hrun
  have hpace : ∀ n, KeepsPace net n := by
    induction hrun with
    | refl =>
      intro m
      have hevents : ((BusNetwork.start setup more : BusNetwork ι C R).nodes m).host.base.events =
        [] := equipped_events (setup m) (more m)
      rw [KeepsPace, hevents]
      exact ⟨⟨0, passes_zero fun i _ => tally_nil i⟩, fun _ => le_rfl⟩
    | tail hrun hstep ih =>
      have hbefore := reachable_delivering L hrx hname hfull hrun
      exact keepsPace_step L hrx hbefore (ih hbefore) hstep
  obtain ⟨⟨calls, hpasses⟩, htaken⟩ := hpace n
  have hfed : fedCount i (net.nodes n).host.base.events =
      (((net.buses i).taken n).filterMap (handedOut n)).length :=
    congrArg List.length (hdelivering.faithful i n).received
  have hsplit : ((net.buses j).admittedTo n).length =
      ((net.buses j).taken n).length + ((net.buses j).waiting n).length := by
    rw [← List.length_append]
    exact congrArg List.length (List.take_append_drop ..).symm
  have hread := htaken j
  have horder := hpasses.accounted.read_le_fed hij
  rw [← hfed, hsplit]
  unfold takenCount at hread
  omega

def pairedBuses : BusNetwork Bool SingleFrame.strictCanard 2 :=
  .start busSetup fun _ => [⟨5, "vcan1", true⟩]

/-- Frames from outside, one on the first bus and two on the second. -/
def strayArrivals (i : Fin 2) : List (CanFdFrame × (Bool → Bool)) :=
  List.replicate (i.val + 1) (canFdFrameOf heartbeatItem.frame, fun _ => true)

def strayBuses : BusNetwork Bool SingleFrame.strictCanard 2 :=
  { pairedBuses with
    buses := fun i => (pairedBuses.buses i).append (weave [] fun _ => strayArrivals i) }

/-- A node has read one frame on each bus. -/
def readBuses : BusNetwork Bool SingleFrame.strictCanard 2 :=
  strayBuses.called false quietTraffic (NodeCommand.run (strayBuses.nodes false)
    (.handleTxRxQueues hearingAnswers (fun _ => 0) 7))

theorem readBuses_answered :
    strayBuses.Answered false quietTraffic hearingAnswers
      [.receive 0 1, .rxAccept 0 heartbeatItem.frame 0, .receive 1 1,
        .rxAccept 1 heartbeatItem.frame 0] := by
  constructor
  · intro i k item r he
    cases he
  · intro i r he
    obtain rfl | rfl : i = 0 ∨ i = 1 := by omega
    · exact ⟨_, ⟨1, some heartbeatItem.frame, some 1000000, none⟩, rfl, rfl, rfl⟩
    · exact ⟨_, ⟨1, some heartbeatItem.frame, some 1000000, none⟩, rfl, rfl, rfl⟩

theorem readBuses_reachable : Relation.ReflTransGen BusStep pairedBuses readBuses :=
  (Relation.ReflTransGen.single (.outside strayArrivals)).tail
    (.call false quietTraffic hearingAnswers (fun _ => 0) 7 _ rfl readBuses_answered)

theorem backlog_bound_stray :
    ((readBuses.buses 1).admittedTo false).length ≤
      ((readBuses.buses 1).waiting false).length +
        (((readBuses.buses 0).taken false).filterMap (handedOut false)).length :=
  backlog_bound SingleFrame.strictTxLaws SingleFrame.strictRxLaws (by decide) (by decide)
    readBuses_reachable false (by decide)

example : ((readBuses.buses 1).admittedTo false).length = 2 ∧
    ((readBuses.buses 1).waiting false).length = 1 ∧
    (((readBuses.buses 0).taken false).filterMap (handedOut false)).length = 1 := ⟨rfl, rfl, rfl⟩

end CyphalOnboard
