import CyphalOnboard.NodeSpec
import CyphalOnboard.Periods

namespace CyphalOnboard

open OpenCyphal

variable {C : Canard} {τ : Type} {R : ℕ} {L : TxLaws C}

/-- One pass of the main loop over a node. -/
structure Iteration (R : ℕ) where
  time : UInt64
  env : ℕ → TaskEnv
  answers : Answers R
  clock : Fin R → UInt64

/-- `CheckScheduler(t); HandleTxRxQueues(t)`. -/
def Iteration.steps (it : Iteration R) : List (NodeStep (nodeTasks C τ R)) :=
  [.checkScheduler it.env it.time,
    .other fun node => (node.handleTxRxQueues it.answers it.clock it.time).1]

def runLoop (node : Node C τ R) (its : List (Iteration R)) :
    Node C τ R × List (Execution (nodeTasks C τ R)) :=
  runSteps node (its.flatMap Iteration.steps)

/-- The frames an execution enqueued. -/
def Execution.frames (e : Execution (nodeTasks C τ R)) : List CanardTxQueueItem :=
  (e.after.eventsSince e.before.base.events.length).flatMap fun
    | .push _ _ _ _ _ frames => frames
    | _ => []

/-- The frames of execution `e` are gone when `e'` executes: none is sent in a call at or after its
time, none can be, and none is after it in the log. `start` is the node before the run. -/
structure Superseded (start final : NodeCore C τ R) (e e' : Execution (nodeTasks C τ R)) :
    Prop where
  accepted : ∀ item ∈ e.frames, ∀ i time r,
    .send i time item r ∈ final.eventsSince start.base.events.length → time < e'.time
  dead : ∀ item ∈ e.frames, ∀ time, e'.time ≤ time → ¬ Live time item
  apart : ∀ item ∈ e.frames, ∀ i time r,
    .send i time item r ∉ final.eventsSince e'.before.base.events.length

/-- Each execution of the task at position `p` supersedes the one before it. -/
def NoStaleGeneration (p : ℕ) (node : Node C τ R) (its : List (Iteration R)) : Prop :=
  ∀ earlier e e' later,
    (runLoop node its).2.filter (fun e => e.task = p) = earlier ++ e :: e' :: later →
      Superseded node.host (runLoop node its).1.host e e'

/-- On the way from `node` to `node'` frames are offered only while live and from `start` on. -/
def Offers (start : UInt64) (node node' : NodeCore C τ R) : Prop :=
  ∃ evs, node'.base.events = node.base.events ++ evs ∧
    ∀ i time item r, .send i time item r ∈ evs → start ≤ time ∧ Live time item

theorem Offers.refl (start : UInt64) (node : NodeCore C τ R) : Offers start node node :=
  ⟨[], by simp, by simp⟩

theorem Offers.trans {start : UInt64} {node node' node'' : NodeCore C τ R}
    (h : Offers start node node') (h' : Offers start node' node'') :
    Offers start node node'' := by
  obtain ⟨evs, he, hs⟩ := h
  obtain ⟨evs', he', hs'⟩ := h'
  refine ⟨evs ++ evs', by rw [he', he, List.append_assoc], ?_⟩
  intro i time item r hm
  rcases List.mem_append.mp hm with hm | hm
  · exact hs i time item r hm
  · exact hs' i time item r hm

theorem Offers.mono {start start' : UInt64} (hle : start ≤ start') {node node' : NodeCore C τ R}
    (h : Offers start' node node') : Offers start node node' := by
  obtain ⟨evs, he, hs⟩ := h
  refine ⟨evs, he, ?_⟩
  intro i time item r hm
  exact ⟨UInt64.le_trans hle (hs i time item r hm).1, (hs i time item r hm).2⟩

theorem Offers.since {start : UInt64} {node node' : NodeCore C τ R} (h : Offers start node node') :
    ∀ i time item r, .send i time item r ∈ node'.eventsSince node.base.events.length →
      start ≤ time ∧ Live time item := by
  obtain ⟨evs, he, hs⟩ := h
  unfold NodeCore.eventsSince
  rw [he, List.drop_left]
  exact hs

/-- Executions offer nothing. -/
theorem offers_execute (L : TxLaws C) (start : UInt64) (env : TaskEnv) (time : UInt64)
    (task : NodeTask) (node : NodeCore C τ R) :
    Offers start node (task.execute env time node).2 := by
  obtain ⟨evs, h⟩ := task.published_execute L env time node
  refine ⟨evs, h.grows.events, ?_⟩
  intro i t item r hm
  have hwire := h.grows.offWire _ hm
  cases hwire

theorem offers_handle (L : TxLaws C) (node : NodeCore C τ R) (answers : Answers R)
    (clock : Fin R → UInt64) (time : CanardMicrosecond) :
    Offers time node (node.handleTxRxQueues answers clock time).1 := by
  obtain ⟨evs, h⟩ := visit_handleTxRxQueues L [node.receiver clock] answers time node.base
  refine ⟨evs, h.events, ?_⟩
  intro i t item r hm
  obtain ⟨rfl, hlive⟩ := h.timely _ hm
  exact ⟨UInt64.le_refl _, hlive⟩

/-- One pass. -/
theorem runLoop_cons (node : Node C τ R) (it : Iteration R) (its : List (Iteration R)) :
    runLoop node (it :: its) =
      if (nodeTasks C τ R).running node.host then
        let r := node.checkScheduler it.env it.time
        if (nodeTasks C τ R).running r.1.host then
          let rest := runLoop { r.1 with
            host := (NodeCore.handleTxRxQueues r.1.host it.answers it.clock it.time).1 } its
          (rest.1, r.2 ++ rest.2)
        else r
      else (node, []) := by
  by_cases hrun : (nodeTasks C τ R).running node.host
  · simp only [runLoop, Iteration.steps, List.flatMap_cons, List.cons_append, List.nil_append,
      runSteps, hrun, if_true, NodeStep.run]
    by_cases hrun' : (nodeTasks C τ R).running (node.checkScheduler it.env it.time).1.host
    · simp only [hrun', if_true]
    · simp [hrun']
  · simp [runLoop, Iteration.steps, runSteps, hrun]

theorem offers_checkScheduler (L : TxLaws C) (start : UInt64) (node : Node C τ R)
    (env : ℕ → TaskEnv) (time : UInt64) :
    Offers start node.host (node.checkScheduler env time).1.host ∧
      ∀ e ∈ (node.checkScheduler env time).2, e.time = time ∧
        Offers start e.before (node.checkScheduler env time).1.host :=
  checkScheduler_rel (Q := Offers start) (Offers.refl start) Offers.trans
    (offers_execute L start) node env time

/-- Over a run at non-decreasing times frames are offered while live, and those offered after an
execution are offered at its time or later. -/
theorem offers_runLoop (L : TxLaws C) (start : UInt64) (its : List (Iteration R))
    (hmono : (start :: its.map Iteration.time).Pairwise (· ≤ ·)) (node : Node C τ R) :
    Offers start node.host (runLoop node its).1.host ∧
      ∀ e ∈ (runLoop node its).2, Offers e.time e.before (runLoop node its).1.host := by
  induction its generalizing start node with
  | nil => exact ⟨.refl start node.host, by simp [runLoop, runSteps]⟩
  | cons it its ih =>
    obtain ⟨hstart, hmono⟩ := List.pairwise_cons.mp hmono
    have hit : start ≤ it.time := hstart it.time (by simp)
    rw [runLoop_cons]
    by_cases hrun : (nodeTasks C τ R).running node.host
    swap
    · rw [if_neg hrun]
      exact ⟨.refl start node.host, by simp⟩
    simp only [hrun, if_true]
    obtain ⟨hcheck, hexec⟩ := offers_checkScheduler L it.time node it.env it.time
    by_cases hrun' : (nodeTasks C τ R).running (node.checkScheduler it.env it.time).1.host
    swap
    · rw [if_neg hrun']
      refine ⟨hcheck.mono hit, ?_⟩
      intro e he
      rw [(hexec e he).1]
      exact (hexec e he).2
    · simp only [hrun', if_true]
      obtain ⟨hrest, hlater⟩ := ih it.time hmono { (node.checkScheduler it.env it.time).1 with
        host := (NodeCore.handleTxRxQueues (node.checkScheduler it.env it.time).1.host it.answers
          it.clock it.time).1 }
      have htail := (offers_handle L _ it.answers it.clock it.time).trans hrest
      refine ⟨(hcheck.trans htail).mono hit, ?_⟩
      intro e he
      rcases List.mem_append.mp he with he | he
      · rw [(hexec e he).1]
        exact (hexec e he).2.trans htail
      · exact hlater e he

/-- The tasks whose deadline is not beyond their next execution: a heartbeat is one if it runs at
the rate of its deadline. -/
def NodeTask.Punctual : NodeTask → Prop
  | heartbeat task => task.interval.toUInt64 = mega
  | byteArray _ => True
  | latencyMeasurement _ => True

theorem NodeTask.punctual_execute (env : TaskEnv) (time : UInt64) (task : NodeTask)
    (node : NodeCore C τ R) (h : task.Punctual) : (task.execute env time node).1.Punctual := by
  cases task with
  | heartbeat task =>
    have hinterval := NodeTask.interval_execute env time (.heartbeat task) node
    exact hinterval.trans h
  | byteArray task => trivial
  | latencyMeasurement task => trivial

/-- `time + interval - 1` is neither 0 nor wrapped, and `time + interval` is not wrapped. -/
def InRange (interval time : UInt64) : Prop :=
  2 ≤ time.toNat + interval.toNat ∧ time.toNat + interval.toNat < 2 ^ 64

instance (interval time : UInt64) : Decidable (InRange interval time) :=
  inferInstanceAs (Decidable (_ ∧ _))

theorem NodeTask.deadline_bounds {task : NodeTask} (h : task.Punctual) {time : UInt64}
    (hrange : InRange task.interval time) :
    task.deadline time ≠ 0 ∧
      (task.deadline time).toNat ≤ time.toNat + task.interval.toNat := by
  obtain ⟨hlow, hhigh⟩ := hrange
  have hsum (interval : UInt64) (h2 : time.toNat + interval.toNat < 2 ^ 64) :
      (time + interval).toNat = time.toNat + interval.toNat := by
    rw [UInt64.toNat_add, Nat.mod_eq_of_lt h2]
  have hpred (interval : UInt64) (h1 : 2 ≤ time.toNat + interval.toNat)
      (h2 : time.toNat + interval.toNat < 2 ^ 64) :
      (time + interval - 1).toNat = time.toNat + interval.toNat - 1 := by
    have hle : (1 : UInt64) ≤ time + interval := by
      rw [UInt64.le_iff_toNat_le, hsum interval h2]
      exact (by decide : (1 : UInt64).toNat = 1) ▸ by omega
    rw [UInt64.toNat_sub_of_le _ _ hle, hsum interval h2]
    rfl
  have hne {d : UInt64} (hd : d.toNat ≠ 0) : d ≠ 0 := by
    rintro rfl
    exact hd rfl
  cases task with
  | heartbeat task =>
    have hd : (time + mega).toNat = time.toNat + mega.toNat := hsum mega (h ▸ hhigh)
    have hm : task.interval.toUInt64.toNat = mega.toNat := congrArg UInt64.toNat h
    have h2 : 0 < mega.toNat := by decide
    exact ⟨hne (by rw [deadline, hd]; omega), by rw [deadline, hd, interval, hm]⟩
  | byteArray task =>
    have hd := hpred task.interval hlow hhigh
    exact ⟨hne (by rw [deadline, hd]; simp only [interval] at hlow; omega),
      by rw [deadline, hd, interval]; omega⟩
  | latencyMeasurement task =>
    have hd := hpred task.interval hlow hhigh
    exact ⟨hne (by rw [deadline, hd]; simp only [interval] at hlow; omega),
      by rw [deadline, hd, interval]; omega⟩

/-- The frames of an execution carry the deadline of its task. -/
theorem deadline_of_frames (L : TxLaws C) {e : Execution (nodeTasks C τ R)} {env : TaskEnv}
    {task : NodeTask} (h : e.after = (task.execute env e.time e.before).2) :
    ∀ item ∈ e.frames, item.txDeadlineUsec = task.deadline e.time := by
  obtain ⟨evs, hpub⟩ := task.published_execute L env e.time e.before
  obtain ⟨payload, hpush⟩ := hpub.pushes
  intro item hitem
  unfold Execution.frames NodeCore.eventsSince at hitem
  rw [h, hpub.grows.events, List.drop_left] at hitem
  obtain ⟨ev, hev, hitem⟩ := List.mem_flatMap.mp hitem
  obtain ⟨i, r, frames, rfl, hframes⟩ := hpush ev hev
  exact hframes item hitem

/-- An execution takes place at the time of a pass. -/
theorem inRange_of_mem {node : Node C τ R} {its : List (Iteration R)} {interval : UInt64}
    (hrange : ∀ it ∈ its, InRange interval it.time) {e : Execution (nodeTasks C τ R)}
    (he : e ∈ (runLoop node its).2) : InRange interval e.time := by
  obtain ⟨env, hstep⟩ := runSteps_time node _ e he
  obtain ⟨it, hit, hstep⟩ := List.mem_flatMap.mp hstep
  have htime : e.time = it.time := by
    simp only [Iteration.steps, List.mem_cons, reduceCtorEq, List.not_mem_nil,
      or_false] at hstep
    exact (NodeStep.checkScheduler.inj hstep).2
  exact htime ▸ hrange it hit

/-- Two executions in a row are an interval apart. -/
theorem runLoop_spacing {node : Node C τ R} {p : ℕ} {task : Task (nodeTasks C τ R)}
    (hp : node.schedule[p]? = some task) {its : List (Iteration R)}
    (hrange : ∀ it ∈ its, InRange task.interval it.time)
    {earlier later : List (Execution (nodeTasks C τ R))} {e e' : Execution (nodeTasks C τ R)}
    (he : e ∈ (runLoop node its).2)
    (hexec : ((runLoop node its).2.filter fun e => e.task = p) = earlier ++ e :: e' :: later) :
    e.time.toNat + task.interval.toNat ≤ e'.time.toNat := by
  have htrail : Trail p task (earlier ++ e :: e' :: later) := by
    rw [← hexec]
    exact runSteps_trail (its.flatMap Iteration.steps) hp
  exact htrail.spacing (inRange_of_mem hrange he).2

/-- The frames of an execution are live for less than an interval. -/
theorem expires_of_punctual (L : TxLaws C) {node : Node C τ R} {p : ℕ}
    {task : Task (nodeTasks C τ R)} (hp : node.schedule[p]? = some task)
    (hpunctual : NodeTask.Punctual task.body) {its : List (Iteration R)}
    (hrange : ∀ it ∈ its, InRange task.interval it.time) {e : Execution (nodeTasks C τ R)}
    (he : e ∈ (runLoop node its).2) (hep : e.task = p) {item : CanardTxQueueItem}
    (hitem : item ∈ e.frames) {time : UInt64} (h : Live time item) :
    time.toNat < e.time.toNat + task.interval.toNat := by
  have hrange' := inRange_of_mem hrange he
  obtain ⟨env, body, ⟨hbody, hinterval⟩, hafter⟩ := runSteps_body
    (P := fun body : NodeTask => body.Punctual ∧ body.interval = task.interval)
    (fun env time body host h => ⟨body.punctual_execute env time host h.1,
      (NodeTask.interval_execute env time body host).trans h.2⟩)
    _ hp ⟨hpunctual, rfl⟩ e he hep
  -- a deadline other than 0 that is at most an interval away
  obtain ⟨hne, hle⟩ := NodeTask.deadline_bounds hbody (hinterval ▸ hrange')
  rw [Live, deadline_of_frames L hafter item hitem] at h
  have hlt : time < body.deadline e.time := h.resolve_left hne
  rw [UInt64.lt_iff_toNat_lt] at hlt
  rw [hinterval] at hle
  omega

/-- Over every run of the main loop at non-decreasing times each execution of a punctual task
supersedes the one before it. -/
theorem no_stale_generation (L : TxLaws C) (node : Node C τ R) (p : ℕ)
    (task : Task (nodeTasks C τ R)) (hp : node.schedule[p]? = some task)
    (hpunctual : NodeTask.Punctual task.body) (its : List (Iteration R))
    (hmono : (its.map Iteration.time).Pairwise (· ≤ ·))
    (hrange : ∀ it ∈ its, InRange task.interval it.time) : NoStaleGeneration p node its := by
  intro earlier e e' later hexec
  have hmem {x : Execution (nodeTasks C τ R)} (hx : x ∈ earlier ++ e :: e' :: later) :
      x ∈ (runLoop node its).2 ∧ x.task = p := by
    rw [← hexec] at hx
    simpa using hx
  obtain ⟨he, hep⟩ := hmem (x := e) (by simp)
  obtain ⟨he', -⟩ := hmem (x := e') (by simp)
  -- the second execution comes when the frames of the first have expired
  have hspacing := runLoop_spacing hp hrange he hexec
  have hlive {item : CanardTxQueueItem} (hitem : item ∈ e.frames) {time : UInt64}
      (h : Live time item) : time < e'.time := by
    have hlt := expires_of_punctual L hp hpunctual hrange he hep hitem h
    rw [UInt64.lt_iff_toNat_lt]
    exact hlt.trans_le hspacing
  have hoffers := offers_runLoop L 0 its
    (List.pairwise_cons.mpr ⟨fun _ _ => UInt64.zero_le, hmono⟩) node
  refine ⟨?_, ?_, ?_⟩
  · intro item hitem i time r hsend
    exact hlive hitem (hoffers.1.since i time item r hsend).2
  · intro item hitem time htime h
    exact absurd (hlive hitem h) (UInt64.not_lt.mpr htime)
  · intro item hitem i time r hsend
    obtain ⟨htime, h⟩ := (hoffers.2 e' he').since i time item r hsend
    exact absurd (hlive hitem h) (UInt64.not_lt.mpr htime)

/-- A pass in which the transceiver answers `sent` to every frame and has none to read. -/
def pass (time : UInt64) (sent : ℤ) : Iteration 1 where
  time := time
  env _ := quietEnv
  answers := ⟨fun _ _ => sent, fun _ => (0, .zero)⟩
  clock _ := time

theorem no_stale_generation_heartbeat :
    NoStaleGeneration 0 heartbeatNode [pass 0 0, pass 1000000 1] :=
  no_stale_generation SingleFrame.txLaws heartbeatNode 0 _ rfl (by rfl)
    [pass 0 0, pass 1000000 1] (by decide) (by decide)

/-- The time and the frame of a `SendCanardFrame` call. -/
def Event.offer : Event R → Option (UInt64 × CanardTxQueueItem)
  | .send _ time item _ => some (time, item)
  | _ => none

/-- One interval before the clock wraps the next execution is due at once and the heartbeat has no
deadline: with the first frame still waiting the second pass sends the frames of both. -/
theorem stale_generation_at_wrap :
    (1 ≤ (18446744073708551616 : UInt64).toNat + mega.toNat ∧
      (18446744073708551616 : UInt64).toNat + mega.toNat - 1 < 2 ^ 64 ∧
      (18446744073708551616 : UInt64) + mega - 1 ≠ 0) ∧
    ¬ NoStaleGeneration 0 heartbeatNode
      [pass 18446744073708551616 0, pass 18446744073708551616 1] := by
  refine ⟨by decide, fun h => ?_⟩
  have hlen : (runLoop heartbeatNode
      [pass 18446744073708551616 0, pass 18446744073708551616 1]).2.length = 2 := by decide +kernel
  have htasks : (runLoop heartbeatNode
      [pass 18446744073708551616 0, pass 18446744073708551616 1]).2.map (fun e => e.task) =
      [0, 0] := by decide +kernel
  have htimes : (runLoop heartbeatNode
      [pass 18446744073708551616 0, pass 18446744073708551616 1]).2.map (fun e => e.time) =
      [18446744073708551616, 18446744073708551616] := by decide +kernel
  have hoffers : ∀ frames ∈ ((runLoop heartbeatNode
      [pass 18446744073708551616 0, pass 18446744073708551616 1]).2.map Execution.frames).head?,
      ∃ item ∈ frames, (18446744073708551616, item) ∈ ((runLoop heartbeatNode
        [pass 18446744073708551616 0, pass 18446744073708551616 1]).1.host.eventsSince
          heartbeatNode.host.base.events.length).filterMap Event.offer := by decide +kernel
  obtain ⟨e, e', hl⟩ := List.length_eq_two.mp hlen
  rw [hl] at htasks htimes hoffers
  have htask : e.task = 0 ∧ e'.task = 0 := by simpa using htasks
  have htime : e'.time = 18446744073708551616 := by simpa using (List.cons.inj htimes).2
  obtain ⟨item, hitem, hoffer⟩ := hoffers e.frames rfl
  obtain ⟨event, hevent, hoffer⟩ := List.mem_filterMap.mp hoffer
  have hsuper := h [] e e' [] (by rw [hl]; simp [htask])
  cases event with
  | send i time item' r =>
    obtain ⟨rfl, rfl⟩ : time = 18446744073708551616 ∧ item' = item := by
      simpa [Event.offer] using hoffer
    have hlt := hsuper.accepted item' hitem i _ r hevent
    rw [htime] at hlt
    exact absurd hlt (by decide)
  | _ => cases hoffer

end CyphalOnboard
