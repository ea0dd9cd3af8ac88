import CyphalOnboard.OpenCyphal
import CyphalOnboard.Library.Polling
import Mathlib.Data.List.Sublists

namespace CyphalOnboard

/-- The classes derived from `Task` and the node they execute on. `Env` is what an execution
finds outside the node, and `start` what `StartNode` writes besides the flag. -/
structure TaskClass where
  Body : Type
  Host : Type
  Env : Type
  interval : Body → UInt64
  execute : Env → (currentTime : UInt64) → Body → Host → Body × Host
  start : (startedAt : UInt64) → Host → Host
  running : Host → Bool
  interval_execute : ∀ env currentTime body host,
    interval (execute env currentTime body host).1 = interval body

variable {K : TaskClass}

structure Task (K : TaskClass) where
  nextRun : UInt64
  body : K.Body

namespace Task

def interval (task : Task K) : UInt64 := K.interval task.body

def updateNextRun (task : Task K) (currentTime : UInt64) : Task K :=
  { task with nextRun := currentTime + task.interval }

end Task

/-- An `Execute` call of the task at a position of the schedule. -/
structure Execution (K : TaskClass) where
  task : ℕ
  time : UInt64
  before : K.Host
  after : K.Host

/-- The loop of `CheckScheduler`; `pos` is the position of the first of the tasks. -/
def runTasks (env : ℕ → K.Env) (time : UInt64) :
    (pos : ℕ) → List (Task K) → K.Host → List (Task K) × K.Host × List (Execution K)
  | _, [], host => ([], host, [])
  | pos, task :: tasks, host =>
    if K.running host ∧ time ≥ task.nextRun then
      -- the next run is counted from this call, whatever the task was due at
      let task := task.updateNextRun time
      let r := K.execute (env pos) time task.body host
      let rest := runTasks env time (pos + 1) tasks r.2
      ({ task with body := r.1 } :: rest.1, rest.2.1, ⟨pos, time, host, r.2⟩ :: rest.2.2)
    else
      let rest := runTasks env time (pos + 1) tasks host
      (task :: rest.1, rest.2)

/-- The members of a node the scheduler works on. -/
structure Scheduler (K : TaskClass) where
  online : Bool
  schedule : List (Task K)
  host : K.Host

namespace Scheduler

def checkScheduler (s : Scheduler K) (env : ℕ → K.Env) (time : UInt64) :
    Scheduler K × List (Execution K) :=
  if s.online then
    let r := runTasks env time 0 s.schedule s.host
    ({ s with schedule := r.1, host := r.2.1 }, r.2.2)
  else (s, [])

def addTask (s : Scheduler K) (task : Task K) : Scheduler K :=
  { s with schedule := s.schedule ++ [task] }

def startNode (s : Scheduler K) (startedAt : UInt64) : Scheduler K :=
  { s with host := K.start startedAt s.host, online := true }

end Scheduler

/-- What happens to a node. `other` is anything that leaves the schedule alone. -/
inductive NodeStep (K : TaskClass) where
  | startNode (startedAt : UInt64)
  | schedule (task : Task K)
  | other (f : K.Host → K.Host)
  | checkScheduler (env : ℕ → K.Env) (time : UInt64)

namespace NodeStep

def run (s : Scheduler K) : NodeStep K → Scheduler K × List (Execution K)
  | startNode startedAt => (s.startNode startedAt, [])
  | schedule task => (s.addTask task, [])
  | other f => ({ s with host := f s.host }, [])
  | checkScheduler env time => s.checkScheduler env time

/-- The time of a `CheckScheduler` call. -/
def poll : NodeStep K → Option UInt64
  | checkScheduler _ time => some time
  | _ => none

end NodeStep

/-- A run with the executions in it. Nothing happens once the process has ended. -/
def runSteps (s : Scheduler K) : List (NodeStep K) → Scheduler K × List (Execution K)
  | [] => (s, [])
  | step :: steps =>
    if K.running s.host then
      let r := step.run s
      let rest := runSteps r.1 steps
      (rest.1, r.2 ++ rest.2)
    else (s, [])

/-- The times of the `CheckScheduler` calls of a run. -/
def polls (steps : List (NodeStep K)) : List ℕ :=
  (steps.filterMap NodeStep.poll).map UInt64.toNat

/-- The times at which the task at a position executed. -/
def executionTimes (p : ℕ) (executions : List (Execution K)) : List ℕ :=
  (executions.filter fun e => e.task = p).map fun e => e.time.toNat

@[simp] theorem executionTimes_append (p : ℕ) (l l' : List (Execution K)) :
    executionTimes p (l ++ l') = executionTimes p l ++ executionTimes p l' := by
  simp only [executionTimes, List.filter_append, List.map_append]

/-- The positions of the tasks that are due, in scheduling order. -/
def duePositions (time : UInt64) (pos : ℕ) (tasks : List (Task K)) : List ℕ :=
  ((tasks.zipIdx pos).filter fun x => x.1.nextRun ≤ time).map Prod.snd

theorem runTasks_execute {env : ℕ → K.Env} {time : UInt64} {pos : ℕ} {task : Task K}
    {tasks : List (Task K)} {host : K.Host} (h : K.running host ∧ time ≥ task.nextRun) :
    runTasks env time pos (task :: tasks) host =
      let r := K.execute (env pos) time task.body host
      let rest := runTasks env time (pos + 1) tasks r.2
      (⟨time + task.interval, r.1⟩ :: rest.1, rest.2.1, ⟨pos, time, host, r.2⟩ :: rest.2.2) := by
  simp only [runTasks, if_pos h]
  rfl

theorem runTasks_skip {env : ℕ → K.Env} {time : UInt64} {pos : ℕ} {task : Task K}
    {tasks : List (Task K)} {host : K.Host} (h : ¬ (K.running host ∧ time ≥ task.nextRun)) :
    runTasks env time pos (task :: tasks) host =
      let rest := runTasks env time (pos + 1) tasks host
      (task :: rest.1, rest.2) := by
  simp only [runTasks, if_neg h]

theorem runTasks_length (env : ℕ → K.Env) (time : UInt64) (pos : ℕ) (tasks : List (Task K))
    (host : K.Host) : (runTasks env time pos tasks host).1.length = tasks.length := by
  induction tasks generalizing pos host with
  | nil => rfl
  | cons task tasks ih =>
    by_cases h : K.running host ∧ time ≥ task.nextRun
    · rw [runTasks_execute h]
      simp only [List.length_cons, ih]
    · rw [runTasks_skip h]
      simp only [List.length_cons, ih]

/-- In a process that has ended nothing executes. -/
theorem runTasks_ended {env : ℕ → K.Env} {time : UInt64} {pos : ℕ} {tasks : List (Task K)}
    {host : K.Host} (h : ¬ K.running host) :
    runTasks env time pos tasks host = (tasks, host, []) := by
  induction tasks generalizing pos with
  | nil => rfl
  | cons task tasks ih =>
    rw [runTasks_skip fun hc => h hc.1]
    simp only [ih]

/-- Due tasks execute in scheduling order, all of them unless the process ends. -/
theorem runTasks_positions (env : ℕ → K.Env) (time : UInt64) (pos : ℕ) (tasks : List (Task K))
    (host : K.Host) :
    (runTasks env time pos tasks host).2.2.map Execution.task <+: duePositions time pos tasks ∧
      (K.running (runTasks env time pos tasks host).2.1 →
        (runTasks env time pos tasks host).2.2.map Execution.task =
          duePositions time pos tasks) := by
  induction tasks generalizing pos host with
  | nil => simp [runTasks, duePositions]
  | cons task tasks ih =>
    by_cases hrun : K.running host
    · by_cases hdue : time ≥ task.nextRun
      · rw [runTasks_execute ⟨hrun, hdue⟩]
        obtain ⟨hpre, heq⟩ := ih (pos + 1) (K.execute (env pos) time task.body host).2
        have hcons : duePositions time pos (task :: tasks) =
            pos :: duePositions time (pos + 1) tasks := by
          simp [duePositions, List.zipIdx_cons, hdue]
        rw [hcons]
        exact ⟨List.cons_prefix_cons.mpr ⟨rfl, hpre⟩, fun h => congrArg (pos :: ·) (heq h)⟩
      · rw [runTasks_skip fun h => hdue h.2]
        have hcons : duePositions time pos (task :: tasks) =
            duePositions time (pos + 1) tasks := by
          have hne : ¬ task.nextRun ≤ time := hdue
          simp [duePositions, List.zipIdx_cons, hne]
        rw [hcons]
        exact ih (pos + 1) host
    · rw [runTasks_ended hrun]
      exact ⟨List.nil_prefix, fun h => absurd h hrun⟩

theorem runTasks_time (env : ℕ → K.Env) (time : UInt64) (pos : ℕ) (tasks : List (Task K))
    (host : K.Host) :
    ∀ e ∈ (runTasks env time pos tasks host).2.2, e.time = time ∧ pos ≤ e.task := by
  induction tasks generalizing pos host with
  | nil => simp [runTasks]
  | cons task tasks ih =>
    by_cases h : K.running host ∧ time ≥ task.nextRun
    · rw [runTasks_execute h]
      intro e he
      rcases List.mem_cons.mp he with rfl | he
      · exact ⟨rfl, le_rfl⟩
      · have := ih _ _ e he
        exact ⟨this.1, by omega⟩
    · rw [runTasks_skip h]
      intro e he
      have := ih _ _ e he
      exact ⟨this.1, by omega⟩

/-- The loop over the tasks up to some position, and over the others. -/
theorem runTasks_append (env : ℕ → K.Env) (time : UInt64) (pos : ℕ) (l l' : List (Task K))
    (host : K.Host) :
    runTasks env time pos (l ++ l') host =
      let r := runTasks env time pos l host
      let r' := runTasks env time (pos + l.length) l' r.2.1
      (r.1 ++ r'.1, r'.2.1, r.2.2 ++ r'.2.2) := by
  induction l generalizing pos host with
  | nil => rfl
  | cons task l ih =>
    have hpos : pos + 1 + l.length = pos + (task :: l).length := by
      rw [List.length_cons]
      omega
    rw [List.cons_append]
    by_cases h : K.running host ∧ time ≥ task.nextRun
    · rw [runTasks_execute h, runTasks_execute h]
      simp only [ih, hpos, List.cons_append]
    · rw [runTasks_skip h, runTasks_skip h]
      simp only [ih, hpos, List.cons_append]

theorem runTasks_lt (env : ℕ → K.Env) (time : UInt64) (pos : ℕ) (tasks : List (Task K))
    (host : K.Host) :
    ∀ e ∈ (runTasks env time pos tasks host).2.2, e.task < pos + tasks.length := by
  induction tasks generalizing pos host with
  | nil => simp [runTasks]
  | cons task tasks ih =>
    rw [List.length_cons]
    by_cases h : K.running host ∧ time ≥ task.nextRun
    · rw [runTasks_execute h]
      intro e he
      rcases List.mem_cons.mp he with rfl | he
      · change pos < _
        omega
      · have := ih _ _ e he
        omega
    · rw [runTasks_skip h]
      intro e he
      have := ih _ _ e he
      omega

/-- The executions of the task behind `pre`: one if it is due when the loop reaches it. -/
theorem runTasks_filter (env : ℕ → K.Env) (time : UInt64) (pre post : List (Task K))
    (task : Task K) (host : K.Host) :
    ((runTasks env time 0 (pre ++ task :: post) host).2.2.filter fun e => e.task = pre.length) =
      let host := (runTasks env time 0 pre host).2.1
      if K.running host ∧ time ≥ task.nextRun then
        [⟨pre.length, time, host, (K.execute (env pre.length) time task.body host).2⟩]
      else [] := by
  have hpre : ((runTasks env time 0 pre host).2.2.filter fun e => e.task = pre.length) = [] := by
    rw [List.filter_eq_nil_iff]
    intro e he
    have := runTasks_lt env time 0 pre host e he
    simp only [decide_eq_true_eq]
    omega
  have hpost (host : K.Host) : ((runTasks env time (pre.length + 1) post host).2.2.filter
      fun e => e.task = pre.length) = [] := by
    rw [List.filter_eq_nil_iff]
    intro e he
    have := (runTasks_time env time (pre.length + 1) post host e he).2
    simp only [decide_eq_true_eq]
    omega
  rw [runTasks_append]
  simp only [Nat.zero_add, List.filter_append, hpre, List.nil_append]
  split_ifs with h
  · rw [runTasks_execute h]
    simp only [decide_true, List.filter_cons_of_pos, hpost]
  · rw [runTasks_skip h]
    exact hpost _

/-- The task behind `pre` after the loop. -/
theorem runTasks_getElem (env : ℕ → K.Env) (time : UInt64) (pre post : List (Task K))
    (task : Task K) (host : K.Host) :
    (runTasks env time 0 (pre ++ task :: post) host).1[pre.length]? =
      let host := (runTasks env time 0 pre host).2.1
      if K.running host ∧ time ≥ task.nextRun then
        some ⟨time + task.interval, (K.execute (env pre.length) time task.body host).1⟩
      else some task := by
  have hlen := runTasks_length env time 0 pre host
  rw [runTasks_append, ← hlen, List.getElem?_append_right le_rfl, Nat.sub_self]
  simp only [Nat.zero_add, hlen]
  split_ifs with h
  · rw [runTasks_execute h]
    rfl
  · rw [runTasks_skip h]
    rfl

/-- A process that runs at the end of the loop ran when it reached any of the tasks. -/
theorem running_of_runTasks {env : ℕ → K.Env} {time : UInt64} {pos : ℕ} {l l' : List (Task K)}
    {host : K.Host} (h : K.running (runTasks env time pos (l ++ l') host).2.1) :
    K.running (runTasks env time pos l host).2.1 := by
  by_contra hend
  rw [runTasks_append] at h
  simp only [runTasks_ended hend] at h
  exact hend h

theorem split_of_getElem {tasks : List (Task K)} {k : ℕ} {task : Task K}
    (hk : tasks[k]? = some task) : ∃ pre post, tasks = pre ++ task :: post ∧ pre.length = k := by
  obtain ⟨hlt, rfl⟩ := List.getElem?_eq_some_iff.mp hk
  refine ⟨tasks.take k, tasks.drop (k + 1), ?_, List.length_take_of_le hlt.le⟩
  rw [List.getElem_cons_drop hlt, List.take_append_drop]

/-- What a call makes of one task: it executes once and is due an interval later, or it is left
as it is because it is not due or the process has ended before its turn. -/
theorem runTasks_task (env : ℕ → K.Env) (time : UInt64) {tasks : List (Task K)} (host : K.Host)
    {k : ℕ} {task : Task K} (hk : tasks[k]? = some task) :
    (task.nextRun ≤ time ∧
      executionTimes k (runTasks env time 0 tasks host).2.2 = [time.toNat] ∧
      ∃ task', (runTasks env time 0 tasks host).1[k]? = some task' ∧
        task'.nextRun = time + task.interval ∧ task'.interval = task.interval) ∨
    (executionTimes k (runTasks env time 0 tasks host).2.2 = [] ∧
      (runTasks env time 0 tasks host).1[k]? = some task ∧
      (K.running (runTasks env time 0 tasks host).2.1 → ¬ task.nextRun ≤ time)) := by
  obtain ⟨pre, post, rfl, rfl⟩ := split_of_getElem hk
  have hrunning (h : K.running (runTasks env time 0 (pre ++ task :: post) host).2.1) :=
    running_of_runTasks h
  rw [executionTimes, runTasks_filter, runTasks_getElem]
  by_cases h : K.running (runTasks env time 0 pre host).2.1 ∧ time ≥ task.nextRun
  · simp only [if_pos h]
    exact .inl ⟨h.2, rfl, _, rfl, rfl, K.interval_execute ..⟩
  · simp only [if_neg h]
    exact .inr ⟨rfl, trivial, fun hend hdue => h ⟨hrunning hend, hdue⟩⟩

/-- What every execution does to the host a call does, from its start and from each execution. -/
theorem checkScheduler_rel {Q : K.Host → K.Host → Prop} (hrefl : ∀ host, Q host host)
    (htrans : ∀ {a b c}, Q a b → Q b c → Q a c)
    (hexec : ∀ env time body host, Q host (K.execute env time body host).2)
    (s : Scheduler K) (env : ℕ → K.Env) (time : UInt64) :
    Q s.host (s.checkScheduler env time).1.host ∧
      ∀ e ∈ (s.checkScheduler env time).2, e.time = time ∧
        Q e.before (s.checkScheduler env time).1.host := by
  have hloop (pos : ℕ) (tasks : List (Task K)) (host : K.Host) :
      Q host (runTasks env time pos tasks host).2.1 ∧
        ∀ e ∈ (runTasks env time pos tasks host).2.2,
          Q e.before (runTasks env time pos tasks host).2.1 := by
    induction tasks generalizing pos host with
    | nil => exact ⟨hrefl host, by simp [runTasks]⟩
    | cons task tasks ih =>
      by_cases h : K.running host ∧ time ≥ task.nextRun
      · rw [runTasks_execute h]
        obtain ⟨hall, hlater⟩ := ih (pos + 1) (K.execute (env pos) time task.body host).2
        have hfirst := htrans (hexec (env pos) time task.body host) hall
        exact ⟨hfirst, List.forall_mem_cons.mpr ⟨hfirst, hlater⟩⟩
      · rw [runTasks_skip h]
        exact ih (pos + 1) host
  unfold Scheduler.checkScheduler
  split_ifs
  · obtain ⟨hall, hlater⟩ := hloop 0 s.schedule s.host
    refine ⟨hall, ?_⟩
    intro e he
    exact ⟨(runTasks_time env time 0 s.schedule s.host e he).1, hlater e he⟩
  · exact ⟨hrefl s.host, by simp⟩

/-- What every execution does to the host is done between any two of them. -/
theorem runTasks_pairwise {Q : K.Host → K.Host → Prop} (hrefl : ∀ host, Q host host)
    (htrans : ∀ {a b c}, Q a b → Q b c → Q a c)
    (hexec : ∀ env time body host, Q host (K.execute env time body host).2)
    (env : ℕ → K.Env) (time : UInt64) (pos : ℕ) (tasks : List (Task K)) (host : K.Host) :
    (∀ e ∈ (runTasks env time pos tasks host).2.2, Q host e.before) ∧
      (runTasks env time pos tasks host).2.2.Pairwise fun e e' => Q e.before e'.before := by
  induction tasks generalizing pos host with
  | nil => exact ⟨by simp [runTasks], by simp [runTasks]⟩
  | cons task tasks ih =>
    by_cases h : K.running host ∧ time ≥ task.nextRun
    · rw [runTasks_execute h]
      obtain ⟨hall, hpairs⟩ := ih (pos + 1) (K.execute (env pos) time task.body host).2
      have hlater := fun e he => htrans (hexec (env pos) time task.body host) (hall e he)
      exact ⟨List.forall_mem_cons.mpr ⟨hrefl host, hlater⟩, List.pairwise_cons.mpr ⟨hlater, hpairs⟩⟩
    · rw [runTasks_skip h]
      exact ih (pos + 1) host

/-- What holds of all bodies and of the host is kept by the loop if every execution keeps it. -/
theorem runTasks_inv {P : K.Body → Prop} {Q : K.Host → Prop}
    (hexec : ∀ env time body host, P body → Q host →
      P (K.execute env time body host).1 ∧ Q (K.execute env time body host).2)
    (env : ℕ → K.Env) (time : UInt64) (pos : ℕ) {tasks : List (Task K)} {host : K.Host}
    (hP : ∀ task ∈ tasks, P task.body) (hQ : Q host) :
    (∀ task ∈ (runTasks env time pos tasks host).1, P task.body) ∧
      Q (runTasks env time pos tasks host).2.1 := by
  induction tasks generalizing pos host with
  | nil => exact ⟨hP, hQ⟩
  | cons task tasks ih =>
    obtain ⟨htask, htasks⟩ := List.forall_mem_cons.mp hP
    by_cases h : K.running host ∧ time ≥ task.nextRun
    · rw [runTasks_execute h]
      obtain ⟨hbody, hhost⟩ := hexec (env pos) time task.body host htask hQ
      obtain ⟨hrest, hend⟩ := ih (pos + 1) htasks hhost
      exact ⟨List.forall_mem_cons.mpr ⟨hbody, hrest⟩, hend⟩
    · rw [runTasks_skip h]
      obtain ⟨hrest, hend⟩ := ih (pos + 1) htasks hQ
      exact ⟨List.forall_mem_cons.mpr ⟨htask, hrest⟩, hend⟩

theorem checkScheduler_inv {P : K.Body → Prop} {Q : K.Host → Prop}
    (hexec : ∀ env time body host, P body → Q host →
      P (K.execute env time body host).1 ∧ Q (K.execute env time body host).2)
    {s : Scheduler K} (hP : ∀ task ∈ s.schedule, P task.body) (hQ : Q s.host)
    (env : ℕ → K.Env) (time : UInt64) :
    (∀ task ∈ (s.checkScheduler env time).1.schedule, P task.body) ∧
      Q (s.checkScheduler env time).1.host := by
  unfold Scheduler.checkScheduler
  split_ifs
  · exact runTasks_inv hexec env time 0 hP hQ
  · exact ⟨hP, hQ⟩

/-- The schedule has `task` at position `p`, and the bodies of all others satisfy `P`. -/
def Scheduler.Only (s : Scheduler K) (P : K.Body → Prop) (p : ℕ) (task : Task K) : Prop :=
  ∃ pre post, s.schedule = pre ++ task :: post ∧ pre.length = p ∧
    (∀ other ∈ pre, P other.body) ∧ ∀ other ∈ post, P other.body

/-- What a call makes of one task and of the host, where the other tasks keep `Q`, which holds
until it executes, and `Q'`, which holds from then on. -/
theorem checkScheduler_only {P : K.Body → Prop} {Q Q' : K.Host → Prop}
    (hQ : ∀ env time body host, P body → Q host →
      P (K.execute env time body host).1 ∧ Q (K.execute env time body host).2)
    (hQ' : ∀ env time body host, P body → Q' host →
      P (K.execute env time body host).1 ∧ Q' (K.execute env time body host).2)
    {s : Scheduler K} {p : ℕ} {task : Task K} (h : s.Only P p task) (hhost : Q s.host)
    (env : ℕ → K.Env) (time : UInt64)
    (htask : ∀ host, Q host → Q' (K.execute (env p) time task.body host).2) :
    (((s.checkScheduler env time).2.filter fun e => e.task = p) = [] ∧
      (s.checkScheduler env time).1.Only P p task ∧ Q (s.checkScheduler env time).1.host) ∨
    ∃ host, Q host ∧
      ((s.checkScheduler env time).2.filter fun e => e.task = p) =
        [⟨p, time, host, (K.execute (env p) time task.body host).2⟩] ∧
      (s.checkScheduler env time).1.Only P p
        ⟨time + task.interval, (K.execute (env p) time task.body host).1⟩ ∧
      Q' (s.checkScheduler env time).1.host := by
  by_cases hon : s.online
  swap
  · have hcall : s.checkScheduler env time = (s, []) := by
      simp only [Scheduler.checkScheduler, if_neg hon]
    rw [hcall]
    exact .inl ⟨rfl, h, hhost⟩
  obtain ⟨pre, post, hs, rfl, hpre, hpost⟩ := h
  have hfilter := runTasks_filter env time pre post task s.host
  have hlen := runTasks_length env time 0 pre s.host
  obtain ⟨hpre', hhost'⟩ := runTasks_inv hQ env time 0 hpre hhost
  simp only [Scheduler.checkScheduler, if_pos hon, hs]
  rw [hfilter, runTasks_append]
  simp only [Nat.zero_add]
  split_ifs with hdue
  · rw [runTasks_execute hdue]
    obtain ⟨hpost', hend⟩ := runTasks_inv hQ' env time (pre.length + 1) hpost (htask _ hhost')
    exact .inr ⟨_, hhost', rfl, ⟨_, _, rfl, hlen, hpre', hpost'⟩, hend⟩
  · rw [runTasks_skip hdue]
    obtain ⟨hpost', hend⟩ := runTasks_inv hQ env time (pre.length + 1) hpost hhost'
    exact .inl ⟨rfl, ⟨_, _, rfl, hlen, hpre', hpost'⟩, hend⟩

theorem run_online {s : Scheduler K} (h : s.online) (step : NodeStep K) :
    (step.run s).1.online := by
  cases step with
  | checkScheduler env time =>
    simp only [NodeStep.run, Scheduler.checkScheduler, if_pos h]
    exact h
  | startNode startedAt => rfl
  | schedule task => exact h
  | other f => exact h

/-- A step that is no poll leaves every task as it is. -/
theorem run_of_no_poll {s : Scheduler K} {step : NodeStep K} (h : step.poll = none) {p : ℕ}
    {task : Task K} (hp : s.schedule[p]? = some task) :
    (step.run s).2 = [] ∧ (step.run s).1.schedule[p]? = some task := by
  cases step with
  | checkScheduler env time => cases h
  | startNode startedAt => exact ⟨rfl, hp⟩
  | schedule task' =>
    refine ⟨rfl, ?_⟩
    obtain ⟨hlt, -⟩ := List.getElem?_eq_some_iff.mp hp
    simp only [NodeStep.run, Scheduler.addTask]
    rw [List.getElem?_append_left hlt]
    exact hp
  | other f => exact ⟨rfl, hp⟩

theorem run_of_poll {s : Scheduler K} (hon : s.online) {step : NodeStep K} {time : UInt64}
    (h : step.poll = some time) :
    ∃ env, step.run s =
      ({ s with
          schedule := (runTasks env time 0 s.schedule s.host).1
          host := (runTasks env time 0 s.schedule s.host).2.1 },
        (runTasks env time 0 s.schedule s.host).2.2) := by
  cases step with
  | checkScheduler env t =>
    obtain rfl : t = time := by simpa [NodeStep.poll] using h
    exact ⟨env, by simp only [NodeStep.run, Scheduler.checkScheduler, if_pos hon]⟩
  | startNode startedAt => cases h
  | schedule task' => cases h
  | other f => cases h

theorem polls_cons_of_poll {step : NodeStep K} {time : UInt64} (h : step.poll = some time)
    (steps : List (NodeStep K)) : polls (step :: steps) = time.toNat :: polls steps := by
  simp [polls, h]

theorem polls_cons_of_no_poll {step : NodeStep K} (h : step.poll = none)
    (steps : List (NodeStep K)) : polls (step :: steps) = polls steps := by
  simp [polls, h]

theorem mem_polls {env : ℕ → K.Env} {time : UInt64} {steps : List (NodeStep K)}
    (h : .checkScheduler env time ∈ steps) : time.toNat ∈ polls steps :=
  List.mem_map_of_mem (List.mem_filterMap.mpr ⟨_, h, rfl⟩)

/-- In a process that has ended nothing happens. -/
theorem runSteps_ended {s : Scheduler K} (h : ¬ K.running s.host) (steps : List (NodeStep K)) :
    runSteps s steps = (s, []) := by
  cases steps with
  | nil => rfl
  | cons step steps => simp only [runSteps, if_neg h]

theorem runSteps_cons {s : Scheduler K} (h : K.running s.host) (step : NodeStep K)
    (steps : List (NodeStep K)) :
    runSteps s (step :: steps) = ((runSteps (step.run s).1 steps).1,
      (step.run s).2 ++ (runSteps (step.run s).1 steps).2) := by
  simp only [runSteps, if_pos h]

/-- An execution of a run is one of the first step or of the others. -/
theorem mem_runSteps_cons {s : Scheduler K} {step : NodeStep K} {steps : List (NodeStep K)}
    {e : Execution K} (h : e ∈ (runSteps s (step :: steps)).2) :
    e ∈ (step.run s).2 ∨ e ∈ (runSteps (step.run s).1 steps).2 := by
  by_cases hrun : K.running s.host
  · rw [runSteps_cons hrun] at h
    exact List.mem_append.mp h
  · rw [runSteps_ended hrun] at h
    cases h

/-- The first steps of a run and the others. -/
theorem runSteps_append (s : Scheduler K) (l l' : List (NodeStep K)) :
    runSteps s (l ++ l') = ((runSteps (runSteps s l).1 l').1,
      (runSteps s l).2 ++ (runSteps (runSteps s l).1 l').2) := by
  induction l generalizing s with
  | nil => simp [runSteps]
  | cons step l ih =>
    rw [List.cons_append]
    by_cases hrun : K.running s.host
    · rw [runSteps_cons hrun, runSteps_cons hrun, ih]
      simp only [List.append_assoc]
    · rw [runSteps_ended hrun, runSteps_ended hrun, runSteps_ended hrun]
      rfl

/-- What the step does to the host besides executing tasks is within `Q`. -/
def NodeStep.Within (Q : K.Host → K.Host → Prop) : NodeStep K → Prop
  | startNode startedAt => ∀ host, Q host (K.start startedAt host)
  | other f => ∀ host, Q host (f host)
  | schedule _ => True
  | checkScheduler _ _ => True

/-- What every step and every execution does to the host is done between any two executions. -/
theorem runSteps_pairwise {Q : K.Host → K.Host → Prop} (hrefl : ∀ host, Q host host)
    (htrans : ∀ {a b c}, Q a b → Q b c → Q a c)
    (hexec : ∀ env time body host, Q host (K.execute env time body host).2) (s : Scheduler K)
    {steps : List (NodeStep K)} (hsteps : ∀ step ∈ steps, step.Within Q) :
    (∀ e ∈ (runSteps s steps).2, Q s.host e.before) ∧
      (runSteps s steps).2.Pairwise fun e e' => Q e.before e'.before := by
  induction steps generalizing s with
  | nil => exact ⟨by simp [runSteps], by simp [runSteps]⟩
  | cons step steps ih =>
    obtain ⟨hstep, hsteps⟩ := List.forall_mem_cons.mp hsteps
    by_cases hrun : K.running s.host
    swap
    · rw [runSteps_ended hrun]
      exact ⟨by simp, List.Pairwise.nil⟩
    obtain ⟨hall, hpairs⟩ := ih (step.run s).1 hsteps
    have hfirst : Q s.host (step.run s).1.host ∧
        (∀ e ∈ (step.run s).2, Q s.host e.before ∧ Q e.before (step.run s).1.host) ∧
        (step.run s).2.Pairwise fun e e' => Q e.before e'.before := by
      cases step with
      | startNode startedAt => exact ⟨hstep s.host, by simp [NodeStep.run], .nil⟩
      | schedule task => exact ⟨hrefl s.host, by simp [NodeStep.run], .nil⟩
      | other f => exact ⟨hstep s.host, by simp [NodeStep.run], .nil⟩
      | checkScheduler env time =>
        obtain ⟨hend, hlater⟩ := checkScheduler_rel hrefl htrans hexec s env time
        refine ⟨hend, ?_⟩
        have hloop := runTasks_pairwise hrefl htrans hexec env time 0 s.schedule s.host
        simp only [NodeStep.run] at hlater ⊢
        unfold Scheduler.checkScheduler at hlater ⊢
        split_ifs at hlater ⊢
        · exact ⟨fun e he => ⟨hloop.1 e he, (hlater e he).2⟩, hloop.2⟩
        · exact ⟨by simp, .nil⟩
    obtain ⟨hend, hbefore, hpairs'⟩ := hfirst
    rw [runSteps_cons hrun]
    constructor
    · intro e he
      rcases List.mem_append.mp he with he | he
      · exact (hbefore e he).1
      · exact htrans hend (hall e he)
    · refine List.pairwise_append.mpr ⟨hpairs', hpairs, ?_⟩
      intro e he e' he'
      exact htrans (hbefore e he).2 (hall e' he')

/-- What a step makes of one task: nothing, or one execution on a running host after which it is due
an interval later. A step in which that execution ended the process has ended it. -/
theorem run_task {s : Scheduler K} {p : ℕ} {task : Task K} (hp : s.schedule[p]? = some task)
    (step : NodeStep K) :
    (((step.run s).2.filter fun e => e.task = p) = [] ∧
      (step.run s).1.schedule[p]? = some task) ∨
    ∃ env time host, step.poll = some time ∧ K.running host ∧ task.nextRun ≤ time ∧
      ((step.run s).2.filter fun e => e.task = p) =
        [⟨p, time, host, (K.execute env time task.body host).2⟩] ∧
      (step.run s).1.schedule[p]? =
        some ⟨time + task.interval, (K.execute env time task.body host).1⟩ ∧
      (¬ K.running (K.execute env time task.body host).2 → ¬ K.running (step.run s).1.host) := by
  cases hpoll : step.poll with
  | none =>
    obtain ⟨hnone, hp'⟩ := run_of_no_poll hpoll hp
    exact .inl ⟨by rw [hnone]; rfl, hp'⟩
  | some time =>
    by_cases hon : s.online
    swap
    · cases step with
      | checkScheduler env t =>
        simp only [NodeStep.run, Scheduler.checkScheduler, if_neg hon]
        exact .inl ⟨rfl, hp⟩
      | _ => cases hpoll
    obtain ⟨env, heq⟩ := run_of_poll hon hpoll
    obtain ⟨pre, post, hs, rfl⟩ := split_of_getElem hp
    rw [heq]
    simp only [hs, runTasks_filter, runTasks_getElem]
    by_cases h : K.running (runTasks env time 0 pre s.host).2.1 ∧ time ≥ task.nextRun
    · simp only [if_pos h]
      refine .inr ⟨_, time, _, rfl, h.1, h.2, rfl, rfl, fun hend hrun => hend ?_⟩
      -- a host that runs at the end of the loop ran behind every task of it
      have hsplit : pre ++ task :: post = (pre ++ [task]) ++ post := by simp
      rw [hsplit] at hrun
      have hrun := running_of_runTasks hrun
      rw [runTasks_append] at hrun
      simp only [Nat.zero_add, runTasks_execute h] at hrun
      exact hrun
    · simp only [if_neg h]
      exact .inl ⟨trivial, trivial⟩

/-- The executions of the task at position `p` from `task` on. Each one is of the body the one
before it left, on a running host and not before the task is due; one that ends the process is the
last. -/
inductive Trail (p : ℕ) : Task K → List (Execution K) → Prop
  | nil (task : Task K) : Trail p task []
  | cons {task : Task K} {env : K.Env} {e : Execution K} {later : List (Execution K)}
      (position : e.task = p) (due : task.nextRun ≤ e.time) (running : K.running e.before)
      (after : e.after = (K.execute env e.time task.body e.before).2)
      (last : ¬ K.running e.after → later = [])
      (rest : Trail p ⟨e.time + task.interval, (K.execute env e.time task.body e.before).1⟩
        later) : Trail p task (e :: later)

/-- What a run makes of one task. -/
theorem runSteps_trail (steps : List (NodeStep K)) {s : Scheduler K} {p : ℕ} {task : Task K}
    (hp : s.schedule[p]? = some task) :
    Trail p task ((runSteps s steps).2.filter fun e => e.task = p) := by
  induction steps generalizing s task with
  | nil => exact .nil task
  | cons step steps ih =>
    by_cases hrun : K.running s.host
    swap
    · rw [runSteps_ended hrun]
      exact .nil task
    rw [runSteps_cons hrun, List.filter_append]
    rcases run_task hp step with
      ⟨hnone, hp'⟩ | ⟨env, time, host, -, hhost, hdue, hone, hp', hend⟩
    · rw [hnone]
      exact ih hp'
    · rw [hone]
      refine @Trail.cons K p task env _ _ rfl hdue hhost rfl (fun h => ?_) (ih hp')
      rw [runSteps_ended (hend h)]
      rfl

/-- What holds of the body of a task and is kept by its executions holds whenever it executes. -/
theorem Trail.body {P : K.Body → Prop}
    (hP : ∀ env time body host, P body → P (K.execute env time body host).1) {p : ℕ}
    {task : Task K} {executions : List (Execution K)} (h : Trail p task executions)
    (hbody : P task.body) :
    ∀ e ∈ executions, ∃ env body, P body ∧ e.after = (K.execute env e.time body e.before).2 := by
  induction h with
  | nil => simp
  | cons hpos hdue hrun hafter hlast hrest ih =>
    exact List.forall_mem_cons.mpr ⟨⟨_, _, hbody, hafter⟩, ih (hP _ _ _ _ hbody)⟩

theorem runSteps_body {P : K.Body → Prop}
    (hP : ∀ env time body host, P body → P (K.execute env time body host).1)
    (steps : List (NodeStep K)) {s : Scheduler K} {p : ℕ} {task : Task K}
    (hp : s.schedule[p]? = some task) (hbody : P task.body) :
    ∀ e ∈ (runSteps s steps).2, e.task = p →
      ∃ env body, P body ∧ e.after = (K.execute env e.time body e.before).2 := by
  intro e he hpos
  exact (runSteps_trail steps hp).body hP hbody e (by simpa using ⟨he, hpos⟩)

theorem Trail.running {p : ℕ} {task : Task K} {executions : List (Execution K)}
    (h : Trail p task executions) : ∀ e ∈ executions, K.running e.before := by
  induction h with
  | nil => simp
  | cons hpos hdue hrun hafter hlast hrest ih => exact List.forall_mem_cons.mpr ⟨hrun, ih⟩

/-- An execution does not come before the task is due again after the one before it. -/
theorem Trail.due_next {p : ℕ} {task : Task K} {earlier later : List (Execution K)}
    {e e' : Execution K} (h : Trail p task (earlier ++ e :: e' :: later)) :
    e.time + task.interval ≤ e'.time := by
  induction earlier generalizing task with
  | nil =>
    obtain @⟨-, -⟩ | @⟨_, _, _, _, -, -, -, -, -, hrest⟩ := h
    obtain @⟨-, -⟩ | @⟨_, _, _, _, -, hdue, -, -, -, -⟩ := hrest
    exact hdue
  | cons first earlier ih =>
    obtain @⟨-, -⟩ | @⟨_, env, _, _, -, -, -, -, -, hrest⟩ := h
    have hinterval := K.interval_execute env first.time task.body first.before
    have hdue := ih hrest
    rw [Task.interval, hinterval] at hdue
    exact hdue

theorem Trail.spacing {p : ℕ} {task : Task K} {earlier later : List (Execution K)}
    {e e' : Execution K} (h : Trail p task (earlier ++ e :: e' :: later))
    (hfits : e.time.toNat + task.interval.toNat < 2 ^ 64) :
    e.time.toNat + task.interval.toNat ≤ e'.time.toNat := by
  have hdue := UInt64.le_iff_toNat_le.mp h.due_next
  rwa [UInt64.toNat_add, Nat.mod_eq_of_lt hfits] at hdue

/-- A task executes at some of the polls of a run, in their order. -/
theorem executionTimes_sublist (steps : List (NodeStep K)) {s : Scheduler K} {p : ℕ}
    {task : Task K} (hp : s.schedule[p]? = some task) :
    (executionTimes p (runSteps s steps).2).Sublist (polls steps) := by
  induction steps generalizing s task with
  | nil => exact List.nil_sublist _
  | cons step steps ih =>
    by_cases hrun : K.running s.host
    swap
    · rw [runSteps_ended hrun]
      exact List.nil_sublist _
    rw [runSteps_cons hrun, executionTimes_append]
    rcases run_task hp step with ⟨hnone, hp'⟩ | ⟨env, time, host, hpoll, -, -, hone, hp', -⟩
    · have hidle : executionTimes p (step.run s).2 = [] := congrArg (List.map _) hnone
      have hskip : (polls steps).Sublist (polls (step :: steps)) :=
        ((List.sublist_cons_self step steps).filterMap NodeStep.poll).map UInt64.toNat
      rw [hidle]
      exact (ih hp').trans hskip
    · have honce : executionTimes p (step.run s).2 = [time.toNat] := congrArg (List.map _) hone
      rw [honce, polls_cons_of_poll hpoll]
      exact (ih hp').cons_cons time.toNat

/-- Executions take place in the calls of a run. -/
theorem runSteps_time (s : Scheduler K) (steps : List (NodeStep K)) :
    ∀ e ∈ (runSteps s steps).2, ∃ env, .checkScheduler env e.time ∈ steps := by
  induction steps generalizing s with
  | nil => intro e he; cases he
  | cons step steps ih =>
    intro e he
    rcases mem_runSteps_cons he with he | he
    · cases step with
      | checkScheduler env time =>
        have h := (checkScheduler_rel (Q := fun _ _ => True) (fun _ => trivial)
          (fun _ _ => trivial) (fun _ _ _ _ => trivial) s env time).2 e he
        exact ⟨env, h.1 ▸ List.mem_cons_self ..⟩
      | startNode startedAt => cases he
      | schedule task => cases he
      | other f => cases he
    · obtain ⟨env, hmem⟩ := ih _ e he
      exact ⟨env, List.mem_cons_of_mem _ hmem⟩

section Firing

open Polling

/-- The task at position `p` executes over a run as a polled periodic activity fires at the first
`n` polls, which are all of them unless the process ends. -/
structure Fires (p : ℕ) (s : Scheduler K) (task : Task K) (steps : List (NodeStep K)) (n : ℕ) :
    Prop where
  times : executionTimes p (runSteps s steps).2 =
    fire task.interval.toNat task.nextRun.toNat ((polls steps).take n)
  all : K.running (runSteps s steps).1.host → (polls steps).length ≤ n

variable {p n : ℕ} {s : Scheduler K} {task task' : Task K} {step : NodeStep K}
  {steps : List (NodeStep K)} {time : UInt64}

/-- A process that has ended fires nothing. -/
theorem fires_ended (h : ¬ K.running s.host) : Fires p s task steps 0 := by
  refine ⟨?_, ?_⟩
  · rw [runSteps_ended h]
    rfl
  · rw [runSteps_ended h]
    exact fun hrun => absurd hrun h

theorem Fires.of_no_poll (hrun : K.running s.host) (hpoll : step.poll = none)
    (hp : s.schedule[p]? = some task) (h : Fires p (step.run s).1 task steps n) :
    Fires p s task (step :: steps) n := by
  have hnone := (run_of_no_poll hpoll hp).1
  have hpolls := polls_cons_of_no_poll hpoll steps
  refine ⟨?_, ?_⟩
  · rw [runSteps_cons hrun, hnone, hpolls]
    exact h.times
  · rw [runSteps_cons hrun, hpolls]
    exact h.all

/-- A poll that finds the task due, with the process running at its turn. -/
theorem Fires.of_due (hrun : K.running s.host) (hpoll : step.poll = some time)
    (hdue : task.nextRun ≤ time) (htimes : executionTimes p (step.run s).2 = [time.toNat])
    (hnext : task'.nextRun.toNat = time.toNat + task.interval.toNat)
    (hinterval : task'.interval = task.interval) (h : Fires p (step.run s).1 task' steps n) :
    Fires p s task (step :: steps) (n + 1) := by
  have hle : task.nextRun.toNat ≤ time.toNat := UInt64.le_iff_toNat_le.mp hdue
  have hpolls := polls_cons_of_poll hpoll steps
  have hrest := h.times
  rw [hinterval, hnext] at hrest
  refine ⟨?_, ?_⟩
  · rw [runSteps_cons hrun, executionTimes_append, htimes, hrest, hpolls, List.take_succ_cons,
      fire, if_pos hle, List.singleton_append]
  · rw [runSteps_cons hrun, hpolls]
    exact fun hend => Nat.succ_le_succ (h.all hend)

/-- A poll that finds the task not yet due. -/
theorem Fires.of_idle (hrun : K.running s.host) (hpoll : step.poll = some time)
    (hdue : ¬ task.nextRun ≤ time) (htimes : executionTimes p (step.run s).2 = [])
    (h : Fires p (step.run s).1 task steps n) : Fires p s task (step :: steps) (n + 1) := by
  have hlt : ¬ task.nextRun.toNat ≤ time.toNat := by rwa [← UInt64.le_iff_toNat_le]
  have hpolls := polls_cons_of_poll hpoll steps
  refine ⟨?_, ?_⟩
  · rw [runSteps_cons hrun, executionTimes_append, htimes, h.times, hpolls, List.take_succ_cons,
      fire, if_neg hlt, List.nil_append]
  · rw [runSteps_cons hrun, hpolls]
    exact fun hend => Nat.succ_le_succ (h.all hend)

/-- A poll in which the process ends before the turn of a task that is due. -/
theorem fires_ending (hrun : K.running s.host) (hend : ¬ K.running (step.run s).1.host)
    (htimes : executionTimes p (step.run s).2 = []) : Fires p s task (step :: steps) 0 := by
  rw [← List.append_nil (step.run s).2] at htimes
  refine ⟨?_, ?_⟩
  · rw [runSteps_cons hrun, runSteps_ended hend]
    exact htimes
  · rw [runSteps_cons hrun, runSteps_ended hend]
    exact fun h => absurd h hend

/-- Over a run a task executes as a polled periodic activity fires. The polls are those of the
run, up to the one in which the process ended. -/
theorem runSteps_fire (steps : List (NodeStep K)) (hon : s.online)
    (hp : s.schedule[p]? = some task)
    (hov : ∀ t ∈ polls steps, t + task.interval.toNat < 2 ^ 64) :
    ∃ n, Fires p s task steps n := by
  induction steps generalizing s task with
  | nil => exact ⟨0, rfl, fun _ => le_rfl⟩
  | cons step steps ih =>
    by_cases hrun : K.running s.host
    swap
    · exact ⟨0, fires_ended hrun⟩
    have hon' := run_online hon step
    cases hpoll : step.poll with
    | none =>
      rw [polls_cons_of_no_poll hpoll] at hov
      obtain ⟨n, h⟩ := ih hon' (run_of_no_poll hpoll hp).2 hov
      exact ⟨n, h.of_no_poll hrun hpoll hp⟩
    | some time =>
      rw [polls_cons_of_poll hpoll] at hov
      obtain ⟨hfits, hov⟩ := List.forall_mem_cons.mp hov
      obtain ⟨env, heq⟩ := run_of_poll hon hpoll
      have htask := runTasks_task env time s.host hp
      rcases htask with ⟨hdue, htimes, task', hp', hnext, hinterval⟩ | ⟨htimes, hp', hidle⟩
      · have hnat : task'.nextRun.toNat = time.toNat + task.interval.toNat := by
          rw [hnext, UInt64.toNat_add, Nat.mod_eq_of_lt hfits]
        obtain ⟨n, h⟩ := ih hon' (heq ▸ hp') (hinterval.symm ▸ hov)
        exact ⟨n + 1, h.of_due hrun hpoll hdue (heq ▸ htimes) hnat hinterval⟩
      -- due but not executed: an earlier task has ended the process
      · by_cases hdue : task.nextRun ≤ time
        · have hend : ¬ K.running (step.run s).1.host := by
            rw [heq]
            exact fun h => hidle h hdue
          exact ⟨0, fires_ending hrun hend (heq ▸ htimes)⟩
        · obtain ⟨n, h⟩ := ih hon' (heq ▸ hp') hov
          exact ⟨n + 1, h.of_idle hrun hpoll hdue (heq ▸ htimes)⟩

end Firing

end CyphalOnboard
