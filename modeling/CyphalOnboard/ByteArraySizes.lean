import CyphalOnboard.ByteArrayPublication
import CyphalOnboard.PublishResult

namespace CyphalOnboard

open ByteBuffer OpenCyphal

variable {C : Canard} {τ : Type} {R : ℕ}

/-- A call of `SerializeMessage` followed by `Node::Publish`, and the node it is made on. -/
structure Publication (C : Canard) (τ : Type) (R : ℕ) where
  frame : StackFrame
  dataAddress : UInt64
  size : ℕ
  timeout : CanardMicrosecond
  node : NodeCore C τ R

namespace PMessageByteArray

def publishArray (m : PMessageByteArray) (p : Publication C τ R) :
    PMessageByteArray × NodeCore C τ R :=
  match m.serializeMessage p.frame p.dataAddress p.size with
  | .error fault => (m, p.node.crash fault)
  | .ok (_, m) =>
    let r := p.node.publish p.timeout m
    (r.1, r.2.1)

/-- The message after the publications `ps`. -/
def afterPublications (m : PMessageByteArray) (ps : List (Publication C τ R)) :
    PMessageByteArray :=
  ps.foldl (fun m p => (m.publishArray p).1) m

/-- What `uavcan_primitive_array_Integer8_1_0_serialize_` produces in the call. -/
def produced (m : PMessageByteArray) (p : Publication C τ R) : Except ℤ (List UInt8) := do
  let (serialized, serializedSize) ←
    (p.frame.copied p.dataAddress p.size).serialize m.serialized integer8BufferSize
  return serialized.take serializedSize

/-- Every push of the publication carries the bytes the serializer has produced, and no others. -/
def Exact (m : PMessageByteArray) (p : Publication C τ R) : Prop :=
  ∃ bytes evs, m.produced p = .ok bytes ∧
    (m.publishArray p).2.base.events = p.node.base.events ++ evs ∧
    ∀ i deadline metadata payload r frames,
      .push i deadline metadata payload r frames ∈ evs → payload = bytes

end PMessageByteArray

/-- The process runs and its first queue is initialised, so that something is pushed. -/
def Publication.Pushes (p : Publication C τ R) : Prop :=
  p.node.base.crashed = none ∧ ∃ i : Fin R, i.val = 0 ∧ (p.node.base.txQueues i).isSome

open PMessageByteArray

theorem produced_eq (m : PMessageByteArray) (p : Publication C τ R)
    (hsize : p.size ≤ integer8Capacity) :
    m.produced p = .ok (leBytes 2 p.size ++ p.frame.bytesAtParameter p.dataAddress p.size) := by
  have hlen : (leBytes 2 p.size ++ p.frame.bytesAtParameter p.dataAddress p.size).length =
      2 + p.size := by
    rw [List.length_append, leBytes_length, bytesAtParameter_length]
  simp only [produced, copied_serialize p.frame p.dataAddress hsize, bind, Except.bind, pure,
    Except.pure]
  rw [List.take_left' hlen]

/-- What is published is the whole buffer. -/
theorem publishArray_eq {m : PMessageByteArray} (hbuffer : m.serialized.length = integer8BufferSize)
    (p : Publication C τ R) (hsize : p.size ≤ integer8Capacity) :
    (m.publishArray p).1.serialized = leBytes 2 p.size ++
        p.frame.bytesAtParameter p.dataAddress p.size ++ m.serialized.drop (2 + p.size) ∧
      (m.publishArray p).2.base = (p.node.base.publish p.timeout (IPMessage.metadata m).1
        (m.publishArray p).1.serialized).1 := by
  have heq := serializeMessage_eq m p.frame p.dataAddress hsize
  have hlen := bytesAtParameter_length p.frame p.dataAddress p.size
  have hcap : p.size ≤ 256 := hsize
  have hbuf : m.serialized.length = 258 := hbuffer
  unfold publishArray
  rw [heq]
  refine ⟨rfl, ?_⟩
  simp only [NodeCore.publish, IPMessage.metadata, IPMessage.serializedMessage,
    IPMessage.serializedSize]
  rw [List.take_of_length_le]
  rw [List.length_append, List.length_append, leBytes_length, hlen, List.length_drop, hbuf]
  change _ ≤ 258
  omega

theorem publishArray_length {m : PMessageByteArray}
    (hbuffer : m.serialized.length = integer8BufferSize) (p : Publication C τ R)
    (hsize : p.size ≤ integer8Capacity) :
    (m.publishArray p).1.serialized.length = integer8BufferSize := by
  have hcap : p.size ≤ 256 := hsize
  have hbuf : m.serialized.length = 258 := hbuffer
  rw [(publishArray_eq hbuffer p hsize).1, List.length_append, List.length_append, leBytes_length,
    bytesAtParameter_length, List.length_drop, hbuf]
  change _ = 258
  omega

theorem afterPublications_length {m : PMessageByteArray}
    (hbuffer : m.serialized.length = integer8BufferSize) {ps : List (Publication C τ R)}
    (hsize : ∀ p ∈ ps, p.size ≤ integer8Capacity) :
    (m.afterPublications ps).serialized.length = integer8BufferSize := by
  induction ps generalizing m with
  | nil => exact hbuffer
  | cons p ps ih =>
    obtain ⟨hp, hps⟩ := List.forall_mem_cons.mp hsize
    exact ih (publishArray_length hbuffer p hp) hps

/-- A process that has ended, or ends at its first interface, pushes nothing. -/
theorem publish_silent {s : OpenCyphal C τ R}
    (h : ¬ (s.crashed = none ∧ ∃ i : Fin R, i.val = 0 ∧ (s.txQueues i).isSome))
    (deadline : CanardMicrosecond) (metadata : CanardTransferMetadata) (payload : List UInt8) :
    (s.publish deadline metadata payload).1.events = s.events := by
  cases hc : s.crashed with
  | some fault =>
    unfold publish
    rw [foldl_publishOn_crashed hc]
  | none =>
    cases R with
    | zero => rfl
    | succ R =>
      have hq : s.txQueues 0 = none := by
        rw [← Option.not_isSome_iff_eq_none]
        exact fun hsome => h ⟨hc, 0, rfl, hsome⟩
      obtain ⟨post, hl⟩ := finRange_split (0 : Fin (R + 1))
      have hfirst : s.publishOn deadline metadata payload 0 =
          (s.crash (.uninitialisedQueue 0), none) := by
        simp only [publishOn, hc, hq, Fin.val_zero]
      have hended : (s.crash (.uninitialisedQueue 0)).crashed = some (.uninitialisedQueue 0) := rfl
      rw [publish_split s deadline metadata payload hl]
      change (post.foldl _ (s.publishOn deadline metadata payload 0)).1.events = s.events
      rw [hfirst, foldl_publishOn_crashed hended]
      rfl

/-- One publication is exact when the array fills the buffer, or nothing is pushed. -/
theorem publication_exact_iff (L : TxLaws C) {m : PMessageByteArray}
    (hbuffer : m.serialized.length = integer8BufferSize) (p : Publication C τ R)
    (hsize : p.size ≤ integer8Capacity) :
    m.Exact p ↔ (p.Pushes → p.size = integer8Capacity) := by
  have hproduced := produced_eq m p hsize
  obtain ⟨hserialized, hpublish⟩ := publishArray_eq hbuffer p hsize
  have hlength := publishArray_length hbuffer p hsize
  constructor
  · rintro ⟨bytes, evs, hbytes, hevents, hexact⟩ ⟨hc, i, hi, hq⟩
    obtain ⟨r, frames, rest, hfirst⟩ := publish_first L hc hi hq p.timeout
      (IPMessage.metadata m).1 (m.publishArray p).1.serialized
    rw [hpublish, hfirst, List.append_cancel_left_eq] at hevents
    have hpayload := hexact i _ _ _ _ _ (by rw [← hevents]; exact List.mem_cons_self ..)
    have hlen := congrArg List.length (Except.ok.inj (hproduced.symm.trans hbytes))
    rw [← hpayload, hlength, List.length_append, leBytes_length, bytesAtParameter_length] at hlen
    change 2 + p.size = 258 at hlen
    change p.size = 256
    omega
  · intro hfull
    by_cases hp : p.Pushes
    · obtain ⟨evs, hevents, hpushes⟩ := publish_pushes L p.node.base p.timeout
        (IPMessage.metadata m).1 (m.publishArray p).1.serialized
      refine ⟨_, evs, hproduced, by rw [hpublish, hevents], ?_⟩
      intro i deadline metadata payload r frames hm
      obtain ⟨_, _, _, heq, -⟩ := hpushes _ hm
      cases heq
      -- behind an array of the full length the buffer ends
      have hend : m.serialized.drop (2 + p.size) = [] := by
        rw [List.drop_eq_nil_iff, hbuffer, hfull hp]
        decide
      rw [hserialized, hend, List.append_nil]
    · have hevents := publish_silent hp p.timeout (IPMessage.metadata m).1
        (m.publishArray p).1.serialized
      exact ⟨_, [], hproduced, by rw [hpublish, hevents, List.append_nil], by simp⟩

/-- Over every sequence of publications of one message, each array of up to 256 elements, all are
exact if and only if each array that is pushed has the full length. -/
theorem publications_exact_iff (L : TxLaws C) (m : PMessageByteArray)
    (hbuffer : m.serialized.length = integer8BufferSize) (ps : List (Publication C τ R))
    (hsize : ∀ p ∈ ps, p.size ≤ integer8Capacity) :
    (∀ pre p post, ps = pre ++ p :: post → (m.afterPublications pre).Exact p) ↔
      ∀ p ∈ ps, p.Pushes → p.size = integer8Capacity := by
  have hone (pre : List (Publication C τ R)) (p : Publication C τ R)
      (post : List (Publication C τ R)) (hps : ps = pre ++ p :: post) :
      (m.afterPublications pre).Exact p ↔ (p.Pushes → p.size = integer8Capacity) := by
    rw [hps, List.forall_mem_append, List.forall_mem_cons] at hsize
    exact publication_exact_iff L (afterPublications_length hbuffer hsize.1) p hsize.2.1
  constructor
  · intro h p hp
    obtain ⟨pre, post, hps⟩ := List.append_of_mem hp
    exact (hone pre p post hps).mp (h pre p post hps)
  · intro h pre p post hps
    exact (hone pre p post hps).mpr (h p (by rw [hps]; simp))

/-- A publication of `size` elements on a node that runs. -/
def runningPublication (size : ℕ) : Publication SingleFrame.canard Unit 1 where
  frame := quietEnv.frame
  dataAddress := 4096
  size := size
  timeout := 1000000
  node := heartbeatNode.host

theorem publications_exact_iff_full :
    (∀ pre p post, [runningPublication 256, runningPublication 256] = pre ++ p :: post →
        ((PMessageByteArray.construct 32).afterPublications pre).Exact p) ↔
      ∀ p ∈ [runningPublication 256, runningPublication 256],
        p.Pushes → p.size = integer8Capacity :=
  publications_exact_iff SingleFrame.txLaws (.construct 32) List.length_replicate
    [runningPublication 256, runningPublication 256] (by decide)

/-- Behind one element the rest of a longer array is published again. -/
theorem shorter_array_not_exact :
    ¬ ∀ pre p post, [runningPublication 2, runningPublication 1] = pre ++ p :: post →
      ((PMessageByteArray.construct 32).afterPublications pre).Exact p := by
  intro h
  have hlength : ((PMessageByteArray.construct 32).afterPublications
      [runningPublication 2]).serialized.length = integer8BufferSize :=
    afterPublications_length List.length_replicate (by decide)
  have hexact := h [runningPublication 2] (runningPublication 1) [] rfl
  rw [publication_exact_iff SingleFrame.txLaws hlength _ (by decide)] at hexact
  have hfull : (runningPublication 1).size = integer8Capacity := hexact ⟨rfl, 0, rfl, rfl⟩
  exact absurd hfull (by decide)

/-- A task for an array of `size` elements is constructed within its buffer, and an execution after
those of `history` pushes nothing and uses no transfer-ID. -/
structure RejectedWithoutEffect (portId : CanardPortID) (data : List Int8) (size : ℕ)
    (interval : UInt64) (history : List (TaskEnv × UInt64 × NodeCore C τ R)) (env : TaskEnv)
    (currentTime : UInt64) (node : NodeCore C τ R) : Prop where
  inBounds : TByteArray.construct portId data size interval ≠ .error .outOfBounds
  silent : ∀ task, TByteArray.construct portId data size interval = .ok task →
    ((task.after history).execute env currentTime node).2.base.events = node.base.events
  idKept : ∀ task, TByteArray.construct portId data size interval = .ok task →
    ((task.after history).execute env currentTime node).1.message.metadata.transferId =
      (task.after history).message.metadata.transferId

theorem construct_cases (portId : CanardPortID) (data : List Int8) (size : ℕ)
    (interval : UInt64) :
    TByteArray.construct portId data size interval = .error .outOfBounds ∨
      ∃ task, TByteArray.construct portId data size interval = .ok task ∧ task.size = size ∧
        task.message = .construct portId := by
  unfold TByteArray.construct
  split_ifs with h
  · exact .inl rfl
  · exact .inr ⟨_, rfl, rfl, rfl⟩

/-- The message is published as if it had been serialized. -/
theorem execute_oversized {task : TByteArray} (h : integer8Capacity < task.size) (env : TaskEnv)
    (currentTime : UInt64) (node : NodeCore C τ R) :
    (task.execute env currentTime node).1 =
        { task with message := (IPMessage.metadata task.message).2 } ∧
      (task.execute env currentTime node).2.base =
        (node.base.publish (currentTime + task.interval - 1) (IPMessage.metadata task.message).1
          (task.message.serialized.take integer8BufferSize)).1 := by
  have hrejected : task.message.serializeMessage env.frame env.dataAddress task.size =
      .ok (5, task.message) := by
    rw [PMessageByteArray.serializeMessage, if_pos h]
  unfold TByteArray.execute
  rw [hrejected]
  exact ⟨rfl, rfl⟩

theorem after_oversized {task : TByteArray} (h : integer8Capacity < task.size)
    (history : List (TaskEnv × UInt64 × NodeCore C τ R)) :
    (task.after history).size = task.size ∧
      (task.after history).message.serialized = task.message.serialized := by
  induction history generalizing task with
  | nil => exact ⟨rfl, rfl⟩
  | cons x history ih =>
    have hfirst := (execute_oversized h x.1 x.2.1 x.2.2).1
    have hcons : task.after (x :: history) = (task.execute x.1 x.2.1 x.2.2).1.after history := rfl
    rw [hcons, hfirst]
    exact ih h

/-- Every execution of an oversized task that is constructed pushes the zeros of the buffer. -/
theorem oversized_pushes (L : TxLaws C) {portId : CanardPortID} {data : List Int8} {size : ℕ}
    {interval : UInt64} (hsize : integer8Capacity < size) {task : TByteArray}
    (htask : TByteArray.construct portId data size interval = .ok task)
    (history : List (TaskEnv × UInt64 × NodeCore C τ R)) (env : TaskEnv) (currentTime : UInt64)
    (node : NodeCore C τ R) (hc : node.base.crashed = none) (i : Fin R) (hi : i.val = 0)
    (hq : (node.base.txQueues i).isSome) :
    ∃ deadline metadata r frames evs,
      ((task.after history).execute env currentTime node).2.base.events = node.base.events ++
        .push i deadline metadata (List.replicate integer8BufferSize 0) r frames :: evs := by
  obtain hbounds | ⟨task', htask', hsize', hmessage⟩ := construct_cases portId data size interval
  · rw [hbounds] at htask
    cases htask
  obtain rfl := Except.ok.inj (htask.symm.trans htask')
  have hover : integer8Capacity < task.size := by rw [hsize']; exact hsize
  obtain ⟨hsame, hzeros⟩ := after_oversized hover history
  have hpublish := (execute_oversized (hsame.symm ▸ hover) env currentTime node).2
  rw [hzeros, hmessage, PMessageByteArray.construct,
    List.take_of_length_le List.length_replicate.le] at hpublish
  obtain ⟨r, frames, evs, hevents⟩ := publish_first L hc hi hq
    (currentTime + (task.after history).interval - 1)
    (IPMessage.metadata (task.after history).message).1 (List.replicate integer8BufferSize 0)
  exact ⟨_, _, r, frames, evs, by rw [hpublish, hevents]⟩

/-- No array of more than 256 elements is rejected without effect: the constructor writes out of
bounds, or every execution uses a transfer-ID. -/
theorem oversized_never_rejected (portId : CanardPortID) (data : List Int8) (size : ℕ)
    (hsize : integer8Capacity < size) (interval : UInt64)
    (history : List (TaskEnv × UInt64 × NodeCore C τ R)) (env : TaskEnv) (currentTime : UInt64)
    (node : NodeCore C τ R) :
    ¬ RejectedWithoutEffect portId data size interval history env currentTime node := by
  rintro ⟨hbounds, -, hkept⟩
  obtain herror | ⟨task, htask, hsame, -⟩ := construct_cases portId data size interval
  · exact hbounds herror
  have hover : integer8Capacity < task.size := by rw [hsame]; exact hsize
  obtain ⟨hafter, -⟩ := after_oversized hover history
  have hexecute := (execute_oversized (hafter.symm ▸ hover) env currentTime node).1
  have hid := hkept task htask
  rw [hexecute] at hid
  -- no byte is its own successor
  have hsucc (id : CanardTransferID) : id + 1 ≠ id := by simp
  exact hsucc _ hid

theorem oversized_never_rejected_beyond :
    ¬ RejectedWithoutEffect 32 (List.replicate 259 1) 259 1000000 [] quietEnv 0
      heartbeatNode.host :=
  oversized_never_rejected 32 (List.replicate 259 1) 259 (by decide) 1000000 [] quietEnv 0
    heartbeatNode.host

/-- An array of 257 elements fits into the task: nothing is serialized, and zeros are published. -/
theorem oversized_array_published :
    ¬ RejectedWithoutEffect 32 (List.replicate 257 1) 257 1000000 [] quietEnv 0
      heartbeatNode.host := by
  rintro ⟨-, hsilent, -⟩
  have htask : TByteArray.construct 32 (List.replicate 257 1) 257 1000000 = .ok _ := rfl
  obtain ⟨deadline, metadata, r, frames, evs, hevents⟩ := oversized_pushes SingleFrame.txLaws
    (by decide) htask [] quietEnv 0 heartbeatNode.host rfl 0 rfl rfl
  rw [hsilent _ rfl] at hevents
  simp at hevents

end CyphalOnboard
