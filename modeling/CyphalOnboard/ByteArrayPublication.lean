import CyphalOnboard.NodeSpec
import CyphalOnboard.Periods

namespace CyphalOnboard

open ByteBuffer OpenCyphal

variable {C : Canard} {τ : Type} {R : ℕ}

/-- The payload an execution hands to `Node::Publish`. -/
def TByteArray.payload (env : TaskEnv) (task : TByteArray) : Except Fault (List UInt8) := do
  let r ← task.message.serializeMessage env.frame env.dataAddress task.size
  let x ← IPMessage.serializedMessage (IPMessage.metadata r.2).2
  return x.1.take (IPMessage.serializedSize x.2)

/-- The task after the executions of a history. -/
def TByteArray.after (task : TByteArray) (history : List (TaskEnv × UInt64 × NodeCore C τ R)) :
    TByteArray :=
  history.foldl (fun task x => (task.execute x.1 x.2.1 x.2.2).1) task

/-- The payload decodes to the array `d`, whatever object it is read into. -/
def Decodes (payload : List UInt8) (d : List Int8) : Prop :=
  ∀ obj : Integer8Array, obj.elements.length = integer8Capacity →
    ∃ obj' size, obj.deserialize payload payload.length = .ok (obj', size) ∧
      obj'.count = d.length ∧ obj'.elements.take d.length = d

theorem bytesAtParameter_length (frame : StackFrame) (byteArray : UInt64) (size : ℕ) :
    (frame.bytesAtParameter byteArray size).length = size := by
  simp only [StackFrame.bytesAtParameter, List.length_take, List.length_append, leBytes_length,
    List.length_map, List.length_range]
  omega

/-- The array `SerializeMessage` fills from the address of its parameter. -/
def StackFrame.copied (frame : StackFrame) (byteArray : UInt64) (size : ℕ) : Integer8Array where
  elements := overwrite frame.array.initialized.elements 0
    ((frame.bytesAtParameter byteArray size).map UInt8.toInt8)
  count := size

theorem copied_serialize (frame : StackFrame) (byteArray : UInt64) {size : ℕ}
    (hsize : size ≤ integer8Capacity) (buffer : List UInt8) :
    (frame.copied byteArray size).serialize buffer integer8BufferSize =
      .ok (leBytes 2 size ++ frame.bytesAtParameter byteArray size ++ buffer.drop (2 + size),
        2 + size) := by
  have hlen := bytesAtParameter_length frame byteArray size
  have helements : frame.array.initialized.elements.length = integer8Capacity := by
    rw [Integer8Array.initialized_elements]
    exact frame.array_length
  have hover : (overwrite frame.array.initialized.elements 0
      ((frame.bytesAtParameter byteArray size).map UInt8.toInt8)).take size =
      (frame.bytesAtParameter byteArray size).map UInt8.toInt8 := by
    simp only [overwrite, List.take_zero, List.nil_append]
    exact List.take_left' (by rw [List.length_map, hlen])
  have hfits : size ≤ (overwrite frame.array.initialized.elements 0
      ((frame.bytesAtParameter byteArray size).map UInt8.toInt8)).length := by
    rw [overwrite_length (by rw [List.length_map, hlen, helements]; omega), helements]
    exact hsize
  have hserialize := Integer8Array.serialize_eq (frame.copied byteArray size) buffer hsize hfits
  simp only [StackFrame.copied, hover, map_toUInt8_toInt8] at hserialize
  exact hserialize

/-- An array that fits is serialized from the address of the parameter. -/
theorem serializeMessage_eq (m : PMessageByteArray) (frame : StackFrame) (byteArray : UInt64)
    {size : ℕ} (hsize : size ≤ integer8Capacity) :
    m.serializeMessage frame byteArray size =
      .ok (0, { m with serialized := leBytes 2 size ++ frame.bytesAtParameter byteArray size ++
        m.serialized.drop (2 + size) }) := by
  have hserialize := copied_serialize frame byteArray hsize m.serialized
  simp only [StackFrame.copied] at hserialize
  simp only [PMessageByteArray.serializeMessage, if_neg (not_lt.mpr hsize), hserialize]

/-- What executions keep of a task: its size, and the size of the buffer of its message. -/
structure TByteArray.Intact (size : ℕ) (task : TByteArray) : Prop where
  size : task.size = size
  buffer : task.message.serialized.length = integer8BufferSize

theorem intact_construct {portId : CanardPortID} {data : List Int8} {size : ℕ} {interval : UInt64}
    {task : TByteArray} (h : TByteArray.construct portId data size interval = .ok task) :
    task.Intact size := by
  unfold TByteArray.construct at h
  split_ifs at h
  rw [← Except.ok.inj h]
  exact ⟨rfl, List.length_replicate⟩

theorem intact_execute {size : ℕ} (hsize : size ≤ integer8Capacity) {task : TByteArray}
    (h : task.Intact size) (env : TaskEnv) (currentTime : UInt64) (node : NodeCore C τ R) :
    (task.execute env currentTime node).1.Intact size := by
  have heq := serializeMessage_eq task.message env.frame env.dataAddress (h.size ▸ hsize)
  unfold TByteArray.execute
  rw [heq]
  refine ⟨h.size, ?_⟩
  have hlen := bytesAtParameter_length env.frame env.dataAddress task.size
  have hcap : task.size ≤ 256 := h.size ▸ hsize
  have hbuffer : task.message.serialized.length = 258 := h.buffer
  change (_ ++ _ ++ _ : List UInt8).length = 258
  rw [List.length_append, List.length_append, leBytes_length, hlen, List.length_drop, hbuffer]
  omega

theorem intact_after {size : ℕ} (hsize : size ≤ integer8Capacity)
    (history : List (TaskEnv × UInt64 × NodeCore C τ R)) {task : TByteArray}
    (h : task.Intact size) : (task.after history).Intact size := by
  induction history generalizing task with
  | nil => exact h
  | cons x history ih => exact ih (intact_execute hsize h x.1 x.2.1 x.2.2)

/-- The payload is the prefix, the bytes at the parameter and what the buffer held behind them. -/
theorem payload_eq {size : ℕ} (hsize : size ≤ integer8Capacity) {task : TByteArray}
    (h : task.Intact size) (env : TaskEnv) :
    ∃ rest, rest.length + size = integer8Capacity ∧ task.payload env =
      .ok (leBytes 2 size ++ env.frame.bytesAtParameter env.dataAddress size ++ rest) := by
  have heq := serializeMessage_eq task.message env.frame env.dataAddress (h.size ▸ hsize)
  have hlen := bytesAtParameter_length env.frame env.dataAddress size
  have hcap : size ≤ 256 := hsize
  have hbuffer : task.message.serialized.length = 258 := h.buffer
  have hrest : (task.message.serialized.drop (2 + size)).length + size = 256 := by
    rw [List.length_drop, hbuffer]
    omega
  refine ⟨task.message.serialized.drop (2 + size), hrest, ?_⟩
  rw [h.size] at heq
  unfold TByteArray.payload
  rw [h.size, heq]
  simp only [bind, Except.bind, IPMessage.metadata, IPMessage.serializedMessage, pure, Except.pure,
    IPMessage.serializedSize]
  rw [List.take_of_length_le]
  rw [List.length_append, List.length_append, leBytes_length, hlen]
  change _ ≤ 258
  omega

/-- What `n` bytes behind the prefix decode to. -/
theorem decodes_iff {bytes rest : List UInt8} {d : List Int8} (hlen : bytes.length = d.length)
    (hd : d.length ≤ integer8Capacity) :
    Decodes (leBytes 2 d.length ++ bytes ++ rest) d ↔ bytes.map UInt8.toInt8 = d := by
  have hsize : (leBytes 2 d.length ++ bytes ++ rest).length = 2 + bytes.length + rest.length := by
    simp only [List.length_append, leBytes_length]
  have htake (obj : Integer8Array) :
      (bytes.map UInt8.toInt8 ++ obj.elements.drop bytes.length).take d.length =
        bytes.map UInt8.toInt8 := List.take_left' (by rw [List.length_map, hlen])
  have hbytes : bytes.length ≤ integer8Capacity := hlen ▸ hd
  have hread (obj : Integer8Array) := obj.deserialize_eq hbytes rest
  constructor
  · intro h
    obtain ⟨obj', size, hok, -, hdata⟩ := h ⟨List.replicate 256 0, 0⟩ List.length_replicate
    rw [hsize, ← hlen, hread] at hok
    rw [← (Prod.mk.inj (Except.ok.inj hok)).1, htake] at hdata
    exact hdata
  · intro h obj _
    refine ⟨⟨bytes.map UInt8.toInt8 ++ obj.elements.drop bytes.length, bytes.length⟩,
      2 + bytes.length, ?_, hlen, ?_⟩
    · rw [hsize, ← hlen]
      exact hread obj
    · rw [htake, h]

/-- The pushes of an execution carry its payload. -/
theorem execute_payload (L : TxLaws C) {env : TaskEnv} {task : TByteArray} {payload : List UInt8}
    (h : task.payload env = .ok payload) (currentTime : UInt64) (node : NodeCore C τ R) :
    ∃ evs, (task.execute env currentTime node).2.base.events = node.base.events ++ evs ∧
      PushesOf (currentTime + task.interval - 1) (IPMessage.metadata task.message).1 payload
        evs := by
  unfold TByteArray.payload at h
  unfold TByteArray.execute
  cases hs : task.message.serializeMessage env.frame env.dataAddress task.size with
  | error fault =>
    rw [hs] at h
    cases h
  | ok r =>
    rw [hs] at h
    have hmeta : (IPMessage.metadata r.2).1 = (IPMessage.metadata task.message).1 := by
      simp only [IPMessage.metadata, PMessageByteArray.serializeMessage_metadata hs]
    have hpayload : payload = r.2.serialized.take integer8BufferSize := (Except.ok.inj h).symm
    rw [hpayload, ← hmeta]
    exact publish_pushes L node.base _ _ _

/-- A task for an array of up to 256 elements publishes a payload that decodes to the array if and
only if the bytes at the address of the parameter are those of the array. Two executions publish the
same elements if and only if they find the same bytes there. -/
theorem byte_array_carried_iff (L : TxLaws C) (portId : CanardPortID) (d : List Int8)
    (hd : d.length ≤ integer8Capacity) (interval : UInt64) (task : TByteArray)
    (hconstruct : TByteArray.construct portId d d.length interval = .ok task)
    (history : List (TaskEnv × UInt64 × NodeCore C τ R)) (env : TaskEnv) (currentTime : UInt64)
    (node : NodeCore C τ R) :
    ∃ payload, (task.after history).payload env = .ok payload ∧
      (∃ evs, ((task.after history).execute env currentTime node).2.base.events =
          node.base.events ++ evs ∧
        ∃ deadline metadata, PushesOf deadline metadata payload evs) ∧
      (Decodes payload d ↔
        (env.frame.bytesAtParameter env.dataAddress d.length).map UInt8.toInt8 = d) ∧
      ∀ (history' : List (TaskEnv × UInt64 × NodeCore C τ R)) env' payload',
        (task.after history').payload env' = .ok payload' →
          ((payload.drop 2).take d.length = (payload'.drop 2).take d.length ↔
            env.frame.bytesAtParameter env.dataAddress d.length =
              env'.frame.bytesAtParameter env'.dataAddress d.length) := by
  have hintact := intact_construct hconstruct
  obtain ⟨rest, -, hpayload⟩ := payload_eq hd (intact_after hd history hintact) env
  obtain ⟨evs, hevents, hpush⟩ := execute_payload L hpayload currentTime node
  have hlen (env : TaskEnv) := bytesAtParameter_length env.frame env.dataAddress d.length
  have hdata (env : TaskEnv) (rest : List UInt8) :
      ((leBytes 2 d.length ++ env.frame.bytesAtParameter env.dataAddress d.length ++ rest).drop
        2).take d.length = env.frame.bytesAtParameter env.dataAddress d.length := by
    rw [List.append_assoc, List.drop_left' (leBytes_length 2 _), List.take_left' (hlen env)]
  -- what the buffer holds behind the elements differs between histories, the elements do not
  refine ⟨_, hpayload, ⟨evs, hevents, _, _, hpush⟩, decodes_iff (hlen env) hd, ?_⟩
  intro history' env' payload' hpayload'
  obtain ⟨rest', -, heq⟩ := payload_eq hd (intact_after hd history' hintact) env'
  obtain rfl := Except.ok.inj (hpayload'.symm.trans heq)
  rw [hdata, hdata]

/-- A call with the array at an address, and zeros on the stack. -/
def envAt (dataAddress : UInt64) : TaskEnv :=
  { quietEnv with dataAddress := dataAddress }

/-- The element 5, kept at an address that ends in 5. -/
theorem byte_array_carried_iff_agreeing :
    ∃ task payload, TByteArray.construct 32 [5] 1 1000000 = .ok task ∧
      task.payload (envAt 4101) = .ok payload ∧ Decodes payload [5] := by
  obtain ⟨payload, hpayload, -, hcarried, -⟩ := byte_array_carried_iff SingleFrame.txLaws 32 [5]
    (by decide) 1000000 _ rfl [] (envAt 4101) 0 heartbeatNode.host
  exact ⟨_, payload, rfl, hpayload, hcarried.mpr (by decide)⟩

/-- At an address that ends in 0 the element that is published is 0. -/
theorem address_published :
    ∃ task payload payload', TByteArray.construct 32 [5] 1 1000000 = .ok task ∧
      task.payload (envAt 4096) = .ok payload ∧ ¬ Decodes payload [5] ∧
      task.payload (envAt 4101) = .ok payload' ∧
      (payload.drop 2).take 1 ≠ (payload'.drop 2).take 1 := by
  have hintact : ∀ task, TByteArray.construct 32 [5] 1 1000000 = .ok task → task.Intact 1 :=
    fun task h => intact_construct h
  obtain ⟨rest, -, hpayload⟩ := payload_eq (by decide) (hintact _ rfl) (envAt 4096)
  obtain ⟨rest', -, hpayload'⟩ := payload_eq (by decide) (hintact _ rfl) (envAt 4101)
  refine ⟨_, _, _, rfl, hpayload, ?_, hpayload', ?_⟩
  · rw [show 1 = [(5 : Int8)].length from rfl, decodes_iff (bytesAtParameter_length ..) (by decide)]
    decide
  · rw [List.append_assoc, List.append_assoc, List.drop_left' (leBytes_length 2 _),
      List.drop_left' (leBytes_length 2 _), List.take_left' (bytesAtParameter_length ..),
      List.take_left' (bytesAtParameter_length ..)]
    decide

end CyphalOnboard
