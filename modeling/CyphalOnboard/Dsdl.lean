import CyphalOnboard.Canard
import CyphalOnboard.Nunavut

namespace CyphalOnboard

open ByteBuffer

/-- The buffer with the size of the representation, or the negative error code. -/
abbrev SerializeResult := Except ℤ (List UInt8 × ℕ)

/-- Zero the bits up to the next byte boundary. -/
def padTo8 (buffer : List UInt8) (capacityBytes offsetBits : ℕ) : SerializeResult :=
  if offsetBits % 8 ≠ 0 then do
    let pad := 8 - offsetBits % 8
    let buffer ← nunavutSetUxx buffer capacityBytes offsetBits 0 pad
    return (buffer, offsetBits + pad)
  else .ok (buffer, offsetBits)

/-- Serialize an object of at most `maxSize` bytes at an offset of the buffer. -/
def nested (serialize : List UInt8 → ℕ → SerializeResult) (maxSize : ℕ) (buffer : List UInt8)
    (offsetBits : ℕ) : SerializeResult := do
  let (sub, size) ← serialize (buffer.drop (offsetBits / 8)) maxSize
  return (buffer.take (offsetBits / 8) ++ sub, offsetBits + size * 8)

theorem padTo8_aligned {offsetBits : ℕ} (h : offsetBits % 8 = 0) (buffer : List UInt8)
    (capacityBytes : ℕ) : padTo8 buffer capacityBytes offsetBits = .ok (buffer, offsetBits) := by
  simp [padTo8, h]

theorem nested_ok (serialize : List UInt8 → ℕ → SerializeResult) {maxSize offsetBits : ℕ}
    {buffer : List UInt8} {r : List UInt8 × ℕ}
    (h : serialize (buffer.drop (offsetBits / 8)) maxSize = .ok r) :
    nested serialize maxSize buffer offsetBits =
      .ok (buffer.take (offsetBits / 8) ++ r.1, offsetBits + r.2 * 8) := by
  simp only [nested, h, bind, Except.bind, pure, Except.pure]

/-- A single saturated unsigned integer of `bits` bits, padded to a byte. -/
def serializeSaturated (bits : ℕ) (max value : UInt8) (buffer : List UInt8) (capacityBytes : ℕ) :
    SerializeResult :=
  if 8 * capacityBytes < 8 then .error (-nunavutErrorSerializationBufferTooSmall)
  else do
    let sat := if value > max then max else value
    let (buffer, offsetBits) ← padTo8 (buffer.set 0 sat) capacityBytes bits
    return (buffer, offsetBits / 8)

theorem serializeSaturated_ok {bits : ℕ} (hpos : 0 < bits) (hbits : bits ≤ 8) (max value : UInt8)
    (buffer : List UInt8) :
    ∃ sub, serializeSaturated bits max value buffer 1 = .ok (sub, 1) := by
  obtain hlt | rfl := hbits.lt_or_eq
  · have hmod : bits % 8 = bits := Nat.mod_eq_of_lt hlt
    have hset : ¬ 1 * 8 < bits + (8 - bits) := by omega
    have hsize : (bits + (8 - bits)) / 8 = 1 := by omega
    simp only [serializeSaturated, padTo8, hmod, ne_eq, hpos.ne', not_false_eq_true, if_true,
      nunavutSetUxx, if_neg hset, bind, Except.bind, pure, Except.pure, hsize]
    exact ⟨_, rfl⟩
  · exact ⟨_, rfl⟩

/-- `uavcan_node_Health_1_0`. -/
structure Health where
  value : UInt8

def Health.serialize (obj : Health) : List UInt8 → ℕ → SerializeResult :=
  serializeSaturated 2 3 obj.value

/-- `uavcan_node_Mode_1_0`. -/
structure Mode where
  value : UInt8

def modeOperational : UInt8 := 0

def Mode.serialize (obj : Mode) : List UInt8 → ℕ → SerializeResult :=
  serializeSaturated 3 7 obj.value

/-- `uavcan_node_Version_1_0`. -/
structure Version where
  major : UInt8
  minor : UInt8

def Version.serialize (obj : Version) (buffer : List UInt8) (capacityBytes : ℕ) :
    SerializeResult :=
  if 8 * capacityBytes < 16 then .error (-nunavutErrorSerializationBufferTooSmall)
  else do
    let buffer := (buffer.set 0 obj.major).set 1 obj.minor
    let (buffer, offsetBits) ← padTo8 buffer capacityBytes 16
    return (buffer, offsetBits / 8)

theorem Version.serialize_ok (obj : Version) (buffer : List UInt8) :
    obj.serialize buffer 2 = .ok ((buffer.set 0 obj.major).set 1 obj.minor, 2) := rfl

/-- `uavcan_node_Heartbeat_1_0`. -/
structure Heartbeat where
  uptime : UInt32
  health : Health
  mode : Mode
  vendorSpecificStatusCode : UInt8

def heartbeatFixedPortId : CanardPortID := 7509
def heartbeatBufferSize : ℕ := 7

def Heartbeat.serialize (obj : Heartbeat) (buffer : List UInt8) (capacityBytes : ℕ) :
    SerializeResult :=
  if 8 * capacityBytes < 56 then .error (-nunavutErrorSerializationBufferTooSmall)
  else do
    let buffer := overwrite buffer 0 (leBytes 4 obj.uptime.toNat)
    let (buffer, offsetBits) ← padTo8 buffer capacityBytes 32
    let (buffer, offsetBits) ← nested obj.health.serialize 1 buffer offsetBits
    let (buffer, offsetBits) ← padTo8 buffer capacityBytes offsetBits
    let (buffer, offsetBits) ← nested obj.mode.serialize 1 buffer offsetBits
    let buffer := buffer.set (offsetBits / 8) obj.vendorSpecificStatusCode
    let (buffer, offsetBits) ← padTo8 buffer capacityBytes (offsetBits + 8)
    return (buffer, offsetBits / 8)

/-- Into its own buffer a heartbeat always serializes. -/
theorem Heartbeat.serialize_ok (obj : Heartbeat) (buffer : List UInt8) :
    ∃ sub, obj.serialize buffer heartbeatBufferSize = .ok (sub, heartbeatBufferSize) := by
  have h32 : ¬ 8 * heartbeatBufferSize < 56 := by decide
  -- health goes to byte 4, mode to byte 5
  obtain ⟨health, hhealth⟩ := serializeSaturated_ok (by decide : 0 < 2) (by decide) 3
    obj.health.value ((overwrite buffer 0 (leBytes 4 obj.uptime.toNat)).drop (32 / 8))
  obtain ⟨mode, hmode⟩ := serializeSaturated_ok (by decide : 0 < 3) (by decide) 7 obj.mode.value
    (((overwrite buffer 0 (leBytes 4 obj.uptime.toNat)).take (32 / 8) ++ health).drop (40 / 8))
  simp only [serialize, if_neg h32, padTo8_aligned (by decide : 32 % 8 = 0), bind, Except.bind,
    nested_ok obj.health.serialize hhealth]
  simp only [padTo8_aligned (by decide : (32 + 1 * 8) % 8 = 0),
    nested_ok obj.mode.serialize hmode]
  simp only [padTo8_aligned (by decide : (40 + 1 * 8 + 8) % 8 = 0)]
  exact ⟨_, rfl⟩

/-- A variable-length array: the memory of its elements and the number in use. -/
structure VarArray (α : Type) where
  elements : List α
  count : ℕ

/-- The elements of a variable-length array behind its one-byte length prefix. -/
def serializeArray (capacity : ℕ) (bytes : List UInt8) (count elementBytes : ℕ)
    (buffer : List UInt8) (offsetBits : ℕ) : SerializeResult :=
  if count > capacity then .error (-nunavutErrorRepresentationBadArrayLength)
  else
    let buffer := buffer.set (offsetBits / 8) (UInt8.ofNat count)
    let lengthBits := count * (elementBytes * 8)
    .ok (nunavutCopyBits buffer (offsetBits + 8) lengthBits bytes 0, offsetBits + 8 + lengthBits)

/-- `uavcan_node_GetInfo_Response_1_0`. -/
structure GetInfoResponse where
  protocolVersion : Version
  hardwareVersion : Version
  softwareVersion : Version
  softwareVcsRevisionId : UInt64
  uniqueId : List UInt8
  name : VarArray UInt8
  softwareImageCrc : VarArray UInt64
  certificateOfAuthenticity : VarArray UInt8

def getInfoFixedPortId : CanardPortID := 430
def getInfoRequestExtent : ℕ := 0
def getInfoResponseBufferSize : ℕ := 313
def getInfoUniqueIdCapacity : ℕ := 16
def getInfoNameCapacity : ℕ := 50

def GetInfoResponse.serialize (obj : GetInfoResponse) (buffer : List UInt8) (capacityBytes : ℕ) :
    SerializeResult :=
  if 8 * capacityBytes < 2504 then .error (-nunavutErrorSerializationBufferTooSmall)
  else do
    let (buffer, offsetBits) ← nested obj.protocolVersion.serialize 2 buffer 0
    let (buffer, offsetBits) ← padTo8 buffer capacityBytes offsetBits
    let (buffer, offsetBits) ← nested obj.hardwareVersion.serialize 2 buffer offsetBits
    let (buffer, offsetBits) ← padTo8 buffer capacityBytes offsetBits
    let (buffer, offsetBits) ← nested obj.softwareVersion.serialize 2 buffer offsetBits
    let buffer := overwrite buffer (offsetBits / 8) (leBytes 8 obj.softwareVcsRevisionId.toNat)
    let offsetBits := offsetBits + 64
    let buffer := nunavutCopyBits buffer offsetBits (16 * 8) obj.uniqueId 0
    let offsetBits := offsetBits + 16 * 8
    let (buffer, offsetBits) ← serializeArray getInfoNameCapacity obj.name.elements obj.name.count
      1 buffer offsetBits
    let (buffer, offsetBits) ← serializeArray 1
      (obj.softwareImageCrc.elements.flatMap fun crc => leBytes 8 crc.toNat)
      obj.softwareImageCrc.count 8 buffer offsetBits
    let (buffer, offsetBits) ← serializeArray 222 obj.certificateOfAuthenticity.elements
      obj.certificateOfAuthenticity.count 1 buffer offsetBits
    let (buffer, offsetBits) ← padTo8 buffer capacityBytes offsetBits
    return (buffer, offsetBits / 8)

/-- The step succeeds and leaves a whole number of bytes. -/
def Aligned (r : SerializeResult) : Prop :=
  ∃ buffer offsetBits, r = .ok (buffer, offsetBits) ∧ offsetBits % 8 = 0

theorem Aligned.bind {r : SerializeResult} (h : Aligned r)
    {next : List UInt8 × ℕ → SerializeResult}
    (hnext : ∀ buffer offsetBits, offsetBits % 8 = 0 → ∃ r', next (buffer, offsetBits) = .ok r') :
    ∃ r', (r >>= next) = .ok r' := by
  obtain ⟨buffer, offsetBits, rfl, hoff⟩ := h
  exact hnext buffer offsetBits hoff

theorem aligned_padTo8 {offsetBits : ℕ} (h : offsetBits % 8 = 0) (buffer : List UInt8)
    (capacityBytes : ℕ) : Aligned (padTo8 buffer capacityBytes offsetBits) :=
  ⟨buffer, offsetBits, padTo8_aligned h buffer capacityBytes, h⟩

theorem Version.aligned_nested (obj : Version) (buffer : List UInt8) {offsetBits : ℕ}
    (h : offsetBits % 8 = 0) : Aligned (nested obj.serialize 2 buffer offsetBits) :=
  ⟨_, _, nested_ok _ (obj.serialize_ok _), by omega⟩

theorem aligned_serializeArray {capacity count : ℕ} (h : count ≤ capacity) (bytes : List UInt8)
    (elementBytes : ℕ) (buffer : List UInt8) {offsetBits : ℕ} (hoff : offsetBits % 8 = 0) :
    Aligned (serializeArray capacity bytes count elementBytes buffer offsetBits) := by
  refine ⟨_, _, by simp only [serializeArray, if_neg (not_lt.mpr h)]; rfl, ?_⟩
  rw [← Nat.mul_assoc]
  omega

/-- A response whose arrays keep their capacities serializes into its own buffer. -/
theorem GetInfoResponse.serialize_ok {obj : GetInfoResponse}
    (hname : obj.name.count ≤ getInfoNameCapacity) (hcrc : obj.softwareImageCrc.count ≤ 1)
    (hcoa : obj.certificateOfAuthenticity.count ≤ 222) (buffer : List UInt8) :
    ∃ r, obj.serialize buffer getInfoResponseBufferSize = .ok r := by
  have hsize : ¬ 8 * getInfoResponseBufferSize < 2504 := by decide
  rw [serialize, if_neg hsize]
  -- field by field: each one starts at a byte boundary and ends at one
  refine (obj.protocolVersion.aligned_nested buffer rfl).bind fun buffer off hoff => ?_
  refine (aligned_padTo8 hoff buffer _).bind fun buffer off hoff => ?_
  refine (obj.hardwareVersion.aligned_nested buffer hoff).bind fun buffer off hoff => ?_
  refine (aligned_padTo8 hoff buffer _).bind fun buffer off hoff => ?_
  refine (obj.softwareVersion.aligned_nested buffer hoff).bind fun buffer off hoff => ?_
  have hid : (off + 64 + 16 * 8) % 8 = 0 := by omega
  refine (aligned_serializeArray hname _ 1 _ hid).bind fun buffer off hoff => ?_
  refine (aligned_serializeArray hcrc _ 8 buffer hoff).bind fun buffer off hoff => ?_
  refine (aligned_serializeArray hcoa _ 1 buffer hoff).bind fun buffer off hoff => ?_
  exact (aligned_padTo8 hoff buffer _).bind fun buffer off _ => ⟨_, rfl⟩

/-- `uavcan_primitive_Empty_1_0` has no bits. -/
def emptySerialize (buffer : List UInt8) : SerializeResult := .ok (buffer, 0)

def emptyBufferSize : ℕ := 0

/-- `uavcan_primitive_array_Integer8_1_0`. -/
abbrev Integer8Array := VarArray Int8

def integer8Capacity : ℕ := 256
def integer8BufferSize : ℕ := 258

def Integer8Array.serialize (obj : Integer8Array) (buffer : List UInt8) (capacityBytes : ℕ) :
    SerializeResult :=
  if 8 * capacityBytes < 2064 then .error (-nunavutErrorSerializationBufferTooSmall)
  else if obj.count > integer8Capacity then .error (-nunavutErrorRepresentationBadArrayLength)
  else do
    let buffer := overwrite buffer 0 (leBytes 2 obj.count)
    let buffer := nunavutCopyBits buffer 16 (obj.count * 8) (obj.elements.map Int8.toUInt8) 0
    let (buffer, offsetBits) ← padTo8 buffer capacityBytes (16 + obj.count * 8)
    return (buffer, offsetBits / 8)

/-- The object is updated in place: elements beyond the length keep what they held. -/
def Integer8Array.deserialize (obj : Integer8Array) (buffer : List UInt8) (capacityBytes : ℕ) :
    Except ℤ (Integer8Array × ℕ) :=
  let count := nunavutGetU16 buffer capacityBytes 0 16
  if count > integer8Capacity then .error (-nunavutErrorRepresentationBadArrayLength)
  else
    let bytes := nunavutGetBits (obj.elements.map Int8.toUInt8) buffer capacityBytes 16 (count * 8)
    let offsetBits := (16 + count * 8 + 7) / 8 * 8
    .ok (⟨bytes.map UInt8.toInt8, count⟩, nunavutChooseMin offsetBits (capacityBytes * 8) / 8)

/-- Decoding nothing: the length becomes zero, the elements are left uninitialised. -/
def Integer8Array.initialized (obj : Integer8Array) : Integer8Array :=
  match obj.deserialize [0] 0 with
  | .ok (obj, _) => obj
  | .error _ => obj

theorem map_toInt8_toUInt8 (l : List Int8) : (l.map Int8.toUInt8).map UInt8.toInt8 = l := by
  have h : UInt8.toInt8 ∘ Int8.toUInt8 = id := by
    funext b
    exact b.toInt8_toUInt8
  rw [List.map_map, h, List.map_id]

theorem map_toUInt8_toInt8 (l : List UInt8) : (l.map UInt8.toInt8).map Int8.toUInt8 = l := by
  have h : Int8.toUInt8 ∘ UInt8.toInt8 = id := by
    funext b
    exact b.toUInt8_toInt8
  rw [List.map_map, h, List.map_id]

/-- The representation: the length prefix, the elements in use, and the buffer behind them. -/
theorem Integer8Array.serialize_eq (obj : Integer8Array) (buffer : List UInt8)
    (hcount : obj.count ≤ integer8Capacity)
    (helements : obj.count ≤ obj.elements.length) :
    obj.serialize buffer integer8BufferSize =
      .ok (leBytes 2 obj.count ++ (obj.elements.take obj.count).map Int8.toUInt8 ++
        buffer.drop (2 + obj.count), 2 + obj.count) := by
  have hsize : ¬ 8 * integer8BufferSize < 2064 := by decide
  have hprefix : overwrite buffer 0 (leBytes 2 obj.count) =
      leBytes 2 obj.count ++ buffer.drop 2 := by
    simp [overwrite]
  have hcopy : nunavutCopyBits (leBytes 2 obj.count ++ buffer.drop 2) 16 (obj.count * 8)
      (obj.elements.map Int8.toUInt8) 0 =
      leBytes 2 obj.count ++ (obj.elements.take obj.count).map Int8.toUInt8 ++
        buffer.drop (2 + obj.count) := by
    have h := copyBits_bytes (leBytes 2 obj.count ++ buffer.drop 2) 2 obj.count
      (obj.elements.map Int8.toUInt8) 0
    have hlen : ((obj.elements.map Int8.toUInt8).take obj.count).length = obj.count := by
      simp [helements]
    have happend := overwrite_append (leBytes 2 obj.count) (buffer.drop 2)
      ((obj.elements.map Int8.toUInt8).take obj.count)
    rw [leBytes_length, hlen, List.drop_drop] at happend
    rw [Nat.zero_mul, List.drop_zero, happend, ← List.map_take] at h
    exact h
  have hbits : (16 + obj.count * 8) % 8 = 0 := by omega
  have hbytes : (16 + obj.count * 8) / 8 = 2 + obj.count := by omega
  simp only [serialize, if_neg hsize, if_neg (not_lt.mpr hcount), hprefix, hcopy,
    padTo8_aligned hbits, bind, Except.bind, pure, Except.pure, hbytes]

/-- Reading a representation gives back the elements in use. -/
theorem Integer8Array.deserialize_eq (obj : Integer8Array) {data : List UInt8}
    (hdata : data.length ≤ integer8Capacity) (rest : List UInt8) :
    obj.deserialize (leBytes 2 data.length ++ data ++ rest) (2 + data.length + rest.length) =
      .ok (⟨data.map UInt8.toInt8 ++ obj.elements.drop data.length, data.length⟩,
        2 + data.length) := by
  have hcap : data.length ≤ 256 := hdata
  have hlen : (leBytes 2 data.length ++ data ++ rest).length = 2 + data.length + rest.length := by
    simp only [List.length_append, leBytes_length]
  have hcount : nunavutGetU16 (leBytes 2 data.length ++ data ++ rest)
      (2 + data.length + rest.length) 0 16 = data.length := by
    have hget := getUxx_fragment 2 data.length [] (data ++ rest)
    rw [List.nil_append, ← List.append_assoc, hlen, Nat.mod_eq_of_lt (by omega)] at hget
    exact hget
  have hbytes := getBits_fragment (obj.elements.map Int8.toUInt8) (leBytes 2 data.length) data rest
  rw [hlen, leBytes_length] at hbytes
  have hoff : nunavutChooseMin ((16 + data.length * 8 + 7) / 8 * 8)
      ((2 + data.length + rest.length) * 8) / 8 = 2 + data.length := by
    rw [nunavutChooseMin_eq]
    omega
  unfold deserialize
  simp only [hcount, if_neg (not_lt.mpr hdata), hbytes, hoff, List.map_append, List.map_drop,
    map_toInt8_toUInt8]

theorem Integer8Array.initialized_elements (obj : Integer8Array) :
    obj.initialized.elements = obj.elements := by
  have hcount : nunavutGetU16 [0] 0 0 16 = 0 := by decide
  have hbits : nunavutGetBits (obj.elements.map Int8.toUInt8) [0] 0 16 (0 * 8) =
      obj.elements.map Int8.toUInt8 := by
    have hsat : nunavutSaturateBufferFragmentBitLength 0 16 (0 * 8) = 0 := by decide
    have hcopy := copyBits_bytes (obj.elements.map Int8.toUInt8) 0 0 [0] 2
    simp only [nunavutGetBits, hsat]
    refine Eq.trans ?_ (hcopy.trans ?_)
    · simp
    · simp
  have hcap : ¬ 0 > integer8Capacity := by decide
  simp only [initialized, deserialize, hcount, if_neg hcap, hbits, map_toInt8_toUInt8]

end CyphalOnboard
