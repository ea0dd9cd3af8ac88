import CyphalOnboard.Dsdl
import CyphalOnboard.Library.Layout

namespace CyphalOnboard

open ByteBuffer Layout

theorem ok_bind {α β : Type} (x : α) (f : α → Except ℤ β) : (Except.ok x >>= f) = f x := rfl

theorem writes_nested {serialize : List UInt8 → ℕ → SerializeResult} {maxSize : ℕ}
    {items : List UInt8} (h : ∀ room, items.length ≤ room.length →
      serialize room maxSize = .ok (items ++ room.drop items.length, items.length)) :
    Writes 8 (nested serialize maxSize) items := by
  intro written room hroom
  have hbyte : written.length * 8 / 8 = written.length := Nat.mul_div_cancel _ (by decide)
  have hsub := h room hroom
  rw [nested_ok (r := (items ++ room.drop items.length, items.length))]
  · rw [hbyte, List.take_left, List.append_assoc, List.length_append, Nat.add_mul]
  · rw [hbyte, List.drop_left, hsub]

/-- The steps of the serializers that are no functions of their own. -/
def pad (capacityBytes : ℕ) : WriteStep UInt8 ℤ :=
  fun buffer offset => padTo8 buffer capacityBytes offset

def putBytes (items : List UInt8) : WriteStep UInt8 ℤ :=
  fun buffer offset => .ok (overwrite buffer (offset / 8) items, offset + items.length * 8)

def putByte (item : UInt8) : WriteStep UInt8 ℤ :=
  fun buffer offset => .ok (buffer.set (offset / 8) item, offset + 8)

def copyBytes (src : List UInt8) (n : ℕ) : WriteStep UInt8 ℤ :=
  fun buffer offset => .ok (nunavutCopyBits buffer offset (n * 8) src 0, offset + n * 8)

theorem writes_pad (capacityBytes : ℕ) : Writes 8 (pad capacityBytes) [] := by
  intro written room _
  rw [pad, padTo8_aligned (Nat.mul_mod_left ..), List.append_nil, List.length_nil, List.drop_zero]

theorem writes_bytes (items : List UInt8) : Writes 8 (putBytes items) items := by
  intro written room _
  have hbyte : written.length * 8 / 8 = written.length := Nat.mul_div_cancel _ (by decide)
  rw [putBytes, hbyte, overwrite_append, List.length_append, Nat.add_mul]

theorem writes_byte (item : UInt8) : Writes 8 (putByte item) [item] := by
  intro written room hroom
  have hbyte : written.length * 8 / 8 = written.length := Nat.mul_div_cancel _ (by decide)
  obtain ⟨x, rest, rfl⟩ := List.exists_cons_of_length_pos hroom
  rw [putByte, hbyte, List.set_append_right _ _ (le_refl _), Nat.sub_self, List.set_cons_zero]
  simp [Nat.add_mul]

theorem writes_copied (src : List UInt8) {n : ℕ} (h : n ≤ src.length) :
    Writes 8 (copyBytes src n) (src.take n) := by
  intro written room _
  have hlen : (src.take n).length = n := List.length_take_of_le h
  have hcopy := copyBits_bytes (written ++ room) written.length n src 0
  rw [Nat.zero_mul, List.drop_zero, overwrite_append] at hcopy
  rw [copyBytes, hcopy, List.length_append, hlen, Nat.add_mul]

theorem writes_serializeArray {capacity count elementBytes : ℕ} {bytes : List UInt8}
    (hcount : count ≤ capacity) (hbytes : count * elementBytes ≤ bytes.length) :
    Writes 8 (serializeArray capacity bytes count elementBytes)
      (UInt8.ofNat count :: bytes.take (count * elementBytes)) := by
  have hsteps := (writes_byte (UInt8.ofNat count)).andThen (writes_copied bytes hbytes)
  intro written room hroom
  apply Eq.trans _ (hsteps written room hroom)
  simp only [serializeArray, if_neg (not_lt.mpr hcount), WriteStep.andThen, putByte, copyBytes,
    bind, Except.bind, Nat.mul_assoc]

def Version.representation (obj : Version) : List UInt8 := [obj.major, obj.minor]

theorem Version.writes (obj : Version) :
    Writes 8 (nested obj.serialize 2) obj.representation := by
  apply writes_nested
  intro room hroom
  match room, hroom with
  | x :: y :: room, _ => rfl

/-- The lowest bits of a number that has no others. -/
theorem and_mask {bits : ℕ} (hbits : bits ≤ 8) {v : UInt8} (h : v.toNat < 2 ^ bits) :
    v &&& UInt8.ofNat (2 ^ bits - 1) = v := by
  have hpow : 2 ^ bits ≤ 2 ^ 8 := Nat.pow_le_pow_right (by decide) hbits
  have hpos : 0 < 2 ^ bits := Nat.two_pow_pos bits
  have hmask : (UInt8.ofNat (2 ^ bits - 1)).toNat = 2 ^ bits - 1 := by
    rw [UInt8.toNat_ofNat', Nat.mod_eq_of_lt]
    omega
  apply UInt8.toNat_inj.mp
  rw [UInt8.toNat_and, hmask, Nat.and_two_pow_sub_one_eq_mod, Nat.mod_eq_of_lt h]

/-- Neither the saturation nor the padding changes a number of 2 or 3 bits. -/
theorem serializeSaturated_eq {bits : ℕ} (hbits : bits = 2 ∨ bits = 3) {value : UInt8}
    (h : value.toNat < 2 ^ bits) (x : UInt8) (room : List UInt8) :
    serializeSaturated bits (UInt8.ofNat (2 ^ bits - 1)) value (x :: room) 1 =
      .ok (value :: room, 1) := by
  have hmask := and_mask (by omega) h
  have hpadded : serializeSaturated bits (UInt8.ofNat (2 ^ bits - 1)) value (x :: room) 1 =
      .ok (((if value > UInt8.ofNat (2 ^ bits - 1) then UInt8.ofNat (2 ^ bits - 1) else value) &&&
        UInt8.ofNat (2 ^ bits - 1) ||| 0) :: room, 1) := by
    obtain rfl | rfl := hbits
    · rfl
    · rfl
  have hsat : ¬ value > UInt8.ofNat (2 ^ bits - 1) := by
    rw [gt_iff_lt, UInt8.lt_iff_toNat_lt, ← hmask, UInt8.toNat_and]
    exact not_lt.mpr Nat.and_le_right
  rw [hpadded, if_neg hsat, hmask, UInt8.or_zero]

theorem Health.writes {obj : Health} (h : obj.value.toNat < 4) :
    Writes 8 (nested obj.serialize 1) [obj.value] := by
  apply writes_nested
  intro room hroom
  match room, hroom with
  | x :: room, _ => exact serializeSaturated_eq (.inl rfl) h x room

theorem Mode.writes {obj : Mode} (h : obj.value.toNat < 8) :
    Writes 8 (nested obj.serialize 1) [obj.value] := by
  apply writes_nested
  intro room hroom
  match room, hroom with
  | x :: room, _ => exact serializeSaturated_eq (.inr rfl) h x room

def Heartbeat.representation (obj : Heartbeat) : List UInt8 :=
  leBytes 4 obj.uptime.toNat ++
    [obj.health.value, obj.mode.value, obj.vendorSpecificStatusCode]

theorem Heartbeat.representation_length (obj : Heartbeat) :
    obj.representation.length = heartbeatBufferSize := by
  simp only [representation, List.length_append, leBytes_length, List.length_cons, List.length_nil]
  rfl

/-- The numbers of 2 and 3 bits have no others. -/
structure Heartbeat.InRange (obj : Heartbeat) : Prop where
  health : obj.health.value.toNat < 4
  mode : obj.mode.value.toNat < 8

/-- The fields of a heartbeat, one step for each. -/
def Heartbeat.fields (obj : Heartbeat) : WriteStep UInt8 ℤ :=
  (putBytes (leBytes 4 obj.uptime.toNat)).andThen <| (pad heartbeatBufferSize).andThen <|
    .andThen (nested obj.health.serialize 1) <| (pad heartbeatBufferSize).andThen <|
    .andThen (nested obj.mode.serialize 1) <| (putByte obj.vendorSpecificStatusCode).andThen <|
    pad heartbeatBufferSize

theorem Heartbeat.serialize_fields (obj : Heartbeat) (buffer : List UInt8) :
    obj.serialize buffer heartbeatBufferSize =
      obj.fields buffer 0 >>= fun r => .ok (r.1, r.2 / 8) := by
  have hsize : ¬ 8 * heartbeatBufferSize < 56 := by decide
  rw [serialize, if_neg hsize]
  simp only [fields, WriteStep.andThen, bind_assoc, putBytes, putByte, pad, ok_bind,
    leBytes_length]
  rfl

/-- A heartbeat serializes to its representation. -/
theorem Heartbeat.serialize_eq {obj : Heartbeat} (h : obj.InRange) {buffer : List UInt8}
    (hbuffer : buffer.length = heartbeatBufferSize) :
    obj.serialize buffer heartbeatBufferSize =
      .ok (obj.representation, heartbeatBufferSize) := by
  have hpad := writes_pad heartbeatBufferSize
  have hfields : Writes 8 obj.fields obj.representation :=
    (writes_bytes (leBytes 4 obj.uptime.toNat)).andThen <| hpad.andThen <|
      (Health.writes h.health).andThen <| hpad.andThen <| (Mode.writes h.mode).andThen <|
      (writes_byte obj.vendorSpecificStatusCode).andThen hpad
  have hlen := obj.representation_length
  have hroom : obj.representation.length ≤ buffer.length := by rw [hbuffer, hlen]
  have hrest : buffer.drop obj.representation.length = [] := by
    rw [hlen, ← hbuffer, List.drop_length]
  rw [serialize_fields, hfields.from_start hroom, hrest, hlen, List.append_nil]
  simp only [bind, Except.bind, Nat.mul_div_cancel _ (by decide : 0 < 8)]

/-- The elements of an array that are in use. -/
def VarArray.used {α : Type} (array : VarArray α) : List α := array.elements.take array.count

theorem VarArray.used_length {α : Type} {array : VarArray α}
    (h : array.count ≤ array.elements.length) : array.used.length = array.count :=
  List.length_take_of_le h

/-- The memory of 64-bit numbers, lowest byte first. -/
def bytesOf (words : List UInt64) : List UInt8 :=
  words.flatMap fun word => leBytes 8 word.toNat

/-- A variable-length array: its length, and the bytes of the elements in use. -/
def arrayRepresentation (count : ℕ) (bytes : List UInt8) : List UInt8 :=
  UInt8.ofNat count :: bytes

def GetInfoResponse.representation (obj : GetInfoResponse) : List UInt8 :=
  obj.protocolVersion.representation ++ obj.hardwareVersion.representation ++
    obj.softwareVersion.representation ++ leBytes 8 obj.softwareVcsRevisionId.toNat ++
    obj.uniqueId ++
    arrayRepresentation obj.name.count obj.name.used ++
    arrayRepresentation obj.softwareImageCrc.count (bytesOf obj.softwareImageCrc.used) ++
    arrayRepresentation obj.certificateOfAuthenticity.count obj.certificateOfAuthenticity.used

/-- The lengths of the arrays are those of the type. -/
structure GetInfoResponse.Sized (obj : GetInfoResponse) : Prop where
  uniqueId : obj.uniqueId.length = getInfoUniqueIdCapacity
  name : obj.name.elements.length = getInfoNameCapacity
  crc : obj.softwareImageCrc.elements.length = 1
  certificate : obj.certificateOfAuthenticity.elements.length = 222

/-- No more elements are in use than there are. -/
structure GetInfoResponse.WellFormed (obj : GetInfoResponse) : Prop extends obj.Sized where
  nameCount : obj.name.count ≤ getInfoNameCapacity
  crcCount : obj.softwareImageCrc.count ≤ 1
  certificateCount : obj.certificateOfAuthenticity.count ≤ 222

theorem GetInfoResponse.WellFormed.used_length {obj : GetInfoResponse} (h : obj.WellFormed) :
    obj.name.used.length = obj.name.count ∧
      obj.softwareImageCrc.used.length = obj.softwareImageCrc.count ∧
      obj.certificateOfAuthenticity.used.length = obj.certificateOfAuthenticity.count :=
  ⟨VarArray.used_length (h.name.symm ▸ h.nameCount),
    VarArray.used_length (h.crc.symm ▸ h.crcCount),
    VarArray.used_length (h.certificate.symm ▸ h.certificateCount)⟩

theorem bytesOf_length (words : List UInt64) : (bytesOf words).length = words.length * 8 := by
  induction words with
  | nil => rfl
  | cons word words ih =>
    have hcons : bytesOf (word :: words) = leBytes 8 word.toNat ++ bytesOf words := rfl
    rw [hcons, List.length_append, leBytes_length, ih, List.length_cons]
    omega

theorem bytesOf_take (words : List UInt64) (n : ℕ) :
    (bytesOf words).take (n * 8) = bytesOf (words.take n) := by
  induction words generalizing n with
  | nil => simp [bytesOf]
  | cons word words ih =>
    have hcons (words : List UInt64) :
        bytesOf (word :: words) = leBytes 8 word.toNat ++ bytesOf words := rfl
    cases n with
    | zero => simp [bytesOf]
    | succ n =>
      rw [List.take_succ_cons, hcons, hcons, ← ih n, Nat.succ_mul, Nat.add_comm]
      have htake : (leBytes 8 word.toNat ++ bytesOf words).take
          ((leBytes 8 word.toNat).length + n * 8) =
          leBytes 8 word.toNat ++ (bytesOf words).take (n * 8) :=
        List.take_length_add_append (n * 8)
      rwa [leBytes_length] at htake

/-- The fields of a response, one step for each. -/
def GetInfoResponse.fields (obj : GetInfoResponse) : WriteStep UInt8 ℤ :=
  .andThen (nested obj.protocolVersion.serialize 2) <| (pad getInfoResponseBufferSize).andThen <|
    .andThen (nested obj.hardwareVersion.serialize 2) <|
    (pad getInfoResponseBufferSize).andThen <|
    .andThen (nested obj.softwareVersion.serialize 2) <|
    (putBytes (leBytes 8 obj.softwareVcsRevisionId.toNat)).andThen <|
    (copyBytes obj.uniqueId 16).andThen <|
    .andThen (serializeArray getInfoNameCapacity obj.name.elements obj.name.count 1) <|
    .andThen (serializeArray 1 (bytesOf obj.softwareImageCrc.elements)
      obj.softwareImageCrc.count 8) <|
    .andThen (serializeArray 222 obj.certificateOfAuthenticity.elements
      obj.certificateOfAuthenticity.count 1) <|
    pad getInfoResponseBufferSize

theorem GetInfoResponse.serialize_fields (obj : GetInfoResponse) (buffer : List UInt8) :
    obj.serialize buffer getInfoResponseBufferSize =
      obj.fields buffer 0 >>= fun r => .ok (r.1, r.2 / 8) := by
  have hsize : ¬ 8 * getInfoResponseBufferSize < 2504 := by decide
  rw [serialize, if_neg hsize]
  simp only [fields, WriteStep.andThen, bind_assoc, putBytes, copyBytes, pad, ok_bind,
    leBytes_length]
  rfl

theorem GetInfoResponse.writes {obj : GetInfoResponse} (h : obj.WellFormed) :
    Writes 8 obj.fields obj.representation := by
  have hpad := writes_pad getInfoResponseBufferSize
  have hid : (16 : ℕ) ≤ obj.uniqueId.length := h.uniqueId.ge
  have hname : obj.name.count * 1 ≤ obj.name.elements.length := by
    rw [h.name, Nat.mul_one]
    exact h.nameCount
  have hcrc : obj.softwareImageCrc.count * 8 ≤
      (bytesOf obj.softwareImageCrc.elements).length := by
    rw [bytesOf_length, h.crc]
    exact Nat.mul_le_mul_right 8 h.crcCount
  have hcertificate : obj.certificateOfAuthenticity.count * 1 ≤
      obj.certificateOfAuthenticity.elements.length := by
    rw [h.certificate, Nat.mul_one]
    exact h.certificateCount
  have hfields := obj.protocolVersion.writes.andThen <| hpad.andThen <|
    obj.hardwareVersion.writes.andThen <| hpad.andThen <| obj.softwareVersion.writes.andThen <|
    (writes_bytes (leBytes 8 obj.softwareVcsRevisionId.toNat)).andThen <|
    (writes_copied obj.uniqueId hid).andThen <|
    (writes_serializeArray h.nameCount hname).andThen <|
    (writes_serializeArray h.crcCount hcrc).andThen <|
    (writes_serializeArray h.certificateCount hcertificate).andThen hpad
  have hwhole : obj.uniqueId.take 16 = obj.uniqueId := List.take_of_length_le h.uniqueId.le
  simp only [hwhole, bytesOf_take, Nat.mul_one, List.nil_append, List.append_nil] at hfields
  simp only [representation, arrayRepresentation, VarArray.used, List.append_assoc]
  exact hfields

theorem GetInfoResponse.representation_length {obj : GetInfoResponse} (h : obj.WellFormed) :
    obj.representation.length = 33 + obj.name.count + obj.softwareImageCrc.count * 8 +
      obj.certificateOfAuthenticity.count := by
  obtain ⟨hname, hcrc, hcertificate⟩ := h.used_length
  simp only [representation, arrayRepresentation, Version.representation, List.length_append,
    List.length_cons, List.length_nil, leBytes_length, bytesOf_length, hname, hcrc, hcertificate,
    h.uniqueId, getInfoUniqueIdCapacity]
  omega

/-- A response serializes to its representation. -/
theorem GetInfoResponse.serialize_eq {obj : GetInfoResponse} (h : obj.WellFormed)
    {buffer : List UInt8} (hbuffer : buffer.length = getInfoResponseBufferSize) :
    obj.serialize buffer getInfoResponseBufferSize =
      .ok (obj.representation ++ buffer.drop obj.representation.length,
        obj.representation.length) := by
  have hname : obj.name.count ≤ 50 := h.nameCount
  have hcrc := h.crcCount
  have hcertificate := h.certificateCount
  have hlen := representation_length h
  have hroom : obj.representation.length ≤ buffer.length := by
    have hbuf : buffer.length = 313 := hbuffer
    omega
  rw [serialize_fields, (writes h).from_start hroom, ok_bind,
    Nat.mul_div_cancel _ (by decide : 0 < 8)]

end CyphalOnboard
