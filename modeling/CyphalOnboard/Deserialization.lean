import CyphalOnboard.Representation

namespace CyphalOnboard

open ByteBuffer Layout

/-- The next byte boundary. -/
def alignTo8 (offsetBits : ℕ) : ℕ := (offsetBits + 7) / 8 * 8

/-- A number of `bits` bits at a byte boundary, which are those of `mask`. Beyond the buffer it is
zero. -/
def readTruncated (bits : ℕ) (mask : UInt8) (buffer : List UInt8)
    (capacityBytes offsetBits : ℕ) : UInt8 :=
  if offsetBits + bits ≤ capacityBytes * 8 then buffer.getD (offsetBits / 8) 0 &&& mask else 0

/-- Deserialize an object at an offset of the buffer. -/
def deserializeNested {α : Type} (deserialize : List UInt8 → ℕ → Except ℤ (α × ℕ))
    (buffer : List UInt8) (capacityBytes offsetBits : ℕ) : Except ℤ (α × ℕ) := do
  let size := capacityBytes - nunavutChooseMin (offsetBits / 8) capacityBytes
  let (obj, size) ← deserialize (buffer.drop (offsetBits / 8)) size
  return (obj, offsetBits + size * 8)

/-- The length prefix of an array and its elements, read into `memory`. -/
def deserializeArray (capacity elementBytes : ℕ) (memory buffer : List UInt8)
    (capacityBytes offsetBits : ℕ) : Except ℤ ((List UInt8 × ℕ) × ℕ) :=
  let count := (readTruncated 8 255 buffer capacityBytes offsetBits).toNat
  if count > capacity then .error (-nunavutErrorRepresentationBadArrayLength)
  else
    let lengthBits := count * (elementBytes * 8)
    .ok ((nunavutGetBits memory buffer capacityBytes (offsetBits + 8) lengthBits, count),
      offsetBits + 8 + lengthBits)

def Version.deserialize (buffer : List UInt8) (capacityBytes : ℕ) : Except ℤ (Version × ℕ) :=
  let major := readTruncated 8 255 buffer capacityBytes 0
  let minor := readTruncated 8 255 buffer capacityBytes 8
  .ok (⟨major, minor⟩, nunavutChooseMin (alignTo8 16) (capacityBytes * 8) / 8)

def Health.deserialize (buffer : List UInt8) (capacityBytes : ℕ) : Except ℤ (Health × ℕ) :=
  let value := readTruncated 2 3 buffer capacityBytes 0
  .ok (⟨value⟩, nunavutChooseMin (alignTo8 2) (capacityBytes * 8) / 8)

def Mode.deserialize (buffer : List UInt8) (capacityBytes : ℕ) : Except ℤ (Mode × ℕ) :=
  let value := readTruncated 3 7 buffer capacityBytes 0
  .ok (⟨value⟩, nunavutChooseMin (alignTo8 3) (capacityBytes * 8) / 8)

def Heartbeat.deserialize (buffer : List UInt8) (capacityBytes : ℕ) :
    Except ℤ (Heartbeat × ℕ) := do
  let uptime := UInt32.ofNat (nunavutGetUxx 4 buffer capacityBytes 0 32)
  let offsetBits := alignTo8 32
  let (health, offsetBits) ← deserializeNested Health.deserialize buffer capacityBytes offsetBits
  let offsetBits := alignTo8 offsetBits
  let (mode, offsetBits) ← deserializeNested Mode.deserialize buffer capacityBytes offsetBits
  let vendorSpecificStatusCode := readTruncated 8 255 buffer capacityBytes offsetBits
  let offsetBits := alignTo8 (offsetBits + 8)
  return (⟨uptime, health, mode, vendorSpecificStatusCode⟩,
    nunavutChooseMin offsetBits (capacityBytes * 8) / 8)

/-- The 64-bit numbers in `n` times eight bytes. -/
def wordsOf : (n : ℕ) → List UInt8 → List UInt64
  | 0, _ => []
  | n + 1, bytes => UInt64.ofNat (leValue (bytes.take 8)) :: wordsOf n (bytes.drop 8)

/-- The object is updated in place: what an array holds beyond its length stays. -/
def GetInfoResponse.deserialize (obj : GetInfoResponse) (buffer : List UInt8)
    (capacityBytes : ℕ) : Except ℤ (GetInfoResponse × ℕ) := do
  let (protocolVersion, offsetBits) ←
    deserializeNested Version.deserialize buffer capacityBytes 0
  let offsetBits := alignTo8 offsetBits
  let (hardwareVersion, offsetBits) ←
    deserializeNested Version.deserialize buffer capacityBytes offsetBits
  let offsetBits := alignTo8 offsetBits
  let (softwareVersion, offsetBits) ←
    deserializeNested Version.deserialize buffer capacityBytes offsetBits
  let softwareVcsRevisionId := UInt64.ofNat (nunavutGetUxx 8 buffer capacityBytes offsetBits 64)
  let offsetBits := offsetBits + 64
  let uniqueId := nunavutGetBits obj.uniqueId buffer capacityBytes offsetBits (16 * 8)
  let offsetBits := offsetBits + 16 * 8
  let (name, offsetBits) ←
    deserializeArray getInfoNameCapacity 1 obj.name.elements buffer capacityBytes offsetBits
  let (crc, offsetBits) ← deserializeArray 1 8 (bytesOf obj.softwareImageCrc.elements) buffer
    capacityBytes offsetBits
  let (certificate, offsetBits) ← deserializeArray 222 1 obj.certificateOfAuthenticity.elements
    buffer capacityBytes offsetBits
  let offsetBits := alignTo8 offsetBits
  return ({
    protocolVersion := protocolVersion
    hardwareVersion := hardwareVersion
    softwareVersion := softwareVersion
    softwareVcsRevisionId := softwareVcsRevisionId
    uniqueId := uniqueId
    name := ⟨name.1, name.2⟩
    softwareImageCrc := ⟨wordsOf obj.softwareImageCrc.elements.length crc.1, crc.2⟩
    certificateOfAuthenticity := ⟨certificate.1, certificate.2⟩ },
    nunavutChooseMin offsetBits (capacityBytes * 8) / 8)

/-- The steps of the deserializers, each with the whole buffer. -/
def getNested {α : Type} (deserialize : List UInt8 → ℕ → Except ℤ (α × ℕ)) :
    ReadStep UInt8 ℤ α :=
  fun buffer offset => deserializeNested deserialize buffer buffer.length offset

def getAligned : ReadStep UInt8 ℤ Unit := fun _ offset => .ok ((), alignTo8 offset)

def getByte : ReadStep UInt8 ℤ UInt8 :=
  fun buffer offset => .ok (readTruncated 8 255 buffer buffer.length offset, offset + 8)

def getNumber (width : ℕ) : ReadStep UInt8 ℤ ℕ :=
  fun buffer offset =>
    .ok (nunavutGetUxx width buffer buffer.length offset (width * 8), offset + width * 8)

def getBytes (memory : List UInt8) (n : ℕ) : ReadStep UInt8 ℤ (List UInt8) :=
  fun buffer offset =>
    .ok (nunavutGetBits memory buffer buffer.length offset (n * 8), offset + n * 8)

def getArray (capacity elementBytes : ℕ) (memory : List UInt8) :
    ReadStep UInt8 ℤ (List UInt8 × ℕ) :=
  fun buffer offset => deserializeArray capacity elementBytes memory buffer buffer.length offset

/-- The object that has been read. -/
def give {α : Type} (obj : α) : ReadStep UInt8 ℤ α := fun _ offset => .ok (obj, offset)

theorem reads_give {α : Type} (obj : α) : Reads 8 (give obj) [] obj := by
  intro before after
  rw [give, List.append_nil]

theorem alignTo8_byte (n : ℕ) : alignTo8 (n * 8) = n * 8 := by
  unfold alignTo8
  omega

theorem reads_aligned : Reads 8 getAligned [] () := by
  intro before after
  rw [getAligned, alignTo8_byte, List.append_nil]

theorem readTruncated_fragment {bits : ℕ} (hbits : bits ≤ 8) (mask item : UInt8)
    (before after : List UInt8) :
    readTruncated bits mask (before ++ [item] ++ after) (before ++ [item] ++ after).length
      (before.length * 8) = item &&& mask := by
  have hfits : before.length * 8 + bits ≤ (before ++ [item] ++ after).length * 8 := by
    simp only [List.length_append, List.length_singleton]
    omega
  have hbyte : before.length * 8 / 8 = before.length := Nat.mul_div_cancel _ (by decide)
  rw [readTruncated, if_pos hfits, hbyte, List.append_assoc]
  simp

theorem and_255 (item : UInt8) : item &&& 255 = item :=
  and_mask (le_refl 8) item.toNat_lt

theorem reads_byte (item : UInt8) : Reads 8 getByte [item] item := by
  intro before after
  rw [getByte, readTruncated_fragment le_rfl, and_255, List.length_append, Nat.add_mul]
  rfl

theorem reads_number {width v : ℕ} (h : v < 256 ^ width) :
    Reads 8 (getNumber width) (leBytes width v) v := by
  intro before after
  rw [getNumber, getUxx_fragment, Nat.mod_eq_of_lt h, List.length_append, leBytes_length,
    Nat.add_mul]

theorem reads_bytes (memory data : List UInt8) {n : ℕ} (h : data.length = n) :
    Reads 8 (getBytes memory n) data (data ++ memory.drop data.length) := by
  subst h
  intro before after
  rw [getBytes, getBits_fragment, List.length_append, Nat.add_mul]

/-- An object that reads itself from the front of its own buffer does so where it is nested. -/
theorem reads_nested {α : Type} {deserialize : List UInt8 → ℕ → Except ℤ (α × ℕ)}
    {items : List UInt8} {obj : α}
    (h : ∀ after, deserialize (items ++ after) (items ++ after).length = .ok (obj, items.length)) :
    Reads 8 (getNested deserialize) items obj := by
  intro before after
  have hbyte : before.length * 8 / 8 = before.length := Nat.mul_div_cancel _ (by decide)
  have hsize : (before ++ items ++ after).length -
      nunavutChooseMin before.length (before ++ items ++ after).length =
        (items ++ after).length := by
    rw [nunavutChooseMin_eq]
    simp only [List.length_append]
    omega
  have hsub : (before ++ items ++ after).drop before.length = items ++ after := by
    rw [List.append_assoc, List.drop_left]
  simp only [getNested, deserializeNested, hbyte, hsize, hsub, h, ok_bind, pure, Except.pure]
  rw [List.length_append, Nat.add_mul]

theorem reads_array {capacity elementBytes count : ℕ} {data : List UInt8} (memory : List UInt8)
    (hcount : count ≤ capacity) (hcapacity : capacity < 256)
    (hdata : data.length = count * elementBytes) :
    Reads 8 (getArray capacity elementBytes memory) (arrayRepresentation count data)
      (data ++ memory.drop data.length, count) := by
  intro before after
  have hcount' : (UInt8.ofNat count &&& 255).toNat = count := by
    rw [and_255, UInt8.toNat_ofNat', Nat.mod_eq_of_lt (by omega)]
  have hprefix := readTruncated_fragment le_rfl 255 (UInt8.ofNat count) before (data ++ after)
  have hbits := getBits_fragment memory (before ++ [UInt8.ofNat count]) data after
  have hbuffer : before ++ arrayRepresentation count data ++ after =
      before ++ [UInt8.ofNat count] ++ (data ++ after) := by
    simp [arrayRepresentation]
  have hbehind : (before ++ [UInt8.ofNat count]).length * 8 = before.length * 8 + 8 := by
    rw [List.length_append, List.length_singleton, Nat.add_mul]
  have hlength : count * (elementBytes * 8) = data.length * 8 := by
    rw [hdata, Nat.mul_assoc]
  rw [List.append_assoc _ data, ← hbuffer, hbehind] at hbits
  rw [← hbuffer] at hprefix
  simp only [getArray, deserializeArray, hprefix, hcount', if_neg (not_lt.mpr hcount), hlength,
    hbits]
  simp only [arrayRepresentation, List.length_append, List.length_cons]
  congr 2
  omega

/-- A representation has the size that is read from it, whatever follows. -/
theorem consumed_eq (n rest : ℕ) : nunavutChooseMin (n * 8) ((n + rest) * 8) / 8 = n := by
  rw [nunavutChooseMin_eq]
  omega

theorem Version.reads (obj : Version) :
    Reads 8 (getNested Version.deserialize) obj.representation obj := by
  apply reads_nested
  intro after
  have hmajor : readTruncated 8 255 (obj.representation ++ after)
      (obj.representation ++ after).length 0 = obj.major :=
    (readTruncated_fragment le_rfl 255 obj.major [] (obj.minor :: after)).trans (and_255 _)
  have hminor : readTruncated 8 255 (obj.representation ++ after)
      (obj.representation ++ after).length 8 = obj.minor :=
    (readTruncated_fragment le_rfl 255 obj.minor [obj.major] after).trans (and_255 _)
  have hsize :
      nunavutChooseMin (alignTo8 16) ((obj.representation ++ after).length * 8) / 8 = 2 := by
    rw [List.length_append]
    exact consumed_eq 2 after.length
  rw [Version.deserialize, hmajor, hminor, hsize]
  rfl

/-- A number of up to 8 bits, alone in its byte. -/
theorem readTruncated_alone {bits : ℕ} (hbits : bits ≤ 8) {value : UInt8}
    (h : value.toNat < 2 ^ bits) (after : List UInt8) :
    readTruncated bits (UInt8.ofNat (2 ^ bits - 1)) ([value] ++ after) ([value] ++ after).length 0 =
      value := by
  have hread := readTruncated_fragment hbits (UInt8.ofNat (2 ^ bits - 1)) value [] after
  rw [and_mask hbits h] at hread
  exact hread

theorem Health.reads {obj : Health} (h : obj.value.toNat < 4) :
    Reads 8 (getNested Health.deserialize) [obj.value] obj := by
  apply reads_nested
  intro after
  have hvalue : readTruncated 2 3 ([obj.value] ++ after) ([obj.value] ++ after).length 0 =
      obj.value := readTruncated_alone (by decide : 2 ≤ 8) h after
  have hsize : nunavutChooseMin (alignTo8 2) (([obj.value] ++ after).length * 8) / 8 = 1 := by
    rw [List.length_append]
    exact consumed_eq 1 after.length
  rw [Health.deserialize, hsize, hvalue]
  rfl

theorem Mode.reads {obj : Mode} (h : obj.value.toNat < 8) :
    Reads 8 (getNested Mode.deserialize) [obj.value] obj := by
  apply reads_nested
  intro after
  have hvalue : readTruncated 3 7 ([obj.value] ++ after) ([obj.value] ++ after).length 0 =
      obj.value := readTruncated_alone (by decide : 3 ≤ 8) h after
  have hsize : nunavutChooseMin (alignTo8 3) (([obj.value] ++ after).length * 8) / 8 = 1 := by
    rw [List.length_append]
    exact consumed_eq 1 after.length
  rw [Mode.deserialize, hsize, hvalue]
  rfl

/-- The fields of a heartbeat as they are read. -/
def Heartbeat.readFields : ReadStep UInt8 ℤ Heartbeat :=
  (getNumber 4).bind fun uptime => getAligned.bind fun _ =>
    (getNested Health.deserialize).bind fun health => getAligned.bind fun _ =>
    (getNested Mode.deserialize).bind fun mode => getByte.bind fun status =>
    getAligned.bind fun _ => give ⟨UInt32.ofNat uptime, health, mode, status⟩

theorem Heartbeat.deserialize_fields (buffer : List UInt8) :
    Heartbeat.deserialize buffer buffer.length =
      readFields buffer 0 >>= fun r =>
        .ok (r.1, nunavutChooseMin r.2 (buffer.length * 8) / 8) := by
  simp only [readFields, ReadStep.bind, bind_assoc, getNumber, getAligned, getByte, give, ok_bind]
  rfl

/-- A heartbeat is read back from its representation, whatever follows. -/
theorem Heartbeat.deserialize_eq {obj : Heartbeat} (h : obj.InRange) (rest : List UInt8) :
    Heartbeat.deserialize (obj.representation ++ rest) (obj.representation ++ rest).length =
      .ok (obj, obj.representation.length) := by
  have huptime : UInt32.ofNat obj.uptime.toNat = obj.uptime := UInt32.ofNat_toNat
  have hend := reads_give (⟨UInt32.ofNat obj.uptime.toNat, obj.health, obj.mode,
    obj.vendorSpecificStatusCode⟩ : Heartbeat)
  have hfields : Reads 8 readFields (leBytes 4 obj.uptime.toNat ++ ([] ++ ([obj.health.value] ++
      ([] ++ ([obj.mode.value] ++ ([obj.vendorSpecificStatusCode] ++ ([] ++ []))))))) _ :=
    (reads_number obj.uptime.toNat_lt).bind <| reads_aligned.bind <|
      (Health.reads h.health).bind <| reads_aligned.bind <| (Mode.reads h.mode).bind <|
      (reads_byte obj.vendorSpecificStatusCode).bind <| reads_aligned.bind hend
  rw [huptime] at hfields
  have hread : readFields (obj.representation ++ rest) 0 =
      .ok (obj, obj.representation.length * 8) := hfields.from_start rest
  rw [deserialize_fields, hread, ok_bind, List.length_append, consumed_eq]

theorem wordsOf_bytesOf {words : List UInt64} {n : ℕ} (h : words.length ≤ n)
    (rest : List UInt8) : (wordsOf n (bytesOf words ++ rest)).take words.length = words := by
  induction words generalizing n with
  | nil => rfl
  | cons word words ih =>
    cases n with
    | zero => simp at h
    | succ n =>
      have hword : UInt64.ofNat (leValue (leBytes 8 word.toNat)) = word := by
        have hlt : word.toNat < 256 ^ 8 := word.toNat_lt
        rw [leValue_leBytes, Nat.mod_eq_of_lt hlt]
        exact UInt64.ofNat_toNat
      have hcons : bytesOf (word :: words) ++ rest =
          leBytes 8 word.toNat ++ (bytesOf words ++ rest) := by
        simp [bytesOf]
      have hlen := leBytes_length 8 word.toNat
      rw [hcons, wordsOf, List.take_left' hlen, List.drop_left' hlen, hword, List.length_cons,
        List.take_succ_cons, ih (Nat.le_of_succ_le_succ h)]

/-- The same fields, with the same elements in use. -/
structure GetInfoResponse.SameValue (obj obj' : GetInfoResponse) : Prop where
  protocolVersion : obj.protocolVersion = obj'.protocolVersion
  hardwareVersion : obj.hardwareVersion = obj'.hardwareVersion
  softwareVersion : obj.softwareVersion = obj'.softwareVersion
  softwareVcsRevisionId : obj.softwareVcsRevisionId = obj'.softwareVcsRevisionId
  uniqueId : obj.uniqueId = obj'.uniqueId
  nameCount : obj.name.count = obj'.name.count
  name : obj.name.used = obj'.name.used
  crcCount : obj.softwareImageCrc.count = obj'.softwareImageCrc.count
  crc : obj.softwareImageCrc.used = obj'.softwareImageCrc.used
  certificateCount : obj.certificateOfAuthenticity.count = obj'.certificateOfAuthenticity.count
  certificate : obj.certificateOfAuthenticity.used = obj'.certificateOfAuthenticity.used

/-- The fields of a response as they are read into `obj`. -/
def GetInfoResponse.readFields (obj : GetInfoResponse) : ReadStep UInt8 ℤ GetInfoResponse :=
  (getNested Version.deserialize).bind fun protocolVersion => getAligned.bind fun _ =>
    (getNested Version.deserialize).bind fun hardwareVersion => getAligned.bind fun _ =>
    (getNested Version.deserialize).bind fun softwareVersion =>
    (getNumber 8).bind fun softwareVcsRevisionId =>
    (getBytes obj.uniqueId 16).bind fun uniqueId =>
    (getArray getInfoNameCapacity 1 obj.name.elements).bind fun name =>
    (getArray 1 8 (bytesOf obj.softwareImageCrc.elements)).bind fun crc =>
    (getArray 222 1 obj.certificateOfAuthenticity.elements).bind fun certificate =>
    getAligned.bind fun _ => give {
      protocolVersion := protocolVersion
      hardwareVersion := hardwareVersion
      softwareVersion := softwareVersion
      softwareVcsRevisionId := UInt64.ofNat softwareVcsRevisionId
      uniqueId := uniqueId
      name := ⟨name.1, name.2⟩
      softwareImageCrc := ⟨wordsOf obj.softwareImageCrc.elements.length crc.1, crc.2⟩
      certificateOfAuthenticity := ⟨certificate.1, certificate.2⟩ }

theorem GetInfoResponse.deserialize_fields (obj : GetInfoResponse) (buffer : List UInt8) :
    obj.deserialize buffer buffer.length =
      obj.readFields buffer 0 >>= fun r =>
        .ok (r.1, nunavutChooseMin r.2 (buffer.length * 8) / 8) := by
  simp only [readFields, ReadStep.bind, bind_assoc, getNumber, getBytes, getAligned, give, ok_bind]
  rfl

/-- `obj` read into `out`: what an array of `out` holds behind the elements stays. -/
def GetInfoResponse.readInto (obj out : GetInfoResponse) : GetInfoResponse where
  protocolVersion := obj.protocolVersion
  hardwareVersion := obj.hardwareVersion
  softwareVersion := obj.softwareVersion
  softwareVcsRevisionId := UInt64.ofNat obj.softwareVcsRevisionId.toNat
  uniqueId := obj.uniqueId ++ out.uniqueId.drop obj.uniqueId.length
  name := ⟨obj.name.used ++ out.name.elements.drop obj.name.used.length, obj.name.count⟩
  softwareImageCrc := ⟨wordsOf out.softwareImageCrc.elements.length
    (bytesOf obj.softwareImageCrc.used ++ (bytesOf out.softwareImageCrc.elements).drop
      (bytesOf obj.softwareImageCrc.used).length), obj.softwareImageCrc.count⟩
  certificateOfAuthenticity := ⟨obj.certificateOfAuthenticity.used ++
    out.certificateOfAuthenticity.elements.drop obj.certificateOfAuthenticity.used.length,
    obj.certificateOfAuthenticity.count⟩

theorem GetInfoResponse.readInto_sameValue {obj out : GetInfoResponse} (h : obj.WellFormed)
    (hout : out.Sized) : (obj.readInto out).SameValue obj := by
  obtain ⟨hname, hcrc, hcertificate⟩ := h.used_length
  refine ⟨rfl, rfl, rfl, UInt64.ofNat_toNat, ?_, rfl, List.take_left' hname, rfl, ?_, rfl,
    List.take_left' hcertificate⟩
  · rw [readInto, h.uniqueId, ← hout.uniqueId, List.drop_length, List.append_nil]
  · have hroom : obj.softwareImageCrc.used.length ≤ out.softwareImageCrc.elements.length := by
      rw [hcrc, hout.crc]
      exact h.crcCount
    have hwords := wordsOf_bytesOf hroom
      ((bytesOf out.softwareImageCrc.elements).drop (bytesOf obj.softwareImageCrc.used).length)
    rwa [hcrc] at hwords

theorem GetInfoResponse.reads {obj out : GetInfoResponse} (h : obj.WellFormed) :
    Reads 8 out.readFields obj.representation (obj.readInto out) := by
  obtain ⟨hname, hcrc, hcertificate⟩ := h.used_length
  have hnameBytes : obj.name.used.length = obj.name.count * 1 := by rw [hname, Nat.mul_one]
  have hcrcBytes : (bytesOf obj.softwareImageCrc.used).length = obj.softwareImageCrc.count * 8 := by
    rw [bytesOf_length, hcrc]
  have hcertificateBytes : obj.certificateOfAuthenticity.used.length =
      obj.certificateOfAuthenticity.count * 1 := by rw [hcertificate, Nat.mul_one]
  have hfields : Reads 8 out.readFields (obj.protocolVersion.representation ++ ([] ++
      (obj.hardwareVersion.representation ++ ([] ++ (obj.softwareVersion.representation ++
      (leBytes 8 obj.softwareVcsRevisionId.toNat ++ (obj.uniqueId ++
      (arrayRepresentation obj.name.count obj.name.used ++
      (arrayRepresentation obj.softwareImageCrc.count (bytesOf obj.softwareImageCrc.used) ++
      (arrayRepresentation obj.certificateOfAuthenticity.count obj.certificateOfAuthenticity.used ++
      ([] ++ []))))))))))) (obj.readInto out) :=
    obj.protocolVersion.reads.bind <| reads_aligned.bind <| obj.hardwareVersion.reads.bind <|
      reads_aligned.bind <| obj.softwareVersion.reads.bind <|
      (reads_number obj.softwareVcsRevisionId.toNat_lt).bind <|
      (reads_bytes out.uniqueId obj.uniqueId h.uniqueId).bind <|
      (reads_array out.name.elements h.nameCount (by decide) hnameBytes).bind <|
      (reads_array (bytesOf out.softwareImageCrc.elements) h.crcCount (by decide)
        hcrcBytes).bind <|
      (reads_array out.certificateOfAuthenticity.elements h.certificateCount (by decide)
        hcertificateBytes).bind <|
      reads_aligned.bind (reads_give (obj.readInto out))
  simp only [List.nil_append, List.append_nil] at hfields
  simp only [representation, List.append_assoc]
  exact hfields

/-- A response is read back from its representation into any object, whatever follows. -/
theorem GetInfoResponse.deserialize_eq {obj out : GetInfoResponse} (h : obj.WellFormed)
    (hout : out.Sized) (rest : List UInt8) :
    ∃ read, out.deserialize (obj.representation ++ rest) (obj.representation ++ rest).length =
      .ok (read, obj.representation.length) ∧ read.SameValue obj := by
  refine ⟨obj.readInto out, ?_, readInto_sameValue h hout⟩
  rw [deserialize_fields, (reads h).from_start rest, ok_bind, List.length_append, consumed_eq]

end CyphalOnboard
