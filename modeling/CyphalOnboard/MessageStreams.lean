import CyphalOnboard.Deserialization
import CyphalOnboard.NunavutBits
import CyphalOnboard.Library.StreamReader
import Mathlib.Data.UInt

namespace CyphalOnboard

open ByteBuffer StreamReader

def takeByte (mask : UInt8) : Parser UInt8 ℤ UInt8 := fun s => .ok (s 0 &&& mask, 1)

def takeNumber (width : ℕ) : Parser UInt8 ℤ ℕ :=
  fun s => .ok (leValue ((List.range width).map s), width)

/-- The memory behind what is taken stays as it was. -/
def takeBytes (memory : List UInt8) (n : ℕ) : Parser UInt8 ℤ (List UInt8) :=
  fun s => .ok ((List.range n).map s ++ memory.drop n, n)

def takeArray (capacity elementBytes : ℕ) (memory : List UInt8) :
    Parser UInt8 ℤ (List UInt8 × ℕ) := fun s =>
  if (s 0).toNat > capacity then .error (-nunavutErrorRepresentationBadArrayLength)
  else
    let n := (s 0).toNat * elementBytes
    .ok (((List.range n).map (advance 1 s) ++ memory.drop n, (s 0).toNat), 1 + n)

def takeNothing {α : Type} (obj : α) : Parser UInt8 ℤ α := fun _ => .ok (obj, 0)

def readByte (bits : ℕ) (mask : UInt8) : Reader UInt8 ℤ UInt8 :=
  fun buffer size offset => .ok (readTruncated bits mask buffer size offset, offset + 8)

def readNumber (width : ℕ) : Reader UInt8 ℤ ℕ :=
  fun buffer size offset =>
    .ok (nunavutGetUxx width buffer size offset (width * 8), offset + width * 8)

def readBytes (memory : List UInt8) (n : ℕ) : Reader UInt8 ℤ (List UInt8) :=
  fun buffer size offset =>
    .ok (nunavutGetBits memory buffer size offset (n * 8), offset + n * 8)

def readArray (capacity elementBytes : ℕ) (memory : List UInt8) :
    Reader UInt8 ℤ (List UInt8 × ℕ) :=
  fun buffer size offset => deserializeArray capacity elementBytes memory buffer size offset

def readAligned : Reader UInt8 ℤ Unit := fun _ _ offset => .ok ((), alignTo8 offset)

def readNothing {α : Type} (obj : α) : Reader UInt8 ℤ α := fun _ _ offset => .ok (obj, offset)

theorem implements_nothing {α : Type} (obj : α) :
    Implements 8 (readNothing obj) (takeNothing obj) :=
  fun _ _ pos _ => ⟨pos, rfl, rfl⟩

theorem implements_aligned : Implements 8 readAligned (takeNothing ()) := by
  intro buffer size pos _
  refine ⟨pos, ?_, rfl⟩
  rw [readAligned, alignTo8_byte]

/-- A number of at most eight bits is all in the buffer or all behind its end. -/
theorem readTruncated_eq {bits : ℕ} (hpos : 0 < bits) (hbits : bits ≤ 8) (mask : UInt8)
    (buffer : List UInt8) (size pos : ℕ) :
    readTruncated bits mask buffer size (pos * 8) = tail buffer size pos 0 &&& mask := by
  unfold readTruncated
  by_cases hin : pos < size
  · have htake : (buffer.take size).getD pos 0 = buffer.getD pos 0 := by
      simp only [List.getD_eq_getElem?_getD, List.getElem?_take_of_lt hin]
    rw [if_pos (by omega), Nat.mul_div_cancel _ (by decide), ← htake]
    rfl
  · rw [if_neg (by omega), tail_behind (not_lt.mp hin)]
    exact UInt8.zero_and.symm

theorem implements_byte {bits : ℕ} (hpos : 0 < bits) (hbits : bits ≤ 8) (mask : UInt8) :
    Implements 8 (readByte bits mask) (takeByte mask) := by
  intro buffer size pos _
  refine ⟨pos + 1, ?_, rfl⟩
  rw [readByte, readTruncated_eq hpos hbits mask buffer size pos, Nat.add_mul]

theorem bit_map_range (s : ℕ → UInt8) (n k : ℕ) :
    bit ((List.range n).map s) k =
      (decide (k < n * 8) && (s (k / 8)).toBitVec.getLsbD (k % 8)) := by
  by_cases hk : k < n * 8
  · have hlt : k / 8 < n := by omega
    simp [bit, List.getD_eq_getElem?_getD, hlt, hk]
  · rw [bit_behind (by simpa using not_lt.mp hk), decide_eq_false hk, Bool.false_and]

/-- The bits from a byte on are those of the stream. -/
theorem bit_tail (buffer : List UInt8) (size pos k : ℕ) :
    bit (buffer.take size) (pos * 8 + k) =
      (tail buffer size pos (k / 8)).toBitVec.getLsbD (k % 8) := by
  have hdiv : (pos * 8 + k) / 8 = pos + k / 8 := by omega
  have hmod : (pos * 8 + k) % 8 = k % 8 := by omega
  rw [bit, hdiv, hmod]
  rfl

/-- What `nunavutGetUxx` makes of whole bytes. -/
theorem getUxx_tail {buffer : List UInt8} {size : ℕ} (hsize : size ≤ buffer.length)
    (width pos : ℕ) : nunavutGetUxx width buffer size (pos * 8) (width * 8) =
      leValue ((List.range width).map (tail buffer size pos)) := by
  rw [getUxx_eq hsize, min_self]
  apply Nat.eq_of_testBit_eq
  intro k
  rw [testBit_field, testBit_leValue, bit_map_range, bit_tail]

theorem implements_number (width : ℕ) : Implements 8 (readNumber width) (takeNumber width) := by
  intro buffer size pos hsize
  refine ⟨pos + width, ?_, rfl⟩
  rw [readNumber, getUxx_tail hsize, Nat.add_mul]

/-- What `nunavutGetBits` makes of whole bytes. -/
theorem getBits_tail {memory buffer : List UInt8} {size : ℕ} (hsize : size ≤ buffer.length)
    (pos : ℕ) {n : ℕ} (hroom : n ≤ memory.length) :
    nunavutGetBits memory buffer size (pos * 8) (n * 8) =
      (List.range n).map (tail buffer size pos) ++ memory.drop n := by
  have hround : (n * 8 + 7) / 8 = n := by omega
  obtain ⟨hlen, hbits⟩ := @getBits_bits memory buffer size (pos * 8) (n * 8) hsize
    (hround.trans_le hroom)
  apply eq_of_bits
  · rw [hlen, List.length_append, List.length_map, List.length_range, List.length_drop]
    omega
  · intro k _
    rw [hbits, hround, bit_append, List.length_map, List.length_range, bit_map_range, bit_tail,
      bit_drop]
    split_ifs with hk
    · rfl
    · have hback : n * 8 + (k - n * 8) = k := by omega
      rw [hback]

theorem implements_bytes {memory : List UInt8} {n : ℕ} (hroom : n ≤ memory.length) :
    Implements 8 (readBytes memory n) (takeBytes memory n) := by
  intro buffer size pos hsize
  refine ⟨pos + n, ?_, rfl⟩
  rw [readBytes, getBits_tail hsize pos hroom, Nat.add_mul]

theorem implements_array {capacity elementBytes : ℕ} {memory : List UInt8}
    (hroom : capacity * elementBytes ≤ memory.length) :
    Implements 8 (readArray capacity elementBytes memory)
      (takeArray capacity elementBytes memory) := by
  intro buffer size pos hsize
  have hcount : (readTruncated 8 255 buffer size (pos * 8)).toNat =
      (tail buffer size pos 0).toNat := by
    rw [readTruncated_eq (by decide) le_rfl 255 buffer size pos, and_255]
  unfold readArray deserializeArray takeArray
  rw [hcount]
  dsimp only
  by_cases hover : (tail buffer size pos 0).toNat > capacity
  · rw [if_pos hover, if_pos hover]
  · have hfit : (tail buffer size pos 0).toNat * elementBytes ≤ memory.length :=
      (Nat.mul_le_mul_right _ (not_lt.mp hover)).trans hroom
    have hnext : pos * 8 + 8 = (pos + 1) * 8 := by omega
    rw [if_neg hover, if_neg hover, hnext, ← Nat.mul_assoc, getBits_tail hsize (pos + 1) hfit,
      advance_tail, ← Nat.add_mul, Nat.add_assoc]
    exact ⟨_, rfl, rfl⟩

theorem implements_nested {α : Type} {deserialize : List UInt8 → ℕ → Except ℤ (α × ℕ)}
    {p : Parser UInt8 ℤ α} (h : Decodes deserialize p) :
    Implements 8 (deserializeNested deserialize) p := by
  have heq : deserializeNested deserialize = nestedReader 8 deserialize := by
    funext buffer size offset
    simp only [deserializeNested, nestedReader, nunavutChooseMin_eq]
    rfl
  rw [heq]
  exact h.implements (by decide)

def versionParser : Parser UInt8 ℤ Version := fun s => .ok (⟨s 0, s 1⟩, 2)

theorem Version.decodes : Decodes Version.deserialize versionParser := by
  intro buffer size _
  have hmajor := readTruncated_eq (by decide : 0 < 8) le_rfl 255 buffer size 0
  have hminor := readTruncated_eq (by decide : 0 < 8) le_rfl 255 buffer size 1
  rw [and_255] at hmajor hminor
  have hsize : nunavutChooseMin (alignTo8 16) (size * 8) / 8 = min 2 size := by
    rw [nunavutChooseMin_eq, alignTo8]
    omega
  unfold Version.deserialize
  rw [hmajor, hminor, hsize]
  rfl

/-- An object of one number. -/
theorem decodes_number {α : Type} {bits : ℕ} (hpos : 0 < bits) (hbits : bits ≤ 8) (mask : UInt8)
    (make : UInt8 → α) :
    Decodes (fun buffer size => (.ok (make (readTruncated bits mask buffer size 0),
        nunavutChooseMin (alignTo8 bits) (size * 8) / 8) : Except ℤ (α × ℕ)))
      fun s => .ok (make (s 0 &&& mask), 1) := by
  intro buffer size _
  have hvalue := readTruncated_eq hpos hbits mask buffer size 0
  have hsize : nunavutChooseMin (alignTo8 bits) (size * 8) / 8 = min 1 size := by
    rw [nunavutChooseMin_eq, alignTo8]
    omega
  dsimp only
  rw [hvalue, hsize]
  rfl

theorem Health.decodes : Decodes Health.deserialize fun s => .ok (⟨s 0 &&& 3⟩, 1) :=
  decodes_number (by decide) (by decide) 3 Health.mk

theorem Mode.decodes : Decodes Mode.deserialize fun s => .ok (⟨s 0 &&& 7⟩, 1) :=
  decodes_number (by decide) (by decide) 7 Mode.mk

/-- The heartbeat a stream starts with. -/
def heartbeatOf (s : ℕ → UInt8) : Heartbeat where
  uptime := UInt32.ofNat (leValue [s 0, s 1, s 2, s 3])
  health := ⟨s 4 &&& 3⟩
  mode := ⟨s 5 &&& 7⟩
  vendorSpecificStatusCode := s 6

def heartbeatReader : Reader UInt8 ℤ Heartbeat :=
  (readNumber 4).bind fun uptime => readAligned.bind fun _ =>
    .bind (deserializeNested Health.deserialize) fun health => readAligned.bind fun _ =>
    .bind (deserializeNested Mode.deserialize) fun mode => (readByte 8 255).bind fun status =>
    readAligned.bind fun _ => readNothing ⟨UInt32.ofNat uptime, health, mode, status⟩

def heartbeatParser : Parser UInt8 ℤ Heartbeat :=
  (takeNumber 4).bind fun uptime => (takeNothing ()).bind fun _ =>
    .bind (fun s => .ok (⟨s 0 &&& 3⟩, 1)) fun health => (takeNothing ()).bind fun _ =>
    .bind (fun s => .ok (⟨s 0 &&& 7⟩, 1)) fun mode => (takeByte 255).bind fun status =>
    (takeNothing ()).bind fun _ => takeNothing ⟨UInt32.ofNat uptime, health, mode, status⟩

theorem heartbeatReader_implements : Implements 8 heartbeatReader heartbeatParser :=
  (implements_number 4).bind fun _ => implements_aligned.bind fun _ =>
    (implements_nested Health.decodes).bind fun _ => implements_aligned.bind fun _ =>
    (implements_nested Mode.decodes).bind fun _ =>
    (implements_byte (by decide) le_rfl 255).bind fun _ => implements_aligned.bind fun _ =>
    implements_nothing _

theorem heartbeatParser_eq (s : ℕ → UInt8) : heartbeatParser s = .ok (heartbeatOf s, 7) := by
  simp only [heartbeatParser, Parser.bind, takeNumber, takeNothing, takeByte, ok_bind, Except.map,
    and_255]
  rfl

theorem Heartbeat.decodes : Decodes Heartbeat.deserialize fun s => .ok (heartbeatOf s, 7) := by
  have hread := heartbeatReader_implements.decodes (by decide)
  have hparser : heartbeatParser = fun s => .ok (heartbeatOf s, 7) := funext heartbeatParser_eq
  rw [← hparser]
  intro buffer size hsize
  rw [← hread buffer size hsize]
  simp only [heartbeatReader, Reader.bind, readNumber, readAligned, readByte, readNothing,
    bind_assoc, ok_bind, ← nunavutChooseMin_eq]
  rfl

/-- The number of elements a stream announces. -/
def elementCount (s : ℕ → UInt8) : ℕ := leValue [s 0, s 1]

def integer8ArrayOf (obj : Integer8Array) (s : ℕ → UInt8) : Integer8Array where
  elements := (List.range (elementCount s)).map (fun i => (s (2 + i)).toInt8) ++
    obj.elements.drop (elementCount s)
  count := elementCount s

def integer8ArrayParser (obj : Integer8Array) : Parser UInt8 ℤ Integer8Array := fun s =>
  if elementCount s ≤ integer8Capacity then .ok (integer8ArrayOf obj s, 2 + elementCount s)
  else .error (-nunavutErrorRepresentationBadArrayLength)

theorem Integer8Array.decodes {obj : Integer8Array} (h : obj.elements.length = integer8Capacity) :
    Decodes obj.deserialize (integer8ArrayParser obj) := by
  intro buffer size hsize
  have hcount : nunavutGetU16 buffer size 0 16 = elementCount (tail buffer size 0) :=
    getUxx_tail hsize 2 0
  unfold Integer8Array.deserialize integer8ArrayParser
  rw [hcount]
  generalize helements : elementCount (tail buffer size 0) = count
  dsimp only
  by_cases hover : count ≤ integer8Capacity
  · have hroom : count ≤ (obj.elements.map Int8.toUInt8).length := by
      rw [List.length_map, h]
      exact hover
    have hconsumed : nunavutChooseMin ((16 + count * 8 + 7) / 8 * 8) (size * 8) / 8 =
        min (2 + count) size := by
      rw [nunavutChooseMin_eq]
      omega
    have hbytes := getBits_tail hsize 2 hroom
    rw [if_neg (not_lt.mpr hover), if_pos hover, hconsumed]
    change Except.ok (⟨(nunavutGetBits _ buffer size (2 * 8) (count * 8)).map UInt8.toInt8, count⟩,
      min (2 + count) size) = .ok (integer8ArrayOf obj (tail buffer size 0), min (2 + count) size)
    rw [hbytes, List.map_append, List.map_map, ← List.map_drop, map_toInt8_toUInt8,
      integer8ArrayOf, helements]
    have htail : tail buffer size 2 = advance 2 (tail buffer size 0) :=
      (advance_tail buffer size 0 2).symm
    rw [htail]
    rfl
  · rw [if_pos (not_le.mp hover), if_neg hover]
    rfl

namespace GetInfoResponse

/-- The lengths of the arrays, where a stream has them. -/
def nameCount (s : ℕ → UInt8) : ℕ := (s 30).toNat

def crcCount (s : ℕ → UInt8) : ℕ := (s (31 + nameCount s)).toNat

def certificateCount (s : ℕ → UInt8) : ℕ := (s (32 + nameCount s + crcCount s * 8)).toNat

/-- All lengths are within their capacities. -/
structure Acceptable (s : ℕ → UInt8) : Prop where
  name : nameCount s ≤ getInfoNameCapacity
  crc : crcCount s ≤ 1
  certificate : certificateCount s ≤ 222

instance : DecidablePred Acceptable := fun s =>
  decidable_of_iff (nameCount s ≤ getInfoNameCapacity ∧ crcCount s ≤ 1 ∧ certificateCount s ≤ 222)
    ⟨fun h => ⟨h.1, h.2.1, h.2.2⟩, fun h => ⟨h.name, h.crc, h.certificate⟩⟩

/-- The response a stream starts with, read into `obj`. -/
def ofStream (obj : GetInfoResponse) (s : ℕ → UInt8) : GetInfoResponse where
  protocolVersion := ⟨s 0, s 1⟩
  hardwareVersion := ⟨s 2, s 3⟩
  softwareVersion := ⟨s 4, s 5⟩
  softwareVcsRevisionId := UInt64.ofNat (leValue ((List.range 8).map (advance 6 s)))
  uniqueId := (List.range 16).map (advance 14 s) ++ obj.uniqueId.drop 16
  name := ⟨(List.range (nameCount s)).map (advance 31 s) ++ obj.name.elements.drop (nameCount s),
    nameCount s⟩
  softwareImageCrc := ⟨wordsOf obj.softwareImageCrc.elements.length
    ((List.range (crcCount s * 8)).map (advance (32 + nameCount s) s) ++
      (bytesOf obj.softwareImageCrc.elements).drop (crcCount s * 8)), crcCount s⟩
  certificateOfAuthenticity := ⟨(List.range (certificateCount s)).map
      (advance (33 + nameCount s + crcCount s * 8) s) ++
    obj.certificateOfAuthenticity.elements.drop (certificateCount s), certificateCount s⟩

def streamLength (s : ℕ → UInt8) : ℕ := 33 + nameCount s + crcCount s * 8 + certificateCount s

def parser (obj : GetInfoResponse) : Parser UInt8 ℤ GetInfoResponse := fun s =>
  if Acceptable s then .ok (obj.ofStream s, streamLength s)
  else .error (-nunavutErrorRepresentationBadArrayLength)

/-- The reader, one step for each field. -/
def reader (obj : GetInfoResponse) : Reader UInt8 ℤ GetInfoResponse :=
  .bind (deserializeNested Version.deserialize) fun protocolVersion =>
    readAligned.bind fun _ =>
    .bind (deserializeNested Version.deserialize) fun hardwareVersion =>
    readAligned.bind fun _ =>
    .bind (deserializeNested Version.deserialize) fun softwareVersion =>
    (readNumber 8).bind fun softwareVcsRevisionId =>
    (readBytes obj.uniqueId 16).bind fun uniqueId =>
    (readArray getInfoNameCapacity 1 obj.name.elements).bind fun name =>
    (readArray 1 8 (bytesOf obj.softwareImageCrc.elements)).bind fun crc =>
    (readArray 222 1 obj.certificateOfAuthenticity.elements).bind fun certificate =>
    readAligned.bind fun _ => readNothing {
      protocolVersion := protocolVersion
      hardwareVersion := hardwareVersion
      softwareVersion := softwareVersion
      softwareVcsRevisionId := UInt64.ofNat softwareVcsRevisionId
      uniqueId := uniqueId
      name := ⟨name.1, name.2⟩
      softwareImageCrc := ⟨wordsOf obj.softwareImageCrc.elements.length crc.1, crc.2⟩
      certificateOfAuthenticity := ⟨certificate.1, certificate.2⟩ }

/-- The parser, one step for each field. -/
def fieldParser (obj : GetInfoResponse) : Parser UInt8 ℤ GetInfoResponse :=
  versionParser.bind fun protocolVersion => (takeNothing ()).bind fun _ =>
    versionParser.bind fun hardwareVersion => (takeNothing ()).bind fun _ =>
    versionParser.bind fun softwareVersion => (takeNumber 8).bind fun softwareVcsRevisionId =>
    (takeBytes obj.uniqueId 16).bind fun uniqueId =>
    (takeArray getInfoNameCapacity 1 obj.name.elements).bind fun name =>
    (takeArray 1 8 (bytesOf obj.softwareImageCrc.elements)).bind fun crc =>
    (takeArray 222 1 obj.certificateOfAuthenticity.elements).bind fun certificate =>
    (takeNothing ()).bind fun _ => takeNothing {
      protocolVersion := protocolVersion
      hardwareVersion := hardwareVersion
      softwareVersion := softwareVersion
      softwareVcsRevisionId := UInt64.ofNat softwareVcsRevisionId
      uniqueId := uniqueId
      name := ⟨name.1, name.2⟩
      softwareImageCrc := ⟨wordsOf obj.softwareImageCrc.elements.length crc.1, crc.2⟩
      certificateOfAuthenticity := ⟨certificate.1, certificate.2⟩ }

theorem reader_implements {obj : GetInfoResponse} (h : obj.Sized) :
    Implements 8 obj.reader obj.fieldParser := by
  have hcrc : 1 * 8 ≤ (bytesOf obj.softwareImageCrc.elements).length := by
    rw [bytesOf_length, h.crc]
  have hversion := implements_nested Version.decodes
  exact hversion.bind fun _ => implements_aligned.bind fun _ => hversion.bind fun _ =>
    implements_aligned.bind fun _ => hversion.bind fun _ => (implements_number 8).bind fun _ =>
    (implements_bytes h.uniqueId.ge).bind fun _ => (implements_array h.name.ge).bind fun _ =>
    (implements_array hcrc).bind fun _ => (implements_array h.certificate.ge).bind fun _ =>
    implements_aligned.bind fun _ => implements_nothing _

theorem fieldParser_eq (obj : GetInfoResponse) (s : ℕ → UInt8) :
    obj.fieldParser s = obj.parser s := by
  have hname : (advance (2 + 0 + 2 + 0 + 2 + 8 + 16) s 0).toNat = nameCount s := rfl
  have hcrc : (advance (2 + 0 + 2 + 0 + 2 + 8 + 16 + (1 + nameCount s)) s 0).toNat =
      crcCount s := by
    rw [crcCount, advance]
    congr 2
    omega
  have hcertificate : (advance (2 + 0 + 2 + 0 + 2 + 8 + 16 + (1 + nameCount s) +
      (1 + crcCount s * 8)) s 0).toNat = certificateCount s := by
    rw [certificateCount, advance]
    congr 2
    omega
  simp only [fieldParser, Parser.bind, versionParser, takeNumber, takeBytes, takeArray,
    takeNothing, ok_bind, advance_advance, parser, hname, Nat.mul_one]
  by_cases hfirst : nameCount s ≤ getInfoNameCapacity
  · rw [if_neg (not_lt.mpr hfirst)]
    simp only [ok_bind, hcrc]
    by_cases hsecond : crcCount s ≤ 1
    · rw [if_neg (not_lt.mpr hsecond)]
      simp only [ok_bind, hcertificate]
      by_cases hthird : certificateCount s ≤ 222
      · rw [if_neg (not_lt.mpr hthird), if_pos ⟨hfirst, hsecond, hthird⟩]
        have hwords : 2 + 0 + 2 + 0 + 2 + 8 + 16 + (1 + nameCount s) + 1 = 32 + nameCount s := by
          omega
        have hbytes : 2 + 0 + 2 + 0 + 2 + 8 + 16 + (1 + nameCount s) + (1 + crcCount s * 8) + 1 =
            33 + nameCount s + crcCount s * 8 := by
          omega
        have hlength : 2 + (0 + (2 + (0 + (2 + (8 + (16 + (1 + nameCount s + (1 + crcCount s * 8 +
            (1 + certificateCount s + (0 + 0)))))))))) = streamLength s := by
          rw [streamLength]
          omega
        simp only [ok_bind, Except.map, hwords, hbytes, hlength]
        rfl
      · rw [if_pos (not_le.mp hthird), if_neg fun h => hthird h.certificate]
        rfl
    · rw [if_pos (not_le.mp hsecond), if_neg fun h => hsecond h.crc]
      rfl
  · rw [if_pos (not_le.mp hfirst), if_neg fun h => hfirst h.name]
    rfl

theorem decodes {obj : GetInfoResponse} (h : obj.Sized) : Decodes obj.deserialize obj.parser := by
  have hread := (reader_implements h).decodes (by decide)
  have hparser : obj.fieldParser = obj.parser := funext obj.fieldParser_eq
  rw [← hparser]
  intro buffer size hsize
  rw [← hread buffer size hsize]
  simp only [reader, Reader.bind, readNumber, readBytes, readArray, readAligned, readNothing,
    bind_assoc, ok_bind, ← nunavutChooseMin_eq]
  rfl

end GetInfoResponse

/-- A message is decoded as if it went on with zeros: the fields are those of the stream, a length
beyond the capacity is the only error, and no more bytes are consumed than there are. -/
theorem messages_decode :
    Decodes Heartbeat.deserialize (fun s => .ok (heartbeatOf s, 7)) ∧
    (∀ obj : Integer8Array, obj.elements.length = integer8Capacity →
      Decodes obj.deserialize (integer8ArrayParser obj)) ∧
    ∀ obj : GetInfoResponse, obj.Sized → Decodes obj.deserialize obj.parser :=
  ⟨Heartbeat.decodes, fun _ h => Integer8Array.decodes h, fun _ h => GetInfoResponse.decodes h⟩

def zeroInfo : GetInfoResponse where
  protocolVersion := ⟨0, 0⟩
  hardwareVersion := ⟨0, 0⟩
  softwareVersion := ⟨0, 0⟩
  softwareVcsRevisionId := 0
  uniqueId := List.replicate 16 0
  name := ⟨List.replicate 50 0, 0⟩
  softwareImageCrc := ⟨[0], 0⟩
  certificateOfAuthenticity := ⟨List.replicate 222 0, 0⟩

theorem messages_decode_truncated :
    Heartbeat.deserialize [5] 1 = .ok (⟨5, ⟨0⟩, ⟨0⟩, 0⟩, 1) ∧
    Integer8Array.deserialize ⟨List.replicate 256 9, 0⟩ [2, 0, 7] 3 =
      .ok (⟨7 :: 0 :: List.replicate 254 9, 2⟩, 3) ∧
    zeroInfo.deserialize [] 0 = .ok (zeroInfo, 0) := by
  obtain ⟨hheartbeat, harray, hinfo⟩ := messages_decode
  refine ⟨hheartbeat [5] 1 (by decide), ?_, ?_⟩
  · exact harray ⟨List.replicate 256 9, 0⟩ List.length_replicate [2, 0, 7] 3 (by decide)
  · exact hinfo zeroInfo ⟨rfl, rfl, rfl, rfl⟩ [] 0 (by decide)

section

variable {α : Type} (Sized : α → Prop) (Same : α → α → Prop)
  (deserialize : α → List UInt8 → ℕ → Except ℤ (α × ℕ))
  (serialize : α → List UInt8 → ℕ → SerializeResult) (bufferSize : ℕ)

/-- In any buffer of the type the object is written so that it is read back. -/
def ReadBack (obj : α) : Prop :=
  ∀ room : List UInt8, room.length = bufferSize → ∃ written n,
    serialize obj room bufferSize = .ok (written, n) ∧ n ≤ written.length ∧
    ∀ out, Sized out → ∃ again, deserialize out written n = .ok (again, n) ∧ Same again obj

/-- Whatever is read can be written and read back. What is not read has too long an array. -/
def Reencodes : Prop :=
  ∀ (obj : α) (buffer : List UInt8) (size : ℕ), Sized obj → size ≤ buffer.length →
    match deserialize obj buffer size with
    | .error e => e = -nunavutErrorRepresentationBadArrayLength
    | .ok (read, consumed) => Sized read ∧ consumed ≤ size ∧
        ReadBack Sized Same deserialize serialize bufferSize read

end

theorem masked_lt (v : UInt8) {mask : UInt8} {n : ℕ} (h : mask.toNat < n) :
    (v &&& mask).toNat < n := by
  rw [UInt8.toNat_and]
  exact Nat.and_le_right.trans_lt h

theorem heartbeatOf_inRange (s : ℕ → UInt8) : (heartbeatOf s).InRange :=
  ⟨masked_lt (s 4) (by decide), masked_lt (s 5) (by decide)⟩

theorem Heartbeat.readBack {obj : Heartbeat} (h : obj.InRange) :
    ReadBack (fun _ => True) Eq (fun _ => Heartbeat.deserialize) Heartbeat.serialize
      heartbeatBufferSize obj := by
  intro room hroom
  have hlen := obj.representation_length
  refine ⟨_, _, Heartbeat.serialize_eq h hroom, hlen.ge, ?_⟩
  intro out _
  have hread := Heartbeat.deserialize_eq h []
  rw [List.append_nil, hlen] at hread
  exact ⟨_, hread, rfl⟩

theorem Heartbeat.reencodes : Reencodes (fun _ => True) Eq (fun _ => Heartbeat.deserialize)
    Heartbeat.serialize heartbeatBufferSize := by
  intro obj buffer size _ hsize
  dsimp only
  rw [Heartbeat.decodes buffer size hsize]
  exact ⟨trivial, Nat.min_le_right .., Heartbeat.readBack (heartbeatOf_inRange _)⟩

/-- The same elements are in use. -/
def VarArray.SameUsed {α : Type} (a b : VarArray α) : Prop := a.count = b.count ∧ a.used = b.used

theorem integer8ArrayOf_elements {obj : Integer8Array} {s : ℕ → UInt8}
    (h : obj.elements.length = integer8Capacity) (hcount : elementCount s ≤ integer8Capacity) :
    (integer8ArrayOf obj s).elements.length = integer8Capacity := by
  simp only [integer8ArrayOf, List.length_append, List.length_map, List.length_range,
    List.length_drop, h]
  omega

theorem Integer8Array.readBack {obj : Integer8Array}
    (h : obj.elements.length = integer8Capacity) (hcount : obj.count ≤ integer8Capacity) :
    ReadBack (fun obj : Integer8Array => obj.elements.length = integer8Capacity)
      VarArray.SameUsed Integer8Array.deserialize Integer8Array.serialize integer8BufferSize
      obj := by
  intro room hroom
  have hused : obj.count ≤ obj.elements.length := h ▸ hcount
  have hdata : ((obj.elements.take obj.count).map Int8.toUInt8).length = obj.count := by
    rw [List.length_map, List.length_take_of_le hused]
  have hlen : (leBytes 2 obj.count ++ (obj.elements.take obj.count).map Int8.toUInt8).length =
      2 + obj.count := by
    rw [List.length_append, leBytes_length, hdata]
  have hfits : 2 + obj.count ≤ (leBytes 2 obj.count ++
      (obj.elements.take obj.count).map Int8.toUInt8 ++ room.drop (2 + obj.count)).length := by
    rw [List.length_append, hlen]
    exact Nat.le_add_right ..
  refine ⟨_, _, obj.serialize_eq room hcount hused, hfits, ?_⟩
  intro out hout
  have hread := out.deserialize_eq (hdata.trans_le hcount) []
  rw [hdata, List.append_nil, List.length_nil, Nat.add_zero, map_toInt8_toUInt8] at hread
  refine ⟨⟨obj.elements.take obj.count ++ out.elements.drop obj.count, obj.count⟩, ?_, rfl,
    List.take_left' (List.length_take_of_le hused)⟩
  rw [(Integer8Array.decodes hout).take hfits, List.take_left' hlen, hread]

theorem Integer8Array.reencodes :
    Reencodes (fun obj : Integer8Array => obj.elements.length = integer8Capacity)
      VarArray.SameUsed Integer8Array.deserialize Integer8Array.serialize integer8BufferSize := by
  intro obj buffer size hobj hsize
  rw [Integer8Array.decodes hobj buffer size hsize, integer8ArrayParser]
  by_cases hcount : elementCount (tail buffer size 0) ≤ integer8Capacity
  · rw [if_pos hcount]
    have helements := integer8ArrayOf_elements hobj hcount
    exact ⟨helements, Nat.min_le_right .., Integer8Array.readBack helements hcount⟩
  · rw [if_neg hcount]
    rfl

namespace GetInfoResponse

theorem wordsOf_length (n : ℕ) (bytes : List UInt8) : (wordsOf n bytes).length = n := by
  induction n generalizing bytes with
  | zero => rfl
  | succ n ih => rw [wordsOf, List.length_cons, ih]

theorem ofStream_wellFormed {obj : GetInfoResponse} (h : obj.Sized) {s : ℕ → UInt8}
    (hs : Acceptable s) : (obj.ofStream s).WellFormed := by
  have hname := hs.name
  have hcertificate := hs.certificate
  refine ⟨⟨?_, ?_, ?_, ?_⟩, hname, hs.crc, hcertificate⟩
  · simp only [ofStream, List.length_append, List.length_map, List.length_range, List.length_drop,
      h.uniqueId]
    rfl
  · simp only [ofStream, List.length_append, List.length_map, List.length_range, List.length_drop,
      h.name]
    omega
  · rw [ofStream, wordsOf_length, h.crc]
  · simp only [ofStream, List.length_append, List.length_map, List.length_range, List.length_drop,
      h.certificate]
    omega

theorem readBack {obj : GetInfoResponse} (h : obj.WellFormed) :
    ReadBack Sized SameValue deserialize serialize getInfoResponseBufferSize obj := by
  intro room hroom
  have hfits : obj.representation.length ≤
      (obj.representation ++ room.drop obj.representation.length).length := by
    rw [List.length_append]
    exact Nat.le_add_right ..
  refine ⟨_, _, serialize_eq h hroom, hfits, ?_⟩
  intro out hout
  obtain ⟨again, hread, hsame⟩ := deserialize_eq h hout []
  rw [List.append_nil] at hread
  refine ⟨again, ?_, hsame⟩
  rw [(decodes hout).take hfits, List.take_left, hread]

theorem reencodes : Reencodes Sized SameValue deserialize serialize getInfoResponseBufferSize := by
  intro obj buffer size hobj hsize
  rw [decodes hobj buffer size hsize, parser]
  by_cases hs : Acceptable (tail buffer size 0)
  · rw [if_pos hs]
    have hformed := ofStream_wellFormed hobj hs
    exact ⟨hformed.toSized, Nat.min_le_right .., readBack hformed⟩
  · rw [if_neg hs]
    rfl

end GetInfoResponse

/-- Decoding normalizes: whatever bytes are accepted, the object is within the bounds of its type,
and written again and read back it is the same. -/
theorem messages_reencoded :
    Reencodes (fun _ => True) Eq (fun _ => Heartbeat.deserialize) Heartbeat.serialize
      heartbeatBufferSize ∧
    Reencodes (fun obj : Integer8Array => obj.elements.length = integer8Capacity)
      VarArray.SameUsed Integer8Array.deserialize Integer8Array.serialize integer8BufferSize ∧
    Reencodes GetInfoResponse.Sized GetInfoResponse.SameValue GetInfoResponse.deserialize
      GetInfoResponse.serialize getInfoResponseBufferSize :=
  ⟨Heartbeat.reencodes, Integer8Array.reencodes, GetInfoResponse.reencodes⟩

/-- A heartbeat that ends with its health, of which all bits are set, an array that ends within its
elements, and a response that is missing altogether. -/
theorem messages_reencoded_truncated :
    ReadBack (fun _ => True) Eq (fun _ => Heartbeat.deserialize) Heartbeat.serialize
      heartbeatBufferSize ⟨5, ⟨3⟩, ⟨0⟩, 0⟩ ∧
    ReadBack (fun obj : Integer8Array => obj.elements.length = integer8Capacity)
      VarArray.SameUsed Integer8Array.deserialize Integer8Array.serialize integer8BufferSize
      ⟨7 :: 0 :: List.replicate 254 9, 2⟩ ∧
    ReadBack GetInfoResponse.Sized GetInfoResponse.SameValue GetInfoResponse.deserialize
      GetInfoResponse.serialize getInfoResponseBufferSize zeroInfo := by
  obtain ⟨hheartbeat, harray, hinfo⟩ := messages_reencoded
  have hread : Integer8Array.deserialize ⟨List.replicate 256 9, 0⟩ [2, 0, 7] 3 =
      .ok (⟨7 :: 0 :: List.replicate 254 9, 2⟩, 3) :=
    Integer8Array.decodes List.length_replicate [2, 0, 7] 3 (by decide)
  have hempty : zeroInfo.deserialize [] 0 = .ok (zeroInfo, 0) :=
    GetInfoResponse.decodes ⟨rfl, rfl, rfl, rfl⟩ [] 0 (by decide)
  have hheartbeat := hheartbeat ⟨0, ⟨0⟩, ⟨0⟩, 0⟩ [5, 0, 0, 0, 0xFF] 5 trivial (by decide)
  have harray := harray ⟨List.replicate 256 9, 0⟩ [2, 0, 7] 3 List.length_replicate (by decide)
  have hinfo := hinfo zeroInfo [] 0 ⟨rfl, rfl, rfl, rfl⟩ (by decide)
  rw [hread] at harray
  rw [hempty] at hinfo
  exact ⟨hheartbeat.2.2, harray.2.2, hinfo.2.2⟩

/-- Numbers beyond their bits become the greatest there are. -/
def Heartbeat.saturated (obj : Heartbeat) : Heartbeat :=
  { obj with
    health := ⟨if obj.health.value > 3 then 3 else obj.health.value⟩
    mode := ⟨if obj.mode.value > 7 then 7 else obj.mode.value⟩ }

theorem saturated_le (max value : UInt8) : (if value > max then max else value) ≤ max := by
  split_ifs with h
  · exact UInt8.le_refl max
  · exact UInt8.not_lt.mp h

theorem Heartbeat.saturated_inRange (obj : Heartbeat) : obj.saturated.InRange := by
  have hhealth := UInt8.le_iff_toNat_le.mp (saturated_le 3 obj.health.value)
  have hmode := UInt8.le_iff_toNat_le.mp (saturated_le 7 obj.mode.value)
  exact ⟨Nat.lt_succ_of_le hhealth, Nat.lt_succ_of_le hmode⟩

theorem serializeSaturated_saturated (bits : ℕ) (max value : UInt8) :
    serializeSaturated bits max (if value > max then max else value) =
      serializeSaturated bits max value := by
  funext buffer capacityBytes
  have hsat : ¬ (if value > max then max else value) > max :=
    UInt8.not_lt.mpr (saturated_le max value)
  simp only [serializeSaturated, if_neg hsat]

theorem Heartbeat.serialize_saturated (obj : Heartbeat) :
    obj.saturated.serialize = obj.serialize := by
  funext buffer capacityBytes
  have hhealth := serializeSaturated_saturated 2 3 obj.health.value
  have hmode := serializeSaturated_saturated 3 7 obj.mode.value
  simp only [serialize, Health.serialize, Mode.serialize, saturated, hhealth, hmode]

theorem Heartbeat.written (obj : Heartbeat) {room : List UInt8}
    (hroom : room.length = heartbeatBufferSize) : ∃ written,
      obj.serialize room heartbeatBufferSize = .ok (written, heartbeatBufferSize) ∧
      Heartbeat.deserialize written heartbeatBufferSize =
        .ok (obj.saturated, heartbeatBufferSize) := by
  have hwritten := Heartbeat.serialize_eq obj.saturated_inRange hroom
  have hread := Heartbeat.deserialize_eq obj.saturated_inRange []
  rw [serialize_saturated] at hwritten
  rw [List.append_nil, representation_length] at hread
  exact ⟨_, hwritten, hread⟩

theorem Integer8Array.refused {obj : Integer8Array} (h : ¬ obj.count ≤ integer8Capacity)
    (room : List UInt8) : obj.serialize room integer8BufferSize =
      .error (-nunavutErrorRepresentationBadArrayLength) := by
  have hsize : ¬ 8 * integer8BufferSize < 2064 := by decide
  rw [serialize, if_neg hsize, if_pos (not_le.mp h)]

theorem serializeArray_refused {capacity count : ℕ} (h : ¬ count ≤ capacity) (bytes : List UInt8)
    (elementBytes : ℕ) (buffer : List UInt8) (offsetBits : ℕ)
    (next : List UInt8 × ℕ → SerializeResult) :
    (serializeArray capacity bytes count elementBytes buffer offsetBits >>= next) =
      .error (-nunavutErrorRepresentationBadArrayLength) := by
  rw [serializeArray, if_pos (not_le.mp h)]
  rfl

theorem Aligned.bind_error {r : SerializeResult} (h : Aligned r) {e : ℤ}
    {next : List UInt8 × ℕ → SerializeResult}
    (hnext : ∀ buffer offsetBits, offsetBits % 8 = 0 → next (buffer, offsetBits) = .error e) :
    (r >>= next) = .error e := by
  obtain ⟨buffer, offsetBits, rfl, hoff⟩ := h
  exact hnext buffer offsetBits hoff

theorem GetInfoResponse.refused {obj : GetInfoResponse} (hobj : obj.Sized) (h : ¬ obj.WellFormed)
    (room : List UInt8) : obj.serialize room getInfoResponseBufferSize =
      .error (-nunavutErrorRepresentationBadArrayLength) := by
  have hsize : ¬ 8 * getInfoResponseBufferSize < 2504 := by decide
  rw [serialize, if_neg hsize]
  -- the fields in front of the arrays are written
  refine (obj.protocolVersion.aligned_nested room rfl).bind_error fun buffer off hoff => ?_
  refine (aligned_padTo8 hoff buffer _).bind_error fun buffer off hoff => ?_
  refine (obj.hardwareVersion.aligned_nested buffer hoff).bind_error fun buffer off hoff => ?_
  refine (aligned_padTo8 hoff buffer _).bind_error fun buffer off hoff => ?_
  refine (obj.softwareVersion.aligned_nested buffer hoff).bind_error fun buffer off hoff => ?_
  have hid : (off + 64 + 16 * 8) % 8 = 0 := by omega
  -- and those of the arrays until one is too long
  by_cases hname : obj.name.count ≤ getInfoNameCapacity
  · refine (aligned_serializeArray hname _ 1 _ hid).bind_error fun buffer off hoff => ?_
    by_cases hcrc : obj.softwareImageCrc.count ≤ 1
    · refine (aligned_serializeArray hcrc _ 8 buffer hoff).bind_error fun buffer off hoff => ?_
      have hcertificate : ¬ obj.certificateOfAuthenticity.count ≤ 222 :=
        fun hcertificate => h ⟨hobj, hname, hcrc, hcertificate⟩
      exact serializeArray_refused hcertificate ..
    · exact serializeArray_refused hcrc ..
  · exact serializeArray_refused hname ..

/-- Every heartbeat is written, with health and mode saturated. A message with an array is written
so that it is read back if the array keeps its capacity, and refused otherwise. -/
theorem messages_written :
    (∀ (obj : Heartbeat) (room : List UInt8), room.length = heartbeatBufferSize → ∃ written,
      obj.serialize room heartbeatBufferSize = .ok (written, heartbeatBufferSize) ∧
      Heartbeat.deserialize written heartbeatBufferSize =
        .ok (obj.saturated, heartbeatBufferSize)) ∧
    (∀ obj : Integer8Array, obj.elements.length = integer8Capacity →
      if obj.count ≤ integer8Capacity then
        ReadBack (fun obj : Integer8Array => obj.elements.length = integer8Capacity)
          VarArray.SameUsed Integer8Array.deserialize Integer8Array.serialize integer8BufferSize obj
      else ∀ room, obj.serialize room integer8BufferSize =
        .error (-nunavutErrorRepresentationBadArrayLength)) ∧
    ∀ obj : GetInfoResponse, obj.Sized →
      (obj.WellFormed ∧ ReadBack GetInfoResponse.Sized GetInfoResponse.SameValue
        GetInfoResponse.deserialize GetInfoResponse.serialize getInfoResponseBufferSize obj) ∨
      (¬ obj.WellFormed ∧ ∀ room, obj.serialize room getInfoResponseBufferSize =
        .error (-nunavutErrorRepresentationBadArrayLength)) := by
  refine ⟨fun obj room hroom => obj.written hroom, ?_, ?_⟩
  · intro obj hobj
    split_ifs with hcount
    · exact Integer8Array.readBack hobj hcount
    · exact Integer8Array.refused hcount
  · intro obj hobj
    by_cases h : obj.WellFormed
    · exact .inl ⟨h, GetInfoResponse.readBack h⟩
    · exact .inr ⟨h, GetInfoResponse.refused hobj h⟩

/-- Mode 9 is announced as 7, and 51 characters are no name. -/
theorem messages_written_saturated :
    (∃ written, Heartbeat.serialize ⟨1, ⟨2⟩, ⟨9⟩, 3⟩ (List.replicate 7 0) 7 = .ok (written, 7) ∧
      Heartbeat.deserialize written 7 = .ok (⟨1, ⟨2⟩, ⟨7⟩, 3⟩, 7)) ∧
    GetInfoResponse.serialize { zeroInfo with name := ⟨List.replicate 50 0, 51⟩ }
      (List.replicate 313 0) 313 = .error (-10) := by
  obtain ⟨hheartbeat, -, hinfo⟩ := messages_written
  refine ⟨hheartbeat ⟨1, ⟨2⟩, ⟨9⟩, 3⟩ (List.replicate 7 0) rfl, ?_⟩
  obtain ⟨hformed, -⟩ | ⟨-, hrefused⟩ := hinfo
    { zeroInfo with name := ⟨List.replicate 50 0, 51⟩ } ⟨rfl, rfl, rfl, rfl⟩
  · exact absurd hformed.nameCount (by decide)
  · exact hrefused _

end CyphalOnboard
