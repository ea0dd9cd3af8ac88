import CyphalOnboard.Library.ByteBuffer

namespace CyphalOnboard

open ByteBuffer

def nunavutErrorSerializationBufferTooSmall : ℤ := 3
def nunavutErrorRepresentationBadArrayLength : ℤ := 10

def nunavutChooseMin (a b : ℕ) : ℕ := if a < b then a else b

/-- The number of bits that can be copied from or to a buffer from an offset on. Sizes, offsets and
lengths are natural numbers: no sum of them reaches the range of `size_t`. -/
def nunavutSaturateBufferFragmentBitLength
    (bufferSizeBytes fragmentOffsetBits fragmentLengthBits : ℕ) : ℕ :=
  let sizeBits := bufferSizeBytes * 8
  let tailBits := sizeBits - nunavutChooseMin sizeBits fragmentOffsetBits
  nunavutChooseMin fragmentLengthBits tailBits

/-- The loop of the unaligned copy. Each iteration copies at least one bit, so the length
bounds their number. -/
def copyUnaligned (src : List UInt8) (lastBit : ℕ) :
    (fuel srcOff dstOff : ℕ) → List UInt8 → List UInt8
  | 0, _, _, dst => dst
  | fuel + 1, srcOff, dstOff, dst =>
    if lastBit > srcOff then
      let srcMod := srcOff % 8
      let dstMod := dstOff % 8
      let maxMod := if srcMod > dstMod then srcMod else dstMod
      let size := nunavutChooseMin (8 - maxMod) (lastBit - srcOff)
      let mask := UInt8.ofNat ((2 ^ size - 1) * 2 ^ dstMod)
      let byteIn := (src.getD (srcOff / 8) 0 >>> UInt8.ofNat srcMod) <<< UInt8.ofNat dstMod
      let a := dst.getD (dstOff / 8) 0 &&& ~~~mask
      let b := byteIn &&& mask
      copyUnaligned src lastBit fuel (srcOff + size) (dstOff + size)
        (dst.set (dstOff / 8) (a ||| b))
    else dst

/-- Copy `lengthBits` bits between arbitrary bit offsets. -/
def nunavutCopyBits (dst : List UInt8) (dstOffsetBits lengthBits : ℕ) (src : List UInt8)
    (srcOffsetBits : ℕ) : List UInt8 :=
  if srcOffsetBits % 8 = 0 ∧ dstOffsetBits % 8 = 0 then
    let lengthBytes := lengthBits / 8
    let psrc := src.drop (srcOffsetBits / 8)
    let pdst := dstOffsetBits / 8
    let dst := overwrite dst pdst (psrc.take lengthBytes)
    let lengthMod := lengthBits % 8
    if lengthMod ≠ 0 then
      let mask := UInt8.ofNat (2 ^ lengthMod - 1)
      dst.set (pdst + lengthBytes)
        ((dst.getD (pdst + lengthBytes) 0 &&& ~~~mask) ||| (psrc.getD lengthBytes 0 &&& mask))
    else dst
  else copyUnaligned src (srcOffsetBits + lengthBits) lengthBits srcOffsetBits dstOffsetBits dst

/-- `offBits + lenBits` does not wrap. -/
def nunavutSetUxx (buf : List UInt8) (bufSizeBytes offBits : ℕ) (value : UInt64) (lenBits : ℕ) :
    Except ℤ (List UInt8) :=
  if bufSizeBytes * 8 < offBits + lenBits then .error (-nunavutErrorSerializationBufferTooSmall)
  else .ok (nunavutCopyBits buf offBits (nunavutChooseMin lenBits 64) (leBytes 8 value.toNat) 0)

/-- Extract `lenBits` bits, zero-extended where they overrun the buffer. -/
def nunavutGetBits (output buf : List UInt8) (bufSizeBytes offBits lenBits : ℕ) : List UInt8 :=
  let satBits := nunavutSaturateBufferFragmentBitLength bufSizeBytes offBits lenBits
  let output := overwrite output (satBits / 8)
    (List.replicate ((lenBits + 7) / 8 - satBits / 8) 0)
  nunavutCopyBits output 0 satBits buf offBits

/-- The reader of an unsigned integer of `width` bytes. -/
def nunavutGetUxx (width : ℕ) (buf : List UInt8) (bufSizeBytes offBits lenBits : ℕ) : ℕ :=
  let bits := nunavutSaturateBufferFragmentBitLength bufSizeBytes offBits
    (nunavutChooseMin lenBits (width * 8))
  leValue (nunavutCopyBits (List.replicate width 0) 0 bits buf offBits)

def nunavutGetU16 (buf : List UInt8) (bufSizeBytes offBits lenBits : ℕ) : ℕ :=
  nunavutGetUxx 2 buf bufSizeBytes offBits lenBits

theorem nunavutChooseMin_eq (a b : ℕ) : nunavutChooseMin a b = min a b := by
  unfold nunavutChooseMin
  split_ifs <;> omega

/-- A fragment that lies within the buffer is not cut. -/
theorem saturate_of_le {bufferSizeBytes off len : ℕ} (h : off + len ≤ bufferSizeBytes * 8) :
    nunavutSaturateBufferFragmentBitLength bufferSizeBytes off len = len := by
  simp only [nunavutSaturateBufferFragmentBitLength, nunavutChooseMin_eq]
  omega

theorem copyBits_bytes (dst : List UInt8) (dstByte n : ℕ) (src : List UInt8) (srcByte : ℕ) :
    nunavutCopyBits dst (dstByte * 8) (n * 8) src (srcByte * 8) =
      overwrite dst dstByte ((src.drop srcByte).take n) := by
  have h1 : ∀ k, k * 8 % 8 = 0 := fun k => Nat.mul_mod_left k 8
  have h2 : ∀ k, k * 8 / 8 = k := fun k => Nat.mul_div_cancel k (by decide)
  simp only [nunavutCopyBits, h1, h2, and_self, if_true, ne_eq, not_true_eq_false, if_false]

/-- The fragment of the buffer that starts behind `before` is copied where it is whole bytes. -/
theorem copyBits_fragment (dst : List UInt8) (dstByte : ℕ) (before data after : List UInt8) :
    nunavutCopyBits dst (dstByte * 8) (data.length * 8) (before ++ data ++ after)
      (before.length * 8) = overwrite dst dstByte data := by
  rw [copyBits_bytes, List.append_assoc, List.drop_left, List.take_left]

theorem saturate_fragment (before data after : List UInt8) :
    nunavutSaturateBufferFragmentBitLength (before ++ data ++ after).length (before.length * 8)
      (data.length * 8) = data.length * 8 := by
  apply saturate_of_le
  simp only [List.length_append]
  omega

/-- Reading a number gives back the one that was written. -/
theorem getUxx_fragment (width v : ℕ) (before after : List UInt8) :
    nunavutGetUxx width (before ++ leBytes width v ++ after)
      (before ++ leBytes width v ++ after).length (before.length * 8) (width * 8) =
      v % 256 ^ width := by
  have hsat := saturate_fragment before (leBytes width v) after
  have hcopy := copyBits_fragment (List.replicate width 0) 0 before (leBytes width v) after
  have hover : overwrite (List.replicate width 0) 0 (leBytes width v) = leBytes width v := by
    simp [overwrite]
  rw [leBytes_length] at hsat hcopy
  rw [Nat.zero_mul, hover] at hcopy
  rw [nunavutGetUxx, nunavutChooseMin_eq, min_self, hsat, hcopy, leValue_leBytes]

/-- Reading whole bytes leaves the memory behind them as it was. -/
theorem getBits_fragment (memory before data after : List UInt8) :
    nunavutGetBits memory (before ++ data ++ after) (before ++ data ++ after).length
      (before.length * 8) (data.length * 8) = data ++ memory.drop data.length := by
  have hsat := saturate_fragment before data after
  have hcopy := copyBits_fragment memory 0 before data after
  have hzero : (data.length * 8 + 7) / 8 - data.length * 8 / 8 = 0 := by omega
  have hover : overwrite memory 0 data = data ++ memory.drop data.length := by simp [overwrite]
  rw [Nat.zero_mul, hover] at hcopy
  rw [nunavutGetBits, hsat, hzero, List.replicate_zero, overwrite_nil, hcopy]

end CyphalOnboard
