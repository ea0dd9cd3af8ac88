import CyphalOnboard.Library.BitBuffer
import CyphalOnboard.Nunavut

namespace CyphalOnboard

open ByteBuffer

def nunavutSetBit (buf : List UInt8) (bufSizeBytes offBits : ℕ) (value : Bool) :
    Except ℤ (List UInt8) :=
  if bufSizeBytes * 8 ≤ offBits then .error (-nunavutErrorSerializationBufferTooSmall)
  else
    let val : UInt8 := if value then 1 else 0
    .ok (nunavutCopyBits buf offBits 1 [val] 0)

def nunavutSetIxx (buf : List UInt8) (bufSizeBytes offBits : ℕ) (value : Int64) (lenBits : ℕ) :
    Except ℤ (List UInt8) :=
  nunavutSetUxx buf bufSizeBytes offBits value.toUInt64 lenBits

def nunavutGetU8 (buf : List UInt8) (bufSizeBytes offBits lenBits : ℕ) : ℕ :=
  nunavutGetUxx 1 buf bufSizeBytes offBits lenBits

def nunavutGetU32 (buf : List UInt8) (bufSizeBytes offBits lenBits : ℕ) : ℕ :=
  nunavutGetUxx 4 buf bufSizeBytes offBits lenBits

def nunavutGetU64 (buf : List UInt8) (bufSizeBytes offBits lenBits : ℕ) : ℕ :=
  nunavutGetUxx 8 buf bufSizeBytes offBits lenBits

def nunavutGetBit (buf : List UInt8) (bufSizeBytes offBits : ℕ) : Bool :=
  1 == nunavutGetU8 buf bufSizeBytes offBits 1

/-- The reader of a signed integer of `width` bytes. -/
def nunavutGetIxx (width : ℕ) (buf : List UInt8) (bufSizeBytes offBits lenBits : ℕ) : ℤ :=
  let sat := nunavutChooseMin lenBits (width * 8)
  let val := BitVec.ofNat (width * 8) (nunavutGetUxx width buf bufSizeBytes offBits sat)
  let neg : Bool := sat > 0 && (val &&& (1#(width * 8) <<< (sat - 1))) != 0
  let val := if sat < width * 8 ∧ neg then val ||| ~~~((1#(width * 8) <<< sat) - 1#(width * 8))
    else val
  if neg then -(~~~val).toInt - 1 else val.toInt

def nunavutGetI8 (buf : List UInt8) (bufSizeBytes offBits lenBits : ℕ) : ℤ :=
  nunavutGetIxx 1 buf bufSizeBytes offBits lenBits

def nunavutGetI16 (buf : List UInt8) (bufSizeBytes offBits lenBits : ℕ) : ℤ :=
  nunavutGetIxx 2 buf bufSizeBytes offBits lenBits

def nunavutGetI32 (buf : List UInt8) (bufSizeBytes offBits lenBits : ℕ) : ℤ :=
  nunavutGetIxx 4 buf bufSizeBytes offBits lenBits

def nunavutGetI64 (buf : List UInt8) (bufSizeBytes offBits lenBits : ℕ) : ℤ :=
  nunavutGetIxx 8 buf bufSizeBytes offBits lenBits

/-- What a copy of `len` bits from `sOff` to `dOff` leaves in the destination. -/
def Copied (dst : List UInt8) (dOff len : ℕ) (src : List UInt8) (sOff : ℕ)
    (out : List UInt8) : Prop :=
  out.length = dst.length ∧ ∀ k, bit out k =
    if dOff ≤ k ∧ k < dOff + len then bit src (sOff + (k - dOff)) else bit dst k

/-- A copy of `n` bits, then one of the `len - n` bits behind them. -/
theorem Copied.trans {dst mid out src : List UInt8} {dOff n len sOff : ℕ} (hn : n ≤ len)
    (h1 : Copied dst dOff n src sOff mid)
    (h2 : Copied mid (dOff + n) (len - n) src (sOff + n) out) :
    Copied dst dOff len src sOff out := by
  refine ⟨h2.1.trans h1.1, fun k => ?_⟩
  rw [h2.2 k, h1.2 k]
  by_cases hlow : dOff ≤ k ∧ k < dOff + n
  · have hnot : ¬(dOff + n ≤ k ∧ k < dOff + n + (len - n)) := by omega
    have hall : dOff ≤ k ∧ k < dOff + len := by omega
    rw [if_neg hnot, if_pos hlow, if_pos hall]
  · by_cases hhigh : dOff + n ≤ k ∧ k < dOff + n + (len - n)
    · have hall : dOff ≤ k ∧ k < dOff + len := by omega
      have hpos : sOff + n + (k - (dOff + n)) = sOff + (k - dOff) := by omega
      rw [if_pos hhigh, if_pos hall, hpos]
    · have hall : ¬(dOff ≤ k ∧ k < dOff + len) := by omega
      rw [if_neg hhigh, if_neg hlow, if_neg hall]

/-- One iteration of the unaligned copy: the bits up to the next byte boundary of either side. -/
theorem copied_iteration {dst src : List UInt8} {dOff sOff size : ℕ}
    (hs : sOff % 8 + size ≤ 8) (hd : dOff % 8 + size ≤ 8) (hroom : dOff / 8 < dst.length) :
    Copied dst dOff size src sOff
      (dst.set (dOff / 8)
        ((dst.getD (dOff / 8) 0 &&& ~~~UInt8.ofNat ((2 ^ size - 1) * 2 ^ (dOff % 8))) |||
          (((src.getD (sOff / 8) 0 >>> UInt8.ofNat (sOff % 8)) <<< UInt8.ofNat (dOff % 8)) &&&
            UInt8.ofNat ((2 ^ size - 1) * 2 ^ (dOff % 8))))) := by
  refine ⟨List.length_set, fun k => ?_⟩
  have hoff : dOff / 8 * 8 + dOff % 8 = dOff := by omega
  rw [bit_set_merge hroom hd, hoff]
  by_cases hin : dOff ≤ k ∧ k < dOff + size
  · have hr : sOff % 8 < 8 := Nat.mod_lt sOff (by decide)
    have hl : dOff % 8 < 8 := Nat.mod_lt dOff (by decide)
    have hbound : k - dOff / 8 * 8 < 8 ∧ dOff % 8 ≤ k - dOff / 8 * 8 := by omega
    have hdiv : (sOff + (k - dOff)) / 8 = sOff / 8 := by omega
    have hmod : (sOff + (k - dOff)) % 8 = sOff % 8 + (k - dOff / 8 * 8 - dOff % 8) := by omega
    rw [if_pos hin, if_pos hin, getLsbD_shift _ hr hl, decide_eq_true hbound, Bool.true_and, bit,
      hdiv, hmod]
  · rw [if_neg hin, if_neg hin]

theorem copied_zero (dst src : List UInt8) (dOff sOff : ℕ) : Copied dst dOff 0 src sOff dst := by
  refine ⟨rfl, fun k => ?_⟩
  have hnot : ¬(dOff ≤ k ∧ k < dOff + 0) := by omega
  rw [if_neg hnot]

/-- The loop copies the bits that are left, as long as there is room for them. -/
theorem copyUnaligned_copied (src : List UInt8) (lastBit : ℕ) (fuel sOff dOff : ℕ)
    (dst : List UInt8) (hfuel : lastBit - sOff ≤ fuel)
    (hroom : dOff + (lastBit - sOff) ≤ dst.length * 8) :
    Copied dst dOff (lastBit - sOff) src sOff (copyUnaligned src lastBit fuel sOff dOff dst) := by
  induction fuel generalizing sOff dOff dst with
  | zero =>
    have hnone : lastBit - sOff = 0 := by omega
    rw [hnone]
    exact copied_zero dst src dOff sOff
  | succ fuel ih =>
    rw [copyUnaligned]
    split_ifs with hmore
    · extract_lets srcMod dstMod maxMod size mask byteIn a b
      have hmax : srcMod ≤ maxMod ∧ dstMod ≤ maxMod := by
        simp only [maxMod]
        split_ifs <;> omega
      have hsize : size = min (8 - maxMod) (lastBit - sOff) := nunavutChooseMin_eq _ _
      have hmax8 : maxMod < 8 := by
        simp only [maxMod, srcMod, dstMod]
        split_ifs <;> omega
      have hstep : Copied dst dOff size src sOff (dst.set (dOff / 8) (a ||| b)) :=
        copied_iteration (by omega) (by omega) (by omega)
      have hleft : lastBit - sOff - size = lastBit - (sOff + size) := by omega
      apply hstep.trans (by omega)
      rw [hleft]
      apply ih _ _ _ (by omega)
      rw [List.length_set]
      omega
    · have hnone : lastBit - sOff = 0 := by omega
      rw [hnone]
      exact copied_zero dst src dOff sOff

theorem copyBits_zero (dst src : List UInt8) (dOff sOff : ℕ) :
    nunavutCopyBits dst dOff 0 src sOff = dst := by
  unfold nunavutCopyBits
  split_ifs with haligned
  · simp
  · rfl

/-- At byte boundaries the whole bytes are moved and the rest is merged into the byte behind. -/
theorem aligned_copied {dst src : List UInt8} {dOff len sOff : ℕ}
    (hs : sOff % 8 = 0) (hd : dOff % 8 = 0) (hsrc : sOff + len ≤ src.length * 8)
    (hdst : dOff + len ≤ dst.length * 8) :
    Copied dst dOff len src sOff (nunavutCopyBits dst dOff len src sOff) := by
  rw [nunavutCopyBits, if_pos ⟨hs, hd⟩]
  extract_lets lengthBytes psrc pdst moved lengthMod mask
  have htake : (psrc.take lengthBytes).length = lengthBytes := by
    simp only [psrc, lengthBytes, List.length_take, List.length_drop]
    omega
  have hfit : pdst + (psrc.take lengthBytes).length ≤ dst.length := by
    rw [htake]
    simp only [pdst, lengthBytes]
    omega
  have hbytes : Copied dst dOff (lengthBytes * 8) src sOff moved := by
    refine ⟨overwrite_length hfit, fun k => ?_⟩
    have hfrom : pdst * 8 = dOff := by omega
    have hto : (pdst + (psrc.take lengthBytes).length) * 8 = dOff + lengthBytes * 8 := by omega
    rw [bit_overwrite hfit, hfrom, hto]
    by_cases hin : dOff ≤ k ∧ k < dOff + lengthBytes * 8
    · have hk : k - dOff < lengthBytes * 8 := by omega
      have hpos : sOff / 8 * 8 + (k - dOff) = sOff + (k - dOff) := by omega
      rw [if_pos hin, if_pos hin, bit_take, bit_drop, decide_eq_true hk, Bool.true_and, hpos]
    · rw [if_neg hin, if_neg hin]
  have hrest : len - lengthBytes * 8 = lengthMod := by omega
  apply hbytes.trans (by omega)
  rw [hrest]
  split_ifs with hmod
  · refine ⟨List.length_set, fun k => ?_⟩
    have hmask : mask = UInt8.ofNat ((2 ^ lengthMod - 1) * 2 ^ 0) := by simp [mask]
    have hroom : pdst + lengthBytes < moved.length := by
      rw [hbytes.1]
      omega
    have hat : (pdst + lengthBytes) * 8 + 0 = dOff + lengthBytes * 8 := by omega
    rw [hmask, bit_set_merge hroom (by omega), hat]
    by_cases hin : dOff + lengthBytes * 8 ≤ k ∧ k < dOff + lengthBytes * 8 + lengthMod
    · have hdiv : (sOff + lengthBytes * 8 + (k - (dOff + lengthBytes * 8))) / 8 =
          sOff / 8 + lengthBytes := by omega
      have hk : (sOff + lengthBytes * 8 + (k - (dOff + lengthBytes * 8))) % 8 =
          k - (pdst + lengthBytes) * 8 := by omega
      rw [if_pos hin, if_pos hin, bit, hdiv, hk]
      simp only [psrc, List.getD_eq_getElem?_getD, List.getElem?_drop]
    · rw [if_neg hin, if_neg hin]
  · have hnone : lengthMod = 0 := by omega
    rw [hnone]
    exact copied_zero moved src _ _

/-- What is copied between two buffers that are large enough, at any offsets. -/
theorem copyBits_copied {dst src : List UInt8} {dOff len sOff : ℕ}
    (hsrc : sOff + len ≤ src.length * 8) (hdst : dOff + len ≤ dst.length * 8) :
    Copied dst dOff len src sOff (nunavutCopyBits dst dOff len src sOff) := by
  by_cases haligned : sOff % 8 = 0 ∧ dOff % 8 = 0
  · exact aligned_copied haligned.1 haligned.2 hsrc hdst
  · have hlen : sOff + len - sOff = len := by omega
    have hloop := copyUnaligned_copied src (sOff + len) len sOff dOff dst (by omega) (by omega)
    rw [nunavutCopyBits, if_neg haligned]
    rwa [hlen] at hloop

/-- Between any offsets exactly the addressed bits are copied, and the path for byte boundaries does
what the loop would. -/
theorem nunavutCopyBits_exact (dst src : List UInt8) (dOff len sOff : ℕ)
    (hsrc : sOff + len ≤ src.length * 8) (hdst : dOff + len ≤ dst.length * 8) :
    Copied dst dOff len src sOff (nunavutCopyBits dst dOff len src sOff) ∧
      nunavutCopyBits dst dOff len src sOff =
        copyUnaligned src (sOff + len) len sOff dOff dst := by
  have hlen : sOff + len - sOff = len := by omega
  have hcopy := copyBits_copied hsrc hdst
  have hloop := copyUnaligned_copied src (sOff + len) len sOff dOff dst (by omega) (by omega)
  rw [hlen] at hloop
  refine ⟨hcopy, eq_of_bits (hcopy.1.trans hloop.1.symm) ?_⟩
  intro k _
  rw [hcopy.2 k, hloop.2 k]

/-- Thirteen bits from bit 3 of a buffer to bit 6 of another one. -/
theorem nunavutCopyBits_exact_thirteen :
    Copied [0xFF, 0xFF, 0xFF] 6 13 [0x5A, 0x0C] 3
        (nunavutCopyBits [0xFF, 0xFF, 0xFF] 6 13 [0x5A, 0x0C] 3) ∧
      nunavutCopyBits [0xFF, 0xFF, 0xFF] 6 13 [0x5A, 0x0C] 3 =
        copyUnaligned [0x5A, 0x0C] 16 13 3 6 [0xFF, 0xFF, 0xFF] :=
  nunavutCopyBits_exact [0xFF, 0xFF, 0xFF] [0x5A, 0x0C] 6 13 3 (by decide) (by decide)

example : nunavutCopyBits [0xFF, 0xFF, 0xFF] 6 13 [0x5A, 0x0C] 3 = [0xFF, 0x62, 0xF8] := by
  decide +kernel

/-- An unsigned read is the number in the field; the bits behind the given size are zero. -/
theorem getUxx_eq {buf : List UInt8} {size : ℕ} (hsize : size ≤ buf.length) (width off len : ℕ) :
    nunavutGetUxx width buf size off len = field (buf.take size) off (min len (width * 8)) := by
  have hbits : nunavutSaturateBufferFragmentBitLength size off
      (nunavutChooseMin len (width * 8)) =
        min (min len (width * 8)) (size * 8 - min (size * 8) off) := by
    simp only [nunavutSaturateBufferFragmentBitLength, nunavutChooseMin_eq]
  rw [nunavutGetUxx, hbits]
  apply Nat.eq_of_testBit_eq
  intro k
  rw [testBit_leValue, testBit_field, bit_take]
  by_cases hin : off < size * 8
  · have hcopy : Copied (List.replicate width 0) 0
        (min (min len (width * 8)) (size * 8 - min (size * 8) off)) buf off
        (nunavutCopyBits (List.replicate width 0) 0
          (min (min len (width * 8)) (size * 8 - min (size * 8) off)) buf off) :=
      copyBits_copied (by omega) (by rw [List.length_replicate]; omega)
    rw [hcopy.2 k, bit_replicate_zero, Nat.sub_zero, Nat.zero_add]
    by_cases hk : k < min len (width * 8)
    · by_cases hend : off + k < size * 8
      · rw [if_pos (by omega), decide_eq_true hk, decide_eq_true hend, Bool.true_and,
          Bool.true_and]
      · rw [if_neg (by omega), decide_eq_false hend, Bool.false_and, Bool.and_false]
    · rw [if_neg (by omega), decide_eq_false hk, Bool.false_and]
  · have hnone : min (min len (width * 8)) (size * 8 - min (size * 8) off) = 0 := by omega
    have hend : ¬off + k < size * 8 := by omega
    rw [hnone, copyBits_zero, bit_replicate_zero, decide_eq_false hend, Bool.false_and,
      Bool.and_false]

/-- The test of the sign bit of a field of `sat` bits. -/
theorem signBit_ne_zero {w sat v : ℕ} (hpos : 0 < sat) (hsat : sat ≤ w) :
    ((BitVec.ofNat w v &&& (1#w <<< (sat - 1))) != 0) = v.testBit (sat - 1) := by
  have hmask : 1#w <<< (sat - 1) = BitVec.twoPow w (sat - 1) := rfl
  have hin : sat - 1 < w := by omega
  have hone : BitVec.twoPow w (sat - 1) ≠ 0#w := by
    intro hzero
    have hbit := congrArg (BitVec.getLsbD · (sat - 1)) hzero
    simp [hin] at hbit
  rw [hmask, BitVec.and_twoPow, BitVec.getLsbD_ofNat, decide_eq_true hin, Bool.true_and]
  cases v.testBit (sat - 1) <;> simp [hone]

/-- The complement of a negative number, sign-extended to the whole register. -/
theorem not_extended {w sat v : ℕ} (hsat : sat < w) (hv : v < 2 ^ sat) :
    ~~~(BitVec.ofNat w v ||| ~~~((1#w <<< sat) - 1#w)) = BitVec.ofNat w (2 ^ sat - (v + 1)) := by
  have hpow : 2 ^ sat < 2 ^ w := Nat.pow_lt_pow_right (by decide) hsat
  have hpos : 0 < 2 ^ sat := Nat.two_pow_pos sat
  have hmask : (1#w <<< sat) - 1#w = BitVec.ofNat w (2 ^ sat - 1) := by
    have hshift : 1#w <<< sat = BitVec.ofNat w (2 ^ sat) := by
      apply BitVec.eq_of_toNat_eq
      rw [BitVec.toNat_shiftLeft, BitVec.toNat_ofNat, BitVec.toNat_ofNat, Nat.one_mod_two_pow
        (by omega), Nat.one_shiftLeft]
    rw [hshift, BitVec.ofNat_sub_ofNat_of_le _ _ (by omega) (by omega)]
  apply BitVec.eq_of_getLsbD_eq
  intro i hi
  rw [hmask, BitVec.getLsbD_not, BitVec.getLsbD_or, BitVec.getLsbD_not, BitVec.getLsbD_ofNat,
    BitVec.getLsbD_ofNat, BitVec.getLsbD_ofNat, Nat.testBit_two_pow_sub_one,
    Nat.testBit_two_pow_sub_succ hv]
  simp [hi]
  cases v.testBit i <;> simp

theorem not_ofNat {w v : ℕ} (hv : v < 2 ^ w) :
    ~~~BitVec.ofNat w v = BitVec.ofNat w (2 ^ w - (v + 1)) := by
  apply BitVec.eq_of_getLsbD_eq
  intro i hi
  rw [BitVec.getLsbD_not, BitVec.getLsbD_ofNat, BitVec.getLsbD_ofNat,
    Nat.testBit_two_pow_sub_succ hv]
  simp [hi]

theorem toInt_ofNat_of_lt {w v : ℕ} (h : 2 * v < 2 ^ w) : (BitVec.ofNat w v).toInt = v := by
  have hmod : v % 2 ^ w = v := Nat.mod_eq_of_lt (by omega)
  rw [BitVec.toInt_eq_toNat_of_lt (by rw [BitVec.toNat_ofNat, hmod]; exact h),
    BitVec.toNat_ofNat, hmod]

/-- Without its sign bit a field of `n + 1` bits is a number below `2 ^ n`, with it one above. -/
theorem testBit_top {n v : ℕ} (hv : v < 2 ^ (n + 1)) : v.testBit n = decide (2 ^ n ≤ v) := by
  cases hbit : v.testBit n with
  | true => exact (decide_eq_true (Nat.ge_two_pow_of_testBit hbit)).symm
  | false =>
    have hlt : v < 2 ^ n := by
      apply Nat.lt_pow_two_of_testBit
      intro i hi
      rcases Nat.eq_or_lt_of_le hi with rfl | hi
      · exact hbit
      · exact Nat.testBit_lt_two_pow (hv.trans_le (Nat.pow_le_pow_right (by decide) hi))
    exact (decide_eq_false (by omega)).symm

/-- A signed read is the two's complement number in the field. -/
theorem getIxx_eq {buf : List UInt8} {size : ℕ} (hsize : size ≤ buf.length) (width off len : ℕ) :
    nunavutGetIxx width buf size off len =
      Int.bmod (field (buf.take size) off (min len (width * 8))) (2 ^ min len (width * 8)) := by
  rw [nunavutGetIxx, nunavutChooseMin_eq, getUxx_eq hsize, min_assoc, min_self]
  generalize hv : field (buf.take size) off (min len (width * 8)) = v
  have hlt : v < 2 ^ min len (width * 8) := hv ▸ Nat.mod_lt _ (Nat.two_pow_pos _)
  have hsat : min len (width * 8) ≤ width * 8 := min_le_right _ _
  generalize min len (width * 8) = sat at hlt hsat
  cases sat with
  | zero =>
    have hzero : v = 0 := by omega
    subst hzero
    simp
  | succ n =>
    have hsign := signBit_ne_zero (v := v) (Nat.zero_lt_succ n) hsat
    have hpow : 2 ^ (n + 1) = 2 * 2 ^ n := by ring
    have hfull : 2 ^ (n + 1) ≤ 2 ^ (width * 8) := Nat.pow_le_pow_right (by decide) hsat
    have hcast : (v : ℤ) % ((2 ^ (n + 1) : ℕ) : ℤ) = v := by
      rw [← Int.natCast_mod, Nat.mod_eq_of_lt hlt]
    rw [Nat.succ_eq_add_one, Nat.add_sub_cancel, testBit_top hlt] at hsign
    simp only [Nat.add_sub_cancel, hsign, gt_iff_lt, Nat.succ_pos, decide_true, Bool.true_and,
      decide_eq_true_eq, Int.bmod_def, hcast]
    by_cases hneg : 2 ^ n ≤ v
    · have hnot : ~~~(if n + 1 < width * 8 ∧ 2 ^ n ≤ v then
          BitVec.ofNat (width * 8) v ||| ~~~(1#(width * 8) <<< (n + 1) - 1#(width * 8))
          else BitVec.ofNat (width * 8) v) =
            BitVec.ofNat (width * 8) (2 ^ (n + 1) - (v + 1)) := by
        split_ifs with hext
        · exact not_extended hext.1 hlt
        · have heq : n + 1 = width * 8 := by omega
          rw [heq] at hlt ⊢
          exact not_ofNat hlt
      rw [if_pos hneg, hnot, toInt_ofNat_of_lt (by omega), if_neg (by omega)]
      omega
    · rw [if_neg hneg, if_neg (fun h => hneg h.2), toInt_ofNat_of_lt (by omega),
        if_pos (by omega)]

/-- A bulk read: the field, zeros up to the next byte boundary, and the memory behind it. -/
theorem getBits_bits {output buf : List UInt8} {size off len : ℕ} (hsize : size ≤ buf.length)
    (hroom : (len + 7) / 8 ≤ output.length) :
    (nunavutGetBits output buf size off len).length = output.length ∧
      ∀ k, bit (nunavutGetBits output buf size off len) k =
        if k < (len + 7) / 8 * 8 then decide (k < len) && bit (buf.take size) (off + k)
        else bit output k := by
  have hsat : nunavutSaturateBufferFragmentBitLength size off len =
      min len (size * 8 - min (size * 8) off) := by
    simp only [nunavutSaturateBufferFragmentBitLength, nunavutChooseMin_eq]
  rw [nunavutGetBits, hsat]
  generalize hsatBits : min len (size * 8 - min (size * 8) off) = satBits
  have hfit : satBits / 8 + (List.replicate ((len + 7) / 8 - satBits / 8) (0 : UInt8)).length ≤
      output.length := by
    rw [List.length_replicate]
    omega
  generalize hclear : overwrite output (satBits / 8)
    (List.replicate ((len + 7) / 8 - satBits / 8) 0) = cleared
  have hlen : cleared.length = output.length := hclear ▸ overwrite_length hfit
  have hcleared : ∀ k, bit cleared k =
      if satBits / 8 * 8 ≤ k ∧ k < (len + 7) / 8 * 8 then false else bit output k := by
    intro k
    have hend : satBits / 8 + ((len + 7) / 8 - satBits / 8) = (len + 7) / 8 := by omega
    rw [← hclear, bit_overwrite hfit, bit_replicate_zero, List.length_replicate, hend]
  have hcopy : Copied cleared 0 satBits buf off (nunavutCopyBits cleared 0 satBits buf off) := by
    by_cases hin : off < size * 8
    · exact copyBits_copied (by omega) (by omega)
    · have hnone : satBits = 0 := by omega
      rw [hnone, copyBits_zero]
      exact copied_zero cleared buf 0 off
  refine ⟨hcopy.1.trans hlen, fun k => ?_⟩
  rw [hcopy.2 k, hcleared k, bit_take, Nat.sub_zero, Nat.zero_add]
  by_cases hk : k < satBits
  · have hlast : k < len ∧ off + k < size * 8 := by omega
    rw [if_pos (by omega), if_pos (by omega), decide_eq_true hlast.1, decide_eq_true hlast.2,
      Bool.true_and, Bool.true_and]
  · rw [if_neg (by omega)]
    by_cases hpad : k < (len + 7) / 8 * 8
    · have hzero : (decide (k < len) && (decide (off + k < size * 8) && bit buf (off + k))) =
          false := by
        by_cases hlast : k < len
        · have hout : ¬off + k < size * 8 := by omega
          rw [decide_eq_false hout, Bool.false_and, Bool.and_false]
        · rw [decide_eq_false hlast, Bool.false_and]
      rw [if_pos (by omega), if_pos hpad, hzero]
    · rw [if_neg (by omega), if_neg hpad]

/-- The bits behind the end of a buffer are read as if zeros followed it, by every getter. -/
theorem implicit_zero_extension (output buf : List UInt8) (size off len width n : ℕ)
    (hsize : size ≤ buf.length) (hroom : (len + 7) / 8 ≤ output.length) :
    nunavutGetUxx width buf size off len =
        nunavutGetUxx width (buf.take size ++ List.replicate n 0) (size + n) off len ∧
      nunavutGetIxx width buf size off len =
        nunavutGetIxx width (buf.take size ++ List.replicate n 0) (size + n) off len ∧
      nunavutGetBit buf size off =
        nunavutGetBit (buf.take size ++ List.replicate n 0) (size + n) off ∧
      nunavutGetBits output buf size off len =
        nunavutGetBits output (buf.take size ++ List.replicate n 0) (size + n) off len := by
  have hlen : (buf.take size ++ List.replicate n (0 : UInt8)).length = size + n := by
    rw [List.length_append, List.length_take, List.length_replicate]
    omega
  have hbits : ∀ k, bit (buf.take size) k =
      bit ((buf.take size ++ List.replicate n 0).take (size + n)) k := by
    intro k
    rw [← hlen, List.take_length, bit_append, bit_replicate_zero]
    split_ifs with hk
    · rfl
    · exact bit_behind (by omega)
  have hfield : ∀ len, field (buf.take size) off len =
      field ((buf.take size ++ List.replicate n 0).take (size + n)) off len :=
    fun len => field_congr fun k _ => hbits (off + k)
  refine ⟨?_, ?_, ?_, ?_⟩
  · rw [getUxx_eq hsize, getUxx_eq hlen.ge, hfield]
  · rw [getIxx_eq hsize, getIxx_eq hlen.ge, hfield]
  · rw [nunavutGetBit, nunavutGetBit, nunavutGetU8, nunavutGetU8, getUxx_eq hsize,
      getUxx_eq hlen.ge, hfield]
  · have hplain := @getBits_bits output buf size off len hsize hroom
    have hpadded := @getBits_bits output _ (size + n) off len hlen.ge hroom
    apply eq_of_bits (hplain.1.trans hpadded.1.symm)
    intro k _
    rw [hplain.2 k, hpadded.2 k, hbits]

/-- Sixteen bits of which the buffer holds the first three. -/
theorem implicit_zero_extension_three_bits :
    nunavutGetUxx 2 [0x00, 0xA0] 2 13 16 = nunavutGetUxx 2 [0x00, 0xA0, 0x00, 0x00] 4 13 16 :=
  (implicit_zero_extension [0, 0] [0x00, 0xA0] 2 13 16 2 2 (by decide) (by decide)).1

end CyphalOnboard
