import CyphalOnboard.Library.ByteBuffer
import Mathlib.Data.List.GetD

namespace ByteBuffer

def bit (bytes : List UInt8) (k : ℕ) : Bool := (bytes.getD (k / 8) 0).toBitVec.getLsbD (k % 8)

theorem bit_behind {bytes : List UInt8} {k : ℕ} (h : bytes.length * 8 ≤ k) :
    bit bytes k = false := by
  have hk : bytes.length ≤ k / 8 := by omega
  rw [bit, List.getD_eq_default _ _ hk]
  simp

/-- The bits of the bytes in range determine a buffer of known length. -/
theorem eq_of_bits {a b : List UInt8} (hlen : a.length = b.length)
    (h : ∀ k < a.length * 8, bit a k = bit b k) : a = b := by
  apply List.ext_getElem hlen
  intro i ha hb
  apply UInt8.toBitVec_inj.mp
  apply BitVec.eq_of_getLsbD_eq
  intro j hj
  have hbit := h (i * 8 + j) (by omega)
  have hdiv : (i * 8 + j) / 8 = i := by omega
  have hmod : (i * 8 + j) % 8 = j := by omega
  simpa only [bit, hdiv, hmod, List.getD_eq_getElem _ _ ha, List.getD_eq_getElem _ _ hb] using hbit

theorem bit_set {bytes : List UInt8} {i : ℕ} (h : i < bytes.length) (byte : UInt8) (k : ℕ) :
    bit (bytes.set i byte) k =
      if k / 8 = i then byte.toBitVec.getLsbD (k % 8) else bit bytes k := by
  by_cases hk : k / 8 = i
  · subst hk
    simp [bit, List.getD_eq_getElem?_getD, h]
  · have hne : i ≠ k / 8 := fun he => hk he.symm
    simp [bit, List.getD_eq_getElem?_getD, List.getElem?_set_ne hne, hk]

theorem bit_drop (bytes : List UInt8) (n k : ℕ) : bit (bytes.drop n) k = bit bytes (n * 8 + k) := by
  have hdiv : (n * 8 + k) / 8 = n + k / 8 := by omega
  have hmod : (n * 8 + k) % 8 = k % 8 := by omega
  simp only [bit, List.getD_eq_getElem?_getD, List.getElem?_drop, hdiv, hmod]

theorem bit_take (bytes : List UInt8) (n k : ℕ) :
    bit (bytes.take n) k = (decide (k < n * 8) && bit bytes k) := by
  by_cases h : k < n * 8
  · have hk : k / 8 < n := by omega
    simp [bit, List.getD_eq_getElem?_getD, hk, h]
  · have hk : ¬k / 8 < n := by omega
    simp [bit, List.getD_eq_getElem?_getD, hk, h]

theorem bit_append (a b : List UInt8) (k : ℕ) :
    bit (a ++ b) k = if k < a.length * 8 then bit a k else bit b (k - a.length * 8) := by
  split_ifs with h
  · have hk : k / 8 < a.length := by omega
    simp only [bit, List.getD_eq_getElem?_getD, List.getElem?_append_left hk]
  · have hk : a.length ≤ k / 8 := by omega
    have hdiv : (k - a.length * 8) / 8 = k / 8 - a.length := by omega
    have hmod : (k - a.length * 8) % 8 = k % 8 := by omega
    simp only [bit, List.getD_eq_getElem?_getD, List.getElem?_append_right hk, hdiv, hmod]

theorem bit_replicate_zero (n k : ℕ) : bit (List.replicate n 0) k = false := by
  by_cases h : k / 8 < n
  · simp [bit, List.getD_eq_getElem?_getD, h]
  · simp [bit, List.getD_eq_getElem?_getD, h]

theorem bit_overwrite {dst src : List UInt8} {off : ℕ} (h : off + src.length ≤ dst.length) (k : ℕ) :
    bit (overwrite dst off src) k =
      if off * 8 ≤ k ∧ k < (off + src.length) * 8 then bit src (k - off * 8) else bit dst k := by
  have htake : (dst.take off).length = off := by
    rw [List.length_take]
    omega
  rw [overwrite, List.append_assoc, bit_append, bit_append, bit_take, bit_drop, htake]
  by_cases h1 : k < off * 8
  · have hnot : ¬(off * 8 ≤ k ∧ k < (off + src.length) * 8) := by omega
    simp [h1, hnot]
  · by_cases h2 : k < (off + src.length) * 8
    · have hin : k - off * 8 < src.length * 8 := by omega
      have hfield : off * 8 ≤ k ∧ k < (off + src.length) * 8 := by omega
      rw [if_neg h1, if_pos hin, if_pos hfield]
    · have hout : ¬k - off * 8 < src.length * 8 := by omega
      have hnot : ¬(off * 8 ≤ k ∧ k < (off + src.length) * 8) := by omega
      have hback : (off + src.length) * 8 + (k - off * 8 - src.length * 8) = k := by omega
      rw [if_neg h1, if_neg hout, if_neg hnot, hback]

/-- The bits of a buffer are those of the number it holds. -/
theorem testBit_leValue (bytes : List UInt8) (k : ℕ) : (leValue bytes).testBit k = bit bytes k := by
  induction bytes generalizing k with
  | nil => simp [leValue, bit]
  | cons byte bytes ih =>
    have hbyte : byte.toNat < 2 ^ 8 := byte.toNat_lt
    have hvalue : leValue (byte :: bytes) = 2 ^ 8 * leValue bytes + byte.toNat := by
      rw [leValue]
      omega
    rw [hvalue, Nat.testBit_two_pow_mul_add _ hbyte, ← List.singleton_append, bit_append]
    split_ifs with h1 h2 h2
    · have hdiv : k / 8 = 0 := by omega
      have hmod : k % 8 = k := by omega
      simp only [bit, hdiv, hmod, List.getD_cons_zero]
      rfl
    · simp at h2
      omega
    · simp at h2
      omega
    · rw [ih]
      rfl

theorem bit_leBytes (n v k : ℕ) : bit (leBytes n v) k = (decide (k < n * 8) && v.testBit k) := by
  have hpow : 256 ^ n = 2 ^ (n * 8) := by
    rw [Nat.mul_comm, pow_mul]
    rfl
  rw [← testBit_leValue, leValue_leBytes, hpow, Nat.testBit_mod_two_pow]

/-- The number in the `len` bits from `off` on. -/
def field (bytes : List UInt8) (off len : ℕ) : ℕ := leValue bytes / 2 ^ off % 2 ^ len

theorem testBit_field (bytes : List UInt8) (off len k : ℕ) :
    (field bytes off len).testBit k = (decide (k < len) && bit bytes (off + k)) := by
  rw [field, Nat.testBit_mod_two_pow, Nat.testBit_div_two_pow, testBit_leValue, Nat.add_comm]

theorem field_congr {a b : List UInt8} {off len : ℕ}
    (h : ∀ k < len, bit a (off + k) = bit b (off + k)) : field a off len = field b off len := by
  apply Nat.eq_of_testBit_eq
  intro k
  rw [testBit_field, testBit_field]
  by_cases hk : k < len
  · rw [h k hk]
  · simp [hk]

/-- A field that holds the low bits of a number is this number, cut to the field. -/
theorem field_eq_mod {bytes : List UInt8} {off len v : ℕ}
    (h : ∀ k < len, bit bytes (off + k) = v.testBit k) : field bytes off len = v % 2 ^ len := by
  apply Nat.eq_of_testBit_eq
  intro k
  rw [testBit_field, Nat.testBit_mod_two_pow]
  by_cases hk : k < len
  · rw [h k hk]
  · simp [hk]

/-- The byte with `size` ones from bit `low` on. -/
theorem getLsbD_mask {size low : ℕ} (h : low + size ≤ 8) (j : ℕ) :
    (UInt8.ofNat ((2 ^ size - 1) * 2 ^ low)).toBitVec.getLsbD j =
      decide (low ≤ j ∧ j < low + size) := by
  rw [UInt8.toBitVec_ofNat', BitVec.getLsbD_ofNat, Nat.testBit_mul_two_pow,
    Nat.testBit_two_pow_sub_one]
  by_cases h1 : low ≤ j
  · by_cases h2 : j < low + size
    · have h8 : j < 8 := by omega
      have hin : j - low < size := by omega
      simp [h1, h2, h8, hin]
    · have hout : ¬j - low < size := by omega
      simp [h2, hout]
  · simp [h1]

/-- A byte whose masked bits are taken from another one. -/
theorem getLsbD_merge (a b mask : UInt8) (j : ℕ) (hj : j < 8) :
    ((a &&& ~~~mask) ||| (b &&& mask)).toBitVec.getLsbD j =
      if mask.toBitVec.getLsbD j then b.toBitVec.getLsbD j else a.toBitVec.getLsbD j := by
  simp only [UInt8.toBitVec_or, UInt8.toBitVec_and, UInt8.toBitVec_not, BitVec.getLsbD_or,
    BitVec.getLsbD_and, BitVec.getLsbD_not]
  cases mask.toBitVec.getLsbD j <;> simp [hj]

/-- The byte's bits from `right` on, moved up to `left`. -/
theorem getLsbD_shift (byte : UInt8) {right left : ℕ} (hr : right < 8) (hl : left < 8) (j : ℕ) :
    ((byte >>> UInt8.ofNat right) <<< UInt8.ofNat left).toBitVec.getLsbD j =
      (decide (j < 8 ∧ left ≤ j) && byte.toBitVec.getLsbD (right + (j - left))) := by
  have hright : (UInt8.ofNat right).toBitVec % 8 = BitVec.ofNat 8 right := by
    apply BitVec.eq_of_toNat_eq
    simp [UInt8.toBitVec_ofNat']
    omega
  have hleft : (UInt8.ofNat left).toBitVec % 8 = BitVec.ofNat 8 left := by
    apply BitVec.eq_of_toNat_eq
    simp [UInt8.toBitVec_ofNat']
    omega
  have hrn : right % 2 ^ 8 = right := Nat.mod_eq_of_lt (by omega)
  have hln : left % 2 ^ 8 = left := Nat.mod_eq_of_lt (by omega)
  rw [UInt8.toBitVec_shiftLeft, UInt8.toBitVec_shiftRight, hright, hleft,
    BitVec.shiftLeft_eq', BitVec.ushiftRight_eq', BitVec.toNat_ofNat, BitVec.toNat_ofNat, hrn, hln,
    BitVec.getLsbD_shiftLeft, BitVec.getLsbD_ushiftRight]
  by_cases h8 : j < 8 <;> by_cases hle : left ≤ j <;> simp [h8, hle]

/-- One byte of a buffer, replaced from bit `low` on in `size` bits. -/
theorem bit_set_merge {bytes : List UInt8} {i low size : ℕ} (hi : i < bytes.length)
    (h : low + size ≤ 8) (byte : UInt8) (k : ℕ) :
    bit (bytes.set i ((bytes.getD i 0 &&& ~~~UInt8.ofNat ((2 ^ size - 1) * 2 ^ low)) |||
        (byte &&& UInt8.ofNat ((2 ^ size - 1) * 2 ^ low)))) k =
      if i * 8 + low ≤ k ∧ k < i * 8 + low + size then byte.toBitVec.getLsbD (k - i * 8)
      else bit bytes k := by
  rw [bit_set hi, getLsbD_merge _ _ _ _ (Nat.mod_lt k (by decide)), getLsbD_mask h]
  by_cases hbyte : k / 8 = i
  · have hmod : k - i * 8 = k % 8 := by omega
    by_cases hin : i * 8 + low ≤ k ∧ k < i * 8 + low + size
    · have hmask : low ≤ k % 8 ∧ k % 8 < low + size := by omega
      simp only [hbyte, hin, hmask, hmod, and_self, decide_true, if_true]
    · have hmask : ¬(low ≤ k % 8 ∧ k % 8 < low + size) := by omega
      simp only [hbyte, hin, hmask, decide_false, Bool.false_eq_true, if_true, if_false, bit]
  · have hout : ¬(i * 8 + low ≤ k ∧ k < i * 8 + low + size) := by omega
    rw [if_neg hbyte, if_neg hout]

end ByteBuffer
