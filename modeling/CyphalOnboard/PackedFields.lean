import CyphalOnboard.NunavutBits
import Mathlib.Data.List.Perm.Basic

namespace CyphalOnboard

open ByteBuffer

inductive PrimitiveField where
  | bool (value : Bool)
  | unsigned (value : UInt64) (lenBits : ℕ)
  | signed (value : Int64) (lenBits : ℕ)

namespace PrimitiveField

def lenBits : PrimitiveField → ℕ
  | bool _ => 1
  | unsigned _ lenBits => lenBits
  | signed _ lenBits => lenBits

/-- The setter of the field's kind. -/
def set (buf : List UInt8) (offBits : ℕ) : PrimitiveField → Except ℤ (List UInt8)
  | bool value => nunavutSetBit buf buf.length offBits value
  | unsigned value lenBits => nunavutSetUxx buf buf.length offBits value lenBits
  | signed value lenBits => nunavutSetIxx buf buf.length offBits value lenBits

/-- What the widest getter of the field's kind answers. A field holds at most 64 bits. -/
def ReadBack (buf : List UInt8) (offBits : ℕ) : PrimitiveField → Prop
  | bool value => nunavutGetBit buf buf.length offBits = value
  | unsigned value lenBits =>
    nunavutGetU64 buf buf.length offBits lenBits = value.toNat % 2 ^ min lenBits 64
  | signed value lenBits =>
    nunavutGetI64 buf buf.length offBits lenBits = Int.bmod value.toInt (2 ^ min lenBits 64)

/-- The bits the setter moves into the buffer. -/
def pattern : PrimitiveField → ℕ
  | bool value => value.toNat
  | unsigned value _ => value.toNat
  | signed value _ => value.toUInt64.toNat

/-- The field lies at `off` in the buffer `out` that was `buf` before. -/
def StoredIn (buf : List UInt8) (off : ℕ) (field : PrimitiveField) (out : List UInt8) : Prop :=
  out.length = buf.length ∧ ∀ k, bit out k =
    if off ≤ k ∧ k < off + min field.lenBits 64 then field.pattern.testBit (k - off)
    else bit buf k

end PrimitiveField

/-- One setter after the other, until one fails. -/
def setFields (buf : List UInt8) (fields : List (ℕ × PrimitiveField)) : Except ℤ (List UInt8) :=
  fields.foldlM (fun buf f => f.2.set buf f.1) buf

theorem storedIn_setUxx {buf : List UInt8} {off len : ℕ} (value : UInt64)
    (hfit : off + len ≤ buf.length * 8) :
    ∃ out, nunavutSetUxx buf buf.length off value len = .ok out ∧ out.length = buf.length ∧
      ∀ k, bit out k = if off ≤ k ∧ k < off + min len 64 then value.toNat.testBit (k - off)
        else bit buf k := by
  have hcopy : Copied buf off (min len 64) (leBytes 8 value.toNat) 0
      (nunavutCopyBits buf off (min len 64) (leBytes 8 value.toNat) 0) :=
    copyBits_copied (by rw [leBytes_length]; omega) (by omega)
  refine ⟨_, ?_, hcopy.1, fun k => ?_⟩
  · rw [nunavutSetUxx, if_neg (by omega), nunavutChooseMin_eq]
  · rw [hcopy.2 k]
    by_cases hin : off ≤ k ∧ k < off + min len 64
    · have hk : 0 + (k - off) < 8 * 8 := by omega
      rw [if_pos hin, if_pos hin, bit_leBytes, decide_eq_true hk, Bool.true_and, Nat.zero_add]
    · rw [if_neg hin, if_neg hin]

theorem storedIn_setBit {buf : List UInt8} {off : ℕ} (value : Bool)
    (hfit : off + 1 ≤ buf.length * 8) :
    ∃ out, nunavutSetBit buf buf.length off value = .ok out ∧ out.length = buf.length ∧
      ∀ k, bit out k = if off ≤ k ∧ k < off + 1 then value.toNat.testBit (k - off)
        else bit buf k := by
  have hcopy : Copied buf off 1 [if value then 1 else 0] 0
      (nunavutCopyBits buf off 1 [if value then 1 else 0] 0) :=
    copyBits_copied (by simp) hfit
  refine ⟨_, ?_, hcopy.1, fun k => ?_⟩
  · rw [nunavutSetBit, if_neg (by omega)]
  · rw [hcopy.2 k]
    by_cases hin : off ≤ k ∧ k < off + 1
    · have hk : k - off = 0 := by omega
      rw [if_pos hin, if_pos hin, hk]
      cases value <;> rfl
    · rw [if_neg hin, if_neg hin]

/-- A setter either has no room for its field or stores it. -/
theorem set_cases (buf : List UInt8) (off : ℕ) (field : PrimitiveField) :
    (buf.length * 8 < off + field.lenBits ∧
        field.set buf off = .error (-nunavutErrorSerializationBufferTooSmall)) ∨
      (off + field.lenBits ≤ buf.length * 8 ∧
        ∃ out, field.set buf off = .ok out ∧ field.StoredIn buf off out) := by
  by_cases hfit : off + field.lenBits ≤ buf.length * 8
  · right
    refine ⟨hfit, ?_⟩
    cases field with
    | bool value => exact storedIn_setBit value hfit
    | unsigned value len => exact storedIn_setUxx value hfit
    | signed value len => exact storedIn_setUxx value.toUInt64 hfit
  · left
    refine ⟨by omega, ?_⟩
    cases field with
    | bool value =>
      have hout : buf.length * 8 ≤ off := by
        simp only [PrimitiveField.lenBits] at hfit
        omega
      exact if_pos hout
    | unsigned value len =>
      have hout : buf.length * 8 < off + len := by
        simp only [PrimitiveField.lenBits] at hfit
        omega
      exact if_pos hout
    | signed value len =>
      have hout : buf.length * 8 < off + len := by
        simp only [PrimitiveField.lenBits] at hfit
        omega
      exact if_pos hout

/-- A number and its two's complement pattern agree in the low bits. -/
theorem bmod_pattern (value : Int64) {n : ℕ} (h : n ≤ 64) :
    Int.bmod (value.toUInt64.toNat : ℤ) (2 ^ n) = Int.bmod value.toInt (2 ^ n) := by
  have hint : value.toInt = Int.bmod (value.toUInt64.toNat : ℤ) (2 ^ 64) :=
    BitVec.toInt_eq_toNat_bmod value.toBitVec
  rw [hint, Int.bmod_bmod_of_dvd (Nat.pow_dvd_pow 2 h)]

/-- A stored field is read back. -/
theorem readBack_of_pattern {buf : List UInt8} {off : ℕ} {field : PrimitiveField}
    (h : ∀ k < min field.lenBits 64, bit buf (off + k) = field.pattern.testBit k) :
    field.ReadBack buf off := by
  have hfield := field_eq_mod h
  cases field with
  | bool value =>
    have hread : nunavutGetU8 buf buf.length off 1 = value.toNat % 2 ^ 1 := by
      rw [nunavutGetU8, getUxx_eq le_rfl, List.take_length]
      exact hfield
    rw [PrimitiveField.ReadBack, nunavutGetBit, hread]
    cases value <;> rfl
  | unsigned value len =>
    rw [PrimitiveField.ReadBack, nunavutGetU64, getUxx_eq le_rfl, List.take_length]
    exact hfield
  | signed value len =>
    rw [PrimitiveField.ReadBack, nunavutGetI64, getIxx_eq le_rfl, List.take_length,
      ← bmod_pattern value (min_le_right len 64)]
    have hmod : field buf off (min len (8 * 8)) = value.toUInt64.toNat % 2 ^ min len 64 := hfield
    rw [hmod, Int.natCast_mod]
    exact Int.emod_bmod _ _

/-- Two fields of a record that share no bit. -/
def Apart (f g : ℕ × PrimitiveField) : Prop :=
  f.1 + f.2.lenBits ≤ g.1 ∨ g.1 + g.2.lenBits ≤ f.1

/-- The bits a field occupies. -/
def Covers (f : ℕ × PrimitiveField) (k : ℕ) : Prop := f.1 ≤ k ∧ k < f.1 + min f.2.lenBits 64

theorem Apart.symm {f g : ℕ × PrimitiveField} (h : Apart f g) : Apart g f := Or.symm h

theorem Apart.not_covers {f g : ℕ × PrimitiveField} (h : Apart f g) {k : ℕ} (hk : Covers f k) :
    ¬Covers g k := by
  rintro ⟨hlow, hhigh⟩
  obtain ⟨hlow', hhigh'⟩ := hk
  rcases h with h | h <;> omega

theorem setFields_cons (buf : List UInt8) (f : ℕ × PrimitiveField)
    (fields : List (ℕ × PrimitiveField)) :
    setFields buf (f :: fields) = f.2.set buf f.1 >>= fun out => setFields out fields :=
  rfl

/-- A record whose fields fit: each field's bits, and all others as they were. -/
theorem setFields_stored {buf : List UInt8} {fields : List (ℕ × PrimitiveField)}
    (hapart : fields.Pairwise Apart)
    (hfit : ∀ f ∈ fields, f.1 + f.2.lenBits ≤ buf.length * 8) :
    ∃ out, setFields buf fields = .ok out ∧ out.length = buf.length ∧
      (∀ f ∈ fields, ∀ k < min f.2.lenBits 64, bit out (f.1 + k) = f.2.pattern.testBit k) ∧
      ∀ k, (∀ f ∈ fields, ¬Covers f k) → bit out k = bit buf k := by
  induction fields generalizing buf with
  | nil => exact ⟨buf, rfl, rfl, List.forall_mem_nil _, fun _ _ => rfl⟩
  | cons f fields ih =>
    obtain ⟨hhead, htail⟩ := List.pairwise_cons.mp hapart
    rcases set_cases buf f.1 f.2 with ⟨hout, _⟩ | ⟨_, mid, hset, hlen, hmid⟩
    · have hin := hfit f List.mem_cons_self
      omega
    have hfit' : ∀ g ∈ fields, g.1 + g.2.lenBits ≤ mid.length * 8 := by
      intro g hg
      rw [hlen]
      exact hfit g (List.mem_cons_of_mem f hg)
    obtain ⟨out, hrest, hlenOut, hstored, hother⟩ := ih htail hfit'
    refine ⟨out, ?_, hlenOut.trans hlen, ?_, ?_⟩
    · rw [setFields_cons, hset]
      exact hrest
    · intro g hg k hk
      rcases List.mem_cons.mp hg with rfl | hg
      · have hcovers : Covers g (g.1 + k) := ⟨by omega, by omega⟩
        have hkeep := hother (g.1 + k) fun e he => (hhead e he).not_covers hcovers
        have hpos : g.1 + k - g.1 = k := by omega
        rw [hkeep, (hmid _).trans (if_pos hcovers), hpos]
      · exact hstored g hg k hk
    · intro k hk
      have hkeep := hother k fun g hg => hk g (List.mem_cons_of_mem f hg)
      rw [hkeep, (hmid _).trans (if_neg (hk f List.mem_cons_self))]

theorem setFields_error {buf : List UInt8} {fields : List (ℕ × PrimitiveField)}
    (hout : ∃ f ∈ fields, buf.length * 8 < f.1 + f.2.lenBits) :
    setFields buf fields = .error (-nunavutErrorSerializationBufferTooSmall) := by
  induction fields generalizing buf with
  | nil => simp at hout
  | cons f fields ih =>
    rw [setFields_cons]
    rcases set_cases buf f.1 f.2 with ⟨_, hset⟩ | ⟨hin, mid, hset, hlen, _⟩
    · rw [hset]
      rfl
    · obtain ⟨g, hg, hbehind⟩ := hout
      have hrest : g ∈ fields := by
        rcases List.mem_cons.mp hg with rfl | hg
        · omega
        · exact hg
      rw [hset]
      exact ih ⟨g, hrest, by rw [hlen]; exact hbehind⟩

/-- Fields of a record that share no bit are refused together, or all of them are read back as
they were set, nothing else in the buffer has changed, and any order of setting them has the
same result. The ends of the fields are below `2 ^ 64`, so that no offset wraps a `size_t`. -/
theorem packed_fields_roundTrip (buf : List UInt8) (fields : List (ℕ × PrimitiveField))
    (hapart : fields.Pairwise Apart) :
    ((∃ f ∈ fields, buf.length * 8 < f.1 + f.2.lenBits) →
        setFields buf fields = .error (-nunavutErrorSerializationBufferTooSmall)) ∧
      ((∀ f ∈ fields, f.1 + f.2.lenBits ≤ buf.length * 8) →
        ∃ out, setFields buf fields = .ok out ∧ out.length = buf.length ∧
          (∀ f ∈ fields, f.2.ReadBack out f.1) ∧
          (∀ k, (∀ f ∈ fields, ¬Covers f k) → bit out k = bit buf k) ∧
          ∀ fields', fields'.Perm fields → setFields buf fields' = .ok out) := by
  refine ⟨setFields_error, fun hfit => ?_⟩
  obtain ⟨out, hset, hlen, hstored, hother⟩ := setFields_stored hapart hfit
  refine ⟨out, hset, hlen, fun f hf => readBack_of_pattern (hstored f hf), hother, ?_⟩
  intro fields' hperm
  have hapart' : fields'.Pairwise Apart := (hperm.pairwise_iff Apart.symm).mpr hapart
  have hfit' : ∀ f ∈ fields', f.1 + f.2.lenBits ≤ buf.length * 8 :=
    fun f hf => hfit f (hperm.mem_iff.mp hf)
  obtain ⟨out', hset', hlen', hstored', hother'⟩ := setFields_stored hapart' hfit'
  have hsame : out' = out := by
    apply eq_of_bits (hlen'.trans hlen.symm)
    intro k _
    by_cases hcovered : ∃ f ∈ fields, Covers f k
    · obtain ⟨f, hf, hlow, hhigh⟩ := hcovered
      have hk : f.1 + (k - f.1) = k := by omega
      rw [← hk, hstored f hf (k - f.1) (by omega),
        hstored' f (hperm.mem_iff.mpr hf) (k - f.1) (by omega)]
    · have hnone : ∀ f ∈ fields, ¬Covers f k := fun f hf hk => hcovered ⟨f, hf, hk⟩
      rw [hother k hnone, hother' k fun f hf => hnone f (hperm.mem_iff.mp hf)]
  rw [hset', hsame]

/-- A flag, a signed field of five bits and a field of eleven bits across a byte boundary. -/
theorem packed_fields_roundTrip_three :
    ∃ out, setFields [0xFF, 0xFF, 0xFF]
        [(2, .bool false), (3, .signed (-7) 5), (9, .unsigned 0x5A3 11)] = .ok out ∧
      nunavutGetI64 out out.length 3 5 = -7 ∧ nunavutGetU64 out out.length 9 11 = 0x5A3 := by
  have hapart : List.Pairwise Apart
      [(2, .bool false), (3, .signed (-7) 5), (9, .unsigned 0x5A3 11)] := by
    simp [Apart, PrimitiveField.lenBits]
  obtain ⟨out, hset, _, hread, _⟩ :=
    (packed_fields_roundTrip [0xFF, 0xFF, 0xFF] _ hapart).2 (by simp [PrimitiveField.lenBits])
  refine ⟨out, hset, ?_, ?_⟩
  · exact (hread (3, .signed (-7) 5) (by simp)).trans (by decide)
  · exact (hread (9, .unsigned 0x5A3 11) (by simp)).trans (by decide)

end CyphalOnboard
