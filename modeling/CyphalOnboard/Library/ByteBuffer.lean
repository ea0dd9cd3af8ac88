import Mathlib.Data.List.Basic
import Mathlib.Tactic.Ring

namespace ByteBuffer

variable {α : Type*}

/-- `memmove` of `src` to the offset `off` of a buffer that has room for it. -/
def overwrite (dst : List α) (off : ℕ) (src : List α) : List α :=
  dst.take off ++ src ++ dst.drop (off + src.length)

theorem overwrite_length {dst src : List α} {off : ℕ} (h : off + src.length ≤ dst.length) :
    (overwrite dst off src).length = dst.length := by
  simp only [overwrite, List.length_append, List.length_take, List.length_drop]
  omega

/-- The write behind what is already written. -/
theorem overwrite_append (done rest src : List α) :
    overwrite (done ++ rest) done.length src = done ++ src ++ rest.drop src.length := by
  rw [overwrite, List.take_left, ← List.drop_drop, List.drop_left]

@[simp] theorem overwrite_nil (dst : List α) (off : ℕ) : overwrite dst off [] = dst := by
  simp [overwrite]

/-- The `n` low bytes of a number, lowest first. -/
def leBytes : (n v : ℕ) → List UInt8
  | 0, _ => []
  | n + 1, v => UInt8.ofNat v :: leBytes n (v / 256)

def leValue : List UInt8 → ℕ
  | [] => 0
  | b :: bs => b.toNat + 256 * leValue bs

@[simp] theorem leBytes_length (n v : ℕ) : (leBytes n v).length = n := by
  induction n generalizing v with
  | zero => rfl
  | succ n ih => simp only [leBytes, List.length_cons, ih]

theorem leValue_leBytes (n v : ℕ) : leValue (leBytes n v) = v % 256 ^ n := by
  induction n generalizing v with
  | zero => simp [leBytes, leValue, Nat.mod_one]
  | succ n ih =>
    have hb : (UInt8.ofNat v).toNat = v % 256 := UInt8.toNat_ofNat'
    rw [leBytes, leValue, ih, hb, pow_succ', Nat.mod_mul]

end ByteBuffer
