import Mathlib.Data.Fin.Basic
import Mathlib.Data.List.Basic
import Mathlib.Data.Nat.ModEq
import Mathlib.Logic.Function.Basic

namespace SlotRing

variable {α : Type*} {n : ℕ} [NeZero n] {ring : Fin n → α} {log : List α}

/-- Each of the last `n` entries is in the slot of its number. -/
def Holds (ring : Fin n → α) (log : List α) : Prop :=
  ∀ k x, log[k]? = some x → log.length ≤ k + n → ring (Fin.ofNat n k) = x

theorem holds_nil (ring : Fin n → α) : Holds ring [] := by
  intro k x h
  simp at h

/-- Two entries less than `n` apart have different slots. -/
theorem ofNat_ne_of_window {k l : ℕ} (hkl : k < l) (hl : l < k + n) :
    Fin.ofNat n k ≠ Fin.ofNat n l := by
  intro h
  have hmod : k ≡ l [MOD n] := congrArg Fin.val h
  have hdvd : n ∣ l - k := (Nat.modEq_iff_dvd' hkl.le).mp hmod
  have hle : n ≤ l - k := Nat.le_of_dvd (by omega) hdvd
  omega

/-- A new entry takes the slot of the one that is `n` older. -/
theorem Holds.push (h : Holds ring log) (x : α) :
    Holds (Function.update ring (Fin.ofNat n log.length) x) (log ++ [x]) := by
  intro k y hk hwindow
  rw [List.length_append, List.length_singleton] at hwindow
  -- the new entry, or one of the `n - 1` before it, whose slots are others
  by_cases hlast : k = log.length
  · subst hlast
    rw [List.getElem?_concat_length] at hk
    rw [Function.update_self]
    exact Option.some.inj hk
  · have hlt : k < log.length := by
      have := (List.getElem?_eq_some_iff.mp hk).1
      rw [List.length_append, List.length_singleton] at this
      omega
    rw [List.getElem?_append_left hlt] at hk
    rw [Function.update_of_ne (ofNat_ne_of_window hlt (by omega))]
    exact h k y hk (by omega)

/-- Reading by a tag that agrees with the number of the entry. -/
theorem Holds.read (h : Holds ring log) {k : ℕ} {x : α} (hk : log[k]? = some x)
    (hwindow : log.length ≤ k + n) {tag : Fin n} (htag : tag.val = k % n) : ring tag = x := by
  rw [← h k x hk hwindow]
  exact congrArg ring (Fin.ext htag)

end SlotRing
