import Mathlib.Algebra.Order.Group.Multiset
import Mathlib.Data.Multiset.Filter

namespace Drain

variable {α : Type*}

/-- One thing that happens to an item: it is offered to the channel, or dropped. -/
inductive Attempt (α : Type*) where
  | sent (x : α) (answer : ℤ)
  | dropped (x : α)

/-- Why the drain ended. -/
inductive Exit where
  | drained
  | full
  | failed (answer : ℤ)
  deriving DecidableEq, Repr

structure Outcome (α : Type*) where
  exit : Exit
  rest : List α
  attempts : List (Attempt α)

/-- Drain a queue; `answer n` is the channel's answer to the `n`-th offer. -/
def drain (live : α → Prop) [DecidablePred live] (answer : ℕ → ℤ) : ℕ → List α → Outcome α
  | _, [] => ⟨.drained, [], []⟩
  | n, x :: xs =>
    if live x then
      if answer n = 0 then ⟨.full, x :: xs, [.sent x (answer n)]⟩
      else if answer n < 0 then ⟨.failed (answer n), x :: xs, [.sent x (answer n)]⟩
      else
        let o := drain live answer (n + 1) xs
        ⟨o.exit, o.rest, .sent x (answer n) :: o.attempts⟩
    else
      let o := drain live answer n xs
      ⟨o.exit, o.rest, .dropped x :: o.attempts⟩

def Attempt.accepted : Attempt α → List α
  | .sent x r => if 0 < r then [x] else []
  | .dropped _ => []

def Attempt.discarded : Attempt α → List α
  | .sent _ _ => []
  | .dropped x => [x]

/-- An offer the channel failed. -/
def Attempt.Failed : Attempt α → Prop
  | .sent _ r => r < 0
  | .dropped _ => False

/-- An offer the channel did not accept. -/
def Attempt.Refused : Attempt α → Prop
  | .sent _ r => r ≤ 0
  | .dropped _ => False

/-- The live items are offered, the others dropped. -/
def Attempt.Agrees (live : α → Prop) : Attempt α → Prop
  | .sent x _ => live x
  | .dropped x => ¬ live x

theorem Attempt.Failed.refused {a : Attempt α} (h : a.Failed) : a.Refused := by
  cases a with
  | sent x r => exact le_of_lt (a := r) h
  | dropped x => exact h

variable (live : α → Prop) [DecidablePred live] (answer : ℕ → ℤ)

/-- No item is lost or doubled: each one is accepted, dropped or left. -/
theorem drain_conserves (n : ℕ) (q : List α) :
    (q : Multiset α) = (drain live answer n q).rest +
      (((drain live answer n q).attempts.flatMap Attempt.accepted : List α) : Multiset α) +
      (((drain live answer n q).attempts.flatMap Attempt.discarded : List α) : Multiset α) := by
  induction q generalizing n with
  | nil => simp [drain]
  | cons x xs ih =>
    rw [drain]
    split_ifs with hlive hzero hneg
    · simp [Attempt.accepted, Attempt.discarded, hzero]
    · have : ¬ 0 < answer n := by omega
      simp [Attempt.accepted, Attempt.discarded, this]
    · have hpos : 0 < answer n := by omega
      rw [← Multiset.cons_coe, ih (n + 1)]
      simp only [List.flatMap_cons, Attempt.accepted, Attempt.discarded, if_pos hpos,
        List.singleton_append, List.nil_append, ← Multiset.cons_coe, Multiset.add_cons,
        Multiset.cons_add]
    · rw [← Multiset.cons_coe, ih n]
      simp only [List.flatMap_cons, Attempt.accepted, Attempt.discarded, List.singleton_append,
        List.nil_append, ← Multiset.cons_coe, Multiset.add_cons]

theorem attempts_agree (n : ℕ) (q : List α) :
    ∀ a ∈ (drain live answer n q).attempts, a.Agrees live := by
  induction q generalizing n with
  | nil => simp [drain]
  | cons y ys ih =>
    rw [drain]
    split_ifs with hlive hzero hneg
    · exact List.forall_mem_singleton.mpr hlive
    · exact List.forall_mem_singleton.mpr hlive
    · exact List.forall_mem_cons.mpr ⟨hlive, ih (n + 1)⟩
    · exact List.forall_mem_cons.mpr ⟨hlive, ih n⟩

theorem live_of_sent {n : ℕ} {q : List α} {x : α} {r : ℤ}
    (h : .sent x r ∈ (drain live answer n q).attempts) : live x :=
  attempts_agree live answer n q _ h

theorem not_live_of_dropped {n : ℕ} {q : List α} {x : α}
    (h : .dropped x ∈ (drain live answer n q).attempts) : ¬ live x :=
  attempts_agree live answer n q _ h

/-- A drain without a refused offer that takes the whole queue. -/
structure Completes (o : Outcome α) : Prop where
  exit : o.exit = .drained
  rest : o.rest = []
  accepted : ∀ a ∈ o.attempts, ¬ a.Refused

/-- A drain that ends at the first refused offer, that of `x`. -/
structure Refuses (o : Outcome α) (pre : List (Attempt α)) (x : α) (r : ℤ) (tail : List α) :
    Prop where
  answer : r ≤ 0
  exit : o.exit = if r = 0 then .full else .failed r
  rest : o.rest = x :: tail
  attempts : o.attempts = pre ++ [.sent x r]
  accepted : ∀ a ∈ pre, ¬ a.Refused

theorem Refuses.zero {o : Outcome α} {pre : List (Attempt α)} {x : α} {r : ℤ} {tail : List α}
    (h : Refuses o pre x r tail) (hexit : ∀ r, o.exit ≠ .failed r) : r = 0 := by
  by_contra hne
  exact hexit r (h.exit.trans (if_neg hne))

/-- What comes before the first refused offer does not change how the drain ends. -/
theorem ends_cons {a : Attempt α} (ha : ¬ a.Refused) {o : Outcome α}
    (h : Completes o ∨ ∃ pre x r tail, Refuses o pre x r tail) :
    Completes ⟨o.exit, o.rest, a :: o.attempts⟩ ∨
      ∃ pre x r tail, Refuses ⟨o.exit, o.rest, a :: o.attempts⟩ pre x r tail := by
  rcases h with h | ⟨pre, x, r, tail, h⟩
  · exact .inl ⟨h.exit, h.rest, List.forall_mem_cons.mpr ⟨ha, h.accepted⟩⟩
  · exact .inr ⟨a :: pre, x, r, tail, h.answer, h.exit, h.rest, congrArg (a :: ·) h.attempts,
      List.forall_mem_cons.mpr ⟨ha, h.accepted⟩⟩

/-- How a drain ends. -/
theorem drain_ends (n : ℕ) (q : List α) :
    Completes (drain live answer n q) ∨
      ∃ pre x r tail, Refuses (drain live answer n q) pre x r tail := by
  induction q generalizing n with
  | nil => exact .inl ⟨rfl, rfl, by simp [drain]⟩
  | cons y ys ih =>
    rw [drain]
    split_ifs with hlive hzero hneg
    · exact .inr ⟨[], y, answer n, ys, hzero.le, (if_pos hzero).symm, rfl, rfl, by simp⟩
    · exact .inr ⟨[], y, answer n, ys, hneg.le, (if_neg hzero).symm, rfl, rfl, by simp⟩
    · have hy : ¬ (Attempt.sent y (answer n)).Refused := by
        simp only [Attempt.Refused]
        omega
      exact ends_cons hy (ih (n + 1))
    · exact ends_cons (a := .dropped y) id (ih n)

/-- An offer that was not accepted is the last one, and its item heads the rest. -/
theorem rest_of_refused {n : ℕ} {q : List α} {x : α} {r : ℤ} (hr : r ≤ 0)
    (h : .sent x r ∈ (drain live answer n q).attempts) :
    ∃ tail, (drain live answer n q).rest = x :: tail := by
  rcases drain_ends live answer n q with hends | ⟨pre, y, r', tail, hends⟩
  · exact absurd hr (hends.accepted _ h)
  · rw [hends.attempts] at h
    rcases List.mem_append.mp h with hm | hm
    · exact absurd hr (hends.accepted _ hm)
    · cases List.mem_singleton.mp hm
      exact ⟨tail, hends.rest⟩

/-- What is left unless the channel failed: nothing, or the items behind one answered `0`. -/
theorem rest_of_not_failed (n : ℕ) (q : List α)
    (h : ∀ r, (drain live answer n q).exit ≠ .failed r) :
    (drain live answer n q).rest = [] ∨
      ∃ x tail, (drain live answer n q).rest = x :: tail ∧
        .sent x 0 ∈ (drain live answer n q).attempts := by
  rcases drain_ends live answer n q with hends | ⟨pre, x, r, tail, hends⟩
  · exact .inl hends.rest
  · have hzero := hends.zero h
    refine .inr ⟨x, tail, hends.rest, ?_⟩
    rw [hends.attempts, ← hzero]
    simp

/-- A failed offer is the last attempt, the only one that failed, and its item heads the rest. -/
theorem attempts_of_failed {n : ℕ} {q : List α} {r : ℤ}
    (h : (drain live answer n q).exit = .failed r) :
    r < 0 ∧ ∃ pre x tail, (drain live answer n q).attempts = pre ++ [.sent x r] ∧
      (drain live answer n q).rest = x :: tail ∧ ∀ a ∈ pre, ¬ a.Failed := by
  rcases drain_ends live answer n q with hends | ⟨pre, x, r', tail, hends⟩
  · rw [hends.exit] at h
    cases h
  · rw [hends.exit] at h
    split_ifs at h with hzero
    cases h
    exact ⟨lt_of_le_of_ne hends.answer hzero, pre, x, tail, hends.attempts, hends.rest,
      fun a ha hfailed => hends.accepted a ha hfailed.refused⟩

theorem not_failed_of_exit {n : ℕ} {q : List α}
    (h : ∀ r, (drain live answer n q).exit ≠ .failed r) :
    ∀ a ∈ (drain live answer n q).attempts, ¬ a.Failed := by
  intro a ha hfailed
  rcases drain_ends live answer n q with hends | ⟨pre, x, r, tail, hends⟩
  · exact hends.accepted a ha hfailed.refused
  · rw [hends.attempts] at ha
    rcases List.mem_append.mp ha with hm | hm
    · exact hends.accepted a hm hfailed.refused
    · rw [List.mem_singleton.mp hm, hends.zero h] at hfailed
      exact lt_irrefl 0 hfailed

/-- Without a live item nothing is offered. -/
theorem exit_of_no_live {n : ℕ} {q : List α} (h : q.find? (live ·) = none) :
    (drain live answer n q).exit = .drained := by
  induction q with
  | nil => rfl
  | cons y ys ih =>
    rw [List.find?_cons] at h
    split at h
    · cases h
    · rename_i hlive
      rw [drain, if_neg (of_decide_eq_false hlive)]
      exact ih h

/-- The first live item is offered, and an answer that is not positive ends the drain. -/
theorem exit_of_first_live {n : ℕ} {q : List α} {x : α} (h : q.find? (live ·) = some x) :
    .sent x (answer n) ∈ (drain live answer n q).attempts ∧
      (answer n = 0 → (drain live answer n q).exit = .full) ∧
      (answer n < 0 → (drain live answer n q).exit = .failed (answer n)) := by
  induction q with
  | nil => cases h
  | cons y ys ih =>
    rw [List.find?_cons] at h
    split at h
    · rename_i hlive
      cases h
      rw [drain, if_pos (of_decide_eq_true hlive)]
      refine ⟨?_, fun hzero => if_pos hzero ▸ rfl, fun hneg => ?_⟩
      · split_ifs <;> simp
      · rw [if_neg hneg.ne, if_pos hneg]
    · rename_i hlive
      obtain ⟨hsent, hfull, hfailed⟩ := ih h
      rw [drain, if_neg (of_decide_eq_false hlive)]
      exact ⟨List.mem_cons_of_mem _ hsent, hfull, hfailed⟩

/-- A channel that accepts everything empties the queue, and takes its live items in order. -/
theorem drain_of_accepting (h : ∀ n, 0 < answer n) (n : ℕ) (q : List α) :
    (drain live answer n q).exit = .drained ∧ (drain live answer n q).rest = [] ∧
      (drain live answer n q).attempts.flatMap Attempt.accepted = q.filter (live ·) := by
  induction q generalizing n with
  | nil => simp [drain]
  | cons x xs ih =>
    have hn := h n
    rw [drain]
    split_ifs with hlive hzero hneg
    · omega
    · omega
    · obtain ⟨he, hr, ha⟩ := ih (n + 1)
      simpa [Attempt.accepted, hn, hlive, ha] using ⟨he, hr⟩
    · obtain ⟨he, hr, ha⟩ := ih n
      simpa [Attempt.accepted, hlive, ha] using ⟨he, hr⟩

end Drain
