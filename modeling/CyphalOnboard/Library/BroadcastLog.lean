import Mathlib.Algebra.BigOperators.Group.Finset.Piecewise
import Mathlib.Algebra.Order.Group.Multiset
import Mathlib.Data.List.Basic
import Mathlib.Logic.Function.Basic
import Mathlib.Tactic.Abel

namespace BroadcastLog

variable {ι μ : Type*}

/-- `none` is a sender outside. -/
structure Entry (ι μ : Type*) where
  sender : Option ι
  message : μ
  admitted : ι → Bool

/-- The entries so far, and how many of those it is admitted to each reader has taken. -/
structure Log (ι μ : Type*) where
  entries : List (Entry ι μ)
  read : ι → ℕ

namespace Log

def empty : Log ι μ := ⟨[], fun _ => 0⟩

def admittedTo (log : Log ι μ) (n : ι) : List (Entry ι μ) := log.entries.filter (·.admitted n)

def taken (log : Log ι μ) (n : ι) : List (Entry ι μ) := (log.admittedTo n).take (log.read n)

def waiting (log : Log ι μ) (n : ι) : List (Entry ι μ) := (log.admittedTo n).drop (log.read n)

def append (log : Log ι μ) (segment : List (Entry ι μ)) : Log ι μ :=
  { log with entries := log.entries ++ segment }

/-- No reader has taken more than there was. -/
def WellFormed (log : Log ι μ) : Prop := ∀ n, log.read n ≤ (log.admittedTo n).length

theorem wellFormed_empty : (empty : Log ι μ).WellFormed := fun _ => Nat.le_refl _

theorem admittedTo_append (log : Log ι μ) (segment : List (Entry ι μ)) (n : ι) :
    (log.append segment).admittedTo n = log.admittedTo n ++ segment.filter (·.admitted n) :=
  List.filter_append log.entries segment

theorem WellFormed.append {log : Log ι μ} (h : log.WellFormed) (segment : List (Entry ι μ)) :
    (log.append segment).WellFormed := by
  intro n
  rw [admittedTo_append, List.length_append]
  exact Nat.le_add_right_of_le (h n)

/-- Writing does not change what was taken. -/
theorem taken_append {log : Log ι μ} (h : log.WellFormed) (segment : List (Entry ι μ)) (n : ι) :
    (log.append segment).taken n = log.taken n := by
  have hread : (log.append segment).read n = log.read n := rfl
  rw [taken, taken, admittedTo_append, hread, List.take_append_of_le_length (h n)]

theorem taken_sublist (log : Log ι μ) (n : ι) : (log.taken n).Sublist log.entries :=
  (List.take_sublist ..).trans List.filter_sublist

/-- A reader admitted to everything for whom nothing waits has taken all of it. -/
theorem taken_eq_entries {log : Log ι μ} {n : ι} (hall : ∀ entry ∈ log.entries, entry.admitted n)
    (hwait : log.waiting n = []) : log.taken n = log.entries := by
  have hadmitted : log.admittedTo n = log.entries := List.filter_eq_self.mpr hall
  have htaken := List.take_append_drop (log.read n) (log.admittedTo n)
  rw [← taken, ← waiting, hwait, List.append_nil, hadmitted] at htaken
  exact htaken

variable [DecidableEq ι]

/-- Reader `n` takes the next `k` entries, as many as are waiting. -/
def take (log : Log ι μ) (n : ι) (k : ℕ) : Log ι μ :=
  { log with
    read := Function.update log.read n (log.read n + min k (log.waiting n).length) }

theorem WellFormed.take {log : Log ι μ} (h : log.WellFormed) (n : ι) (k : ℕ) :
    (log.take n k).WellFormed := by
  intro m
  have hsame : (log.take n k).admittedTo m = log.admittedTo m := rfl
  rw [hsame, Log.take]
  by_cases hm : m = n
  · subst hm
    have hwait : (log.waiting m).length = (log.admittedTo m).length - log.read m :=
      List.length_drop
    have hread := h m
    simp only [Function.update_self]
    omega
  · simp only [Function.update_of_ne hm]
    exact h m

theorem taken_take (log : Log ι μ) (n : ι) (k : ℕ) :
    (log.take n k).taken n = log.taken n ++ (log.waiting n).take k := by
  have hsame : (log.take n k).admittedTo n = log.admittedTo n := rfl
  have hread : (log.take n k).read n = log.read n + min k (log.waiting n).length :=
    Function.update_self ..
  have hmin : (log.waiting n).take (min k (log.waiting n).length) = (log.waiting n).take k := by
    rw [← List.take_take, List.take_length]
  rw [taken, hsame, hread, List.take_add, ← taken, ← waiting, hmin]

theorem taken_take_of_ne (log : Log ι μ) {n m : ι} (h : m ≠ n) (k : ℕ) :
    (log.take n k).taken m = log.taken m := by
  have hread : (log.take n k).read m = log.read m := Function.update_of_ne h ..
  rw [taken, taken, hread]
  rfl

/-- What one sender has written. -/
def writtenBy (log : Log ι μ) (n : ι) : List μ :=
  (log.entries.filter (·.sender = some n)).map (·.message)

end Log

/-- The entries `own` of one writer, with `arrivals k` from outside before its entry number `k` and
what is left of them behind the last one. -/
def weave : List (Entry ι μ) → (ℕ → List (μ × (ι → Bool))) → List (Entry ι μ)
  | [], arrivals => (arrivals 0).map fun x => ⟨none, x.1, x.2⟩
  | entry :: own, arrivals =>
    (arrivals 0).map (fun x => ⟨none, x.1, x.2⟩) ++ entry :: weave own fun k => arrivals (k + 1)

variable [DecidableEq ι]

theorem filter_outside (arrivals : List (μ × (ι → Bool))) (n : ι) :
    (arrivals.map fun x => (⟨none, x.1, x.2⟩ : Entry ι μ)).filter (·.sender = some n) = [] := by
  rw [List.filter_eq_nil_iff]
  intro entry hentry
  obtain ⟨x, -, rfl⟩ := List.mem_map.mp hentry
  simp

/-- Of what is woven together each sender has written its own entries, in order. -/
theorem filter_weave (own : List (Entry ι μ)) (arrivals : ℕ → List (μ × (ι → Bool))) (n : ι) :
    (weave own arrivals).filter (·.sender = some n) = own.filter (·.sender = some n) := by
  induction own generalizing arrivals with
  | nil => exact filter_outside (arrivals 0) n
  | cons entry own ih =>
    rw [weave, List.filter_append, filter_outside, List.nil_append, List.filter_cons,
      List.filter_cons, ih]

variable {α : Type*}

/-- What is made of all entries, sender by sender. -/
theorem filterMap_bySender [Fintype ι] (f : Entry ι μ → Option α) (entries : List (Entry ι μ)) :
    (entries.filterMap f : Multiset α) =
      ∑ m, ((entries.filter (·.sender = some m)).filterMap f : Multiset α) +
        (entries.filter (·.sender = none)).filterMap f := by
  induction entries with
  | nil => simp
  | cons entry entries ih =>
    have hcons (l : List (Entry ι μ)) : ((entry :: l).filterMap f : Multiset α) =
        (f entry).toList + l.filterMap f := by
      rw [List.filterMap_cons]
      cases f entry <;> rfl
    have hfilter (sender : Option ι) :
        (((entry :: entries).filter (·.sender = sender)).filterMap f : Multiset α) =
          (if entry.sender = sender then ((f entry).toList : Multiset α) else 0) +
            (entries.filter (·.sender = sender)).filterMap f := by
      by_cases hsender : entry.sender = sender
      · rw [List.filter_cons_of_pos (by simpa using hsender), hcons, if_pos hsender]
      · rw [List.filter_cons_of_neg (by simpa using hsender), if_neg hsender, zero_add]
    rw [hcons, ih]
    simp only [hfilter, Finset.sum_add_distrib]
    -- the entry counts for its own sender alone
    cases entry.sender with
    | none =>
      simp only [reduceCtorEq, if_false, Finset.sum_const_zero, if_true]
      abel
    | some m =>
      simp only [Option.some.injEq, Finset.sum_ite_eq, Finset.mem_univ, if_true, reduceCtorEq,
        if_false]
      abel

omit [DecidableEq ι] in
/-- What a reader makes of all entries, it has made or will make of those it is admitted to, or it
would have made of the others. -/
theorem Log.filterMap_admission (log : Log ι μ) (n : ι) (f : Entry ι μ → Option α) :
    (log.entries.filterMap f : Multiset α) = (log.taken n).filterMap f +
      ((log.waiting n).filterMap f + (log.entries.filter (!·.admitted n)).filterMap f) := by
  have hperm := (List.filter_append_perm (·.admitted n) log.entries).filterMap f
  have hsplit : log.entries.filter (·.admitted n) = log.taken n ++ log.waiting n :=
    (List.take_append_drop ..).symm
  rw [List.filterMap_append, hsplit, List.filterMap_append] at hperm
  rw [← Multiset.coe_eq_coe.mpr hperm, ← Multiset.coe_add, ← Multiset.coe_add, add_assoc]

end BroadcastLog
