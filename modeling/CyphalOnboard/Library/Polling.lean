import Mathlib.Data.List.Chain

namespace Polling

/-- The polls that fire an activity first due at `next`. -/
def fire (interval : ℕ) : (next : ℕ) → List ℕ → List ℕ
  | _, [] => []
  | next, t :: polls =>
    if next ≤ t then t :: fire interval (t + interval) polls else fire interval next polls

/-- Polls at non-decreasing times with gaps of at most `delta`. -/
def Paced (delta : ℕ) (polls : List ℕ) : Prop :=
  polls.IsChain fun t t' => t ≤ t' ∧ t' ≤ t + delta

instance (delta : ℕ) (polls : List ℕ) : Decidable (Paced delta polls) :=
  inferInstanceAs (Decidable (polls.IsChain fun t t' => t ≤ t' ∧ t' ≤ t + delta))

theorem Paced.tail {delta t : ℕ} {polls : List ℕ} (h : Paced delta (t :: polls)) :
    Paced delta polls := List.IsChain.tail h

theorem Paced.take {delta : ℕ} {polls : List ℕ} (h : Paced delta polls) (n : ℕ) :
    Paced delta (polls.take n) := List.IsChain.take h n

variable {interval : ℕ}

theorem le_of_fire {next f : ℕ} {polls later : List ℕ}
    (h : fire interval next polls = f :: later) : next ≤ f := by
  induction polls with
  | nil => cases h
  | cons t polls ih =>
    rw [fire] at h
    split_ifs at h with hdue
    · obtain ⟨rfl, -⟩ := List.cons.inj h
      exact hdue
    · exact ih h

/-- Polled since before it was due, an activity fires at most one gap after its due time. -/
theorem fire_le {delta p next f : ℕ} {polls later : List ℕ} (hp : p ≤ next)
    (hpaced : Paced delta (p :: polls)) (h : fire interval next polls = f :: later) :
    f ≤ next + delta := by
  induction polls generalizing p with
  | nil => cases h
  | cons t polls ih =>
    obtain ⟨⟨-, hgap⟩, hpolls⟩ := List.isChain_cons_cons.mp hpaced
    rw [fire] at h
    split_ifs at h with hdue
    · obtain ⟨rfl, -⟩ := List.cons.inj h
      omega
    · exact ih (not_le.mp hdue).le hpolls h

theorem fire_isChain (interval next : ℕ) (polls : List ℕ) :
    (fire interval next polls).IsChain fun e e' => e + interval ≤ e' := by
  induction polls generalizing next with
  | nil => exact .nil
  | cons t polls ih =>
    rw [fire]
    split_ifs
    · refine List.isChain_cons.mpr ⟨fun f hf => ?_, ih _⟩
      obtain ⟨later, hfire⟩ := List.head?_eq_some_iff.mp hf
      exact le_of_fire hfire
    · exact ih _

/-- Two firings in a row are at least an interval apart. -/
theorem fire_spacing {next e e' : ℕ} {polls earlier later : List ℕ}
    (h : fire interval next polls = earlier ++ e :: e' :: later) : e + interval ≤ e' := by
  have hchain := fire_isChain interval next polls
  rw [h] at hchain
  exact (List.isChain_append_cons_cons.mp hchain).2.1

/-- Paced polls let no more than one gap pass beyond the interval. -/
theorem fire_gap {delta next e e' : ℕ} {polls earlier later : List ℕ}
    (hpaced : Paced delta polls)
    (h : fire interval next polls = earlier ++ e :: e' :: later) :
    e' ≤ e + interval + delta := by
  induction polls generalizing next earlier with
  | nil => simp [fire] at h
  | cons t polls ih =>
    rw [fire] at h
    split_ifs at h with hdue
    · cases earlier with
      | nil =>
        rw [List.nil_append, List.cons.injEq] at h
        obtain ⟨rfl, h⟩ := h
        exact fire_le (Nat.le_add_right t interval) hpaced h
      | cons f earlier =>
        rw [List.cons_append, List.cons.injEq] at h
        exact ih hpaced.tail h.2
    · exact ih hpaced.tail h

/-- The firings at the first polls are the first firings. -/
theorem fire_prefix_mono {next : ℕ} {polls polls' : List ℕ} (h : polls <+: polls') :
    fire interval next polls <+: fire interval next polls' := by
  induction polls generalizing next polls' with
  | nil => exact List.nil_prefix
  | cons t polls ih =>
    cases polls' with
    | nil => exact absurd h (by simp)
    | cons t' polls' =>
      obtain ⟨rfl, hpolls⟩ := List.cons_prefix_cons.mp h
      rw [fire, fire]
      split_ifs
      · exact List.cons_prefix_cons.mpr ⟨rfl, ih hpolls⟩
      · exact ih hpolls

theorem fire_sublist (interval next : ℕ) (polls : List ℕ) :
    (fire interval next polls).Sublist polls := by
  induction polls generalizing next with
  | nil => exact List.nil_sublist _
  | cons t polls ih =>
    rw [fire]
    split_ifs
    · exact (ih _).cons_cons t
    · exact (ih _).cons t

/-- The activity fires first at the first poll that finds it due. -/
theorem fire_head? (interval next : ℕ) (polls : List ℕ) :
    (fire interval next polls).head? = polls.find? (next ≤ ·) := by
  induction polls with
  | nil => rfl
  | cons t polls ih =>
    rw [fire, List.find?_cons]
    by_cases hdue : next ≤ t
    · simp [hdue]
    · simp [hdue, ih]

theorem Paced.sorted {delta : ℕ} {polls : List ℕ} (h : Paced delta polls) :
    polls.Pairwise (· ≤ ·) :=
  List.isChain_iff_pairwise.mp (List.IsChain.imp (fun _ _ hstep => hstep.1) h)

/-- A poll that finds the activity due comes no earlier than its first firing. -/
theorem fire_head_le {next v : ℕ} {polls : List ℕ} (hsorted : polls.Pairwise (· ≤ ·))
    (hv : v ∈ polls) (hdue : next ≤ v) :
    ∃ f, (fire interval next polls)[0]? = some f ∧ f ≤ v := by
  induction polls with
  | nil => cases hv
  | cons t polls ih =>
    obtain ⟨hfirst, hsorted⟩ := List.pairwise_cons.mp hsorted
    rw [fire]
    split_ifs with ht
    · refine ⟨t, rfl, ?_⟩
      rcases List.mem_cons.mp hv with rfl | hv
      · exact le_rfl
      · exact hfirst v hv
    · rcases List.mem_cons.mp hv with rfl | hv
      · exact absurd hdue ht
      · exact ih hsorted hv

/-- A poll an interval behind a firing comes no earlier than the next one. -/
theorem fire_next_le (hpos : 0 < interval) {next k f v : ℕ} {polls : List ℕ}
    (hsorted : polls.Pairwise (· ≤ ·)) (hk : (fire interval next polls)[k]? = some f)
    (hv : v ∈ polls) (hdue : f + interval ≤ v) :
    ∃ f', (fire interval next polls)[k + 1]? = some f' ∧ f' ≤ v := by
  induction polls generalizing next k with
  | nil => cases hv
  | cons t polls ih =>
    -- the firing is not before `t`, so `v` is one of the polls behind it
    have hft : t ≤ f := by
      rcases List.mem_cons.mp ((fire_sublist interval next (t :: polls)).subset
        (List.mem_of_getElem? hk)) with rfl | hf
      · exact le_rfl
      · exact List.rel_of_pairwise_cons hsorted hf
    have hv' : v ∈ polls := (List.mem_cons.mp hv).resolve_left (by omega)
    have hsorted' := (List.pairwise_cons.mp hsorted).2
    rw [fire] at hk ⊢
    split_ifs at hk ⊢
    · cases k with
      | zero =>
        have hf : t = f := Option.some.inj hk
        exact fire_head_le hsorted' hv' (hf ▸ hdue)
      | succ k => exact ih hsorted' hk hv'
    · exact ih hsorted' hk hv'

/-- The polls reached from `first` in a number of strides of at least an interval. -/
inductive Strides (interval : ℕ) (polls : List ℕ) (first : ℕ) : ℕ → ℕ → Prop
  | start : Strides interval polls first 0 first
  | stride {k u v : ℕ} : Strides interval polls first k u → v ∈ polls → u + interval ≤ v →
      Strides interval polls first (k + 1) v

/-- The firings are strides. -/
theorem strides_of_fire {next first k f : ℕ} {polls : List ℕ}
    (hfirst : (fire interval next polls)[0]? = some first)
    (hk : (fire interval next polls)[k]? = some f) : Strides interval polls first k f := by
  induction k generalizing f with
  | zero =>
    obtain rfl := Option.some.inj (hfirst.symm.trans hk)
    exact .start
  | succ k ih =>
    obtain ⟨hlt, rfl⟩ := List.getElem?_eq_some_iff.mp hk
    have hprevious := List.getElem?_eq_getElem (Nat.lt_of_succ_lt hlt)
    exact (ih hprevious).stride ((fire_sublist interval next polls).subset (List.getElem_mem hlt))
      ((fire_isChain interval next polls).getElem k hlt)

/-- No other strides are ahead of the firings. -/
theorem fire_le_of_strides (hpos : 0 < interval) {next first k u : ℕ} {polls : List ℕ}
    (hsorted : polls.Pairwise (· ≤ ·)) (hfirst : (fire interval next polls)[0]? = some first)
    (h : Strides interval polls first k u) :
    ∃ f, (fire interval next polls)[k]? = some f ∧ f ≤ u := by
  induction h with
  | start => exact ⟨first, hfirst, le_rfl⟩
  | stride _ hv hstride ih =>
    obtain ⟨f, hk, hf⟩ := ih
    exact fire_next_le hpos hsorted hk hv ((Nat.add_le_add_right hf interval).trans hstride)

/-- From the first poll at or after `next` on, strides lead to every multiple of the interval that
some poll is `slack` beyond, with no more delay than that. -/
def KeepsRate (interval slack next : ℕ) (polls : List ℕ) : Prop :=
  ∀ first, polls.find? (next ≤ ·) = some first → ∀ k, ∀ t ∈ polls,
    first + k * interval + slack ≤ t →
      ∃ u ≤ first + k * interval + slack, Strides interval polls first k u

/-- The polls keep the rate exactly if the firings do: each is no more than the slack behind the
rate, and none that is due a slack before some poll is missing. -/
theorem keepsRate_iff (hpos : 0 < interval) {slack next : ℕ} {polls : List ℕ}
    (hsorted : polls.Pairwise (· ≤ ·)) :
    KeepsRate interval slack next polls ↔
      ∀ first, (fire interval next polls)[0]? = some first →
        (∀ k f, (fire interval next polls)[k]? = some f → f ≤ first + k * interval + slack) ∧
        ∀ k, ∀ t ∈ polls, first + k * interval + slack ≤ t →
          k < (fire interval next polls).length := by
  have hhead := fire_head? interval next polls
  rw [List.head?_eq_getElem?] at hhead
  constructor
  · intro hkeeps first hfirst
    have hahead {k t : ℕ} (ht : t ∈ polls) (hk : first + k * interval + slack ≤ t) :
        ∃ f, (fire interval next polls)[k]? = some f ∧ f ≤ first + k * interval + slack := by
      obtain ⟨u, hu, hstrides⟩ := hkeeps first (hhead.symm.trans hfirst) k t ht hk
      obtain ⟨f, hf, hle⟩ := fire_le_of_strides hpos hsorted hfirst hstrides
      exact ⟨f, hf, hle.trans hu⟩
    constructor
    · intro k f hk
      by_contra hlate
      -- a firing that is behind is itself one of the polls
      have hf := (fire_sublist interval next polls).subset (List.mem_of_getElem? hk)
      obtain ⟨f', hk', hle⟩ := hahead hf (not_le.mp hlate).le
      obtain rfl := Option.some.inj (hk.symm.trans hk')
      exact hlate hle
    · intro k t ht hk
      obtain ⟨f, hf, -⟩ := hahead ht hk
      exact (List.getElem?_eq_some_iff.mp hf).1
  · intro h first hfind k t ht hk
    have hfirst := hhead.trans hfind
    obtain ⟨honTime, hnone⟩ := h first hfirst
    have hfire := List.getElem?_eq_getElem (hnone k t ht hk)
    exact ⟨_, honTime k _ hfire, strides_of_fire hfirst hfire⟩

/-- Polls at every due time lose nothing. -/
theorem keepsRate_of_due_polled {slack next : ℕ} {polls : List ℕ}
    (h : ∀ first, polls.find? (next ≤ ·) = some first → ∀ k, ∀ t ∈ polls,
      first + k * interval + slack ≤ t → first + k * interval ∈ polls) :
    KeepsRate interval slack next polls := by
  intro first hfirst k t ht hk
  refine ⟨first + k * interval, Nat.le_add_right _ _, ?_⟩
  induction k with
  | zero =>
    rw [Nat.zero_mul]
    exact .start
  | succ k ih =>
    have hstep : first + k * interval + interval = first + (k + 1) * interval := by
      rw [Nat.succ_mul, Nat.add_assoc]
    exact (ih (by omega)).stride (h first hfirst (k + 1) t ht hk) hstep.le

end Polling
