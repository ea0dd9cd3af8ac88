import Mathlib.Data.List.Basic

namespace EarlyExit

/-- How one iteration ends, with the state it leaves. -/
inductive Flow (σ ρ : Type*) where
  | next (s : σ)
  | brk (s : σ)
  | ret (s : σ) (r : ρ)

variable {ι σ ρ : Type*}

def Flow.state : Flow σ ρ → σ
  | .next s => s
  | .brk s => s
  | .ret s _ => s

@[simp] theorem Flow.state_next (s : σ) : (Flow.next s : Flow σ ρ).state = s := rfl
@[simp] theorem Flow.state_brk (s : σ) : (Flow.brk s : Flow σ ρ).state = s := rfl
@[simp] theorem Flow.state_ret (s : σ) (r : ρ) : (Flow.ret s r).state = s := rfl

/-- The loop over `l`. The second component is the value of an early return. -/
def forLoop (body : ι → σ → Flow σ ρ) : List ι → σ → σ × Option ρ
  | [], s => (s, none)
  | i :: l, s =>
    match body i s with
    | .next s' => forLoop body l s'
    | .brk s' => (s', none)
    | .ret s' r => (s', some r)

/-- The state after all iterations of `l`, when every one of them falls through. -/
def fallThrough (body : ι → σ → Flow σ ρ) : List ι → σ → Option σ
  | [], s => some s
  | i :: l, s =>
    match body i s with
    | .next s' => fallThrough body l s'
    | .brk _ => none
    | .ret _ _ => none

variable {body : ι → σ → Flow σ ρ}

theorem forLoop_of_fallThrough {l : List ι} {s s' : σ} (h : fallThrough body l s = some s') :
    forLoop body l s = (s', none) := by
  induction l generalizing s with
  | nil => cases h; rfl
  | cons i l ih =>
    simp only [fallThrough] at h
    cases hb : body i s with
    | next t => rw [hb] at h; simpa only [forLoop, hb] using ih h
    | brk t => rw [hb] at h; cases h
    | ret t r => rw [hb] at h; cases h

theorem forLoop_append_of_fallThrough {pre : List ι} (post : List ι) {s s' : σ}
    (h : fallThrough body pre s = some s') :
    forLoop body (pre ++ post) s = forLoop body post s' := by
  induction pre generalizing s with
  | nil => cases h; rfl
  | cons i pre ih =>
    simp only [fallThrough] at h
    cases hb : body i s with
    | next t => rw [hb] at h; simpa only [List.cons_append, forLoop, hb] using ih h
    | brk t => rw [hb] at h; cases h
    | ret t r => rw [hb] at h; cases h

/-- `i` is the iteration the loop over `l` is in when its state is `t`: all the iterations
before it fell through. -/
def Reaches (body : ι → σ → Flow σ ρ) (l : List ι) (s : σ) (i : ι) (t : σ) : Prop :=
  ∃ pre post, l = pre ++ i :: post ∧ fallThrough body pre s = some t

theorem Reaches.head (i : ι) (l : List ι) (s : σ) : Reaches body (i :: l) s i s :=
  ⟨[], l, rfl, rfl⟩

theorem Reaches.cons {i j : ι} {l : List ι} {s s' t : σ} (hb : body i s = .next s')
    (h : Reaches body l s' j t) : Reaches body (i :: l) s j t := by
  obtain ⟨pre, post, rfl, ht⟩ := h
  exact ⟨i :: pre, post, rfl, by simpa only [fallThrough, hb] using ht⟩

/-- A loop that falls through reaches each of its iterations and falls through it. -/
theorem split_of_fallThrough {l : List ι} {s u : σ} (h : fallThrough body l s = some u) {i : ι}
    (hi : i ∈ l) : ∃ pre post t t', l = pre ++ i :: post ∧ fallThrough body pre s = some t ∧
      body i t = .next t' := by
  induction l generalizing s with
  | nil => cases hi
  | cons j l ih =>
    simp only [fallThrough] at h
    cases hb : body j s with
    | next s' =>
      rw [hb] at h
      by_cases hij : i = j
      · exact ⟨[], l, s, s', by rw [hij, List.nil_append], rfl, hij ▸ hb⟩
      · obtain ⟨pre, post, t, t', rfl, ht, hn⟩ := ih h ((List.mem_cons.mp hi).resolve_left hij)
        exact ⟨j :: pre, post, t, t', rfl, by simpa only [fallThrough, hb] using ht, hn⟩
    | brk t => rw [hb] at h; cases h
    | ret t r => rw [hb] at h; cases h

/-- A loop that does not fall through never gets to what is behind it. -/
theorem forLoop_append_of_not_fallThrough {pre : List ι} (post : List ι) {s : σ}
    (h : fallThrough body pre s = none) :
    forLoop body (pre ++ post) s = forLoop body pre s := by
  induction pre generalizing s with
  | nil => cases h
  | cons i pre ih =>
    simp only [fallThrough] at h
    cases hb : body i s with
    | next t =>
      rw [hb] at h
      simpa only [List.cons_append, forLoop, hb] using ih h
    | brk t => simp only [List.cons_append, forLoop, hb]
    | ret t r => simp only [List.cons_append, forLoop, hb]

/-- A loop falls through exactly when every iteration it reaches does. -/
theorem fallThrough_eq_none_iff {l : List ι} {s : σ} : fallThrough body l s = none ↔
    ∃ i t, Reaches body l s i t ∧ ∀ t', body i t ≠ .next t' := by
  induction l generalizing s with
  | nil =>
    constructor
    · intro h; cases h
    · rintro ⟨i, t, ⟨pre, post, h, -⟩, -⟩
      simp at h
  | cons j l ih =>
    cases hb : body j s with
    | next s' =>
      simp only [fallThrough, hb, ih]
      constructor
      · rintro ⟨i, t, hr, hn⟩
        exact ⟨i, t, hr.cons hb, hn⟩
      · rintro ⟨i, t, ⟨pre, post, h, ht⟩, hn⟩
        cases pre with
        | nil =>
          obtain ⟨rfl, -⟩ := List.cons.inj h
          cases ht
          exact absurd hb (hn s')
        | cons k pre =>
          obtain ⟨rfl, rfl⟩ := List.cons.inj h
          simp only [fallThrough, hb] at ht
          exact ⟨i, t, ⟨pre, post, rfl, ht⟩, hn⟩
    | brk t => simpa only [fallThrough, hb, true_iff] using ⟨j, s, .head j l s, by simp [hb]⟩
    | ret t r => simpa only [fallThrough, hb, true_iff] using ⟨j, s, .head j l s, by simp [hb]⟩

/-- What a loop can end with: all iterations fell through, or a reached one broke or returned. -/
theorem forLoop_cases (body : ι → σ → Flow σ ρ) (l : List ι) (s : σ) :
    (∃ t, fallThrough body l s = some t ∧ forLoop body l s = (t, none)) ∨
    (∃ i t t', Reaches body l s i t ∧ body i t = .brk t' ∧ forLoop body l s = (t', none)) ∨
    (∃ i t t' r, Reaches body l s i t ∧ body i t = .ret t' r ∧
      forLoop body l s = (t', some r)) := by
  induction l generalizing s with
  | nil => exact .inl ⟨s, rfl, rfl⟩
  | cons i l ih =>
    cases hb : body i s with
    | brk t => exact .inr (.inl ⟨i, s, t, .head i l s, hb, by simp only [forLoop, hb]⟩)
    | ret t r => exact .inr (.inr ⟨i, s, t, r, .head i l s, hb, by simp only [forLoop, hb]⟩)
    | next t =>
      have hl : forLoop body (i :: l) s = forLoop body l t := by simp only [forLoop, hb]
      rw [hl]
      rcases ih t with ⟨u, hu, hr⟩ | ⟨j, u, u', hj, hu, hr⟩ | ⟨j, u, u', r, hj, hu, hr⟩
      · exact .inl ⟨u, by simpa only [fallThrough, hb] using hu, hr⟩
      · exact .inr (.inl ⟨j, u, u', hj.cons hb, hu, hr⟩)
      · exact .inr (.inr ⟨j, u, u', r, hj.cons hb, hu, hr⟩)

/-- A reflexive and transitive relation that every iteration the loop reaches respects holds across
the loop. -/
theorem forLoop_rel_of_reaches {P : σ → σ → Prop} (hrefl : ∀ s, P s s)
    (htrans : ∀ {a b c}, P a b → P b c → P a c) {l : List ι} {s : σ}
    (hbody : ∀ i t, Reaches body l s i t → P t (body i t).state) : P s (forLoop body l s).1 := by
  induction l generalizing s with
  | nil => exact hrefl s
  | cons i l ih =>
    have hi := hbody i s (.head i l s)
    cases hb : body i s with
    | next t =>
      rw [hb] at hi
      have hl : P t (forLoop body l t).1 := ih fun j u hr => hbody j u (hr.cons hb)
      simpa only [forLoop, hb] using htrans hi hl
    | brk t =>
      rw [hb, Flow.state_brk] at hi
      simpa only [forLoop, hb] using hi
    | ret t r =>
      rw [hb, Flow.state_ret] at hi
      simpa only [forLoop, hb] using hi

theorem forLoop_rel {P : σ → σ → Prop} (hrefl : ∀ s, P s s)
    (htrans : ∀ {a b c}, P a b → P b c → P a c) {l : List ι}
    (hbody : ∀ i ∈ l, ∀ s, P s (body i s).state) (s : σ) : P s (forLoop body l s).1 := by
  apply forLoop_rel_of_reaches hrefl htrans
  rintro i t ⟨pre, post, rfl, -⟩
  exact hbody i (by simp) t

end EarlyExit
