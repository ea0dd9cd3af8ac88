import Mathlib.Data.List.Basic

namespace Layout

universe u

variable {α ε : Type*} {β γ : Type u} {unit : ℕ}

/-- From a buffer and an offset to those behind a field. -/
abbrev WriteStep (α ε : Type*) := List α → ℕ → Except ε (List α × ℕ)

def WriteStep.andThen (f g : WriteStep α ε) : WriteStep α ε :=
  fun buffer offset => f buffer offset >>= fun r => g r.1 r.2

/-- The step writes `items` behind what is written, and leaves the room behind them as it is. -/
def Writes (unit : ℕ) (step : WriteStep α ε) (items : List α) : Prop :=
  ∀ written room, items.length ≤ room.length →
    step (written ++ room) (written.length * unit) =
      .ok (written ++ items ++ room.drop items.length, (written ++ items).length * unit)

theorem Writes.andThen {f g : WriteStep α ε} {items items' : List α}
    (hf : Writes unit f items) (hg : Writes unit g items') :
    Writes unit (f.andThen g) (items ++ items') := by
  intro written room hroom
  rw [List.length_append] at hroom
  have hfirst := hf written room (by omega)
  have hrest := hg (written ++ items) (room.drop items.length)
    (by rw [List.length_drop]; omega)
  have hstep : f.andThen g (written ++ room) (written.length * unit) =
      g (written ++ items ++ room.drop items.length) ((written ++ items).length * unit) := by
    simp only [WriteStep.andThen, hfirst, bind, Except.bind]
  rw [hstep, hrest, List.drop_drop, List.append_assoc written, ← List.length_append]

theorem Writes.from_start {step : WriteStep α ε} {items : List α} (h : Writes unit step items)
    {buffer : List α} (hroom : items.length ≤ buffer.length) :
    step buffer 0 = .ok (items ++ buffer.drop items.length, items.length * unit) := by
  have hstart := h [] buffer hroom
  rwa [List.length_nil, Nat.zero_mul, List.nil_append, List.nil_append] at hstart

/-- From a buffer and an offset to the value of a field and the offset behind it. -/
abbrev ReadStep (α ε β : Type*) := List α → ℕ → Except ε (β × ℕ)

def ReadStep.bind (f : ReadStep α ε β) (g : β → ReadStep α ε γ) : ReadStep α ε γ :=
  fun buffer offset => f buffer offset >>= fun r => g r.1 buffer r.2

/-- Where `items` lie in the buffer, the step reads `value` from them. -/
def Reads (unit : ℕ) (step : ReadStep α ε β) (items : List α) (value : β) : Prop :=
  ∀ before after, step (before ++ items ++ after) (before.length * unit) =
    .ok (value, (before ++ items).length * unit)

theorem Reads.bind {f : ReadStep α ε β} {g : β → ReadStep α ε γ} {items items' : List α}
    {x : β} {y : γ} (hf : Reads unit f items x) (hg : Reads unit (g x) items' y) :
    Reads unit (f.bind g) (items ++ items') y := by
  intro before after
  have hfirst := hf before (items' ++ after)
  have hrest := hg (before ++ items) after
  rw [← List.append_assoc] at hfirst
  rw [← List.append_assoc]
  simp only [ReadStep.bind, hfirst, Bind.bind, Except.bind]
  exact hrest

theorem Reads.from_start {step : ReadStep α ε β} {items : List α} {value : β}
    (h : Reads unit step items value) (after : List α) :
    step (items ++ after) 0 = .ok (value, items.length * unit) := by
  have hstart := h [] after
  rwa [List.length_nil, Nat.zero_mul, List.nil_append] at hstart

end Layout
