import Mathlib.Algebra.Notation.Defs
import Mathlib.Data.List.Basic
import Mathlib.Data.List.GetD

namespace StreamReader

universe u

variable {α ε : Type*} {β γ : Type u} {unit : ℕ}

def advance (n : ℕ) (s : ℕ → α) : ℕ → α := fun i => s (n + i)

theorem advance_advance (m n : ℕ) (s : ℕ → α) : advance n (advance m s) = advance (m + n) s := by
  funext i
  rw [advance, advance, advance, Nat.add_assoc]

variable [Zero α]

/-- The valid part of the buffer from item `pos` on, and zeros behind it. -/
def tail (buffer : List α) (size pos : ℕ) : ℕ → α := fun i => (buffer.take size).getD (pos + i) 0

theorem advance_tail (buffer : List α) (size pos n : ℕ) :
    advance n (tail buffer size pos) = tail buffer size (pos + n) := by
  funext i
  rw [advance, tail, tail, Nat.add_assoc]

theorem tail_behind {buffer : List α} {size pos : ℕ} (h : size ≤ pos) :
    tail buffer size pos = fun _ => 0 := by
  funext i
  apply List.getD_eq_default
  rw [List.length_take]
  omega

/-- Behind the end all positions are alike. -/
theorem tail_congr {buffer : List α} {size pos pos' : ℕ} (h : min pos size = min pos' size) :
    tail buffer size pos = tail buffer size pos' := by
  by_cases hpos : pos < size
  · have heq : pos = pos' := by omega
    rw [heq]
  · rw [tail_behind (Nat.le_of_not_lt hpos), tail_behind (by omega)]

/-- What is valid behind the first items is the tail of a smaller buffer. -/
theorem tail_drop (buffer : List α) (size pos : ℕ) :
    tail (buffer.drop pos) (size - min pos size) 0 = tail buffer size pos := by
  by_cases hpos : pos < size
  · have hmin : min pos size = pos := by omega
    funext i
    rw [tail, tail, hmin, ← List.drop_take, Nat.zero_add]
    simp only [List.getD_eq_getElem?_getD, List.getElem?_drop]
  · rw [tail_behind (Nat.le_of_not_lt hpos), tail_behind (by omega)]

/-- From a stream to a value and the number of items it is made of. -/
abbrev Parser (α ε β : Type*) := (ℕ → α) → Except ε (β × ℕ)

def Parser.bind (p : Parser α ε β) (q : β → Parser α ε γ) : Parser α ε γ := fun s =>
  p s >>= fun r => (q r.1 (advance r.2 s)).map fun r' => (r'.1, r.2 + r'.2)

abbrev Reader (α ε β : Type*) := List α → (size offset : ℕ) → Except ε (β × ℕ)

def Reader.bind (f : Reader α ε β) (g : β → Reader α ε γ) : Reader α ε γ :=
  fun buffer size offset => f buffer size offset >>= fun r => g r.1 buffer size r.2

/-- At every position the reader reads what the parser does, and stops behind it or at the end. -/
def Implements (unit : ℕ) (reader : Reader α ε β) (p : Parser α ε β) : Prop :=
  ∀ (buffer : List α) (size pos : ℕ), size ≤ buffer.length →
    match p (tail buffer size pos) with
    | .error e => reader buffer size (pos * unit) = .error e
    | .ok r => ∃ pos', reader buffer size (pos * unit) = .ok (r.1, pos' * unit) ∧
        min pos' size = min (pos + r.2) size

theorem Implements.bind {f : Reader α ε β} {g : β → Reader α ε γ} {p : Parser α ε β}
    {q : β → Parser α ε γ} (hf : Implements unit f p) (hg : ∀ x, Implements unit (g x) (q x)) :
    Implements unit (f.bind g) (p.bind q) := by
  intro buffer size pos hsize
  have hfirst := hf buffer size pos hsize
  unfold Parser.bind Reader.bind
  cases hp : p (tail buffer size pos) with
  | error e =>
    rw [hp] at hfirst
    rw [hfirst]
    rfl
  | ok r =>
    rw [hp] at hfirst
    obtain ⟨pos', hread, hpos⟩ := hfirst
    have hrest := hg r.1 buffer size pos' hsize
    rw [tail_congr hpos, ← advance_tail] at hrest
    simp only [Bind.bind, Except.bind, hread]
    cases hq : q r.1 (advance r.2 (tail buffer size pos)) with
    | error e =>
      rw [hq] at hrest
      exact hrest
    | ok r' =>
      rw [hq] at hrest
      obtain ⟨pos'', hread', hpos'⟩ := hrest
      refine ⟨pos'', hread', ?_⟩
      dsimp only
      omega

/-- A reader of whole buffers that decodes them as the parser does. The size of the result is that
of the valid part it is made of. -/
def Decodes (decode : List α → (size : ℕ) → Except ε (β × ℕ)) (p : Parser α ε β) : Prop :=
  ∀ (buffer : List α) (size : ℕ), size ≤ buffer.length →
    decode buffer size = (p (tail buffer size 0)).map fun r => (r.1, min r.2 size)

theorem Implements.decodes {reader : Reader α ε β} {p : Parser α ε β}
    (h : Implements unit reader p) (hunit : 0 < unit) :
    Decodes (fun buffer size => reader buffer size 0 >>= fun r =>
      .ok (r.1, min r.2 (size * unit) / unit)) p := by
  intro buffer size hsize
  have hread := h buffer size 0 hsize
  rw [Nat.zero_mul] at hread
  dsimp only
  cases hp : p (tail buffer size 0) with
  | error e =>
    rw [hp] at hread
    rw [hread]
    rfl
  | ok r =>
    rw [hp] at hread
    obtain ⟨pos', hread, hpos⟩ := hread
    rw [Nat.zero_add] at hpos
    rw [hread]
    change Except.ok (r.1, min (pos' * unit) (size * unit) / unit) = .ok (r.1, min r.2 size)
    rw [← hpos, Nat.mul_min_mul_right, Nat.mul_div_cancel _ hunit]

/-- The reader of a part that is decoded as a buffer of its own. -/
def nestedReader (unit : ℕ) (decode : List α → ℕ → Except ε (β × ℕ)) : Reader α ε β :=
  fun buffer size offset =>
    decode (buffer.drop (offset / unit)) (size - min (offset / unit) size) >>= fun r =>
      .ok (r.1, offset + r.2 * unit)

theorem Decodes.implements {decode : List α → ℕ → Except ε (β × ℕ)} {p : Parser α ε β}
    (h : Decodes decode p) (hunit : 0 < unit) : Implements unit (nestedReader unit decode) p := by
  intro buffer size pos hsize
  have hvalid : size - min pos size ≤ (buffer.drop pos).length := by
    rw [List.length_drop]
    omega
  have hdecode := h (buffer.drop pos) (size - min pos size) hvalid
  rw [tail_drop] at hdecode
  unfold nestedReader
  rw [Nat.mul_div_cancel _ hunit, hdecode]
  cases p (tail buffer size pos) with
  | error e => rfl
  | ok r =>
    refine ⟨pos + min r.2 (size - min pos size), ?_, by omega⟩
    rw [Nat.add_mul]
    rfl

/-- What is behind the valid part is not read. -/
theorem Decodes.take {decode : List α → ℕ → Except ε (β × ℕ)} {p : Parser α ε β}
    (h : Decodes decode p) {buffer : List α} {size : ℕ} (hsize : size ≤ buffer.length) :
    decode buffer size = decode (buffer.take size) size := by
  have hvalid : size ≤ (buffer.take size).length := Nat.le_of_eq (List.length_take_of_le hsize).symm
  have htail : tail (buffer.take size) size 0 = tail buffer size 0 := by
    funext i
    rw [tail, tail, List.take_take, Nat.min_self]
  rw [h buffer size hsize, h _ size hvalid, htail]

end StreamReader
