import Mathlib.Logic.Basic

/-!
# Replaying a log

What a log says about a state when its entries are read one after the other. An entry may leave open
how it is read; a log whose every entry can be read in one way only has one reading.
-/

namespace Replay

variable {ε σ : Type}

/-- Reading the log takes the first state to the second. -/
def Reads (step : ε → σ → σ → Prop) : List ε → σ → σ → Prop
  | [], s, t => s = t
  | e :: log, s, t => ∃ m, step e s m ∧ Reads step log m t

variable {step : ε → σ → σ → Prop}

theorem Reads.snoc {log : List ε} {e : ε} {s m t : σ} (h : Reads step log s m) (he : step e m t) :
    Reads step (log ++ [e]) s t := by
  induction log generalizing s with
  | nil =>
    obtain rfl : s = m := h
    exact ⟨t, he, rfl⟩
  | cons a log ih =>
    obtain ⟨u, hu, h⟩ := h
    exact ⟨u, hu, ih h⟩

theorem Reads.unique (hstep : ∀ e s t t', step e s t → step e s t' → t = t') {log : List ε}
    {s t t' : σ} (h : Reads step log s t) (h' : Reads step log s t') : t = t' := by
  induction log generalizing s with
  | nil =>
    obtain rfl : s = t := h
    exact h'
  | cons a log ih =>
    obtain ⟨u, hu, h⟩ := h
    obtain ⟨u', hu', h'⟩ := h'
    obtain rfl := hstep a s u u' hu hu'
    exact ih h h'

end Replay
