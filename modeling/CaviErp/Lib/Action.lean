import Mathlib.Data.List.Basic

/-!
# Computations that change a world and may raise

`Action W ε α` is a Python-style procedure: it runs in a world, may change it, and returns a value or
raises. What was changed before an exception stays changed. `forEach` is a `for` loop over inputs
(it ends at the first exception), `serve` is a service that outlives an aborted request.
-/

namespace Py

/-- A procedure in a world `W` that returns an `α` or raises an `ε`. -/
def Action (W ε α : Type) : Type := W → Except ε α × W

namespace Action

variable {W ε α β ι : Type}

instance : Monad (Action W ε) where
  pure a := fun w => (.ok a, w)
  bind x f := fun w =>
    match x w with
    | (.ok a, w') => f a w'
    | (.error e, w') => (.error e, w')

def raise (e : ε) : Action W ε α := fun w => (.error e, w)

def read : Action W ε W := fun w => (.ok w, w)

def modify (f : W → W) : Action W ε Unit := fun w => (.ok (), f w)

/-- Return or raise a result that is already known. -/
def ofExcept (r : Except ε α) : Action W ε α := fun w => (r, w)

def raiseIf (r : Option ε) : Action W ε Unit := fun w =>
  match r with
  | none => (.ok (), w)
  | some e => (.error e, w)

/-- `try:`, with the outcome handed on for the `except` clauses to look at. -/
def attempt (x : Action W ε α) : Action W ε (Except ε α) := fun w => (.ok (x w).1, (x w).2)

@[simp] theorem pure_apply (a : α) (w : W) : (pure a : Action W ε α) w = (.ok a, w) := rfl

@[simp] theorem bind_apply (x : Action W ε α) (f : α → Action W ε β) (w : W) :
    (x >>= f) w =
      match x w with
      | (.ok a, w') => f a w'
      | (.error e, w') => (.error e, w') := rfl

@[simp] theorem raise_apply (e : ε) (w : W) : (raise e : Action W ε α) w = (.error e, w) := rfl

@[simp] theorem read_apply (w : W) : (read : Action W ε W) w = (.ok w, w) := rfl

@[simp] theorem modify_apply (f : W → W) (w : W) :
    (modify f : Action W ε Unit) w = (.ok (), f w) := rfl

@[simp] theorem ofExcept_apply (r : Except ε α) (w : W) :
    (ofExcept r : Action W ε α) w = (r, w) := rfl

@[simp] theorem raiseIf_none (w : W) : (raiseIf none : Action W ε Unit) w = (.ok (), w) := rfl

@[simp] theorem raiseIf_some (e : ε) (w : W) :
    (raiseIf (some e) : Action W ε Unit) w = (.error e, w) := rfl

@[simp] theorem attempt_apply (x : Action W ε α) (w : W) :
    attempt x w = (.ok (x w).1, (x w).2) := rfl

/-- A sequence that returned: its first part returned, and so did the rest. -/
theorem bind_eq_ok {x : Action W ε α} {f : α → Action W ε β} {b : β} {w w' : W}
    (h : (x >>= f) w = (.ok b, w')) : ∃ a v, x w = (.ok a, v) ∧ f a v = (.ok b, w') := by
  rw [bind_apply] at h
  rcases hx : x w with ⟨r, v⟩
  rw [hx] at h
  cases r with
  | error e => cases h
  | ok a => exact ⟨a, v, rfl, h⟩

theorem ofExcept_bind_eq_ok {r : Except ε α} {f : α → Action W ε β} {b : β} {w w' : W}
    (h : (ofExcept r >>= f) w = (.ok b, w')) : ∃ a, r = .ok a ∧ f a w = (.ok b, w') := by
  obtain ⟨a, v, hr, hf⟩ := bind_eq_ok h
  obtain ⟨rfl, rfl⟩ := Prod.mk.inj hr
  exact ⟨a, rfl, hf⟩

/-! ## Loops -/

/-- `for i in inputs: step(i)`. -/
def forEach (step : ι → Action W ε Unit) : List ι → Action W ε Unit
  | [] => pure ()
  | i :: is => do
    step i
    forEach step is

/-- A request at a time; one that raises is aborted and the next is served. -/
def serve (step : ι → Action W ε Unit) (w : W) (is : List ι) : W :=
  is.foldl (fun w i => (step i w).2) w

/-- Every request finds a world that meets the condition `P`. -/
def Along (step : ι → Action W ε Unit) (P : ι → W → Prop) : W → List ι → Prop
  | _, [] => True
  | w, i :: is => P i w ∧ Along step P (step i w).2 is

@[simp] theorem forEach_nil (step : ι → Action W ε Unit) (w : W) :
    forEach step [] w = (.ok (), w) := rfl

theorem forEach_cons (step : ι → Action W ε Unit) (i : ι) (is : List ι) (w : W) :
    forEach step (i :: is) w =
      match step i w with
      | (.ok _, w') => forEach step is w'
      | (.error e, w') => (.error e, w') := by
  rw [forEach, bind_apply]
  rcases step i w with ⟨_ | _, _⟩ <;> rfl

theorem forEach_append (step : ι → Action W ε Unit) (is js : List ι) (w : W) :
    forEach step (is ++ js) w =
      match forEach step is w with
      | (.ok _, w') => forEach step js w'
      | (.error e, w') => (.error e, w') := by
  induction is generalizing w with
  | nil => rfl
  | cons i is ih =>
    rw [List.cons_append, forEach_cons, forEach_cons]
    rcases step i w with ⟨r, w'⟩
    cases r with
    | ok u => exact ih w'
    | error e => rfl

@[simp] theorem serve_nil (step : ι → Action W ε Unit) (w : W) : serve step w [] = w := rfl

@[simp] theorem serve_cons (step : ι → Action W ε Unit) (w : W) (i : ι) (is : List ι) :
    serve step w (i :: is) = serve step (step i w).2 is := rfl

theorem serve_append (step : ι → Action W ε Unit) (w : W) (is js : List ι) :
    serve step w (is ++ js) = serve step (serve step w is) js :=
  List.foldl_append ..

theorem along_append {step : ι → Action W ε Unit} {P : ι → W → Prop} {w : W} {is js : List ι} :
    Along step P w (is ++ js) ↔ Along step P w is ∧ Along step P (serve step w is) js := by
  induction is generalizing w with
  | nil => simp [Along]
  | cons i is ih => simp only [List.cons_append, Along, ih, serve_cons, and_assoc]

theorem along_congr {step : ι → Action W ε Unit} {P Q : ι → W → Prop} (h : ∀ i w, P i w ↔ Q i w) {w : W}
    {is : List ι} : Along step P w is ↔ Along step Q w is := by
  induction is generalizing w with
  | nil => exact Iff.rfl
  | cons i is ih => exact and_congr (h i w) ih

theorem along_and {step : ι → Action W ε Unit} {P Q : ι → W → Prop} {w : W} {is : List ι} :
    Along step (fun i w => P i w ∧ Q i w) w is ↔ Along step P w is ∧ Along step Q w is := by
  induction is generalizing w with
  | nil => exact (and_self_iff).symm
  | cons i is ih => simp only [Along, ih, and_and_and_comm]

/-- A loop returns where each step does, and ends in the world of the steps. -/
theorem forEach_ok_iff {step : ι → Action W ε Unit} {is : List ι} {w : W} :
    (forEach step is w).1 = .ok () ↔ Along step (fun i w => (step i w).1 = .ok ()) w is := by
  induction is generalizing w with
  | nil => simp [Along]
  | cons i is ih =>
    rw [forEach_cons, Along, ← ih]
    rcases step i w with ⟨_ | _, _⟩
    · simp
    · simp

theorem serve_of_forEach_ok {step : ι → Action W ε Unit} {is : List ι} {w : W}
    (h : (forEach step is w).1 = .ok ()) : (forEach step is w).2 = serve step w is := by
  induction is generalizing w with
  | nil => rfl
  | cons i is ih =>
    rw [serve_cons]
    rw [forEach_cons] at h ⊢
    rcases hs : step i w with ⟨r, w'⟩
    rw [hs] at h
    cases r with
    | ok u => exact ih h
    | error e => cases h

/-- A loop whose steps return keeps an invariant, which may speak of the inputs still to come, and a
step that raises establishes the weaker `R`. -/
theorem forEach_induct {step : ι → Action W ε Unit} {I : List ι → W → Prop} {R : W → Prop}
    (hstep : ∀ i is w, I (i :: is) w →
      ((step i w).1 = .ok () → I is (step i w).2) ∧
      (∀ e, (step i w).1 = .error e → R (step i w).2))
    (is : List ι) (w : W) (h : I is w) :
    ((forEach step is w).1 = .ok () → I [] (forEach step is w).2) ∧
      (∀ e, (forEach step is w).1 = .error e → R (forEach step is w).2) := by
  induction is generalizing w with
  | nil => exact ⟨fun _ => h, fun e he => by simp at he⟩
  | cons i is ih =>
    obtain ⟨hok, herr⟩ := hstep i is w h
    rw [forEach_cons]
    rcases hs : step i w with ⟨r, w'⟩
    rw [hs] at hok herr
    cases r with
    | ok u => exact ih w' (hok rfl)
    | error e => exact ⟨fun he => by simp at he, fun _ _ => herr e rfl⟩

/-- An invariant of every request, whether served or aborted, holds after any number of them. -/
theorem serve_induct {step : ι → Action W ε Unit} {I : W → Prop} (hstep : ∀ i w, I w → I (step i w).2)
    (is : List ι) (w : W) (h : I w) : I (serve step w is) := by
  induction is generalizing w with
  | nil => exact h
  | cons i is ih => exact ih _ (hstep i w h)

/-! ## Invariants -/

/-- The procedure keeps `I`, whether it returns or raises. -/
def Keeps (I : W → Prop) (x : Action W ε α) : Prop := ∀ w, I w → I (x w).2

namespace Keeps

variable {I : W → Prop}

theorem pure (a : α) : Keeps I (Pure.pure a : Action W ε α) := fun _ h => h

theorem raise (e : ε) : Keeps I (Action.raise e : Action W ε α) := fun _ h => h

theorem bind {x : Action W ε α} {f : α → Action W ε β} (hx : Keeps I x) (hf : ∀ a, Keeps I (f a)) :
    Keeps I (x >>= f) := by
  intro w h
  have hw := hx w h
  rw [bind_apply]
  rcases hxw : x w with ⟨r, w'⟩
  rw [hxw] at hw
  cases r with
  | ok a => exact hf a w' hw
  | error e => exact hw

/-- What follows may use how a known result came about. -/
theorem ofExcept_bind {r : Except ε α} {f : α → Action W ε β} (hf : ∀ a, r = .ok a → Keeps I (f a)) :
    Keeps I (Action.ofExcept r >>= f) := by
  intro w h
  cases r with
  | ok a => exact hf a rfl w h
  | error e => exact h

end Keeps

/-! ## Two runs -/

/-- From related worlds, the procedure has one outcome and ends in related worlds. -/
def Respects (r : W → W → Prop) (x : Action W ε α) : Prop :=
  ∀ w w', r w w' → (x w).1 = (x w').1 ∧ r (x w).2 (x w').2

namespace Respects

variable {r : W → W → Prop}

theorem pure (a : α) : Respects r (Pure.pure a : Action W ε α) := fun _ _ h => ⟨rfl, h⟩

theorem raise (e : ε) : Respects r (Action.raise e : Action W ε α) := fun _ _ h => ⟨rfl, h⟩

theorem ofExcept (x : Except ε α) : Respects r (Action.ofExcept x) := fun _ _ h => ⟨rfl, h⟩

theorem raiseIf (x : Option ε) : Respects r (Action.raiseIf x : Action W ε Unit) := by
  intro w w' h
  cases x with
  | none => exact ⟨rfl, h⟩
  | some e => exact ⟨rfl, h⟩

theorem modify {f : W → W} (hf : ∀ w w', r w w' → r (f w) (f w')) :
    Respects r (Action.modify f : Action W ε Unit) := fun w w' h => ⟨rfl, hf w w' h⟩

theorem attempt {x : Action W ε α} (hx : Respects r x) : Respects r (Action.attempt x) := by
  intro w w' h
  obtain ⟨hout, hworld⟩ := hx w w' h
  exact ⟨congrArg Except.ok hout, hworld⟩

/-- What follows may use how the value came about. -/
theorem bind_ok {x : Action W ε α} {f : α → Action W ε β} (hx : Respects r x)
    (hf : ∀ a w, (x w).1 = .ok a → Respects r (f a)) : Respects r (x >>= f) := by
  intro w w' h
  obtain ⟨hout, hworld⟩ := hx w w' h
  have ha : ∀ a, (x w).1 = .ok a → Respects r (f a) := fun a hxa => hf a w hxa
  rw [bind_apply, bind_apply]
  rcases hx₁ : x w with ⟨out, v⟩
  rcases hx₂ : x w' with ⟨out', v'⟩
  rw [hx₁] at ha
  rw [hx₁, hx₂] at hout hworld
  obtain rfl : out = out' := hout
  cases out with
  | ok a => exact ha a rfl v v' hworld
  | error e => exact ⟨rfl, hworld⟩

theorem bind {x : Action W ε α} {f : α → Action W ε β} (hx : Respects r x)
    (hf : ∀ a, Respects r (f a)) : Respects r (x >>= f) :=
  hx.bind_ok fun a _ _ => hf a

theorem ofExcept_bind {x : Except ε α} {f : α → Action W ε β}
    (hf : ∀ a, x = .ok a → Respects r (f a)) : Respects r (Action.ofExcept x >>= f) :=
  (ofExcept x).bind_ok fun a _ hx => hf a hx

/-- What is done with the world that is read must not tell related worlds apart. -/
theorem read_bind {f : W → Action W ε β}
    (hf : ∀ w w', r w w' → f w = f w' ∧ Respects r (f w')) : Respects r (Action.read >>= f) := by
  intro w w' h
  obtain ⟨hsame, hrespects⟩ := hf w w' h
  have hw : (Action.read >>= f) w = f w' w := by
    rw [← hsame]
    rfl
  have hw' : (Action.read >>= f) w' = f w' w' := rfl
  rw [hw, hw']
  exact hrespects w w' h

end Respects

end Action

end Py
