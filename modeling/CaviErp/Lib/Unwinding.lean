import Mathlib.Data.List.Basic

/-!
# Unwinding

A machine answers one input at a time. When its answers to some inputs do not depend on the others is
shown step by step: a relation of states that are alike to an observer is kept by equal inputs, which
are answered alike, and by any input that the observer does not see.
-/

namespace Unwinding

variable {σ σ' ι ι' ο : Type}

/-- Every input with the answer to it. -/
def outputs (step : σ → ι → ο × σ) : σ → List ι → List (ι × ο)
  | _, [] => []
  | s, i :: is => (i, (step s i).1) :: outputs step (step s i).2 is

@[simp] theorem outputs_nil (step : σ → ι → ο × σ) (s : σ) : outputs step s [] = [] := rfl

theorem outputs_cons (step : σ → ι → ο × σ) (s : σ) (i : ι) (is : List ι) :
    outputs step s (i :: is) = (i, (step s i).1) :: outputs step (step s i).2 is := rfl

theorem outputs_inputs (step : σ → ι → ο × σ) (s : σ) (is : List ι) :
    (outputs step s is).map Prod.fst = is := by
  induction is generalizing s with
  | nil => rfl
  | cons i is ih => rw [outputs_cons, List.map_cons, ih]

/-- Where a run is split that shows only a part of each answer. -/
theorem exists_split {α β : Type} {f : α → β} {run : List α} {pre post : List β} {y : β}
    (h : run.map f = pre ++ y :: post) :
    ∃ pre' x post', run = pre' ++ x :: post' ∧ pre'.map f = pre ∧ f x = y ∧ post'.map f = post := by
  obtain ⟨pre', rest, rfl, hpre, hrest⟩ := List.map_eq_append_iff.mp h
  obtain ⟨x, post', rfl, hx, hpost⟩ := List.map_eq_cons_iff.mp hrest
  exact ⟨pre', x, post', rfl, hpre, hx, hpost⟩

/-- What holds of each answer with each one before it. -/
theorem pairwise_of_splits {α : Type} {R : α → α → Prop} {run : List α}
    (h : ∀ pre y post, run = pre ++ y :: post → ∀ x ∈ pre, R x y) : run.Pairwise R := by
  rw [List.pairwise_iff_getElem]
  intro i j hi hj hij
  have hsplit : run = run.take j ++ run[j] :: run.drop (j + 1) := by
    rw [← List.drop_eq_getElem_cons hj, List.take_append_drop]
  have hlen : i < (run.take j).length := by
    rw [List.length_take]
    omega
  have hmem := List.getElem_mem hlen
  rw [List.getElem_take] at hmem
  exact h _ _ _ hsplit _ hmem

/-- The state after a run. -/
def after (step : σ → ι → ο × σ) (s : σ) (is : List ι) : σ := is.foldl (fun s i => (step s i).2) s

/-- What each step preserves holds of the whole run, and of the state in which it ends. -/
theorem after_invariant {step : σ → ι → ο × σ} (I : List (ι × ο) → σ → Prop)
    (hstep : ∀ past s i, I past s → I (past ++ [(i, (step s i).1)]) (step s i).2) (is : List ι)
    (past : List (ι × ο)) {s : σ} (h : I past s) : I (past ++ outputs step s is) (after step s is) := by
  induction is generalizing past s with
  | nil =>
    rw [outputs_nil, List.append_nil]
    exact h
  | cons i is ih =>
    have hrest := ih _ (hstep past s i h)
    rw [List.append_assoc] at hrest
    exact hrest

/-- What each step preserves holds of every past of a run, and of the state in which it ends. -/
theorem outputs_invariant {step : σ → ι → ο × σ} (I : List (ι × ο) → σ → Prop)
    (hstep : ∀ past s i, I past s → I (past ++ [(i, (step s i).1)]) (step s i).2) {is : List ι}
    (past : List (ι × ο)) {pre post : List (ι × ο)} {x : ι × ο} {s : σ} (h : I past s)
    (hsplit : outputs step s is = pre ++ x :: post) :
    ∃ t, I (past ++ pre) t ∧ x.2 = (step t x.1).1 := by
  induction is generalizing past pre s with
  | nil => simp at hsplit
  | cons i is ih =>
    rw [outputs_cons] at hsplit
    cases pre with
    | nil =>
      obtain ⟨rfl, -⟩ := List.cons.inj hsplit
      exact ⟨s, by rwa [List.append_nil], rfl⟩
    | cons y pre =>
      obtain ⟨rfl, hrest⟩ := List.cons.inj hsplit
      obtain ⟨t, ht, hx⟩ := ih _ (hstep past s i h) hrest
      exact ⟨t, by rwa [List.append_assoc] at ht, hx⟩

/-- What an observer sees who sees the inputs in `keep`: the machine as if the others had not been. -/
theorem outputs_filter {step : σ → ι → ο × σ} (keep : ι → Bool) (R : σ → σ → Prop) {is : List ι}
    (hkeep : ∀ i ∈ is, keep i = true → ∀ s t, R s t →
      (step s i).1 = (step t i).1 ∧ R (step s i).2 (step t i).2)
    (hdrop : ∀ i ∈ is, keep i = false → ∀ s t, R s t → R (step s i).2 t) {s t : σ} (h : R s t) :
    (outputs step s is).filter (fun x => keep x.1) = outputs step t (is.filter keep) := by
  induction is generalizing s t with
  | nil => rfl
  | cons i is ih =>
    have hrest := fun {s t} => ih (s := s) (t := t) (fun j hj => hkeep j (List.mem_cons_of_mem _ hj))
      (fun j hj => hdrop j (List.mem_cons_of_mem _ hj))
    rw [outputs_cons]
    cases hk : keep i with
    | true =>
      obtain ⟨hout, hstate⟩ := hkeep i List.mem_cons_self hk s t h
      rw [List.filter_cons_of_pos hk, List.filter_cons_of_pos (by exact hk), outputs_cons, hout,
        hrest hstate]
    | false =>
      have hk' : ¬ keep i = true := by rw [hk]; exact Bool.false_ne_true
      rw [List.filter_cons_of_neg hk', List.filter_cons_of_neg (by exact hk'),
        hrest (hdrop i List.mem_cons_self hk s t h)]

/-- Two machines whose inputs correspond answer alike. -/
theorem outputs_forall₂ {step : σ → ι → ο × σ} {step' : σ' → ι' → ο × σ'} (I : ι → ι' → Prop)
    (R : σ → σ' → Prop)
    (hstep : ∀ i j, I i j → ∀ s t, R s t →
      (step s i).1 = (step' t j).1 ∧ R (step s i).2 (step' t j).2) {is : List ι} {js : List ι'}
    (hinputs : List.Forall₂ I is js) {s : σ} {t : σ'} (h : R s t) :
    (outputs step s is).map Prod.snd = (outputs step' t js).map Prod.snd := by
  induction hinputs generalizing s t with
  | nil => rfl
  | @cons i j is js hij _ ih =>
    obtain ⟨hout, hstate⟩ := hstep i j hij s t h
    rw [outputs_cons, outputs_cons, List.map_cons, List.map_cons, ih hstate]
    exact congrArg₂ List.cons hout rfl

end Unwinding
