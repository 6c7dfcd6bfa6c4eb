import Mathlib.Data.List.Basic
import Mathlib.Data.List.Induction

/-!
# Streaks

The streak of a property in a history is the number of its last entries that have the property without a
gap. An entry that brings a streak to a given length is there once in each unbroken run that gets so far.
-/

namespace Py

variable {α : Type} (p : α → Bool)

/-- An entry of a history that grew by one is an old entry or the new one. -/
theorem split_snoc {l pre post : List α} {a b : α} (h : l ++ [a] = pre ++ b :: post) :
    (∃ post', l = pre ++ b :: post') ∨ (pre = l ∧ b = a) := by
  rcases List.eq_nil_or_concat post with rfl | ⟨post', last, rfl⟩
  · obtain ⟨hpre, hobs⟩ := List.append_inj' h rfl
    exact .inr ⟨hpre.symm, (List.cons.inj hobs).1.symm⟩
  · have h' : l ++ [a] = (pre ++ b :: post') ++ [last] := by
      rw [h, List.concat_eq_append, List.append_assoc]
      rfl
    exact .inl ⟨post', (List.append_inj' h' rfl).1⟩

/-- The length of the streak of `p` at the end of a history. -/
def streak (l : List α) : Nat := (l.reverse.takeWhile p).length

@[simp] theorem streak_nil : streak p [] = 0 := rfl

theorem streak_snoc (l : List α) (a : α) :
    streak p (l ++ [a]) = if p a then streak p l + 1 else 0 := by
  by_cases ha : p a = true
  · simp [streak, ha]
  · simp [streak, ha]

/-- A streak that is not empty ends in an entry of its own. -/
theorem getLast?_of_streak_pos {l : List α} (h : 0 < streak p l) :
    ∃ a, l.getLast? = some a ∧ p a = true := by
  induction l using List.reverseRecOn with
  | nil => exact absurd h (by simp)
  | append_singleton l a _ =>
    refine ⟨a, by simp, ?_⟩
    by_contra ha
    rw [streak_snoc, if_neg ha] at h
    omega

/-- An unbroken run adds its length to the streak. -/
theorem streak_append_of_all (l : List α) {run : List α} (h : ∀ a ∈ run, p a = true) :
    streak p (l ++ run) = streak p l + run.length := by
  induction run using List.reverseRecOn with
  | nil => simp
  | append_singleton run a ih =>
    have hrun : ∀ b ∈ run, p b = true := fun b hb => h b (List.mem_append_left _ hb)
    have ha : p a = true := h a (by simp)
    rw [← List.append_assoc, streak_snoc, if_pos ha, ih hrun, List.length_append,
      List.length_singleton]
    omega

theorem streak_eq_zero {l : List α} (h : ∀ a, l.getLast? = some a → p a = false) : streak p l = 0 := by
  by_contra hne
  obtain ⟨a, ha, hp⟩ := getLast?_of_streak_pos p (Nat.pos_of_ne_zero hne)
  rw [h a ha] at hp
  cases hp

/-- Where exactly the entries that bring the streak to `n` are marked, an unbroken run after the end of
the last one has one mark if it gets to `n`, and else none. -/
theorem countP_mark {mark : α → Bool} {n : Nat} (hn : 1 ≤ n) {l pre run post : List α}
    (hmark : ∀ pre a post, l = pre ++ a :: post → (mark a = true ↔ p a = true ∧ streak p pre + 1 = n))
    (hl : l = pre ++ run ++ post) (hpre : streak p pre = 0) (hrun : ∀ a ∈ run, p a = true) :
    run.countP mark = if n ≤ run.length then 1 else 0 := by
  induction run using List.reverseRecOn generalizing post with
  | nil =>
    have hnot : ¬ n ≤ ([] : List α).length := by
      rw [List.length_nil]
      omega
    rw [if_neg hnot, List.countP_nil]
  | append_singleton run a ih =>
    have hrun' : ∀ b ∈ run, p b = true := fun b hb => hrun b (List.mem_append_left _ hb)
    have hsplit : l = pre ++ run ++ (a :: post) := by simpa using hl
    have hcount := ih hsplit hrun'
    have ha := hmark (pre ++ run) a post hsplit
    rw [streak_append_of_all p pre hrun', hpre] at ha
    rw [List.countP_append, hcount, List.length_append, List.length_singleton]
    by_cases hreached : run.length + 1 = n
    · -- the run gets to `n` just now
      have hm : mark a = true := ha.mpr ⟨hrun a (by simp), by omega⟩
      rw [if_neg (by omega), if_pos (by omega)]
      simp [hm]
    · have hm : ¬ mark a = true := by
        intro hm
        have := (ha.mp hm).2
        omega
      have hsame : (if n ≤ run.length then 1 else 0) = if n ≤ run.length + 1 then 1 else 0 := by
        by_cases hle : n ≤ run.length
        · rw [if_pos hle, if_pos (by omega)]
        · rw [if_neg hle, if_neg (by omega)]
      simp [hm, hsame]

end Py
