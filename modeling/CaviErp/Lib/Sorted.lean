import Mathlib.Data.List.Sort

/-!
# Lists sorted by a key

With distinct keys a list has one order by them, which does not depend on the order it had, and in it what
holds of all that come one before the other holds of all whose keys do.
-/

namespace Sorted

variable {α κ : Type} [LinearOrder κ] (key : α → κ) {l l' : List α}

theorem pairwise_le (l : List α) :
    (l.insertionSort fun a b => key a ≤ key b).Pairwise fun a b => key a ≤ key b := by
  let r : α → α → Prop := fun a b => key a ≤ key b
  have : Std.Total r := ⟨fun a b => le_total (key a) (key b)⟩
  have : IsTrans α r := ⟨fun a b c hab hbc => le_trans hab hbc⟩
  exact List.pairwise_insertionSort r l

/-- Keys in order that are distinct are strictly in order. -/
theorem pairwise_lt (h : (l.map key).Nodup) :
    (l.insertionSort fun a b => key a ≤ key b).Pairwise fun a b => key a < key b := by
  have hperm : (l.insertionSort fun a b => key a ≤ key b).Perm l := List.perm_insertionSort _ l
  have hnodup : ((l.insertionSort fun a b => key a ≤ key b).map key).Nodup := (hperm.map key).nodup_iff.mpr h
  exact ((pairwise_le key l).and (List.pairwise_map.mp hnodup)).imp fun ⟨hle, hne⟩ => lt_of_le_of_ne hle hne

/-- Lists are sorted alike exactly if they have the same elements. -/
theorem insertionSort_eq_iff (h : (l.map key).Nodup) :
    l.insertionSort (fun a b => key a ≤ key b) = l'.insertionSort (fun a b => key a ≤ key b) ↔ l.Perm l' := by
  have hperm : (l.insertionSort fun a b => key a ≤ key b).Perm l := List.perm_insertionSort _ l
  have hperm' : (l'.insertionSort fun a b => key a ≤ key b).Perm l' := List.perm_insertionSort _ l'
  constructor
  · intro heq
    exact hperm.symm.trans ((List.Perm.of_eq heq).trans hperm')
  · intro hsame
    refine (hperm.trans (hsame.trans hperm'.symm)).eq_of_pairwise ?_ (pairwise_le key l) (pairwise_le key l')
    intro a b ha hb hab hba
    have ha : a ∈ l := hperm.mem_iff.mp ha
    have hb : b ∈ l := hsame.mem_iff.mpr (hperm'.mem_iff.mp hb)
    exact List.inj_on_of_nodup_map h ha hb (le_antisymm hab hba)

/-- In such an order a relation holds of all that come one before the other exactly if it does of all whose
keys are one before the other. -/
theorem pairwise_iff {r : α → α → Prop} (hl : l.Pairwise fun a b => key a < key b) :
    l.Pairwise r ↔ ∀ a ∈ l, ∀ b ∈ l, key a < key b → r a b := by
  induction l with
  | nil => exact iff_of_true .nil nofun
  | cons x l ih =>
    obtain ⟨hx, hl⟩ := List.pairwise_cons.mp hl
    rw [List.pairwise_cons, ih hl]
    constructor
    · rintro ⟨hhead, htail⟩ a ha b hb hlt
      rcases List.mem_cons.mp ha with rfl | hal
      · rcases List.mem_cons.mp hb with rfl | hbl
        · exact absurd hlt (lt_irrefl _)
        · exact hhead b hbl
      · rcases List.mem_cons.mp hb with rfl | hbl
        · exact absurd (hlt.trans (hx a hal)) (lt_irrefl _)
        · exact htail a hal b hbl hlt
    · intro h
      refine ⟨fun b hb => h x List.mem_cons_self b (List.mem_cons_of_mem x hb) (hx b hb), ?_⟩
      intro a ha b hb hlt
      exact h a (List.mem_cons_of_mem x ha) b (List.mem_cons_of_mem x hb) hlt

end Sorted
