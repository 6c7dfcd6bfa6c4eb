import Mathlib.Data.List.Perm.Basic
import Mathlib.Data.List.Forall2
import Mathlib.Data.List.Nodup

/-!
# Mappings as lists of items

A mapping is the list of its items, with distinct keys: what is under a key then depends on the items
and not on their order.
-/

namespace Dict

variable {κ α β : Type} [DecidableEq κ] {d d' : List (κ × α)} {k : κ} {v : α}

/-! ## Looking up a key -/

theorem lookup_eq_none_iff : d.lookup k = none ↔ k ∉ d.map Prod.fst := by
  rw [List.lookup_eq_none_iff, List.mem_map]
  constructor
  · rintro h ⟨p, hp, rfl⟩
    exact absurd (h p hp) (by simp)
  · intro h p hp
    exact bne_iff_ne.mpr fun heq => h ⟨p, hp, heq.symm⟩

theorem lookup_cons (p : κ × α) (d : List (κ × α)) (k : κ) :
    (p :: d).lookup k = if k = p.1 then some p.2 else d.lookup k := by
  rw [List.lookup_cons]
  by_cases hk : k = p.1
  · rw [if_pos hk, hk, beq_self_eq_true]
  · rw [if_neg hk, beq_false_of_ne hk]

/-- Another value under a key that is there. -/
theorem lookup_replace (h : k ∈ d.map Prod.fst) (v : α) (l : κ) :
    (d.map fun p => if p.1 = k then (k, v) else p).lookup l =
      if l = k then some v else d.lookup l := by
  by_cases hl : l = k
  · subst hl
    rw [if_pos rfl]
    induction d with
    | nil => cases h
    | cons p d ih =>
      rw [List.map_cons, lookup_cons]
      by_cases hp : p.1 = l
      · rw [if_pos hp, if_pos rfl]
      · rw [if_neg hp, if_neg (Ne.symm hp)]
        exact ih ((List.mem_cons.mp h).resolve_left (Ne.symm hp))
  · rw [if_neg hl]
    clear h
    induction d with
    | nil => rfl
    | cons p d ih =>
      rw [List.map_cons, lookup_cons, lookup_cons, ih]
      by_cases hp : p.1 = k
      · rw [if_pos hp, if_neg hl, if_neg (fun h => hl (h.trans hp))]
      · rw [if_neg hp]

theorem exists_lookup_iff : (∃ v, d.lookup k = some v) ↔ k ∈ d.map Prod.fst := by
  rw [← Option.isSome_iff_exists, Option.isSome_iff_ne_none, ne_eq, lookup_eq_none_iff, not_not]

theorem mem_of_lookup (h : d.lookup k = some v) : (k, v) ∈ d := by
  obtain ⟨l₁, l₂, rfl, -⟩ := List.lookup_eq_some_iff.mp h
  simp

theorem lookup_eq_some_iff (hd : (d.map Prod.fst).Nodup) : d.lookup k = some v ↔ (k, v) ∈ d := by
  refine ⟨mem_of_lookup, fun hmem => ?_⟩
  obtain ⟨w, hw⟩ := exists_lookup_iff.mpr (List.mem_map_of_mem (f := Prod.fst) hmem)
  have hsame : (k, w) = (k, v) := List.inj_on_of_nodup_map hd (mem_of_lookup hw) hmem rfl
  have hwv : w = v := congrArg Prod.snd hsame
  rw [hw, hwv]

/-- The order of the items does not show in what is under a key. -/
theorem lookup_perm (hd : (d.map Prod.fst).Nodup) (hp : d.Perm d') (k : κ) :
    d.lookup k = d'.lookup k := by
  have hd' : (d'.map Prod.fst).Nodup := (hp.map Prod.fst).nodup_iff.mp hd
  ext v
  rw [lookup_eq_some_iff hd, lookup_eq_some_iff hd']
  exact hp.mem_iff

/-! ## Mappings item by item -/

/-- Mappings of related items have related values under each key. -/
theorem lookup_forall₂ {r : α → β → Prop} {d : List (κ × α)} {e : List (κ × β)}
    (h : List.Forall₂ (fun p q => p.1 = q.1 ∧ r p.2 q.2) d e) (k : κ) :
    Option.Rel r (d.lookup k) (e.lookup k) := by
  induction h with
  | nil => exact Option.Rel.none
  | @cons p q d e hpq _ ih =>
    obtain ⟨l, v⟩ := p
    obtain ⟨l', w⟩ := q
    obtain ⟨rfl, hr⟩ := hpq
    by_cases hk : k = l
    · subst hk
      rw [List.lookup_cons_self, List.lookup_cons_self]
      exact Option.Rel.some hr
    · rw [List.lookup_cons, List.lookup_cons, beq_false_of_ne hk]
      exact ih

omit [DecidableEq κ] in
theorem keys_forall₂ {r : α → β → Prop} {d : List (κ × α)} {e : List (κ × β)}
    (h : List.Forall₂ (fun p q => p.1 = q.1 ∧ r p.2 q.2) d e) : d.map Prod.fst = e.map Prod.fst := by
  induction h with
  | nil => rfl
  | cons hpq _ ih => rw [List.map_cons, List.map_cons, hpq.1, ih]

/-! ## Going through the items -/

omit [DecidableEq κ] in
/-- What is made of some of the items keeps their order. -/
theorem filterMap_sublist {ι γ : Type} {f : ι → Option γ} (key : ι → κ) (key' : γ → κ)
    (h : ∀ i c, f i = some c → key' c = key i) (items : List ι) :
    ((items.filterMap f).map key').Sublist (items.map key) := by
  induction items with
  | nil => exact List.Sublist.slnil
  | cons i items ih =>
    rw [List.filterMap_cons, List.map_cons]
    cases hc : f i with
    | none => exact ih.cons _
    | some c =>
      rw [List.map_cons, h i c hc]
      exact ih.cons_cons _

end Dict
