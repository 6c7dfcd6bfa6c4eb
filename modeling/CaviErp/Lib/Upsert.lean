import Mathlib.Logic.Function.Basic
import Mathlib.Data.List.Induction

/-!
# Records that are written by merging

A store of records under keys. A put replaces the fields it names in the record under its key, leaves the
other fields, and creates the record where there is none. So a put that is repeated, with nothing else in
between, changes nothing, and puts under other keys are not seen.
-/

namespace Upsert

variable {κ φ α : Type} [DecidableEq κ]

/-- The values of a record's fields. -/
abbrev Record (φ α : Type) : Type := φ → Option α

namespace Record

/-- The record with the given fields replaced. -/
def merge (r fields : Record φ α) : Record φ α := fun f => (fields f).or (r f)

/-- The fields of an update that the record lacks or has with another value, going by `eqv`. -/
def delta (eqv : α → α → Bool) (r fields : Record φ α) : Record φ α := fun f =>
  (fields f).filter fun v => !(r f).any fun w => eqv w v

variable {eqv : α → α → Bool} {r fields : Record φ α} {f : φ}

theorem delta_eq_some {v : α} :
    r.delta eqv fields f = some v ↔ fields f = some v ∧ ∀ w, r f = some w → eqv w v = false := by
  unfold delta
  rw [Option.filter_eq_some_iff]
  refine and_congr_right fun _ => ?_
  cases r f with
  | none => simp
  | some w => simp

/-- Merging the fields that differ comes to merging all of them. -/
theorem merge_delta (f : φ) :
    Option.Rel (fun a b => a = b ∨ eqv a b = true) (r.merge (r.delta eqv fields) f)
      (r.merge fields f) := by
  unfold merge delta
  cases hf : fields f with
  | none =>
    cases r f with
    | none => exact .none
    | some w => exact .some (.inl rfl)
  | some v =>
    cases hr : r f with
    | none => exact .some (.inl rfl)
    | some w =>
      cases heqv : eqv w v with
      | true =>
        simp only [Option.filter_some, Option.any_some, heqv, Bool.not_true, Bool.false_eq_true,
          if_false, Option.none_or, Option.some_or]
        exact .some (.inr heqv)
      | false =>
        simp only [Option.filter_some, Option.any_some, heqv, Bool.not_false, if_true, Option.some_or]
        exact .some (.inl rfl)

/-- A field does not differ where it is not assigned, or assigned a value equal to the one it had. -/
theorem delta_eq_none_iff :
    r.delta eqv fields f = none ↔
      fields f = none ∨ Option.Rel (fun w v => eqv w v = true) (r f) (r.merge fields f) := by
  unfold merge delta
  cases fields f with
  | none => simp
  | some v =>
    cases r f with
    | none =>
      refine iff_of_false (by simp) ?_
      rintro (h | h)
      · cases h
      · cases h
    | some w => simp

end Record

abbrev Store (κ φ α : Type) : Type := κ → Option (Record φ α)

/-- The value of a field of the record under a key. -/
def Store.field (s : Store κ φ α) (k : κ) (f : φ) : Option α := (s k).bind fun r => r f

/-- The record under a key, with the given fields replaced. -/
def Store.merged (s : Store κ φ α) (k : κ) (fields : Record φ α) : Record φ α := fun f =>
  (fields f).or (s.field k f)

/-- The given fields are written to the record under a key. -/
def Store.put (s : Store κ φ α) (k : κ) (fields : Record φ α) : Store κ φ α :=
  Function.update s k (some (s.merged k fields))

def Store.puts (s : Store κ φ α) (ps : List (κ × Record φ α)) : Store κ φ α :=
  ps.foldl (fun s p => s.put p.1 p.2) s

namespace Store

variable {s : Store κ φ α}

theorem put_of_ne {k k' : κ} (h : k' ≠ k) (fields : Record φ α) : s.put k fields k' = s k' :=
  Function.update_of_ne h ..

theorem field_put_self (k : κ) (fields : Record φ α) (f : φ) :
    (s.put k fields).field k f = (fields f).or (s.field k f) := by
  simp [field, put, merged]

theorem field_put_of_agree {k k' : κ} {fields : Record φ α} {f : φ} {v : α}
    (hv : s.field k f = some v) (h : k' = k → ∀ v', fields f = some v' → v' = v) :
    (s.put k' fields).field k f = some v := by
  by_cases hk : k' = k
  · subst hk
    rw [field_put_self, hv]
    cases hf : fields f with
    | none => rfl
    | some v' => rw [h rfl v' hf, Option.some_or]
  · unfold field
    rw [put_of_ne (Ne.symm hk)]
    exact hv

theorem puts_snoc (ps : List (κ × Record φ α)) (p : κ × Record φ α) :
    s.puts (ps ++ [p]) = (s.puts ps).put p.1 p.2 := by
  simp [puts]

theorem puts_of_not_mem {k : κ} {ps : List (κ × Record φ α)} (h : ∀ p ∈ ps, p.1 ≠ k) :
    s.puts ps k = s k := by
  induction ps generalizing s with
  | nil => rfl
  | cons p ps ih =>
    have htail := ih (s := s.put p.1 p.2) fun q hq => h q (List.mem_cons_of_mem _ hq)
    have hhead : k ≠ p.1 := fun heq => h p List.mem_cons_self heq.symm
    exact htail.trans (put_of_ne hhead p.2)

theorem put_idem {k : κ} {fields : Record φ α} (h : s k = some fields) : s.put k fields = s := by
  have hmerged : s.merged k fields = fields := by
    funext f
    unfold merged field
    rw [h, Option.bind_some]
    cases fields f <;> rfl
  unfold put
  rw [hmerged, ← h, Function.update_eq_self]

/-- Where there was no record, puts of the same fields make just that record, however often. -/
theorem puts_of_same {k : κ} {fields : Record φ α} {ps : List (κ × Record φ α)} (hnone : s k = none)
    (hsame : ∀ p ∈ ps, p.1 = k → p.2 = fields) (hmem : ∃ p ∈ ps, p.1 = k) :
    s.puts ps k = some fields := by
  induction ps using List.reverseRecOn with
  | nil =>
    obtain ⟨p, hp, -⟩ := hmem
    cases hp
  | append_singleton ps p ih =>
    have hearlier : ∀ q ∈ ps, q.1 = k → q.2 = fields := fun q hq =>
      hsame q (List.mem_append_left _ hq)
    rw [puts_snoc]
    by_cases hp : p.1 = k
    · have hfields : p.2 = fields := hsame p (List.mem_append_right _ (by simp)) hp
      rw [hp, hfields]
      by_cases hany : ∃ q ∈ ps, q.1 = k
      · have hrecord := ih hearlier hany
        rw [put_idem hrecord]
        exact hrecord
      · -- the first put under the key
        have hbefore : s.puts ps k = none := by
          rw [puts_of_not_mem fun q hq hk => hany ⟨q, hq, hk⟩]
          exact hnone
        unfold put merged field
        rw [Function.update_self, hbefore]
        congr 1
        funext f
        cases fields f <;> rfl
    · rw [put_of_ne (Ne.symm hp)]
      refine ih hearlier ?_
      obtain ⟨q, hq, hk⟩ := hmem
      rcases List.mem_append.mp hq with hq | hq
      · exact ⟨q, hq, hk⟩
      · obtain rfl := List.mem_singleton.mp hq
        exact absurd hk hp

end Store

end Upsert
