import CaviErp.Lib.Schema

/-!
# What a valid value looks like

One characterisation for each form of schema in use.
-/

namespace Py

namespace Schema

theorem admits_of_valid {kw : Keywords} {props : List (String × Schema)} {items : Option Schema}
    {j : Json} (h : valid (mk kw props items) j = true) : kw.admits j = true := by
  cases j <;> (simp only [valid, Bool.and_eq_true] at h; exact h.1)

theorem validProps_iff (props : List (String × Schema)) (o : Obj) :
    validProps props o = true ↔ ∀ k s v, (k, s) ∈ props → o.get? k = some v → valid s v = true := by
  induction props with
  | nil => simp [validProps]
  | cons p props ih =>
    obtain ⟨k, s⟩ := p
    rw [validProps, Bool.and_eq_true, ih]
    constructor
    · rintro ⟨hhead, htail⟩ k' s' v hmem hv
      rcases List.mem_cons.mp hmem with heq | hmem
      · obtain ⟨rfl, rfl⟩ := Prod.mk.injEq .. |>.mp heq
        simpa [hv] using hhead
      · exact htail k' s' v hmem hv
    · intro h
      refine ⟨?_, fun k' s' v hmem hv => h k' s' v (List.mem_cons_of_mem _ hmem) hv⟩
      cases hv : Obj.get? o k with
      | none => rfl
      | some v => exact h k s v List.mem_cons_self hv

/-- Valid against a closed record: a dictionary with the required keys, without undeclared ones, each
value valid against the schema declared for it. -/
theorem valid_record_iff (required : List String) (props : List (String × Schema)) (j : Json) :
    valid (record required props) j = true ↔ ∃ o : Obj, j = .obj o ∧
      (∀ k ∈ required, (o.get? k).isSome) ∧ (∀ k ∈ o.keys, k ∈ props.map Prod.fst) ∧
      ∀ k s v, (k, s) ∈ props → o.get? k = some v → valid s v = true := by
  constructor
  · intro h
    cases j with
    | obj o =>
      simp only [record, valid, Keywords.admits, List.isEmpty_cons, List.any_cons, JType.admits,
        List.any_nil, Bool.or_false, Bool.or_true, Bool.and_true, Keywords.objectOk, Bool.not_true,
        Bool.false_or, Bool.and_eq_true, List.all_eq_true, List.contains_iff_mem, true_and,
        validProps_iff] at h
      exact ⟨o, rfl, h.1.1, h.1.2, h.2⟩
    | _ => simp [record, valid, Keywords.admits, JType.admits] at h
  · rintro ⟨o, rfl, hreq, hclosed, hprops⟩
    simp only [record, valid, Keywords.admits, List.isEmpty_cons, List.any_cons, JType.admits,
      List.any_nil, Bool.or_false, Bool.or_true, Bool.and_true, Keywords.objectOk, Bool.not_true,
      Bool.false_or, Bool.and_eq_true, List.all_eq_true, List.contains_iff_mem, true_and,
      validProps_iff]
    exact ⟨⟨hreq, hclosed⟩, hprops⟩

/-- A dictionary with exactly the declared keys is valid when its values are, one by one. -/
theorem valid_strictRecord_iff {props : List (String × Schema)} {o : Obj}
    (hkeys : o.keys = props.map Prod.fst) (hnodup : (props.map Prod.fst).Nodup) :
    valid (strictRecord props) (.obj o) = true ↔
      List.Forall₂ (fun p kv => valid p.2 kv.2 = true) props o := by
  rw [← hkeys] at hnodup
  have hpresent : ∀ k ∈ props.map Prod.fst, (o.get? k).isSome := by
    intro k hk
    rw [← hkeys] at hk
    obtain ⟨kv, hkv, rfl⟩ := List.mem_map.mp hk
    rw [Option.isSome_iff_ne_none]
    intro hnone
    have hne := List.lookup_eq_none_iff.mp hnone kv hkv
    simp at hne
  have hvalues : valid (strictRecord props) (.obj o) = true ↔
      ∀ k s v, (k, s) ∈ props → o.get? k = some v → valid s v = true := by
    rw [strictRecord, valid_record_iff]
    constructor
    · rintro ⟨o', ho, -, -, hprops⟩
      obtain rfl := Json.obj.inj ho
      exact hprops
    · intro hprops
      exact ⟨o, rfl, hpresent, fun k hk => hkeys ▸ hk, hprops⟩
  rw [hvalues]
  clear hvalues hpresent
  induction props generalizing o with
  | nil =>
    obtain rfl : o = [] := by simpa [Obj.keys] using hkeys
    simp
  | cons p props ih =>
    cases o with
    | nil => simp [Obj.keys] at hkeys
    | cons kv o =>
      obtain ⟨hk, hrest⟩ := List.cons.inj hkeys
      obtain ⟨hfresh, hnodup⟩ := List.nodup_cons.mp hnodup
      have hih : (∀ k s v, (k, s) ∈ props → Obj.get? o k = some v → valid s v = true) ↔ _ :=
        ih hrest hnodup
      rw [List.forall₂_cons, ← hih]
      obtain ⟨k, s⟩ := p
      obtain ⟨k', v'⟩ := kv
      obtain rfl : k' = k := hk
      -- the other declared keys are found behind the first
      have hget : ∀ k₂ s₂, (k₂, s₂) ∈ props → Obj.get? ((k', v') :: o) k₂ = Obj.get? o k₂ := by
        intro k₂ s₂ hmem
        have hne : k₂ ≠ k' := by
          rintro rfl
          refine hfresh ?_
          show k₂ ∈ o.map Prod.fst
          rw [hrest]
          exact List.mem_map_of_mem hmem
        have hbeq : (k₂ == k') = false := beq_eq_false_iff_ne.mpr hne
        simp [Obj.get?, List.lookup_cons, hbeq]
      constructor
      · intro h
        refine ⟨h k' s v' List.mem_cons_self (by simp [Obj.get?]), ?_⟩
        intro k₂ s₂ v₂ hmem hv₂
        exact h k₂ s₂ v₂ (List.mem_cons_of_mem _ hmem) ((hget k₂ s₂ hmem).trans hv₂)
      · rintro ⟨hhead, htail⟩ k₂ s₂ v₂ hmem hv₂
        rcases List.mem_cons.mp hmem with heq | hmem
        · obtain ⟨rfl, rfl⟩ := Prod.mk.inj heq
          have hv : v' = v₂ := by simpa [Obj.get?] using hv₂
          exact hv ▸ hhead
        · exact htail k₂ s₂ v₂ hmem ((hget k₂ s₂ hmem).symm.trans hv₂)

theorem valid_record_field {required : List String} {props : List (String × Schema)} {o : Obj}
    (h : valid (record required props) (.obj o) = true) {k : String} {s : Schema}
    (hk : k ∈ required) (hs : (k, s) ∈ props) : ∃ v, o.get? k = some v ∧ valid s v = true := by
  obtain ⟨o', ho, hreq, -, hprops⟩ := (valid_record_iff ..).mp h
  obtain rfl : o = o' := by simpa using ho
  obtain ⟨v, hv⟩ := Option.isSome_iff_exists.mp (hreq k hk)
  exact ⟨v, hv, hprops k s v hs hv⟩

theorem valid_text_iff (n : Nat) (j : Json) :
    valid (text n) j = true ↔ ∃ s, j = .str s ∧ n ≤ s.length := by
  cases j with
  | str s => simp [text, valid, Keywords.admits, JType.admits, Keywords.stringOk]
  | _ => simp [text, valid, Keywords.admits, JType.admits]

theorem valid_text_str (n : Nat) (s : String) : valid (text n) (.str s) = true ↔ n ≤ s.length := by
  rw [valid_text_iff]
  constructor
  · rintro ⟨t, ht, hlen⟩
    obtain rfl := Json.str.inj ht
    exact hlen
  · intro hlen
    exact ⟨s, rfl, hlen⟩

theorem valid_textOrNull_iff (j : Json) :
    valid textOrNull j = true ↔ j = .null ∨ ∃ s, j = .str s := by
  cases j with
  | null => simp [textOrNull, valid, Keywords.admits, JType.admits, Keywords.numberOk]
  | str s => simp [textOrNull, valid, Keywords.admits, JType.admits, Keywords.stringOk]
  | _ => simp [textOrNull, valid, Keywords.admits, JType.admits]

theorem valid_anyObject_iff (j : Json) : valid anyObject j = true ↔ ∃ o, j = .obj o := by
  cases j with
  | obj o =>
    simp [anyObject, valid, Keywords.admits, JType.admits, Keywords.objectOk, validProps]
  | _ => simp [anyObject, valid, Keywords.admits, JType.admits]

theorem valid_anyObject_obj (o : Obj) : valid anyObject (.obj o) = true :=
  (valid_anyObject_iff ..).mpr ⟨o, rfl⟩

theorem valid_atLeast_int (m n : Int) : valid (atLeast m) (.int n) = true ↔ m ≤ n := by
  simp [atLeast, valid, Keywords.admits, JType.admits, Keywords.numberOk]

/-- An integer that is at least `m` is one for `int()` too, be it written as a float. -/
theorem toInt_of_valid_atLeast {m : Int} {j : Json} (h : valid (atLeast m) j = true) :
    ∃ n, j.toInt = some n ∧ m ≤ n := by
  cases j with
  | int n => exact ⟨n, rfl, (valid_atLeast_int m n).mp h⟩
  | float x =>
    have h' : x.isInteger = true ∧ x.ltInt m = false := by
      simpa [atLeast, valid, Keywords.admits, JType.admits, Keywords.numberOk] using h
    cases x with
    | finite q =>
      have hden : q.den = 1 := by simpa [Binary64.isInteger] using h'.1
      have hle : (m : ℚ) ≤ q := by simpa [Binary64.ltInt] using h'.2
      have hq : q = (q.num : ℚ) := (Rat.den_eq_one_iff q).mp hden |>.symm
      refine ⟨q.num, by simp [Json.toInt, Binary64.toInt, hden], ?_⟩
      rw [hq] at hle
      exact_mod_cast hle
    | negZero =>
      refine ⟨0, rfl, ?_⟩
      have : ¬ 0 < m := by simpa [Binary64.ltInt] using h'.2
      omega
    | _ => simp [Binary64.isInteger] at h'
  | _ => simp [atLeast, valid, Keywords.admits, JType.admits] at h

theorem valid_list_iff (minItems : Nat) (s : Schema) (j : Json) :
    valid (mk { types := [.array], minItems := minItems } [] (some s)) j = true ↔
      ∃ xs, j = .arr xs ∧ minItems ≤ xs.length ∧ ∀ x ∈ xs, valid s x = true := by
  cases j with
  | arr xs => simp [valid, Keywords.admits, JType.admits, validItems]
  | _ => simp [valid, Keywords.admits, JType.admits]

end Schema

end Py
