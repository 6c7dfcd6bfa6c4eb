import CaviErp.Lib.Alike
import CaviErp.Lib.Dict
import CaviErp.Lib.Sorted
import CaviErp.Lib.Proofs.CanonicalProofs
import Mathlib.Data.List.Perm.Subperm
import Mathlib.Data.String.Basic

/-!
# The canonical text of a value is a fingerprint

Values without floats are read back from their canonical texts as they were but for the order of the keys,
so that the texts of two values are the same exactly if the values are alike. A text has no line breaks.
-/

namespace Dict

variable {κ α : Type} {d d' : List (κ × α)}

/-- A mapping whose items are all found in another of the same size has the items of it. -/
theorem perm_of_subset (hd : (d.map Prod.fst).Nodup) (hsub : d ⊆ d') (hlen : d'.length ≤ d.length) :
    d.Perm d' :=
  (List.subperm_of_subset (List.Nodup.of_map Prod.fst hd) hsub).perm_of_length_le hlen

end Dict

namespace Py

namespace Json

/-! ## Equal values have equal sorted forms -/

theorem sortKeysItems_eq_map (kvs : Obj) : sortKeysItems kvs = kvs.map fun kv => (kv.1, kv.2.sortKeys) := by
  induction kvs with
  | nil => rfl
  | cons kv kvs ih => rw [sortKeysItems, ih, List.map_cons]

theorem keys_sortKeysItems (kvs : Obj) : (sortKeysItems kvs).map Prod.fst = Obj.keys kvs := by
  rw [sortKeysItems_eq_map, List.map_map]
  rfl

theorem exactItems_iff {kvs : Obj} : exactItems kvs = true ↔ ∀ kv ∈ kvs, kv.2.exact = true := by
  induction kvs with
  | nil => exact iff_of_true rfl nofun
  | cons kv kvs ih => rw [exactItems, Bool.and_eq_true, ih, List.forall_mem_cons]

theorem exact_obj {kvs : Obj} (h : (Json.obj kvs).exact = true) :
    kvs.keys.Nodup ∧ ∀ kv ∈ kvs, kv.2.exact = true := by
  rw [exact, Bool.and_eq_true, decide_eq_true_iff, exactItems_iff] at h
  exact h

theorem sortKeys_obj_inj {kvs kvs' : Obj} (h : kvs.keys.Nodup) :
    (Json.obj kvs).sortKeys = (Json.obj kvs').sortKeys ↔ (sortKeysItems kvs).Perm (sortKeysItems kvs') := by
  rw [sortKeys, sortKeys, Json.obj.injEq]
  exact Sorted.insertionSort_eq_iff Prod.fst (by rwa [keys_sortKeysItems])

/-- An object with the items of another, as far as equal values are concerned. -/
theorem perm_sortKeysItems_iff {kvs o : Obj} (h : kvs.keys.Nodup) (ho : o.keys.Nodup) :
    (sortKeysItems kvs).Perm (sortKeysItems o) ↔
      kvs.length = o.length ∧ ∀ kv ∈ kvs, ∃ w, o.get? kv.1 = some w ∧ kv.2.sortKeys = w.sortKeys := by
  have hlength : ∀ d : Obj, (sortKeysItems d).length = d.length := by
    intro d
    rw [sortKeysItems_eq_map, List.length_map]
  have hmem : ∀ kv : String × Json, (kv.1, kv.2.sortKeys) ∈ sortKeysItems o ↔
      ∃ w, o.get? kv.1 = some w ∧ kv.2.sortKeys = w.sortKeys := by
    intro kv
    rw [sortKeysItems_eq_map, List.mem_map]
    constructor
    · rintro ⟨⟨k, w⟩, hw, heq⟩
      obtain ⟨rfl, hsort⟩ := Prod.mk.inj heq
      exact ⟨w, (Dict.lookup_eq_some_iff ho).mpr hw, hsort.symm⟩
    · rintro ⟨w, hw, hsort⟩
      exact ⟨(kv.1, w), Dict.mem_of_lookup hw, by rw [hsort]⟩
  constructor
  · intro hperm
    refine ⟨by rw [← hlength kvs, hperm.length_eq, hlength], fun kv hkv => ?_⟩
    rw [← hmem, ← hperm.mem_iff, sortKeysItems_eq_map]
    exact List.mem_map_of_mem (f := fun kv : String × Json => (kv.1, kv.2.sortKeys)) hkv
  · rintro ⟨hlen, hitems⟩
    refine Dict.perm_of_subset (by rwa [keys_sortKeysItems]) (fun p hp => ?_) ?_
    · rw [sortKeysItems_eq_map] at hp
      obtain ⟨kv, hkv, rfl⟩ := List.mem_map.mp hp
      exact (hmem kv).mpr (hitems kv hkv)
    · rw [hlength, hlength, hlen]

mutual

/-- Values are alike exactly if they are the same once their keys are in order. -/
theorem alike_iff : ∀ {a b : Json}, a.exact = true → b.exact = true →
    (a.alike b = true ↔ a.sortKeys = b.sortKeys)
  | .arr xs, b, ha, hb => by
    cases b with
    | arr ys =>
      rw [exact] at ha hb
      rw [alike, alikeList_iff ha hb, sortKeys, sortKeys, Json.arr.injEq]
    | _ => simp [alike, sortKeys]
  | .obj kvs, b, ha, hb => by
    cases b with
    | obj o =>
      obtain ⟨hkeys, hitems⟩ := exact_obj ha
      obtain ⟨hkeys', hitems'⟩ := exact_obj hb
      rw [sortKeys_obj_inj hkeys, perm_sortKeysItems_iff hkeys hkeys', alike, Bool.and_eq_true,
        beq_iff_eq, alikeItems_iff (exactItems_iff.mpr hitems) hitems']
    | _ => simp [alike, sortKeys]
  | .null, b, _, _ => by cases b <;> simp [alike, sortKeys]
  | .bool _, b, _, _ => by cases b <;> simp [alike, sortKeys]
  | .int _, b, _, _ => by cases b <;> simp [alike, sortKeys]
  | .float _, b, _, _ => by cases b <;> simp [alike, sortKeys]
  | .str _, b, _, _ => by cases b <;> simp [alike, sortKeys]

theorem alikeList_iff : ∀ {xs ys : List Json}, exactList xs = true → exactList ys = true →
    (alikeList xs ys = true ↔ sortKeysList xs = sortKeysList ys)
  | [], ys, _, _ => by cases ys <;> simp [alikeList, sortKeysList]
  | x :: xs, ys, hxs, hys => by
    cases ys with
    | nil => simp [alikeList, sortKeysList]
    | cons y ys =>
      rw [exactList, Bool.and_eq_true] at hxs hys
      rw [alikeList, Bool.and_eq_true, alike_iff hxs.1 hys.1, alikeList_iff hxs.2 hys.2, sortKeysList,
        sortKeysList, List.cons.injEq]

theorem alikeItems_iff : ∀ {kvs o : Obj}, exactItems kvs = true → (∀ kv ∈ o, kv.2.exact = true) →
    (alikeItems kvs o = true ↔ ∀ kv ∈ kvs, ∃ w, o.get? kv.1 = some w ∧ kv.2.sortKeys = w.sortKeys)
  | [], _, _, _ => iff_of_true rfl nofun
  | (k, v) :: kvs, o, hkvs, ho => by
    rw [exactItems, Bool.and_eq_true] at hkvs
    have hhead : (match o.get? k with | some w => v.alike w | none => false) = true ↔
        ∃ w, o.get? k = some w ∧ v.sortKeys = w.sortKeys := by
      cases hget : o.get? k with
      | none => simp
      | some w =>
        have hw : w.exact = true := ho _ (Dict.mem_of_lookup hget)
        simp only [alike_iff hkvs.1 hw, Option.some.injEq, exists_eq_left']
    rw [alikeItems, Bool.and_eq_true, List.forall_mem_cons]
    exact and_congr hhead (alikeItems_iff hkvs.2 ho)

end

/-! ## Values that are read back as they were -/

mutual

theorem exact_sortKeys : ∀ {j : Json}, j.exact = true → j.sortKeys.exact = true
  | .arr xs, h => by
    rw [exact] at h
    rw [sortKeys, exact]
    exact exactList_sortKeys h
  | .obj kvs, h => by
    obtain ⟨hkeys, hitems⟩ := exact_obj h
    let r : String × Json → String × Json → Prop := fun a b => a.1 ≤ b.1
    have hperm : ((sortKeysItems kvs).insertionSort r).Perm (sortKeysItems kvs) :=
      List.perm_insertionSort r _
    have hnodup : (Obj.keys ((sortKeysItems kvs).insertionSort r)).Nodup := by
      refine (hperm.map Prod.fst).nodup_iff.mpr ?_
      rwa [keys_sortKeysItems]
    rw [sortKeys, exact, Bool.and_eq_true, decide_eq_true_iff, exactItems_iff]
    refine ⟨hnodup, fun kv hkv => ?_⟩
    exact exactItems_iff.mp (exactItems_sortKeys (exactItems_iff.mpr hitems)) kv (hperm.mem_iff.mp hkv)
  | .null, h => h
  | .bool _, h => h
  | .int _, h => h
  | .float _, h => h
  | .str _, h => h

theorem exactList_sortKeys : ∀ {xs : List Json}, exactList xs = true → exactList (sortKeysList xs) = true
  | [], h => h
  | x :: xs, h => by
    rw [exactList, Bool.and_eq_true] at h
    rw [sortKeysList, exactList, exact_sortKeys h.1, exactList_sortKeys h.2]
    rfl

theorem exactItems_sortKeys : ∀ {kvs : Obj}, exactItems kvs = true → exactItems (sortKeysItems kvs) = true
  | [], h => h
  | (k, v) :: kvs, h => by
    rw [exactItems, Bool.and_eq_true] at h
    rw [sortKeysItems, exactItems, exact_sortKeys h.1, exactItems_sortKeys h.2]
    rfl

end

mutual

theorem reread_of_exact : ∀ {j : Json}, j.exact = true → j.reread = j
  | .arr xs, h => by
    rw [exact] at h
    rw [reread, rereadList_of_exact h]
  | .obj kvs, h => by
    obtain ⟨hkeys, hitems⟩ := exact_obj h
    have hfold : kvs.foldl (fun o kv => Obj.set o kv.1 kv.2) [] = kvs :=
      Obj.foldl_set (d := []) hkeys fun _ _ => List.not_mem_nil
    rw [reread, rereadItems_of_exact (exactItems_iff.mpr hitems), hfold]
  | .float _, h => by
    rw [exact] at h
    cases h
  | .null, _ => rfl
  | .bool _, _ => rfl
  | .int _, _ => rfl
  | .str _, _ => rfl

theorem rereadList_of_exact : ∀ {xs : List Json}, exactList xs = true → rereadList xs = xs
  | [], _ => rfl
  | x :: xs, h => by
    rw [exactList, Bool.and_eq_true] at h
    rw [rereadList, reread_of_exact h.1, rereadList_of_exact h.2]

theorem rereadItems_of_exact : ∀ {kvs : Obj}, exactItems kvs = true → rereadItems kvs = kvs
  | [], _ => rfl
  | (k, v) :: kvs, h => by
    rw [exactItems, Bool.and_eq_true] at h
    rw [rereadItems, reread_of_exact h.1, rereadItems_of_exact h.2]

end

/-- A value without floats is read back from its canonical text, but for the order of its keys. -/
theorem loads_canonical_of_exact {j : Json} (h : j.exact = true) :
    loads (dumps .canonical j) = some j.sortKeys := by
  rw [loads_canonical, reread_of_exact (exact_sortKeys h)]

/-! ## The fingerprint -/

/-- Values without floats have the same canonical text exactly if they are alike. -/
theorem canonical_eq_iff {a b : Json} (ha : a.exact = true) (hb : b.exact = true) :
    dumps .canonical a = dumps .canonical b ↔ a.alike b = true := by
  rw [alike_iff ha hb]
  constructor
  · intro htext
    have hread : some a.sortKeys = some b.sortKeys := by
      rw [← loads_canonical_of_exact ha, ← loads_canonical_of_exact hb, htext]
    exact Option.some.inj hread
  · intro hsort
    unfold dumps
    rw [dumpChars_sortKeys, dumpChars_sortKeys, hsort]

end Json

end Py
