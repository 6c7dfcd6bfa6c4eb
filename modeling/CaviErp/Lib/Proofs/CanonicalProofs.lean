import CaviErp.Lib.Proofs.JsonTextProofs

/-!
# The canonical text of a value

`json.dumps` with sorted keys only depends on the value, not on the order of the keys; and the text of a
value tells a string from everything else.
-/

namespace Py

/-- `json.dumps(x, separators=(",", ":"))`: the canonical style, for a value that is already sorted. -/
def DumpStyle.compact : DumpStyle := ⟨false, [','], [':']⟩

theorem dumpItems_eq_map (st : DumpStyle) (kvs : Obj) :
    dumpItems st kvs = kvs.map fun kv => (kv.1, dumpChars st kv.2) := by
  induction kvs with
  | nil => rfl
  | cons kv kvs ih =>
    obtain ⟨k, v⟩ := kv
    rw [dumpItems, ih, List.map_cons]

theorem order_dumpItems (st : DumpStyle) (kvs : Obj) :
    (dumpItems st kvs).insertionSort (fun a b => a.1 ≤ b.1) =
      dumpItems st (kvs.insertionSort fun a b => a.1 ≤ b.1) := by
  rw [dumpItems_eq_map, dumpItems_eq_map]
  symm
  apply List.map_insertionSort
  intro a _ b _
  exact Iff.rfl

mutual

theorem dumpChars_sortKeys : ∀ j : Json, dumpChars .canonical j = dumpChars .compact j.sortKeys
  | .null => rfl
  | .bool true => rfl
  | .bool false => rfl
  | .int _ => rfl
  | .float _ => rfl
  | .str _ => rfl
  | .arr xs => by
    rw [Json.sortKeys, dumpChars, dumpChars, dumpList_sortKeys xs]
    rfl
  | .obj kvs => by
    have horder : DumpStyle.canonical.order (dumpItems .canonical kvs) =
        DumpStyle.compact.order
          (dumpItems .compact ((sortKeysItems kvs).insertionSort fun a b => a.1 ≤ b.1)) := by
      show (dumpItems .canonical kvs).insertionSort (fun a b => a.1 ≤ b.1) =
        dumpItems .compact ((sortKeysItems kvs).insertionSort fun a b => a.1 ≤ b.1)
      rw [dumpItems_sortKeys kvs, order_dumpItems]
    rw [Json.sortKeys, dumpChars, dumpChars, horder]
    rfl

theorem dumpList_sortKeys : ∀ xs : List Json,
    dumpList .canonical xs = dumpList .compact (sortKeysList xs)
  | [] => rfl
  | x :: xs => by
    rw [dumpList, sortKeysList, dumpList, dumpChars_sortKeys x, dumpList_sortKeys xs]

theorem dumpItems_sortKeys : ∀ kvs : Obj,
    dumpItems .canonical kvs = dumpItems .compact (sortKeysItems kvs)
  | [] => rfl
  | (k, v) :: kvs => by
    rw [dumpItems, sortKeysItems, dumpItems, dumpChars_sortKeys v, dumpItems_sortKeys kvs]

end

theorem Json.SameValue.dumpChars_eq {a b : Json} (h : a.SameValue b) :
    dumpChars .canonical a = dumpChars .canonical b := by
  rw [dumpChars_sortKeys, dumpChars_sortKeys, h]

/-- A value is read back from its canonical text, with its keys in order. -/
theorem loads_canonical (j : Json) : loads (dumps .canonical j) = some j.sortKeys.reread := by
  unfold dumps
  rw [dumpChars_sortKeys]
  exact JsonText.loads_spaced (a := []) (b := []) (fun _ => rfl) (fun _ => rfl) j.sortKeys

/-! ## String literals -/

open JsonText

theorem quote_injective {s t : String} (h : quote s = quote t) : s = t := by
  have hbody : s.toList.flatMap escapeChar ++ ['"'] = t.toList.flatMap escapeChar ++ ['"'] := by
    simpa [quote] using h
  let n := s.toList.length + t.toList.length + 1
  have hs : stringBody n (s.toList.flatMap escapeChar ++ ['"']) = some (s.toList, []) :=
    stringBody_quote (by omega) []
  have ht : stringBody n (t.toList.flatMap escapeChar ++ ['"']) = some (t.toList, []) :=
    stringBody_quote (by omega) []
  rw [hbody, ht] at hs
  injection hs with hs
  exact String.toList_inj.mp (congrArg Prod.fst hs).symm

theorem dumpChars_eq_quote {st : DumpStyle} {j : Json} {s : String} (h : dumpChars st j = quote s) :
    j = .str s := by
  have hhead : (dumpChars st j).head? = some '"' := by
    rw [h]
    rfl
  cases j with
  | null =>
    rw [dumpChars] at hhead
    exact absurd hhead (by decide)
  | bool b => cases b <;> rw [dumpChars] at hhead <;> exact absurd hhead (by decide)
  | int n =>
    obtain ⟨c, cs, hcs, hc⟩ := int_head n
    rw [dumpChars, hcs] at hhead
    obtain rfl : c = '"' := by simpa using hhead
    exact absurd hc (by decide)
  | float x =>
    obtain ⟨c, cs, hcs, hc⟩ := startsScalar_float x
    rw [dumpChars, hcs] at hhead
    obtain rfl : c = '"' := by simpa using hhead
    exact absurd hc (by decide)
  | str t => exact congrArg Json.str (quote_injective h)
  | arr xs =>
    rw [dumpChars] at hhead
    exact absurd hhead (by simp)
  | obj kvs =>
    rw [dumpChars] at hhead
    exact absurd hhead (by simp)

end Py
