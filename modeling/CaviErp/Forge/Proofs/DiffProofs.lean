import CaviErp.Forge.Diff
import CaviErp.Lib.Dict
import CaviErp.Lib.Sorted
import Mathlib.Data.String.Basic

/-!
# The diff is the effect of the upsert

The lines of a diff are those of `changes`, which lists each field that the upsert gives another value,
once and in the order of the keys, and no other.
-/

namespace CaviErp

open Py

/-! ## The items in order -/

section Order

variable {payload : Obj}

theorem mem_order {kv : String × Json} : kv ∈ DumpStyle.canonical.order payload ↔ kv ∈ payload :=
  List.mem_insertionSort _

theorem order_pairwise_lt (h : payload.keys.Nodup) :
    ((DumpStyle.canonical.order payload).map Prod.fst).Pairwise (· < ·) := by
  rw [List.pairwise_map]
  exact Sorted.pairwise_lt Prod.fst h

end Order

/-! ## The lines are those of the changes -/

theorem diffLines_eq (current : Obj) (kv : String × Json) :
    diffLines current kv = ((FieldChange.ofItem current kv).map FieldChange.lines).getD [] := by
  unfold diffLines FieldChange.ofItem
  cases current.get? kv.1 with
  | none => rfl
  | some old =>
    cases hsame : old.pyEq kv.2 with
    | true => simp [hsame]
    | false => simp [hsame, FieldChange.lines, FieldChange.removal, FieldChange.addition]

theorem flatMap_diffLines (current : Obj) (kvs : List (String × Json)) :
    kvs.flatMap (diffLines current) =
      (kvs.filterMap (FieldChange.ofItem current)).flatMap FieldChange.lines := by
  induction kvs with
  | nil => rfl
  | cons kv kvs ih =>
    rw [List.flatMap_cons, ih, diffLines_eq, List.filterMap_cons]
    cases FieldChange.ofItem current kv with
    | none => rfl
    | some ch => rfl

theorem FieldChange.lines_ne_nil (ch : FieldChange) : ch.lines ≠ [] := by
  unfold FieldChange.lines
  cases ch.old with
  | none => simp
  | some old => simp

theorem lines_eq_nil_iff {chs : List FieldChange} : chs.flatMap FieldChange.lines = [] ↔ chs = [] := by
  cases chs with
  | nil => simp
  | cons ch chs => simp [ch.lines_ne_nil]

/-- `render_diff` is its header and its body. -/
theorem renderDiff_eq (before : Option Obj) (op : WriteOperation) :
    renderDiff before op = "\n".intercalate (diffHeader before op :: diffBody before op) := by
  unfold renderDiff diffBody
  rw [flatMap_diffLines]
  simp only [List.isEmpty_iff]
  show "\n".intercalate (diffHeader before op ::
    if (changes (before.getD []) op.payload).flatMap FieldChange.lines = [] then _ else _) = _
  simp only [lines_eq_nil_iff]
  rfl

/-! ## The changes are those of the upsert -/

section Changes

variable {current payload : Obj} {ch : FieldChange}

theorem FieldChange.ofItem_eq_some {kv : String × Json} :
    FieldChange.ofItem current kv = some ch ↔
      ch.field = kv.1 ∧ ch.new = kv.2 ∧ ch.old = current.get? kv.1 ∧
        ∀ old, current.get? kv.1 = some old → old.pyEq kv.2 = false := by
  obtain ⟨field, old, new⟩ := ch
  unfold FieldChange.ofItem
  cases hget : current.get? kv.1 with
  | none =>
    simp only [Option.some.injEq, FieldChange.mk.injEq]
    constructor
    · rintro ⟨rfl, rfl, rfl⟩
      exact ⟨rfl, rfl, rfl, by simp⟩
    · rintro ⟨rfl, rfl, rfl, -⟩
      exact ⟨rfl, rfl, rfl⟩
  | some w =>
    cases hsame : w.pyEq kv.2 with
    | true => simp [hsame]
    | false =>
      simp only [hsame, Bool.false_eq_true, if_false, Option.some.injEq, FieldChange.mk.injEq]
      constructor
      · rintro ⟨rfl, rfl, rfl⟩
        exact ⟨rfl, rfl, rfl, by simp [hsame]⟩
      · rintro ⟨rfl, rfl, rfl, -⟩
        exact ⟨rfl, rfl, rfl⟩

theorem mem_changes (h : payload.keys.Nodup) :
    ch ∈ changes current payload ↔
      payload.get? ch.field = some ch.new ∧ ch.old = current.get? ch.field ∧
        ∀ old, current.get? ch.field = some old → old.pyEq ch.new = false := by
  unfold changes
  rw [List.mem_filterMap]
  constructor
  · rintro ⟨⟨k, v⟩, hmem, hch⟩
    obtain ⟨hfield, hnew, hold, hdiffers⟩ := FieldChange.ofItem_eq_some.mp hch
    rw [hfield, hnew]
    exact ⟨(Dict.lookup_eq_some_iff h).mpr (mem_order.mp hmem), hold, hdiffers⟩
  · rintro ⟨hnew, hold, hdiffers⟩
    refine ⟨(ch.field, ch.new), mem_order.mpr ((Dict.lookup_eq_some_iff h).mp hnew), ?_⟩
    exact FieldChange.ofItem_eq_some.mpr ⟨rfl, rfl, hold, hdiffers⟩

theorem changes_sorted (h : payload.keys.Nodup) :
    ((changes current payload).map FieldChange.field).Pairwise (· < ·) :=
  (order_pairwise_lt h).sublist
    (Dict.filterMap_sublist Prod.fst FieldChange.field
      (fun _ _ hch => (FieldChange.ofItem_eq_some.mp hch).1) _)

theorem assigned_eq_some {chs : List FieldChange} (h : (chs.map FieldChange.field).Nodup) {k : String}
    {v : Json} : assigned chs k = some v ↔ ∃ ch ∈ chs, ch.field = k ∧ ch.new = v := by
  unfold assigned
  constructor
  · intro hv
    obtain ⟨ch, hfind, hnew⟩ := Option.map_eq_some_iff.mp hv
    exact ⟨ch, List.mem_of_find?_eq_some hfind, by simpa using List.find?_some hfind, hnew⟩
  · rintro ⟨ch, hmem, rfl, rfl⟩
    cases hfind : chs.find? fun c => c.field = ch.field with
    | none => exact absurd (List.find?_eq_none.mp hfind ch hmem) (by simp)
    | some c =>
      have hfield : c.field = ch.field := by simpa using List.find?_some hfind
      have hsame : c = ch := List.inj_on_of_nodup_map h (List.mem_of_find?_eq_some hfind) hmem hfield
      rw [hsame]
      rfl

/-- The fields that the diff assigns are those of the payload that differ. -/
theorem assigned_changes (h : payload.keys.Nodup) :
    assigned (changes current payload) =
      Upsert.Record.delta Json.pyEq current.get? payload.get? := by
  funext k
  ext v
  rw [assigned_eq_some ((changes_sorted h).imp ne_of_lt), Upsert.Record.delta_eq_some]
  constructor
  · rintro ⟨ch, hmem, rfl, rfl⟩
    obtain ⟨hnew, -, hdiffers⟩ := (mem_changes h).mp hmem
    exact ⟨hnew, hdiffers⟩
  · rintro ⟨hnew, hdiffers⟩
    exact ⟨⟨k, current.get? k, v⟩, (mem_changes h).mpr ⟨hnew, rfl, hdiffers⟩, rfl, rfl⟩

theorem changes_eq_nil_iff (h : payload.keys.Nodup) :
    changes current payload = [] ↔ ∀ k, assigned (changes current payload) k = none := by
  constructor
  · intro hnil k
    rw [hnil]
    rfl
  · intro hnone
    refine List.eq_nil_iff_forall_not_mem.mpr fun ch hmem => ?_
    have hsome : assigned (changes current payload) ch.field = some ch.new :=
      (assigned_eq_some ((changes_sorted h).imp ne_of_lt)).mpr ⟨ch, hmem, rfl, rfl⟩
    rw [hnone] at hsome
    cases hsome

end Changes

/-- No line of a change is the line for no changes. -/
theorem noFieldChanges_not_mem_lines (ch : FieldChange) : noFieldChanges ∉ ch.lines := by
  have hfirst : noFieldChanges.toList.head? = some '(' := rfl
  have hadd : (ch.addition).toList.head? = some '+' := by
    simp [FieldChange.addition]
  have hremove : ∀ old, (ch.removal old).toList.head? = some '-' := by
    simp [FieldChange.removal]
  intro hmem
  unfold FieldChange.lines at hmem
  cases hold : ch.old with
  | none =>
    rw [hold, List.mem_singleton] at hmem
    rw [hmem, hadd] at hfirst
    cases hfirst
  | some old =>
    rw [hold, List.mem_pair] at hmem
    rcases hmem with hmem | hmem
    · rw [hmem, hremove] at hfirst
      cases hfirst
    · rw [hmem, hadd] at hfirst
      cases hfirst

theorem noFieldChanges_mem_diffBody {before : Option Obj} {op : WriteOperation} :
    noFieldChanges ∈ diffBody before op ↔ changes (before.getD []) op.payload = [] := by
  unfold diffBody
  by_cases hnil : changes (before.getD []) op.payload = []
  · rw [if_pos hnil]
    exact iff_of_true List.mem_cons_self hnil
  · rw [if_neg hnil]
    refine iff_of_false (fun hmem => ?_) hnil
    obtain ⟨ch, -, hline⟩ := List.mem_flatMap.mp hmem
    exact noFieldChanges_not_mem_lines ch hline

/-- **The dry-run diff is the effect of the upsert.** For a payload with distinct keys and any record:
the body lists, in the order of the keys, an addition for each key the record lacks, a removal and an
addition for each key with another value, and nothing else; assigning what it lists makes of the record
what merging the payload does; and it says that nothing changes where each field the payload assigns had
an equal value. Values are compared with `==`; a field that is not assigned keeps the value itself. -/
theorem diff_is_upsert (before : Option Obj) (op : WriteOperation) (hkeys : op.payload.keys.Nodup) :
    ∃ chs : List FieldChange,
      renderDiff before op = "\n".intercalate (diffHeader before op :: diffBody before op) ∧
      diffBody before op = (if chs = [] then [noFieldChanges] else chs.flatMap FieldChange.lines) ∧
      (chs.map FieldChange.field).Pairwise (· < ·) ∧
      (∀ k new, ⟨k, none, new⟩ ∈ chs ↔
        op.payload.get? k = some new ∧ Obj.get? (before.getD []) k = none) ∧
      (∀ k old new, ⟨k, some old, new⟩ ∈ chs ↔
        op.payload.get? k = some new ∧ Obj.get? (before.getD []) k = some old ∧
          old.pyEq new = false) ∧
      (∀ k, Option.Rel (fun a b => a = b ∨ a.pyEq b = true)
        (Upsert.Record.merge (Obj.get? (before.getD [])) (assigned chs) k)
        (Upsert.Record.merge (Obj.get? (before.getD [])) op.payload.get? k)) ∧
      (noFieldChanges ∈ diffBody before op ↔
        ∀ k, op.payload.get? k = none ∨ Option.Rel (fun old new => old.pyEq new = true)
          (Obj.get? (before.getD []) k)
          (Upsert.Record.merge (Obj.get? (before.getD [])) op.payload.get? k)) := by
  refine ⟨changes (before.getD []) op.payload, renderDiff_eq before op, rfl, changes_sorted hkeys,
    ?_, ?_, ?_, ?_⟩
  · intro k new
    rw [mem_changes hkeys]
    constructor
    · rintro ⟨hnew, hold, -⟩
      exact ⟨hnew, hold.symm⟩
    · rintro ⟨hnew, hold⟩
      refine ⟨hnew, hold.symm, fun old hsome => ?_⟩
      rw [hold] at hsome
      cases hsome
  · intro k old new
    rw [mem_changes hkeys]
    constructor
    · rintro ⟨hnew, hold, hdiffers⟩
      exact ⟨hnew, hold.symm, hdiffers old hold.symm⟩
    · rintro ⟨hnew, hold, hdiffers⟩
      refine ⟨hnew, hold.symm, fun old' hsome => ?_⟩
      rw [hold] at hsome
      obtain rfl := Option.some.inj hsome
      exact hdiffers
  · intro k
    rw [assigned_changes hkeys]
    exact Upsert.Record.merge_delta k
  · rw [noFieldChanges_mem_diffBody, changes_eq_nil_iff hkeys, assigned_changes hkeys]
    exact forall_congr' fun k => Upsert.Record.delta_eq_none_iff

/-- A bill whose currency is added, whose total changes, and whose memo stays. -/
def billWrite : WriteOperation where
  writeId := "w-1"
  tenantId := "acme"
  erpPlatform := "netsuite"
  operation := "upsert"
  targetModule := "vendorBill"
  payload := [("total", .int 12), ("currency", "USD"), ("memo", "rent")]
  requestedBy := "ada"
  diffPreview := ""

/-- The keys of that payload are distinct, and its diff is not empty. -/
theorem bill_diff_is_upsert :
    noFieldChanges ∉ diffBody (some [("memo", "rent"), ("total", .int 10)]) billWrite := by
  obtain ⟨-, -, -, -, -, -, -, hnone⟩ :=
    diff_is_upsert (some [("memo", "rent"), ("total", .int 10)]) billWrite (by decide)
  intro hmem
  rcases hnone.mp hmem "currency" with h | h
  · cases h
  · cases h

end CaviErp
