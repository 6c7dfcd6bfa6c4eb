import CaviErp.Ledger.Reconcile
import CaviErp.Lib.Dict
import Mathlib.Data.String.Basic
import Mathlib.Data.Set.Card

/-!
# A pass finds the drift

`compare` reports each record on which the sides disagree once, and only those; the numbers of a run
count the records of both sides.
-/

namespace CaviErp

open Py

/-! ## Sorted keys -/

section Sorted

variable {α β : Type} {d : List (String × α)} {e : List (String × β)}

theorem mem_sortedKeys {k : String} : k ∈ sortedKeys d ↔ k ∈ d.map Prod.fst :=
  List.mem_mergeSort

theorem sortedKeys_nodup (h : (d.map Prod.fst).Nodup) : (sortedKeys d).Nodup :=
  (List.mergeSort_perm _ _).nodup_iff.mpr h

theorem sortedKeys_le : (sortedKeys d).Pairwise (· ≤ ·) := by
  have hsorted := @List.pairwise_mergeSort String (fun a b => decide (a ≤ b))
    (fun a b c hab hbc => by
      simp only [decide_eq_true_eq] at hab hbc ⊢
      exact le_trans hab hbc)
    (fun a b => by simpa using le_total a b) (d.map Prod.fst)
  exact hsorted.imp fun h => by simpa using h

theorem sortedKeys_lt (h : (d.map Prod.fst).Nodup) : (sortedKeys d).Pairwise (· < ·) :=
  (sortedKeys_le.and (sortedKeys_nodup h)).imp fun ⟨hle, hne⟩ => lt_of_le_of_ne hle hne

theorem sortedKeys_congr (h : (d.map Prod.fst).Perm (e.map Prod.fst)) : sortedKeys d = sortedKeys e := by
  have hperm : (sortedKeys d).Perm (sortedKeys e) :=
    (List.mergeSort_perm _ _).trans (h.trans (List.mergeSort_perm _ _).symm)
  exact hperm.eq_of_pairwise (fun a b _ _ hab hba => le_antisymm hab hba) sortedKeys_le sortedKeys_le

end Sorted

/-! ## The fields of one record -/

section Fields

variable {record current : Obj} {f : FieldMismatch}

theorem get_of_get? {o : Obj} {k : String} {v : Json} (h : o.get? k = some v) : o.get k = v := by
  rw [Obj.get, h, Option.getD_some]

theorem mem_mismatches :
    f ∈ mismatches record current ↔
      record.get? f.field = some f.expected ∧ f.actual = current.get f.field ∧
        f.expected.pyEq f.actual = false := by
  unfold mismatches
  rw [List.mem_filterMap]
  constructor
  · rintro ⟨name, hname, hf⟩
    obtain ⟨v, hv⟩ := Dict.exists_lookup_iff.mpr (mem_sortedKeys.mp hname)
    have hget : record.get name = v := get_of_get? hv
    rw [hget] at hf
    split at hf
    · cases hf
    · next hne =>
      obtain rfl := Option.some.inj hf
      exact ⟨hv, rfl, by simpa using hne⟩
  · rintro ⟨hexpected, hactual, hne⟩
    have hmem : f.field ∈ record.map Prod.fst := Dict.exists_lookup_iff.mp ⟨_, hexpected⟩
    have hget : record.get f.field = f.expected := get_of_get? hexpected
    refine ⟨f.field, mem_sortedKeys.mpr hmem, ?_⟩
    rw [hget, ← hactual, hne]
    rfl

theorem mismatches_fields_lt (h : record.keys.Nodup) :
    ((mismatches record current).map FieldMismatch.field).Pairwise (· < ·) := by
  have hsub : ((mismatches record current).map FieldMismatch.field).Sublist
      ((sortedKeys record).map id) := by
    refine Dict.filterMap_sublist id FieldMismatch.field (fun name m hm => ?_) _
    split at hm
    · cases hm
    · obtain rfl := Option.some.inj hm
      rfl
  rw [List.map_id] at hsub
  exact (sortedKeys_lt h).sublist hsub

theorem mismatches_perm {record' current' : Obj} (h : record.keys.Nodup) (h' : current.keys.Nodup)
    (hr : record.Perm record') (hc : current.Perm current') :
    mismatches record current = mismatches record' current' := by
  have hkeys : sortedKeys record = sortedKeys record' := sortedKeys_congr (hr.map Prod.fst)
  have hrecord : ∀ k, record.get k = record'.get k := fun k =>
    congrArg (Option.getD · Json.null) (Dict.lookup_perm h hr k)
  have hcurrent : ∀ k, current.get k = current'.get k := fun k =>
    congrArg (Option.getD · Json.null) (Dict.lookup_perm h' hc k)
  unfold mismatches
  simp only [hkeys, hrecord, hcurrent]

end Fields

/-! ## The discrepancies -/

section Sides

variable {expected actual : StateMap} {extId : String} {d : Discrepancy}

theorem StateMap.exists_record {m : StateMap} :
    extId ∈ m.ids ↔ ∃ record, m.records.lookup extId = some record :=
  Dict.exists_lookup_iff.symm

theorem StateMap.record_keys {m : StateMap} {record : Obj} (h : m.records.lookup extId = some record) :
    record.keys.Nodup :=
  m.fields_nodup _ (Dict.mem_of_lookup h)

/-- What is reported about an expected record. -/
theorem compareRecord_eq_some (hid : extId ∈ expected.ids) :
    compareRecord expected.records actual.records extId = some d ↔
      (extId ∉ actual.ids ∧ { externalId := extId, kind := .missingInErp } = d) ∨
      ∃ record current, expected.records.lookup extId = some record ∧
        actual.records.lookup extId = some current ∧ mismatches record current ≠ [] ∧
        { externalId := extId, kind := .fieldMismatch, fields := mismatches record current } = d := by
  obtain ⟨record, hrecord⟩ := StateMap.exists_record.mp hid
  unfold compareRecord
  by_cases hactual : extId ∈ actual.ids
  · obtain ⟨current, hcurrent⟩ := StateMap.exists_record.mp hactual
    rw [hcurrent, hrecord]
    by_cases hnil : mismatches record current = []
    · simp [hnil, hactual]
    · simp [hnil, hactual]
  · have hnone : actual.records.lookup extId = none := Dict.lookup_eq_none_iff.mpr hactual
    simp [hnone, hactual]

/-- The ids that only the ERP has. -/
theorem mem_unexpected {extId : String} :
    extId ∈ sortedKeys (actual.records.filter fun r => !(expected.records.map Prod.fst).contains r.1) ↔
      OnlyIn actual expected extId := by
  rw [mem_sortedKeys, List.mem_map]
  constructor
  · rintro ⟨r, hr, rfl⟩
    obtain ⟨hmem, hnot⟩ := List.mem_filter.mp hr
    exact ⟨List.mem_map_of_mem hmem, by simpa [StateMap.ids] using hnot⟩
  · rintro ⟨hin, hout⟩
    obtain ⟨r, hr, rfl⟩ := List.mem_map.mp hin
    exact ⟨r, List.mem_filter.mpr ⟨hr, by simpa [StateMap.ids] using hout⟩, rfl⟩

theorem mem_compare :
    d ∈ compare expected.records actual.records ↔
      (OnlyIn expected actual d.externalId ∧ d.kind = .missingInErp ∧ d.fields = []) ∨
      (OnlyIn actual expected d.externalId ∧ d.kind = .unexpectedInErp ∧ d.fields = []) ∨
      ∃ record current, expected.records.lookup d.externalId = some record ∧
        actual.records.lookup d.externalId = some current ∧ mismatches record current ≠ [] ∧
        d.kind = .fieldMismatch ∧ d.fields = mismatches record current := by
  unfold compare
  rw [List.mem_append, List.mem_filterMap, List.mem_map]
  constructor
  · rintro (⟨extId, hmem, hd⟩ | ⟨extId, hmem, rfl⟩)
    · have hid : extId ∈ expected.ids := mem_sortedKeys.mp hmem
      rcases (compareRecord_eq_some hid).mp hd with ⟨hout, rfl⟩ | ⟨record, current, hr, hc, hne, rfl⟩
      · exact .inl ⟨⟨hid, hout⟩, rfl, rfl⟩
      · exact .inr (.inr ⟨record, current, hr, hc, hne, rfl, rfl⟩)
    · exact .inr (.inl ⟨mem_unexpected.mp hmem, rfl, rfl⟩)
  · obtain ⟨extId, kind, fields⟩ := d
    rintro (⟨⟨hin, hout⟩, rfl, rfl⟩ | ⟨honly, rfl, rfl⟩ | ⟨record, current, hr, hc, hne, rfl, rfl⟩)
    · exact .inl ⟨extId, mem_sortedKeys.mpr hin, (compareRecord_eq_some hin).mpr (.inl ⟨hout, rfl⟩)⟩
    · exact .inr ⟨extId, mem_unexpected.mpr honly, rfl⟩
    · have hin : extId ∈ expected.ids := StateMap.exists_record.mpr ⟨record, hr⟩
      exact .inl ⟨extId, mem_sortedKeys.mpr hin,
        (compareRecord_eq_some hin).mpr (.inr ⟨record, current, hr, hc, hne, rfl⟩)⟩

theorem OnlyIn.not_differs (h : OnlyIn expected actual extId ∨ OnlyIn actual expected extId)
    (f : FieldMismatch) : ¬ Differs expected actual extId f := by
  rintro ⟨record, current, hr, hc, -⟩
  have hexpected : extId ∈ expected.ids := StateMap.exists_record.mpr ⟨record, hr⟩
  have hactual : extId ∈ actual.ids := StateMap.exists_record.mpr ⟨current, hc⟩
  rcases h with h | h
  · exact h.2 hactual
  · exact h.2 hexpected

theorem mem_mismatches_iff_differs {record current : Obj} {f : FieldMismatch}
    (hr : expected.records.lookup extId = some record)
    (hc : actual.records.lookup extId = some current) :
    f ∈ mismatches record current ↔ Differs expected actual extId f := by
  rw [mem_mismatches]
  constructor
  · intro h
    exact ⟨record, current, hr, hc, h⟩
  · rintro ⟨record', current', hr', hc', h⟩
    rw [hr] at hr'
    rw [hc] at hc'
    obtain rfl := Option.some.inj hr'
    obtain rfl := Option.some.inj hc'
    exact h

/-- A discrepancy says what the disagreement about its record is. -/
theorem compare_sound (h : d ∈ compare expected.records actual.records) :
    (d.kind = .missingInErp ↔ OnlyIn expected actual d.externalId) ∧
    (d.kind = .unexpectedInErp ↔ OnlyIn actual expected d.externalId) ∧
    (d.kind = .fieldMismatch ↔ ∃ f, Differs expected actual d.externalId f) ∧
    (∀ f, f ∈ d.fields ↔ Differs expected actual d.externalId f) ∧
    (d.fields.map FieldMismatch.field).Pairwise (· < ·) := by
  have hswap : OnlyIn actual expected d.externalId → ¬ OnlyIn expected actual d.externalId :=
    fun ha he => ha.2 he.1
  rcases mem_compare.mp h with ⟨honly, hk, hf⟩ | ⟨honly, hk, hf⟩ | ⟨record, current, hr, hc, hne, hk, hf⟩
  · have hdiffers := OnlyIn.not_differs (.inl honly)
    rw [hk, hf]
    refine ⟨by simp [honly], ?_, by simp [hdiffers], by simp [hdiffers], List.Pairwise.nil⟩
    simpa using fun ha => hswap ha honly
  · have hdiffers := OnlyIn.not_differs (.inr honly)
    rw [hk, hf]
    refine ⟨?_, by simp [honly], by simp [hdiffers], by simp [hdiffers], List.Pairwise.nil⟩
    simpa using hswap honly
  · have hmem : ∀ f, f ∈ d.fields ↔ Differs expected actual d.externalId f := by
      intro f
      rw [hf]
      exact mem_mismatches_iff_differs hr hc
    obtain ⟨f, hfirst⟩ := List.exists_mem_of_ne_nil _ hne
    have hdiffers : Differs expected actual d.externalId f := (mem_mismatches_iff_differs hr hc).mp hfirst
    rw [hk]
    refine ⟨?_, ?_, by simpa using ⟨f, hdiffers⟩, hmem, ?_⟩
    · simpa using fun honly => OnlyIn.not_differs (.inl honly) f hdiffers
    · simpa using fun honly => OnlyIn.not_differs (.inr honly) f hdiffers
    · rw [hf]
      exact mismatches_fields_lt (StateMap.record_keys hr)

/-- The records reported are those the sides disagree on. -/
theorem mem_reported :
    extId ∈ (compare expected.records actual.records).map Discrepancy.externalId ↔
      Disagree expected actual extId := by
  rw [List.mem_map]
  constructor
  · rintro ⟨d, hd, rfl⟩
    obtain ⟨hmissing, hunexpected, hmismatch, -⟩ := compare_sound hd
    cases hk : d.kind with
    | missingInErp => exact .inl (hmissing.mp hk)
    | unexpectedInErp => exact .inr (.inl (hunexpected.mp hk))
    | fieldMismatch => exact .inr (.inr (hmismatch.mp hk))
  · rintro (honly | honly | ⟨f, hdiffers⟩)
    · exact ⟨⟨extId, .missingInErp, []⟩, mem_compare.mpr (.inl ⟨honly, rfl, rfl⟩), rfl⟩
    · exact ⟨⟨extId, .unexpectedInErp, []⟩, mem_compare.mpr (.inr (.inl ⟨honly, rfl, rfl⟩)), rfl⟩
    · obtain ⟨record, current, hr, hc, -⟩ := id hdiffers
      have hmem : f ∈ mismatches record current := (mem_mismatches_iff_differs hr hc).mpr hdiffers
      exact ⟨⟨extId, .fieldMismatch, mismatches record current⟩,
        mem_compare.mpr (.inr (.inr ⟨record, current, hr, hc, List.ne_nil_of_mem hmem, rfl, rfl⟩)), rfl⟩

/-- No record is reported twice. -/
theorem reported_nodup :
    ((compare expected.records actual.records).map Discrepancy.externalId).Nodup := by
  have hextId : ∀ extId d, compareRecord expected.records actual.records extId = some d →
      d.externalId = extId := by
    intro extId d hd
    unfold compareRecord at hd
    split at hd
    · obtain rfl := Option.some.inj hd
      rfl
    · dsimp only at hd
      split at hd
      · cases hd
      · obtain rfl := Option.some.inj hd
        rfl
  have hexpected := Dict.filterMap_sublist id Discrepancy.externalId hextId (sortedKeys expected.records)
  rw [List.map_id] at hexpected
  have hactual : ((actual.records.filter fun r =>
      !(expected.records.map Prod.fst).contains r.1).map Prod.fst).Nodup :=
    actual.ids_nodup.sublist (List.filter_sublist.map Prod.fst)
  unfold compare
  rw [List.map_append, List.map_map]
  refine List.Nodup.append ((sortedKeys_nodup expected.ids_nodup).sublist hexpected) ?_ ?_
  · simpa [Function.comp_def] using sortedKeys_nodup hactual
  · -- an id of the first loop is expected, one of the second is not
    intro extId hfirst hsecond
    have hin : extId ∈ expected.ids := mem_sortedKeys.mp (hexpected.subset hfirst)
    have honly : OnlyIn actual expected extId :=
      mem_unexpected.mp (by simpa [Function.comp_def] using hsecond)
    exact honly.2 hin

/-! ## Another order of the records and their fields -/

theorem StateMap.Reordered.ids_perm {m m' : StateMap} (h : m.Reordered m') : m.ids.Perm m'.ids := by
  obtain ⟨records, hperm, hsame⟩ := h
  have hm : (m.records.map Prod.fst).Perm (records.map Prod.fst) := hperm.map Prod.fst
  rw [Dict.keys_forall₂ hsame] at hm
  exact hm

theorem StateMap.Reordered.lookup {m m' : StateMap} (h : m.Reordered m') (extId : String) :
    Option.Rel List.Perm (m.records.lookup extId) (m'.records.lookup extId) := by
  obtain ⟨records, hperm, hsame⟩ := h
  rw [Dict.lookup_perm m.ids_nodup hperm]
  exact Dict.lookup_forall₂ hsame extId

theorem compareRecord_reordered {expected' actual' : StateMap} (he : expected.Reordered expected')
    (ha : actual.Reordered actual') (hid : extId ∈ expected.ids) :
    compareRecord expected.records actual.records extId =
      compareRecord expected'.records actual'.records extId := by
  obtain ⟨record, hr⟩ := StateMap.exists_record.mp hid
  have hrecord := he.lookup extId
  have hcurrent := ha.lookup extId
  unfold compareRecord
  cases hr' : expected'.records.lookup extId with
  | none =>
    rw [hr, hr'] at hrecord
    cases hrecord
  | some record' =>
    rw [hr, hr', Option.rel_some_some] at hrecord
    cases hc : actual.records.lookup extId with
    | none =>
      cases hc' : actual'.records.lookup extId with
      | none => rfl
      | some current' =>
        rw [hc, hc'] at hcurrent
        cases hcurrent
    | some current =>
      cases hc' : actual'.records.lookup extId with
      | none =>
        rw [hc, hc'] at hcurrent
        cases hcurrent
      | some current' =>
        rw [hc, hc', Option.rel_some_some] at hcurrent
        have hsame : mismatches record current = mismatches record' current' :=
          mismatches_perm (StateMap.record_keys hr) (StateMap.record_keys hc) hrecord hcurrent
        rw [hr]
        simp only [Option.getD_some, hsame]

theorem compare_reordered {expected' actual' : StateMap} (he : expected.Reordered expected')
    (ha : actual.Reordered actual') :
    compare expected.records actual.records = compare expected'.records actual'.records := by
  have hexpected : sortedKeys expected.records = sortedKeys expected'.records :=
    sortedKeys_congr he.ids_perm
  have hactual :
      sortedKeys (actual.records.filter fun r => !(expected.records.map Prod.fst).contains r.1) =
        sortedKeys (actual'.records.filter fun r => !(expected'.records.map Prod.fst).contains r.1) := by
    have hfilter : ∀ m m' : StateMap,
        (m.records.filter fun r => !(m'.records.map Prod.fst).contains r.1).map Prod.fst =
          m.ids.filter fun k => !m'.ids.contains k := by
      intro m m'
      unfold StateMap.ids
      rw [List.filter_map]
      rfl
    refine sortedKeys_congr ?_
    rw [hfilter, hfilter]
    have hcontains : ∀ k, expected.ids.contains k = expected'.ids.contains k := fun k =>
      he.ids_perm.contains_eq
    simp only [hcontains]
    exact ha.ids_perm.filter _
  unfold compare
  rw [hactual, ← hexpected]
  congr 1
  refine List.filterMap_congr fun extId hmem => ?_
  exact compareRecord_reordered he ha (mem_sortedKeys.mp hmem)

/-! ## The numbers of a run -/

theorem ncard_ids (m m' : StateMap) :
    {extId | extId ∈ m.ids ∨ extId ∈ m'.ids}.ncard = (m.ids ++ m'.ids).dedup.length := by
  have hset : {extId | extId ∈ m.ids ∨ extId ∈ m'.ids} = ((m.ids ++ m'.ids).toFinset : Set String) := by
    ext extId
    simp
  rw [hset, Set.ncard_coe_finset, List.card_toFinset]

theorem ncard_disagree :
    {extId | Disagree expected actual extId}.ncard =
      (compare expected.records actual.records).length := by
  have hset : {extId | Disagree expected actual extId} =
      (((compare expected.records actual.records).map Discrepancy.externalId).toFinset : Set String) := by
    ext extId
    rw [Set.mem_ofPred_eq, ← mem_reported, Finset.mem_coe, List.mem_toFinset]
  rw [hset, Set.ncard_coe_finset, List.toFinset_card_of_nodup reported_nodup, List.length_map]

theorem agree_iff :
    Agree expected actual extId ↔
      (extId ∈ expected.ids ∨ extId ∈ actual.ids) ∧ ¬ Disagree expected actual extId := by
  unfold Agree Disagree OnlyIn
  constructor
  · rintro ⟨hin, hin', hsame⟩
    exact ⟨.inl hin, by simp [hin, hin', hsame]⟩
  · rintro ⟨hany, hagree⟩
    push Not at hagree
    obtain ⟨hexpected, hactual, hsame⟩ := hagree
    rcases hany with hin | hin
    · exact ⟨hin, hexpected hin, by simpa using hsame⟩
    · exact ⟨hactual hin, hin, by simpa using hsame⟩

theorem Disagree.mem (h : Disagree expected actual extId) :
    extId ∈ expected.ids ∨ extId ∈ actual.ids := by
  rcases h with h | h | ⟨f, record, current, hr, -⟩
  · exact .inl h.1
  · exact .inr h.1
  · exact .inl (StateMap.exists_record.mpr ⟨record, hr⟩)

/-- The ids of both sides are those that agree and those that disagree. -/
theorem ncard_agree_add :
    {extId | Agree expected actual extId}.ncard + (compare expected.records actual.records).length =
      (expected.ids ++ actual.ids).dedup.length := by
  have hfinite : {extId | extId ∈ expected.ids ∨ extId ∈ actual.ids}.Finite := by
    refine (expected.ids ++ actual.ids).finite_toSet.subset fun extId h => ?_
    simpa using h
  have hagree : {extId | Agree expected actual extId} =
      {extId | extId ∈ expected.ids ∨ extId ∈ actual.ids} \ {extId | Disagree expected actual extId} := by
    ext extId
    exact agree_iff
  have hsub : {extId | Disagree expected actual extId} ⊆
      {extId | extId ∈ expected.ids ∨ extId ∈ actual.ids} := fun _ h => h.mem
  rw [← ncard_disagree, ← ncard_ids, hagree]
  exact Set.ncard_sdiff_add_ncard_of_subset hsub hfinite

end Sides

/-- Reconciliation is sound and complete. -/
theorem reconciliation_sound_complete (expected actual : StateMap) (runId clock : String)
    (tenantId erpPlatform scope : Json) :
    -- one discrepancy for each id the sides disagree on, and none for any other
    ((compare expected.records actual.records).map Discrepancy.externalId).Nodup ∧
    (∀ extId, extId ∈ (compare expected.records actual.records).map Discrepancy.externalId ↔
      Disagree expected actual extId) ∧
    -- what each one says
    (∀ d ∈ compare expected.records actual.records,
      (d.kind = .missingInErp ↔ OnlyIn expected actual d.externalId) ∧
      (d.kind = .unexpectedInErp ↔ OnlyIn actual expected d.externalId) ∧
      (d.kind = .fieldMismatch ↔ ∃ f, Differs expected actual d.externalId f) ∧
      (∀ f, f ∈ d.fields ↔ Differs expected actual d.externalId f) ∧
      (d.fields.map FieldMismatch.field).Pairwise (· < ·)) ∧
    -- whatever the insertion orders
    (∀ expected' actual', expected.Reordered expected' → actual.Reordered actual' →
      compare expected.records actual.records = compare expected'.records actual'.records) ∧
    -- the run
    let run := reconcile runId clock tenantId erpPlatform scope expected.records actual.records
    run.checked = {extId | extId ∈ expected.ids ∨ extId ∈ actual.ids}.ncard ∧
      Obj.get? run.completedPayload "matched" =
        some (.int (({extId | Agree expected actual extId}.ncard : ℕ) : Int)) ∧
      (run.driftPayload = none ↔ ∀ extId, ¬ Disagree expected actual extId) := by
  refine ⟨reported_nodup, fun _ => mem_reported, fun _ hd => compare_sound hd,
    fun _ _ he ha => compare_reordered he ha, (ncard_ids expected actual).symm, ?_, ?_⟩
  · have hcount : {extId | Agree expected actual extId}.ncard +
        (compare expected.records actual.records).length = (expected.ids ++ actual.ids).dedup.length :=
      ncard_agree_add
    have hmatched : (({extId | Agree expected actual extId}.ncard : ℕ) : Int) =
        ((expected.ids ++ actual.ids).dedup.length : Int) -
          (compare expected.records actual.records).length := by
      omega
    rw [hmatched]
    rfl
  · rw [ReconciliationResult.driftPayload]
    constructor
    · intro hnone extId hdisagree
      have hmem := mem_reported.mpr hdisagree
      split at hnone
      · next hempty =>
        have hnil : compare expected.records actual.records = [] := List.isEmpty_iff.mp hempty
        rw [hnil] at hmem
        cases hmem
      · cases hnone
    · intro hagree
      have hnil : compare expected.records actual.records = [] := by
        refine List.eq_nil_iff_forall_not_mem.mpr fun d hd => ?_
        exact hagree d.externalId (mem_reported.mp (List.mem_map_of_mem hd))
      exact if_pos (List.isEmpty_iff.mpr hnil)

end CaviErp
