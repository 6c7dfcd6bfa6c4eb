import CaviErp.Base.Proofs.AgentProofs
import CaviErp.Mapper.Agent

/-!
# The built-in transforms

What the transforms make of a payload that meets the contract they start from, and which path the
mapper takes between two versions.
-/

namespace CaviErp

open Py Schema

/-! ## The entry of a ledger in its second version -/

theorem get?_ledgerEntryV1ToV2 (o : Obj) (k : String) :
    (ledgerEntryV1ToV2 o).get? k =
      if k = "description" ∧ o.get "memo" ≠ .null then some (o.get "memo")
      else if k = "entry_type" then some "sale"
      else if k = "memo" then none
      else o.get? k := by
  unfold ledgerEntryV1ToV2
  by_cases hm : o.get "memo" = .null
  · simp only [hm, ne_eq, not_true_eq_false, and_false, if_false]
    rw [Obj.get?_set, Obj.get?_filter_ne]
  · split
    · rename_i hnull
      exact absurd hnull hm
    simp only [hm, ne_eq, not_false_eq_true, and_true]
    rw [Obj.get?_set, Obj.get?_set, Obj.get?_filter_ne]

theorem mem_keys_iff (o : Obj) (k : String) : k ∈ o.keys ↔ (o.get? k).isSome := by
  rw [Obj.keys, Obj.get?, Option.isSome_iff_ne_none, ne_eq, List.lookup_eq_none_iff]
  simp only [bne_iff_ne, ne_eq, not_forall, not_not, List.mem_map]
  constructor
  · rintro ⟨kv, hkv, rfl⟩
    exact ⟨kv, hkv, rfl⟩
  · rintro ⟨kv, hkv, h⟩
    exact ⟨kv, hkv, h.symm⟩

/-- The schema of the memo of an entry, and of its description in the second version. -/
def memoSchema : Schema := mk { types := [.string], maxLength := some 280 } [] none

/-- A valid entry is transformed to a valid one. -/
theorem valid_ledgerEntryV1ToV2 {o : Obj} (h : ledgerEntryV1.valid (.obj o) = true) :
    ledgerEntryV2.valid (.obj (ledgerEntryV1ToV2 o)) = true := by
  obtain ⟨o', ho, hreq, hclosed, hprops⟩ := (valid_record_iff ..).mp h
  obtain rfl := Json.obj.inj ho
  refine (valid_record_iff ..).mpr ⟨ledgerEntryV1ToV2 o, rfl, ?_, ?_, ?_⟩
  · intro k hk
    rw [get?_ledgerEntryV1ToV2]
    simp only [List.mem_cons, List.not_mem_nil, or_false] at hk
    rcases hk with rfl | rfl | rfl | rfl
    · simpa using hreq "entry_id" (by simp)
    · simpa using hreq "currency" (by simp)
    · simp
    · simpa using hreq "lines" (by simp)
  · intro k hk
    rw [mem_keys_iff, get?_ledgerEntryV1ToV2] at hk
    by_cases hd : k = "description"
    · simp [hd]
    by_cases ht : k = "entry_type"
    · simp [ht]
    by_cases hm : k = "memo"
    · simp [hm] at hk
    · -- any other key is one of the first version
      simp only [hd, ht, hm, false_and, if_false] at hk
      have hmem := hclosed k ((mem_keys_iff o k).mpr hk)
      simp only [List.map_cons, List.map_nil, List.mem_cons, List.not_mem_nil, or_false, hm,
        false_or] at hmem
      simp only [List.map_cons, List.map_nil, List.mem_cons, List.not_mem_nil, or_false, hd, ht,
        false_or]
      exact hmem
  · intro k s v hs hv
    rw [get?_ledgerEntryV1ToV2] at hv
    simp only [List.mem_cons, Prod.mk.injEq, List.not_mem_nil, or_false] at hs
    rcases hs with ⟨rfl, rfl⟩ | ⟨rfl, rfl⟩ | ⟨rfl, rfl⟩ | ⟨rfl, rfl⟩ | ⟨rfl, rfl⟩
    · exact hprops "entry_id" _ v (by simp) (by simpa using hv)
    · exact hprops "currency" _ v (by simp) (by simpa using hv)
    · obtain rfl : Json.str "sale" = v := by simpa using hv
      rfl
    · -- the description is the memo: the first version declares no other
      by_cases hmemo : o.get "memo" = .null
      · have hnone : o.get? "description" = none := by
          by_contra hsome
          have hmem := hclosed "description"
            ((mem_keys_iff o _).mpr (Option.isSome_iff_ne_none.mpr hsome))
          simp at hmem
        simp [hmemo, hnone] at hv
      · have hv' : o.get "memo" = v := by simpa [hmemo] using hv
        have hget : o.get? "memo" = some v := by
          cases hm : o.get? "memo" with
          | none => simp [Obj.get, hm] at hmemo
          | some m => simpa [Obj.get, hm] using hv'
        exact hprops "memo" memoSchema v (by simp [memoSchema]) hget
    · exact hprops "lines" _ v (by simp) (by simpa using hv)

/-! ## Paths -/

namespace MapperAgent

variable (rt : Runtime)

theorem mapper_edges : (mapper rt).transforms.map Prod.fst =
    [⟨"ledger.entry", 1, 2⟩, ⟨"forge.write.requested", 1, 2⟩, ⟨"forge.write.requested", 2, 3⟩] := rfl

theorem findPath_entry : (mapper rt).findPath "ledger.entry" 1 2 = some [(1, 2)] := by
  have h₁ : (mapper rt).adjacency "ledger.entry" 1 = [2] := by
    rw [Mapper.adjacency, mapper_edges]
    simp
  have hlen : (mapper rt).transforms.length = 3 := rfl
  simp [Mapper.findPath, hlen, Mapper.search, h₁, Mapper.visit]

/-- A valid entry of the first version is coerced to the second. -/
theorem transform_entry {dir : String} {complaint : Schema → Json → String}
    {sha256 : String → String} {o : Obj} (h : ledgerEntryV1.valid (.obj o) = true) :
    (mapper (.repository dir complaint sha256)).transform "ledger.entry" 1 2 (.obj o) =
      .ok (ledgerEntryV1ToV2 o) := by
  have hfile : schemaFiles.lookup (SchemaRegistry.key "ledger.entry" (.int 2)) =
      some ledgerEntryV2 := rfl
  have hvalid : (SchemaRegistry.repository dir complaint).validate "ledger.entry" (.int 2)
      (.obj (ledgerEntryV1ToV2 o)) = .ok () :=
    (validate_repository_iff hfile).mpr (valid_ledgerEntryV1ToV2 h)
  have hcompose : (mapper (.repository dir complaint sha256)).compose "ledger.entry" [(1, 2)] o =
      .ok (ledgerEntryV1ToV2 o) := rfl
  have hcoerce : (mapper (.repository dir complaint sha256)).coerce "ledger.entry" 1 2 (.obj o) =
      .ok (ledgerEntryV1ToV2 o) := by
    simp [Mapper.coerce, dictOf, findPath_entry, hcompose, Except.mapError]
  have hregistry : (mapper (.repository dir complaint sha256)).registry =
      .repository dir complaint := rfl
  have hon : (mapper (.repository dir complaint sha256)).validateOutput = true := rfl
  rw [Mapper.transform, hcoerce, hregistry, hon]
  simp only [bind, Except.bind, if_true, hvalid, Except.mapError]
  rfl

end MapperAgent

end CaviErp
