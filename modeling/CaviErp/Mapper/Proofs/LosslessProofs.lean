import CaviErp.Mapper.Paths
import CaviErp.Mapper.Proofs.MapperProofs

/-!
# Nothing is lost in a coercion

The built-in transforms take a valid payload to a valid one of the latest version, from which the payload
can be read back.
-/

namespace CaviErp

open Py Schema

/-! ## A property more -/

section NewProperty

variable {props : List (String × Schema)} {k : String} {o : Obj}

theorem get?_undeclared {required : List String} (hnew : k ∉ props.map Prod.fst)
    (h : valid (record required props) (.obj o) = true) : o.get? k = none := by
  obtain ⟨o', ho, -, hclosed, -⟩ := (valid_record_iff ..).mp h
  obtain rfl := Json.obj.inj ho
  by_contra hsome
  exact hnew (hclosed k ((mem_keys_iff o k).mpr (Option.isSome_iff_ne_none.mpr hsome)))

/-- A new property with a valid value takes a payload to the version that requires it. -/
theorem valid_set {s : Schema} {v : Json} (hnew : k ∉ props.map Prod.fst)
    (h : valid (strictRecord props) (.obj o) = true) (hv : valid s v = true) :
    valid (strictRecord (props ++ [(k, s)])) (.obj (o.set k v)) = true := by
  obtain ⟨o', ho, hreq, hclosed, hprops⟩ := (valid_record_iff ..).mp h
  obtain rfl := Json.obj.inj ho
  refine (valid_record_iff ..).mpr ⟨o.set k v, rfl, ?_, ?_, ?_⟩
  · intro l hl
    rw [Obj.get?_set]
    by_cases hlk : l = k
    · rw [if_pos hlk]
      rfl
    · rw [if_neg hlk]
      rw [List.map_append, List.mem_append] at hl
      exact hreq l (hl.resolve_right (by simpa using hlk))
  · intro l hl
    rw [List.map_append, List.mem_append]
    rw [mem_keys_iff, Obj.get?_set] at hl
    by_cases hlk : l = k
    · exact .inr (by simp [hlk])
    · rw [if_neg hlk] at hl
      exact .inl (hclosed l ((mem_keys_iff o l).mpr hl))
  · intro l t w hmem hw
    rw [Obj.get?_set] at hw
    rcases List.mem_append.mp hmem with hmem | hmem
    · have hlk : l ≠ k := fun heq => hnew (heq ▸ List.mem_map_of_mem hmem)
      rw [if_neg hlk] at hw
      exact hprops l t w hmem hw
    · obtain ⟨rfl, rfl⟩ := Prod.mk.inj (List.mem_singleton.mp hmem)
      rw [if_pos rfl] at hw
      exact Option.some.inj hw ▸ hv

/-- Without the new property it is the payload again. -/
theorem get?_filter_set {v : Json} (h : o.get? k = none) (l : String) :
    Obj.get? ((o.set k v).filter fun kv => kv.1 ≠ k) l = o.get? l := by
  rw [Obj.get?_filter_ne]
  by_cases hl : l = k
  · rw [if_pos hl, hl, h]
  · rw [if_neg hl, Obj.get?_set, if_neg hl]

end NewProperty

/-! ## The transforms and their inverses -/

theorem get?_ledgerEntryV2ToV1 {o : Obj} (h : ledgerEntryV1.valid (.obj o) = true) (k : String) :
    (ledgerEntryV2ToV1 (ledgerEntryV1ToV2 o)).get? k = o.get? k := by
  have hnodescription : o.get? "description" = none := get?_undeclared (by decide) h
  have hnotype : o.get? "entry_type" = none := get?_undeclared (by decide) h
  -- the memo is a text where there is one, so it is in the result as the description
  have hmemo : ∀ v, o.get? "memo" = some v → v ≠ .null := by
    rintro v hv rfl
    obtain ⟨o', ho, -, -, hprops⟩ := (valid_record_iff ..).mp h
    obtain rfl := Json.obj.inj ho
    have hnull := hprops "memo" memoSchema .null (by simp [memoSchema]) hv
    cases hnull
  have hdescription : (ledgerEntryV1ToV2 o).get? "description" = o.get? "memo" := by
    rw [get?_ledgerEntryV1ToV2]
    cases hm : o.get? "memo" with
    | none => simp [Obj.get, hm, hnodescription]
    | some v => simp [Obj.get, hm, hmemo v hm]
  have hrest : ∀ l, Obj.get? (((ledgerEntryV1ToV2 o).filter fun kv => kv.1 ≠ "entry_type").filter
      fun kv => kv.1 ≠ "description") l = if l = "memo" then none else o.get? l := by
    intro l
    rw [Obj.get?_filter_ne, Obj.get?_filter_ne, get?_ledgerEntryV1ToV2]
    by_cases hd : l = "description"
    · simp [hd, hnodescription]
    by_cases ht : l = "entry_type"
    · simp [ht, hnotype]
    · simp [hd, ht]
  unfold ledgerEntryV2ToV1
  rw [hdescription]
  cases hm : o.get? "memo" with
  | none =>
    refine (hrest k).trans ?_
    by_cases hk : k = "memo"
    · rw [if_pos hk, hk, hm]
    · rw [if_neg hk]
  | some v =>
    refine (Obj.get?_set ..).trans ?_
    by_cases hk : k = "memo"
    · rw [if_pos hk, hk, hm]
    · rw [if_neg hk, hrest, if_neg hk]

theorem valid_textOrNull_null : textOrNull.valid .null = true := rfl

theorem valid_forgeWriteRequestedV1ToV2 {o : Obj} (h : forgeWriteRequestedV1.valid (.obj o) = true) :
    forgeWriteRequestedV2.valid (.obj (forgeWriteRequestedV1ToV2 o)) = true :=
  valid_set (by decide) h valid_textOrNull_null

theorem valid_forgeWriteRequestedV2ToV3 {o : Obj} (h : forgeWriteRequestedV2.valid (.obj o) = true) :
    forgeWriteRequestedV3.valid (.obj (forgeWriteRequestedV2ToV3 o)) = true :=
  valid_set (by decide) h valid_textOrNull_null

theorem get?_forgeWriteRequestedV2ToV1 {o : Obj} (h : forgeWriteRequestedV1.valid (.obj o) = true)
    (k : String) : (forgeWriteRequestedV2ToV1 (forgeWriteRequestedV1ToV2 o)).get? k = o.get? k :=
  get?_filter_set (get?_undeclared (by decide) h) k

theorem get?_forgeWriteRequestedV3ToV2 {o : Obj} (h : forgeWriteRequestedV2.valid (.obj o) = true)
    (k : String) : (forgeWriteRequestedV3ToV2 (forgeWriteRequestedV2ToV3 o)).get? k = o.get? k :=
  get?_filter_set (get?_undeclared (by decide) h) k

/-! ## By way of the mapper -/

section BuiltIn

variable (dir : String) (complaint : Schema → Json → String)

/-- `register_all(Mapper())`. -/
def builtInMapper : Mapper := registerAll { registry := .repository dir complaint }

theorem builtIn_edges : (builtInMapper dir complaint).transforms.map Prod.fst =
    [⟨"ledger.entry", 1, 2⟩, ⟨"forge.write.requested", 1, 2⟩, ⟨"forge.write.requested", 2, 3⟩] := rfl

theorem findPath_write :
    (builtInMapper dir complaint).findPath "forge.write.requested" 1 3 = some [(1, 2), (2, 3)] ∧
      (builtInMapper dir complaint).findPath "forge.write.requested" 2 3 = some [(2, 3)] := by
  have h₁ : (builtInMapper dir complaint).adjacency "forge.write.requested" 1 = [2] := by
    rw [Mapper.adjacency, builtIn_edges]
    simp
  have h₂ : (builtInMapper dir complaint).adjacency "forge.write.requested" 2 = [3] := by
    rw [Mapper.adjacency, builtIn_edges]
    simp
  have hlen : (builtInMapper dir complaint).transforms.length = 3 := rfl
  constructor
  · simp [Mapper.findPath, hlen, Mapper.search, h₁, h₂, Mapper.visit]
  · simp [Mapper.findPath, hlen, Mapper.search, h₂, Mapper.visit]

variable {dir complaint}

/-- A coercion returns what the transforms along the path make of the payload, if that is valid. -/
theorem transform_of_path {subject : Json} {src dst : Int} {path : List (Int × Int)} {o r : Obj}
    {schema : Schema} (hne : src ≠ dst)
    (hpath : (builtInMapper dir complaint).findPath subject src dst = some path)
    (hcompose : (builtInMapper dir complaint).compose subject path o = .ok r)
    (hfile : schemaFiles.lookup (SchemaRegistry.key subject (.int dst)) = some schema)
    (hvalid : schema.valid (.obj r) = true) :
    (builtInMapper dir complaint).transform subject src dst (.obj o) = .ok r := by
  have hcoerce : (builtInMapper dir complaint).coerce subject src dst (.obj o) = .ok r := by
    unfold Mapper.coerce
    simp only [dictOf, if_neg hne, hpath, hcompose, Except.mapError]
  have hcheck : (SchemaRegistry.repository dir complaint).validate subject (.int dst) (.obj r) = .ok () :=
    (validate_repository_iff hfile).mpr hvalid
  have hregistry : (builtInMapper dir complaint).registry = .repository dir complaint := rfl
  have hon : (builtInMapper dir complaint).validateOutput = true := rfl
  rw [Mapper.transform, hcoerce, hregistry, hon]
  simp only [bind, Except.bind, if_true, hcheck, Except.mapError]
  rfl

end BuiltIn

/-- **The built-in coercions are total on valid payloads, and lose nothing.** Each valid payload is
transformed to its latest version, to a payload valid there, and can be read back from it. -/
theorem coercions_lossless (dir : String) (complaint : Schema → Json → String) :
    let m := builtInMapper dir complaint
    (∀ payload, ledgerEntryV1.valid payload = true →
      ∃ o r : Obj, payload = .obj o ∧ m.transform "ledger.entry" 1 2 payload = .ok r ∧
        ledgerEntryV2.valid (.obj r) = true ∧ ∀ k, (ledgerEntryV2ToV1 r).get? k = o.get? k) ∧
    (∀ payload, forgeWriteRequestedV1.valid payload = true →
      ∃ o r : Obj, payload = .obj o ∧ m.transform "forge.write.requested" 1 3 payload = .ok r ∧
        forgeWriteRequestedV3.valid (.obj r) = true ∧
        ∀ k, (forgeWriteRequestedV2ToV1 (forgeWriteRequestedV3ToV2 r)).get? k = o.get? k) ∧
    ∀ payload, forgeWriteRequestedV2.valid payload = true →
      ∃ o r : Obj, payload = .obj o ∧ m.transform "forge.write.requested" 2 3 payload = .ok r ∧
        forgeWriteRequestedV3.valid (.obj r) = true ∧
        ∀ k, (forgeWriteRequestedV3ToV2 r).get? k = o.get? k := by
  intro m
  refine ⟨?_, ?_, ?_⟩
  · intro payload h
    obtain ⟨o, rfl, -⟩ := (valid_record_iff ..).mp h
    have hvalid := valid_ledgerEntryV1ToV2 h
    exact ⟨o, ledgerEntryV1ToV2 o, rfl,
      transform_of_path (by decide) (MapperAgent.findPath_entry (.repository dir complaint id)) rfl rfl
        hvalid, hvalid, get?_ledgerEntryV2ToV1 h⟩
  · intro payload h
    obtain ⟨o, rfl, -⟩ := (valid_record_iff ..).mp h
    have h₂ := valid_forgeWriteRequestedV1ToV2 h
    have hvalid := valid_forgeWriteRequestedV2ToV3 h₂
    refine ⟨o, _, rfl, transform_of_path (by decide) (findPath_write dir complaint).1 rfl rfl hvalid,
      hvalid, fun k => ?_⟩
    -- the transforms are undone in the other order
    have hlast := get?_forgeWriteRequestedV3ToV2 h₂
    have hfirst := get?_forgeWriteRequestedV2ToV1 h k
    unfold forgeWriteRequestedV2ToV1 at hfirst ⊢
    rw [Obj.get?_filter_ne] at hfirst ⊢
    rwa [hlast]
  · intro payload h
    obtain ⟨o, rfl, -⟩ := (valid_record_iff ..).mp h
    have hvalid := valid_forgeWriteRequestedV2ToV3 h
    exact ⟨o, _, rfl, transform_of_path (by decide) (findPath_write dir complaint).2 rfl rfl hvalid,
      hvalid, get?_forgeWriteRequestedV3ToV2 h⟩

end CaviErp
