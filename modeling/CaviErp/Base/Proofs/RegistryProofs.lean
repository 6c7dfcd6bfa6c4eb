import CaviErp.Base.Registry
import CaviErp.Lib.Proofs.JsonTextProofs
import CaviErp.Lib.Proofs.SchemaProofs

/-!
# Looking up contracts

Which contract a subject and a version select, over the repository's registry.
-/

namespace CaviErp

open Py

namespace SchemaRegistry

variable (r : SchemaRegistry)

theorem validate_eq (subject version payload : Json) :
    r.validate subject version payload =
      match r.files (key subject version) with
      | some s => if s.valid payload then .ok () else .error (.validationError (r.complaint s payload))
      | none => .error (.schemaNotFound
          ("No schema registered for " ++ key subject version ++ " at " ++
            r.dir ++ "/" ++ key subject version ++ ".json")) := by
  unfold validate get
  cases r.files (key subject version) with
  | none => rfl
  | some s => rfl

theorem validate_ok_iff {subject version payload : Json} :
    r.validate subject version payload = .ok () ↔
      ∃ s, r.files (key subject version) = some s ∧ s.valid payload = true := by
  rw [validate_eq]
  cases hf : r.files (key subject version) with
  | none => simp
  | some s => by_cases hv : s.valid payload = true <;> simp [hv]

/-- A value that is not validated fails its contract, or there is none. -/
theorem isContractFailure_of_validate {subject version payload : Json} {e : PyError}
    (h : r.validate subject version payload = .error e) : e.isContractFailure = true := by
  rw [validate_eq] at h
  cases hf : r.files (key subject version) with
  | none =>
    rw [hf] at h
    obtain rfl := Except.error.inj h
    rfl
  | some s =>
    rw [hf] at h
    by_cases hv : s.valid payload = true
    · simp [hv] at h
    · simp only [hv, Bool.false_eq_true, if_false] at h
      obtain rfl := Except.error.inj h
      rfl

end SchemaRegistry

/-! ## The repository's registry -/

/-- An event whose contract is known is valid when its payload meets that contract. -/
theorem validate_repository_iff {dir : String} {complaint : Schema → Json → String}
    {subject version payload : Json} {schema : Schema}
    (hfile : schemaFiles.lookup (SchemaRegistry.key subject version) = some schema) :
    (SchemaRegistry.repository dir complaint).validate subject version payload = .ok () ↔
      schema.valid payload = true := by
  rw [SchemaRegistry.validate_ok_iff]
  constructor
  · rintro ⟨s, hs, hv⟩
    obtain rfl : schema = s := Option.some.inj (hfile.symm.trans hs)
    exact hv
  · intro hv
    exact ⟨schema, hfile, hv⟩

/-- The names of the registered contracts that start with a given text. -/
def contractsNamed (start : String) : List String :=
  (schemaFiles.map Prod.fst).filter fun name => start.toList.isPrefixOf name.toList

/-- A contract found under a name with a known beginning is one of those with that beginning. -/
theorem mem_contractsNamed {start rest : String} {s : Schema}
    (h : schemaFiles.lookup (start ++ rest) = some s) : start ++ rest ∈ contractsNamed start := by
  rw [contractsNamed, List.mem_filter]
  refine ⟨?_, ?_⟩
  · rw [List.lookup_eq_some_iff] at h
    obtain ⟨l₁, l₂, hl, -⟩ := h
    rw [hl]
    simp
  · rw [List.isPrefixOf_iff_prefix, String.toList_append]
    exact List.prefix_append _ _

/-- The names of the contracts do not start like `str(x)` of anything but a string. -/
theorem contract_name_head {name : String} (hname : name ∈ schemaFiles.map Prod.fst) {c : Char}
    {cs : List Char} (h : name.toList = c :: cs) : c ∉ nonStringHeads := by
  have hall : (schemaFiles.map Prod.fst).all (fun name =>
      name.toList.head?.all fun c => !nonStringHeads.contains c) = true := rfl
  have hc := List.all_eq_true.mp hall name hname
  rw [h] at hc
  simpa using hc

/-- The `type` keyword of a schema. -/
def typesOf : Schema → List JType
  | .mk kw _ _ => kw.types

theorem contract_types : ∀ s ∈ schemaFiles.map Prod.snd, typesOf s = [.object] := by
  have hall : (schemaFiles.map Prod.snd).all (fun s => typesOf s == [.object]) = true := rfl
  intro s hs
  simpa using List.all_eq_true.mp hall s hs

/-- An event that meets a contract of the repository has a string for its subject and a dictionary for
its payload. -/
theorem shape_of_validate {dir : String} {complaint : Schema → Json → String}
    {subject version payload : Json}
    (h : (SchemaRegistry.repository dir complaint).validate subject version payload = .ok ()) :
    ∃ s o, subject = .str s ∧ payload = .obj o := by
  obtain ⟨schema, hfile, hv⟩ := (SchemaRegistry.validate_ok_iff _).mp h
  replace hfile : schemaFiles.lookup (SchemaRegistry.key subject version) = some schema := hfile
  obtain ⟨l₁, l₂, hl, -⟩ := List.lookup_eq_some_iff.mp hfile
  have hmem : (SchemaRegistry.key subject version, schema) ∈ schemaFiles := by rw [hl]; simp
  have hsubject : ∃ s, subject = .str s := by
    by_contra hnot
    obtain ⟨c, cs, hcs, hc⟩ := pyStr_head (j := subject) fun s hs => hnot ⟨s, hs⟩
    have hkey : (SchemaRegistry.key subject version).toList =
        c :: (cs ++ ".v".toList ++ version.pyStr.toList) := by
      simp [SchemaRegistry.key, hcs]
    exact contract_name_head (List.mem_map_of_mem hmem) hkey hc
  have hpayload : ∃ o, payload = .obj o := by
    have htypes := contract_types schema (List.mem_map_of_mem hmem)
    obtain ⟨kw, props, items⟩ := schema
    have hadmits := Schema.admits_of_valid hv
    replace htypes : kw.types = [.object] := htypes
    cases payload <;> simp [Keywords.admits, htypes, JType.admits] at hadmits
    exact ⟨_, rfl⟩
  obtain ⟨s, hs⟩ := hsubject
  obtain ⟨o, ho⟩ := hpayload
  exact ⟨s, o, hs, ho⟩

end CaviErp
