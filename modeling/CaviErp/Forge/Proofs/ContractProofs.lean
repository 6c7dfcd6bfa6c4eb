import CaviErp.Base.Proofs.AgentProofs
import CaviErp.Forge.Recording

/-!
# The contracts of the write events

Which writes, reviewers and reasons pass `forge.write.requested`, `approved`, `rejected` and `completed`.
-/

namespace CaviErp

open Py Schema

namespace ForgeWriteAgent

variable {cfg : Config} {env : Env} {dir : String} {complaint : Schema → Json → String}

/-- An event over the repository's contracts is valid when its fields are, in the order of both. -/
theorem valid_stepEvent_iff (hreg : cfg.rt.registry = .repository dir complaint)
    (props : List (String × Schema)) {subject : String} {version : Int}
    (hfile : schemaFiles.lookup (SchemaRegistry.key (.str subject) (.int version)) =
      some (strictRecord props)) (hnodup : (props.map Prod.fst).Nodup)
    {step : WriteStep} (hsubject : step.subject = subject) (hversion : step.schemaVersion = version)
    (hkeys : step.event.keys = props.map Prod.fst) {correlationId : Json} :
    Valid cfg (stepEvent env step correlationId) ↔
      List.Forall₂ (fun p kv => p.2.valid kv.2 = true) props step.event := by
  have hvalidate : Valid cfg (stepEvent env step correlationId) ↔
      (SchemaRegistry.repository dir complaint).validate (.str subject) (.int version)
        (.obj step.event) = .ok () := by
    rw [← hreg, ← hsubject, ← hversion]
    rfl
  rw [hvalidate, validate_repository_iff hfile]
  exact valid_strictRecord_iff hkeys hnodup

section Events

variable {op : WriteOperation} {correlationId : Json}
  (hreg : cfg.rt.registry = .repository dir complaint)

include hreg

theorem Described.valid_requested (h : Described op) :
    Valid cfg (stepEvent env (requestedStep env.coordinator op) correlationId) := by
  rw [valid_stepEvent_iff hreg (forgeWriteRequestedFields ++
    [("reverses", textOrNull), ("target_external_id", textOrNull)])
    (show schemaFiles.lookup (SchemaRegistry.key "forge.write.requested" (.int 3)) =
      some forgeWriteRequestedV3 from rfl) (by decide) rfl rfl rfl]
  simp only [forgeWriteRequestedFields, List.cons_append, List.nil_append, requestedStep,
    requestedPayload, List.forall₂_cons, List.Forall₂.nil, valid_text_str, Nat.zero_le,
    valid_anyObject_obj]
  exact ⟨h.tenantId, h.erpPlatform, h.operation, h.targetModule, trivial, h.requestedBy, trivial,
    h.diffPreview, h.reverses, h.targetExternalId, trivial⟩

theorem valid_approved_iff {reviewer : Json} :
    Valid cfg (stepEvent env (approvedStep env.coordinator op reviewer) correlationId) ↔
      Named op ∧ (Schema.text 1).valid reviewer = true := by
  rw [valid_stepEvent_iff hreg _
    (show schemaFiles.lookup (SchemaRegistry.key "forge.write.approved" (.int 1)) =
      some forgeWriteApprovedV1 from rfl) (by decide) rfl rfl rfl]
  simp only [approvedStep, approvedPayload, List.forall₂_cons, List.Forall₂.nil, valid_text_str,
    Nat.zero_le]
  constructor
  · rintro ⟨htenant, hplatform, hoperation, hreviewer, -, hid, -⟩
    exact ⟨⟨htenant, hplatform, hoperation, hid⟩, hreviewer⟩
  · rintro ⟨⟨htenant, hplatform, hoperation, hid⟩, hreviewer⟩
    exact ⟨htenant, hplatform, hoperation, hreviewer, trivial, hid, trivial⟩

theorem Named.valid_rejected (h : Named op) {reviewer reason : Json}
    (hreviewer : (Schema.text 1).valid reviewer = true)
    (hreason : (Schema.text 1).valid reason = true) :
    Valid cfg (stepEvent env (rejectedStep env.coordinator op reviewer reason) correlationId) := by
  rw [valid_stepEvent_iff hreg _
    (show schemaFiles.lookup (SchemaRegistry.key "forge.write.rejected" (.int 1)) =
      some forgeWriteRejectedV1 from rfl) (by decide) rfl rfl rfl]
  simp only [rejectedStep, rejectedPayload, List.forall₂_cons, List.Forall₂.nil, valid_text_str,
    Nat.zero_le]
  exact ⟨h.tenantId, h.erpPlatform, h.operation, hreviewer, trivial, hreason, trivial⟩

theorem valid_completed_iff {confirmation : Obj} :
    Valid cfg (stepEvent env (completedStep env.coordinator op confirmation) correlationId) ↔
      Named op := by
  rw [valid_stepEvent_iff hreg _
    (show schemaFiles.lookup (SchemaRegistry.key "forge.write.completed" (.int 1)) =
      some forgeWriteCompletedV1 from rfl) (by decide) rfl rfl rfl]
  simp only [completedStep, completedPayload, List.forall₂_cons, List.Forall₂.nil, valid_text_str,
    Nat.zero_le, valid_anyObject_obj]
  constructor
  · rintro ⟨htenant, hplatform, hoperation, hid, -⟩
    exact ⟨htenant, hplatform, hoperation, hid⟩
  · rintro ⟨htenant, hplatform, hoperation, hid⟩
    exact ⟨htenant, hplatform, hoperation, hid, trivial, trivial, trivial⟩

end Events

end ForgeWriteAgent

end CaviErp
