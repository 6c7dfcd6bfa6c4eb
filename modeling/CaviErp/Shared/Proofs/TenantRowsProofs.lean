import CaviErp.Base.Proofs.TenantScopeProofs
import CaviErp.Forge.Proofs.LifecycleProofs
import CaviErp.Ledger.Query
import CaviErp.Ledger.Reconcile
import CaviErp.Vault.Agent

/-!
# The event log, tenant by tenant

The helpers with which the write agent, the reconciliation agent, the Vault agent and the query agent
build their events leave the tenant of the envelope out, and every contract these events meet asks for a
tenant in the payload. So none of these events is among the rows of its tenant.
-/

namespace CaviErp

open Py Schema

/-! ## The four agents -/

variable {dir : String} {complaint : Schema → Json → String}

namespace ForgeWriteAgent

variable {cfg : Config} (hreg : cfg.rt.registry = .repository dir complaint) {w₀ : World}

theorem forgeWriteRequestedV3_listed :
    schemaFiles.lookup (SchemaRegistry.key "forge.write.requested" (.int 3)) =
      some forgeWriteRequestedV3 := rfl

theorem forgeWriteApprovedV1_listed :
    schemaFiles.lookup (SchemaRegistry.key "forge.write.approved" (.int 1)) =
      some forgeWriteApprovedV1 := rfl

theorem forgeWriteRejectedV1_listed :
    schemaFiles.lookup (SchemaRegistry.key "forge.write.rejected" (.int 1)) =
      some forgeWriteRejectedV1 := rfl

theorem forgeWriteCompletedV1_listed :
    schemaFiles.lookup (SchemaRegistry.key "forge.write.completed" (.int 1)) =
      some forgeWriteCompletedV1 := rfl

include hreg

theorem execute_ownerless {env : Env} {event : Event} {op : WriteOperation} {correlationId : Json}
    (hstate : op.state = .approved) :
    Action.Keeps (Records Event.Ownerless w₀) (execute cfg env op event correlationId) := by
  intro w hw
  have hcourse := execute_course cfg env event hstate correlationId w
  generalize execute cfg env op event correlationId w = r at hcourse
  cases hcourse with
  | unkeyed hkey => exact hw
  | refused hkey hcheck => exact BaseAgent.deadLetter_records _ _ _ hw
  | failed hkey hcheck hwriter =>
    rw [onWriteFailed_eq]
    split
    · exact BaseAgent.deadLetter_records _ _ _ hw
    · exact hw
  | written hkey hcheck hwriter =>
    exact BaseAgent.emit_ownerless hreg _ forgeWriteCompletedV1_listed ⟨_, rfl, by simp⟩
      rfl rfl rfl _ hw

theorem handle_ownerless (env : Env) (event : Event) :
    Action.Keeps (Records Event.Ownerless w₀) (handle cfg env event) := by
  intro w hw
  have hcourse := handle_course cfg env event w
  generalize handle cfg env event w = r at hcourse
  cases hcourse with
  | idle r => exact hw
  | quarantined error => exact BaseAgent.deadLetter_records _ _ _ hw
  | proposed h =>
    exact BaseAgent.emit_ownerless hreg _ forgeWriteRequestedV3_listed
      ⟨_, rfl, by simp [forgeWriteRequestedFields]⟩ rfl rfl rfl _ hw
  | retried h hop hstate => exact execute_ownerless hreg hstate _ hw
  | approved h hreviewer hop hstate =>
    refine Action.Keeps.bind ?_ ?_ _ hw
    · exact BaseAgent.emit_ownerless hreg _ forgeWriteApprovedV1_listed ⟨_, rfl, by simp⟩ rfl rfl rfl
    · intro _
      exact execute_ownerless hreg rfl
  | rejected h hop hstate =>
    exact BaseAgent.emit_ownerless hreg _ forgeWriteRejectedV1_listed ⟨_, rfl, by simp⟩
      rfl rfl rfl _ hw

end ForgeWriteAgent

namespace LedgerReconcileAgent

variable {rt : Runtime} (hreg : rt.registry = .repository dir complaint) {w₀ : World}

include hreg

theorem handle_ownerless (env : Env) (event : Event) :
    Action.Keeps (Records Event.Ownerless w₀) (handle rt env event) := by
  refine .ofExcept_bind fun tenantId _ => .ofExcept_bind fun erpPlatform _ =>
    .ofExcept_bind fun scope _ => ?_
  split
  · exact BaseAgent.deadLetter_records _ _
  · exact .raise _
  · have hcompleted : AsksForTenant ledgerReconciliationCompletedV1 := ⟨_, rfl, by simp⟩
    refine .bind (BaseAgent.emit_ownerless hreg _ rfl hcompleted rfl rfl rfl) fun _ => ?_
    split
    · exact .pure ()
    · exact BaseAgent.emit_ownerless hreg ledgerDriftDetectedV1 rfl ⟨_, rfl, by simp⟩ rfl rfl rfl

end LedgerReconcileAgent

namespace VaultAgent

variable {σ : Type} {rt : Runtime} (hreg : rt.registry = .repository dir complaint) {w₀ : World σ}

include hreg

theorem handle_ownerless (store : CredentialStore σ) (env : Env) (event : Event) :
    Action.Keeps (Records Event.Ownerless w₀) (handle rt store env event) := by
  refine .ofExcept_bind fun tenantId _ => .ofExcept_bind fun platform _ =>
    .bind (fun _ h => h) fun w => ?_
  split
  · exact BaseAgent.emit_ownerless hreg vaultSecretGrantedV1 rfl ⟨_, rfl, by simp⟩ rfl rfl rfl
  · exact BaseAgent.emit_ownerless hreg vaultSecretDeniedV1 rfl ⟨_, rfl, by simp⟩ rfl rfl rfl
  · exact BaseAgent.emit_ownerless hreg vaultSecretDeniedV1 rfl ⟨_, rfl, by simp⟩ rfl rfl rfl
  · exact .raise _

end VaultAgent

namespace LedgerQueryAgent

variable {rt : Runtime} (hreg : rt.registry = .repository dir complaint) {w₀ : World}

include hreg

theorem handle_ownerless (env : Env) (event : Event) :
    Action.Keeps (Records Event.Ownerless w₀) (handle rt env event) := by
  refine .ofExcept_bind fun subject _ => .ofExcept_bind fun filters _ =>
    .ofExcept_bind fun tenantId _ => .ofExcept_bind fun erpPlatform _ => ?_
  split
  · exact BaseAgent.emit_ownerless hreg ledgerQueryCompletedV1 rfl ⟨_, rfl, by simp⟩ rfl rfl rfl
  · exact .ofExcept_bind fun payload _ =>
      BaseAgent.emit_ownerless hreg ledgerQueryFailedV1 rfl ⟨_, rfl, by simp⟩ rfl rfl rfl

end LedgerQueryAgent

/-! ## Runs -/

/-- A run of an agent each of whose calls records ownerless events only. -/
theorem serve_unaudited {σ ω η : Type} {rt : Runtime} {infraOf : η → Infra}
    {handle : η → Event → Action (World σ ω) PyError Unit}
    (h : ∀ (w₀ : World σ ω) env event, Action.Keeps (Records Event.Ownerless w₀) (handle env event))
    (calls : List (η × Inbound)) (w : World σ ω) :
    Unaudited w
      (Action.serve (fun c => BaseAgent.receive rt (infraOf c.1) (handle c.1) c.2) w calls) := by
  refine Records.unaudited (Action.serve_induct ?_ calls w (Records.refl _ w))
  intro c w' hw'
  exact BaseAgent.receive_records (h w c.1) c.2 w' hw'

/-- In every run of the four agents, every recorded event misses its tenant. -/
theorem recorded_events_unscoped (dir : String) (complaint : Schema → Json → String)
    (sha256 : String → String) :
    let rt : Runtime := .repository dir complaint sha256
    (∀ (breaker : BreakerConfig) (calls : List (ForgeWriteAgent.Env × Inbound)) w,
      Unaudited w (Action.serve (fun c =>
        BaseAgent.receive rt c.1.infra (ForgeWriteAgent.handle { rt, breaker } c.1) c.2) w calls)) ∧
    (∀ (calls : List (LedgerReconcileAgent.Env × Inbound)) w,
      Unaudited w (Action.serve (fun c =>
        BaseAgent.receive rt c.1.infra (LedgerReconcileAgent.handle rt c.1) c.2) w calls)) ∧
    (∀ (σ : Type) (store : CredentialStore σ) (calls : List (VaultAgent.Env × Inbound)) w,
      Unaudited w (Action.serve (fun c =>
        BaseAgent.receive rt c.1.infra (VaultAgent.handle rt store c.1) c.2) w calls)) ∧
    ∀ (calls : List (LedgerQueryAgent.Env × Inbound)) w,
      Unaudited w (Action.serve (fun c =>
        BaseAgent.receive rt c.1.infra (LedgerQueryAgent.handle rt c.1) c.2) w calls) := by
  intro rt
  have hreg : rt.registry = .repository dir complaint := rfl
  refine ⟨?_, ?_, ?_, ?_⟩
  · intro breaker calls w
    exact serve_unaudited (fun _ env event => ForgeWriteAgent.handle_ownerless hreg env event) calls w
  · intro calls w
    exact serve_unaudited (fun _ env event => LedgerReconcileAgent.handle_ownerless hreg env event)
      calls w
  · intro σ store calls w
    exact serve_unaudited (fun _ env event => VaultAgent.handle_ownerless hreg store env event) calls w
  · intro calls w
    exact serve_unaudited (fun _ env event => LedgerQueryAgent.handle_ownerless hreg env event) calls w

namespace ForgeWriteAgent

/-- The proposal of an order is recorded, and not as an event of the tenant it is about. -/
theorem orderProposal_unscoped :
    ¬ Records Event.Scoped { self := {} } (Action.serve
      (fun c => BaseAgent.receive orderConfig.rt c.1.infra (handle orderConfig c.1) c.2) { self := {} }
      [(orderEnv "0" "w-1" fun _ => .error "down", .event (orderProposal 10))]) := by
  set w' : World := Action.serve
    (fun c => BaseAgent.receive orderConfig.rt c.1.infra (handle orderConfig c.1) c.2) { self := {} }
    [(orderEnv "0" "w-1" fun _ => .error "down", .event (orderProposal 10))] with hw'
  have hevents : w'.store.events.map (fun e => (item e.payload "tenant_id", e.tenantId)) =
      [(.ok "acme", .null)] := by
    decide +kernel
  rintro ⟨new, hnew, hscoped⟩
  rw [hnew] at hevents
  obtain ⟨e, he, htenant⟩ := List.map_eq_singleton_iff.mp hevents
  replace he : new = [e] := he
  have hscope := hscoped e (by simp [he]) "acme" (congrArg Prod.fst htenant)
  rw [show e.tenantId = .null from congrArg Prod.snd htenant] at hscope
  cases hscope

end ForgeWriteAgent

end CaviErp
