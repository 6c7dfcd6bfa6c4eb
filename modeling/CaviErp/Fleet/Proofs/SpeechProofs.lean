import CaviErp.Base.Proofs.OutboxProofs
import CaviErp.Fleet.Fleet
import CaviErp.Forge.Proofs.WriteAgentProofs

/-!
# What each agent may record

The events an agent records for one message, agent by agent. The proofs follow the agents' code; the rest of
the development uses `Fleet.speaks` alone.
-/

namespace CaviErp

open Py

namespace ForgeAgent

variable (cfg : Config) (env : Env)

theorem handle_speaks (event : Event) :
    Speaks cfg.rt (some event) [Answers event ["forge.completed"], Answers event ["ledger.entry"]] (handle cfg env event) := by
  refine .ofExcept_bind fun order _ => .ofExcept_bind fun order _ => ?_
  cases Forge.complete cfg.uuid5 order with
  | error e => exact .ite (Speaks.pure ()).of_silent (Speaks.raise e).of_silent
  | ok result =>
    refine (Speaks.emit env.infra _ ?_).bind fun _ => Speaks.emit env.infra _ ?_
    · exact ⟨⟨"forge.completed", List.mem_cons_self, rfl⟩, rfl⟩
    · exact ⟨⟨"ledger.entry", List.mem_cons_self, rfl⟩, rfl⟩

end ForgeAgent

namespace ForgeWriteAgent

/-- The events of the lifecycle of a write. -/
def announced : List String :=
  ["forge.write.requested", "forge.write.approved", "forge.write.rejected", "forge.write.completed"]

/-- The event announces a stage of a write. -/
def Announces (cause event : Event) : Prop := Answers cause announced event

variable (cfg : Config) (env : Env)

theorem emit_speaks (cause : Event) {step : WriteStep} (h : step.subject ∈ announced) :
    Speaks cfg.rt (some cause) [Announces cause] (emit cfg env step cause.correlationId) :=
  Speaks.emit env.infra _ ⟨⟨step.subject, h, rfl⟩, rfl⟩

theorem record_speaks {event : Event} {outcome : Except PyError WriteStep}
    (h : ∀ step, outcome = .ok step → step.subject = "forge.write.requested") :
    Speaks cfg.rt (some event) [Announces event] (record cfg env event outcome) := by
  cases outcome with
  | error e =>
    exact .ite (Speaks.deadLetter env.infra event _).of_silent (Speaks.raise e).of_silent
  | ok step =>
    refine .silent_bind (.modify fun _ => rfl) fun _ _ _ => emit_speaks cfg env _ ?_
    rw [h step rfl]
    decide

theorem propose_speaks (event : Event) :
    Speaks cfg.rt (some event) [Announces event] (propose cfg env event) := by
  refine record_speaks cfg env fun step h => ?_
  obtain ⟨r, -, h⟩ := bind_eq_ok h
  rw [(request_ok h).1]
  rfl

theorem reverse_speaks (event : Event) :
    Speaks cfg.rt (some event) [Announces event] (reverse cfg env event) := by
  refine .ofExcept_bind fun writeId _ => .silent_bind .read fun w _ _ => .ofExcept_bind fun found _ => ?_
  cases found with
  | none => exact (Speaks.deadLetter env.infra event _).of_silent
  | some original =>
    refine record_speaks cfg env fun step h => ?_
    obtain ⟨operation, -, h⟩ := bind_eq_ok h
    obtain ⟨payload, -, h⟩ := bind_eq_ok h
    obtain ⟨requestedBy, -, h⟩ := bind_eq_ok h
    obtain ⟨diffPreview, -, h⟩ := bind_eq_ok h
    rw [(requestReversal_ok h).1]
    rfl

theorem executeWrite_speaks (cause : Option Event) (op : WriteOperation) :
    Speaks cfg.rt cause [] (executeWrite env op) := by
  refine .ite (.raise _) ?_
  refine .silent_bind (.modify fun _ => rfl) fun _ _ _ => ?_
  cases env.coordinator.writer op with
  | error text => exact .raise _
  | ok confirmation => exact .ofExcept _

theorem executeWrite_subject {op : WriteOperation} {w : World} {step : WriteStep}
    (h : (executeWrite env op w).1 = .ok step) : step.subject = "forge.write.completed" := by
  unfold executeWrite at h
  split at h
  · cases h
  · simp only [Action.bind_apply, Action.modify_apply] at h
    cases hw : env.coordinator.writer op with
    | error text =>
      rw [hw] at h
      cases h
    | ok confirmation =>
      rw [hw] at h
      obtain ⟨completed, -, h⟩ := bind_eq_ok h
      cases h
      rfl

theorem execute_speaks (op : WriteOperation) (cause : Event) :
    Speaks cfg.rt (some cause) [Announces cause] (execute cfg env op cause cause.correlationId) := by
  refine .ofExcept_bind fun key _ => .silent_bind .read fun w _ _ =>
    .silent_bind (.modify fun _ => rfl) fun _ _ _ => ?_
  cases (((w.self.breakers key).getD {}).check cfg.breaker env.breakerClock).1 with
  | some refusal => exact (Speaks.deadLetter env.infra cause refusal).of_silent
  | none =>
    refine .silent_bind (executeWrite_speaks cfg env _ op).attempt fun outcome v hv => ?_
    cases outcome with
    | error e =>
      refine .ite ?_ (Speaks.raise e).of_silent
      refine Speaks.of_silent (.silent_bind (.modify fun _ => rfl) fun _ _ _ => ?_)
      exact .ite (Speaks.deadLetter env.infra cause _) (.pure ())
    | ok completed =>
      have hsubject : completed.subject = "forge.write.completed" :=
        executeWrite_subject env (Except.ok.inj hv)
      refine .silent_bind (.modify fun _ => rfl) fun _ _ _ =>
        .silent_bind (.modify fun _ => rfl) fun _ _ _ =>
          .silent_bind (.modify fun _ => rfl) fun _ _ _ => emit_speaks cfg env _ ?_
      rw [hsubject]
      decide

theorem approveWrite_speaks (event : Event) (writeId : String) (op : WriteOperation) :
    Speaks cfg.rt (some event) [Announces event, Announces event] (approveWrite cfg env event writeId op) := by
  refine .ofExcept_bind fun reviewer _ => .ofExcept_bind fun approved happroved => ?_
  have hsubject : approved.subject = "forge.write.approved" := by
    obtain ⟨op', -, h⟩ := bind_eq_ok happroved
    cases h
    rfl
  refine .silent_bind (.modify fun _ => rfl) fun _ _ _ => (emit_speaks cfg env _ ?_).bind fun _ => ?_
  · rw [hsubject]
    decide
  · exact execute_speaks cfg env _ event

theorem rejectWrite_speaks (event : Event) (writeId : String) (op : WriteOperation) :
    Speaks cfg.rt (some event) [Announces event] (rejectWrite cfg env event writeId op) := by
  refine .ofExcept_bind fun reviewer _ => .ofExcept_bind fun reason _ =>
    .ofExcept_bind fun rejected hrejected => ?_
  have hsubject : rejected.subject = "forge.write.rejected" := by
    obtain ⟨op', -, h⟩ := bind_eq_ok hrejected
    cases h
    rfl
  refine .silent_bind (.modify fun _ => rfl) fun _ _ _ => emit_speaks cfg env _ ?_
  rw [hsubject]
  decide

theorem decide_speaks (event : Event) :
    Speaks cfg.rt (some event) [Announces event, Announces event] (decide cfg env event) := by
  have hone : [Announces event].Sublist [Announces event, Announces event] := List.sublist_cons_self _ _
  refine .ofExcept_bind fun writeId _ => .silent_bind .read fun w _ _ => .ofExcept_bind fun found _ => ?_
  cases found with
  | none => exact (Speaks.pure ()).of_silent
  | some op =>
    refine .bind_silent (Speaks.attempt (.ofExcept_bind fun decision _ => ?_)) fun outcome => ?_
    · refine .ite (.ite ?_ (approveWrite_speaks cfg env event _ op)) ?_
      · exact (execute_speaks cfg env op event).weaken hone
      · exact (rejectWrite_speaks cfg env event _ op).weaken hone
    · cases outcome with
      | ok u => exact .pure ()
      | error e => exact .ite (Speaks.deadLetter env.infra event _) (.raise e)

theorem handle_speaks (event : Event) :
    Speaks cfg.rt (some event) [Announces event, Announces event] (handle cfg env event) := by
  have hone : [Announces event].Sublist [Announces event, Announces event] := List.sublist_cons_self _ _
  refine .ite ((propose_speaks cfg env event).weaken hone) (.ite (decide_speaks cfg env event) ?_)
  exact .ite ((reverse_speaks cfg env event).weaken hone) (Speaks.pure ()).of_silent

end ForgeWriteAgent

namespace LedgerAgent

variable {σ : Type} (rt : Runtime) (store : LedgerStore σ) (env : Env)

theorem handle_speaks (event : Event) :
    Speaks rt (some event) [Answers event ["ledger.posted", "ledger.rejected"]] (handle rt store env event) := by
  refine .ite ?_ ?_
  · exact (Speaks.ofExcept_bind fun _ _ => Speaks.pure ()).of_silent
  · refine .ofExcept_bind fun tenantId _ => .ofExcept_bind fun entry _ => ?_
    refine .silent_bind (Speaks.attempt (.onSelf _)) fun outcome _ _ => ?_
    cases outcome with
    | error e =>
      cases e with
      | unbalancedEntry reason =>
        exact Speaks.emit env.infra _ ⟨⟨"ledger.rejected", by simp, rfl⟩, rfl⟩
      | _ => exact (Speaks.raise _).of_silent
    | ok result =>
      cases result with
      | mk entryId currency status totalMinor lineCount =>
        cases status with
        | duplicate => exact (Speaks.pure ()).of_silent
        | posted => exact Speaks.emit env.infra _ ⟨⟨"ledger.posted", by simp, rfl⟩, rfl⟩

end LedgerAgent

namespace LedgerQueryAgent

variable (rt : Runtime) (env : Env)

theorem handle_speaks (event : Event) :
    Speaks rt (some event) [Answers event ["ledger.query.completed", "ledger.query.failed"]] (handle rt env event) := by
  refine .ofExcept_bind fun subject _ => .ofExcept_bind fun filters _ => .ofExcept_bind fun tenantId _ =>
    .ofExcept_bind fun platform _ => ?_
  cases env.querier.query tenantId platform subject (filters.getD (.obj [])) with
  | ok payload => exact Speaks.emit env.infra _ ⟨⟨"ledger.query.completed", by simp, rfl⟩, rfl⟩
  | error reason =>
    refine .ofExcept_bind fun payload _ => ?_
    exact Speaks.emit env.infra _ ⟨⟨"ledger.query.failed", by simp, rfl⟩, rfl⟩

end LedgerQueryAgent

namespace LedgerReconcileAgent

variable (rt : Runtime) (env : Env)

theorem handle_speaks (event : Event) :
    Speaks rt (some event) [Answers event ["ledger.reconciliation.completed"], Answers event ["ledger.drift.detected"]]
      (handle rt env event) := by
  refine .ofExcept_bind fun tenantId _ => .ofExcept_bind fun platform _ => .ofExcept_bind fun scope _ => ?_
  cases sources env tenantId platform scope with
  | error e =>
    cases e with
    | unavailable text => exact (Speaks.deadLetter env.infra event _).of_silent
    | raised e => exact (Speaks.raise e).of_silent
  | ok sides =>
    obtain ⟨expected, actual⟩ := sides
    refine (Speaks.emit env.infra _ ⟨⟨"ledger.reconciliation.completed", by simp, rfl⟩, rfl⟩).bind fun _ => ?_
    cases (reconcile env.runId env.clock tenantId platform scope expected actual).driftPayload with
    | none => exact (Speaks.pure ()).of_silent
    | some drift => exact Speaks.emit env.infra _ ⟨⟨"ledger.drift.detected", by simp, rfl⟩, rfl⟩

end LedgerReconcileAgent

namespace MapperAgent

variable (rt : Runtime) (env : Env)

/-- What the mapper passes on has no tenant. -/
theorem handle_speaks (m : Mapper) (event : Event) :
    Speaks rt (some event) [fun e => e.tenantId = .null ∧ e.correlationId = event.correlationId]
      (handle rt env m event) := by
  refine .ofExcept_bind fun subject _ => .ofExcept_bind fun fromVersion _ =>
    .ofExcept_bind fun toVersion _ => .ofExcept_bind fun payload _ => ?_
  cases m.transform subject fromVersion toVersion payload with
  | error e =>
    cases e with
    | noTransformPath text => exact (Speaks.pure ()).of_silent
    | raised e => exact (Speaks.raise e).of_silent
  | ok result => exact Speaks.emit env.infra _ ⟨rfl, rfl⟩

end MapperAgent

namespace ErpMapperAgent

variable (rt : Runtime) (t : ErpTransformer) (env : Env)

theorem handle_speaks (event : Event) :
    Speaks rt (some event) [Answers event ["mapper.transform.completed", "mapper.transform.failed"]] (handle rt t env event) := by
  refine .ofExcept_bind fun tenantId _ => .ofExcept_bind fun sourceErp _ =>
    .ofExcept_bind fun sourceSchema _ => .ofExcept_bind fun targetSchema _ =>
      .ofExcept_bind fun record _ => .ofExcept_bind fun outcome _ => ?_
  cases outcome with
  | ok payload => exact Speaks.emit env.infra _ ⟨⟨"mapper.transform.completed", by simp, rfl⟩, rfl⟩
  | error reason => exact Speaks.emit env.infra _ ⟨⟨"mapper.transform.failed", by simp, rfl⟩, rfl⟩

end ErpMapperAgent

namespace TickerAgent

variable {σ : Type} (rt : Runtime) (cache : CacheBackend σ) (ttl : Int) (env : Env)

theorem handle_speaks (event : Event) (req : Obj) :
    Speaks rt (some event) [Answers event ["ticker.price"]] (handle rt cache ttl env event req) := by
  refine .ofExcept_bind fun base _ => .ofExcept_bind fun quote _ => .ofExcept_bind fun base _ =>
    .ofExcept_bind fun quote _ => .silent_bind (.silent fun _ => rfl) fun found _ _ => ?_
  cases found with
  | error e => exact (Speaks.pure ()).of_silent
  | ok rate =>
    refine .ofExcept_bind fun payload _ => ?_
    exact (Speaks.emit env.infra _ ⟨⟨"ticker.price", by simp, rfl⟩, rfl⟩).mapError Failure.py

theorem handleEvent_speaks (event : Event) :
    Speaks rt (some event) [Answers event ["ticker.price"]] (handleEvent rt cache ttl env event) := by
  unfold handleEvent
  split
  · exact handle_speaks rt cache ttl env event _
  · exact (Speaks.raise _).of_silent

theorem onMessage_speaks (m : Message) :
    Speaks rt (heard m.data) ((heard m.data).elim [] fun event => [Answers event ["ticker.price"]])
      (onMessage rt cache ttl env m) := by
  refine .ite (Speaks.pure ()).of_silent (.ofExcept_bind fun event hread => ?_)
  have hdecode : BaseAgent.decode m.data = .ok event := by
    cases hd : BaseAgent.decode m.data with
    | error e =>
      rw [hd] at hread
      cases hread
    | ok e =>
      rw [hd] at hread
      cases hread
      rfl
  rw [heard, hdecode]
  unfold dispatch
  split
  · exact .ite ((Speaks.deadLetter env.infra event _).mapError Failure.py).of_silent
      (Speaks.raise _).of_silent
  · exact handleEvent_speaks rt cache ttl env event

end TickerAgent

namespace TickerWebhookAgent

variable (rt : Runtime) (g : WebhookIngestor) (env : Env)

theorem handle_speaks (event : Event) :
    Speaks rt (some event) [Answers event ["ticker.event.received"]] (handle rt g env event) := by
  refine .ofExcept_bind fun tenantId _ => .ofExcept_bind fun platform _ =>
    .ofExcept_bind fun rawPayload _ => ?_
  cases g.ingest env.clock tenantId platform rawPayload with
  | error e =>
    cases e with
    | malformed text => exact (Speaks.pure ()).of_silent
    | raised e => exact (Speaks.raise e).of_silent
  | ok payload => exact Speaks.emit env.infra _ ⟨⟨"ticker.event.received", by simp, rfl⟩, rfl⟩

end TickerWebhookAgent

namespace VaultAgent

variable {σ : Type} (rt : Runtime) (store : CredentialStore σ) (env : Env)

theorem handle_speaks (event : Event) :
    Speaks rt (some event) [Answers event ["vault.secret.granted", "vault.secret.denied"]] (handle rt store env event) := by
  refine .ofExcept_bind fun tenantId _ => .ofExcept_bind fun platform _ => .silent_bind .read fun w _ _ => ?_
  cases Vault.vendToken store tenantId platform env.defaultTtl env.now w.self with
  | ok token => exact Speaks.emit env.infra _ ⟨⟨"vault.secret.granted", by simp, rfl⟩, rfl⟩
  | error e =>
    cases e with
    | unsupportedPlatform text => exact Speaks.emit env.infra _ ⟨⟨"vault.secret.denied", by simp, rfl⟩, rfl⟩
    | credentialNotFound text => exact Speaks.emit env.infra _ ⟨⟨"vault.secret.denied", by simp, rfl⟩, rfl⟩
    | raised e => exact (Speaks.raise e).of_silent

end VaultAgent

namespace BeaconAgent

variable {δ : Type} (cfg : Config δ) (env : Env)

theorem handle_speaks (event : Event) : Speaks cfg.rt (some event) [] (handle cfg env event) := by
  refine .ofExcept_bind fun alert _ => .silent_bind (.silent fun _ => rfl) fun duplicate _ _ => ?_
  exact .ite (.modify fun _ => rfl) (.modify fun _ => rfl)

end BeaconAgent

namespace BeaconReportAgent

variable (cfg : Config) (env : Env)

theorem handle_speaks (event : Event) :
    Speaks cfg.rt (some event) [Answers event ["beacon.report.generated"]] (handle cfg env event) := by
  refine .ite ?_ (Speaks.modify (ε := PyError) fun _ => rfl).of_silent
  refine .silent_bind .read fun w _ _ => .ofExcept_bind fun report _ => ?_
  refine .bind_silent (Speaks.emit env.infra _ ⟨⟨"beacon.report.generated", by simp, rfl⟩, rfl⟩) fun _ => ?_
  exact .modify fun _ => rfl

end BeaconReportAgent

end CaviErp
