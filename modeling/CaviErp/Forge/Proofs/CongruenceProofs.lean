import CaviErp.Forge.Proofs.WriteAgentProofs

/-!
# Two agents that a call cannot tell apart

A call of `handle` looks up the write that its event names and the breaker of that write, and nothing
else. Two worlds that agree there give it one outcome, and it changes both alike.
-/

namespace CaviErp

open Py

namespace ForgeWriteAgent

/-- A relation between worlds that agree about the writes with a `known` id and about the breakers of
`own` tenants, and that the operations of the agent keep. -/
structure Congruence (r : World → World → Prop) (own : Json → Prop) (known : String → Prop) : Prop where
  indifferent : Indifferent r
  pending : ∀ {w v writeId}, r w v → known writeId → w.self.pending writeId = v.self.pending writeId
  completed : ∀ {w v writeId}, r w v → known writeId →
    w.self.completed writeId = v.self.completed writeId
  /-- The writes with a known id are those of own tenants. -/
  owned : ∀ {w v writeId op}, r w v → known writeId →
    w.self.pending writeId = some op ∨ w.self.completed writeId = some op → own op.tenantId
  breakers : ∀ {w v op key}, r w v → own op.tenantId → breakerKey op = .ok key →
    w.self.breakers key = v.self.breakers key
  pended : ∀ {w v op} (writeId : String), own op.tenantId → r w v →
    r (pended writeId op w) (pended writeId op v)
  unpended : ∀ {w v} (writeId : String), r w v → r (unpended writeId w) (unpended writeId v)
  finished : ∀ {w v op} (writeId : String), own op.tenantId → r w v →
    r { w with self.completed := Function.update w.self.completed writeId (some op) }
      { v with self.completed := Function.update v.self.completed writeId (some op) }
  withBreaker : ∀ {w v} (key : Json × Json) (b : CircuitBreaker), r w v →
    r (withBreaker key b w) (withBreaker key b v)
  applied : ∀ {w v} (env : Env) (op : WriteOperation), r w v →
    r (appliedWorld env op w) (appliedWorld env op v)

/-! ## The steps of the coordinator keep the tenant -/

theorem transitionTo_tenant {op op' : WriteOperation} {state : WriteState}
    (h : op.transitionTo state = .ok op') : op'.tenantId = op.tenantId := by
  unfold WriteOperation.transitionTo at h
  split at h
  · obtain rfl := Except.ok.inj h
    rfl
  · cases h

section Coordinator

variable {c : WriteCoordinator} {op : WriteOperation} {step : WriteStep}

theorem approve_tenant {reviewer : Json} (h : c.approve op reviewer = .ok step) :
    step.op.tenantId = op.tenantId := by
  obtain ⟨approved, happroved, h⟩ := bind_eq_ok h
  obtain rfl := Except.ok.inj h
  exact transitionTo_tenant happroved

theorem complete_tenant {confirmation : Obj} (h : c.complete op confirmation = .ok step) :
    step.op.tenantId = op.tenantId := by
  obtain ⟨completed, hcompleted, h⟩ := bind_eq_ok h
  obtain rfl := Except.ok.inj h
  exact transitionTo_tenant hcompleted

theorem requestReversal_tenant {operation payload requestedBy diffPreview target : Json}
    (h : c.requestReversal op operation payload requestedBy diffPreview target = .ok step) :
    step.op.tenantId = op.tenantId := by
  unfold WriteCoordinator.requestReversal at h
  split at h
  · cases h
  · exact (request_carries h).2.1

end Coordinator

theorem executeWrite_tenant {env : Env} {op : WriteOperation} {w : World} {step : WriteStep}
    (h : (executeWrite env op w).1 = .ok step) : step.op.tenantId = op.tenantId := by
  unfold executeWrite at h
  split at h
  · cases h
  · cases hw : env.coordinator.writer op with
    | error text =>
      rw [hw] at h
      cases h
    | ok confirmation =>
      rw [hw] at h
      exact complete_tenant h

theorem lookup_congr {d d' : String → Option WriteOperation} {key : Json}
    (h : ∀ s, key = .str s → d s = d' s) : lookup d key = lookup d' key := by
  cases key with
  | str s => exact congrArg Except.ok (h s rfl)
  | _ => rfl

/-! ## The handlers -/

namespace Congruence

variable {r : World → World → Prop} {own : Json → Prop} {known : String → Prop}
  (hr : Congruence r own known) (cfg : Config) (env : Env) (event : Event)

include hr

theorem emit_respects (step : WriteStep) (correlationId : Json) :
    Action.Respects r (emit cfg env step correlationId) :=
  BaseAgent.emit_respects hr.indifferent cfg.rt env.infra _ _

theorem deadLetter_respects (error : String) : Action.Respects r (deadLetter cfg env event error) :=
  BaseAgent.deadLetter_respects hr.indifferent cfg.rt env.infra event error

theorem putPending_respects (writeId : String) {op : WriteOperation} (hown : own op.tenantId) :
    Action.Respects r (putPending writeId op) :=
  .modify fun _ _ h => hr.pended writeId hown h

theorem putBreaker_respects (key : Json × Json) (b : CircuitBreaker) :
    Action.Respects r (putBreaker key b) :=
  .modify fun _ _ h => hr.withBreaker key b h

theorem executeWrite_respects (op : WriteOperation) : Action.Respects r (executeWrite env op) := by
  unfold executeWrite
  split
  · exact .raise _
  · refine .bind (.modify fun _ _ h => hr.applied env op h) fun _ => ?_
    split
    · exact .raise _
    · exact .ofExcept _

theorem onWriteFailed_respects (key : Json × Json) (b : CircuitBreaker) (text : String) :
    Action.Respects r (onWriteFailed cfg env key b event text) := by
  refine .bind (hr.putBreaker_respects _ _) fun _ => ?_
  split
  · exact hr.deadLetter_respects cfg env event _
  · exact .pure _

theorem onWritten_respects (key : Json × Json) (b : CircuitBreaker) (op : WriteOperation)
    {completed : WriteStep} (hown : own completed.op.tenantId) (correlationId : Json) :
    Action.Respects r (onWritten cfg env key b op completed correlationId) :=
  .bind (hr.putBreaker_respects _ _) fun _ => .bind (.modify fun _ _ h => hr.unpended _ h) fun _ =>
    .bind (.modify fun _ _ h => hr.finished _ hown h) fun _ =>
      hr.emit_respects cfg env completed correlationId

theorem execute_respects {op : WriteOperation} (hown : own op.tenantId) (correlationId : Json) :
    Action.Respects r (execute cfg env op event correlationId) := by
  unfold execute
  refine .ofExcept_bind fun key hkey => .read_bind fun w w' h => ?_
  have hbreaker := hr.breakers h hown hkey
  refine ⟨by rw [hbreaker], ?_⟩
  refine .bind (hr.putBreaker_respects _ _) fun _ => ?_
  split
  · exact hr.deadLetter_respects cfg env event _
  · refine .bind_ok (.attempt (hr.executeWrite_respects env op)) fun outcome u houtcome => ?_
    split
    · split
      · exact hr.onWriteFailed_respects cfg env event key _ _
      · exact .raise _
    · rename_i completed
      have hcompleted : (executeWrite env op u).1 = .ok completed := Except.ok.inj houtcome
      refine hr.onWritten_respects cfg env key _ op ?_ correlationId
      rw [executeWrite_tenant hcompleted]
      exact hown

theorem record_respects {outcome : Except PyError WriteStep}
    (hown : ∀ step, outcome = .ok step → own step.op.tenantId) :
    Action.Respects r (record cfg env event outcome) := by
  unfold record
  split
  · split
    · exact hr.deadLetter_respects cfg env event _
    · exact .raise _
  · rename_i step
    exact .bind (hr.putPending_respects _ (hown step rfl)) fun _ => hr.emit_respects cfg env _ _

theorem propose_respects (hown : ∀ tenantId, item event.payload "tenant_id" = .ok tenantId →
    own tenantId) : Action.Respects r (propose cfg env event) := by
  refine hr.record_respects cfg env event ?_
  intro step hstep
  obtain ⟨request, hrequest, hstep⟩ := bind_eq_ok hstep
  rw [(request_carries hstep).2.1]
  exact hown _ (WriteRequest.ofKwargs_items hrequest).1

theorem reverse_respects (hknown : ∀ writeId, item event.payload "write_id" = .ok (.str writeId) →
    known writeId) : Action.Respects r (reverse cfg env event) := by
  refine .ofExcept_bind fun writeId hwriteId => .read_bind fun w w' h => ?_
  have hsame : lookup w.self.completed writeId = lookup w'.self.completed writeId := by
    refine lookup_congr ?_
    rintro s rfl
    exact hr.completed h (hknown s hwriteId)
  refine ⟨by rw [hsame], ?_⟩
  refine .ofExcept_bind fun found hfound => ?_
  split
  · exact hr.deadLetter_respects cfg env event _
  · rename_i original
    refine hr.record_respects cfg env event ?_
    intro step hstep
    obtain ⟨operation, -, hstep⟩ := bind_eq_ok hstep
    obtain ⟨payload, -, hstep⟩ := bind_eq_ok hstep
    obtain ⟨requestedBy, -, hstep⟩ := bind_eq_ok hstep
    obtain ⟨diffPreview, -, hstep⟩ := bind_eq_ok hstep
    rw [requestReversal_tenant hstep]
    rw [← hsame] at hfound
    obtain ⟨hkey, horiginal⟩ := lookup_eq_ok hfound
    rw [hkey] at hwriteId
    exact hr.owned h (hknown _ hwriteId) (.inr horiginal)

theorem decideOn_respects (writeId : String) {op : WriteOperation} (hown : own op.tenantId) :
    Action.Respects r (decideOn cfg env event writeId op) := by
  refine .bind (.ofExcept _) fun decision => ?_
  split
  · split
    · exact hr.execute_respects cfg env event hown _
    · refine .bind (.ofExcept _) fun reviewer => .ofExcept_bind fun approved happroved => ?_
      have happrovedOwn : own approved.op.tenantId := by
        rw [approve_tenant happroved]
        exact hown
      exact .bind (hr.putPending_respects _ happrovedOwn) fun _ =>
        .bind (hr.emit_respects cfg env _ _) fun _ => hr.execute_respects cfg env event happrovedOwn _
  · exact .bind (.ofExcept _) fun _ => .bind (.ofExcept _) fun _ => .bind (.ofExcept _) fun _ =>
      .bind (.modify fun _ _ h => hr.unpended _ h) fun _ => hr.emit_respects cfg env _ _

theorem decide_respects (hknown : ∀ writeId, item event.payload "write_id" = .ok (.str writeId) →
    known writeId) : Action.Respects r (decide cfg env event) := by
  refine .ofExcept_bind fun writeId hwriteId => .read_bind fun w w' h => ?_
  have hsame : lookup w.self.pending writeId = lookup w'.self.pending writeId := by
    refine lookup_congr ?_
    rintro s rfl
    exact hr.pending h (hknown s hwriteId)
  refine ⟨by rw [hsame], ?_⟩
  refine .ofExcept_bind fun found hfound => ?_
  split
  · exact .pure _
  · rename_i op
    rw [← hsame] at hfound
    obtain ⟨hkey, hop⟩ := lookup_eq_ok hfound
    rw [hkey] at hwriteId
    have hown := hr.owned h (hknown _ hwriteId) (.inl hop)
    refine .bind (.attempt (hr.decideOn_respects cfg env event _ hown)) fun outcome => ?_
    unfold onDecided
    split
    · exact .pure _
    · split
      · exact hr.deadLetter_respects cfg env event _
      · exact .raise _

/-- A proposal of an own tenant, and a decision or a reversal that names a known id, cannot tell related
worlds apart. -/
theorem handle_respects
    (hown : event.subject = "forge.write.propose" → ∀ tenantId,
      item event.payload "tenant_id" = .ok tenantId → own tenantId)
    (hknown : event.subject = "forge.write.decision" ∨ event.subject = "forge.write.reverse" →
      ∀ writeId, item event.payload "write_id" = .ok (.str writeId) → known writeId) :
    Action.Respects r (handle cfg env event) := by
  unfold handle
  split
  · rename_i hsub
    exact hr.propose_respects cfg env event (hown hsub)
  · split
    · rename_i hsub
      exact hr.decide_respects cfg env event (hknown (.inl hsub))
    · split
      · rename_i hsub
        exact hr.reverse_respects cfg env event (hknown (.inr hsub))
      · exact .pure _

end Congruence

/-! ## The same attributes -/

theorem SameSelf.map {w v : World} (h : SameSelf w v) (f : ForgeWriteAgent → ForgeWriteAgent) :
    SameSelf { w with self := f w.self } { v with self := f v.self } := congrArg f h

/-- What a call does with the attributes does not depend on store, bus and trace. -/
theorem sameSelf_congruence : Congruence SameSelf (fun _ => True) (fun _ => True) where
  indifferent := sameSelf_indifferent
  pending h _ := congrFun (congrArg ForgeWriteAgent.pending h) _
  completed h _ := congrFun (congrArg ForgeWriteAgent.completed h) _
  owned _ _ _ := trivial
  breakers h _ _ := congrFun (congrArg ForgeWriteAgent.breakers h) _
  pended {_ _ op} writeId _ h :=
    SameSelf.map h fun s => { s with pending := Function.update s.pending writeId (some op) }
  unpended writeId h :=
    SameSelf.map h fun s => { s with pending := Function.update s.pending writeId none }
  finished {_ _ op} writeId _ h :=
    SameSelf.map h fun s => { s with completed := Function.update s.completed writeId (some op) }
  withBreaker key b h :=
    SameSelf.map h fun s => { s with breakers := Function.update s.breakers key (some b) }
  applied _ _ h := h

end ForgeWriteAgent

end CaviErp
