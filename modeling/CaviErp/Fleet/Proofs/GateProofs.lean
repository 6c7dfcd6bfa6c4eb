import CaviErp.Fleet.Proofs.FlowProofs
import CaviErp.Ledger.Proofs.AccountedProofs
import CaviErp.Forge.Proofs.IsolationProofs

/-!
# Who makes the fleet write and post

The write agent calls the ERP writer for approvals only, and no agent but the mapper can send it one. The
ledger posts what comes from outside or from the forge: what the mapper sends has no tenant.
-/

namespace CaviErp

open Py

namespace ForgeWriteAgent

open Fleet (written?)

variable {cfg : Config} {env : Env} {event : Event}

theorem written_emit (step : WriteStep) (correlationId : Json) (w : World) :
    (emit cfg env step correlationId w).2.trace.filterMap written? = w.trace.filterMap written? := by
  rcases BaseAgent.emit_trace cfg.rt env.infra
    (Obs.emitted step.op.writeId (stepEvent env step correlationId))
    (stepEvent env step correlationId) w with h | h
  · exact congrArg (List.filterMap written?) h
  · refine (congrArg (List.filterMap written?) h).trans ?_
    simp [written?]

/-- The ERP writer is called for an approval only. -/
theorem approval_of_written {w : World}
    (h : (handle cfg env event w).2.trace.filterMap written? ≠ w.trace.filterMap written?) :
    ∃ writeId, Approval event writeId := by
  have hcourse := handle_course cfg env event w
  generalize handle cfg env event w = r at hcourse h
  cases hcourse with
  | idle r => exact absurd rfl h
  | quarantined error =>
    exact absurd (congrArg (List.filterMap written?) (BaseAgent.deadLetter_trace ..)) h
  | proposed hop => exact absurd (written_emit _ _ _) h
  | retried happroval hop hstate => exact ⟨_, happroval⟩
  | approved happroval hreviewer hop hstate => exact ⟨_, happroval⟩
  | rejected hrefusal hop hstate => exact absurd (written_emit _ _ _) h

theorem onMessage_grows (cfg : Config) (env : Env) (data : String) (w : World) :
    w.trace <+: (BaseAgent.onMessage cfg.rt env.infra (handle cfg env) { data := data } w).2.trace := by
  rcases onMessage_cases cfg.rt env.infra (handle cfg env) data w with
    ⟨e, -, h⟩ | ⟨event, e, -, -, h⟩ | ⟨event, -, -, h⟩
  · rw [h]
  · rw [h, BaseAgent.deadLetter_trace]
  · rw [h]
    exact handle_grows cfg env event w

/-- A message for which the ERP writer is called is an approval that meets its contract. -/
theorem approves_of_written (cfg : Config) (env : Env) {data : String} {w : World}
    (h : (BaseAgent.onMessage cfg.rt env.infra (handle cfg env) { data := data } w).2.trace.filterMap
      written? ≠ w.trace.filterMap written?) : Fleet.Approves cfg.rt data := by
  rcases onMessage_cases cfg.rt env.infra (handle cfg env) data w with
    ⟨e, -, hmessage⟩ | ⟨event, e, -, -, hmessage⟩ | ⟨event, hdecode, hvalid, hmessage⟩
  · rw [hmessage] at h
    exact absurd rfl h
  · rw [hmessage, BaseAgent.deadLetter_trace] at h
    exact absurd rfl h
  · rw [hmessage] at h
    obtain ⟨writeId, happroval⟩ := approval_of_written h
    exact ⟨event, hdecode, happroval.names.1, happroval.decision, hvalid⟩

end ForgeWriteAgent

namespace LedgerAgent

variable {σ : Type} {rt : Runtime} {store : LedgerStore σ} {env : Env}

/-- Only a message with an entry of a tenant changes the books. -/
theorem tenanted_of_posted (store : LedgerStore σ) (env : Env) {data : String} {w : World σ}
    (h : (BaseAgent.onMessage rt env.infra (handle rt store env) { data := data } w).2.self ≠ w.self) :
    ∃ event, BaseAgent.decode data = .ok event ∧ MeetsContract rt event ∧ event.tenantId.truthy = true := by
  rcases onMessage_cases rt env.infra (handle rt store env) data w with
    ⟨e, -, hmessage⟩ | ⟨event, e, -, -, hmessage⟩ | ⟨event, hdecode, hvalid, hmessage⟩
  · rw [hmessage] at h
    exact absurd rfl h
  · rw [hmessage, BaseAgent.deadLetter_self] at h
    exact absurd rfl h
  · refine ⟨event, hdecode, hvalid, ?_⟩
    by_contra htenant
    rw [hmessage, handle_of_no_tenant rt store env (by simpa using htenant)] at h
    exact h rfl

end LedgerAgent

namespace Fleet

variable {f : Fleet}

/-! ## Writes -/

theorem written_grows (a : AgentName) (env : Env a) (m : String × String) (s : f.network.State a)
    (store : EventStore) : written a s.2 <+: written a (f.network.react a env m s store).state.2 := by
  cases a with
  | forgeWrite =>
    have hgrows := ForgeWriteAgent.onMessage_grows ⟨f.rt, f.breaker⟩ env m.2
      { self := s.1, store := store, trace := s.2 }
    exact hgrows.filterMap written?
  | _ => exact List.prefix_refl _

/-- A reaction in which the ERP writer is called is one of the write agent to an approval. -/
theorem approves_of_writes {x : f.network.Activation} (h : writes x ≠ []) :
    x.who = .forgeWrite ∧ Approves f.rt x.letter.body.2 := by
  obtain ⟨before, who, letter, env⟩ := x
  cases who with
  | forgeWrite =>
    refine ⟨rfl, ForgeWriteAgent.approves_of_written ⟨f.rt, f.breaker⟩ env
      (w := ⟨(before.state .forgeWrite).1, before.shared, [], (before.state .forgeWrite).2⟩) ?_⟩
    intro heq
    have hnews : writes (f := f) ⟨before, .forgeWrite, letter, env⟩ =
        ((BaseAgent.onMessage f.rt env.infra (ForgeWriteAgent.handle ⟨f.rt, f.breaker⟩ env)
          { data := letter.body.2 }
          ⟨(before.state .forgeWrite).1, before.shared, [], (before.state .forgeWrite).2⟩).2.trace.filterMap
            written?).drop (List.filterMap written? (before.state .forgeWrite).2).length := rfl
    rw [hnews, heq] at h
    exact h List.drop_length
  | _ => exact absurd rfl h

section Runs

variable (selves : ∀ a, Self f.backends a) (store : EventStore) (running : AgentName → Bool)

/-- The calls of the ERP writer are those of the write agent's reactions, in order. -/
theorem written_history (steps : List f.network.Step) :
    written .forgeWrite (((f.start selves store running).run steps).state .forgeWrite).2 =
      (((f.start selves store running).history steps).filter fun x => x.who = .forgeWrite).flatMap writes :=
  Bus.Network.Config.observed (fun a (s : f.network.State a) => written a s.2) (fun _ _ => rfl)
    (fun a env m s store => written_grows a env m s store) _ steps .forgeWrite

/-- In every run each call of the ERP writer is one of the write agent for a decision to approve, which
comes from outside or from the mapper. -/
theorem writes_are_decided (steps : List f.network.Step) :
    written .forgeWrite (((f.start selves store running).run steps).state .forgeWrite).2 =
        (((f.start selves store running).history steps).filter fun x => x.who = .forgeWrite).flatMap writes ∧
      ∀ x ∈ (f.start selves store running).history steps, writes x ≠ [] →
        x.who = .forgeWrite ∧ (x.letter.origin = none ∨ x.letter.origin = some .mapper) ∧
          Approves f.rt x.letter.body.2 := by
  refine ⟨written_history selves store running steps, ?_⟩
  intro x hx hwrites
  obtain ⟨hwho, happroves⟩ := approves_of_writes hwrites
  refine ⟨hwho, ?_, happroves⟩
  rcases sender_of_worked hx (by rw [hwho]; decide) with h | h | ⟨-, h⟩
  · exact .inl h
  · exact .inr h
  · rw [hwho] at h
    cases h

/-- With the repository's schemas, no run of the fleet ever calls the ERP writer. -/
theorem never_written (dir : String) (complaint : Schema → Json → String)
    (steps : List (f.overRepository dir complaint).network.Step) :
    written .forgeWrite
      ((((f.overRepository dir complaint).start selves store running).run steps).state .forgeWrite).2 = [] := by
  rw [written_history (f := f.overRepository dir complaint) selves store running steps,
    List.flatMap_eq_nil_iff]
  intro x hx
  by_contra hwrites
  obtain ⟨-, event, -, hsubject, -, hcontract⟩ := approves_of_writes hwrites
  refine subject_ne_of_contract hcontract (s := "forge.write.decision") (by decide) ?_
  rw [hsubject]
  rfl

end Runs

/-! ## Books -/

/-- What the mapper sends has no tenant. -/
theorem untenanted_of_mapper {env : Env .mapper} {m : String × String} {s : f.network.State .mapper}
    {store : EventStore} {post : String × String}
    (hsent : post ∈ (f.network.react .mapper env m s store).sent) (hworked : post.1 ∈ workingSubjects) :
    ∃ event, BaseAgent.decode post.2 = .ok event ∧ event.tenantId = .null := by
  rcases sent_cases hsent with ⟨event, -, ⟨cause, -, kind, hkind, hevent⟩, rfl⟩ | ⟨event, error, -, rfl⟩
  · obtain rfl := List.mem_singleton.mp hkind
    refine ⟨event.reread, BaseAgent.decode_toDict event, ?_⟩
    rw [Event.reread, hevent.1]
    rfl
  · exact absurd hworked (deadletter_not_worked _)

theorem tenanted_of_books {x : f.network.Activation}
    (h : booksOf f.backends x.who x.reaction.state.1 ≠ booksOf f.backends x.who (x.before.state x.who).1) :
    x.who = .ledger ∧ ∃ event, BaseAgent.decode x.letter.body.2 = .ok event ∧ MeetsContract f.rt event ∧
      event.tenantId.truthy = true := by
  obtain ⟨before, who, letter, env⟩ := x
  cases who with
  | ledger =>
    refine ⟨rfl, LedgerAgent.tenanted_of_posted f.backends.ledger env
      (w := ⟨(before.state .ledger).1, before.shared, [], (before.state .ledger).2⟩) ?_⟩
    intro heq
    exact h (congrArg some heq)
  | _ => exact absurd rfl h

open Bus.Network.Config in
/-- In every run the books change only for an event of a tenant, from outside or from the forge, and so
never for what the mapper has coerced. -/
theorem books_change_for_tenants (selves : ∀ a, Self f.backends a) (store : EventStore)
    (running : AgentName → Bool) (steps : List f.network.Step) :
    ∀ x ∈ (f.start selves store running).history steps,
      booksOf f.backends x.who x.reaction.state.1 ≠ booksOf f.backends x.who (x.before.state x.who).1 →
        x.who = .ledger ∧ (x.letter.origin = none ∨ x.letter.origin = some .forge) ∧
          ∃ event, BaseAgent.decode x.letter.body.2 = .ok event ∧ MeetsContract f.rt event ∧
            event.tenantId.truthy = true := by
  intro x hx hbooks
  obtain ⟨hwho, event, hdecode, hcontract, htenant⟩ := tenanted_of_books hbooks
  refine ⟨hwho, ?_, event, hdecode, hcontract, htenant⟩
  have hworker : ¬ isWatcher x.who = true := by
    rw [hwho]
    decide
  rcases sender_of_worked hx hworker with h | h | ⟨h, -⟩
  · exact .inl h
  · obtain ⟨hhears, hgenuine⟩ :=
      letter_of_history (start_posted selves store running) (start_genuine selves store running) hx
    obtain ⟨env, m, s, store, hsent⟩ := hgenuine .mapper h
    have hworked := mem_workingSubjects hworker (List.contains_iff_mem.mp hhears)
    obtain ⟨event', hdecode', hnull⟩ := untenanted_of_mapper hsent hworked
    obtain rfl : event = event' := Except.ok.inj (hdecode.symm.trans hdecode')
    rw [hnull] at htenant
    cases htenant
  · exact .inr h

/-! ## A sale -/

/-- The ledger handles an event that meets its contract. -/
theorem ledger_handles {env : LedgerAgent.Env} {m : String × String} {event : Event}
    (hdecode : BaseAgent.decode m.2 = .ok event) (hvalid : MeetsContract f.rt event)
    (c : f.network.Config) (origin : Option AgentName) :
    let reaction := (Bus.Network.Activation.mk (N := f.network) c .ledger ⟨origin, m⟩ env).reaction
    let w := (LedgerAgent.handle f.rt f.backends.ledger env event
      { self := (c.state .ledger).1, store := c.shared, trace := (c.state .ledger).2 }).2
    reaction.state.1 = w.self ∧ reaction.sent = w.bus := by
  have hmessage : ∀ w, BaseAgent.onMessage f.rt env.infra (LedgerAgent.handle f.rt f.backends.ledger env)
      { data := m.2 } w = LedgerAgent.handle f.rt f.backends.ledger env event w := by
    intro w
    rw [BaseAgent.onMessage_of_decode f.rt env.infra rfl hdecode,
      BaseAgent.dispatch_of_valid f.rt env.infra hvalid]
  replace hmessage := hmessage
    { self := (c.state .ledger).1, store := c.shared, trace := (c.state .ledger).2 }
  exact ⟨congrArg (fun r => r.2.self) hmessage, congrArg (fun r => r.2.bus) hmessage⟩

theorem decode_postOf (event : Event) : BaseAgent.decode (postOf event).2 = .ok event.reread :=
  BaseAgent.decode_toDict event

theorem decode_sale : BaseAgent.decode (postOf (saleEvent "acme")).2 = .ok (saleEvent "acme") := by
  have hreread : (saleEvent "acme").reread = saleEvent "acme" := rfl
  exact (decode_postOf _).trans (congrArg Except.ok hreread)

theorem sale_contracted : MeetsContract localFleet.rt (saleEvent "acme") := rfl

def saleEnv : LedgerAgent.Env := { uuid := "00000000-0000-0000-0000-000000000002" }

/-- A sale has come from outside. -/
def saleArrived : localFleet.network.Config :=
  (localFleet.start newborn {} fun _ => true).step (.inject (postOf (saleEvent "acme")))

/-- The ledger is about to read it. -/
abbrev saleRead : localFleet.network.Activation :=
  Bus.Network.Activation.mk saleArrived .ledger ⟨none, postOf (saleEvent "acme")⟩ saleEnv

def saleRun : List localFleet.network.Step := [.inject (postOf (saleEvent "acme")), .deliver .ledger 0 saleEnv]

theorem saleRead_mem : saleRead ∈ (localFleet.start newborn {} fun _ => true).history saleRun :=
  List.mem_singleton_self _

theorem sale_books : booksOf localFleet.backends .ledger saleRead.reaction.state.1 ≠
    booksOf localFleet.backends .ledger (saleArrived.state .ledger).1 := by
  rw [(ledger_handles decode_sale sale_contracted saleArrived none).1]
  intro h
  have hlength := congrArg (fun o : Option InMemoryLedgerStore => o.map fun s => s.entries.length) h
  revert hlength
  decide +kernel

theorem books_change_for_tenants_sale :
    saleRead.who = .ledger ∧ (saleRead.letter.origin = none ∨ saleRead.letter.origin = some .forge) ∧
      ∃ event, BaseAgent.decode saleRead.letter.body.2 = .ok event ∧
        MeetsContract localFleet.rt event ∧ event.tenantId.truthy = true :=
  books_change_for_tenants newborn {} (fun _ => true) saleRun saleRead saleRead_mem sale_books

end Fleet

end CaviErp
