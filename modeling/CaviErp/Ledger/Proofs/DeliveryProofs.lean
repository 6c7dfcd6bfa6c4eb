import CaviErp.Ledger.Proofs.AgentProofs

/-!
# Runs of the ledger agent

What one delivery can do to the ledger store and to the event store, whatever fails meanwhile, and what
therefore holds in every state that deliveries lead to.
-/

namespace CaviErp

open Py FirstWriter

namespace LedgerAgent

/-- How the event store changes with the outcome of a post. -/
inductive Notified (rt : Runtime) (env : Env) (event : Event) (entry : JournalEntry) :
    Except PyError PostResult → EventStore → EventStore → Prop
  /-- Nothing to say, or the rejection could not be recorded. -/
  | silent {r : Except PyError PostResult} {s : EventStore} (h : statusOf r ≠ some .posted) :
    Notified rt env event entry r s s
  /-- The post went through, but its event was not recorded. -/
  | unrecorded {result : PostResult} {s : EventStore} (hstatus : result.status = .posted)
    (h : (∃ e, rt.registry.validate (posted env event result).subject
        (posted env event result).schemaVersion (posted env event result).payload = .error e) ∨
      ∃ text, env.infra.recordEvent (posted env event result) = some text) :
    Notified rt env event entry (.ok result) s s
  | rejected {reason : String} {s : EventStore} :
    Notified rt env event entry (.error (.unbalancedEntry reason)) s
      (s.recordEvent rt.sha256 (rejected env event entry reason))
  | posted {result : PostResult} {s : EventStore} (hstatus : result.status = .posted) :
    Notified rt env event entry (.ok result) s (s.recordEvent rt.sha256 (posted env event result))

variable {σ : Type} (rt : Runtime) (store : LedgerStore σ)

theorem emit_frame (env : Env) (ev : Event) (w : World σ) :
    (emit rt env ev w).2.self = w.self ∧
      (((emit rt env ev w).2.store = w.store ∧
          ((∃ e, rt.registry.validate ev.subject ev.schemaVersion ev.payload = .error e) ∨
            ∃ text, env.infra.recordEvent ev = some text)) ∨
        (emit rt env ev w).2.store = w.store.recordEvent rt.sha256 ev) := by
  unfold emit
  rcases BaseAgent.emit_cases rt env.infra ev ev w with
    ⟨e, he, -, hwhy⟩ | ⟨-, -, ⟨e, he, -⟩ | he⟩
  · rw [he]
    refine ⟨rfl, .inl ⟨rfl, ?_⟩⟩
    rcases hwhy with hv | hr
    · exact .inl ⟨e, hv⟩
    · exact .inr hr
  · rw [he]
    exact ⟨rfl, .inr rfl⟩
  · rw [he]
    exact ⟨rfl, .inr rfl⟩

/-- An event whose payload decodes is a post, and the outcome of the post decides what is recorded. -/
theorem handle_notified {env : Env} {event : Event} {tenantId : String} {entry : JournalEntry}
    (ht : event.tenantId = .str tenantId)
    (he : JournalEntry.fromPayload event.payload tenantId = .ok entry) (w : World σ) :
    (handle rt store env event w).2.self = (Ledger.post store entry w.self).2 ∧
      Notified rt env event entry (Ledger.post store entry w.self).1 w.store
        (handle rt store env event w).2.store := by
  rw [handle_of_entry rt store env ht he]
  cases (Ledger.post store entry w.self).1 with
  | error e =>
    by_cases hub : ∃ reason, e = .unbalancedEntry reason
    · obtain ⟨reason, rfl⟩ := hub
      obtain ⟨h1, h2⟩ := emit_frame rt env (rejected env event entry reason)
        { w with self := (Ledger.post store entry w.self).2 }
      refine ⟨h1, ?_⟩
      show Notified _ _ _ _ _ _ (emit rt env (rejected env event entry reason) _).2.store
      rcases h2 with ⟨h2, -⟩ | h2
      · rw [h2]
        exact .silent (by simp [statusOf])
      · rw [h2]
        exact .rejected
    · cases e with
      | unbalancedEntry reason => exact absurd ⟨reason, rfl⟩ hub
      | _ => exact ⟨rfl, .silent (by simp [statusOf])⟩
  | ok result =>
    cases hstatus : result.status with
    | duplicate =>
      simp only [hstatus]
      exact ⟨rfl, .silent (by simp [statusOf, hstatus])⟩
    | posted =>
      simp only [hstatus]
      obtain ⟨h1, h2⟩ := emit_frame rt env (posted env event result)
        { w with self := (Ledger.post store entry w.self).2 }
      refine ⟨h1, ?_⟩
      rcases h2 with ⟨h2, hwhy⟩ | h2
      · rw [h2]
        exact .unrecorded hstatus hwhy
      · rw [h2]
        exact .posted hstatus

theorem dispatch_cases (env : Env) (event : Event) (w : World σ) :
    let w' := (dispatch rt store env event w).2
    (w'.self = w.self ∧ w'.store = w.store) ∨
    (∃ e, rt.registry.validate event.subject event.schemaVersion event.payload = .error e ∧
      w'.self = w.self ∧
      w'.store = w.store.recordDeadletter (BaseAgent.envelope event e.text)) ∨
    (∃ tenantId entry, event.tenantId = .str tenantId ∧
      rt.registry.validate event.subject event.schemaVersion event.payload = .ok () ∧
      JournalEntry.fromPayload event.payload tenantId = .ok entry ∧
      w'.self = (Ledger.post store entry w.self).2 ∧
      Notified rt env event entry (Ledger.post store entry w.self).1 w.store w'.store) := by
  intro w'
  have hw' : w' = (BaseAgent.dispatch rt env.infra (handle rt store env) event w).2 := rfl
  cases hv : rt.registry.validate event.subject event.schemaVersion event.payload with
  | error e =>
    rw [BaseAgent.dispatch_of_invalid rt env.infra hv] at hw'
    rcases BaseAgent.deadLetter_cases rt env.infra event e.text w with
      ⟨err, he, -⟩ | ⟨err, he, -⟩ | he
    · exact .inl (by rw [hw', he]; exact ⟨rfl, rfl⟩)
    · exact .inr (.inl ⟨e, rfl, by rw [hw', he]; exact ⟨rfl, rfl⟩⟩)
    · exact .inr (.inl ⟨e, rfl, by rw [hw', he]; exact ⟨rfl, rfl⟩⟩)
  | ok u =>
    rw [BaseAgent.dispatch_of_valid rt env.infra hv] at hw'
    by_cases htruthy : event.tenantId.truthy = true
    · cases hstr : asStr event.tenantId with
      | error e =>
        refine .inl ?_
        have hh : handle rt store env event w = (.error e, w) := by
          simp [handle, htruthy, hstr]
        rw [hw', hh]
        exact ⟨rfl, rfl⟩
      | ok tenantId =>
        have ht : event.tenantId = .str tenantId := by
          cases hj : event.tenantId with
          | str s => rw [hj] at hstr; simpa [asStr] using hstr
          | _ => rw [hj] at hstr; simp [asStr] at hstr
        cases he : JournalEntry.fromPayload event.payload tenantId with
        | error e =>
          refine .inl ?_
          have hh : handle rt store env event w = (.error e, w) := by
            simp [handle, htruthy, hstr, he]
          rw [hw', hh]
          exact ⟨rfl, rfl⟩
        | ok entry =>
          obtain ⟨hself, hnotified⟩ := handle_notified rt store ht he w
          rw [← hw'] at hself hnotified
          exact .inr (.inr ⟨tenantId, entry, ht, rfl, he, hself, hnotified⟩)
    · refine .inl ?_
      have hfalse : event.tenantId.truthy = false := by simpa using htruthy
      rw [hw', handle_of_no_tenant rt store env hfalse]
      exact ⟨rfl, rfl⟩

/-! ## Reachable states -/

section Reached

variable {store} {κ : Type} [DecidableEq κ] {s₀ : σ} {guard : Guard JournalEntry κ}
  (b : Books store s₀ guard)

/-- What holds in every state: the ledger store keeps the books of a history of posts, and only events
that failed their contract are dead letters. -/
structure Reached (w : World σ) (h : List JournalEntry) : Prop where
  keeps : b.Keeps w.self h
  deadletters : ∀ d ∈ w.store.deadletters, ∃ event error, d = BaseAgent.envelope event error ∧
    rt.registry.validate event.subject event.schemaVersion event.payload ≠ .ok ()

theorem mem_recordDeadletter {s : EventStore} {d envelope : Obj}
    (h : d ∈ (s.recordDeadletter envelope).deadletters) : d ∈ s.deadletters ∨ d = envelope := by
  unfold EventStore.recordDeadletter at h
  split at h
  · exact .inl h
  · simpa using h

@[simp] theorem recordEvent_deadletters (sha256 : String → String) (s : EventStore) (ev : Event) :
    (s.recordEvent sha256 ev).deadletters = s.deadletters := by
  unfold EventStore.recordEvent
  split <;> rfl

theorem Notified.deadletters_eq {env : Env} {event : Event} {entry : JournalEntry}
    {r : Except PyError PostResult} {s s' : EventStore} (h : Notified rt env event entry r s s') :
    s'.deadletters = s.deadletters := by
  cases h <;> simp

theorem Reached.step {w : World σ} {h : List JournalEntry} (hw : Reached rt b w h) (env : Env)
    (event : Event) : ∃ h', Reached rt b (dispatch rt store env event w).2 h' := by
  rcases dispatch_cases rt store env event w with
    ⟨hself, hstore⟩ | ⟨e, hv, hself, hstore⟩ | ⟨tenantId, entry, ht, hv, he, hself, hnote⟩
  · exact ⟨h, by rw [hself]; exact hw.keeps, by rw [hstore]; exact hw.deadletters⟩
  · refine ⟨h, by rw [hself]; exact hw.keeps, ?_⟩
    intro d hd
    rw [hstore] at hd
    rcases mem_recordDeadletter hd with hd | rfl
    · exact hw.deadletters d hd
    · exact ⟨event, e.text, rfl, by simp [hv]⟩
  · refine ⟨h ++ [entry], by rw [hself]; exact b.post_snd hw.keeps entry, ?_⟩
    rw [hnote.deadletters_eq]
    exact hw.deadletters

theorem reached_deliver (ds : List Delivery) :
    ∃ h, Reached rt b (deliver rt store ds { self := s₀ }) h := by
  refine Action.serve_induct (I := fun w => ∃ h, Reached rt b w h) ?_ ds _
    ⟨[], b.init, by simp⟩
  rintro d w ⟨h, hw⟩
  exact hw.step rt b d.env d.event

end Reached

end LedgerAgent

end CaviErp
