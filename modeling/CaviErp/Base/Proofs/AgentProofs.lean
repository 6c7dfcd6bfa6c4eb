import CaviErp.Base.Agent
import CaviErp.Base.Proofs.RegistryProofs
import CaviErp.Lib.Proofs.JsonTextProofs

/-!
# What the runtime does

One lemma for each operation of `BaseAgent` says all it can do; the agents' proofs use these and do not
unfold the operations.
-/

namespace CaviErp

open Py

theorem item_of_get? {o : Obj} {k : String} {v : Json} (h : o.get? k = some v) :
    item (.obj o) k = .ok v := by
  simp [item, h]

namespace World

variable {σ ω : Type}

def recorded (rt : Runtime) (note : ω) (event : Event) (w : World σ ω) : World σ ω :=
  { w with store := w.store.recordEvent rt.sha256 event, trace := w.trace ++ [note] }

def published (channel data : String) (w : World σ ω) : World σ ω :=
  { w with bus := w.bus ++ [(channel, data)] }

def quarantined (envelope : Obj) (w : World σ ω) : World σ ω :=
  { w with store := w.store.recordDeadletter envelope }

end World

namespace BaseAgent

variable {σ ω : Type} (rt : Runtime) (infra : Infra)

/-- The exceptions of the runtime itself: a contract that is not met, the store or the bus. -/
def IsRuntimeError (e : PyError) : Prop :=
  e.isContractFailure = true ∨ (∃ text, e = .storeError text) ∨ ∃ text, e = .busError text

theorem IsRuntimeError.not_invalidTransition {e : PyError} (h : IsRuntimeError e) :
    e.isInvalidTransition = false := by
  rcases h with h | ⟨text, rfl⟩ | ⟨text, rfl⟩
  · cases e <;> simp [PyError.isContractFailure, PyError.isInvalidTransition] at h ⊢
  · rfl
  · rfl

/-- `emit` raises before it changed anything, raises after it recorded the event, or records and
publishes it. -/
theorem emit_cases (note : ω) (event : Event) (w : World σ ω) :
    (∃ e, emit rt infra note event w = (.error e, w) ∧ IsRuntimeError e ∧
      (rt.registry.validate event.subject event.schemaVersion event.payload = .error e ∨
        ∃ text, infra.recordEvent event = some text)) ∨
    (infra.recordEvent event = none ∧
      rt.registry.validate event.subject event.schemaVersion event.payload = .ok () ∧
      ((∃ e, emit rt infra note event w = (.error e, w.recorded rt note event) ∧
          IsRuntimeError e) ∨
        emit rt infra note event w = (.ok (), (w.recorded rt note event).published
          event.subject.pyStr (dumps .default (.obj event.toDict))))) := by
  unfold emit
  cases hv : rt.registry.validate event.subject event.schemaVersion event.payload with
  | error e =>
    exact .inl ⟨e, by simp, .inl (rt.registry.isContractFailure_of_validate hv), .inl rfl⟩
  | ok u =>
    cases hr : infra.recordEvent event with
    | some text =>
      exact .inl ⟨.storeError text, by simp [recordEvent, hr], .inr (.inl ⟨text, rfl⟩),
        .inr ⟨text, rfl⟩⟩
    | none =>
      refine .inr ⟨rfl, rfl, ?_⟩
      cases hp : infra.publish event.subject.pyStr (dumps .default (.obj event.toDict)) with
      | some text =>
        refine .inl ⟨.busError text, ?_, .inr (.inr ⟨text, rfl⟩)⟩
        simp [recordEvent, hr, publish, hp, World.recorded]
      | none =>
        refine .inr ?_
        simp [recordEvent, hr, publish, hp, World.recorded, World.published]

theorem publish_of_emit {note : ω} {event : Event} {w : World σ ω}
    (h : (emit rt infra note event w).1 = .ok ()) :
    infra.publish event.subject.pyStr (dumps .default (.obj event.toDict)) = none := by
  unfold emit at h
  cases hv : rt.registry.validate event.subject event.schemaVersion event.payload with
  | error e => simp [hv] at h
  | ok u =>
    cases hr : infra.recordEvent event with
    | some text => simp [hv, recordEvent, hr] at h
    | none =>
      cases hp : infra.publish event.subject.pyStr (dumps .default (.obj event.toDict)) with
      | some text => simp [hv, recordEvent, hr, publish, hp] at h
      | none => rfl

/-- With a store and a bus that do not fail, an event that meets its contract is emitted. -/
theorem emit_healthy (note : ω) (event : Event) (w : World σ ω)
    (hv : rt.registry.validate event.subject event.schemaVersion event.payload = .ok ()) :
    emit rt .healthy note event w = (.ok (), (w.recorded rt note event).published
      event.subject.pyStr (dumps .default (.obj event.toDict))) := by
  simp [emit, hv, recordEvent, publish, Infra.healthy, World.recorded, World.published]

/-- `_dead_letter` raises before it changed anything, raises after it recorded the envelope, or records
and publishes it. -/
theorem deadLetter_cases (event : Event) (error : String) (w : World σ ω) :
    (∃ e, deadLetter rt infra event error w = (.error e, w) ∧ IsRuntimeError e) ∨
    (∃ e, deadLetter rt infra event error w = (.error e, w.quarantined (envelope event error)) ∧
      IsRuntimeError e) ∨
    deadLetter rt infra event error w = (.ok (), (w.quarantined (envelope event error)).published
      ("deadletter." ++ event.subject.pyStr) (dumps .default (.obj (envelope event error)))) := by
  unfold deadLetter
  cases hr : infra.recordDeadletter (envelope event error) with
  | some text => exact .inl ⟨.storeError text, by simp, .inr (.inl ⟨text, rfl⟩)⟩
  | none =>
    refine .inr ?_
    cases hp : infra.publish ("deadletter." ++ event.subject.pyStr)
        (dumps .default (.obj (envelope event error))) with
    | some text =>
      refine .inl ⟨.busError text, ?_, .inr (.inr ⟨text, rfl⟩)⟩
      simp [publish, hp, World.quarantined]
    | none =>
      refine .inr ?_
      simp [publish, hp, World.quarantined, World.published]

/-! What stays as it was. -/

theorem emit_self (note : ω) (event : Event) (w : World σ ω) :
    (emit rt infra note event w).2.self = w.self := by
  rcases emit_cases rt infra note event w with ⟨e, he, -⟩ | ⟨-, -, ⟨e, he, -⟩ | he⟩
  · rw [he]
  · rw [he]
    rfl
  · rw [he]
    rfl

/-- The trace shows an event that was recorded, whether or not the bus took it. -/
theorem emit_trace (note : ω) (event : Event) (w : World σ ω) :
    (emit rt infra note event w).2.trace = w.trace ∨
      (emit rt infra note event w).2.trace = w.trace ++ [note] := by
  rcases emit_cases rt infra note event w with ⟨e, he, -⟩ | ⟨-, -, ⟨e, he, -⟩ | he⟩
  · exact .inl (by rw [he])
  · exact .inr (by rw [he]; rfl)
  · exact .inr (by rw [he]; rfl)

theorem emit_error {note : ω} {event : Event} {w : World σ ω} {e : PyError}
    (h : (emit rt infra note event w).1 = .error e) : IsRuntimeError e := by
  rcases emit_cases rt infra note event w with ⟨e', he, hrt, -⟩ | ⟨-, -, ⟨e', he, hrt⟩ | he⟩
  · rw [he] at h
    obtain rfl := Except.error.inj h
    exact hrt
  · rw [he] at h
    obtain rfl := Except.error.inj h
    exact hrt
  · rw [he] at h
    cases h

theorem deadLetter_self (event : Event) (error : String) (w : World σ ω) :
    (deadLetter rt infra event error w).2.self = w.self := by
  rcases deadLetter_cases rt infra event error w with ⟨e, he, -⟩ | ⟨e, he, -⟩ | he
  · rw [he]
  · rw [he]
    rfl
  · rw [he]
    rfl

theorem deadLetter_trace (event : Event) (error : String) (w : World σ ω) :
    (deadLetter rt infra event error w).2.trace = w.trace := by
  rcases deadLetter_cases rt infra event error w with ⟨e, he, -⟩ | ⟨e, he, -⟩ | he
  · rw [he]
  · rw [he]
    rfl
  · rw [he]
    rfl

theorem deadLetter_error {event : Event} {error : String} {w : World σ ω} {e : PyError}
    (h : (deadLetter rt infra event error w).1 = .error e) : IsRuntimeError e := by
  rcases deadLetter_cases rt infra event error w with ⟨e', he, hrt⟩ | ⟨e', he, hrt⟩ | he
  · rw [he] at h
    obtain rfl := Except.error.inj h
    exact hrt
  · rw [he] at h
    obtain rfl := Except.error.inj h
    exact hrt
  · rw [he] at h
    cases h

/-- With a store and a bus that do not fail, a dead letter is recorded and published. -/
theorem deadLetter_healthy (event : Event) (error : String) (w : World σ ω) :
    deadLetter rt .healthy event error w =
      (.ok (), (w.quarantined (envelope event error)).published
        ("deadletter." ++ event.subject.pyStr) (dumps .default (.obj (envelope event error)))) := by
  simp [deadLetter, publish, Infra.healthy, World.quarantined, World.published]

theorem dispatch_of_invalid {handle : Event → Action (World σ ω) PyError Unit} {event : Event}
    {e : PyError}
    (h : rt.registry.validate event.subject event.schemaVersion event.payload = .error e)
    (w : World σ ω) :
    dispatch rt infra handle event w = deadLetter rt infra event e.text w := by
  simp [dispatch, h, rt.registry.isContractFailure_of_validate h]

theorem dispatch_of_valid {handle : Event → Action (World σ ω) PyError Unit} {event : Event}
    (h : rt.registry.validate event.subject event.schemaVersion event.payload = .ok ())
    (w : World σ ω) : dispatch rt infra handle event w = handle event w := by
  simp [dispatch, h]

end BaseAgent

/-! ## Messages -/

/-- An event once it was written as JSON and read back. -/
def Event.reread (e : Event) : Event where
  subject := e.subject.reread
  schemaVersion := e.schemaVersion.reread
  source := e.source.reread
  payload := e.payload.reread
  id := e.id.reread
  correlationId := e.correlationId.reread
  tenantId := e.tenantId.reread

namespace BaseAgent

theorem decode_ofDict (o : Obj) : decode (Message.ofDict o).data = Event.fromDict (Json.obj o).reread := by
  unfold decode Message.ofDict
  rw [loads_dumps]

theorem decode_toDict (event : Event) :
    decode (Message.ofDict event.toDict).data = .ok event.reread := by
  rw [decode_ofDict]
  simp [Event.toDict, Json.reread, Json.rereadItems, Obj.set, Event.fromDict, item, getItem?, Obj.get?,
    List.lookup_cons, Event.reread, bind, Except.bind, pure, Except.pure]

/-- The message of a dead letter is read as the event that was quarantined. -/
theorem decode_envelope (event : Event) (error : String) :
    decode (Message.ofDict (envelope event error)).data = .ok event.reread := by
  rw [decode_ofDict]
  simp [envelope, Event.toDict, Json.reread, Json.rereadItems, Obj.set, Event.fromDict, item, getItem?,
    Obj.get?, List.lookup_cons, Event.reread, bind, Except.bind, pure, Except.pure]

variable {σ ω : Type} (rt : Runtime) (infra : Infra)

theorem onMessage_of_decode {handle : Event → Action (World σ ω) PyError Unit} {m : Message}
    {event : Event} (htype : m.type = "message") (h : decode m.data = .ok event) (w : World σ ω) :
    onMessage rt infra handle m w = dispatch rt infra handle event w := by
  simp [onMessage, htype, h]

end BaseAgent

/-! ## Two runs -/

/-- Worlds stay related while store, bus and trace grow alike. -/
structure Indifferent {σ ω : Type} (r : World σ ω → World σ ω → Prop) : Prop where
  recorded : ∀ {w v} (rt : Runtime) (note : ω) (event : Event), r w v →
    r (w.recorded rt note event) (v.recorded rt note event)
  published : ∀ {w v} (channel data : String), r w v →
    r (w.published channel data) (v.published channel data)
  quarantined : ∀ {w v} (envelope : Obj), r w v → r (w.quarantined envelope) (v.quarantined envelope)

/-- The two worlds have the same attributes of the subclass. -/
def SameSelf {σ ω : Type} (w w' : World σ ω) : Prop := w.self = w'.self

theorem sameSelf_indifferent {σ ω : Type} : Indifferent (@SameSelf σ ω) :=
  ⟨fun _ _ _ h => h, fun _ _ h => h, fun _ h => h⟩

namespace BaseAgent

variable {σ ω : Type} {r : World σ ω → World σ ω → Prop} (hr : Indifferent r) (rt : Runtime)
  (infra : Infra)

include hr

theorem publish_respects (channel data : String) : Action.Respects r (publish infra channel data) :=
  .bind (.raiseIf _) fun _ => .modify fun _ _ h => hr.published channel data h

/-- What is emitted does not depend on what store, bus and trace hold. -/
theorem emit_respects (note : ω) (event : Event) : Action.Respects r (emit rt infra note event) := by
  refine .bind (.ofExcept _) fun _ => .bind ?_ fun _ => publish_respects hr infra _ _
  exact .bind (.raiseIf _) fun _ => .modify fun _ _ h => hr.recorded rt note event h

theorem deadLetter_respects (event : Event) (error : String) :
    Action.Respects r (deadLetter rt infra event error) := by
  refine .bind (.attempt (.ofExcept _)) fun _ => .bind (.raiseIf _) fun _ =>
    .bind (.modify ?_) fun _ => publish_respects hr infra _ _
  intro w w' h
  exact hr.quarantined (envelope event error) h

end BaseAgent

end CaviErp
