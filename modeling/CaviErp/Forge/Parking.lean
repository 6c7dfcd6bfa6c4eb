import CaviErp.Forge.Recording

/-!
# What becomes of an approved write

An approval should end in the completion of its write, or in a dead letter that a human sees and can
replay. `Escalates` is what the call must find so that it does; it leaves out the failures that `_execute`
only logs.
-/

namespace CaviErp

open Py

namespace ForgeWriteAgent

/-- Between the two worlds, the completion of the write was recorded and published. -/
def CompletionEmitted (writeId : String) (w w' : World) : Prop :=
  ∃ e : Event, e.subject = "forge.write.completed" ∧
    .emitted writeId e ∈ w'.trace.drop w.trace.length ∧
    ("forge.write.completed", dumps .default (.obj e.toDict)) ∈ w'.bus.drop w.bus.length

/-- Between the two worlds, the event was published as a dead letter, and the store has one for it. -/
def DeadLettered (event : Event) (w w' : World) : Prop :=
  ∃ error, ("deadletter." ++ event.subject.pyStr,
      dumps .default (.obj (BaseAgent.envelope event error))) ∈ w'.bus.drop w.bus.length ∧
    ∃ d ∈ w'.store.deadletters,
      EventStore.deadletterKey d = EventStore.deadletterKey (BaseAgent.envelope event error)

/-- The call left a trace of the write: its completion, or a dead letter of the decision. -/
def Visible (event : Event) (writeId : String) (w w' : World) : Prop :=
  CompletionEmitted writeId w w' ∨ DeadLettered event w w'

/-- Contract, event store and bus accept the event of a step. -/
def Emits (cfg : Config) (env : Env) (event : Event) (step : WriteStep) : Prop :=
  Valid cfg (stepEvent env step event.correlationId) ∧ Stores env event step ∧
    env.infra.publish step.subject
      (dumps .default (.obj (stepEvent env step event.correlationId).toDict)) = none

/-- Store and bus accept the dead letter of the event. -/
def Quarantines (env : Env) (event : Event) (error : String) : Prop :=
  env.infra.recordDeadletter (BaseAgent.envelope event error) = none ∧
    env.infra.publish ("deadletter." ++ event.subject.pyStr)
      (dumps .default (.obj (BaseAgent.envelope event error))) = none

/-- The next failure opens the breaker: it is closed, and one failure short of the threshold or more. -/
def Trips (cfg : Config) (b : CircuitBreaker) : Prop :=
  b.openedAt = none ∧ cfg.breaker.failureThreshold ≤ b.consecutiveFailures + 1

/-- What the execution of an approved write must find: a breaker that refuses, so that the decision is
quarantined; or a writer that returns, so that the completion is emitted; or a writer whose failure is
the one that opens the breaker. -/
structure Settles (cfg : Config) (env : Env) (event : Event) (op : WriteOperation)
    (key : Json × Json) (w : World) : Prop where
  refused : ∀ refusal, ((breakerOf key w).check cfg.breaker env.breakerClock).1 = some refusal →
    Quarantines env event refusal
  failed : ((breakerOf key w).check cfg.breaker env.breakerClock).1 = none →
    ∀ text, env.coordinator.writer op = .error text → Trips cfg (breakerOf key w) ∧
      Quarantines env event ("circuit breaker opened; last error: " ++ text)
  written : ((breakerOf key w).check cfg.breaker env.breakerClock).1 = none →
    ∀ confirmation, env.coordinator.writer op = .ok confirmation →
      Emits cfg env event (completedStep env.coordinator op confirmation)

/-- What the approval of a pending write must find. -/
structure Escalates (cfg : Config) (env : Env) (event : Event) (op : WriteOperation) (w : World) :
    Prop where
  /-- A write that is not yet approved needs a reviewer, and its approval is emitted first. -/
  approval : op.state = .requested → ∃ reviewer, item event.payload "reviewer" = .ok reviewer ∧
    Emits cfg env event (approvedStep env.coordinator op reviewer)
  execution : ∃ key, breakerKey op = .ok key ∧
    Settles cfg env event { op with state := .approved } key w

end ForgeWriteAgent

end CaviErp
