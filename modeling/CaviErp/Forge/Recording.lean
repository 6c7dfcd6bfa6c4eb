import CaviErp.Forge.Course

/-!
# State and event log of the write agent

The agent changes its dictionaries first and announces the change afterwards, and it outlives a call that
raises in between. `LogAgrees` says that state and log still agree; `Recordable` is what a call must
find so that they do.
-/

namespace CaviErp

open Py

namespace ForgeWriteAgent

/-- The agent after calls of `handle`, where the next call is made whether or not one raised. -/
def served (cfg : Config) (calls : List (Env × Event)) : World :=
  Action.serve (fun call => handle cfg call.1 call.2) { self := {} } calls

/-- Each of the calls finds a world that meets the condition. -/
def EachFinds (cfg : Config) (condition : Env × Event → World → Prop) (calls : List (Env × Event)) :
    Prop :=
  Action.Along (fun call => handle cfg call.1 call.2) condition { self := {} } calls

/-- An event of the given stage is recorded for the write. -/
def Recorded (cfg : Config) (calls : List (Env × Event)) (stage : Step) (writeId : String) : Prop :=
  stage ∈ stepsOf writeId (served cfg calls).trace

/-- The write was pending after one of the calls, or is. -/
def Proposed (cfg : Config) (calls : List (Env × Event)) (writeId : String) : Prop :=
  ∃ before, before <+: calls ∧ (served cfg before).self.pending writeId ≠ none

/-- After the calls, what is pending and what is not is what the log says. -/
structure LogAgrees (cfg : Config) (calls : List (Env × Event)) : Prop where
  approved : ∀ writeId op, (served cfg calls).self.pending writeId = some op →
    op.state = .approved → Recorded cfg calls .approved writeId
  absent : ∀ writeId, Proposed cfg calls writeId → (served cfg calls).self.pending writeId = none →
    Recorded cfg calls .rejected writeId ∨ Recorded cfg calls .completed writeId
  requested : ∀ writeId, (served cfg calls).self.pending writeId ≠ none →
    Recorded cfg calls .requested writeId

/-- The fields that `approved` and `completed` share pass their contracts. -/
structure Named (op : WriteOperation) : Prop where
  tenantId : (Schema.text 1).valid op.tenantId = true
  erpPlatform : (Schema.text 1).valid op.erpPlatform = true
  operation : (Schema.text 1).valid op.operation = true
  writeId : 1 ≤ op.writeId.length

/-- The fields of a proposal pass the contract of `requested`. -/
structure Described (op : WriteOperation) : Prop extends Named op where
  targetModule : (Schema.text 1).valid op.targetModule = true
  requestedBy : (Schema.text 1).valid op.requestedBy = true
  diffPreview : (Schema.text 0).valid op.diffPreview = true
  reverses : Schema.textOrNull.valid op.reverses = true
  targetExternalId : Schema.textOrNull.valid op.targetExternalId = true

/-- The event store accepts the event of a step. -/
def Stores (env : Env) (event : Event) (step : WriteStep) : Prop :=
  env.infra.recordEvent (stepEvent env step event.correlationId) = none

/-- What a call must find so that each change it makes is recorded: fields that pass the contracts, and
an event store that accepts the event. Nothing is asked of the bus. -/
structure Recordable (cfg : Config) (env : Env) (event : Event) (w : World) : Prop where
  proposal : ∀ op, Proposes env event w.self op →
    Described op ∧ Stores env event (requestedStep env.coordinator op)
  approval : ∀ writeId op reviewer, Approval event writeId →
    item event.payload "reviewer" = .ok reviewer → w.self.pending writeId = some op →
    op.state = .requested →
      (Schema.text 1).valid reviewer = true ∧ Stores env event (approvedStep env.coordinator op reviewer)
  rejection : ∀ writeId op reviewer reason, Refusal event writeId reviewer reason →
    w.self.pending writeId = some op → op.state = .requested →
      (Schema.text 1).valid reviewer = true ∧ (Schema.text 1).valid reason = true ∧
        Stores env event (rejectedStep env.coordinator op reviewer reason)
  completion : ∀ writeId op confirmation, Approval event writeId → w.self.pending writeId = some op →
    Admits cfg env op w → env.coordinator.writer { op with state := .approved } = .ok confirmation →
      Stores env event (completedStep env.coordinator { op with state := .approved } confirmation)

end ForgeWriteAgent

end CaviErp
