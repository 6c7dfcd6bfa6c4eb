import CaviErp.Forge.WriteAgent

/-!
# The lifecycle of a write, seen from outside

The part of the write agent's world that decides about writes is its two dictionaries and its trace.
`Handled` says all that one call of `handle` can do to them; every property of the lifecycle is derived
from it. `Lawful` says what the steps of one write may look like.
-/

namespace CaviErp

open Py

namespace ForgeWriteAgent

/-- The dictionaries and the trace. -/
structure View where
  pending : String → Option WriteOperation
  completed : String → Option WriteOperation
  trace : List Obs

def view (w : World) : View := ⟨w.self.pending, w.self.completed, w.trace⟩

namespace View

/-- A write becomes pending, or changes while it is. -/
def put (v : View) (writeId : String) (op : WriteOperation) : View :=
  { v with pending := Function.update v.pending writeId (some op) }

def pop (v : View) (writeId : String) : View :=
  { v with pending := Function.update v.pending writeId none }

def finish (v : View) (writeId : String) (op : WriteOperation) : View :=
  { v with pending := Function.update v.pending writeId none
           completed := Function.update v.completed writeId (some op) }

def tell (v : View) (obs : Obs) : View := { v with trace := v.trace ++ [obs] }

end View

def Valid (cfg : Config) (event : Event) : Prop :=
  cfg.rt.registry.validate event.subject event.schemaVersion event.payload = .ok ()

/-- An event fails its contract, or the event store refuses it. -/
def Refused (cfg : Config) (env : Env) (event : Event) : Prop :=
  ¬ Valid cfg event ∨ env.infra.recordEvent event ≠ none

/-- The steps the coordinator produces. -/
def approvedStep (c : WriteCoordinator) (op : WriteOperation) (approvedBy : Json) : WriteStep where
  op := { op with state := .approved }
  subject := "forge.write.approved"
  event := approvedPayload { op with state := .approved } approvedBy (c.clock "forge.write.approved")

@[inherit_doc approvedStep]
def rejectedStep (c : WriteCoordinator) (op : WriteOperation) (rejectedBy reason : Json) :
    WriteStep where
  op := { op with state := .rejected }
  subject := "forge.write.rejected"
  event := rejectedPayload { op with state := .rejected } rejectedBy reason
    (c.clock "forge.write.rejected")

@[inherit_doc approvedStep]
def completedStep (c : WriteCoordinator) (op : WriteOperation) (confirmation : Obj) : WriteStep where
  op := { op with state := .completed }
  subject := "forge.write.completed"
  event := completedPayload { op with state := .completed } confirmation
    (c.clock "forge.write.completed")

@[inherit_doc approvedStep]
def requestedStep (c : WriteCoordinator) (op : WriteOperation) : WriteStep where
  op := op
  subject := "forge.write.requested"
  event := requestedPayload op (c.clock "forge.write.requested")
  schemaVersion := 3

/-- What is seen of a step that is emitted. -/
def obsOf (env : Env) (event : Event) (step : WriteStep) : Obs :=
  .emitted step.op.writeId (stepEvent env step event.correlationId)

/-- All that `_execute` can do with an approved write; `ok` says whether it returned. -/
inductive Executed (cfg : Config) (env : Env) (event : Event) (op : WriteOperation) (v : View) :
    Bool → View → Prop
  /-- The writer was not called. -/
  | refused {ok : Bool} : Executed cfg env event op v ok v
  | failed {ok : Bool} {text : String} (h : env.coordinator.writer op = .error text) :
    Executed cfg env event op v ok (v.tell (.applied op (.error text)))
  /-- The write went through, but the event was not recorded. -/
  | unannounced {confirmation : Obj} (h : env.coordinator.writer op = .ok confirmation)
    (hwhy : Refused cfg env (stepEvent env (completedStep env.coordinator op confirmation)
      event.correlationId)) :
    Executed cfg env event op v false
      ((v.tell (.applied op (.ok confirmation))).finish op.writeId { op with state := .completed })
  | completed {ok : Bool} {confirmation : Obj} (h : env.coordinator.writer op = .ok confirmation)
    (hv : Valid cfg (stepEvent env (completedStep env.coordinator op confirmation)
      event.correlationId)) :
    Executed cfg env event op v ok
      (((v.tell (.applied op (.ok confirmation))).finish op.writeId
        { op with state := .completed }).tell
          (obsOf env event (completedStep env.coordinator op confirmation)))

/-- A decision about a write. -/
def Names (event : Event) (writeId : String) : Prop :=
  event.subject = "forge.write.decision" ∧ item event.payload "write_id" = .ok (.str writeId)

/-- All that `handle` can do; `ok` says whether it returned. A call that raises ends on the way. -/
inductive Handled (cfg : Config) (env : Env) (event : Event) (v : View) : Bool → View → Prop
  | idle {ok : Bool} : Handled cfg env event v ok v
  /-- A proposal that is pending, but whose event was not recorded. -/
  | unannounced {op : WriteOperation} (hid : op.writeId = env.coordinator.newId)
    (hstate : op.state = .requested) :
    Handled cfg env event v false (v.put op.writeId op)
  | proposed {ok : Bool} {op : WriteOperation} (hid : op.writeId = env.coordinator.newId)
    (hstate : op.state = .requested)
    (hv : Valid cfg (stepEvent env (requestedStep env.coordinator op) event.correlationId)) :
    Handled cfg env event v ok
      ((v.put op.writeId op).tell (obsOf env event (requestedStep env.coordinator op)))
  /-- The replay of an approval. -/
  | retried {ok : Bool} {writeId : String} {op : WriteOperation} {v' : View}
    (hop : v.pending writeId = some op) (hstate : op.state = .approved)
    (hex : Executed cfg env event op v ok v') : Handled cfg env event v ok v'
  /-- An approval whose event was not recorded. -/
  | unapproved {writeId : String} {op : WriteOperation} (hop : v.pending writeId = some op)
    (hstate : op.state = .requested) :
    Handled cfg env event v false (v.put writeId { op with state := .approved })
  | approved {ok : Bool} {writeId : String} {op : WriteOperation} {v' : View} {reviewer : Json}
    (hnames : Names event writeId) (hop : v.pending writeId = some op)
    (hstate : op.state = .requested)
    (hv : Valid cfg (stepEvent env (approvedStep env.coordinator op reviewer) event.correlationId))
    (hex : Executed cfg env event { op with state := .approved }
      ((v.put writeId { op with state := .approved }).tell
        (obsOf env event (approvedStep env.coordinator op reviewer))) ok v') :
    Handled cfg env event v ok v'
  /-- A rejection whose event was not recorded. -/
  | unrejected {writeId : String} {op : WriteOperation} (hop : v.pending writeId = some op)
    (hstate : op.state = .requested) : Handled cfg env event v false (v.pop writeId)
  | rejected {ok : Bool} {writeId : String} {op : WriteOperation} {reviewer reason : Json}
    (hnames : Names event writeId) (hop : v.pending writeId = some op)
    (hstate : op.state = .requested)
    (hv : Valid cfg (stepEvent env (rejectedStep env.coordinator op reviewer reason)
      event.correlationId)) :
    Handled cfg env event v ok
      ((v.pop writeId).tell (obsOf env event (rejectedStep env.coordinator op reviewer reason)))

/-! ## The steps of one write -/

/-- What can be seen of one write. -/
inductive Step where
  | requested
  | approved
  | rejected
  | completed
  | applyFailed
  | applySucceeded
deriving DecidableEq, Repr

/-- The stage an event announces. -/
def stageOf (event : Event) : Option Step :=
  if event.subject = "forge.write.requested" then some .requested
  else if event.subject = "forge.write.approved" then some .approved
  else if event.subject = "forge.write.rejected" then some .rejected
  else if event.subject = "forge.write.completed" then some .completed
  else none

/-- The step of the write `writeId` in an observation. -/
def Obs.step? (writeId : String) : Obs → Option Step
  | .emitted id event => if id = writeId then stageOf event else none
  | .applied op outcome =>
    if op.writeId = writeId then
      some (match outcome with
        | .ok _ => .applySucceeded
        | .error _ => .applyFailed)
    else none

/-- The observable steps of one write, in order. -/
def stepsOf (writeId : String) (trace : List Obs) : List Step :=
  trace.filterMap (Obs.step? writeId)

/-- A write that was requested and approved, and failed to apply `n` times since. -/
def attempts (n : Nat) : List Step := .requested :: .approved :: List.replicate n .applyFailed

/-- A prefix of `requested, rejected` or of
`requested, approved, (apply failed)*, apply succeeded, completed`. -/
def Lawful (steps : List Step) : Prop :=
  steps <+: [.requested, .rejected] ∨
    ∃ n, steps <+: attempts n ++ [.applySucceeded, .completed]

end ForgeWriteAgent

end CaviErp
