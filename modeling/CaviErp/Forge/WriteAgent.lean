import CaviErp.Base.Agent
import CaviErp.Forge.Breaker
import CaviErp.Forge.Write
import Mathlib.Logic.Function.Basic

/-!
# The write agent

`agents/forge/write_agent.py`: turns proposals, decisions and reversals into the lifecycle of a write,
with a circuit breaker for each tenant and platform before the ERP.

The trace of the agent holds what can be seen of a write from outside: the events emitted for it and
the calls of `writer.apply`. The metrics are left out.
-/

namespace CaviErp

open Py

/-- The attributes of `ForgeWriteAgent` that change. -/
structure ForgeWriteAgent where
  pending : String → Option WriteOperation := fun _ => none
  completed : String → Option WriteOperation := fun _ => none
  /-- `self._breakers`, by tenant and platform. -/
  breakers : Json × Json → Option CircuitBreaker := fun _ => none

namespace ForgeWriteAgent

structure Config where
  rt : Runtime
  /-- `breaker_factory`. -/
  breaker : BreakerConfig := {}

/-- What one call of `handle` takes from outside. -/
structure Env where
  coordinator : WriteCoordinator
  /-- The id `uuid4` gives the event of the given subject. -/
  uuid : String → String
  breakerClock : BreakerClock
  infra : Infra := .healthy

/-- What can be seen of a write. -/
inductive Obs where
  /-- An event emitted for the write. -/
  | emitted (writeId : String) (event : Event)
  /-- A call of `writer.apply`, with its outcome. -/
  | applied (op : WriteOperation) (outcome : Except String Obj)

abbrev World := CaviErp.World ForgeWriteAgent Obs

def subjects : List String :=
  ["forge.write.propose", "forge.write.decision", "forge.write.reverse"]

/-- `d.get(key)` on a dictionary with string keys. -/
def lookup (d : String → Option WriteOperation) (key : Json) :
    Except PyError (Option WriteOperation) :=
  match key with
  | .str s => .ok (d s)
  | .arr _ => .error (.typeError "unhashable type: 'list'")
  | .obj _ => .error (.typeError "unhashable type: 'dict'")
  | _ => .ok none

/-- The key of the breaker of a write. -/
def breakerKey (op : WriteOperation) : Except PyError (Json × Json) :=
  match op.tenantId.dictKey, op.erpPlatform.dictKey with
  | some t, some p => .ok (t, p)
  | _, _ => .error (.typeError "unhashable type")

variable (cfg : Config) (env : Env)

def putPending (writeId : String) (op : WriteOperation) : Action World PyError Unit :=
  Action.modify fun w =>
    { w with self.pending := Function.update w.self.pending writeId (some op) }

def popPending (writeId : String) : Action World PyError Unit :=
  Action.modify fun w => { w with self.pending := Function.update w.self.pending writeId none }

def putCompleted (writeId : String) (op : WriteOperation) : Action World PyError Unit :=
  Action.modify fun w =>
    { w with self.completed := Function.update w.self.completed writeId (some op) }

/-- The breaker under a key is replaced by its next state. -/
def putBreaker (key : Json × Json) (b : CircuitBreaker) : Action World PyError Unit :=
  Action.modify fun w =>
    { w with self.breakers := Function.update w.self.breakers key (some b) }

def stepEvent (step : WriteStep) (correlationId : Json) : Event where
  subject := .str step.subject
  schemaVersion := .int step.schemaVersion
  source := "forge"
  id := .str (env.uuid step.subject)
  correlationId := correlationId
  payload := .obj step.event

def emit (step : WriteStep) (correlationId : Json) : Action World PyError Unit :=
  BaseAgent.emit cfg.rt env.infra (.emitted step.op.writeId (stepEvent env step correlationId))
    (stepEvent env step correlationId)

def deadLetter (event : Event) (error : String) : Action World PyError Unit :=
  BaseAgent.deadLetter cfg.rt env.infra event error

/-- `self.coordinator.execute(op)`: the writer is only called for an approved write. -/
def executeWrite (op : WriteOperation) : Action World PyError WriteStep :=
  if op.state ≠ .approved then
    Action.raise (.invalidTransition
      ("write " ++ op.writeId ++ ": cannot execute from " ++ op.state.value))
  else do
    Action.modify fun w =>
      { w with trace := w.trace ++ [.applied op (env.coordinator.writer op)] }
    match env.coordinator.writer op with
    | .error text => Action.raise (.erpWriteError text)
    | .ok confirmation => Action.ofExcept (env.coordinator.complete op confirmation)

/-- The `except ErpWriteError` branch of `_execute`: the write stays approved, and the transition of the
breaker to open is escalated. -/
def onWriteFailed (key : Json × Json) (breaker : CircuitBreaker) (cause : Event) (text : String) :
    Action World PyError Unit := do
  let failed := breaker.recordFailure cfg.breaker env.breakerClock
  putBreaker key failed.2
  if failed.1 then deadLetter cfg env cause ("circuit breaker opened; last error: " ++ text)
  else pure ()

/-- The end of `_execute`, for a write that went through. -/
def onWritten (key : Json × Json) (breaker : CircuitBreaker) (op : WriteOperation)
    (completed : WriteStep) (correlationId : Json) : Action World PyError Unit := do
  putBreaker key breaker.recordSuccess
  popPending op.writeId
  putCompleted completed.op.writeId completed.op
  emit cfg env completed correlationId

def execute (op : WriteOperation) (cause : Event) (correlationId : Json) :
    Action World PyError Unit := do
  let key ← Action.ofExcept (breakerKey op)
  let w ← Action.read
  let breaker := (w.self.breakers key).getD {}
  let checked := breaker.check cfg.breaker env.breakerClock
  putBreaker key checked.2
  match checked.1 with
  | some refusal => deadLetter cfg env cause refusal
  | none =>
    let outcome ← Action.attempt (executeWrite env op)
    match outcome with
    | .error e =>
      if e.isErpWriteError then onWriteFailed cfg env key checked.2 cause e.text
      else Action.raise e
    | .ok completed => onWritten cfg env key checked.2 op completed correlationId

/-- The end of `_propose` and of `_reverse`: a dry run that failed is quarantined, a proposal is
recorded as pending. -/
def record (event : Event) (outcome : Except PyError WriteStep) : Action World PyError Unit :=
  match outcome with
  | .error e =>
    if e.isErpWriteError then deadLetter cfg env event ("dry-run failed: " ++ e.text)
    else Action.raise e
  | .ok step => do
    putPending step.op.writeId step.op
    emit cfg env step event.correlationId

def propose (event : Event) : Action World PyError Unit :=
  record cfg env event (WriteRequest.ofKwargs event.payload >>= env.coordinator.request)

def reverse (event : Event) : Action World PyError Unit := do
  let writeId ← Action.ofExcept (item event.payload "write_id")
  let w ← Action.read
  let found ← Action.ofExcept (lookup w.self.completed writeId)
  match found with
  | none =>
    deadLetter cfg env event ("reversal target " ++ writeId.pyStr ++ " is not a completed write")
  | some original =>
    record cfg env event (do
      let operation ← item event.payload "operation"
      let payload ← item event.payload "payload"
      let requestedBy ← item event.payload "requested_by"
      let diffPreview ← getItem? event.payload "diff_preview"
      env.coordinator.requestReversal original operation payload requestedBy
        (diffPreview.getD .null) .null)

/-- The approval of a write in `_decide`. -/
def approveWrite (event : Event) (writeId : String) (op : WriteOperation) :
    Action World PyError Unit := do
  let reviewer ← Action.ofExcept (item event.payload "reviewer")
  let approved ← Action.ofExcept (env.coordinator.approve op reviewer)
  putPending writeId approved.op
  emit cfg env approved event.correlationId
  execute cfg env approved.op event event.correlationId

/-- The rejection of a write in `_decide`. -/
def rejectWrite (event : Event) (writeId : String) (op : WriteOperation) :
    Action World PyError Unit := do
  let reviewer ← Action.ofExcept (item event.payload "reviewer")
  let reason ← Action.ofExcept (getItem? event.payload "reason")
  let rejected ← Action.ofExcept
    (env.coordinator.reject op reviewer (reason.getD "rejected"))
  popPending writeId
  emit cfg env rejected event.correlationId

/-- The body of the `try` of `_decide`. The replay of an approval already granted tries the execution
again. -/
def decideOn (event : Event) (writeId : String) (op : WriteOperation) :
    Action World PyError Unit := do
  let decision ← Action.ofExcept (item event.payload "decision")
  if decision = .str "approve" then
    if op.state = .approved then execute cfg env op event event.correlationId
    else approveWrite cfg env event writeId op
  else rejectWrite cfg env event writeId op

/-- The `except InvalidTransition` of `_decide`. -/
def onDecided (event : Event) (outcome : Except PyError Unit) : Action World PyError Unit :=
  match outcome with
  | .ok _ => pure ()
  | .error e =>
    if e.isInvalidTransition then deadLetter cfg env event ("illegal decision: " ++ e.text)
    else Action.raise e

/-- `_decide`. A key that is found is a string, so its text is the key. -/
def decide (event : Event) : Action World PyError Unit := do
  let writeId ← Action.ofExcept (item event.payload "write_id")
  let w ← Action.read
  let found ← Action.ofExcept (lookup w.self.pending writeId)
  match found with
  | none => pure ()
  | some op =>
    let outcome ← Action.attempt (decideOn cfg env event writeId.pyStr op)
    onDecided cfg env event outcome

def handle (event : Event) : Action World PyError Unit :=
  if event.subject = "forge.write.propose" then propose cfg env event
  else if event.subject = "forge.write.decision" then decide cfg env event
  else if event.subject = "forge.write.reverse" then reverse cfg env event
  else pure ()

/-- Calls of `handle` one after the other, until one raises. -/
def handleAll (calls : List (Env × Event)) : Action World PyError Unit :=
  Action.forEach (fun call => handle cfg call.1 call.2) calls

end ForgeWriteAgent

end CaviErp
