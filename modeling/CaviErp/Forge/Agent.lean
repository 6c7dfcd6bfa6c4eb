import CaviErp.Base.Agent
import CaviErp.Forge.Forge

/-!
# The forge agent

`agents/forge/agent.py`: completes the orders of `forge.workorder` events and emits, for each, the fact
(`forge.completed`) and its financial consequence (`ledger.entry`). The agent has no attributes that
change; its trace lists the events it emitted.
-/

namespace CaviErp

open Py

namespace ForgeAgent

structure Config where
  rt : Runtime
  /-- `str(uuid.uuid5(_ENTRY_NAMESPACE, name))`. -/
  uuid5 : String → String

/-- What one call of `handle` takes from outside. -/
structure Env where
  /-- The id `uuid4` gives the event of the given subject. -/
  uuid : String → String
  infra : Infra := .healthy

abbrev World := CaviErp.World Unit Event

def subjects : List String := ["forge.workorder"]

variable (cfg : Config) (env : Env)

/-- An event for a completed order, scoped to its tenant. -/
def outcome (cause : Event) (order : WorkOrder) (subject : String) (payload : Json) : Event where
  subject := .str subject
  schemaVersion := .int 1
  source := "forge"
  id := .str (env.uuid subject)
  correlationId := cause.correlationId
  tenantId := order.tenantId
  payload := payload

def emit (event : Event) : Action World PyError Unit := BaseAgent.emit cfg.rt env.infra event event

/-- An order that arrives for fulfilment is treated as in progress. -/
def started (order : WorkOrder) : Except PyError WorkOrder :=
  if order.state = .created then Forge.start order else .ok order

/-- `handle`; an order that cannot be completed is only logged. -/
def handle (event : Event) : Action World PyError Unit := do
  let order ← Action.ofExcept (WorkOrder.fromPayload event.payload)
  let order ← Action.ofExcept (started order)
  match Forge.complete cfg.uuid5 order with
  | .error e => if e.isInvalidTransition then pure () else Action.raise e
  | .ok result => do
    emit cfg env (outcome env event result.order "forge.completed" result.completedEvent)
    emit cfg env (outcome env event result.order "ledger.entry" result.ledgerEntry)

/-- Deliveries one after the other; one that raises is aborted, and the next is taken. -/
def deliver (deliveries : List (Env × Event)) (w : World) : World :=
  Action.serve (fun d => handle cfg d.1 d.2) w deliveries

end ForgeAgent

end CaviErp
