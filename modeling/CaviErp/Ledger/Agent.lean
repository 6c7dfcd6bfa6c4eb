import CaviErp.Base.Agent
import CaviErp.Ledger.Ledger

/-!
# The ledger agent

`agents/ledger/agent.py`: posts the entries of `ledger.entry` events and emits the outcome. The
attributes of the agent are the state of its ledger store, and its trace lists the events it emitted.
-/

namespace CaviErp

open Py

namespace LedgerAgent

structure Env where
  /-- The id that `uuid4` gives the event emitted during the call, if one is. -/
  uuid : String
  infra : Infra := .healthy

/-- The agent over a store with states `σ`. -/
abbrev World (σ : Type) := CaviErp.World σ Event

def rejected (env : Env) (event : Event) (entry : JournalEntry) (reason : String) : Event where
  subject := "ledger.rejected"
  schemaVersion := .int 1
  source := "ledger"
  id := .str env.uuid
  correlationId := event.correlationId
  tenantId := event.tenantId
  payload := .obj
    [("entry_id", .str entry.entryId), ("currency", .str entry.currency), ("reason", .str reason),
      ("total_debits", .int entry.totalDebits), ("total_credits", .int entry.totalCredits)]

def posted (env : Env) (event : Event) (result : PostResult) : Event where
  subject := "ledger.posted"
  schemaVersion := .int 1
  source := "ledger"
  id := .str env.uuid
  correlationId := event.correlationId
  tenantId := event.tenantId
  payload := .obj
    [("entry_id", .str result.entryId), ("currency", .str result.currency),
      ("total_minor", .int result.totalMinor), ("line_count", .int result.lineCount)]

variable {σ : Type} (rt : Runtime) (store : LedgerStore σ) (env : Env)

def emit (event : Event) : Action (World σ) PyError Unit := BaseAgent.emit rt env.infra event event

def handle (event : Event) : Action (World σ) PyError Unit :=
  if !event.tenantId.truthy then do
    -- the entry is dropped; its id is only read for the log
    let _ ← Action.ofExcept (getItem? event.payload "entry_id")
  else do
    -- `tenant_id: str | None`
    let tenantId ← Action.ofExcept (asStr event.tenantId)
    let entry ← Action.ofExcept (JournalEntry.fromPayload event.payload tenantId)
    let outcome ← Action.attempt (onSelf (Ledger.post store entry))
    match outcome with
    | .error (.unbalancedEntry reason) => emit rt env (rejected env event entry reason)
    | .error e => Action.raise e
    | .ok result =>
      match result.status with
      | .duplicate => pure ()
      | .posted => emit rt env (posted env event result)

def dispatch (event : Event) : Action (World σ) PyError Unit :=
  BaseAgent.dispatch rt env.infra (handle rt store env) event

structure Delivery where
  env : Env
  event : Event
  /-- The envelope declares `tenant_id: str | None`. -/
  tenant_typed : event.tenantId = .null ∨ ∃ t, event.tenantId = .str t

/-- Deliveries one after the other; one that raises is aborted, and the next is taken. -/
def deliver (deliveries : List Delivery) (w : World σ) : World σ :=
  Action.serve (fun d => dispatch rt store d.env d.event) w deliveries

end LedgerAgent

end CaviErp
