import CaviErp.Ledger.Agent
import CaviErp.Ledger.Postgres
import CaviErp.Mapper.Agent

/-!
# An entry by way of the mapper

A producer of `ledger.entry` may write the first version of the contract and have its payloads coerced
to the second before they are delivered. What a ledger agent makes of the two deliveries is compared
here.
-/

namespace CaviErp

open Py

/-- An event that asks the mapper for the second version of an entry. -/
structure AsksForV2 (request entry : Event) : Prop where
  subject : item request.payload "subject" = .ok "ledger.entry"
  from_version : item request.payload "from_version" = .ok (.int 1)
  to_version : item request.payload "to_version" = .ok (.int 2)
  payload : item request.payload "payload" = .ok entry.payload
  tenantId : request.tenantId = entry.tenantId
  correlationId : request.correlationId = entry.correlationId

/-- What the mapper agent emits for a request. -/
def reemitted (rt : Runtime) (uuid : String) (request : Event) : List Event :=
  (MapperAgent.handle rt { uuid } (MapperAgent.mapper rt) request { self := () }).2.trace

namespace LedgerAgent

variable {σ : Type} (rt : Runtime) (store : LedgerStore σ)

/-- The agent after the events were delivered to it; `uuid` is the id of what it emits. -/
def after (uuid : String) (events : List Event) (w : World σ) : World σ :=
  Action.serve (fun event => dispatch rt store { uuid } event) w events

/-- Two deliveries leave the same entries in the ledger store, and the same outcome events. -/
def PostAlike (uuid : String) (w : World σ) (first second : List Event) : Prop :=
  (∀ tenantId entryId, store.get tenantId entryId (after rt store uuid first w).self =
      store.get tenantId entryId (after rt store uuid second w).self) ∧
    (after rt store uuid first w).trace = (after rt store uuid second w).trace

end LedgerAgent

/-- The store has no entry under the id. -/
def InMemoryLedgerStore.HasRoom (s : InMemoryLedgerStore) (entry : JournalEntry) : Prop :=
  s.find? entry.entryId = none

/-- The tables have no entry under the id, and each row of the entry can be inserted. -/
def Postgres.HasRoom {κ : Type} [DecidableEq κ] (srv : Postgres.Server κ) (t : Postgres.Tables κ)
    (entry : JournalEntry) : Prop :=
  ∃ row rows, entryRow srv entry = some row ∧ (∀ r ∈ t.entries, r.entryId ≠ row.entryId) ∧
    entry.lines.mapM (lineRow srv row) = some rows

end CaviErp
