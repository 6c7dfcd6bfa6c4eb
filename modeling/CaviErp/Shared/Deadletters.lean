import CaviErp.Base.Envelope
import CaviErp.Shared.Events

/-!
# The dead letters in Postgres

`PostgresEventStore.record_deadletter` (`shared/events.py`) over the table `event_deadletter` of migration
0001. All columns are `NOT NULL`; an id that `_as_uuid` does not read is bound as `NULL`.
-/

namespace CaviErp

open Py

structure DeadletterRow where
  id : Uuid
  subject : String
  source : String
  raw : WideObj
  error : String

namespace Deadletters

/-- What the driver and the server decide. -/
structure Server where
  /-- What a column of type `TEXT` makes of a value; `none` where it is refused, by the driver or for its type. -/
  text : Wide → Option String
  /-- A dictionary that is dumped and that `JSONB` takes. -/
  jsonb : WideObj → Bool

/-- `_as_uuid`. Halves are no digits. -/
def asUuidOf (limit : StrLimit) (value : Wide) : Except PyError (Option Uuid) :=
  if value.truthy then do
    let text ← strOf limit value
    return parseUuid text.blurred
  else .ok none

variable (srv : Server)

/-- A column of type `TEXT` that is `NOT NULL`. -/
def column (value : Wide) : Option String :=
  match value with
  | .null => none
  | value => srv.text value

/-- The row of an envelope; `none` where a value is refused. -/
def rowOf (id : Option Uuid) (envelope : WideObj) : Option DeadletterRow := do
  let id ← id
  let subject ← column srv (envelope.get "subject")
  let source ← column srv (envelope.get "source")
  let error ← column srv (envelope.get "error")
  if srv.jsonb envelope then some { id, subject, source, raw := envelope, error } else none

/-- `INSERT … ON CONFLICT (id) DO NOTHING`. -/
def insert (table : List DeadletterRow) (row : DeadletterRow) : List DeadletterRow :=
  if table.any fun r => r.id = row.id then table else table ++ [row]

/-- `record_deadletter`. -/
def recordDeadletter (limit : StrLimit) (table : List DeadletterRow) (envelope : WideObj) :
    Except PyError (List DeadletterRow) := do
  let id ← asUuidOf limit (envelope.get "id")
  match rowOf srv id envelope with
  | some row => return insert table row
  | none => .error (.storeError "insert into event_deadletter refused")

end Deadletters

end CaviErp
