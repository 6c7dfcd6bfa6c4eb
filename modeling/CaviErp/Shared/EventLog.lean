import Mathlib.Logic.Function.Basic
import CaviErp.Shared.Events

/-!
# The event log in Postgres

`PostgresEventStore.record_event` (`shared/events.py`) over the table `event_log` of migrations 0001,
0003 and 0004. A call is one transaction of four statements on a pooled connection: take the advisory
lock, read the tip of the chain, insert, commit. `EventLog.recordEvent` runs it alone; `EventLog.step`
is one statement of one of many writers.

The fields of an event have the types that the dataclass declares. An insert with another value is
taken as refused.
-/

namespace CaviErp

open Py

structure EventRow where
  seq : Nat
  id : Uuid
  subject : String
  schemaVersion : Int
  source : String
  correlationId : Option Uuid
  tenantId : Option String
  payload : Json
  /-- `NULL` in the rows from before migration 0004. -/
  chainHash : Option String
  createdAt : String
deriving DecidableEq

/-- A row and the event it was inserted for, which the table does not keep. -/
structure Record where
  row : EventRow
  event : Event
deriving DecidableEq

namespace Record

/-- What was hashed at the insert, and the hash; nothing for a row from before the chain. -/
def entry? (r : Record) : Option (Obj × String) :=
  r.row.chainHash.map fun h => (chainEnvelope r.event, h)

end Record

/-- The committed rows and the next value of the identity column `seq`. -/
structure EventLog where
  records : List Record := []
  nextSeq : Nat := 1

namespace EventLog

/-- What the server decides. -/
structure Server where
  /-- The row of the event passes the foreign key and the checks of the column types. -/
  accepts : Event → Bool
  /-- The value a `JSONB` column gives back. -/
  jsonb : Json → Json

/-- A value for a `TEXT NOT NULL` column. -/
def text? : Json → Option String
  | .str s => some s
  | _ => none

/-- A value for a `TEXT` column. -/
def nullableText? : Json → Option (Option String)
  | .null => some none
  | .str s => some (some s)
  | _ => none

/-- A value for an `INTEGER` column. -/
def integer? : Json → Option Int
  | .int n => if -2147483648 ≤ n ∧ n ≤ 2147483647 then some n else none
  | _ => none

/-- `WHERE chain_hash IS NOT NULL ORDER BY seq`. -/
def chained (log : EventLog) : List Record :=
  (log.records.filter fun r => r.row.chainHash.isSome).insertionSort
    fun a b => a.row.seq ≤ b.row.seq

/-- The chained rows in order, each with the envelope that was hashed at its insert. -/
def entries (log : EventLog) : List (Obj × String) := log.chained.filterMap Record.entry?

/-- The chain hash read with `ORDER BY seq DESC LIMIT 1`, or `GENESIS_HASH`. -/
def tip (log : EventLog) : String :=
  (log.chained.getLast?.bind fun r => r.row.chainHash).getD genesisHash

variable (srv : Server) (sha256 : String → String)

/-- The row of an insert; `none` where the server refuses the values, a `NULL` id among them. -/
def rowOf (seq : Nat) (now prev : String) (event : Event) : Option EventRow := do
  let id ← asUuid event.id
  let subject ← text? event.subject
  let schemaVersion ← integer? event.schemaVersion
  let source ← text? event.source
  let tenantId ← nullableText? event.tenantId
  if srv.accepts event then
    some {
      seq, id, subject, schemaVersion, source
      correlationId := asUuid event.correlationId
      tenantId
      payload := srv.jsonb event.payload
      chainHash := some (chainHash sha256 prev (chainEnvelope event))
      createdAt := now }
  else none

/-- `INSERT … ON CONFLICT (id) DO NOTHING`: `none` where the statement fails, else the new row unless
its id is taken. -/
def insertion (log : EventLog) (now prev : String) (event : Event) : Option (Option Record) :=
  (rowOf srv sha256 log.nextSeq now prev event).map fun row =>
    if log.records.any fun r => r.row.id = row.id then none else some ⟨row, event⟩

/-- The log once the transaction of an insert is committed. -/
def append (log : EventLog) (record : Option Record) : EventLog :=
  { log with records := log.records ++ record.toList }

/-- `record_event`, undisturbed; `none` where it raises. `now` is the time of the transaction. A value of
`seq` is drawn also where there is a conflict. -/
def recordEvent (log : EventLog) (now : String) (event : Event) : Option EventLog :=
  (insertion srv sha256 log now log.tip event).map fun record =>
    { log.append record with nextSeq := log.nextSeq + 1 }

/-- Calls of `record_event` one after the other, all of them accepted. -/
def recordAll : EventLog → List (String × Event) → Option EventLog
  | log, [] => some log
  | log, (now, event) :: events => do
    let log' ← recordEvent srv sha256 log now event
    recordAll log' events

/-! ## Concurrent writers -/

/-- How far the transaction of a writer has come. -/
inductive Phase where
  | idle
  | begun (now : String) (event : Event)
  | locked (now : String) (event : Event)
  | tipRead (now : String) (event : Event) (prev : String)
  /-- The insert has returned, with a row unless there was a conflict. -/
  | inserted (event : Event) (record : Option Record)
deriving DecidableEq

namespace Phase

/-- The transaction has been granted the advisory lock. -/
def holdsLock : Phase → Bool
  | idle => false
  | begun _ _ => false
  | _ => true

end Phase

/-- The server and the writers `ι` connected to it. -/
structure System (ι : Type) where
  log : EventLog
  /-- The transaction that `pg_advisory_xact_lock` was granted to. -/
  lock : Option ι := none
  writers : ι → Phase := fun _ => .idle
  /-- The events of the transactions that were committed. -/
  done : List Event := []

/-- One statement of one writer. -/
inductive Act (ι : Type) where
  | begin (writer : ι) (now : String) (event : Event)
  | lock (writer : ι)
  | readTip (writer : ι)
  | insert (writer : ι)
  | commit (writer : ι)
  /-- A statement failed, or the connection was lost. -/
  | abort (writer : ι)
  /-- A value of `seq` is drawn by a statement that fails. -/
  | burn

variable {ι : Type} [DecidableEq ι]

namespace System

def goto (s : System ι) (writer : ι) (phase : Phase) : System ι :=
  { s with writers := Function.update s.writers writer phase }

/-- The transaction of a writer ends, and with it its lock. -/
def finish (s : System ι) (writer : ι) : System ι :=
  { s.goto writer .idle with lock := if s.lock = some writer then none else s.lock }

end System

/-- A statement as the server executes it, or `none` where it has to wait or does not come next. Each
statement sees what is committed when it starts. That an insert also waits for an uncommitted row of
another transaction with its id would only exclude interleavings. -/
def step (s : System ι) : Act ι → Option (System ι)
  | .begin writer now event =>
    match s.writers writer with
    | .idle => some (s.goto writer (.begun now event))
    | _ => none
  | .lock writer =>
    match s.writers writer, s.lock with
    | .begun now event, none =>
      some { s.goto writer (.locked now event) with lock := some writer }
    | _, _ => none
  | .readTip writer =>
    match s.writers writer with
    | .locked now event => some (s.goto writer (.tipRead now event s.log.tip))
    | _ => none
  | .insert writer =>
    match s.writers writer with
    | .tipRead now event prev =>
      match insertion srv sha256 s.log now prev event with
      | some record =>
        some { s.goto writer (.inserted event record) with
          log := { s.log with nextSeq := s.log.nextSeq + 1 } }
      | none => none
    | _ => none
  | .commit writer =>
    match s.writers writer with
    | .inserted event record =>
      some { s.finish writer with log := s.log.append record, done := s.done ++ [event] }
    | _ => none
  | .abort writer =>
    match s.writers writer with
    | .idle => none
    | _ => some (s.finish writer)
  | .burn => some { s with log := { s.log with nextSeq := s.log.nextSeq + 1 } }

/-- Statements in the order the server executes them; `none` where one is not possible. -/
def run (s : System ι) : List (Act ι) → Option (System ι)
  | [] => some s
  | act :: acts => do
    let s' ← step srv sha256 s act
    run s' acts

end EventLog

end CaviErp
