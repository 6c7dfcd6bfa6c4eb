import CaviErp.Base.Agent

/-!
# Reading an external ERP

`agents/ledger/query.py` and `agents/ledger/query_agent.py`: a query is read through an injected reader
and answered by one event. The trace of the agent lists the events it emitted.
-/

namespace CaviErp

open Py

/-- What a reader raises: a `LedgerQueryError` or another exception, with its text. -/
inductive ReadError where
  | query (text : String)
  | other (text : String)
deriving DecidableEq, Repr

/-- The querier as one call finds it: its reader, its tag for the shape of the rows and the reading of
its clock. -/
structure LedgerQuerier where
  read : Json → Json → Obj → Except ReadError (List Json)
  schemaVersion : String := "cavi.ledger.v1"
  clock : String

namespace LedgerQuerier

/-- `UnconfiguredErpReader`. -/
def unconfigured : Json → Json → Obj → Except ReadError (List Json) := fun _ _ _ =>
  .error (.query "no ERP reader configured; inject an ErpReader")

variable (q : LedgerQuerier)

def completedPayload (tenantId erpPlatform subject : Json) (filters : Obj) (rows : List Json) : Obj :=
  [("tenant_id", tenantId), ("erp_platform", erpPlatform), ("subject", subject),
    ("filters", .obj filters), ("result_count", .int rows.length), ("payload", .arr rows),
    ("schema_version", .str q.schemaVersion), ("queried_at", .str q.clock)]

def failedPayload (tenantId erpPlatform subject : Json) (filters : Obj) (reason : String) : Obj :=
  [("tenant_id", tenantId), ("erp_platform", erpPlatform), ("subject", subject),
    ("filters", .obj filters), ("reason", .str reason), ("failed_at", .str q.clock)]

/-- The text of the `LedgerQueryError` that any other exception of the read becomes. -/
def readFailed (erpPlatform subject : Json) (text : String) : String :=
  "read of " ++ String.ofList subject.repr ++ " from " ++ erpPlatform.pyStr ++ " failed: " ++ text

/-- `query`; the error is the text of the `LedgerQueryError`. -/
def query (tenantId erpPlatform subject filters : Json) : Except String Obj :=
  match dictOf filters with
  | none => .error (readFailed erpPlatform subject "cannot convert to a dictionary")
  | some filters =>
    match q.read tenantId subject filters with
    | .error (.query text) => .error text
    | .error (.other text) => .error (readFailed erpPlatform subject text)
    | .ok rows => .ok (q.completedPayload tenantId erpPlatform subject filters rows)

/-- `failure`: filters that are no dictionary make it raise. -/
def failure (tenantId erpPlatform subject filters : Json) (reason : String) : Except PyError Obj :=
  match dictOf filters with
  | none => .error (.typeError "cannot convert to a dictionary")
  | some filters => .ok (q.failedPayload tenantId erpPlatform subject filters reason)

end LedgerQuerier

namespace LedgerQueryAgent

structure Env where
  querier : LedgerQuerier
  /-- The id that `uuid4` gives the event of the call. -/
  uuid : String
  infra : Infra := .healthy

abbrev World := CaviErp.World Unit Event

def answer (env : Env) (event : Event) (subject : String) (payload : Obj) : Event where
  subject := .str subject
  schemaVersion := .int 1
  source := "ledger"
  id := .str env.uuid
  correlationId := event.correlationId
  payload := .obj payload

variable (rt : Runtime) (env : Env)

def emit (event : Event) (subject : String) (payload : Obj) : Action World PyError Unit :=
  BaseAgent.emit rt env.infra (answer env event subject payload) (answer env event subject payload)

def handle (event : Event) : Action World PyError Unit := do
  let req := event.payload
  let subject ← Action.ofExcept (item req "subject")
  let filters ← Action.ofExcept (getItem? req "filters")
  let filters := filters.getD (.obj [])
  let tenantId ← Action.ofExcept (item req "tenant_id")
  let erpPlatform ← Action.ofExcept (item req "erp_platform")
  match env.querier.query tenantId erpPlatform subject filters with
  | .ok payload => emit rt env event "ledger.query.completed" payload
  | .error reason => do
    let payload ← Action.ofExcept (env.querier.failure tenantId erpPlatform subject filters reason)
    emit rt env event "ledger.query.failed" payload

end LedgerQueryAgent

end CaviErp
