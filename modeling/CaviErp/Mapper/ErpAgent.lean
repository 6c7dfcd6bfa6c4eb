import CaviErp.Base.Agent
import CaviErp.Mapper.Erp

/-!
# The agent that transforms ERP records

`agents/mapper/erp_agent.py`. The trace of the agent lists the events it emitted.
-/

namespace CaviErp

open Py

/-- `register_netsuite_mappings`. -/
def registerNetsuiteMappings (t : ErpTransformer) : ErpTransformer :=
  netsuiteRecordMappings.foldl (fun t m =>
    t.register m.sourceSchema m.targetSchema fun record =>
      (m.apply record).mapError ErpTransformError.text) t

namespace ErpMapperAgent

structure Env where
  /-- The reading of the transformer's clock. -/
  now : String
  /-- The id that `uuid4` gives the emitted event. -/
  uuid : String
  infra : Infra := .healthy

abbrev World := CaviErp.World Unit Event

def subjects : List String := ["mapper.erp.transform"]

def answer (env : Env) (event : Event) (subject : String) (payload : Obj) : Event where
  subject := .str subject
  schemaVersion := .int 1
  source := "mapper"
  id := .str env.uuid
  correlationId := event.correlationId
  payload := .obj payload

variable (rt : Runtime) (t : ErpTransformer) (env : Env)

def emit (event : Event) (subject : String) (payload : Obj) : Action World PyError Unit :=
  BaseAgent.emit rt env.infra (answer env event subject payload) (answer env event subject payload)

def handle (event : Event) : Action World PyError Unit := do
  let req := event.payload
  let tenantId ← Action.ofExcept (item req "tenant_id")
  let sourceErp ← Action.ofExcept (item req "source_erp")
  let sourceSchema ← Action.ofExcept (item req "source_schema")
  let targetSchema ← Action.ofExcept (item req "target_schema")
  let record ← Action.ofExcept (item req "record")
  let outcome ← Action.ofExcept
    (t.transform rt.sha256 tenantId sourceErp sourceSchema targetSchema record env.now)
  match outcome with
  | .ok payload => emit rt env event "mapper.transform.completed" payload
  | .error reason =>
    emit rt env event "mapper.transform.failed"
      (ErpTransformer.failure tenantId sourceErp sourceSchema reason env.now)

end ErpMapperAgent

end CaviErp
