import CaviErp.Base.Agent
import CaviErp.Ledger.Ledger
import CaviErp.Mapper.Mapper

/-!
# The mapper agent

`agents/mapper/agent.py`: re-emits a coerced payload on its subject at the target version. The agent
keeps nothing but its mapper, so its attributes do not change; its trace lists the events it emitted.
-/

namespace CaviErp

open Py

namespace MapperAgent

structure Env where
  /-- The id that `uuid4` gives the emitted event. -/
  uuid : String
  infra : Infra := .healthy

abbrev World := CaviErp.World Unit Event

/-- `MapperAgent()`: the built-in transforms, and the registry every agent has. -/
def mapper (rt : Runtime) : Mapper := registerAll { registry := rt.registry }

/-- The event that carries a coerced payload. -/
def coerced (env : Env) (event : Event) (subject : Json) (toVersion : Int) (payload : Obj) :
    Event where
  subject := subject
  schemaVersion := .int toVersion
  source := "mapper"
  id := .str env.uuid
  correlationId := event.correlationId
  payload := .obj payload

variable (rt : Runtime) (env : Env)

def handle (m : Mapper) (event : Event) : Action World PyError Unit := do
  let req := event.payload
  let subject ← Action.ofExcept (item req "subject")
  let fromVersion ← Action.ofExcept (item req "from_version" >>= asInt)
  let toVersion ← Action.ofExcept (item req "to_version" >>= asInt)
  let payload ← Action.ofExcept (item req "payload")
  match m.transform subject fromVersion toVersion payload with
  | .error (.noTransformPath _) => pure ()
  | .error (.raised e) => Action.raise e
  | .ok result =>
    let event := coerced env event subject toVersion result
    BaseAgent.emit rt env.infra event event

def dispatch (m : Mapper) (event : Event) : Action World PyError Unit :=
  BaseAgent.dispatch rt env.infra (handle rt env m) event

end MapperAgent

end CaviErp
