import CaviErp.Lib.Action
import CaviErp.Lib.JsonText
import CaviErp.Base.Registry
import CaviErp.Shared.Events

/-!
# The runtime every agent inherits

`agents/base/agent.py`. An agent lives in a `World`: its own attributes, the event store, the messages
it has published, and a `trace` of its observable steps in order. The trace is never read by the code;
whoever records an event says what the event is about, so that properties of whole histories can be
stated even where the payload does not name its subject matter.

Logging and metrics have no effect on any of these and are left out.
-/

namespace CaviErp

open Py

/-- What an agent lives in; `σ` holds the attributes of the subclass, `ω` its observable steps. -/
structure World (σ ω : Type) where
  self : σ
  store : EventStore := {}
  /-- What was published, as channel and text, oldest first. -/
  bus : List (String × String) := []
  trace : List ω := []

/-- What an agent is built with. -/
structure Runtime where
  registry : SchemaRegistry
  sha256 : String → String

/-- An agent over the repository's schemas. -/
def Runtime.repository (dir : String) (complaint : Schema → Json → String)
    (sha256 : String → String) : Runtime :=
  ⟨.repository dir complaint, sha256⟩

/-- How the store and the bus answer during one call: each operation may raise, with the given text. -/
structure Infra where
  recordEvent : Event → Option String := fun _ => none
  recordDeadletter : Obj → Option String := fun _ => none
  publish : String → String → Option String := fun _ _ => none

/-- Store and bus that do not fail. -/
def Infra.healthy : Infra := {}

/-- A procedure on the attributes of the subclass. -/
def onSelf {σ ω α : Type} (x : Action σ PyError α) : Action (World σ ω) PyError α := fun w =>
  ((x w.self).1, { w with self := (x w.self).2 })

@[simp] theorem onSelf_apply {σ ω α : Type} (x : Action σ PyError α) (w : World σ ω) :
    onSelf x w = ((x w.self).1, { w with self := (x w.self).2 }) := rfl

namespace BaseAgent

variable {σ ω : Type} (rt : Runtime) (infra : Infra)

/-- `self.event_store.record_event(event)`; `note` enters the trace once the event is recorded. -/
def recordEvent (note : ω) (event : Event) : Action (World σ ω) PyError Unit := do
  Action.raiseIf ((infra.recordEvent event).map .storeError)
  Action.modify fun w =>
    { w with store := w.store.recordEvent rt.sha256 event, trace := w.trace ++ [note] }

def publish (channel data : String) : Action (World σ ω) PyError Unit := do
  Action.raiseIf ((infra.publish channel data).map .busError)
  Action.modify fun w => { w with bus := w.bus ++ [(channel, data)] }

/-- `emit`: validate, durably record, then publish. -/
def emit (note : ω) (event : Event) : Action (World σ ω) PyError Unit := do
  Action.ofExcept (rt.registry.validate event.subject event.schemaVersion event.payload)
  recordEvent rt infra note event
  publish infra event.subject.pyStr (dumps .default (.obj event.toDict))

/-- The envelope of a dead letter. -/
def envelope (event : Event) (error : String) : Obj := event.toDict ++ [("error", .str error)]

/-- `_dead_letter`. An envelope that fails its own contract is only logged, so the outcome of that
validation is not looked at. -/
def deadLetter (event : Event) (error : String) : Action (World σ ω) PyError Unit := do
  let _ ← Action.attempt
    (Action.ofExcept (rt.registry.validate "deadletter.envelope" (.int 1) (.obj (envelope event error))))
  Action.raiseIf ((infra.recordDeadletter (envelope event error)).map .storeError)
  Action.modify fun w => { w with store := w.store.recordDeadletter (envelope event error) }
  publish infra ("deadletter." ++ event.subject.pyStr) (dumps .default (.obj (envelope event error)))

/-- `_dispatch`: an event that fails its contract is quarantined, any other is handled. -/
def dispatch (handle : Event → Action (World σ ω) PyError Unit) (event : Event) :
    Action (World σ ω) PyError Unit :=
  match rt.registry.validate event.subject event.schemaVersion event.payload with
  | .error e => if e.isContractFailure then deadLetter rt infra event e.text else Action.raise e
  | .ok _ => handle event

/-- `Event.from_dict(json.loads(data))`. -/
def decode (data : String) : Except PyError Event :=
  match loads data with
  | none => .error .jsonDecodeError
  | some j => Event.fromDict j

end BaseAgent

/-- A message of a pub/sub subscription. -/
structure Message where
  /-- `message["type"]`: `"message"` for data, else a confirmation of the subscription itself. -/
  type : String := "message"
  data : String

/-- The message of a dictionary that is published. -/
def Message.ofDict (o : Obj) : Message := { data := dumps .default (.obj o) }

namespace BaseAgent

variable {σ ω : Type} (rt : Runtime) (infra : Infra)

/-- The body of the loop of `run`. -/
def onMessage (handle : Event → Action (World σ ω) PyError Unit) (m : Message) :
    Action (World σ ω) PyError Unit :=
  if m.type ≠ "message" then pure ()
  else do
    let event ← Action.ofExcept (decode m.data)
    dispatch rt infra handle event

/-- `run`, over the messages that arrive. Each comes with the inputs `η` of its own call: how store
and bus answer meanwhile (`infraOf`), and whatever else `handle` takes from outside. -/
def run {η : Type} (infraOf : η → Infra) (handle : η → Event → Action (World σ ω) PyError Unit)
    (messages : List (η × Message)) : Action (World σ ω) PyError Unit :=
  Action.forEach (fun m => onMessage rt (infraOf m.1) (handle m.1) m.2) messages

end BaseAgent

end CaviErp
