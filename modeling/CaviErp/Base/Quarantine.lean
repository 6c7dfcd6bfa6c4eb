import CaviErp.Base.Registry
import CaviErp.Lib.Action
import CaviErp.Lib.Path
import CaviErp.Lib.TextJson
import CaviErp.Shared.Deadletters

/-!
# What becomes of a message

`run`, `_dispatch` and `_dead_letter` of `agents/base/agent.py` over messages that are any strings, with the
registry of `agents/base/registry.py` over its files and the dead letters in Postgres. `Fate` says that a message
was handled or quarantined; `Digestible` is what the runtime needs to find in a message so that it can do either.
-/

namespace CaviErp

open Py

namespace BaseAgent

/-- What `validate` raises. -/
inductive Refusal where
  | schemaNotFound (text : Text)
  | validationError (text : Text)
  | raised (e : PyError)

/-- What lies under the program: the limits of the interpreter, the files, `jsonschema` with schemas `κ`, and the
server. The files do not change while an agent runs. -/
structure Host (κ : Type) where
  /-- `json.loads` gives up on a text: too many digits in a number, or containers nested too deep. -/
  loadsLimit : Text → Option PyError
  strLimit : StrLimit
  /-- `json.dumps` gives up on a value. -/
  dumpsLimit : Wide → Bool
  schemasDir : Text
  /-- `path.exists()`. -/
  pathExists : Text → Except PyError Bool
  /-- `json.loads(path.read_text())`. -/
  readSchema : Text → Except PyError κ
  /-- `jsonschema.validate`. -/
  jsonschema : κ → Wide → Except Refusal Unit
  server : Deadletters.Server

/-- The name of a schema file of the directory, without `.json`. -/
def schemaName (dir : String) (path : Text) : Option String := do
  let file ← path.dropPrefix? (Text.ofString (dir ++ "/"))
  let name ← file.dropSuffix? (Text.ofString ".json")
  Text.string? name

/-- A machine without limits, on which the files of a registry are all there is. Halves of surrogate pairs meet
no pattern, and count as one character. -/
def Host.registry (r : SchemaRegistry) (server : Deadletters.Server) : Host Schema where
  loadsLimit := fun _ => none
  strLimit := fun _ => false
  dumpsLimit := fun _ => false
  schemasDir := Text.ofString r.dir
  pathExists := fun path => .ok ((schemaName r.dir path).bind r.files).isSome
  readSchema := fun path =>
    match (schemaName r.dir path).bind r.files with
    | some schema => .ok schema
    | none => .error (.osError "No such file or directory")
  jsonschema := fun schema value =>
    if schema.valid value.blurred then .ok ()
    else .error (.validationError (Text.ofString (r.complaint schema value.blurred)))
  server := server

/-- What an agent lives in: its attributes `σ`, the dead letters, and what was published. -/
structure Desk (σ : Type) where
  self : σ
  deadletters : List DeadletterRow := []
  bus : List (String × String) := []

variable {κ σ : Type} (host : Host κ)

/-! ## The registry -/

/-- `f"{subject}.v{version}"`. -/
def schemaKey (subject version : Wide) : Except PyError Text := do
  let subject ← strOf host.strLimit subject
  let version ← strOf host.strLimit version
  return subject ++ Text.ofString ".v" ++ version

/-- `SchemaRegistry._path`. -/
def schemaPath (key : Text) : Text := ((Path.ofText host.schemasDir).join (key ++ Text.ofString ".json")).text

/-- `SchemaRegistry.get`. -/
def getSchema (subject version : Wide) : Except Refusal κ := do
  let key ← (schemaKey host subject version).mapError .raised
  let found ← (host.pathExists (schemaPath host key)).mapError .raised
  if found then (host.readSchema (schemaPath host key)).mapError .raised
  else .error (.schemaNotFound
    (Text.ofString "No schema registered for " ++ key ++ Text.ofString " at " ++ schemaPath host key))

/-- `SchemaRegistry.validate`. -/
def validateText (subject version payload : Wide) : Except Refusal Unit := do
  let schema ← getSchema host subject version
  host.jsonschema schema payload

/-- `validate`, with the text of what `except (SchemaNotFound, ValidationError)` catches. -/
def checked (subject version payload : Wide) : Except PyError (Option Text) :=
  match validateText host subject version payload with
  | .ok _ => .ok none
  | .error (.schemaNotFound text) => .ok (some text)
  | .error (.validationError text) => .ok (some text)
  | .error (.raised e) => .error e

/-! ## The loop -/

/-- `json.dumps(value)`. -/
def dumpsText (value : Wide) : Except PyError String :=
  if host.dumpsLimit value then .error .recursionError else .ok value.dumps

/-- `metrics.REGISTRY.inc`: the subject is part of a key. -/
def count (subject : Wide) : Action (Desk σ) PyError Unit :=
  if subject.hashable then pure () else Action.raise (.typeError "unhashable type")

/-- The envelope of a dead letter. -/
def textEnvelope (event : TextEvent) (error : Text) : WideObj :=
  event.toDict ++ [(Text.ofString "error", .str error)]

/-- `self.event_store.record_deadletter(envelope)`. -/
def recordLetter (envelope : WideObj) : Action (Desk σ) PyError Unit := do
  let w ← Action.read
  let table ← Action.ofExcept (Deadletters.recordDeadletter host.server host.strLimit w.deadletters envelope)
  Action.modify fun w => { w with deadletters := table }

/-- `self.bus.publish(channel, data)`: the channel is encoded. -/
def publishText (channel : Text) (data : String) : Action (Desk σ) PyError Unit := do
  let channel ← Action.ofExcept (encoded channel)
  Action.modify fun w => { w with bus := w.bus ++ [(channel, data)] }

/-- `_dead_letter`. An envelope that fails its own contract is only logged. -/
def deadLetterText (event : TextEvent) (error : Text) : Action (Desk σ) PyError Unit := do
  let _ ← Action.ofExcept
    (checked host (.str (Text.ofString "deadletter.envelope")) (.int 1) (.obj (textEnvelope event error)))
  recordLetter host (textEnvelope event error)
  let subject ← Action.ofExcept (strOf host.strLimit event.subject)
  let data ← Action.ofExcept (dumpsText host (.obj (textEnvelope event error)))
  publishText (Text.ofString "deadletter." ++ subject) data
  count event.subject

variable (handle : TextEvent → Action (Desk σ) PyError Unit)

/-- `_dispatch`. -/
def dispatchText (event : TextEvent) : Action (Desk σ) PyError Unit := do
  let complaint ← Action.ofExcept (checked host event.subject event.schemaVersion event.payload)
  match complaint with
  | some error => deadLetterText host event error
  | none => do
    count event.subject
    handle event

/-- `json.loads(data)`. -/
def loadsText (data : Text) : Except PyError Wide :=
  match host.loadsLimit data with
  | some e => .error e
  | none =>
    match data.loads with
    | some value => .ok value
    | none => .error .jsonDecodeError

/-- `Event.from_dict(json.loads(data))`. -/
def decodeText (data : Text) : Except PyError TextEvent := do
  let value ← loadsText host data
  TextEvent.fromDict value

/-- The body of the loop of `run`, of a message of type `"message"`. -/
def onText (data : Text) : Action (Desk σ) PyError Unit := do
  let event ← Action.ofExcept (decodeText host data)
  dispatchText host handle event

/-- `run`, over the messages that arrive. -/
def runTexts (data : List Text) : Action (Desk σ) PyError Unit := Action.forEach (onText host handle) data

/-! ## What is expected of it -/

/-- The message met its contract and was passed to `handle`, or it did not, and is recorded and published on a
dead-letter channel. -/
inductive Fate (data : Text) (w : Desk σ) : Desk σ → Prop
  | handled {event : TextEvent} (hdecode : decodeText host data = .ok event)
    (hmet : checked host event.subject event.schemaVersion event.payload = .ok none) :
    Fate data w (handle event w).2
  | quarantined {event : TextEvent} {error : Text} {w' : Desk σ} (hdecode : decodeText host data = .ok event)
    (hfailed : checked host event.subject event.schemaVersion event.payload = .ok (some error))
    (hrecorded : ∃ row ∈ w'.deadletters, row.raw = textEnvelope event error ∧
      Deadletters.asUuidOf host.strLimit event.id = .ok (some row.id))
    (hpublished : ∃ channel, w'.bus =
      w.bus ++ [("deadletter." ++ channel, (Wide.obj (textEnvelope event error)).dumps)])
    (hself : w'.self = w.self) : Fate data w w'

/-- The run returns, and each of the messages met its fate. -/
def KeepsFlowing (data : List Text) (w : Desk σ) : Prop :=
  (runTexts host handle data w).1 = .ok () ∧
    Action.Along (onText host handle) (fun d w => Fate host handle d w (onText host handle d w).2) w data

/-- No other dead letter has the id. -/
def FreeFor (u : Uuid) (envelope : WideObj) (w : Desk σ) : Prop :=
  (∀ row ∈ w.deadletters, row.id ≠ u) ∨ ∃ row ∈ w.deadletters, row.id = u ∧ row.raw = envelope

/-- The dead letter of the event is taken by the columns of `event_deadletter`, under an id that is no other's,
and by the bus. -/
structure Quarantinable (w : Desk σ) (event : TextEvent) (error : Text) : Prop where
  contract : ∃ complaint, checked host (.str (Text.ofString "deadletter.envelope")) (.int 1)
    (.obj (textEnvelope event error)) = .ok complaint
  id : ∃ u, Deadletters.asUuidOf host.strLimit event.id = .ok (some u) ∧ FreeFor u (textEnvelope event error) w
  subject : ∃ s, Deadletters.column host.server event.subject = some s
  source : ∃ s, Deadletters.column host.server event.source = some s
  text : ∃ s, host.server.text (.str error) = some s
  raw : host.server.jsonb (textEnvelope event error) = true
  channel : Printable host.strLimit event.subject
  data : host.dumpsLimit (.obj (textEnvelope event error)) = false

/-- The text is JSON of a dictionary with the fields of an envelope, whose subject has a hash; its contract can be
looked up; and unless the payload meets it, the dead letter can be recorded and published. -/
def Digestible (data : Text) (w : Desk σ) : Prop :=
  ∃ event complaint, decodeText host data = .ok event ∧ event.subject.hashable = true ∧
    checked host event.subject event.schemaVersion event.payload = .ok complaint ∧
    ∀ error, complaint = some error → Quarantinable host w event error

end BaseAgent

end CaviErp
