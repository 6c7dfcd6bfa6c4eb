import CaviErp.Base.Contract
import CaviErp.Lib.Text

/-!
# The envelope, with any strings

The `Event` of `agents/base/contract.py` as it is read of a message: what `json.loads` returns may have halves of
surrogate pairs in its strings. Those without are the `Event`s.
-/

namespace CaviErp

open Py

/-! ## Strings that are encoded -/

/-- The string has an encoding as UTF-8. -/
def Encodable (t : Text) : Prop := ∃ s : String, t = Text.ofString s

/-- What a string is encoded from. -/
def encoded (t : Text) : Except PyError String :=
  match t.string? with
  | some s => .ok s
  | none => .error .unicodeEncodeError

/-- `str()` gives up on values whose containers are nested too deep. -/
abbrev StrLimit := Wide → Bool

/-- `str(value)`. -/
def strOf (limit : StrLimit) (value : Wide) : Except PyError Text :=
  match value with
  | .str t => .ok t
  | value => if limit value then .error .recursionError else .ok value.pyStr

/-- `str()` makes a string of the value that can be encoded. -/
def Printable (limit : StrLimit) (value : Wide) : Prop :=
  match value with
  | .str t => Encodable t
  | value => limit value = false

/-! ## Events -/

/-- `data[key]`. -/
def itemOf (data : Wide) (key : String) : Except PyError Wide :=
  match data with
  | .obj o =>
    match WideObj.get? o key with
    | some v => .ok v
    | none => .error (.keyError key)
  | _ => .error (.typeError "indices must be integers")

/-- `data.get(key)`. -/
def getOf (data : Wide) (key : String) : Except PyError Wide :=
  match data with
  | .obj o => .ok (WideObj.get o key)
  | _ => .error (.attributeError "no attribute 'get'")

/-- An `Event` with any strings. -/
structure TextEvent where
  subject : Wide
  schemaVersion : Wide
  source : Wide
  payload : Wide
  id : Wide
  correlationId : Wide
  tenantId : Wide

namespace TextEvent

def toDict (e : TextEvent) : WideObj :=
  [(Text.ofString "id", e.id), (Text.ofString "subject", e.subject),
    (Text.ofString "schema_version", e.schemaVersion), (Text.ofString "source", e.source),
    (Text.ofString "correlation_id", e.correlationId), (Text.ofString "tenant_id", e.tenantId),
    (Text.ofString "payload", e.payload)]

/-- `from_dict`. -/
def fromDict (data : Wide) : Except PyError TextEvent := do
  let id ← itemOf data "id"
  let subject ← itemOf data "subject"
  let schemaVersion ← itemOf data "schema_version"
  let source ← itemOf data "source"
  let correlationId ← getOf data "correlation_id"
  let tenantId ← getOf data "tenant_id"
  let payload ← itemOf data "payload"
  return { id, subject, schemaVersion, source, payload, correlationId, tenantId }

/-- The event as one with any strings. -/
def ofEvent (e : Event) : TextEvent where
  subject := .ofJson e.subject
  schemaVersion := .ofJson e.schemaVersion
  source := .ofJson e.source
  payload := .ofJson e.payload
  id := .ofJson e.id
  correlationId := .ofJson e.correlationId
  tenantId := .ofJson e.tenantId

end TextEvent

end CaviErp
