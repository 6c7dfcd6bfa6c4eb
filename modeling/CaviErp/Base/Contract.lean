import CaviErp.Lib.Json

/-!
# The event envelope

`agents/base/contract.py`, and the exceptions the agents raise and catch. The fields of an `Event` are
Python values: `from_dict` takes them from a decoded message as they are, so each is a `Json`.
-/

namespace CaviErp

open Py

/-- The exceptions that matter to the program, with their text. -/
inductive PyError where
  | keyError (key : String)
  | typeError (text : String)
  | attributeError (text : String)
  | valueError (text : String)
  | jsonDecodeError
  | schemaNotFound (text : String)
  | validationError (text : String)
  | invalidTransition (text : String)
  | erpWriteError (text : String)
  | breakerOpen (text : String)
  | ledgerError (text : String)
  | unbalancedEntry (text : String)
  | storeError (text : String)
  | busError (text : String)
  /-- A string with half of a surrogate pair is to be encoded. -/
  | unicodeEncodeError
  | recursionError
  | osError (text : String)
deriving DecidableEq, Repr

namespace PyError

/-- `str(exc)`. -/
def text : PyError → String
  | keyError k => String.ofList (Json.reprStr k)
  | typeError t => t
  | attributeError t => t
  | valueError t => t
  | jsonDecodeError => "Expecting value"
  | schemaNotFound t => t
  | validationError t => t
  | invalidTransition t => t
  | erpWriteError t => t
  | breakerOpen t => t
  | ledgerError t => t
  | unbalancedEntry t => t
  | storeError t => t
  | busError t => t
  | unicodeEncodeError => "surrogates not allowed"
  | recursionError => "maximum recursion depth exceeded"
  | osError t => t

/-- Caught by `except (SchemaNotFound, ValidationError)`. -/
def isContractFailure : PyError → Bool
  | schemaNotFound _ => true
  | validationError _ => true
  | _ => false

/-- Caught by `except ErpWriteError`, of which `BreakerOpen` is a subclass. -/
def isErpWriteError : PyError → Bool
  | erpWriteError _ => true
  | breakerOpen _ => true
  | _ => false

/-- Caught by `except InvalidTransition`. -/
def isInvalidTransition : PyError → Bool
  | invalidTransition _ => true
  | _ => false

end PyError

/-- A sequence that returned: its first part returned, and so did the rest. -/
theorem bind_eq_ok {ε α β : Type} {x : Except ε α} {f : α → Except ε β} {b : β}
    (h : (x >>= f) = .ok b) : ∃ a, x = .ok a ∧ f a = .ok b := by
  cases x with
  | error e => cases h
  | ok a => exact ⟨a, rfl, h⟩

/-- `data[key]`. -/
def item (data : Json) (key : String) : Except PyError Json :=
  match data with
  | .obj o =>
    match Obj.get? o key with
    | some v => .ok v
    | none => .error (.keyError key)
  | _ => .error (.typeError "indices must be integers")

/-- `data.get(key)`, absence told apart from `None`. -/
def getItem? (data : Json) (key : String) : Except PyError (Option Json) :=
  match data with
  | .obj o => .ok (Obj.get? o key)
  | _ => .error (.attributeError "no attribute 'get'")

/-- The envelope every agent speaks. -/
structure Event where
  subject : Json
  schemaVersion : Json
  source : Json
  payload : Json
  id : Json
  correlationId : Json := .null
  tenantId : Json := .null
deriving DecidableEq, Repr

namespace Event

def toDict (e : Event) : Obj :=
  [("id", e.id), ("subject", e.subject), ("schema_version", e.schemaVersion),
    ("source", e.source), ("correlation_id", e.correlationId), ("tenant_id", e.tenantId),
    ("payload", e.payload)]

/-- `from_dict`: `correlation_id` and `tenant_id` default to `None`, the other fields must be there. -/
def fromDict (data : Json) : Except PyError Event := do
  let id ← item data "id"
  let subject ← item data "subject"
  let schemaVersion ← item data "schema_version"
  let source ← item data "source"
  let correlationId ← getItem? data "correlation_id"
  let tenantId ← getItem? data "tenant_id"
  let payload ← item data "payload"
  return {
    id, subject, schemaVersion, source, payload
    correlationId := correlationId.getD .null
    tenantId := tenantId.getD .null }

end Event

end CaviErp
