import CaviErp.Base.Agent
import CaviErp.Vault.Vault

/-!
# Webhooks

`agents/ticker/webhook.py` and `webhook_agent.py`: what an ERP posts is classified, routed and passed on with
its raw payload. The trace of the agent lists the events it emitted.
-/

namespace CaviErp

open Py

/-- `DEFAULT_ROUTES`. -/
def defaultWebhookRoutes : List (String × String) :=
  [("invoice.paid", "ledger.query"), ("invoice.updated", "mapper.transform"),
    ("salesorder.created", "forge.write.propose")]

/-- `DEFAULT_TYPE_KEYS`. -/
def defaultTypeKeys : List String := ["event_type", "type", "kind"]

/-- What `ingest` raises: `MalformedWebhook`, or another exception. -/
inductive WebhookError where
  | malformed (text : String)
  | raised (e : PyError)
deriving DecidableEq, Repr

/-- `str(keys)` of a tuple of strings. -/
def tupleText : List String → String
  | [key] => "(" ++ String.ofList (Json.reprStr key) ++ ",)"
  | keys => "(" ++ ", ".intercalate (keys.map fun key => String.ofList (Json.reprStr key)) ++ ")"

/-- `isinstance(value, str) and value.strip()`. -/
def namesType : Json → Option String
  | .str s => if strip s = "" then none else some s
  | _ => none

/-- `event_type_of`: the first of the keys that holds a string that is not blank. -/
def eventTypeOf (keys : List String) (rawPayload : Json) : Except WebhookError String :=
  match rawPayload with
  | .obj raw =>
    match keys.findSome? fun key => namesType (Obj.get raw key) with
    | some value => .ok value
    | none => .error (.malformed ("webhook has no event type in any of " ++ tupleText keys))
  | _ =>
    -- without keys, nothing is asked of the payload
    if keys.isEmpty then .error (.malformed ("webhook has no event type in any of " ++ tupleText keys))
    else .error (.raised (.attributeError "no attribute 'get'"))

/-- `WebhookIngestor`. -/
structure WebhookIngestor where
  routes : List (String × String) := defaultWebhookRoutes
  fallback : String := "ticker.unrouted"
  typeKeys : List String := defaultTypeKeys
  /-- `__init__` refuses an empty fallback. -/
  fallback_ne : fallback ≠ "" := by decide

namespace WebhookIngestor

def init (routes : List (String × String)) (fallback : String) (typeKeys : List String) :
    Except PyError WebhookIngestor :=
  if h : fallback = "" then .error (.valueError "fallback route must be a non-empty subject")
  else .ok { routes, fallback, typeKeys, fallback_ne := h }

variable (g : WebhookIngestor)

def routeFor (eventType : String) : String := (g.routes.lookup eventType).getD g.fallback

/-- `ingest`, at the time the clock reads. -/
def ingest (clock : String) (tenantId erpPlatform rawPayload : Json) : Except WebhookError Obj := do
  let eventType ← eventTypeOf g.typeKeys rawPayload
  return [("tenant_id", tenantId), ("erp_platform", erpPlatform), ("event_type", .str eventType),
    ("raw_payload", rawPayload), ("received_at", .str clock), ("routed_to", .str (g.routeFor eventType))]

end WebhookIngestor

namespace TickerWebhookAgent

structure Env where
  /-- The reading of the ingestor's clock. -/
  clock : String
  /-- The id that `uuid4` gives the emitted event. -/
  uuid : String
  infra : Infra := .healthy

abbrev World := CaviErp.World Unit Event

def subjects : List String := ["ticker.webhook"]

def received (env : Env) (event : Event) (payload : Obj) : Event where
  subject := "ticker.event.received"
  schemaVersion := .int 1
  source := "ticker"
  id := .str env.uuid
  correlationId := event.correlationId
  payload := .obj payload

variable (rt : Runtime) (g : WebhookIngestor) (env : Env)

/-- `handle`: a webhook that cannot be classified is only logged. -/
def handle (event : Event) : Action World PyError Unit := do
  let req := event.payload
  let tenantId ← Action.ofExcept (item req "tenant_id")
  let erpPlatform ← Action.ofExcept (item req "erp_platform")
  let rawPayload ← Action.ofExcept (item req "raw_payload")
  match g.ingest env.clock tenantId erpPlatform rawPayload with
  | .error (.malformed _) => pure ()
  | .error (.raised e) => Action.raise e
  | .ok payload =>
    BaseAgent.emit rt env.infra (received env event payload) (received env event payload)

end TickerWebhookAgent

end CaviErp
