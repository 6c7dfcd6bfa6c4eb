import CaviErp.Forge.Write

/-!
# The NetSuite client

`agents/forge/netsuite.py`: the `ErpWriter` and `ErpReader` of production. Every request is signed by the
Vault service, and every write goes to the external-id endpoint of its record. `Net` holds what Vault and
NetSuite answer during one call, and which requests NetSuite carries out, whether or not its answer
arrives.
-/

namespace CaviErp

open Py

structure Request where
  method : String
  url : String
  headers : List (String × Json)
  json : Option Obj := none

/-- `httpx.Response`, as far as the client looks at it. -/
structure Response where
  statusCode : Int
  /-- `response.headers.get("Location")`. -/
  location : Option String := none
  /-- `response.json()`, where the body is JSON. -/
  json : Option Json := none
  text : String := ""

namespace Response

/-- `200 <= response.status_code < 300`. -/
def success (r : Response) : Bool := 200 ≤ r.statusCode ∧ r.statusCode < 300

def jsonOf (r : Response) : Option Obj :=
  match r.json with
  | some (.obj body) => some body
  | _ => none

/-- `text[:200]`. -/
def shortened (text : String) : String := String.ofList (text.toList.take 200)

def errorOf (r : Response) : String :=
  match r.jsonOf with
  | some (kv :: rest) =>
    let body : Obj := kv :: rest
    shortened (if (body.get "error").truthy then body.get "error"
      else if (body.get "title").truthy then body.get "title" else .obj body).pyStr
  | _ => shortened r.text

end Response

/-- A reply of the Vault service, which always has a JSON dictionary for its body. -/
structure VaultReply where
  statusCode : Int
  body : Obj
  text : String := ""

/-- A reply of Vault as the client sees it. -/
def VaultReply.response (r : VaultReply) : Response :=
  { statusCode := r.statusCode, json := some (.obj r.body), text := r.text }

/-- What the services answer during one call; an error is the text of the `httpx.HTTPError`. -/
structure Net where
  vault : Request → Except String VaultReply
  netsuite : Request → Except String Response
  /-- Whether NetSuite carries out the request. -/
  committed : Request → Bool
  /-- Success is only reported of a request that was carried out. -/
  honest : ∀ request response, netsuite request = .ok response → response.success = true →
    committed request = true

structure NetSuiteClient where
  vaultUrl : String
  vaultSecret : String
  base : String

namespace NetSuiteClient

/-- `url.rstrip("/")`. -/
def rstripSlashes (url : String) : String :=
  String.ofList (url.toList.reverse.dropWhile (· == '/')).reverse

def init (vaultUrl vaultApiSecret netsuiteRestUrl : String) : NetSuiteClient where
  vaultUrl := rstripSlashes vaultUrl
  vaultSecret := vaultApiSecret
  base := rstripSlashes netsuiteRestUrl

variable (c : NetSuiteClient) (net : Net) (op : WriteOperation)

def requireConfigured : Except String Unit :=
  let missing := [("VAULT_URL", c.vaultUrl), ("CAVI_VAULT_API_SECRET", c.vaultSecret),
    ("NETSUITE_REST_URL", c.base)].filterMap fun (name, value) => if value = "" then some name else none
  if missing.isEmpty then .ok ()
  else .error ("NetSuite client not configured (missing " ++ ", ".intercalate missing ++
    "); refusing to touch the ERP")

/-- `_sign`: the `Authorization` header that Vault gives for the request. -/
def sign (method url : String) : Except String Json :=
  match net.vault {
    method := "POST", url := c.vaultUrl ++ "/sign"
    headers := [("X-Cavi-Vault-Secret", .str c.vaultSecret)]
    json := some [("tenant_id", op.tenantId), ("erp_platform", op.erpPlatform),
      ("method", .str method), ("url", .str url)] } with
  | .error text => .error ("vault /sign unreachable: " ++ text)
  | .ok reply =>
    if reply.statusCode ≠ 200 then
      .error ("vault refused to sign " ++ method ++ " " ++ url ++ " for tenant " ++
        op.tenantId.pyStr ++ ": HTTP " ++ toString reply.statusCode ++ " " ++ reply.response.errorOf)
    else
      let header := reply.body.get "authorization_header"
      if header.truthy then .ok header
      else .error "vault /sign returned no authorization_header"

def recordUrl : String :=
  c.base ++ "/record/v1/" ++ op.targetModule.pyStr ++ "/eid:" ++ op.erpAddress.pyStr

/-- The checks of `apply` that the address fits the verb. -/
def requireCoherent : Except String Unit :=
  if op.operation ≠ "create" ∧ op.operation ≠ "update" then
    .error ("unsupported NetSuite operation " ++ String.ofList op.operation.repr ++
      "; only create/update (external-id upsert) are implemented")
  else if op.operation = "update" ∧ op.targetExternalId = .null then
    .error ("update of " ++ op.targetModule.pyStr ++ " refused: no target_external_id — " ++
      "cannot address the existing record")
  else if op.operation = "create" ∧ op.targetExternalId ≠ .null then
    .error ("create of " ++ op.targetModule.pyStr ++ " refused: target_external_id " ++
      String.ofList op.targetExternalId.repr ++ " set — a create addresses its own " ++
      "idempotency key; use operation 'update' to modify that record")
  else .ok ()

/-- `apply`, up to the request that it sends to NetSuite. -/
def putRequest : Except String Request := do
  c.requireConfigured
  requireCoherent op
  let authorization ← c.sign net op "PUT" (c.recordUrl op)
  return {
    method := "PUT", url := c.recordUrl op
    headers := [("Authorization", authorization), ("Content-Type", "application/json")]
    json := some op.payload }

def confirmation (response : Response) : Obj :=
  [("external_id", op.erpAddress), ("status_code", .int response.statusCode)] ++
    (match response.location with
      | some location => if location = "" then [] else [("location", .str location)]
      | none => []) ++
    (match response.jsonOf with
      | some body => [("record", .obj body)]
      | none => [])

def apply : Except String Obj := do
  let request ← c.putRequest net op
  match net.netsuite request with
  | .error text => .error ("netsuite upsert failed in transit: " ++ text)
  | .ok response =>
    if response.success then .ok (confirmation op response)
    else .error ("netsuite rejected " ++ op.operation.pyStr ++ " " ++ op.targetModule.pyStr ++
      " eid:" ++ op.erpAddress.pyStr ++ ": HTTP " ++ toString response.statusCode ++ " " ++
      response.errorOf)

/-- Whether the call of `apply` reaches NetSuite and is carried out there. -/
def commits : Bool :=
  match c.putRequest net op with
  | .ok request => net.committed request
  | .error _ => false

/-- `fetch`: the record that the write will touch, `none` where there is none yet. -/
def fetch : Except String (Option Obj) := do
  c.requireConfigured
  let authorization ← c.sign net op "GET" (c.recordUrl op)
  match net.netsuite {
    method := "GET", url := c.recordUrl op, headers := [("Authorization", authorization)] } with
  | .error text => .error ("netsuite fetch failed in transit: " ++ text)
  | .ok response =>
    if response.statusCode = 404 then .ok none
    else if ¬ response.success then
      .error ("netsuite fetch of " ++ op.targetModule.pyStr ++ " eid:" ++ op.erpAddress.pyStr ++
        " failed: HTTP " ++ toString response.statusCode ++ " " ++ response.errorOf)
    else
      match response.jsonOf with
      | none => .error ("netsuite fetch of " ++ op.targetModule.pyStr ++ " eid:" ++
          op.erpAddress.pyStr ++ " returned a non-JSON body")
      | some body => .ok (some body)

end NetSuiteClient

end CaviErp
