import CaviErp.Forge.Address
import CaviErp.Lib.Action

/-!
# The NetSuite client on the wire

`apply` and `fetch` of `agents/forge/netsuite.py` over the transport that is injected, request by request:
any status, headers and body may come back from either service. The world is the log of the requests
made. The client of `Forge/NetSuite.lean` is what becomes of it where Vault answers as its service does.
-/

namespace CaviErp

open Py

/-- A `Requester`. -/
structure Transport where
  /-- What it raises, besides `httpx.HTTPError`, for a request that it cannot make, such as one with a
  header that is no text. -/
  refuses : Request → Option PyError
  refuses_ne : ∀ request e, refuses request = some e → ∀ text, e ≠ .erpWriteError text
  /-- What it answers after the given requests; an error is the text of the `httpx.HTTPError`. -/
  send : List Request → Request → Except String Response

namespace NetSuiteClient

/-- What `apply` makes of the answer to its request. -/
def confirmationOf (op : WriteOperation) : Except String Response → Except String Obj
  | .error text => .error ("netsuite upsert failed in transit: " ++ text)
  | .ok response =>
    if response.success then .ok (confirmation op response)
    else .error ("netsuite rejected " ++ op.operation.pyStr ++ " " ++ op.targetModule.pyStr ++
      " eid:" ++ op.erpAddress.pyStr ++ ": HTTP " ++ toString response.statusCode ++ " " ++
      response.errorOf)

/-- The upsert, with the header that Vault gave. -/
def upsertRequest (c : NetSuiteClient) (op : WriteOperation) (authorization : Json) : Request where
  method := "PUT"
  url := c.recordUrl op
  headers := [("Authorization", authorization), ("Content-Type", "application/json")]
  json := some op.payload

/-- The reading of the record, with the header that Vault gave. -/
def readRequest (c : NetSuiteClient) (op : WriteOperation) (authorization : Json) : Request where
  method := "GET"
  url := c.recordUrl op
  headers := [("Authorization", authorization)]

end NetSuiteClient

namespace Transport

variable (t : Transport) (c : NetSuiteClient) (op : WriteOperation)

/-- `self._request(..)`, in a `try` whose `except httpx.HTTPError` looks at the outcome. -/
def request (r : Request) : Action (List Request) PyError (Except String Response) := fun log =>
  match t.refuses r with
  | some e => (.error e, log)
  | none => (.ok (t.send log r), log ++ [r])

/-- Return the value, or `raise ErpWriteError(text)`. -/
def orErpWriteError {α : Type} (r : Except String α) : Action (List Request) PyError α :=
  Action.ofExcept (r.mapError .erpWriteError)

/-- What `_sign` makes of Vault's answer. The body is read as JSON only after the status, and unguarded. -/
def authorizationOf (method url : String) : Except String Response → Except PyError Json
  | .error text => .error (.erpWriteError ("vault /sign unreachable: " ++ text))
  | .ok response =>
    if response.statusCode ≠ 200 then
      .error (.erpWriteError ("vault refused to sign " ++ method ++ " " ++ url ++ " for tenant " ++
        op.tenantId.pyStr ++ ": HTTP " ++ toString response.statusCode ++ " " ++ response.errorOf))
    else
      match response.json with
      | none => .error .jsonDecodeError
      | some (.obj body) =>
        if (Obj.get body "authorization_header").truthy then .ok (Obj.get body "authorization_header")
        else .error (.erpWriteError "vault /sign returned no authorization_header")
      | some _ => .error (.attributeError "no attribute 'get'")

def sign (method url : String) : Action (List Request) PyError Json := do
  let answer ← t.request (c.signRequest op method url)
  Action.ofExcept (authorizationOf op method url answer)

def apply : Action (List Request) PyError Obj := do
  orErpWriteError c.requireConfigured
  orErpWriteError (NetSuiteClient.requireCoherent op)
  let authorization ← t.sign c op "PUT" (c.recordUrl op)
  let answer ← t.request (c.upsertRequest op authorization)
  orErpWriteError (NetSuiteClient.confirmationOf op answer)

def fetch : Action (List Request) PyError (Option Obj) := do
  orErpWriteError c.requireConfigured
  let authorization ← t.sign c op "GET" (c.recordUrl op)
  let answer ← t.request (c.readRequest op authorization)
  orErpWriteError (NetSuiteClient.currentOf op answer)

end Transport

/-! ## What a call may send -/

/-- All three settings are there. -/
def NetSuiteClient.Configured (c : NetSuiteClient) : Prop :=
  c.vaultUrl ≠ "" ∧ c.vaultSecret ≠ "" ∧ c.base ≠ ""

/-- A request to Vault to sign a request of the given method and url for the operation. -/
structure Request.AsksToSign (r : Request) (c : NetSuiteClient) (op : WriteOperation)
    (method url : String) : Prop where
  isPost : r.method = "POST"
  toVault : r.url = c.vaultUrl ++ "/sign"
  names : r.json = some [("tenant_id", op.tenantId), ("erp_platform", op.erpPlatform),
    ("method", .str method), ("url", .str url)]

/-- Vault signed: its answer has status 200 and the header. -/
def Response.Grants (response : Response) (authorization : Json) : Prop :=
  response.statusCode = 200 ∧ authorization.truthy = true ∧
    ∃ body, response.json = some (.obj body) ∧ Obj.get body "authorization_header" = authorization

namespace Transport

variable (t : Transport) (c : NetSuiteClient) (op : WriteOperation)

/-- The requests of a call after those in `log`: none; the one to Vault; or that and the one it has
signed, under the given condition, with the header Vault gave. -/
def Sends (method : String) (allowed : Prop) (log made : List Request) : Prop :=
  made = [] ∨ ∃ sign, sign.AsksToSign c op method (c.recordUrl op) ∧ c.Configured ∧
    (made = [sign] ∨ ∃ request response authorization, made = [sign, request] ∧ allowed ∧
      request.method = method ∧ request.url = c.recordUrl op ∧
      t.send log sign = .ok response ∧ response.Grants authorization ∧
      request.headers.lookup "Authorization" = some authorization)

/-- The last request of a call, and the answer to it. -/
def Answered (log made : List Request) (method : String) (response : Response) : Prop :=
  ∃ sign request, made = [sign, request] ∧ request.method = method ∧
    t.send (log ++ [sign]) request = .ok response

/-- Nothing but an `ErpWriteError` is raised. -/
def FailsClosed {α : Type} (r : Except PyError α) : Prop :=
  ∀ e, r = .error e → ∃ text, e = .erpWriteError text

/-- The transport can ask Vault, whose answer with status 200 is a JSON object; a header in it is one
with which the transport can make the request. -/
def Readable (method : String) (signed : Json → Request) (log : List Request) : Prop :=
  t.refuses (c.signRequest op method (c.recordUrl op)) = none ∧
    ∀ response, t.send log (c.signRequest op method (c.recordUrl op)) = .ok response →
      response.statusCode = 200 → ∃ body, response.json = some (.obj body) ∧
        ((Obj.get body "authorization_header").truthy = true →
          t.refuses (signed (Obj.get body "authorization_header")) = none)

/-- The transport on which Vault and NetSuite answer as in `net`. -/
def ofNet (net : Net) : Transport where
  refuses _ := none
  refuses_ne _ _ h := nomatch h
  send _ r := if r.method = "POST" then (net.vault r).map VaultReply.response else net.netsuite r

end Transport

end CaviErp
