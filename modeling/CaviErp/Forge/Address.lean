import CaviErp.Base.Registry
import CaviErp.Forge.NetSuite

/-!
# Where a write goes

The requests that the NetSuite client makes for a write, one by one, and the record each is addressed to.
`apply` and `fetch` build the url of the record from `erp_address`; what a write asks for is its own
`target_external_id` or `idempotency_key`.
-/

namespace CaviErp

open Py

namespace NetSuiteClient

variable (c : NetSuiteClient) (net : Net) (op : WriteOperation)

/-- The request by which `_sign` asks Vault for a header. -/
def signRequest (method url : String) : Request where
  method := "POST"
  url := c.vaultUrl ++ "/sign"
  headers := [("X-Cavi-Vault-Secret", .str c.vaultSecret)]
  json := some [("tenant_id", op.tenantId), ("erp_platform", op.erpPlatform),
    ("method", .str method), ("url", .str url)]

/-- The requests that `apply` makes, in order: none where it refuses the write by itself, the one to Vault,
and the PUT where Vault signs it. -/
def applyRequests : List Request :=
  match c.requireConfigured, requireCoherent op with
  | .ok _, .ok _ =>
    c.signRequest op "PUT" (c.recordUrl op) ::
      match c.putRequest net op with
      | .ok request => [request]
      | .error _ => []
  | _, _ => []

/-- `fetch`, up to the request that it sends to NetSuite. -/
def getRequest : Except String Request := do
  c.requireConfigured
  let authorization ← c.sign net op "GET" (c.recordUrl op)
  return { method := "GET", url := c.recordUrl op, headers := [("Authorization", authorization)] }

/-- What `fetch` makes of the answer to its request. -/
def currentOf : Except String Response → Except String (Option Obj)
  | .error text => .error ("netsuite fetch failed in transit: " ++ text)
  | .ok response =>
    if response.statusCode = 404 then .ok none
    else if ¬ response.success then
      .error ("netsuite fetch of " ++ op.targetModule.pyStr ++ " eid:" ++ op.erpAddress.pyStr ++
        " failed: HTTP " ++ toString response.statusCode ++ " " ++ response.errorOf)
    else
      match response.jsonOf with
      | none => .error ("netsuite fetch of " ++ op.targetModule.pyStr ++ " eid:" ++
          op.erpAddress.pyStr ++ " returned a non-JSON body")
      | some body => .ok (some body)

/-- The url of the record of the write's module under an external id. -/
def eidUrl (externalId : String) : String :=
  c.base ++ "/record/v1/" ++ op.targetModule.pyStr ++ "/eid:" ++ externalId

/-- Vault signs whatever it is asked to. -/
def Signs (net : Net) : Prop :=
  ∀ request, ∃ reply, net.vault request = .ok reply ∧ reply.statusCode = 200 ∧
    (reply.body.get "authorization_header").truthy = true

end NetSuiteClient

/-- The fields of a write are strings, as declared; the target is what `forge.write.requested.v3` admits. -/
structure WriteOperation.Textual (op : WriteOperation) : Prop where
  tenantId : ∃ s, op.tenantId = .str s
  erpPlatform : ∃ s, op.erpPlatform = .str s
  operation : ∃ s, op.operation = .str s
  targetModule : ∃ s, op.targetModule = .str s
  requestedBy : ∃ s, op.requestedBy = .str s
  diffPreview : ∃ s, op.diffPreview = .str s
  reverses : Schema.textOrNull.valid op.reverses = true
  targetExternalId : Schema.textOrNull.valid op.targetExternalId = true

namespace NetSuiteClient

/-- The operation and the target of a write fit together: an update of a record, or a create without
one. -/
def Coherent (op : WriteOperation) : Prop :=
  (op.operation = "update" ∧ op.targetExternalId ≠ .null) ∨
    (op.operation = "create" ∧ op.targetExternalId = .null)

/-- Every PUT of `apply` goes to the record that the write names, and a write that names none as it
should is refused before any request. -/
structure AddressedAsAsked (op : WriteOperation) : Prop where
  update : ∀ (c : NetSuiteClient) (net : Net) (request : Request), c.putRequest net op = .ok request →
    op.operation = "update" → request.url = c.eidUrl op op.targetExternalId.pyStr
  create : ∀ (c : NetSuiteClient) (net : Net) (request : Request), c.putRequest net op = .ok request →
    op.operation = "create" → request.url = c.eidUrl op op.idempotencyKey
  refused : ¬ Coherent op → ∀ (c : NetSuiteClient) (net : Net),
    c.applyRequests net op = [] ∧ ∃ text, c.apply net op = .error text

end NetSuiteClient

end CaviErp
