import CaviErp.Vault.Agent
import CaviErp.Lib.Unwinding

/-!
# Vault as its callers see it

`agents/vault/service.py`, the request logic over a Vault, and the operations by which a Vault is driven:
the lifecycle of credentials, the service, the agent on the bus, and the library. Each answers its caller;
the secrets that are stored in between stay in the signers of the tokens.
-/

namespace CaviErp

open Py

/-- A status and a body. -/
structure ReplyOf (α : Type) where
  status : Nat
  body : List (String × α)

abbrev Reply := ReplyOf Json

def ReplyOf.map {α β : Type} (f : α → β) (reply : ReplyOf α) : ReplyOf β :=
  ⟨reply.status, reply.body.map fun kv => (kv.1, f kv.2)⟩

namespace VaultService

/-- `isinstance(value, str) and value`. -/
def isNonemptyStr : Json → Bool
  | .str s => s ≠ ""
  | _ => false

section

variable {τ σ α : Type} (ofName : τ → α) (ofJson : Json → α)

/-- The attributes of a token that are no secrets. -/
def vendedBody (token : TokenOf τ) : List (String × α) :=
  [("tenant_id", ofName token.tenantId), ("erp_platform", ofJson (.str token.erpPlatform)),
    ("realm", ofJson (.str token.realm)), ("consumer_key", ofJson token.consumerKey),
    ("token_id", ofJson token.tokenId), ("scopes", ofJson (.arr (token.scopes.map Json.str))),
    ("signature_method", ofJson (.str token.signatureMethod)),
    ("expires_at", ofJson (.float (.finite token.expiresAt)))]

/-- The reply to a `VaultError`; what is none is raised. -/
def refusal : VaultError → Except PyError (ReplyOf α)
  | .credentialNotFound text => .ok ⟨404, [("error", ofJson (.str text))]⟩
  | .unsupportedPlatform text => .ok ⟨400, [("error", ofJson (.str text))]⟩
  | .raised e => .error e

/-- `vend`, of a tenant and a platform that are strings and not empty. -/
def vendFor [Name τ] (store : StoreOf τ σ) (tenantId erpPlatform : τ) (ttl now : ℚ) (s : σ) :
    Except PyError (ReplyOf α) :=
  match Vault.vendToken store tenantId erpPlatform ttl now s with
  | .ok token => .ok ⟨200, vendedBody ofName ofJson token⟩
  | .error e => refusal ofJson e

end

/-- `vend`; what is no `VaultError` is raised. -/
def vend {σ : Type} (store : CredentialStore σ) (body : Obj) (ttl now : ℚ) (s : σ) :
    Except PyError Reply :=
  if isNonemptyStr (body.get "tenant_id") && isNonemptyStr (body.get "erp_platform") then
    vendFor id id store (body.get "tenant_id") (body.get "erp_platform") ttl now s
  else .ok ⟨400, [("error", "tenant_id and erp_platform are required")]⟩

end VaultService

/-! ## Runs -/

/-- What a Vault is asked for. -/
inductive VaultOp where
  | storeCredentials (tenantId erpPlatform : Json) (creds : Obj)
  | rotateToken (tenantId erpPlatform tokenId tokenSecret : Json)
  | revoke (tenantId erpPlatform : Json)
  /-- `VaultService.vend`. -/
  | vend (body : Obj)
  /-- A `vault.secret.request` that `VaultAgent` handles. -/
  | request (event : Event)
  /-- `Vault.vend_token`, with its optional arguments. -/
  | vendToken (tenantId erpPlatform : Json) (scopes : Option (List String)) (ttl : Option ℚ)

/-- What the caller gets. -/
inductive VaultResponse where
  /-- A lifecycle operation returns nothing, or raises. -/
  | done (result : Except VaultError Unit)
  | replied (result : Except PyError Reply)
  /-- The event was handled, or not, and these were emitted. -/
  | handled (result : Except PyError Unit) (emitted : List Event)
  | vended (result : Except VaultError VendedToken)

/-- A token without its signer. -/
def TokenOf.metadata {τ : Type} (token : TokenOf τ) : TokenOf τ := { token with signer := [] }

/-- The response as far as the caller can read it: of a token, all but the signer. -/
def VaultResponse.metadata : VaultResponse → VaultResponse
  | vended result => vended (result.map TokenOf.metadata)
  | response => response

namespace VaultOp

/-- The tenant that is asked about. -/
def tenant : VaultOp → Json
  | storeCredentials tenantId _ _ => tenantId
  | rotateToken tenantId _ _ _ => tenantId
  | revoke tenantId _ => tenantId
  | vend body => body.get "tenant_id"
  | request event => (item event.payload "tenant_id").toOption.getD .null
  | vendToken tenantId _ _ _ => tenantId

/-- The operation is on the credentials of the tenant; equal numbers are one key. -/
def on (tenantId : Json) (op : VaultOp) : Bool := op.tenant.dictKey == tenantId.dictKey

/-- The fields of credentials that are secrets. -/
def secretFields : List String := ["consumer_secret", "token_secret"]

/-- Credentials without the values of their secrets. -/
def redact (creds : Obj) : Obj :=
  creds.map fun kv => (kv.1, if secretFields.contains kv.1 then .null else kv.2)

/-- The operation without the values of the secrets that it supplies. -/
def redacted : VaultOp → VaultOp
  | storeCredentials tenantId erpPlatform creds => storeCredentials tenantId erpPlatform (redact creds)
  | rotateToken tenantId erpPlatform tokenId _ => rotateToken tenantId erpPlatform tokenId .null
  | op => op

variable {σ : Type} (rt : Runtime) (store : CredentialStore σ)

/-- One operation: the response, and the world after it. -/
def perform (env : VaultAgent.Env) (op : VaultOp) (w : VaultAgent.World σ) :
    VaultResponse × VaultAgent.World σ :=
  match op with
  | storeCredentials tenantId erpPlatform creds =>
    let r := Vault.storeCredentials store tenantId erpPlatform creds w.self
    (.done r.1, { w with self := r.2 })
  | rotateToken tenantId erpPlatform tokenId tokenSecret =>
    let r := Vault.rotateToken store tenantId erpPlatform tokenId tokenSecret w.self
    (.done r.1, { w with self := r.2 })
  | revoke tenantId erpPlatform =>
    let r := Vault.revoke store tenantId erpPlatform w.self
    (.done r.1, { w with self := r.2 })
  | vend body => (.replied (VaultService.vend store body env.defaultTtl env.now w.self), w)
  | request event =>
    let r := VaultAgent.handle rt store env event w
    (.handled r.1 (r.2.trace.drop w.trace.length), r.2)
  | vendToken tenantId erpPlatform scopes ttl =>
    let r := Vault.vendToken store tenantId erpPlatform (ttl.getD env.defaultTtl) env.now w.self
    (.vended (r.map fun token => { token with scopes := scopes.getD token.scopes }), w)

/-- The operations of a run, each with what its caller can read of the response. -/
def responses (w : VaultAgent.World σ) (calls : List (VaultAgent.Env × VaultOp)) :
    List ((VaultAgent.Env × VaultOp) × VaultResponse) :=
  Unwinding.outputs (fun v c => ((perform rt store c.1 c.2 v).1.metadata, (perform rt store c.1 c.2 v).2))
    w calls

end VaultOp

end CaviErp
