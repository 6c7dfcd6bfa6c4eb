import CaviErp.Base.Agent
import CaviErp.Vault.Vault

/-!
# The Vault agent

`agents/vault/agent.py`: a request for credentials is granted or denied, and the event about it carries
nothing secret. The attributes of the agent are the state of its credential store; its trace lists the
events it emitted.
-/

namespace CaviErp

open Py

namespace VaultAgent

structure Env where
  /-- The lifetime of a token, in seconds. -/
  defaultTtl : ℚ := 300
  /-- `time.time()`. -/
  now : ℚ
  /-- `_iso`: the text of an instant. -/
  iso : ℚ → String
  /-- The time at which a denial is stamped. -/
  requestedAt : String
  /-- The id that `uuid4` gives the event of the call. -/
  uuid : String
  infra : Infra := .healthy

abbrev World (σ : Type) := CaviErp.World σ Event

def grantedPayload (iso : ℚ → String) (token : VendedToken) : Obj :=
  [("tenant_id", token.tenantId), ("erp_platform", .str token.erpPlatform),
    ("token_id", token.tokenId), ("scopes", .arr (token.scopes.map Json.str)),
    ("expires_at", .str (iso token.expiresAt)), ("issued_at", .str (iso token.issuedAt))]

def deniedPayload (tenantId erpPlatform : Json) (reason requestedAt : String) : Obj :=
  [("tenant_id", tenantId), ("erp_platform", erpPlatform), ("reason", .str reason),
    ("requested_at", .str requestedAt)]

def answer (env : Env) (event : Event) (subject : String) (payload : Obj) : Event where
  subject := .str subject
  schemaVersion := .int 1
  source := "vault"
  id := .str env.uuid
  correlationId := event.correlationId
  payload := .obj payload

variable {σ : Type} (rt : Runtime) (store : CredentialStore σ) (env : Env)

def emit (event : Event) (subject : String) (payload : Obj) : Action (World σ) PyError Unit :=
  BaseAgent.emit rt env.infra (answer env event subject payload) (answer env event subject payload)

def handle (event : Event) : Action (World σ) PyError Unit := do
  let tenantId ← Action.ofExcept (item event.payload "tenant_id")
  let platform ← Action.ofExcept (item event.payload "erp_platform")
  let w ← Action.read
  match Vault.vendToken store tenantId platform env.defaultTtl env.now w.self with
  | .ok token => emit rt env event "vault.secret.granted" (grantedPayload env.iso token)
  | .error (.unsupportedPlatform text) =>
    emit rt env event "vault.secret.denied" (deniedPayload tenantId platform text env.requestedAt)
  | .error (.credentialNotFound text) =>
    emit rt env event "vault.secret.denied" (deniedPayload tenantId platform text env.requestedAt)
  | .error (.raised e) => Action.raise e

end VaultAgent

end CaviErp
