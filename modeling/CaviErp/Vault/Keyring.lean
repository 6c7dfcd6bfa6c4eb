import CaviErp.Lib.Alike
import CaviErp.Lib.JsonText
import CaviErp.Vault.Service

/-!
# Credentials in the keyring

`KeyringCredentialStore` and `load_from_dotenv` of `agents/vault/vault.py`: each tenant's credentials are one
password of the OS keyring, as JSON. The `keyring` package is a parameter; what is relied on is `Lawful`.
-/

namespace CaviErp

open Py

/-- What a call of the `keyring` package raises. -/
inductive KeyringError where
  | passwordDeleteError (text : String)
  | raised (e : PyError)

/-- The functions of the `keyring` package, over the states of an OS keyring that other programs share. -/
structure Keyring (κ : Type) where
  getPassword : (serviceName : String) → (username : Json) → κ → Except PyError (Option String)
  setPassword : (serviceName : String) → (username : Json) → (password : String) → Action κ PyError Unit
  deletePassword : (serviceName : String) → (username : Json) → Action κ KeyringError Unit

/-- A keyring that works, for user names that are texts. -/
structure Keyring.Lawful {κ : Type} (kr : Keyring κ) : Prop where
  get_ok : ∀ service user k, ∃ password, kr.getPassword service (.str user) k = .ok password
  set_ok : ∀ service user password k, (kr.setPassword service (.str user) password k).1 = .ok ()
  get_set : ∀ service user password k,
    kr.getPassword service (.str user) (kr.setPassword service (.str user) password k).2 = .ok (some password)
  get_set_frame : ∀ service user password k service' user', (service', user') ≠ (service, user) →
    kr.getPassword service' (.str user') (kr.setPassword service (.str user) password k).2 =
      kr.getPassword service' (.str user') k
  /-- A password is deleted, and only one that is not there is complained of. -/
  delete_ok : ∀ service user k, (kr.deletePassword service (.str user) k).1 = .ok () ∨
    ∃ text, (kr.deletePassword service (.str user) k).1 = .error (.passwordDeleteError text)
  get_delete : ∀ service user k,
    kr.getPassword service (.str user) (kr.deletePassword service (.str user) k).2 = .ok none
  get_delete_frame : ∀ service user k service' user', (service', user') ≠ (service, user) →
    kr.getPassword service' (.str user') (kr.deletePassword service (.str user) k).2 =
      kr.getPassword service' (.str user') k

namespace KeyringCredentialStore

/-- `_service`. -/
def serviceName (ns service : String) : String := ns ++ ":" ++ service

/-- `json.loads(raw) if raw else None`. Another program's password may be no dictionary; it is refused when the
fields are looked up. -/
def secretOf : Option String → Except PyError (Option Obj)
  | none => .ok none
  | some raw =>
    if raw = "" then .ok none
    else
      match loads raw with
      | none => .error .jsonDecodeError
      | some (.obj secret) => .ok (some secret)
      | some .null => .ok none
      | some _ => .error (.typeError "not a dict")

/-- `delete`: `PasswordDeleteError` is caught. -/
def quietly : Except KeyringError Unit → Except PyError Unit
  | .error (.raised e) => .error e
  | _ => .ok ()

/-- The store of a namespace. -/
def store {κ : Type} (kr : Keyring κ) (ns : String) : CredentialStore κ where
  get := fun service tenantId k => (kr.getPassword (serviceName ns service) tenantId k).bind secretOf
  put := fun service tenantId secret =>
    kr.setPassword (serviceName ns service) tenantId (dumps .default (.obj secret))
  delete := fun service tenantId k =>
    let r := kr.deletePassword (serviceName ns service) tenantId k
    (quietly r.1, r.2)

/-- The keyring has no passwords of the namespace. -/
def Unused {κ : Type} (kr : Keyring κ) (ns : String) (k : κ) : Prop :=
  ∀ service user, kr.getPassword (serviceName ns service) (.str user) k = .ok none

end KeyringCredentialStore

namespace Vault

/-- The credentials in the values of a `.env` file: the keys with the prefix of the platform, without it and in
lower case. -/
def dotenvCredentials (lower : String → String) (platform : String) (raw : List (String × Option String)) :
    Obj :=
  let pre := (String.ofList (platform.toList.map Char.toUpper) ++ "_").toList
  raw.foldl
    (fun creds kv =>
      match kv.2 with
      | some v =>
        if pre.isPrefixOf kv.1.toList then
          creds.set (lower (String.ofList (kv.1.toList.drop pre.length))) (.str v)
        else creds
      | none => creds)
    []

variable {σ : Type} (store : CredentialStore σ)

/-- `load_from_dotenv`, of what `dotenv_values` returns; `lower` is `str.lower`. -/
def loadFromDotenv (lower : String → String) (tenantId erpPlatform : Json)
    (raw : List (String × Option String)) : Action σ VaultError Unit := do
  let platform ← Action.ofExcept (normalizePlatform erpPlatform)
  storeCredentials store tenantId (.str platform) (dotenvCredentials lower platform raw)

end Vault

namespace VaultOp

/-- The tenant is a text, and so is every value or it is made of such: the types that are declared. -/
def Typed : VaultOp → Prop
  | storeCredentials tenantId _ creds => (∃ t, tenantId = .str t) ∧ (Json.obj creds).exact = true
  | rotateToken tenantId _ tokenId tokenSecret =>
    (∃ t, tenantId = .str t) ∧ tokenId.exact = true ∧ tokenSecret.exact = true
  | revoke tenantId _ => ∃ t, tenantId = .str t
  | vend _ => True
  | request event => ∀ tenantId, item event.payload "tenant_id" = .ok tenantId → ∃ t, tenantId = .str t
  | vendToken tenantId _ _ _ => ∃ t, tenantId = .str t

variable {σ : Type} (rt : Runtime) (store : CredentialStore σ)

/-- The operations of a run, each with its response, signers included. -/
def answers (w : VaultAgent.World σ) (calls : List (VaultAgent.Env × VaultOp)) :
    List ((VaultAgent.Env × VaultOp) × VaultResponse) :=
  Unwinding.outputs (fun v c => perform rt store c.1 c.2 v) w calls

/-- The world after a run. -/
def performed (w : VaultAgent.World σ) (calls : List (VaultAgent.Env × VaultOp)) : VaultAgent.World σ :=
  Unwinding.after (fun v c => perform rt store c.1 c.2 v) w calls

/-- What an operation makes of the credentials of a tenant on a platform. -/
def effect (platform tenantId : String) (creds : Option Obj) : VaultOp → Option Obj
  | storeCredentials t p new =>
    if t = .str tenantId ∧ Vault.normalizePlatform p = .ok platform ∧ Vault.missingFields platform new = [] then
      some new
    else creds
  | rotateToken t p tokenId tokenSecret =>
    if t = .str tenantId ∧ Vault.normalizePlatform p = .ok platform then
      creds.map fun c => Vault.rotated c tokenId tokenSecret
    else creds
  | revoke t p => if t = .str tenantId ∧ Vault.normalizePlatform p = .ok platform then none else creds
  | _ => creds

/-- The credentials that a history of operations leaves a tenant: those stored last, with the tokens that
were put into them since, unless they were revoked. -/
def credentialsAfter (platform tenantId : String) (ops : List VaultOp) : Option Obj :=
  ops.foldl (effect platform tenantId) none

end VaultOp

end CaviErp
