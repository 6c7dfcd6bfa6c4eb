import CaviErp.Base.Contract
import CaviErp.Lib.Action
import CaviErp.Lib.Double
import CaviErp.Lib.Text
import Mathlib.Logic.Function.Basic

/-!
# Vending credentials

`agents/vault/vault.py`: credentials are kept per platform and tenant, and vended as tokens that live for
a few minutes. What names a tenant or a platform is any `Json`, or any string. Times are floats, in seconds
since the epoch. What a token signs with, the closure over the credentials, is kept as the credentials it
captures.
-/

namespace CaviErp

open Py

/-- What an operation raises: a `VaultError`, or another exception. -/
inductive VaultError where
  | unsupportedPlatform (text : String)
  | credentialNotFound (text : String)
  | raised (e : PyError)
deriving DecidableEq, Repr

/-- A character that `str.strip()` removes. -/
def isUnicodeSpace (c : Char) : Bool := isSpace c || isWideSpace c

def strip (s : String) : String :=
  String.ofList
    ((s.toList.dropWhile isUnicodeSpace).reverse.dropWhile isUnicodeSpace).reverse

namespace Vault

/-- `_REQUIRED_FIELDS[platform]`. -/
def requiredFields (_platform : String) : List String :=
  ["account_id", "consumer_key", "consumer_secret", "token_id", "token_secret"]

/-- `_DEFAULT_SCOPES[platform]`. -/
def defaultScopes (_platform : String) : List String := ["netsuite:rest:read", "netsuite:rest:write"]

def platformAliases : List (String × String) :=
  [("netsuite", "netsuite"), ("ns", "netsuite"), ("netsuite_tba", "netsuite")]

/-- `_normalize_platform`. No character outside ASCII has one of the letters of an alias for its lower
case, so lowering within ASCII finds the same aliases. -/
def normalizePlatform (erpPlatform : Json) : Except VaultError String :=
  match erpPlatform with
  | .str s =>
    match platformAliases.lookup (String.ofList ((strip s).toList.map Char.toLower)) with
    | some platform => .ok platform
    | none => .error (.unsupportedPlatform
        ("unsupported ERP platform: " ++ String.ofList (Json.reprStr s)))
  | _ => .error (.raised (.attributeError "no attribute 'strip'"))

/-- `_normalize_platform`, of a string that may have halves: those stay, so that it is no alias. -/
def normalizeText (erpPlatform : Text) : Except VaultError String :=
  match erpPlatform.string? with
  | some s => normalizePlatform (.str s)
  | none => .error (.unsupportedPlatform ("unsupported ERP platform: " ++ String.ofList erpPlatform.repr))

end Vault

/-- The values that name a tenant or a platform: any `Json`, or any string. -/
class Name (τ : Type) where
  /-- The value as a key of a dictionary; `none` where it has no hash. -/
  dictKey : τ → Option τ
  /-- `repr(value)`. -/
  repr : τ → List Char
  /-- `_normalize_platform(value)`. -/
  normalizePlatform : τ → Except VaultError String

instance : Name Json := ⟨Json.dictKey, Json.repr, Vault.normalizePlatform⟩

instance : Name Text := ⟨some, Text.repr, Vault.normalizeText⟩

theorem Name.normalizePlatform_json (j : Json) : Name.normalizePlatform j = Vault.normalizePlatform j := rfl

theorem Name.normalizePlatform_text (t : Text) : Name.normalizePlatform t = Vault.normalizeText t := rfl

/-- The `CredentialStore` protocol, for a store with states `σ`, of tenants named by values of `τ`. -/
structure StoreOf (τ σ : Type) where
  get : String → τ → σ → Except PyError (Option Obj)
  put : String → τ → Obj → Action σ PyError Unit
  delete : String → τ → Action σ PyError Unit

abbrev CredentialStore := StoreOf Json

/-- `InMemoryCredentialStore`: the credentials by platform and tenant. -/
abbrev InMemoryCredentialStore := String × Json → Option Obj

namespace InMemoryCredentialStore

variable {τ : Type} [Name τ]

/-- The pair of a platform and a tenant as a key. -/
def key (service : String) (tenantId : τ) : Except PyError (String × τ) :=
  match Name.dictKey tenantId with
  | some t => .ok (service, t)
  | none => .error (.typeError "unhashable type")

def store [DecidableEq τ] : StoreOf τ (String × τ → Option Obj) where
  get := fun service tenantId data => (key service tenantId).map data
  put := fun service tenantId secret => do
    let k ← Action.ofExcept (key service tenantId)
    Action.modify fun data => Function.update data k (some secret)
  delete := fun service tenantId => do
    let k ← Action.ofExcept (key service tenantId)
    Action.modify fun data => Function.update data k none

end InMemoryCredentialStore

/-- A `VendedToken`, for a tenant named by a value of `τ`. -/
structure TokenOf (τ : Type) where
  tenantId : τ
  erpPlatform : String
  realm : String
  consumerKey : Json
  tokenId : Json
  scopes : List String
  issuedAt : ℚ
  expiresAt : ℚ
  signatureMethod : String := "HMAC-SHA256"
  oauthVersion : String := "1.0"
  /-- The credentials `_signer` captures. -/
  signer : Obj

abbrev VendedToken := TokenOf Json

namespace Vault

variable {τ σ : Type} [Name τ] (store : StoreOf τ σ)

/-- The credentials of a tenant, or `CredentialNotFound`. -/
def credentials (platform : String) (tenantId : τ) (s : σ) : Except VaultError Obj :=
  match store.get platform tenantId s with
  | .error e => .error (.raised e)
  | .ok none => .error (.credentialNotFound
      ("no " ++ platform ++ " credentials stored for tenant " ++ String.ofList (Name.repr tenantId)))
  | .ok (some creds) => .ok creds

/-- `creds[key]`. -/
def field (creds : Obj) (key : String) : Except VaultError Json :=
  (item (.obj creds) key).mapError .raised

/-- `vend_token`, with the default scopes, for the lifetime `ttl`. -/
def vendToken (tenantId erpPlatform : τ) (ttl now : ℚ) (s : σ) : Except VaultError (TokenOf τ) := do
  let platform ← Name.normalizePlatform erpPlatform
  let creds ← credentials store platform tenantId s
  let accountId ← field creds "account_id"
  let consumerKey ← field creds "consumer_key"
  let tokenId ← field creds "token_id"
  return {
    tenantId, erpPlatform := platform, realm := accountId.pyStr, consumerKey, tokenId
    scopes := defaultScopes platform, issuedAt := now, expiresAt := Binary64.add now ttl, signer := creds }

/-! ## The lifecycle of credentials -/

/-- An operation of the store, whose exceptions no `except VaultError` catches. -/
def ofStore {α : Type} (x : Action σ PyError α) : Action σ VaultError α := fun s =>
  ((x s).1.mapError .raised, (x s).2)

/-- `_REQUIRED_FIELDS[platform] - set(credentials)`, sorted. -/
def missingFields (platform : String) (creds : Obj) : List String :=
  (requiredFields platform).filter fun k => !creds.keys.contains k

def storeCredentials (tenantId erpPlatform : τ) (creds : Obj) : Action σ VaultError Unit := do
  let platform ← Action.ofExcept (Name.normalizePlatform erpPlatform)
  if missingFields platform creds ≠ [] then
    Action.raise (.raised (.valueError (platform ++ " credentials missing fields: " ++
      (Json.arr ((missingFields platform creds).map Json.str)).pyStr)))
  else ofStore (store.put platform tenantId creds)

/-- `creds.update(token_id=token_id, token_secret=token_secret)`. -/
def rotated (creds : Obj) (tokenId tokenSecret : Json) : Obj :=
  (creds.set "token_id" tokenId).set "token_secret" tokenSecret

def rotateToken (tenantId erpPlatform : τ) (tokenId tokenSecret : Json) : Action σ VaultError Unit := do
  let platform ← Action.ofExcept (Name.normalizePlatform erpPlatform)
  let s ← Action.read
  let creds ← Action.ofExcept (credentials store platform tenantId s)
  ofStore (store.put platform tenantId (rotated creds tokenId tokenSecret))

def revoke (tenantId erpPlatform : τ) : Action σ VaultError Unit := do
  let platform ← Action.ofExcept (Name.normalizePlatform erpPlatform)
  ofStore (store.delete platform tenantId)

end Vault

end CaviErp
