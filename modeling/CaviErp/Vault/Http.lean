import CaviErp.Base.Envelope
import CaviErp.Lib.Encodings
import CaviErp.Vault.OAuth
import CaviErp.Vault.Service
import Mathlib

/-!
# The Vault endpoint

`VaultService.sign` and the handler of `agents/vault/service.py`, with `verify_shared_secret` of
`shared/auth.py`. A request comes with a body of any bytes; what the handler does not catch drops the
connection.
-/

namespace CaviErp

open Py

/-! ## Signing -/

/-- What a call of `sign` reads of the clock and of the random numbers. -/
structure SignEnv where
  /-- The lifetime of a token, in seconds. -/
  ttl : ℚ
  /-- The time at which the token is issued. -/
  now : ℚ
  /-- The time at which the token is looked at. -/
  later : ℚ
  /-- The time that is signed. -/
  signedAt : ℚ
  nonce : String

/-- The store for tenants that are named by any string: there is nothing for names with halves. -/
def InMemoryCredentialStore.texts (data : InMemoryCredentialStore) : String × Text → Option Obj := fun k =>
  k.2.string?.bind fun name => data (k.1, .str name)

namespace VaultService

/-- `isinstance(value, str) and value`, of a value of the body. -/
def textField (body : WideObj) (name : String) : Option Text :=
  match body.get name with
  | .str t => if t = [] then none else some t
  | _ => none

variable {σ : Type} (platform : OAuth1a.Platform) (strLimit : StrLimit) (store : StoreOf Text σ)

/-- `vend`, of a body with any strings. -/
def vendText (body : WideObj) (ttl now : ℚ) (s : σ) : Except PyError (ReplyOf Wide) :=
  match textField body "tenant_id", textField body "erp_platform" with
  | some tenantId, some erpPlatform => vendFor .str Wide.ofJson store tenantId erpPlatform ttl now s
  | _, _ => .ok ⟨400, [("error", .str "tenant_id and erp_platform are required")]⟩

/-- A parameter as it is signed, with `str` of its value. -/
def encodedParam (kv : Text × Wide) : Except PyError (String × Json) := do
  let name ← encoded kv.1
  let text ← strOf strLimit kv.2
  let value ← encoded text
  return (name, .str value)

/-- A parameter that is replaced by one of the protocol. -/
def isReplaced (kv : Text × Wide) : Bool := (OAuth1a.oauthNames.map Text.ofString).contains kv.1

/-- The parameters as they are signed. -/
def encodedParams (params : Wide) : Except PyError Json :=
  if params.truthy then
    match params with
    | .obj q => do
      let items ← (q.filter fun kv => !isReplaced kv).mapM (encodedParam strLimit)
      return .obj items
    | _ => .error (.typeError "object is not a mapping")
  else .ok .null

/-- `VendedToken.authorization_header`, of a token that has not expired. -/
def tokenHeader (env : SignEnv) (token : TokenOf Text) (method url : Text) (params : Wide) :
    Except PyError String := do
  let params ← encodedParams strLimit params
  let url ← encoded url
  let method ← encoded method
  OAuth1a.authorizationHeader platform token.signer method url params env.nonce
    (toString env.signedAt.floor)

/-- `sign`; what is no `VaultError` is raised. -/
def sign (env : SignEnv) (body : WideObj) (s : σ) : Except PyError (ReplyOf Wide) :=
  match textField body "tenant_id", textField body "erp_platform", textField body "method",
    textField body "url" with
  | some tenantId, some erpPlatform, some method, some url =>
    match Vault.vendToken store tenantId erpPlatform env.ttl env.now s with
    | .error e => refusal Wide.ofJson e
    | .ok token =>
      if token.expiresAt ≤ env.later then
        .ok ⟨400, [("error", .str (Text.ofString "vended token for " ++ token.tenantId ++
          Text.ofString ("/" ++ token.erpPlatform ++ " expired")))]⟩
      else do
        let header ← tokenHeader platform strLimit env token method url (body.get "params")
        return ⟨200, [("authorization_header", .str header),
          ("expires_at", .float (.finite token.expiresAt))]⟩
  | _, _, _, _ => .ok ⟨400, [("error", .str "tenant_id, erp_platform, method, url are required")]⟩

end VaultService

/-! ## The handler -/

namespace VaultHandler

/-- What the handler lets through to the server: an exception that drops the connection. -/
inductive Uncaught where
  | py (e : PyError)
  | unicodeDecodeError
  /-- A JSON text with too many digits in a number, or with containers nested too deep. -/
  | jsonLimit
  /-- A `Content-Length` beyond what can be read at once. -/
  | unreadable
deriving DecidableEq, Repr

/-- What can be seen of a request: the responses, and the calls of `vend_token`. -/
inductive Obs where
  | sent (reply : ReplyOf Wide)
  | vendToken (tenantId erpPlatform : Text)

structure Config where
  apiSecret : String
  tenantAllowlist : List String := []

/-- The interpreter: what is beyond its limits is not read. -/
structure Interpreter where
  platform : OAuth1a.Platform
  /-- `json.loads` gives up on the text: too many digits in a number, or containers nested too deep. -/
  jsonLimit : Text → Bool
  strLimit : StrLimit
  /-- The digits that `int()` takes. -/
  maxDigits : Nat := 4300
  /-- The bytes that `read()` has room for. -/
  maxRead : Nat

/-- A POST. -/
structure Post where
  path : String
  /-- `self.headers.get(name)`. -/
  header : String → Option String
  /-- What is sent after the headers. -/
  stream : List UInt8

/-- `verify_shared_secret`: in constant time, the texts are compared as UTF-8. -/
def verifySharedSecret (provided : Option String) (expected : String) : Bool :=
  match provided with
  | none => false
  | some provided => expected ≠ "" && provided ≠ "" && provided.toUTF8 = expected.toUTF8

def authHeader : String := "X-Cavi-Vault-Secret"

variable {σ : Type} (py : Interpreter) (cfg : Config) (store : StoreOf Text σ)

/-- `int(self.headers.get("Content-Length") or 0)`. -/
def contentLength (post : Post) : Except Uncaught Int :=
  match post.header "Content-Length" with
  | none => .ok 0
  | some text =>
    if text = "" then .ok 0
    else if py.maxDigits < ((text.toList.map asciiChar).filter Char.isDigit).length then
      .error (.py (.valueError "Exceeds the limit for integer string conversion"))
    else
      match parseInt text with
      | some n => .ok n
      | none => .error (.py (.valueError "invalid literal for int() with base 10"))

/-- `self.rfile.read(length)`, of the bytes that come. -/
def readStream (stream : List UInt8) (length : Int) : Except Uncaught (List UInt8) :=
  if length < -1 then .error (.py (.valueError "read length must be non-negative or -1"))
  else if length = -1 then .ok stream
  else if py.maxRead < length then .error .unreadable
  else .ok (stream.take length.toNat)

/-- `raw or b"{}"`. -/
def rawBody (post : Post) : Except Uncaught (List UInt8) := do
  let length ← contentLength py post
  let raw ← if length = 0 then .ok [] else readStream py post.stream length
  return if raw = [] then "{}".toList.map fun c => UInt8.ofNat c.toNat else raw

/-- `json.loads(raw)`; `none` for a `JSONDecodeError`. -/
def loadsBytes (raw : List UInt8) : Except Uncaught (Option Wide) :=
  match decode (detectEncoding raw) raw with
  | none => .error .unicodeDecodeError
  | some text =>
    if py.jsonLimit text then .error .jsonLimit else .ok (TextJson.document text)

def send (status : Nat) (payload : List (String × Wide)) : Action (List Obs) Uncaught Unit :=
  Action.modify fun seen => seen ++ [.sent ⟨status, payload⟩]

/-- `body.get(…)`, for the first time. -/
def asDict : Wide → Except Uncaught WideObj
  | .obj body => .ok body
  | _ => .error (.py (.attributeError "no attribute 'get'"))

/-- The value is a string of the list. -/
def isListed (tenantId : Wide) : Bool :=
  match tenantId with
  | .str t => cfg.tenantAllowlist.any fun s => Text.ofString s = t
  | _ => false

/-- `not tenant_allowlist or tenant_id in tenant_allowlist`. -/
def permitted (tenantId : Wide) : Except Uncaught Bool :=
  if cfg.tenantAllowlist = [] then .ok true
  else if tenantId.hashable then .ok (isListed cfg tenantId)
  else .error (.py (.typeError "unhashable type"))

/-- The tenant and the platform with which `vend_token` is called, if it is. -/
def vendCall (path : String) (body : WideObj) : Option (Text × Text) := do
  let tenantId ← VaultService.textField body "tenant_id"
  let erpPlatform ← VaultService.textField body "erp_platform"
  if path = "/sign" then
    let _ ← VaultService.textField body "method"
    let _ ← VaultService.textField body "url"
  return (tenantId, erpPlatform)

/-- The reply of the service. -/
def serve (env : SignEnv) (s : σ) (path : String) (body : WideObj) : Action (List Obs) Uncaught Unit := do
  match vendCall path body with
  | some call => Action.modify fun seen => seen ++ [.vendToken call.1 call.2]
  | none => pure ()
  let reply ← Action.ofExcept <|
    (if path = "/vend" then VaultService.vendText store body env.ttl env.now s
      else VaultService.sign py.platform py.strLimit store env body s).mapError .py
  send reply.status reply.body

/-- The last part of `do_POST`, with what the body holds. -/
def answerJson (env : SignEnv) (s : σ) (path : String) (data : Wide) : Action (List Obs) Uncaught Unit := do
  let body ← Action.ofExcept (asDict data)
  let permitted ← Action.ofExcept (permitted cfg (body.get "tenant_id"))
  if permitted then serve py store env s path body
  else send 403 [("error", .str "tenant not permitted")]

/-- `do_POST`, once the caller is authorized. -/
def answerBody (env : SignEnv) (s : σ) (post : Post) : Action (List Obs) Uncaught Unit := do
  let raw ← Action.ofExcept (rawBody py post)
  let parsed ← Action.ofExcept (loadsBytes py raw)
  match parsed with
  | none => send 400 [("error", .str "invalid JSON body")]
  | some data => answerJson py cfg store env s post.path data

/-- `do_POST`. -/
def doPost (env : SignEnv) (s : σ) (post : Post) : Action (List Obs) Uncaught Unit :=
  if post.path ≠ "/vend" ∧ post.path ≠ "/sign" then send 404 [("error", .str "not found")]
  else if cfg.apiSecret = "" then send 503 [("error", .str "vault authentication not configured")]
  else if verifySharedSecret (post.header authHeader) cfg.apiSecret = false then
    send 401 [("error", .str "unauthorized")]
  else answerBody py cfg store env s post

/-! ## What is expected of it -/

def statuses : List Nat := [200, 400, 401, 403, 404, 500, 503]

/-- One response is sent, with one of the statuses, and nothing is raised. -/
def Answers (r : Except Uncaught Unit × List Obs) : Prop :=
  r.1 = .ok () ∧ ∃ reply before, r.2 = before ++ [.sent reply] ∧
    (∀ obs ∈ before, ∀ other, obs ≠ .sent other) ∧ reply.status ∈ statuses

/-- Tokens are vended for those who present the secret, and for tenants on the list if there is one. -/
def Authorised (post : Post) (r : Except Uncaught Unit × List Obs) : Prop :=
  ∀ tenantId erpPlatform, Obs.vendToken tenantId erpPlatform ∈ r.2 →
    cfg.apiSecret ≠ "" ∧ post.header authHeader = some cfg.apiSecret ∧
      (∃ (raw : List UInt8) (body : WideObj), rawBody py post = .ok raw ∧ loadsBytes py raw = .ok (some (.obj body)) ∧
        body.get "tenant_id" = .str tenantId) ∧
      (cfg.tenantAllowlist = [] ∨ ∃ name ∈ cfg.tenantAllowlist, tenantId = Text.ofString name)

/-- The credentials of tenants can be read, and are complete, whatever text names the tenant. -/
structure SoundStore {τ ι : Type} (named : ι → τ) (store : StoreOf τ σ) (s : σ) : Prop where
  answers : ∀ platform t, ∃ creds, store.get platform (named t) s = .ok creds
  complete : ∀ platform t creds, store.get platform (named t) s = .ok (some creds) →
    ∀ f ∈ Vault.requiredFields platform, f ∈ creds.keys

/-- The request is signed: its fields are there, its tenant has credentials and the token is fresh. -/
structure Signs (env : SignEnv) (s : σ) (body : WideObj) : Prop where
  permitted : cfg.tenantAllowlist = [] ∨ ∃ name ∈ cfg.tenantAllowlist, body.get "tenant_id" = .str name
  fields : ∀ f ∈ ["tenant_id", "erp_platform", "method", "url"],
    ∃ t : Text, body.get f = .str t ∧ t ≠ []
  stored : ∃ tenantId erpPlatform platform creds, body.get "tenant_id" = .str tenantId ∧
    body.get "erp_platform" = .str erpPlatform ∧ Vault.normalizeText erpPlatform = .ok platform ∧
    store.get platform tenantId s = .ok (some creds)
  fresh : env.later < Binary64.add env.now env.ttl

/-- What is signed of the body can be encoded: the method, the url, and the parameters, but for those that are
replaced. -/
structure Signable (body : WideObj) : Prop where
  method : ∀ t, body.get "method" = .str t → Encodable t
  url : ∀ t, body.get "url" = .str t → Encodable t
  params : (body.get "params").truthy = true → ∃ q, body.get "params" = .obj q ∧
    ∀ kv ∈ q, VaultService.isReplaced kv = false → Encodable kv.1 ∧ Printable py.strLimit kv.2

/-- The body is one that the handler is prepared for. -/
structure Prepared (env : SignEnv) (s : σ) (path : String) (body : WideObj) : Prop where
  tenant : cfg.tenantAllowlist = [] ∨ (body.get "tenant_id").hashable = true
  signed : path = "/sign" → Signs cfg store env s body → Signable py body

/-- The request is refused before its body is read, or its body is no JSON text, or one that the handler is
prepared for. -/
def Serviceable (env : SignEnv) (s : σ) (post : Post) : Prop :=
  cfg.apiSecret = "" ∨ post.header authHeader ≠ some cfg.apiSecret ∨
    ∃ raw, rawBody py post = .ok raw ∧
      (loadsBytes py raw = .ok none ∨
        ∃ body : WideObj, loadsBytes py raw = .ok (some (.obj body)) ∧ Prepared py cfg store env s post.path body)

end VaultHandler

end CaviErp
