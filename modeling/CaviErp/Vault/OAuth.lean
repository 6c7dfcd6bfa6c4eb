import CaviErp.Lib.Percent
import CaviErp.Vault.Vault
import Mathlib.Data.Prod.Lex

/-!
# OAuth 1.0a signatures

`_percent` and `_oauth1a_authorization_header` of `agents/vault/vault.py`: the method, the url and the
parameters of a request are put into one text, and the text is signed with the secrets of the tenant.
-/

namespace CaviErp

open Py

namespace OAuth1a

/-- What `quote(…, safe="-._~")` keeps. -/
def unreserved (c : Char) : Bool :=
  c.isAlphanum || c == '-' || c == '.' || c == '_' || c == '~'

/-- `_percent`. -/
def percent (value : Json) : String :=
  String.ofList (Percent.escape unreserved value.pyStr.toList)

/-- `sorted(d.items())`: the keys differ, so the values are not compared. -/
def sortedItems (d : Obj) : Obj := d.mergeSort fun p q => p.1 ≤ q.1

/-- `{**d, **e}`. -/
def merge (d e : Obj) : Obj := e.foldl (fun d kv => d.set kv.1 kv.2) d

/-! ## The base string -/

def oauthParams (creds : Obj) (nonce timestamp : String) : Except PyError Obj := do
  let consumerKey ← item (.obj creds) "consumer_key"
  let tokenId ← item (.obj creds) "token_id"
  return [("oauth_consumer_key", consumerKey), ("oauth_token", tokenId),
    ("oauth_signature_method", "HMAC-SHA256"), ("oauth_timestamp", .str timestamp),
    ("oauth_nonce", .str nonce), ("oauth_version", "1.0")]

/-- `{**(query_params or {}), **oauth_params}`. -/
def signedParams (queryParams : Json) (oauthParams : Obj) : Except PyError Obj :=
  if queryParams.truthy then
    match queryParams with
    | .obj q => .ok (merge q oauthParams)
    | _ => .error (.typeError "object is not a mapping")
  else .ok (merge [] oauthParams)

def normalized (signedParams : Obj) : String :=
  "&".intercalate ((sortedItems signedParams).map fun kv => percent (.str kv.1) ++ "=" ++ percent kv.2)

/-- The normalized parameters of a request. -/
def normalizedParams (creds : Obj) (queryParams : Json) (nonce timestamp : String) :
    Except PyError String := do
  let oauth ← oauthParams creds nonce timestamp
  let signed ← signedParams queryParams oauth
  return normalized signed

/-- The functions of the platform that signing rests on. -/
structure Platform where
  /-- `str.upper()`. -/
  upper : String → String
  /-- The signature of a text under a key: HMAC-SHA256 in Base64. -/
  mac : (key text : String) → String

variable (platform : Platform)

def baseString (creds : Obj) (httpMethod url : String) (queryParams : Json) (nonce timestamp : String) :
    Except PyError String := do
  let normalized ← normalizedParams creds queryParams nonce timestamp
  return "&".intercalate [platform.upper httpMethod, percent (.str url), percent (.str normalized)]

/-- `_oauth1a_authorization_header`. -/
def authorizationHeader (creds : Obj) (httpMethod url : String) (queryParams : Json)
    (nonce timestamp : String) : Except PyError String := do
  let oauth ← oauthParams creds nonce timestamp
  let base ← baseString platform creds httpMethod url queryParams nonce timestamp
  let consumerSecret ← item (.obj creds) "consumer_secret"
  let tokenSecret ← item (.obj creds) "token_secret"
  let signature := platform.mac (percent consumerSecret ++ "&" ++ percent tokenSecret) base
  let accountId ← item (.obj creds) "account_id"
  let realm := "realm=\"" ++ percent (.str (platform.upper accountId.pyStr)) ++ "\""
  let parts := (sortedItems (oauth.set "oauth_signature" (.str signature))).map fun kv =>
    percent (.str kv.1) ++ "=\"" ++ percent kv.2 ++ "\""
  return "OAuth " ++ ", ".intercalate (realm :: parts)

/-! ## Query parameters -/

/-- A map from strings to strings, as its items. -/
structure QueryParams where
  items : List (String × String)
  nodup : (items.map Prod.fst).Nodup

/-- The parameters of a request that may have none. -/
def queryItems : Option QueryParams → List (String × String)
  | none => []
  | some q => q.items

/-- The parameters as the code gets them. -/
def queryJson : Option QueryParams → Json
  | none => .null
  | some q => .obj (q.items.map fun kv => (kv.1, .str kv.2))

def oauthNames : List String :=
  ["oauth_consumer_key", "oauth_token", "oauth_signature_method", "oauth_timestamp", "oauth_nonce",
    "oauth_version"]

/-- None of the parameters has the name of one of the protocol. -/
def FreeOfOAuth (query : Option QueryParams) : Prop := ∀ kv ∈ queryItems query, kv.1 ∉ oauthNames

instance (query : Option QueryParams) : Decidable (FreeOfOAuth query) :=
  inferInstanceAs (Decidable (∀ kv ∈ queryItems query, kv.1 ∉ oauthNames))

/-! ## RFC 5849 -/

/-- Section 3.4.1.3.2: names and values are encoded, and sorted by name, and those of one name by value. -/
def rfcNormalized (params : List (String × String)) : String :=
  let encoded := params.map fun kv => (percent (.str kv.1), percent (.str kv.2))
  "&".intercalate ((encoded.mergeSort fun p q => toLex p ≤ toLex q).map fun p => p.1 ++ "=" ++ p.2)

/-- The parameters of a request, those of the protocol included. -/
def requestParams (creds : Obj) (query : Option QueryParams) (nonce timestamp : String) :
    List (String × String) :=
  queryItems query ++ oauthNames.zip
    [(creds.get "consumer_key").pyStr, (creds.get "token_id").pyStr, "HMAC-SHA256", timestamp, nonce,
      "1.0"]

/-- No two of the names first differ in an unreserved character of the one and a larger character of the
other that is escaped. -/
def KeepsOrder (names : List String) : Prop :=
  ∀ a ∈ names, ∀ b ∈ names, Percent.swapped unreserved a.toList b.toList = false

instance (names : List String) : Decidable (KeepsOrder names) :=
  inferInstanceAs (Decidable (∀ a ∈ names, ∀ b ∈ names, _ = false))

end OAuth1a

end CaviErp
