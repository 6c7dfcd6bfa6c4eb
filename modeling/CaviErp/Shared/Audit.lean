import CaviErp.Lib.Json

/-!
# The hash-chained audit log

`shared/audit.py`: each recorded event carries a hash over its predecessor's hash and its own canonical
content. `sha256 material` stands for `hashlib.sha256(material.encode("utf-8")).hexdigest()`.
-/

namespace CaviErp

open Py

/-- `GENESIS_HASH`: the chain's fixed starting point. -/
def genesisHash : String := "sha256:" ++ String.ofList (List.replicate 64 '0')

def canonicalEvent (event : Obj) : String := dumps .canonical (.obj event)

variable (sha256 : String → String)

def chainHash (prevHash : String) (event : Obj) : String :=
  let material := prevHash ++ "\n" ++ canonicalEvent event
  "sha256:" ++ sha256 material

/-- The report of a divergence. -/
def chainBreak (position : Nat) (event : Obj) (recorded expected : String) : String :=
  "chain break at position " ++ toString position ++
    " (event " ++ ((event.get? "id").getD (.str "?")).pyStr ++ "): recorded " ++
    String.ofList (Json.reprStr recorded) ++ ", expected " ++ String.ofList (Json.reprStr expected)

/-- The loop of `verify_chain` from a position on. It goes on from the *recorded* hash, so one break
is reported once. -/
def verifyFrom : Nat → String → List (Obj × String) → List String
  | _, _, [] => []
  | position, prev, (event, recorded) :: entries =>
    let expected := chainHash sha256 prev event
    (if recorded ≠ expected then [chainBreak position event recorded expected] else []) ++
      verifyFrom (position + 1) recorded entries

def verifyChain (entries : List (Obj × String)) : List String :=
  verifyFrom sha256 0 genesisHash entries

end CaviErp
