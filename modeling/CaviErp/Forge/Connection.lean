import CaviErp.Forge.Discipline
import CaviErp.Vault.Vault

/-!
# The connection behind a breaker

A write reaches its ERP over the credentials of its tenant for the platform that Vault makes of
`erp_platform`. The breaker that guards it is found under the string itself.
-/

namespace CaviErp

open Py

namespace ForgeWriteAgent

/-- The tenant of a write and the platform that Vault signs its requests for. -/
def connection (op : WriteOperation) : Option (Json × String) :=
  match op.tenantId.dictKey, Vault.normalizePlatform op.erpPlatform with
  | some tenant, .ok platform => some (tenant, platform)
  | _, _ => none

variable (cfg : Config)

/-- The attempt that an observation of a call shows, if it is one over the connection; `w` is the world that
the call found. -/
def attemptOver? (env : Env) (conn : Json × String) (w : World) : Obs → Option Attempt
  | .emitted _ _ => none
  | .applied op outcome =>
    if connection op = some conn then
      match breakerKey op with
      | .ok key => attempt? cfg env key (breakerOf key w) (.applied op outcome)
      | .error _ => none
    else none

/-- The attempts of one call, whichever breakers guard them. -/
def attemptsOverOf (conn : Json × String) (call : Env × Event) (w : World) : List Attempt :=
  ((handle cfg call.1 call.2 w).2.trace.drop w.trace.length).filterMap (attemptOver? cfg call.1 conn w)

def attemptsOverFrom (conn : Json × String) : World → List (Env × Event) → List Attempt
  | _, [] => []
  | w, call :: calls =>
    attemptsOverOf cfg conn call w ++ attemptsOverFrom conn (handle cfg call.1 call.2 w).2 calls

/-- The attempts of a run over the connection. -/
def historyOver (conn : Json × String) (calls : List (Env × Event)) : List Attempt :=
  attemptsOverFrom cfg conn { self := {} } calls

/-- A call of the writer for a write over the connection. -/
def appliedOver (conn : Json × String) : Obs → Option (WriteOperation × Except String Obj)
  | .emitted _ _ => none
  | .applied op outcome => if connection op = some conn then some (op, outcome) else none

/-- What one breaker for each connection would promise about a run, where `elapsed` measures the time between
two readings of the clock. -/
structure Guarded (elapsed : ℚ → ℚ → ℚ) (conn : Json × String) (calls : List (Env × Event)) : Prop where
  /-- The attempts are the calls of the writer over the connection, each of them. -/
  applied : (historyOver cfg conn calls).map (fun a => (a.op, a.outcome)) =
    (served cfg calls).trace.filterMap (appliedOver conn)
  /-- From the threshold on an attempt waits for a cooldown after the last failure. -/
  cooled : Waits cfg elapsed (historyOver cfg conn calls)

/-- Writes of the tenant to the one and to the other platform are guarded by the same breaker. -/
def SameBreaker (tenant p q : String) : Prop :=
  ∀ op op' : WriteOperation, op.tenantId = .str tenant → op.erpPlatform = .str p →
    op'.tenantId = .str tenant → op'.erpPlatform = .str q →
      ∃ key, breakerKey op = .ok key ∧ breakerKey op' = .ok key

/-- The event proposes a write. -/
def Requests (event : Event) (r : WriteRequest) : Prop :=
  event.subject = "forge.write.propose" ∧ WriteRequest.ofKwargs event.payload = .ok r

/-- Proposals for one connection spell its platform alike. -/
def OneSpelling (calls : List (Env × Event)) : Prop :=
  ∀ c ∈ calls, ∀ c' ∈ calls, ∀ r r' platform, Requests c.2 r → Requests c'.2 r' →
    r.tenantId.dictKey = r'.tenantId.dictKey → Vault.normalizePlatform r.erpPlatform = .ok platform →
      Vault.normalizePlatform r'.erpPlatform = .ok platform → r.erpPlatform = r'.erpPlatform

end ForgeWriteAgent

end CaviErp
