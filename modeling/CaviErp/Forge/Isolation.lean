import CaviErp.Forge.Recording

/-!
# One tenant's view of a run

The tenants share one agent, its dictionaries and its breakers. What a tenant sees of a run is compared
with the run in which the others are not there: their proposals, and the decisions and reversals that name
their writes, are deleted.
-/

namespace CaviErp

open Py

namespace ForgeWriteAgent

/-- The tenant of a write, as the key of a breaker tells tenants apart: equal numbers are one key. -/
def sameTenant (tenant tenantId : Json) : Bool := tenantId.dictKey == tenant.dictKey

/-- The tenant that a payload names, where it names one. -/
def tenantOf (payload : Json) : Option Json :=
  match item payload "tenant_id" with
  | .ok tenantId => some tenantId
  | .error _ => none

/-- The payload names another tenant. -/
def ofAnother (tenant payload : Json) : Bool :=
  match tenantOf payload with
  | some tenantId => !sameTenant tenant tenantId
  | none => false

/-- The observation is of a write of the tenant. -/
def Obs.concerns (tenant : Json) : Obs → Bool
  | .applied op _ => sameTenant tenant op.tenantId
  | .emitted _ event => (tenantOf event.payload).any (sameTenant tenant)

/-- The id of a write that was requested for another tenant. -/
def othersId? (tenant : Json) : Obs → Option String
  | .applied _ _ => none
  | .emitted writeId event =>
    if event.subject = "forge.write.requested" ∧ ofAnother tenant event.payload then some writeId
    else none

variable (cfg : Config) (tenant : Json)

/-- The ids of the writes of other tenants in a run. -/
def othersIds (calls : List (Env × Event)) : List String :=
  (served cfg calls).trace.filterMap (othersId? tenant)

/-- A proposal of another tenant, or a decision or a reversal that names one of the ids. -/
def aboutOthers (ids : List String) (event : Event) : Bool :=
  if event.subject = "forge.write.propose" then ofAnother tenant event.payload
  else if event.subject = "forge.write.decision" ∨ event.subject = "forge.write.reverse" then
    match item event.payload "write_id" with
    | .ok (.str writeId) => ids.contains writeId
    | _ => false
  else false

/-- The calls without the events about others. -/
def withoutOthers (ids : List String) (calls : List (Env × Event)) : List (Env × Event) :=
  calls.filter fun c => !aboutOthers tenant ids c.2

/-- What a call added to the trace and to the bus; a dead letter is among the messages. -/
structure Effect where
  cause : Event
  seen : List Obs
  sent : List (String × String)

def effectOf (c : Env × Event) (w : World) : Effect where
  cause := c.2
  seen := (handle cfg c.1 c.2 w).2.trace.drop w.trace.length
  sent := (handle cfg c.1 c.2 w).2.bus.drop w.bus.length

/-- The effects of calls that follow on a world. -/
def effectsFrom : World → List (Env × Event) → List Effect
  | _, [] => []
  | w, c :: calls => effectOf cfg c w :: effectsFrom (handle cfg c.1 c.2 w).2 calls

/-- The effects of a run, call by call. -/
def effects (calls : List (Env × Event)) : List Effect := effectsFrom cfg { self := {} } calls

/-- The run and the run without the events about others do not differ for the tenant. -/
structure Isolated (calls : List (Env × Event)) : Prop where
  /-- No call raises without the others either. -/
  returns : (handleAll cfg (withoutOthers tenant (othersIds cfg tenant calls) calls)
    { self := {} }).1 = .ok ()
  /-- The calls that are left call the writer, emit and quarantine as they did. -/
  effects : effects cfg (withoutOthers tenant (othersIds cfg tenant calls) calls) =
    (effects cfg calls).filter fun e => !aboutOthers tenant (othersIds cfg tenant calls) e.cause
  /-- At every point the same was seen of the tenant's writes. -/
  seen : ∀ pre, pre <+: calls →
    (served cfg (withoutOthers tenant (othersIds cfg tenant calls) pre)).trace.filter
        (Obs.concerns tenant) =
      (served cfg pre).trace.filter (Obs.concerns tenant)
  /-- At every point the tenant's breakers are the same, those not created yet included. -/
  breakers : ∀ pre, pre <+: calls → ∀ key : Json × Json, tenant.dictKey = some key.1 →
    (served cfg (withoutOthers tenant (othersIds cfg tenant calls) pre)).self.breakers key =
      (served cfg pre).self.breakers key

end ForgeWriteAgent

end CaviErp
