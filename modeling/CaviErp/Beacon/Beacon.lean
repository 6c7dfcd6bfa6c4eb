import CaviErp.Base.Contract
import CaviErp.Lib.Double

/-!
# Alerts

`agents/beacon/beacon.py`: an event becomes an alert, is compared with the alerts already sent, and goes
to the channels its severity is routed to. The shipped channels do not raise, so sending is only an
observation. Times are clock readings in seconds, as rationals.
-/

namespace CaviErp

open Py

/-- `Severity`, in ascending order. -/
inductive Severity where
  | info
  | warning
  | error
  | critical
deriving DecidableEq, Repr

namespace Severity

def name : Severity → String
  | info => "INFO"
  | warning => "WARNING"
  | error => "ERROR"
  | critical => "CRITICAL"

def value : Severity → Nat
  | info => 10
  | warning => 20
  | error => 30
  | critical => 40

end Severity

structure Alert where
  severity : Severity
  title : String
  subject : String
  body : String
  dedupKey : String
  correlationId : Json := .null
deriving DecidableEq, Repr

def startsWith (s start : String) : Bool := start.toList.isPrefixOf s.toList

/-- The severities of the subjects that are no dead letters; any other is `INFO`. -/
def severities : List (String × Severity) :=
  [("ledger.rejected", .warning), ("vault.secret.denied", .warning),
    ("ledger.drift.detected", .warning), ("ledger.posted", .info), ("forge.completed", .info)]

def severityFor (subject : String) : Severity :=
  if startsWith subject "deadletter." then
    let inner := String.ofList (subject.toList.drop "deadletter.".length)
    if startsWith inner "ledger." then .critical else .error
  else (severities.lookup subject).getD .info

/-- `a or b or … or ""`. -/
def firstTruthy (values : List Json) : Json := (values.find? Json.truthy).getD ""

/-- What tells repeats of one failure from other failures. -/
def identOf (payload : Obj) : Json :=
  firstTruthy [payload.get "entry_id", payload.get "work_order_id", payload.get "run_id",
    payload.get "id"]

def classify (subject payload correlationId : Json) : Except PyError Alert :=
  match subject, payload with
  | .str subject, .obj payload =>
    .ok {
      severity := severityFor subject
      title := (severityFor subject).name ++ ": " ++ subject
      subject := subject
      body := String.ofList ((dumpChars .default (.obj payload)).take 500)
      dedupKey := subject ++ ":" ++ (identOf payload).pyStr
      correlationId := correlationId }
  | .str _, _ => .error (.attributeError "no attribute 'get'")
  | _, _ => .error (.attributeError "no attribute 'startswith'")

/-! ## Duplicates -/

/-- `DedupStore`, over its own state: whether a key was seen within the window before `now`. -/
structure DedupStore (δ : Type) where
  isDuplicate : (key : String) → (windowSeconds : Nat) → (now : ℚ) → δ → Bool × δ

/-- `InMemoryDedupStore`, over `_last_sent`. The difference of the clock readings is one of floats. -/
def inMemoryDedupStore : DedupStore (String → Option ℚ) where
  isDuplicate key windowSeconds now lastSent :=
    match lastSent key with
    | some last =>
      if Binary64.sub now last < windowSeconds then (true, lastSent)
      else (false, fun k => if k = key then some now else lastSent k)
    | none => (false, fun k => if k = key then some now else lastSent k)

/-- `RedisDedupStore`, over the expiry times of the keys: `SET NX EX` sets a key that is absent or has
expired; Redis keeps time by itself. -/
def redisDedupStore (redisNamespace : String := "beacon:dedup") : DedupStore (String → Option ℚ) where
  isDuplicate key windowSeconds now expiry :=
    let name := redisNamespace ++ ":" ++ key
    let set : String → Option ℚ := fun k => if k = name then some (now + windowSeconds) else expiry k
    match expiry name with
    | some expires => if now < expires then (true, expiry) else (false, set)
    | none => (false, set)

/-! ## Beacon -/

structure BeaconConfig where
  channels : List String := ["log", "hermes"]
  /-- `routes`, by default `DEFAULT_ROUTES`. -/
  routes : Severity → List String := fun
    | .info => ["log"]
    | .warning => ["log"]
    | .error => ["log", "hermes"]
    | .critical => ["log", "hermes"]
  dedupWindow : Nat := 300

/-- What can be seen of Beacon. -/
inductive BeaconObs where
  /-- An alert was dispatched, to the given channels. -/
  | alerted (alert : Alert) (channels : List String)
  | suppressed (alert : Alert)
deriving DecidableEq, Repr

def BeaconConfig.targets (cfg : BeaconConfig) (severity : Severity) : List String :=
  (cfg.routes severity).filter fun name => cfg.channels.contains name

end CaviErp
