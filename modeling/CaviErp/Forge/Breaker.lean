import CaviErp.Base.Contract
import CaviErp.Lib.Double

/-!
# The circuit breaker of ERP writes

`agents/forge/breaker.py`. Times are the readings of a monotonic clock in seconds; their differences are those
of floats.
-/

namespace CaviErp

open Py

inductive BreakerState where
  | closed
  | open
  | halfOpen
deriving DecidableEq, Repr

structure BreakerConfig where
  failureThreshold : Nat := 5
  cooldownSeconds : ℚ := 300
  /-- A smaller threshold is refused by the constructor. -/
  threshold_pos : 1 ≤ failureThreshold := by decide

/-- The attributes of a `CircuitBreaker` that change. -/
structure CircuitBreaker where
  consecutiveFailures : Nat := 0
  openedAt : Option ℚ := none
  probing : Bool := false
deriving DecidableEq, Repr

/-- The readings of the breaker's clock during one call: in `state`, for the text of a refusal, and in
`record_failure`. -/
structure BreakerClock where
  state : ℚ
  remaining : ℚ
  failure : ℚ

namespace CircuitBreaker

variable (cfg : BreakerConfig)

/-- `state`, at a reading of the clock. -/
def state (b : CircuitBreaker) (now : ℚ) : BreakerState :=
  match b.openedAt with
  | none => .closed
  | some openedAt => if cfg.cooldownSeconds ≤ Binary64.sub now openedAt then .halfOpen else .open

def refusal (b : CircuitBreaker) (now : ℚ) : String :=
  let remaining := match b.openedAt with
    | some openedAt => Binary64.sub cfg.cooldownSeconds (Binary64.sub now openedAt)
    | none => 0
  "circuit breaker open after " ++ toString b.consecutiveFailures ++
    " consecutive ERP write failures; retry in " ++
    toString (Binary64.roundHalfEven (max remaining 0)) ++ "s"

/-- `check`: the text of `BreakerOpen` where it raises, and the breaker afterwards. In the half-open
state exactly one probe is let through. -/
def check (clock : BreakerClock) (b : CircuitBreaker) : Option String × CircuitBreaker :=
  match b.state cfg clock.state with
  | .closed => (none, b)
  | .halfOpen =>
    if b.probing then (some (b.refusal cfg clock.remaining), b) else (none, { b with probing := true })
  | .open => (some (b.refusal cfg clock.remaining), b)

def recordSuccess (_ : CircuitBreaker) : CircuitBreaker := {}

/-- `record_failure`: whether this is the transition to open, and the breaker afterwards. -/
def recordFailure (clock : BreakerClock) (b : CircuitBreaker) : Bool × CircuitBreaker :=
  let wasOpen := b.openedAt.isSome
  let failures := b.consecutiveFailures + 1
  if cfg.failureThreshold ≤ failures ∨ wasOpen then
    (!wasOpen, { consecutiveFailures := failures, openedAt := some clock.failure })
  else (false, { b with consecutiveFailures := failures, probing := false })

end CircuitBreaker

end CaviErp
