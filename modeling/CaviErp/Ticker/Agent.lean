import CaviErp.Base.Agent
import CaviErp.Ticker.Conversion

/-!
# The ticker agent

`agents/ticker/agent.py`: answers a request with a snapshot of the rate, and with the converted amount if the
request has one. The agent keeps its ticker, of which the cache and the calls of the rate source are seen
here; its trace lists the events it emitted.
-/

namespace CaviErp

open Py

namespace TickerAgent

/-- What `handle` raises. -/
inductive Failure where
  | ticker (e : TickerError)
  | decimal (e : DecimalError)
  | py (e : PyError)
deriving DecidableEq, Repr

structure Env where
  /-- The id that `uuid4` gives the emitted event. -/
  uuid : String
  /-- The clock, which stands still during a call. -/
  now : ℚ
  /-- What the rate source answers. -/
  fetch : String → String → Except RateNotFound Decimal
  infra : Infra := .healthy

abbrev World (σ : Type) := CaviErp.World (Ticker.World σ) Event

/-- `int(req["amount_minor"])`. -/
def intOf (value : Json) : Except Failure Int :=
  match value.toInt with
  | some n => .ok n
  | none => .error (.py (.valueError "invalid literal for int()"))

/-- The payload of a snapshot, before an amount is looked for. -/
def snapshot (rate : Rate) : Obj :=
  [("base", .str rate.base), ("quote", .str rate.quote), ("rate", .str rate.rate.str),
    ("as_of", .float (.finite rate.asOf))]

/-- The payload of the answer to a request. -/
def payload (rate : Rate) (req : Obj) : Except Failure Obj :=
  match req.get? "amount_minor" with
  | none => .ok (snapshot rate)
  | some value => do
    let amount ← intOf value
    let converted ← (rate.convertMinor amount).mapError .decimal
    return snapshot rate ++ [("amount_minor", .int amount), ("converted_minor", .int converted)]

/-- The event that carries a payload. -/
def priced (env : Env) (event : Event) (payload : Obj) : Event where
  subject := "ticker.price"
  schemaVersion := .int 1
  source := "ticker"
  id := .str env.uuid
  correlationId := event.correlationId
  payload := .obj payload

/-- `req[key]`. -/
def reqItem (req : Obj) (key : String) : Except Failure Json := (item (.obj req) key).mapError .py

/-- A code that `upper()` is called of. -/
def textOf : Json → Except Failure String
  | .str code => .ok code
  | _ => .error (.py (.attributeError "no attribute 'upper'"))

variable {σ : Type} (rt : Runtime) (cache : CacheBackend σ) (ttl : Int) (env : Env)

/-- `self.ticker.get_rate(base, quote)`, with a `RateNotFound` handed on to the `except` clause. -/
def getRate (base quote : String) : Action (World σ) Failure (Except RateNotFound Rate) := fun w =>
  let r := Ticker.getRate cache ttl ⟨base, quote, env.now, env.fetch⟩ w.self
  (match r.1 with
    | .ok rate => .ok (.ok rate)
    | .error (.rateNotFound e) => .ok (.error e)
    | .error e => .error (.ticker e), { w with self := r.2 })

/-- `self.emit(event)`. -/
def emit (event : Event) : Action (World σ) Failure Unit := fun w =>
  (((BaseAgent.emit rt env.infra event event) w).1.mapError .py, ((BaseAgent.emit rt env.infra event event) w).2)

/-- `handle`, of an event whose payload is the dictionary `req`. -/
def handle (event : Event) (req : Obj) : Action (World σ) Failure Unit := do
  let base ← Action.ofExcept (reqItem req "base")
  let quote ← Action.ofExcept (reqItem req "quote")
  let base ← Action.ofExcept (textOf base)
  let quote ← Action.ofExcept (textOf quote)
  let found ← getRate cache ttl env base quote
  match found with
  | .error _ => pure ()
  | .ok rate =>
    let payload ← Action.ofExcept (payload rate req)
    emit rt env (priced env event payload)

end TickerAgent

end CaviErp
