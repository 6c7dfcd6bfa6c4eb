import CaviErp.Base.Agent
import CaviErp.Beacon.Beacon

/-!
# The Beacon agent

`agents/beacon/agent.py`: Beacon on the bus. `System` closes the circle: the bus, with the messages in
flight on Beacon's channels, and Beacon as its only participant.
-/

namespace CaviErp

open Py

namespace BeaconAgent

/-- What the agent is built with. -/
structure Config (δ : Type) where
  rt : Runtime
  beacon : BeaconConfig := {}
  dedup : DedupStore δ

/-- What one call takes from outside. -/
structure Env where
  /-- The reading of the dedup store's clock. -/
  now : ℚ
  infra : Infra := .healthy

/-- The world of the agent; its only attribute that changes is the state of the dedup store. -/
abbrev World (δ : Type) := CaviErp.World δ BeaconObs

def subjects : List String :=
  ["deadletter.ledger.entry", "deadletter.forge.write.propose", "deadletter.forge.write.decision",
    "deadletter.forge.write.reverse", "deadletter.ticker.reconciliation.due", "ledger.rejected",
    "vault.secret.denied", "ledger.drift.detected", "ledger.posted", "forge.completed"]

variable {δ : Type} (cfg : Config δ)

def observe (obs : BeaconObs) : Action (World δ) PyError Unit :=
  Action.modify fun w => { w with trace := w.trace ++ [obs] }

def isDuplicate (env : Env) (alert : Alert) : Action (World δ) PyError Bool := fun w =>
  let r := cfg.dedup.isDuplicate alert.dedupKey cfg.beacon.dedupWindow env.now w.self
  (.ok r.1, { w with self := r.2 })

def notify (env : Env) (subject payload correlationId : Json) : Action (World δ) PyError Unit := do
  let alert ← Action.ofExcept (classify subject payload correlationId)
  let duplicate ← isDuplicate cfg env alert
  if duplicate then observe (.suppressed alert)
  else observe (.alerted alert (cfg.beacon.targets alert.severity))

def handle (env : Env) (event : Event) : Action (World δ) PyError Unit :=
  notify cfg env event.subject event.payload event.correlationId

def run (messages : List (Env × Message)) : Action (World δ) PyError Unit :=
  BaseAgent.run cfg.rt Env.infra (handle cfg) messages

/-! ## Beacon and the bus -/

/-- The bus and Beacon. -/
structure System (δ : Type) where
  world : World δ
  /-- The messages on Beacon's channels that it has not read yet. -/
  inFlight : List Message
  running : Bool := true

/-- What was published between two worlds on a channel Beacon subscribes to. -/
def arrivals (w w' : World δ) : List Message :=
  ((w'.bus.drop w.bus.length).filter fun p => subjects.contains p.1).map fun p => { data := p.2 }

/-- Beacon reads one message. -/
def System.step (s : System δ) (env : Env) : System δ :=
  match s.running, s.inFlight with
  | true, m :: rest =>
    let r := BaseAgent.onMessage cfg.rt env.infra (handle cfg env) m s.world
    { world := r.2, inFlight := rest ++ arrivals s.world r.2, running := r.1.isOk }
  | _, _ => s

def System.steps (s : System δ) (envs : List Env) : System δ := envs.foldl (System.step cfg) s

/-- Beacon is a sink for a backlog: whatever the clock reads and store and bus do, each step takes one
message off, nothing is published, and Beacon stays alive. -/
def Drains (w : World δ) (backlog : List Message) : Prop :=
  ∀ envs, let s := System.steps cfg { world := w, inFlight := backlog } envs
    s.world.bus = w.bus ∧ s.inFlight = backlog.drop envs.length ∧ s.running = true

/-- A message that is an event with a contract it meets. -/
def Contracted (m : Message) : Prop :=
  m.type = "message" → ∃ event, BaseAgent.decode m.data = .ok event ∧
    cfg.rt.registry.validate event.subject event.schemaVersion event.payload = .ok ()

/-! ## Escalation -/

/-- The severity a dead letter of the event calls for. -/
def Required (event : Event) (severity : Severity) : Prop :=
  Severity.error.value ≤ severity.value ∧
    (startsWith event.subject.pyStr "ledger." = true → severity = .critical)

/-- Between two worlds a dead letter was escalated: Beacon dispatched an alert of the required severity,
or suppressed one as the duplicate of an alert that has it. -/
def Escalated (event : Event) (w w' : World δ) : Prop :=
  (∃ alert channels, w'.trace = w.trace ++ [.alerted alert channels] ∧ Required event alert.severity) ∨
    ∃ alert, w'.trace = w.trace ++ [.suppressed alert] ∧
      ∃ subject payload correlationId alert', classify subject payload correlationId = .ok alert' ∧
        alert'.dedupKey = alert.dedupKey ∧ Required event alert'.severity

end BeaconAgent

end CaviErp
