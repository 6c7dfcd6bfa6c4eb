import CaviErp.Base.Outbox
import CaviErp.Beacon.Agent
import CaviErp.Beacon.Report
import CaviErp.Forge.Agent
import CaviErp.Forge.WriteAgent
import CaviErp.Ledger.Agent
import CaviErp.Ledger.Query
import CaviErp.Ledger.Reconcile
import CaviErp.Lib.Bus
import CaviErp.Mapper.Agent
import CaviErp.Mapper.ErpAgent
import CaviErp.Ticker.Agent
import CaviErp.Ticker.Webhook
import CaviErp.Vault.Agent
import Mathlib.Data.Fintype.Basic

/-!
# The fleet

All agents of the repository on one bus, with one event store. Each is a process that subscribes to its
subjects and reads one message after the other with `BaseAgent.run`; an exception ends it. A call of an agent
looks neither at the event store nor at the bus, so that the calls of different agents, which overlap in the
deployment, may be taken one after the other.

The channel of a message is only what it is subscribed by: what an agent handles is the event in the text.
-/

namespace CaviErp

open Py

namespace TickerAgent

variable {σ : Type} (rt : Runtime) (cache : CacheBackend σ) (ttl : Int) (env : Env)

/-- An operation of the runtime, among the exceptions of the agent. -/
def ofRuntime {W α : Type} (x : Action W PyError α) : Action W Failure α := fun w =>
  ((x w).1.mapError .py, (x w).2)

/-- `handle`, of an event with any payload. -/
def handleEvent (event : Event) : Action (World σ) Failure Unit :=
  match event.payload with
  | .obj req => handle rt cache ttl env event req
  | _ => Action.raise (.py (.typeError "indices must be integers"))

/-- `_dispatch`. -/
def dispatch (event : Event) : Action (World σ) Failure Unit :=
  match rt.registry.validate event.subject event.schemaVersion event.payload with
  | .error e =>
    if e.isContractFailure then ofRuntime (BaseAgent.deadLetter rt env.infra event e.text)
    else Action.raise (.py e)
  | .ok _ => handleEvent rt cache ttl env event

/-- The body of the loop of `run`. -/
def onMessage (m : Message) : Action (World σ) Failure Unit :=
  if m.type ≠ "message" then pure ()
  else do
    let event ← Action.ofExcept ((BaseAgent.decode m.data).mapError .py)
    dispatch rt cache ttl env event

end TickerAgent

/-- The agents, each a process of its own. -/
inductive AgentName where
  | forge
  | forgeWrite
  | ledger
  | ledgerQuery
  | ledgerReconcile
  | mapper
  | erpMapper
  | ticker
  | tickerWebhook
  | vault
  | beacon
  | beaconReport
deriving DecidableEq, Repr

namespace AgentName

def all : List AgentName :=
  [forge, forgeWrite, ledger, ledgerQuery, ledgerReconcile, mapper, erpMapper, ticker, tickerWebhook,
    vault, beacon, beaconReport]

instance : Fintype AgentName where
  elems := all.toFinset
  complete := by
    intro a
    cases a <;> decide

end AgentName

/-- The stores behind the agents, over states of their own, and what a restart leaves of each. -/
structure Backends where
  Books : Type
  ledger : LedgerStore Books
  keptBooks : Books → Books
  Secrets : Type
  credentials : CredentialStore Secrets
  keptSecrets : Secrets → Secrets
  Rates : Type
  cache : CacheBackend Rates
  keptRates : Rates → Rates
  Alerts : Type
  dedup : DedupStore Alerts
  keptAlerts : Alerts → Alerts

/-- The stores of single processes, which a restart empties. -/
def Backends.inMemory : Backends where
  Books := InMemoryLedgerStore
  ledger := InMemoryLedgerStore.store
  keptBooks _ := .empty
  Secrets := InMemoryCredentialStore
  credentials := InMemoryCredentialStore.store
  keptSecrets _ := fun _ => none
  Rates := InMemoryCache
  cache := InMemoryCache.backend
  keptRates _ := fun _ => none
  Alerts := String → Option ℚ
  dedup := inMemoryDedupStore
  keptAlerts _ := fun _ => none

/-- What the agents are built with. -/
structure Fleet where
  rt : Runtime
  backends : Backends
  uuid5 : String → String
  breaker : BreakerConfig := {}
  transformer : ErpTransformer := registerNetsuiteMappings {}
  ingestor : WebhookIngestor := {}
  ttl : Int := 60
  beacon : BeaconConfig := {}
  defaultTargets : List String

namespace Fleet

/-- The subjects an agent subscribes to. -/
def subjects : AgentName → List String
  | .forge => ForgeAgent.subjects
  | .forgeWrite => ForgeWriteAgent.subjects
  | .ledger => ["ledger.entry"]
  | .ledgerQuery => ["ledger.query.request"]
  | .ledgerReconcile => ["ticker.reconciliation.due"]
  | .mapper => ["mapper.transform"]
  | .erpMapper => ErpMapperAgent.subjects
  | .ticker => ["ticker.price.request"]
  | .tickerWebhook => TickerWebhookAgent.subjects
  | .vault => ["vault.secret.request"]
  | .beacon => BeaconAgent.subjects
  | .beaconReport =>
    ["deadletter.ledger.entry", "ledger.rejected", "vault.secret.denied", "ledger.posted",
      "forge.completed", "beacon.report.request"]

/-- The attributes of an agent that change. -/
def Self (b : Backends) : AgentName → Type
  | .forgeWrite => ForgeWriteAgent
  | .ledger => b.Books
  | .ticker => Ticker.World b.Rates
  | .vault => b.Secrets
  | .beacon => b.Alerts
  | .beaconReport => List Json
  | _ => Unit

/-- What is seen of an agent. -/
def Obs : AgentName → Type
  | .forgeWrite => ForgeWriteAgent.Obs
  | .beacon => BeaconObs
  | _ => Event

/-- What a call takes from outside. -/
def Env : AgentName → Type
  | .forge => ForgeAgent.Env
  | .forgeWrite => ForgeWriteAgent.Env
  | .ledger => LedgerAgent.Env
  | .ledgerQuery => LedgerQueryAgent.Env
  | .ledgerReconcile => LedgerReconcileAgent.Env
  | .mapper => MapperAgent.Env
  | .erpMapper => ErpMapperAgent.Env
  | .ticker => TickerAgent.Env
  | .tickerWebhook => TickerWebhookAgent.Env
  | .vault => VaultAgent.Env
  | .beacon => BeaconAgent.Env
  | .beaconReport => BeaconReportAgent.Env

variable (f : Fleet)

/-- What an agent does with a message. -/
def onMessage : (a : AgentName) → Env a → Message →
    Action (World (Self f.backends a) (Obs a)) TickerAgent.Failure Unit
  | .forge, env, m =>
    TickerAgent.ofRuntime (BaseAgent.onMessage f.rt env.infra (ForgeAgent.handle ⟨f.rt, f.uuid5⟩ env) m)
  | .forgeWrite, env, m =>
    TickerAgent.ofRuntime (BaseAgent.onMessage f.rt env.infra (ForgeWriteAgent.handle ⟨f.rt, f.breaker⟩ env) m)
  | .ledger, env, m =>
    TickerAgent.ofRuntime (BaseAgent.onMessage f.rt env.infra (LedgerAgent.handle f.rt f.backends.ledger env) m)
  | .ledgerQuery, env, m =>
    TickerAgent.ofRuntime (BaseAgent.onMessage f.rt env.infra (LedgerQueryAgent.handle f.rt env) m)
  | .ledgerReconcile, env, m =>
    TickerAgent.ofRuntime (BaseAgent.onMessage f.rt env.infra (LedgerReconcileAgent.handle f.rt env) m)
  | .mapper, env, m =>
    TickerAgent.ofRuntime (BaseAgent.onMessage f.rt env.infra (MapperAgent.handle f.rt env (MapperAgent.mapper f.rt)) m)
  | .erpMapper, env, m =>
    TickerAgent.ofRuntime (BaseAgent.onMessage f.rt env.infra (ErpMapperAgent.handle f.rt f.transformer env) m)
  | .ticker, env, m => TickerAgent.onMessage f.rt f.backends.cache f.ttl env m
  | .tickerWebhook, env, m =>
    TickerAgent.ofRuntime (BaseAgent.onMessage f.rt env.infra (TickerWebhookAgent.handle f.rt f.ingestor env) m)
  | .vault, env, m =>
    TickerAgent.ofRuntime (BaseAgent.onMessage f.rt env.infra (VaultAgent.handle f.rt f.backends.credentials env) m)
  | .beacon, env, m =>
    TickerAgent.ofRuntime (BaseAgent.onMessage f.rt env.infra
      (BeaconAgent.handle ⟨f.rt, f.beacon, f.backends.dedup⟩ env) m)
  | .beaconReport, env, m =>
    TickerAgent.ofRuntime (BaseAgent.onMessage f.rt env.infra
      (BeaconReportAgent.handle ⟨f.rt, f.defaultTargets⟩ env) m)

/-- What a restart leaves of the attributes: what is kept in memory alone is gone. -/
def kept : (a : AgentName) → Self f.backends a → Self f.backends a
  | .forgeWrite, _ => ({} : ForgeWriteAgent)
  | .ledger, s => f.backends.keptBooks s
  | .ticker, s => { s with cache := f.backends.keptRates s.cache }
  | .vault, s => f.backends.keptSecrets s
  | .beacon, s => f.backends.keptAlerts s
  | .beaconReport, _ => ([] : List Json)
  | .forge, s => s
  | .ledgerQuery, s => s
  | .ledgerReconcile, s => s
  | .mapper, s => s
  | .erpMapper, s => s
  | .tickerWebhook, s => s

/-- The agents on the bus, where a message is a channel and a text. With its attributes goes what was seen
of an agent. -/
abbrev network : Bus.Network AgentName where
  Msg := String × String
  Shared := EventStore
  State a := Self f.backends a × List (Obs a)
  Input := Env
  hears a m := (subjects a).contains m.1
  react a env m s store :=
    let r := f.onMessage a env { data := m.2 } { self := s.1, store := store, trace := s.2 }
    { state := (r.2.self, r.2.trace), shared := r.2.store, sent := r.2.bus, alive := r.1.isOk }
  reboot a s := (f.kept a s.1, s.2)

/-- The attributes of new agents over the stores of single processes. -/
def newborn : (a : AgentName) → Self .inMemory a
  | .forgeWrite => ({} : ForgeWriteAgent)
  | .ledger => InMemoryLedgerStore.empty
  | .ticker => ({ cache := fun _ => none } : Ticker.World InMemoryCache)
  | .vault => (fun _ => none : InMemoryCredentialStore)
  | .beacon => (fun _ => none : String → Option ℚ)
  | .beaconReport => ([] : List Json)
  | .forge => ()
  | .ledgerQuery => ()
  | .ledgerReconcile => ()
  | .mapper => ()
  | .erpMapper => ()
  | .tickerWebhook => ()

/-- Nothing has been published yet; some of the agents are running. -/
def start (selves : ∀ a, Self f.backends a) (store : EventStore) (running : AgentName → Bool) :
    f.network.Config where
  state a := (selves a, [])
  shared := store
  running := running

theorem five_failures : 1 ≤ 5 := by
  omega

/-- The agents over the repository's schemas, each a single process. -/
def localFleet : Fleet where
  rt := .repository "schema_registry/schemas" (fun _ _ => "'lines' is a required property") fun m => m
  backends := .inMemory
  breaker := { threshold_pos := five_failures }
  uuid5 := fun name => name
  defaultTargets := ["telegram"]

end Fleet

end CaviErp
