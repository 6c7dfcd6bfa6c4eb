import CaviErp.Base.Agent

/-!
# Whose events are whose

The envelope of an event names its tenant so that the event log can be read tenant by tenant. Many
payloads name a tenant of their own, and the two should agree.
-/

namespace CaviErp

open Py

/-- What reaches an agent: an event that is handed to `handle`, or a message from the bus. -/
inductive Inbound where
  | event (e : Event)
  | message (m : Message)

def BaseAgent.receive {σ ω : Type} (rt : Runtime) (infra : Infra)
    (handle : Event → Action (World σ ω) PyError Unit) : Inbound → Action (World σ ω) PyError Unit
  | .event e => handle e
  | .message m => onMessage rt infra handle m

/-- A tenant that the payload names is the tenant of the envelope. -/
def Event.Scoped (e : Event) : Prop :=
  ∀ t, item e.payload "tenant_id" = .ok t → e.tenantId = t

/-- The rows of the event log with a tenant. -/
def EventStore.rowsOf (tenantId : String) (s : EventStore) : List Event :=
  s.events.filter fun e => e.tenantId = .str tenantId

/-- All that was recorded between two worlds has the property. -/
def Records {σ ω : Type} (P : Event → Prop) (w w' : World σ ω) : Prop :=
  ∃ new, w'.store.events = w.store.events ++ new ∧ ∀ e ∈ new, P e

/-- No event that was recorded between two worlds can be found by its tenant. -/
structure Unaudited {σ ω : Type} (w w' : World σ ω) : Prop where
  recorded : Records (fun e => ¬ e.Scoped) w w'
  scoped_iff : Records Event.Scoped w w' ↔ w'.store.events = w.store.events
  rows : ∀ tenantId, w'.store.rowsOf tenantId = w.store.rowsOf tenantId

end CaviErp
