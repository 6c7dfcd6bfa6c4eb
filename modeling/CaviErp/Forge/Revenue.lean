import CaviErp.Forge.Agent
import CaviErp.Ledger.Agent
import CaviErp.Ledger.Books

/-!
# Revenue recognition, end to end

Work orders go to the forge agent, the `ledger.entry` events it emits go to the ledger agent, both any
number of times and in any order. `ExactlyOnce` says what the books should then look like: one entry for
each pair of a tenant and a work order that was completed.
-/

namespace CaviErp

open Py

/-- What a store of the ledger holds, by key: for each entry its tenant and its lines. -/
structure Journal (κ : Type) where
  keys : List κ
  held : κ → List (String × List JournalLine)

def InMemoryLedgerStore.journal (s : InMemoryLedgerStore) : Journal String where
  keys := s.entries.map JournalEntry.entryId
  held := fun k => (s.entries.filter fun e => e.entryId = k).map fun e => (e.tenantId, e.lines)

def Postgres.journal {κ : Type} [DecidableEq κ] (t : Postgres.Tables κ) : Journal κ where
  keys := t.entries.map EntryRow.entryId
  held := fun k => (t.entries.filter fun row => row.entryId = k).map fun row =>
    (row.tenantId, (t.lines.filter fun line => line.entryId = k).map LineRow.line)

namespace ForgeAgent

/-- What was delivered to the agent: an event, with the ids of the two events it may lead to. -/
abbrev Delivery := (String → String) × Event

/-- The events that deliveries lead to, with a store and a bus that do not fail. -/
def emitted (cfg : Config) (ds : List Delivery) : List Event :=
  (deliver cfg (ds.map fun d => ({ uuid := d.1 }, d.2)) { self := () }).trace

/-- A `forge.completed` event for the work order of a tenant. -/
def CompletedPair (events : List Event) (tenantId workOrderId : String) : Prop :=
  ∃ e ∈ events, e.subject = "forge.completed" ∧
    item e.payload "tenant_id" = .ok (.str tenantId) ∧
    item e.payload "work_order_id" = .ok (.str workOrderId)

/-- A delivered order of that pair. -/
def DeliveredOrder (ds : List Delivery) (tenantId workOrderId : String) (order : WorkOrder) : Prop :=
  ∃ d ∈ ds, WorkOrder.fromPayload d.2.payload = .ok order ∧
    order.tenantId = .str tenantId ∧ order.workOrderId = .str workOrderId

/-- The id of the entry of a pair. -/
def pairEntryId (uuid5 : String → String) (tenantId workOrderId : String) : String :=
  uuid5 (tenantId ++ ":" ++ workOrderId)

/-- Every completed pair has exactly one entry, owned by its tenant and with the amounts of one of its
deliveries; there is no other entry, and no two pairs share one. -/
structure ExactlyOnce {κ : Type} (uuid5 : String → String) (key : String → Option κ)
    (ds : List Delivery) (events : List Event) (journal : Journal κ) : Prop where
  one : ∀ t w, CompletedPair events t w →
    ∃ k order, key (pairEntryId uuid5 t w) = some k ∧ DeliveredOrder ds t w order ∧
      journal.held k = [(t, revenueLines order)]
  only : ∀ k ∈ journal.keys, ∃ t w, CompletedPair events t w ∧
    key (pairEntryId uuid5 t w) = some k
  unshared : ∀ t w t' w', CompletedPair events t w → CompletedPair events t' w' →
    key (pairEntryId uuid5 t w) = key (pairEntryId uuid5 t' w') → t = t' ∧ w = w'

end ForgeAgent

namespace LedgerAgent

/-- Deliveries of the `ledger.entry` events among some events, each at least once. -/
def DeliversEntries (events : List Event) (ls : List Delivery) : Prop :=
  (∀ l ∈ ls, l.event ∈ events ∧ l.event.subject = "ledger.entry") ∧
    ∀ e ∈ events, e.subject = "ledger.entry" → ∃ l ∈ ls, l.event = e

end LedgerAgent

end CaviErp
