import CaviErp.Beacon.Agent
import CaviErp.Lib.Unwinding

/-!
# Whose alerts

Beacon serves all tenants with one store of the alerts it has sent. What it dispatches for the events of
one tenant is compared with the run in which there are no others.
-/

namespace CaviErp

open Py

namespace BeaconAgent

/-- A call of `notify`: an event that Beacon subscribes to, about a tenant or a write. -/
structure Call where
  env : Env
  subject : String
  payload : Obj
  correlationId : Json := .null
  subscribed : subject ∈ subjects
  concerns : payload.get "tenant_id" ≠ .null ∨ payload.get "write_id" ≠ .null

/-- The tenant that a payload is about, named by it or known by the write it names. -/
def ownerOf (ofWrite : Json → Json) (payload : Obj) : Json :=
  if payload.get "tenant_id" = .null then ofWrite (payload.get "write_id") else payload.get "tenant_id"

/-- The payloads are about different tenants, or about different writes. -/
def Foreign (ofWrite : Json → Json) (p q : Obj) : Prop :=
  ownerOf ofWrite p ≠ ownerOf ofWrite q ∨
    p.get "write_id" ≠ .null ∧ q.get "write_id" ≠ .null ∧ p.get "write_id" ≠ q.get "write_id"

/-! ## What tells failures apart -/

/-- The fields that may name the failure, in the order in which they are looked at. -/
def identifiers : List String := ["entry_id", "work_order_id", "run_id", "id"]

/-- The payload names its failure: `name` is what the first of the fields reads that holds anything. -/
def Named (payload : Obj) (name : String) : Prop :=
  ∃ before field after, identifiers = before ++ field :: after ∧
    (∀ f ∈ before, (payload.get f).truthy = false) ∧ (payload.get field).truthy = true ∧
    (payload.get field).pyStr = name

/-- One of the payloads names its failure, and the other does not name it so. -/
def Distinguished (p q : Obj) : Prop :=
  ∃ name, (Named p name ∧ ¬ Named q name) ∨ (Named q name ∧ ¬ Named p name)

/-! ## Runs -/

variable {δ : Type} (cfg : Config δ)

/-- One call, with what was seen of Beacon in it. -/
def answer (w : World δ) (call : Call) : List BeaconObs × World δ :=
  let w' := (notify cfg call.env (.str call.subject) (.obj call.payload) call.correlationId w).2
  (w'.trace.drop w.trace.length, w')

def dispatched : BeaconObs → Bool
  | .alerted _ _ => true
  | .suppressed _ => false

/-- The events of the tenant in a run, each with the alerts dispatched for it. -/
def alertsFor (ofWrite : Json → Json) (tenant : Json) (w : World δ) (calls : List Call) :
    List (Call × List BeaconObs) :=
  ((Unwinding.outputs (answer cfg) w calls).filter fun x => ownerOf ofWrite x.1.payload = tenant).map
    fun x => (x.1, x.2.filter dispatched)

/-- Each tenant is alerted as if there were no others. -/
def Isolated (ofWrite : Json → Json) (w : World δ) (calls : List Call) : Prop :=
  ∀ tenant, alertsFor cfg ofWrite tenant w calls =
    alertsFor cfg ofWrite tenant w (calls.filter fun c => ownerOf ofWrite c.payload = tenant)

/-- Events of different tenants or writes on one subject are deduplicated under different keys. -/
def KeysApart (ofWrite : Json → Json) (calls : List Call) : Prop :=
  ∀ c ∈ calls, ∀ c' ∈ calls, c.subject = c'.subject → Foreign ofWrite c.payload c'.payload →
    ∀ alert alert', classify (.str c.subject) (.obj c.payload) c.correlationId = .ok alert →
      classify (.str c'.subject) (.obj c'.payload) c'.correlationId = .ok alert' →
      alert.dedupKey ≠ alert'.dedupKey

end BeaconAgent

/-! ## Stores of cells -/

/-- The store keeps one cell for each key, and answers for a key by its cell. -/
structure DedupStore.Cellwise (store : DedupStore (String → Option ℚ)) where
  cell : String → String
  cell_injective : Function.Injective cell
  answer_eq : ∀ key window now {s t : String → Option ℚ}, s (cell key) = t (cell key) →
    (store.isDuplicate key window now s).1 = (store.isDuplicate key window now t).1 ∧
      (store.isDuplicate key window now s).2 (cell key) =
        (store.isDuplicate key window now t).2 (cell key)
  frame : ∀ key window now (s : String → Option ℚ) name, name ≠ cell key →
    (store.isDuplicate key window now s).2 name = s name

end CaviErp
