import CaviErp.Ledger.Ledger

/-!
# Work orders and their completion

`agents/forge/forge.py`: the state machine of a work order, and the balanced ledger entry of a completed
one. `forge.workorder` has no contract, so the fields of an order that `from_payload` does not convert
are `Json`. `uuid5 name` stands for `str(uuid.uuid5(_ENTRY_NAMESPACE, name))`.
-/

namespace CaviErp

open Py

inductive WorkOrderState where
  | created
  | inProgress
  | completed
  | cancelled
deriving DecidableEq, Repr

namespace WorkOrderState

def value : WorkOrderState → String
  | created => "created"
  | inProgress => "in_progress"
  | completed => "completed"
  | cancelled => "cancelled"

def ofJson : Json → Except PyError WorkOrderState
  | .str "created" => .ok created
  | .str "in_progress" => .ok inProgress
  | .str "completed" => .ok completed
  | .str "cancelled" => .ok cancelled
  | j => .error (.valueError (String.ofList j.repr ++ " is not a valid WorkOrderState"))

/-- `_ALLOWED`: the forward transitions; `completed` and `cancelled` are terminal. -/
def allowed : WorkOrderState → List WorkOrderState
  | created => [inProgress, cancelled]
  | inProgress => [completed, cancelled]
  | completed => []
  | cancelled => []

end WorkOrderState

/-- A work order; amounts are in minor units, the tax rate in basis points. -/
structure WorkOrder where
  workOrderId : Json
  tenantId : Json
  sku : Json
  quantity : Int
  unitPriceMinor : Int
  currency : Json
  taxRateBps : Int := 0
  state : WorkOrderState := .created
deriving DecidableEq, Repr

namespace WorkOrder

def netMinor (o : WorkOrder) : Int := o.quantity * o.unitPriceMinor

/-- `tax_minor`; division by a positive number rounds down, as `//` does. -/
def taxMinor (o : WorkOrder) : Int := o.netMinor * o.taxRateBps / 10000

def grossMinor (o : WorkOrder) : Int := o.netMinor + o.taxMinor

def transitionTo (o : WorkOrder) (newState : WorkOrderState) : Except PyError WorkOrder :=
  if newState ∈ o.state.allowed then .ok { o with state := newState }
  else .error (.invalidTransition
    ("work order " ++ o.workOrderId.pyStr ++ ": " ++ o.state.value ++ " -> " ++ newState.value))

def fromPayload (payload : Json) : Except PyError WorkOrder := do
  let workOrderId ← item payload "work_order_id"
  let tenantId ← item payload "tenant_id"
  let sku ← item payload "sku"
  let quantity ← item payload "quantity" >>= asInt
  let unitPriceMinor ← item payload "unit_price_minor" >>= asInt
  let currency ← item payload "currency"
  let taxRateBps ← getItem? payload "tax_rate_bps" >>= fun v => asInt (v.getD (.int 0))
  let state ← getItem? payload "state" >>= fun v =>
    WorkOrderState.ofJson (v.getD (.str WorkOrderState.created.value))
  return { workOrderId, tenantId, sku, quantity, unitPriceMinor, currency, taxRateBps, state }

end WorkOrder

/-! ## Revenue recognition -/

def accountReceivable : String := "1100-accounts-receivable"

def accountRevenue : String := "4000-revenue"

def accountTaxPayable : String := "2200-tax-payable"

/-- The name that `ledger_entry_id` hashes. -/
def ledgerEntryName (order : WorkOrder) : String :=
  order.tenantId.pyStr ++ ":" ++ order.workOrderId.pyStr

variable (uuid5 : String → String)

def ledgerEntryId (order : WorkOrder) : String := uuid5 (ledgerEntryName order)

/-- The lines of `revenue_lines`: the gross receivable against net revenue and, unless it is zero, the
tax payable. -/
def revenueLines (order : WorkOrder) : List JournalLine :=
  [⟨accountReceivable, .debit, order.grossMinor⟩, ⟨accountRevenue, .credit, order.netMinor⟩] ++
    if order.taxMinor ≠ 0 then [⟨accountTaxPayable, .credit, order.taxMinor⟩] else []

def JournalLine.toDict (line : JournalLine) : Json :=
  .obj [("account", .str line.account), ("direction", .str line.direction.value),
    ("amount_minor", .int line.amountMinor)]

/-- The memo of the ledger entry of an order. -/
def saleMemo (order : WorkOrder) : String :=
  "sale " ++ order.sku.pyStr ++ " x" ++ toString order.quantity ++ " (wo " ++
    order.workOrderId.pyStr ++ ")"

def completedEvent (order : WorkOrder) : Json :=
  .obj [("work_order_id", order.workOrderId), ("tenant_id", order.tenantId), ("sku", order.sku),
    ("quantity", .int order.quantity), ("currency", order.currency),
    ("net_minor", .int order.netMinor), ("tax_minor", .int order.taxMinor),
    ("gross_minor", .int order.grossMinor)]

def ledgerEntry (order : WorkOrder) : Json :=
  .obj [("entry_id", .str (ledgerEntryId uuid5 order)), ("currency", order.currency),
    ("memo", .str (saleMemo order)), ("lines", .arr ((revenueLines order).map JournalLine.toDict))]

structure CompletionResult where
  order : WorkOrder
  completedEvent : Json
  ledgerEntry : Json

namespace Forge

def start (order : WorkOrder) : Except PyError WorkOrder := order.transitionTo .inProgress

def cancel (order : WorkOrder) : Except PyError WorkOrder := order.transitionTo .cancelled

def complete (order : WorkOrder) : Except PyError CompletionResult := do
  let completed ← order.transitionTo .completed
  return {
    order := completed
    completedEvent := completedEvent completed
    ledgerEntry := ledgerEntry uuid5 completed }

end Forge

end CaviErp
