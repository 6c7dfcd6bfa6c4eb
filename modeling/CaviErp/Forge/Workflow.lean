import CaviErp.Forge.Forge
import CaviErp.Lib.Js

/-!
# The sale-to-posting workflow

`middleware/n8n/workflows/sale-to-posting.json`: on a `forge.completed` event, a code node builds the envelope
of a ledger entry, which the last node publishes as JSON on `ledger.entry`.
-/

namespace CaviErp

open Py Js

namespace SaleToPosting

def line (account direction : String) (amountMinor : Value) : Value :=
  .object [("account", .string account), ("direction", .string direction), ("amount_minor", amountMinor)]

/-- The lines; a tax that is missing counts as zero. -/
def lines (e : Value) : List Value :=
  [line "1100-accounts-receivable" "debit" (e.prop "gross_minor"),
    line "4000-revenue" "credit" (e.prop "net_minor")] ++
    if ((e.prop "tax_minor").orElse (.number (.finite 0))).positive then
      [line "2200-tax-payable" "credit" (e.prop "tax_minor")]
    else []

def memo (e : Value) : String :=
  "sale " ++ (e.prop "sku").text ++ " x" ++ (e.prop "quantity").text ++ " (wo " ++
    (e.prop "work_order_id").text ++ ")"

def payload (e : Value) : Value :=
  .object [("entry_id", e.prop "entry_id"), ("currency", e.prop "currency"), ("memo", .string (memo e)),
    ("lines", .array (lines e))]

/-- `Build ledger.entry`, for the item `evt`. -/
def buildLedgerEntry (evt : Value) : Value :=
  let e := (evt.prop "payload").orElse evt
  .object [("subject", .string "ledger.entry"), ("schema_version", .number (.finite 1)),
    ("source", .string "n8n:sale-to-posting"), ("correlation_id", (evt.prop "correlation_id").orElse .null),
    ("payload", payload e)]

/-- What a subscriber reads in the message that the workflow publishes for an event; `none` where its text is
no JSON. -/
def published (event : Event) : Option Json :=
  (Js.parse (.obj event.toDict)).bind fun evt => (buildLedgerEntry evt).stringified

/-- The payload of that message. -/
def derivedEntry (event : Event) : Option Obj :=
  match published event with
  | some (.obj envelope) =>
    match Obj.get? envelope "payload" with
    | some (.obj entry) => some entry
    | _ => none
  | _ => none

end SaleToPosting

end CaviErp
