import CaviErp.Lib.Decimal
import CaviErp.Ledger.Reconcile

/-!
# Cavi records as NetSuite records

`agents/mapper/netsuite_records.py`: a mapping says which field of a Cavi record becomes which field of a
NetSuite record. What keeps a record from being mapped is collected, and raised in the end; a converter
raises at once.
-/

namespace CaviErp

open Py

/-- What a mapping raises: `MappingBlocked`, with all gaps, or another `ErpTransformError`. -/
inductive ErpTransformError where
  | mappingBlocked (sourceSchema : String) (gaps : List String)
  | refused (text : String)
deriving DecidableEq, Repr

namespace ErpTransformError

/-- `str(exc)`. -/
def text : ErpTransformError → String
  | mappingBlocked sourceSchema gaps =>
    "mapping blocked for " ++ sourceSchema ++ ": " ++ "; ".intercalate gaps
  | refused text => text

/-- The problems that the error tells of: its gaps, or its text. -/
def reports : ErpTransformError → List String
  | mappingBlocked _ gaps => gaps
  | refused text => [text]

end ErpTransformError

/-- A converter of the value of a field. -/
abbrev Converter := Json → Except ErpTransformError Json

def minorUnitsText (value : Json) : String :=
  "unit_price_minor must be integer minor units, got " ++ String.ofList value.repr

/-- `_minor_to_major`. -/
def minorToMajor : Converter
  | .int n => .ok (.str ((Decimal.ofInt n).divNat 100).str)
  | value => .error (.refused (minorUnitsText value))

/-- `value in (None, "")`. -/
def isBlank (value : Json) : Bool := value == .null || value == .str ""

/-- `value in (None, "", [])`. -/
def isBlankField (value : Json) : Bool := isBlank value || value == .arr []

/-- `sorted(set(record) - declared)`. -/
def undeclared (record : Obj) (declared : List String) : List String :=
  (record.keys.filter fun k => !declared.contains k).dedup.mergeSort (· ≤ ·)

/-- The loop over the fields of a mapping: what is there and not `None` is converted to its target. -/
def mapFields (convert : String → Converter) (record : Obj) :
    List (String × String) → Obj → Except ErpTransformError Obj
  | [], out => .ok out
  | (src, target) :: fields, out =>
    match record.get src with
    | .null => mapFields convert record fields out
    | value => do
      let converted ← convert src value
      mapFields convert record fields (out.set target converted)

/-- `converters.get(src, lambda v: v)`. -/
def converterOf (converters : List (String × Converter)) (src : String) : Converter :=
  (converters.lookup src).getD .ok

/-! ## Lines -/

structure LineMapping where
  /-- The NetSuite list field the mapped lines land in. -/
  target : String
  fields : List (String × String)
  required : List String := []
  converters : List (String × Converter) := []

namespace LineMapping

variable (m : LineMapping)

/-- `f"{field_name}[{i}]"`. -/
def lineName (fieldName : String) (i : Nat) : String := fieldName ++ "[" ++ toString i ++ "]"

/-- The gaps of a line. -/
def gapsOf (fieldName : String) (i : Nat) (line : Obj) : List String :=
  (m.required.filter fun req => isBlank (line.get req)).map
      (fun req => lineName fieldName i ++ "." ++ req ++ " is required") ++
    (undeclared line (m.fields.map Prod.fst)).map
      fun name => lineName fieldName i ++ "." ++ name ++ " has no NetSuite target (undeclared)"

/-- The loop over the lines, from the line `i`: the mapped lines, and the gaps. -/
def applyFrom (fieldName : String) :
    Nat → List Json → Except ErpTransformError (List Json × List String)
  | _, [] => .ok ([], [])
  | i, .obj line :: lines => do
    let mapped ← mapFields (converterOf m.converters) line m.fields []
    let rest ← applyFrom fieldName (i + 1) lines
    return (.obj mapped :: rest.1, m.gapsOf fieldName i line ++ rest.2)
  | i, _ :: lines => do
    let rest ← applyFrom fieldName (i + 1) lines
    return (rest.1, (lineName fieldName i ++ " must be an object") :: rest.2)

def apply (fieldName : String) : Json → Except ErpTransformError (List Json × List String)
  | .arr (line :: lines) => m.applyFrom fieldName 0 (line :: lines)
  | _ => .ok ([], [fieldName ++ " must be a non-empty list"])

end LineMapping

/-! ## Records -/

structure RecordMapping where
  sourceSchema : String
  targetSchema : String
  /-- The NetSuite record type. -/
  targetModule : String
  fields : List (String × String)
  required : List String := []
  /-- The fields that are deliberately not carried. -/
  unmapped : List String := []
  converters : List (String × Converter) := []
  lines : List (String × LineMapping) := []

namespace RecordMapping

variable (m : RecordMapping)

/-- `set(self.fields) | set(self.unmapped) | set(self.lines)`. -/
def declared : List String := m.fields.map Prod.fst ++ m.unmapped ++ m.lines.map Prod.fst

/-- The gaps of the fields of a record. -/
def gapsOf (record : Obj) : List String :=
  (m.required.filter fun req => isBlankField (record.get req)).map (fun req => req ++ " is required") ++
    (undeclared record m.declared).map fun name => name ++ " has no NetSuite target (undeclared)"

/-- The loop over the line fields: what they add to the output, and their gaps. -/
def applyLines (record : Obj) :
    List (String × LineMapping) → Obj → Except ErpTransformError (Obj × List String)
  | [], out => .ok (out, [])
  | (src, line) :: lines, out =>
    match record.get? src with
    | none => applyLines record lines out
    | some value => do
      let mapped ← line.apply src value
      let rest ← applyLines record lines (out.set line.target (.arr mapped.1))
      return (rest.1, mapped.2 ++ rest.2)

def apply (record : Obj) : Except ErpTransformError Obj := do
  let out ← mapFields (converterOf m.converters) record m.fields []
  let r ← applyLines record m.lines out
  let gaps := m.gapsOf record ++ r.2
  if gaps ≠ [] then .error (.mappingBlocked m.sourceSchema gaps) else .ok r.1

end RecordMapping

/-! ## The reference mappings -/

/-- `ITEM`. -/
def itemMapping : RecordMapping where
  sourceSchema := "cavi.item.v1"
  targetSchema := "netsuite.lotNumberedInventoryItem.v1"
  targetModule := "lotNumberedInventoryItem"
  required := ["sku", "name"]
  fields := [("sku", "itemId"), ("name", "displayName"), ("upc", "upcCode"),
    ("shelf_life_days", "shelfLife"), ("unit_price_minor", "basePrice")]
  converters := [("unit_price_minor", minorToMajor)]
  unmapped := ["item_id", "notes"]

/-- `ADJUSTMENT_LINES`. -/
def adjustmentLines : LineMapping where
  target := "inventory"
  fields := [("sku", "item"), ("quantity_delta", "adjustQtyBy"),
    ("lot_number", "receiptInventoryNumber"), ("expiry_date", "expirationDate")]
  required := ["sku", "quantity_delta"]

/-- `ADJUSTMENT`. -/
def adjustmentMapping : RecordMapping where
  sourceSchema := "cavi.inventory_adjustment.v1"
  targetSchema := "netsuite.inventoryAdjustment.v1"
  targetModule := "inventoryAdjustment"
  required := ["account", "location", "lines"]
  fields := [("account", "account"), ("location", "adjLocation"), ("memo", "memo")]
  lines := [("lines", adjustmentLines)]
  unmapped := ["adjustment_id", "counted_by"]

/-- `TRANSFER_LINES`. -/
def transferLines : LineMapping where
  target := "item"
  fields := [("sku", "item"), ("quantity", "quantity"), ("lot_number", "issueInventoryNumber")]
  required := ["sku", "quantity"]

/-- `TRANSFER`. -/
def transferMapping : RecordMapping where
  sourceSchema := "cavi.transfer.v1"
  targetSchema := "netsuite.transferOrder.v1"
  targetModule := "transferOrder"
  required := ["location_from", "location_to", "lines"]
  fields := [("location_from", "location"), ("location_to", "transferLocation"),
    ("expected_ship_date", "shipDate"), ("memo", "memo")]
  lines := [("lines", transferLines)]
  unmapped := ["transfer_id"]

/-- `NETSUITE_RECORD_MAPPINGS`. -/
def netsuiteRecordMappings : List RecordMapping := [itemMapping, adjustmentMapping, transferMapping]

end CaviErp
