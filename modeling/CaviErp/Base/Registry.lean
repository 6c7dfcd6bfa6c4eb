import CaviErp.Lib.Schema
import CaviErp.Base.Contract

/-!
# The schema registry

`agents/base/registry.py` over the contracts of `schema_registry/schemas/`. A registry is a directory
of schema files; the lookup key is the file name `<subject>.v<version>`, with both parts formatted
into the name. The files do not change while an agent runs, so the cache is not visible.

The text of a `jsonschema.ValidationError` comes from the `jsonschema` package and is left open.
-/

namespace CaviErp

open Py

/-- A directory of schemas. -/
structure SchemaRegistry where
  dir : String
  /-- The schema in the file of the given name (without `.json`), if the file exists. -/
  files : String → Option Schema
  /-- The message of the `ValidationError` for an invalid value. -/
  complaint : Schema → Json → String

namespace SchemaRegistry

/-- `f"{subject}.v{version}"`. -/
def key (subject version : Json) : String := subject.pyStr ++ ".v" ++ version.pyStr

def get (r : SchemaRegistry) (subject version : Json) : Except PyError Schema :=
  match r.files (key subject version) with
  | some s => .ok s
  | none =>
    .error (.schemaNotFound
      ("No schema registered for " ++ key subject version ++ " at " ++
        r.dir ++ "/" ++ key subject version ++ ".json"))

def validate (r : SchemaRegistry) (subject version payload : Json) : Except PyError Unit := do
  let schema ← r.get subject version
  if schema.valid payload then .ok () else .error (.validationError (r.complaint schema payload))

end SchemaRegistry

/-! ## The registered contracts -/

open Schema

/-- `^[A-Z]{3}$` under `re.search`: `$` also matches before a final newline. -/
def currencyPattern (s : String) : Bool :=
  match s.toList with
  | [a, b, c] => a.isUpper && b.isUpper && c.isUpper
  | [a, b, c, '\n'] => a.isUpper && b.isUpper && c.isUpper
  | _ => false

/-- A non-empty run of ASCII digits. -/
def isDigits (cs : List Char) : Bool := !cs.isEmpty && cs.all Char.isDigit

/-- `^[0-9]+(\.[0-9]+)?$` under `re.search`. -/
def decimalPattern (s : String) : Bool :=
  let cs := if s.toList.getLast? = some '\n' then s.toList.dropLast else s.toList
  let whole := cs.takeWhile (· != '.')
  match cs.dropWhile (· != '.') with
  | [] => isDigits whole
  | _ :: fraction => isDigits whole && isDigits fraction

def currency : Schema := mk { types := [.string], pattern := some currencyPattern } [] none

/-- One of the given strings, with no `type` keyword. -/
def oneOf (names : List String) : Schema :=
  mk { enum := some (names.map Json.str) } [] none

/-- A list whose elements have the given schema. -/
def listOf (minItems : Nat) (s : Schema) : Schema :=
  mk { types := [.array], minItems := minItems } [] (some s)

def journalLineSchema : Schema :=
  strictRecord [("account", text 0), ("direction", oneOf ["debit", "credit"]),
    ("amount_minor", atLeast 1)]

def ledgerEntryV1 : Schema :=
  record ["entry_id", "currency", "lines"]
    [("entry_id", text 0), ("currency", currency),
      ("memo", mk { types := [.string], maxLength := some 280 } [] none),
      ("lines", listOf 2 journalLineSchema)]

def ledgerEntryV2 : Schema :=
  record ["entry_id", "currency", "entry_type", "lines"]
    [("entry_id", text 0), ("currency", currency),
      ("entry_type", oneOf ["sale", "refund", "adjustment"]),
      ("description", mk { types := [.string], maxLength := some 280 } [] none),
      ("lines", listOf 2 journalLineSchema)]

def ledgerPostedV1 : Schema :=
  strictRecord [("entry_id", text 0), ("currency", currency), ("total_minor", atLeast 1),
    ("line_count", atLeast 2)]

def ledgerRejectedV1 : Schema :=
  strictRecord [("entry_id", text 0), ("currency", currency), ("reason", text 1),
    ("total_debits", atLeast 0), ("total_credits", atLeast 0)]

def ledgerQueryCompletedV1 : Schema :=
  strictRecord [("tenant_id", text 1), ("erp_platform", text 1), ("subject", text 1),
    ("filters", anyObject), ("result_count", atLeast 0), ("payload", listOf 0 anyObject),
    ("schema_version", text 1), ("queried_at", text 0)]

def ledgerQueryFailedV1 : Schema :=
  strictRecord [("tenant_id", text 1), ("erp_platform", text 1), ("subject", text 1),
    ("filters", anyObject), ("reason", text 1), ("failed_at", text 0)]

def ledgerReconciliationCompletedV1 : Schema :=
  strictRecord [("tenant_id", text 1), ("erp_platform", text 1), ("scope", text 1),
    ("run_id", text 1), ("checked", atLeast 0), ("matched", atLeast 0), ("drift_count", atLeast 0),
    ("completed_at", text 0)]

/-- How the two sides of a reconciliation can disagree. -/
def discrepancyKind : Keywords where
  types := [.string]
  enum := some [.str "missing_in_erp", .str "unexpected_in_erp", .str "field_mismatch"]

def ledgerDriftDetectedV1 : Schema :=
  strictRecord [("tenant_id", text 1), ("erp_platform", text 1), ("scope", text 1),
    ("run_id", text 1),
    ("discrepancies", listOf 1 (record ["external_id", "kind"]
      [("external_id", text 1),
        ("kind", mk discrepancyKind [] none),
        ("fields", listOf 1 (record ["field"]
          [("field", text 1), ("expected", mk {} [] none), ("actual", mk {} [] none)]))])),
    ("detected_at", text 0)]

def forgeCompletedV1 : Schema :=
  strictRecord [("work_order_id", text 1), ("tenant_id", text 1), ("sku", text 1),
    ("quantity", atLeast 1), ("currency", currency), ("net_minor", atLeast 1),
    ("tax_minor", atLeast 0), ("gross_minor", atLeast 1)]

/-- The fields `forge.write.requested` has had since its first version. -/
def forgeWriteRequestedFields : List (String × Schema) :=
  [("tenant_id", text 1), ("erp_platform", text 1), ("operation", text 1),
    ("target_module", text 1), ("payload", anyObject), ("requested_by", text 1),
    ("requested_at", text 0), ("diff_preview", text 0)]

def forgeWriteRequestedV1 : Schema := strictRecord forgeWriteRequestedFields

def forgeWriteRequestedV2 : Schema :=
  strictRecord (forgeWriteRequestedFields ++ [("reverses", textOrNull)])

def forgeWriteRequestedV3 : Schema :=
  strictRecord (forgeWriteRequestedFields ++
    [("reverses", textOrNull), ("target_external_id", textOrNull)])

def forgeWriteApprovedV1 : Schema :=
  strictRecord [("tenant_id", text 1), ("erp_platform", text 1), ("operation", text 1),
    ("approved_by", text 1), ("approved_at", text 0), ("write_id", text 1)]

def forgeWriteRejectedV1 : Schema :=
  strictRecord [("tenant_id", text 1), ("erp_platform", text 1), ("operation", text 1),
    ("rejected_by", text 1), ("rejected_at", text 0), ("reason", text 1)]

def forgeWriteCompletedV1 : Schema :=
  strictRecord [("tenant_id", text 1), ("erp_platform", text 1), ("operation", text 1),
    ("write_id", text 1), ("erp_confirmation", anyObject), ("completed_at", text 0)]

def beaconReportGeneratedV1 : Schema :=
  strictRecord [("tenant_id", text 1), ("report_type", text 1), ("kpis", anyObject),
    ("period_start", text 0), ("period_end", text 0), ("generated_at", text 0),
    ("delivery_targets", listOf 0 (text 1))]

def deadletterEnvelopeV1 : Schema :=
  strictRecord [("id", text 0), ("subject", text 0), ("schema_version", atLeast 1),
    ("source", text 0), ("correlation_id", textOrNull), ("tenant_id", textOrNull),
    ("payload", anyObject), ("error", text 1)]

def mapperTransformCompletedV1 : Schema :=
  strictRecord [("tenant_id", text 1), ("source_erp", text 1), ("source_schema", text 1),
    ("target_schema", text 1), ("input_hash", text 1), ("output", anyObject),
    ("transformed_at", text 0)]

def mapperTransformFailedV1 : Schema :=
  strictRecord [("tenant_id", text 1), ("source_erp", text 1), ("source_schema", text 1),
    ("reason", text 1), ("failed_at", text 0)]

def tickerEventReceivedV1 : Schema :=
  strictRecord [("tenant_id", text 1), ("erp_platform", text 1), ("event_type", text 1),
    ("raw_payload", anyObject), ("received_at", text 0), ("routed_to", text 1)]

def tickerPriceV1 : Schema :=
  record ["base", "quote", "rate", "as_of"]
    [("base", currency), ("quote", currency),
      ("rate", mk { types := [.string], pattern := some decimalPattern } [] none),
      ("as_of", mk { types := [.number] } [] none), ("amount_minor", atLeast 0),
      ("converted_minor", atLeast 0)]

def tickerReconciliationDueV1 : Schema :=
  strictRecord [("tenant_id", text 1), ("erp_platform", text 1), ("scope", text 1),
    ("due_at", text 0)]

def vaultSecretDeniedV1 : Schema :=
  strictRecord [("tenant_id", text 1), ("erp_platform", text 1), ("reason", text 1),
    ("requested_at", text 0)]

def vaultSecretGrantedV1 : Schema :=
  strictRecord [("tenant_id", text 1), ("erp_platform", text 1), ("token_id", text 1),
    ("scopes", listOf 0 (text 1)), ("expires_at", text 0), ("issued_at", text 0)]

/-- The files of `schema_registry/schemas/`. -/
def schemaFiles : List (String × Schema) :=
  [("beacon.report.generated.v1", beaconReportGeneratedV1),
    ("deadletter.envelope.v1", deadletterEnvelopeV1),
    ("forge.completed.v1", forgeCompletedV1),
    ("forge.write.approved.v1", forgeWriteApprovedV1),
    ("forge.write.completed.v1", forgeWriteCompletedV1),
    ("forge.write.rejected.v1", forgeWriteRejectedV1),
    ("forge.write.requested.v1", forgeWriteRequestedV1),
    ("forge.write.requested.v2", forgeWriteRequestedV2),
    ("forge.write.requested.v3", forgeWriteRequestedV3),
    ("ledger.drift.detected.v1", ledgerDriftDetectedV1),
    ("ledger.entry.v1", ledgerEntryV1),
    ("ledger.entry.v2", ledgerEntryV2),
    ("ledger.posted.v1", ledgerPostedV1),
    ("ledger.query.completed.v1", ledgerQueryCompletedV1),
    ("ledger.query.failed.v1", ledgerQueryFailedV1),
    ("ledger.reconciliation.completed.v1", ledgerReconciliationCompletedV1),
    ("ledger.rejected.v1", ledgerRejectedV1),
    ("mapper.transform.completed.v1", mapperTransformCompletedV1),
    ("mapper.transform.failed.v1", mapperTransformFailedV1),
    ("ticker.event.received.v1", tickerEventReceivedV1),
    ("ticker.price.v1", tickerPriceV1),
    ("ticker.reconciliation.due.v1", tickerReconciliationDueV1),
    ("vault.secret.denied.v1", vaultSecretDeniedV1),
    ("vault.secret.granted.v1", vaultSecretGrantedV1)]

/-- `SchemaRegistry()` over the repository's schemas, wherever the directory lies and whatever
`jsonschema` writes into its errors. -/
def SchemaRegistry.repository (dir : String) (complaint : Schema → Json → String) :
    SchemaRegistry where
  dir := dir
  files := fun name => schemaFiles.lookup name
  complaint := complaint

end CaviErp
