import CaviErp.Base.Agent

/-!
# Reconciling Cavi with an ERP

`agents/ledger/reconcile.py` and `agents/ledger/reconcile_agent.py`: the records Cavi expects are
compared with those of the ERP, both by external id, and every disagreement is reported. A mapping is
the list of its items; its keys are distinct.
-/

namespace CaviErp

open Py

/-- The records of one side, by external id. -/
abbrev StateRecords := List (String × Obj)

inductive DiscrepancyKind where
  | missingInErp
  | unexpectedInErp
  | fieldMismatch
deriving DecidableEq, Repr

def DiscrepancyKind.value : DiscrepancyKind → String
  | .missingInErp => "missing_in_erp"
  | .unexpectedInErp => "unexpected_in_erp"
  | .fieldMismatch => "field_mismatch"

/-- A managed field on which the two sides disagree. -/
structure FieldMismatch where
  field : String
  expected : Json
  actual : Json
deriving DecidableEq, Repr

structure Discrepancy where
  externalId : String
  kind : DiscrepancyKind
  fields : List FieldMismatch := []
deriving DecidableEq, Repr

def FieldMismatch.toJson (f : FieldMismatch) : Json :=
  .obj [("field", .str f.field), ("expected", f.expected), ("actual", f.actual)]

def Discrepancy.toPayload (d : Discrepancy) : Json :=
  .obj ([("external_id", .str d.externalId), ("kind", .str d.kind.value)] ++
    if d.fields.isEmpty then [] else [("fields", .arr (d.fields.map FieldMismatch.toJson))])

/-- `sorted(d)`, by code points. -/
def sortedKeys {α : Type} (d : List (String × α)) : List String :=
  (d.map Prod.fst).mergeSort (· ≤ ·)

/-- The managed fields of a record whose value in the ERP differs; an absent value counts as `None`. -/
def mismatches (record current : Obj) : List FieldMismatch :=
  (sortedKeys record).filterMap fun name =>
    if (record.get name).pyEq (current.get name) then none
    else some { field := name, expected := record.get name, actual := current.get name }

/-- What there is to report about an expected record. -/
def compareRecord (expected actual : StateRecords) (extId : String) : Option Discrepancy :=
  match actual.lookup extId with
  | none => some { externalId := extId, kind := .missingInErp }
  | some current =>
    let fields := mismatches ((expected.lookup extId).getD []) current
    if fields.isEmpty then none else some { externalId := extId, kind := .fieldMismatch, fields }

/-- `compare`: the expected records in the order of their ids, then those only the ERP has. -/
def compare (expected actual : StateRecords) : List Discrepancy :=
  (sortedKeys expected).filterMap (compareRecord expected actual) ++
    (sortedKeys (actual.filter fun r => !(expected.map Prod.fst).contains r.1)).map fun extId =>
      { externalId := extId, kind := .unexpectedInErp }

structure ReconciliationResult where
  tenantId : Json
  erpPlatform : Json
  scope : Json
  runId : String
  /-- The number of distinct external ids on both sides. -/
  checked : Nat
  discrepancies : List Discrepancy
  completedAt : String

namespace ReconciliationResult

def driftCount (r : ReconciliationResult) : Nat := r.discrepancies.length

def completedPayload (r : ReconciliationResult) : Obj :=
  [("tenant_id", r.tenantId), ("erp_platform", r.erpPlatform), ("scope", r.scope),
    ("run_id", .str r.runId), ("checked", .int r.checked),
    ("matched", .int ((r.checked : Int) - r.driftCount)), ("drift_count", .int r.driftCount),
    ("completed_at", .str r.completedAt)]

/-- `drift_payload`, for a run that found discrepancies. -/
def driftPayload (r : ReconciliationResult) : Option Obj :=
  if r.discrepancies.isEmpty then none
  else some
    [("tenant_id", r.tenantId), ("erp_platform", r.erpPlatform), ("scope", r.scope),
      ("run_id", .str r.runId),
      ("discrepancies", .arr (r.discrepancies.map Discrepancy.toPayload)),
      ("detected_at", .str r.completedAt)]

end ReconciliationResult

/-- `Reconciler.run`, with the id and the time it is given. -/
def reconcile (runId clock : String) (tenantId erpPlatform scope : Json) (expected actual : StateRecords) :
    ReconciliationResult where
  tenantId := tenantId
  erpPlatform := erpPlatform
  scope := scope
  runId := runId
  checked := (expected.map Prod.fst ++ actual.map Prod.fst).dedup.length
  discrepancies := compare expected actual
  completedAt := clock

/-! ## What a pass is to find -/

/-- The records of one side as a mapping: no external id, and in no record a field, occurs twice. -/
structure StateMap where
  records : StateRecords
  ids_nodup : (records.map Prod.fst).Nodup
  fields_nodup : ∀ r ∈ records, (Obj.keys r.2).Nodup

namespace StateMap

def ids (m : StateMap) : List String := m.records.map Prod.fst

/-- The mapping with its records, and the fields of each record, inserted in another order. -/
def Reordered (m m' : StateMap) : Prop :=
  ∃ records, m.records.Perm records ∧
    List.Forall₂ (fun r r' => r.1 = r'.1 ∧ r.2.Perm r'.2) records m'.records

end StateMap

/-- The record is on the first side only. -/
def OnlyIn (m m' : StateMap) (extId : String) : Prop := extId ∈ m.ids ∧ extId ∉ m'.ids

/-- A managed field of a record on both sides has another value in the ERP, where an absent field has
the value `None`. -/
def Differs (expected actual : StateMap) (extId : String) (f : FieldMismatch) : Prop :=
  ∃ record current, expected.records.lookup extId = some record ∧
    actual.records.lookup extId = some current ∧ Obj.get? record f.field = some f.expected ∧
    f.actual = Obj.get current f.field ∧ f.expected.pyEq f.actual = false

/-- The two sides disagree on a record. -/
def Disagree (expected actual : StateMap) (extId : String) : Prop :=
  OnlyIn expected actual extId ∨ OnlyIn actual expected extId ∨ ∃ f, Differs expected actual extId f

/-- The record is on both sides, with equal managed fields. -/
def Agree (expected actual : StateMap) (extId : String) : Prop :=
  extId ∈ expected.ids ∧ extId ∈ actual.ids ∧ ¬ ∃ f, Differs expected actual extId f

/-! ## The agent -/

namespace LedgerReconcileAgent

/-- What a source of records raises: `SourceUnavailable`, or another exception. -/
inductive SourceError where
  | unavailable (text : String)
  | raised (e : PyError)

/-- `UnconfiguredSource`. -/
def unconfigured : Except SourceError StateRecords :=
  .error (.unavailable "no reconciliation state source configured")

structure Env where
  /-- `expected_source.records(tenant_id, scope)`. -/
  expectedSource : Json → Json → Except SourceError StateRecords
  /-- `erp_source.records(tenant_id, erp_platform, scope)`. -/
  erpSource : Json → Json → Json → Except SourceError StateRecords
  runId : String
  clock : String
  /-- The id `uuid4` gives the event of the given subject. -/
  uuid : String → String
  infra : Infra := .healthy

/-- The trace lists the events the agent emitted. -/
abbrev World := CaviErp.World Unit Event

def report (env : Env) (cause : Event) (subject : String) (payload : Obj) : Event where
  subject := .str subject
  schemaVersion := .int 1
  source := "ledger"
  id := .str (env.uuid subject)
  correlationId := cause.correlationId
  payload := .obj payload

variable (rt : Runtime) (env : Env)

def emit (subject : String) (payload : Obj) (cause : Event) : Action World PyError Unit :=
  BaseAgent.emit rt env.infra (report env cause subject payload) (report env cause subject payload)

/-- Both sides of a pass, or the exception of the first source that fails. -/
def sources (tenantId erpPlatform scope : Json) : Except SourceError (StateRecords × StateRecords) := do
  let expected ← env.expectedSource tenantId scope
  let actual ← env.erpSource tenantId erpPlatform scope
  return (expected, actual)

def handle (event : Event) : Action World PyError Unit := do
  let req := event.payload
  let tenantId ← Action.ofExcept (item req "tenant_id")
  let erpPlatform ← Action.ofExcept (item req "erp_platform")
  let scope ← Action.ofExcept (item req "scope")
  match sources env tenantId erpPlatform scope with
  | .error (.unavailable text) =>
    BaseAgent.deadLetter rt env.infra event ("reconciliation source unavailable: " ++ text)
  | .error (.raised e) => Action.raise e
  | .ok (expected, actual) => do
    let result := reconcile env.runId env.clock tenantId erpPlatform scope expected actual
    emit rt env "ledger.reconciliation.completed" result.completedPayload event
    match result.driftPayload with
    | none => pure ()
    | some drift => emit rt env "ledger.drift.detected" drift event

end LedgerReconcileAgent

end CaviErp
