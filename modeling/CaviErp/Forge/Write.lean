import CaviErp.Base.Contract

/-!
# The lifecycle of an ERP write

`agents/forge/write.py`: a write is proposed, decided and, once approved, executed; each stage produces
one canonical event. The fields of a proposal come from an unvalidated payload, so they are `Json`.
-/

namespace CaviErp

open Py

inductive WriteState where
  | requested
  | approved
  | rejected
  | completed
deriving DecidableEq, Repr

namespace WriteState

def value : WriteState → String
  | requested => "requested"
  | approved => "approved"
  | rejected => "rejected"
  | completed => "completed"

/-- `_ALLOWED`: the forward transitions; `rejected` and `completed` are terminal. -/
def allowed : WriteState → List WriteState
  | requested => [approved, rejected]
  | approved => [completed]
  | rejected => []
  | completed => []

end WriteState

/-- An in-flight write and its state. -/
structure WriteOperation where
  writeId : String
  tenantId : Json
  erpPlatform : Json
  operation : Json
  targetModule : Json
  payload : Obj
  requestedBy : Json
  diffPreview : Json
  state : WriteState := .requested
  /-- For a compensating write, the id of the write it reverses. -/
  reverses : Json := .null
  /-- For an update, the external id of the record it modifies. -/
  targetExternalId : Json := .null
deriving DecidableEq, Repr

namespace WriteOperation

def idempotencyKey (op : WriteOperation) : String := "cavi-" ++ op.writeId

def erpAddress (op : WriteOperation) : Json :=
  if op.targetExternalId.truthy then op.targetExternalId else .str op.idempotencyKey

def transitionTo (op : WriteOperation) (newState : WriteState) : Except PyError WriteOperation :=
  if newState ∈ op.state.allowed then .ok { op with state := newState }
  else .error (.invalidTransition
    ("write " ++ op.writeId ++ ": " ++ op.state.value ++ " -> " ++ newState.value))

end WriteOperation

/-! ## The dry-run diff -/

def noDryRunPreview : String := "(dry-run unavailable: no ERP reader configured)"

def fmt (value : Json) : String := dumps .canonical value

/-- The lines of the diff for one item of the payload. -/
def diffLines (current : Obj) (kv : String × Json) : List String :=
  match current.get? kv.1 with
  | none => ["+ " ++ kv.1 ++ ": " ++ fmt kv.2]
  | some old =>
    if old.pyEq kv.2 then []
    else ["- " ++ kv.1 ++ ": " ++ fmt old, "+ " ++ kv.1 ++ ": " ++ fmt kv.2]

/-- `render_diff`: an upsert of the fields of the payload, seen against the record's current state. -/
def renderDiff (before : Option Obj) (op : WriteOperation) : String :=
  let header := op.erpPlatform.pyStr ++ " " ++ op.targetModule.pyStr ++ " eid " ++
    op.erpAddress.pyStr ++ " — " ++ op.operation.pyStr ++ " (" ++
    (if before.isSome then "updates existing record" else "no existing record") ++ ")"
  let lines := (DumpStyle.canonical.order op.payload).flatMap (diffLines (before.getD []))
  let lines := if lines.isEmpty then
      ["(no field changes — ERP record already matches the payload)"] else lines
  "\n".intercalate (header :: lines)

/-! ## Canonical payloads -/

def requestedPayload (op : WriteOperation) (requestedAt : String) : Obj :=
  [("tenant_id", op.tenantId), ("erp_platform", op.erpPlatform), ("operation", op.operation),
    ("target_module", op.targetModule), ("payload", .obj op.payload),
    ("requested_by", op.requestedBy), ("requested_at", .str requestedAt),
    ("diff_preview", op.diffPreview), ("reverses", op.reverses),
    ("target_external_id", op.targetExternalId)]

def approvedPayload (op : WriteOperation) (approvedBy : Json) (approvedAt : String) : Obj :=
  [("tenant_id", op.tenantId), ("erp_platform", op.erpPlatform), ("operation", op.operation),
    ("approved_by", approvedBy), ("approved_at", .str approvedAt), ("write_id", .str op.writeId)]

def rejectedPayload (op : WriteOperation) (rejectedBy reason : Json) (rejectedAt : String) : Obj :=
  [("tenant_id", op.tenantId), ("erp_platform", op.erpPlatform), ("operation", op.operation),
    ("rejected_by", rejectedBy), ("rejected_at", .str rejectedAt), ("reason", reason)]

def completedPayload (op : WriteOperation) (erpConfirmation : Obj) (completedAt : String) : Obj :=
  [("tenant_id", op.tenantId), ("erp_platform", op.erpPlatform), ("operation", op.operation),
    ("write_id", .str op.writeId), ("erp_confirmation", .obj erpConfirmation),
    ("completed_at", .str completedAt)]

/-- `WriteStep`: the new state of a write and the event to publish for it. -/
structure WriteStep where
  op : WriteOperation
  subject : String
  event : Obj
  schemaVersion : Int := 1

/-! ## The coordinator -/

/-- What the coordinator's injected parts answer during one call. `writer` and `reader` give the text of
the `ErpWriteError` where they raise. -/
structure WriteCoordinator where
  /-- `self._writer.apply(op)`. -/
  writer : WriteOperation → Except String Obj
  /-- `self._reader.fetch(op)`; `none` where no reader is configured. -/
  reader : Option (WriteOperation → Except String (Option Obj)) := none
  /-- `self._clock()`, for the event of the given subject. -/
  clock : String → String
  /-- `self._id()`. -/
  newId : String

/-- The keyword arguments of `request`. -/
structure WriteRequest where
  tenantId : Json
  erpPlatform : Json
  operation : Json
  targetModule : Json
  payload : Json
  requestedBy : Json
  diffPreview : Json := .null
  reverses : Json := .null
  targetExternalId : Json := .null
deriving DecidableEq, Repr

namespace WriteRequest

/-- The names of the keyword arguments without a default. -/
def required : List String :=
  ["tenant_id", "erp_platform", "operation", "target_module", "payload", "requested_by"]

/-- The names of the keyword arguments with a default. -/
def optional : List String := ["diff_preview", "reverses", "target_external_id"]

/-- `request(**kwargs)`: the call fails when an argument is missing or unexpected. -/
def ofKwargs (kwargs : Json) : Except PyError WriteRequest :=
  match kwargs with
  | .obj o =>
    if Obj.keys o |>.all (fun k => (required ++ optional).contains k) then do
      let tenantId ← argument o "tenant_id"
      let erpPlatform ← argument o "erp_platform"
      let operation ← argument o "operation"
      let targetModule ← argument o "target_module"
      let payload ← argument o "payload"
      let requestedBy ← argument o "requested_by"
      return {
        tenantId, erpPlatform, operation, targetModule, payload, requestedBy
        diffPreview := Obj.get o "diff_preview"
        reverses := Obj.get o "reverses"
        targetExternalId := Obj.get o "target_external_id" }
    else .error (.typeError "got an unexpected keyword argument")
  | _ => .error (.typeError "argument after ** must be a mapping")
where
  /-- An argument without a default. -/
  argument (o : Obj) (key : String) : Except PyError Json :=
    match o.get? key with
    | some v => .ok v
    | none => .error (.typeError "missing a required keyword-only argument")

end WriteRequest

namespace WriteCoordinator

variable (c : WriteCoordinator)

/-- The preview of a proposal: derived from the record's current state where there is a reader, else
what the caller supplied. -/
def preview (op : WriteOperation) (diffPreview : Json) : Except PyError Json :=
  match c.reader with
  | some fetch =>
    match fetch op with
    | .error text => .error (.erpWriteError text)
    | .ok before => .ok (.str (renderDiff before op))
  | none => .ok (if diffPreview = .null then .str noDryRunPreview else diffPreview)

def request (r : WriteRequest) : Except PyError WriteStep := do
  let payload ← match dictOf r.payload with
    | some o => Except.ok o
    | none => .error (.typeError "cannot convert to a dictionary")
  let op : WriteOperation := {
    writeId := c.newId, tenantId := r.tenantId, erpPlatform := r.erpPlatform
    operation := r.operation, targetModule := r.targetModule, payload := payload
    requestedBy := r.requestedBy, diffPreview := ""
    reverses := r.reverses, targetExternalId := r.targetExternalId }
  let preview ← c.preview op r.diffPreview
  let op := { op with diffPreview := preview }
  return {
    op, subject := "forge.write.requested"
    event := requestedPayload op (c.clock "forge.write.requested"), schemaVersion := 3 }

/-- `request_reversal`: only a completed write can be reversed. -/
def requestReversal (original : WriteOperation)
    (operation payload requestedBy diffPreview targetExternalId : Json) : Except PyError WriteStep :=
  if original.state ≠ .completed then
    .error (.invalidTransition
      ("write " ++ original.writeId ++ ": cannot reverse from " ++ original.state.value ++
        " (only a completed write is reversible)"))
  else
    c.request {
      tenantId := original.tenantId, erpPlatform := original.erpPlatform, operation
      targetModule := original.targetModule, payload, requestedBy, diffPreview
      reverses := .str original.writeId, targetExternalId }

def approve (op : WriteOperation) (approvedBy : Json) : Except PyError WriteStep := do
  let approved ← op.transitionTo .approved
  return {
    op := approved, subject := "forge.write.approved"
    event := approvedPayload approved approvedBy (c.clock "forge.write.approved") }

def reject (op : WriteOperation) (rejectedBy reason : Json) : Except PyError WriteStep := do
  let rejected ← op.transitionTo .rejected
  return {
    op := rejected, subject := "forge.write.rejected"
    event := rejectedPayload rejected rejectedBy reason (c.clock "forge.write.rejected") }

/-- The end of `execute`, once the writer has returned. -/
def complete (op : WriteOperation) (confirmation : Obj) : Except PyError WriteStep := do
  let completed ← op.transitionTo .completed
  return {
    op := completed, subject := "forge.write.completed"
    event := completedPayload completed confirmation (c.clock "forge.write.completed") }

end WriteCoordinator

end CaviErp
