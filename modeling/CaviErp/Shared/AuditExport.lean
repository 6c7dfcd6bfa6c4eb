import CaviErp.Shared.EventLog

/-!
# Exporting and verifying the audit log

`scripts/audit_export.py`. Timestamps are the texts that `str()` gives them.
-/

namespace CaviErp

open Py

/-- A line of the export: the event envelope and the chain fields. -/
structure ExportLine where
  seq : Nat
  event : Obj
  chainHash : String
  recordedAt : String
deriving DecidableEq

/-- `str(uuid) if uuid else None`, on a nullable `UUID` column; a `uuid.UUID` is never falsy. -/
def uuidJson : Option Uuid → Json
  | some u => .str (uuidText u)
  | none => .null

/-- `export_row`, on a row and its chain hash. -/
def exportRow (row : EventRow) (chainHash : String) : ExportLine where
  seq := row.seq
  event :=
    [("id", .str (uuidText row.id)), ("subject", .str row.subject),
      ("schema_version", .int row.schemaVersion), ("source", .str row.source),
      ("correlation_id", uuidJson row.correlationId),
      ("tenant_id", (row.tenantId.map Json.str).getD .null), ("payload", row.payload)]
  chainHash := chainHash
  recordedAt := row.createdAt

variable (sha256 : String → String)

def verifyExport (lines : List ExportLine) : List String :=
  verifyChain sha256 (lines.map fun line => (line.event, line.chainHash))

/-- `_fetch_chained`: the rows of the chain in order, each with its hash. -/
def fetchChained (log : EventLog) : List (EventRow × String) :=
  log.chained.filterMap fun r => r.row.chainHash.map fun h => (r.row, h)

/-- The lines of an export. -/
def exportLines (log : EventLog) : List ExportLine :=
  (fetchChained log).map fun x => exportRow x.1 x.2

/-- A line as it is printed, with `json.dumps(line, sort_keys=True)`. -/
def ExportLine.text (line : ExportLine) : String :=
  dumps ⟨true, [',', ' '], [':', ' ']⟩ (.obj
    [("seq", .int line.seq), ("event", .obj line.event), ("chain_hash", .str line.chainHash),
      ("recorded_at", .str line.recordedAt)])

/-- What a run of the script leaves: its exit status and the lines on both streams. -/
structure ScriptResult where
  status : Nat
  stdout : List String := []
  stderr : List String := []
deriving DecidableEq

/-- `main`, with or without `--verify`. -/
def auditExport (verify : Bool) (log : EventLog) : ScriptResult :=
  let lines := exportLines log
  if verify then
    let problems := verifyExport sha256 lines
    if problems ≠ [] then { status := 1, stderr := problems }
    else
      { status := 0
        stdout := ["audit chain intact: " ++ toString lines.length ++ " events verified"] }
  else { status := 0, stdout := lines.map ExportLine.text }

end CaviErp
