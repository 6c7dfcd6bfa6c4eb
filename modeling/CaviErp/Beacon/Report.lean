import CaviErp.Base.Agent
import CaviErp.Beacon.Beacon
import CaviErp.Lib.Unwinding
import Mathlib.Data.List.DropRight

/-!
# Reports

`agents/beacon/report.py` and `report_agent.py`: Beacon tallies the subjects of the outcomes it sees, and
rolls the tally up into a report for whoever requests one. There is one tally, and the tenants of the
outcomes are not in it. The trace of the agent lists the reports it emitted.
-/

namespace CaviErp

open Py

/-! ## Key figures -/

/-- `counts[x] += 1`. -/
def countOne (counts : List (Json × Nat)) (x : Json) : Except PyError (List (Json × Nat)) :=
  match x.dictKey with
  | none => .error (.typeError "unhashable type")
  | some k =>
    if counts.any fun p => p.1.dictKey == some k then
      .ok (counts.map fun p => if p.1.dictKey == some k then (p.1, p.2 + 1) else p)
    else .ok (counts ++ [(x, 1)])

/-- `Counter(xs)`, its items in the order of first occurrence. -/
def counter (xs : List Json) : Except PyError (List (Json × Nat)) := xs.foldlM countOne []

/-- What `subject.startswith` needs. -/
def asSubject (p : Json × Nat) : Except PyError (String × Nat) :=
  match p.1 with
  | .str s => .ok (s, p.2)
  | _ => .error (.attributeError "no attribute 'startswith'")

def allSeverities : List Severity := [.info, .warning, .error, .critical]

/-- The number of events whose subjects meet the condition. -/
def countWhere (p : String → Bool) (counts : List (String × Nat)) : Json :=
  .int (((counts.filter fun c => p c.1).map Prod.snd).sum : Nat)

def summarizeKpis (observedSubjects : List Json) : Except PyError Obj := do
  let counts ← counter observedSubjects
  let counts ← counts.mapM asSubject
  return [("events_total", countWhere (fun _ => true) counts),
    ("distinct_subjects", .int counts.length),
    ("dead_letters", countWhere (startsWith · "deadletter.") counts),
    ("by_severity", .obj (allSeverities.map fun severity =>
      (severity.name, countWhere (severityFor · = severity) counts)))]

/-- `list(x)`. -/
def listed : Json → Except PyError (List Json)
  | .arr xs => .ok xs
  | .str s => .ok (s.toList.map fun c => .str (String.singleton c))
  | .obj kvs => .ok ((Obj.keys kvs).map Json.str)
  | _ => .error (.typeError "object is not iterable")

/-- `ReportBuilder.generate`, at the time `generatedAt` of the builder's clock. -/
def generateReport (generatedAt : String) (tenantId reportType : Json) (observedSubjects : List Json)
    (periodStart periodEnd deliveryTargets : Json) : Except PyError Obj := do
  let kpis ← summarizeKpis observedSubjects
  let targets ← listed deliveryTargets
  return [("tenant_id", tenantId), ("report_type", reportType), ("kpis", .obj kpis),
    ("period_start", periodStart), ("period_end", periodEnd), ("generated_at", .str generatedAt),
    ("delivery_targets", .arr targets)]

/-! ## The agent -/

namespace BeaconReportAgent

structure Config where
  rt : Runtime
  defaultTargets : List String

structure Env where
  /-- The reading of the builder's clock. -/
  generatedAt : String
  /-- The id that `uuid4` gives the report. -/
  uuid : String
  infra : Infra := .healthy

/-- The agent's attribute is `_observed`. -/
abbrev World := CaviErp.World (List Json) Event

def reportRequest : Json := "beacon.report.request"

variable (cfg : Config)

/-- The event that carries a report. -/
def generated (env : Env) (event : Event) (report : Obj) : Event where
  subject := "beacon.report.generated"
  schemaVersion := .int 1
  source := "beacon"
  id := .str env.uuid
  correlationId := event.correlationId
  payload := .obj report

/-- The report that a request asks for. -/
def requestedReport (env : Env) (event : Event) (observedSubjects : List Json) : Except PyError Obj := do
  let tenantId ← item event.payload "tenant_id"
  let reportType ← item event.payload "report_type"
  let periodStart ← item event.payload "period_start"
  let periodEnd ← item event.payload "period_end"
  let requested ← getItem? event.payload "delivery_targets"
  let targets := if (requested.getD .null).truthy then requested.getD .null
    else .arr (cfg.defaultTargets.map Json.str)
  generateReport env.generatedAt tenantId reportType observedSubjects periodStart periodEnd targets

def emitReport (env : Env) (event : Event) : Action World PyError Unit := do
  let w ← Action.read
  let report ← Action.ofExcept (requestedReport cfg env event w.self)
  BaseAgent.emit cfg.rt env.infra (generated env event report) (generated env event report)
  -- a new window starts, for all tenants
  Action.modify fun w => { w with self := [] }

def handle (env : Env) (event : Event) : Action World PyError Unit :=
  if event.subject = reportRequest then emitReport cfg env event
  else Action.modify fun w => { w with self := w.self ++ [event.subject] }

/-! ## Runs

Of `handle`: the trigger has no contract yet, and from the bus the runtime quarantines it. -/

/-- One call: the report that it emitted, if it did, and the world after it. -/
def answer (w : World) (call : Env × Event) : Option Event × World :=
  let r := handle cfg call.1 call.2 w
  match r.1 with
  | .ok _ => ((r.2.trace.drop w.trace.length).head?, r.2)
  | .error _ => (none, r.2)

/-- A call and what it emitted. -/
abbrev Step := (Env × Event) × Option Event

/-- The calls of a run, from an agent that has seen nothing. -/
def history (calls : List (Env × Event)) : List Step :=
  Unwinding.outputs (answer cfg) { self := [] } calls

def Step.isOutcome (x : Step) : Bool := x.1.2.subject ≠ reportRequest

/-- An outcome that the envelope says is the tenant's. -/
def Step.isOutcomeOf (tenantId : Json) (x : Step) : Bool :=
  x.isOutcome && x.1.2.tenantId = tenantId

/-- The step emitted a report for the tenant. -/
def Step.reportsFor (tenantId : Json) (x : Step) : Bool :=
  x.2.any fun report => item report.payload "tenant_id" = .ok tenantId

/-- What was handled since the last report for the tenant. -/
def sinceReportFor (tenantId : Json) (past : List Step) : List Step :=
  past.rtakeWhile fun x => !x.reportsFor tenantId

/-- What was handled since the last report for anyone. -/
def sinceReport (past : List Step) : List Step := past.rtakeWhile fun x => x.2.isNone

def subjectsOf (steps : List Step) : List Json := steps.map fun x => x.1.2.subject

/-- A report tells of its tenant's outcomes since the tenant's last report, and of nothing else. -/
def TenantScoped (calls : List (Env × Event)) : Prop :=
  ∀ past x rest, history cfg calls = past ++ x :: rest → ∀ report, x.2 = some report →
    ∃ tenantId kpis, item report.payload "tenant_id" = .ok tenantId ∧
      item report.payload "kpis" = .ok (.obj kpis) ∧
      summarizeKpis (subjectsOf ((sinceReportFor tenantId past).filter (Step.isOutcomeOf tenantId))) =
        .ok kpis

/-- What was handled since the last report for the tenant, up to the last report for anyone. -/
def takenSinceReportFor (tenantId : Json) (past : List Step) : List Step :=
  (sinceReportFor tenantId past).rdropWhile fun x => x.2.isNone

/-- Since the last report there were no outcomes of others, and since the tenant's last report no report
for others has taken one of the tenant's. -/
def Undisturbed (tenantId : Json) (past : List Step) : Prop :=
  (∀ x ∈ sinceReport past, x.isOutcome = true → x.isOutcomeOf tenantId = true) ∧
    ∀ x ∈ takenSinceReportFor tenantId past, x.isOutcomeOf tenantId = false

instance (tenantId : Json) (past : List Step) : Decidable (Undisturbed tenantId past) :=
  inferInstanceAs (Decidable (_ ∧ _))

end BeaconReportAgent

end CaviErp
