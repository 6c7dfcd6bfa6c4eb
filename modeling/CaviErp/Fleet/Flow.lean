import CaviErp.Fleet.Fleet
import CaviErp.Ledger.Postgres
import CaviErp.Base.Proofs.OutboxProofs
import CaviErp.Lib.Proofs.BusProofs

/-!
# What flows through the fleet

What is asked about runs of the fleet: how much work a message causes, who can make the write agent write
and the ledger post, and what the event store holds.
-/

namespace CaviErp

open Py

namespace Fleet

/-- Beacon and its reports only look at what the others do. -/
def isWatcher : AgentName → Bool
  | .beacon => true
  | .beaconReport => true
  | _ => false

/-- The subjects of the events an agent records for one message, in order. The mapper passes on any. -/
def topics : AgentName → List (List String)
  | .forge => [["forge.completed"], ["ledger.entry"]]
  | .forgeWrite =>
    let stages := ["forge.write.requested", "forge.write.approved", "forge.write.rejected",
      "forge.write.completed"]
    [stages, stages]
  | .ledger => [["ledger.posted", "ledger.rejected"]]
  | .ledgerQuery => [["ledger.query.completed", "ledger.query.failed"]]
  | .ledgerReconcile => [["ledger.reconciliation.completed"], ["ledger.drift.detected"]]
  | .mapper => []
  | .erpMapper => [["mapper.transform.completed", "mapper.transform.failed"]]
  | .ticker => [["ticker.price"]]
  | .tickerWebhook => [["ticker.event.received"]]
  | .vault => [["vault.secret.granted", "vault.secret.denied"]]
  | .beacon => []
  | .beaconReport => [["beacon.report.generated"]]

/-- The kinds of events an agent may record for the message of an event. -/
def repertoire (a : AgentName) (cause : Event) : List (Event → Prop) :=
  if a = .mapper then [fun e => e.tenantId = .null ∧ e.correlationId = cause.correlationId]
  else (topics a).map (Answers cause)

variable (f : Fleet)

/-- The fleet with the repository's schemas. -/
def overRepository (dir : String) (complaint : Schema → Json → String) : Fleet :=
  { f with rt := .repository dir complaint f.rt.sha256 }

/-! ## Work -/

variable {f}

/-- The messages that come from outside. -/
def fromOutside (steps : List f.network.Step) : List (String × String) :=
  steps.filterMap fun
    | .inject m => some m
    | _ => none

/-- The deliveries to agents that are no watchers. -/
def work (history : List f.network.Activation) : Nat :=
  (history.filter fun x => !isWatcher x.who).length

/-- The subjects that an agent works on. -/
def workingSubjects : List String :=
  (AgentName.all.filter fun a => !isWatcher a).flatMap subjects

/-- The deliveries that a message on a channel pays for: its own, and one of what is made of it. -/
def fee (channel : String) : Nat :=
  if channel = "forge.workorder" ∨ channel = "mapper.transform" then 2
  else if workingSubjects.contains channel then 1
  else 0

/-! ## Writes and books -/

/-- The operation that the ERP writer was called for. -/
def written? : ForgeWriteAgent.Obs → Option WriteOperation
  | .applied op _ => some op
  | .emitted _ _ => none

/-- The operations that the ERP writer was called for, of the write agent. -/
def written : (a : AgentName) → List (Obs a) → List WriteOperation
  | .forgeWrite, trace => trace.filterMap written?
  | _, _ => []

/-- The operations that the ERP writer is called for in a reaction. -/
def writes (x : f.network.Activation) : List WriteOperation :=
  Bus.Network.Config.news (fun a (s : f.network.State a) => written a s.2) x

/-- The books, of the ledger. -/
def booksOf (b : Backends) : (a : AgentName) → Self b a → Option b.Books
  | .ledger, s => some s
  | _, _ => none

/-- The entry that the ledger posts for a message, if it posts one. -/
def entryOf (rt : Runtime) (text : String) : Option JournalEntry :=
  match heard text with
  | none => none
  | some event =>
    if (rt.registry.validate event.subject event.schemaVersion event.payload).isOk && event.tenantId.truthy
    then ((asStr event.tenantId).bind fun tenantId => JournalEntry.fromPayload event.payload tenantId).toOption
    else none

/-- The entries that the ledger posts in a history, in order. -/
def presented (history : List f.network.Activation) : List JournalEntry :=
  (history.filter fun x => x.who = .ledger).flatMap fun x => (entryOf f.rt x.letter.body.2).toList

/-- The fleet with the books in Postgres, which outlive a restart. -/
def overPostgres {κ : Type} [DecidableEq κ] (f : Fleet) (srv : Postgres.Server κ) : Fleet :=
  { f with
    backends :=
      { f.backends with
        Books := Postgres.Tables κ
        ledger := Postgres.store srv
        keptBooks := fun tables => tables } }

/-- The message is a decision that approves a write, and meets its contract. -/
def Approves (rt : Runtime) (text : String) : Prop :=
  ∃ event, BaseAgent.decode text = .ok event ∧ event.subject = "forge.write.decision" ∧
    item event.payload "decision" = .ok "approve" ∧ MeetsContract rt event

/-! ## The log -/

/-- The chain of the log is intact, no id is there twice, and each event meets its contract. -/
structure SoundLog (rt : Runtime) (s : EventStore) : Prop where
  intact : verifyChain rt.sha256 s.entries = []
  nodup : (s.events.map fun e => e.id.dictKey).Nodup
  contracted : ∀ e ∈ s.events, MeetsContract rt e

/-! ## Lineage -/

/-- The correlation id of the event is that of `root`, but for what writing and reading it as JSON does. -/
def Correlated (root event : Event) : Prop := ∃ n, event.correlationId = Json.reread^[n] root.correlationId

/-- One of the messages has an event in the business transaction of this one. -/
def TracedTo (messages : List (String × String)) (event : Event) : Prop :=
  ∃ m ∈ messages, ∃ root, heard m.2 = some root ∧ Correlated root event

/-! ## Answers -/

/-- The agents that answer every request. -/
inductive Responder where
  | ledgerQuery
  | erpMapper
  | vault
deriving DecidableEq, Repr

def Responder.agent : Responder → AgentName
  | ledgerQuery => .ledgerQuery
  | erpMapper => .erpMapper
  | vault => .vault

/-- The message answers the event of the other in its business transaction, or is its dead letter. -/
def Replies (a : AgentName) (m post : String × String) : Prop :=
  (∃ cause event, heard m.2 = some cause ∧ (∃ topic ∈ topics a, Answers cause topic event) ∧
      post = (event.subject.pyStr, dumps .default (.obj event.toDict))) ∨
    ∃ cause error, heard m.2 = some cause ∧ post = ("deadletter." ++ cause.subject.pyStr,
      dumps .default (.obj (BaseAgent.envelope cause error)))

/-! ## Requests -/

/-- The agents that are asked by subjects without a contract in the repository. -/
def triggered : List AgentName := [.forge, .forgeWrite, .ledgerQuery, .mapper, .erpMapper, .ticker, .tickerWebhook, .vault]

def requestSubjects : List String := triggered.flatMap subjects

/-- A request is an event about the subject that the channel is named by. -/
def Named (m : String × String) : Prop :=
  m.1 ∈ requestSubjects → ∀ event, heard m.2 = some event → event.subject = .str m.1

/-- The subjects of what the ledger and its reconciliation record. -/
def ledgerTopics : List String :=
  ["ledger.posted", "ledger.rejected", "ledger.reconciliation.completed", "ledger.drift.detected"]

/-! ## Dead letters of ledger entries -/

/-- The message of an event that is published. -/
def postOf (event : Event) : String × String :=
  (event.subject.pyStr, dumps .default (.obj event.toDict))

/-- What the watchers have not read yet. -/
def unread (c : f.network.Config) : Nat :=
  (c.inbox .beacon).length + (c.inbox .beaconReport).length

/-- A watcher reads a message, while store and bus work. -/
inductive IsRead : f.network.Step → Prop
  | beacon (k : Nat) (env : BeaconAgent.Env) (h : env.infra = .healthy) : IsRead (.deliver .beacon k env)
  | beaconReport (k : Nat) (env : BeaconReportAgent.Env) (h : env.infra = .healthy) :
    IsRead (.deliver .beaconReport k env)

end Fleet

end CaviErp
