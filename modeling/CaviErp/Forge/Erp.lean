import CaviErp.Forge.NetSuite
import CaviErp.Forge.Recording
import CaviErp.Lib.Upsert

/-!
# The write agent and the ERP behind it

The agent with the NetSuite client for its writer, and the records of the ERP. A PUT merges the payload of
the write into the record under the external id it is addressed to. NetSuite may carry out a PUT whose
response is lost; the agent then counts a failure and the write stays approved.
-/

namespace CaviErp

open Py

namespace ForgeWriteAgent

/-- The records of the ERP, by external id. -/
abbrev Erp : Type := Upsert.Store String String Json

/-- A PUT that NetSuite carried out. -/
structure Put where
  op : WriteOperation
  /-- Whether `apply` returned, so that the agent knows. -/
  returned : Bool

/-- The external id of the record that a write is addressed to. -/
def recordId (op : WriteOperation) : String := op.erpAddress.pyStr

/-- The fields that a write gives to its record. -/
def fieldsOf (op : WriteOperation) : Upsert.Record String Json := Obj.get? op.payload

/-- The agent, and the PUTs that NetSuite carried out for it. -/
structure System where
  world : World := { self := {} }
  history : List Put := []

def System.erp (initial : Erp) (s : System) : Erp :=
  initial.puts (s.history.map fun p => (recordId p.op, fieldsOf p.op))

/-- An event for the agent, with what its call takes from outside. The writer of `env` is not used: the
client is. -/
structure ErpCall where
  net : Net
  env : Env
  event : Event

/-- The call with the client for its writer. -/
def ErpCall.clientEnv (client : NetSuiteClient) (call : ErpCall) : Env :=
  { call.env with coordinator := { call.env.coordinator with writer := client.apply call.net } }

/-- The PUTs behind the calls of `apply` in a part of the trace. -/
def putsOf (client : NetSuiteClient) (net : Net) (trace : List Obs) : List Put :=
  trace.filterMap fun
    | .applied op outcome => if client.commits net op then some ⟨op, outcome.isOk⟩ else none
    | .emitted _ _ => none

variable (cfg : Config) (client : NetSuiteClient)

/-- One call of `handle`, whether or not it raises. -/
def System.step (s : System) (call : ErpCall) : System :=
  let world := (handle cfg (call.clientEnv client) call.event s.world).2
  { world
    history := s.history ++ putsOf client call.net (world.trace.drop s.world.trace.length) }

def System.run (calls : List ErpCall) : System := calls.foldl (System.step cfg client) {}

/-! ## A retry and newer writes -/

/-- Since the write `writeId` was first carried out on a record, another write to that record was
completed. -/
def CompletedSince (before : List ErpCall) (writeId : String) (op₂ : WriteOperation) : Prop :=
  ∃ early late, before = early ++ late ∧
    (∃ p ∈ (System.run cfg client early).history,
      p.op.writeId = writeId ∧ recordId p.op = recordId op₂) ∧
    (System.run cfg client early).world.self.completed op₂.writeId = none ∧
    (System.run cfg client before).world.self.completed op₂.writeId = some op₂ ∧
    op₂.writeId ≠ writeId

/-- No replay of an approval changes a value that a write completed since gave to the record. -/
def NeverOverwrites (initial : Erp) (calls : List ErpCall) : Prop :=
  ∀ before call after, calls = before ++ call :: after →
    ∀ writeId op₂, Approval call.event writeId → CompletedSince cfg client before writeId op₂ →
      ∀ f v, fieldsOf op₂ f = some v →
        ((System.run cfg client before).erp initial).field (recordId op₂) f = some v →
          ((System.run cfg client (before ++ [call])).erp initial).field (recordId op₂) f = some v

/-- The call retries a write with a value for a field to which a write completed since gave the value
that is there, another one; the breaker admits it and NetSuite carries it out. -/
def Stale (initial : Erp) (before : List ErpCall) (call : ErpCall) : Prop :=
  ∃ writeId op op₂, Approval call.event writeId ∧
    (System.run cfg client before).world.self.pending writeId = some op ∧
    Admits cfg (call.clientEnv client) op (System.run cfg client before).world ∧
    client.commits call.net { op with state := .approved } = true ∧
    CompletedSince cfg client before writeId op₂ ∧ recordId op = recordId op₂ ∧
    ∃ f v v₂, fieldsOf op f = some v ∧ fieldsOf op₂ f = some v₂ ∧ v ≠ v₂ ∧
      ((System.run cfg client before).erp initial).field (recordId op₂) f = some v₂

/-! ## Creates -/

/-- A proposal or a reversal, if it is one, asks for a create without a target. -/
structure CreateOnly (event : Event) : Prop where
  operation : event.subject = "forge.write.propose" ∨ event.subject = "forge.write.reverse" →
    ∀ v, item event.payload "operation" = .ok v → v = "create"
  target : event.subject = "forge.write.propose" →
    ∀ v, item event.payload "target_external_id" = .ok v → v = .null

/-- The call proposed the write, or it as a reversal, with the payload given. -/
structure ProposedWith (call : ErpCall) (writeId : String) (payload : Obj) : Prop where
  subject : call.event.subject = "forge.write.propose" ∨ call.event.subject = "forge.write.reverse"
  id : call.env.coordinator.newId = writeId
  payload : ∃ v, item call.event.payload "payload" = .ok v ∧ dictOf v = some payload

/-- The records that the calls added are those of the writes that were carried out, one for each, with
just the payload it was proposed with; no other record changed, and completed writes have theirs. -/
structure PostedOnce (initial : Erp) (calls : List ErpCall) : Prop where
  added : ∀ id, initial id = none → ((System.run cfg client calls).erp initial id ≠ none ↔
    ∃ p ∈ (System.run cfg client calls).history, id = "cavi-" ++ p.op.writeId)
  record : ∀ p ∈ (System.run cfg client calls).history, initial ("cavi-" ++ p.op.writeId) = none ∧
    (System.run cfg client calls).erp initial ("cavi-" ++ p.op.writeId) = some (fieldsOf p.op) ∧
    ∃ call ∈ calls, ProposedWith call p.op.writeId p.op.payload
  others : ∀ id, initial id ≠ none → (System.run cfg client calls).erp initial id = initial id
  completed : ∀ writeId op, (System.run cfg client calls).world.self.completed writeId = some op →
    (System.run cfg client calls).erp initial ("cavi-" ++ writeId) = some (fieldsOf op)

end ForgeWriteAgent

end CaviErp
