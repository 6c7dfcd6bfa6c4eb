import CaviErp.Forge.Address
import CaviErp.Forge.Erp

/-!
# What a reviewer sees of a write

The agent as `build_agent` wires it, with the NetSuite client for its writer and for the reader of its dry
runs. A reviewer decides on the `forge.write.requested` event of a write; `Reviewed` ties the write that is
executed to that event and to the record behind its diff.
-/

namespace CaviErp

open Py

namespace ForgeWriteAgent

/-- The call with the client for its writer and its reader. -/
def ErpCall.productionEnv (client : NetSuiteClient) (call : ErpCall) : Env :=
  { call.env with
    coordinator := { call.env.coordinator with
      writer := client.apply call.net
      reader := some (client.fetch call.net) } }

/-- The id that the call mints if it proposes a write. -/
def ErpCall.newId (call : ErpCall) : String := call.env.coordinator.newId

/-- The calls of `handle`, until one raises. -/
def production (cfg : Config) (client : NetSuiteClient) (calls : List ErpCall) :
    Except PyError Unit × World :=
  handleAll cfg (calls.map fun call => (call.productionEnv client, call.event)) { self := {} }

/-- The write as its dry run saw it. -/
def asProposed (op : WriteOperation) : WriteOperation :=
  { op with state := .requested, diffPreview := "" }

/-- The event announces the write as proposed. -/
structure Describes (event : Event) (op : WriteOperation) : Prop where
  tenantId : item event.payload "tenant_id" = .ok op.tenantId
  erpPlatform : item event.payload "erp_platform" = .ok op.erpPlatform
  operation : item event.payload "operation" = .ok op.operation
  targetModule : item event.payload "target_module" = .ok op.targetModule
  payload : item event.payload "payload" = .ok (.obj op.payload)
  reverses : item event.payload "reverses" = .ok op.reverses
  targetExternalId : item event.payload "target_external_id" = .ok op.targetExternalId

/-- The diff of the event is rendered from the answer to a GET that the call made, and whatever PUT is
sent for the write has the url of that GET. -/
def Previewed (client : NetSuiteClient) (call : ErpCall) (event : Event) (op : WriteOperation) : Prop :=
  ∃ get response current, client.getRequest call.net (asProposed op) = .ok get ∧
    call.net.netsuite get = .ok response ∧
    NetSuiteClient.currentOf (asProposed op) (.ok response) = .ok current ∧
    item event.payload "diff_preview" = .ok (.str (renderDiff current (asProposed op))) ∧
    ∀ net put, client.putRequest net op = .ok put → put.url = get.url

/-- The write is the one that the event showed to the reviewer, as one of the calls proposed it. -/
structure Reviewed (client : NetSuiteClient) (calls : List ErpCall) (event : Event)
    (op : WriteOperation) : Prop where
  describes : Describes event op
  previewed : ∃ call ∈ calls, call.newId = op.writeId ∧ Previewed client call event op

/-- The proposal of the write is announced by the event, in a part of the trace. -/
def Announced (trace : List Obs) (writeId : String) (event : Event) : Prop :=
  .emitted writeId event ∈ trace ∧ event.subject = "forge.write.requested"

/-! ## Reversals -/

/-- The reversal is addressed to the record that the original touched, and once it is approved its PUT goes
there. -/
structure ReachesOriginal (client : NetSuiteClient) (original op : WriteOperation) : Prop where
  address : op.erpAddress = original.erpAddress
  put : ∀ net, NetSuiteClient.Signs net → ∃ request,
    client.putRequest net { op with state := .approved } = .ok request ∧
      request.url = client.recordUrl original

/-- A `forge.write.reverse` that asks for an update as the compensation of the write. -/
structure ReversesByUpdate (event : Event) (writeId : String) : Prop where
  subject : event.subject = "forge.write.reverse"
  writeId : item event.payload "write_id" = .ok (.str writeId)
  operation : item event.payload "operation" = .ok "update"

end ForgeWriteAgent

end CaviErp
