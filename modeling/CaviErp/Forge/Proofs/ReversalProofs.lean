import CaviErp.Forge.Proofs.AddressProofs
import CaviErp.Forge.Proofs.ErpProofs
import CaviErp.Forge.Review

/-!
# Reversals by an update

`_reverse` hands no target on to `request_reversal`, which leaves it to its default. An update proposed as a
reversal therefore has no target: it is addressed to its own key, and the client refuses it.
-/

namespace CaviErp

open Py

namespace ForgeWriteAgent

/-- The preview of a write is that of its dry run. -/
theorem request_previews {c : WriteCoordinator} {r : WriteRequest} {step : WriteStep}
    (h : c.request r = .ok step) :
    c.preview (asProposed step.op) r.diffPreview = .ok step.op.diffPreview := by
  unfold WriteCoordinator.request at h
  cases hd : dictOf r.payload with
  | none => simp [hd, bind, Except.bind] at h
  | some o =>
    simp only [hd] at h
    obtain ⟨payload, hpayload, h⟩ := bind_eq_ok h
    obtain rfl := Except.ok.inj hpayload
    obtain ⟨preview, hpreview, h⟩ := bind_eq_ok h
    obtain rfl := Except.ok.inj h
    exact hpreview

/-- A reversal has no target, and the operation that its event asks for. -/
theorem Proposes.reversal_fields {env : Env} {event : Event} {self : ForgeWriteAgent}
    {op : WriteOperation} (h : Proposes env event self op)
    (hsub : event.subject = "forge.write.reverse") :
    op.targetExternalId = .null ∧ item event.payload "operation" = .ok op.operation := by
  cases h with
  | proposal hsub' _ _ =>
    rw [hsub] at hsub'
    exact absurd hsub' (by decide)
  | reversal _ _ _ hoperation _ _ _ hop =>
    unfold WriteCoordinator.requestReversal at hop
    split at hop
    · cases hop
    · obtain ⟨-, -, -, hopn, -, -, htarget⟩ := request_carries hop
      refine ⟨htarget, ?_⟩
      rw [hoperation]
      exact congrArg _ hopn.symm

theorem untargeted_refused (client : NetSuiteClient) {op : WriteOperation}
    (hupdate : op.operation = "update") (htarget : op.targetExternalId = .null) :
    (∀ original, ¬ ReachesOriginal client original op) ∧
      ∀ net, client.applyRequests net { op with state := .approved } = [] ∧
        ∃ text, client.apply net { op with state := .approved } = .error text := by
  have hincoherent : ¬ NetSuiteClient.Coherent { op with state := .approved } := by
    rintro (⟨-, hne⟩ | ⟨hcreate, -⟩)
    · exact hne htarget
    · replace hcreate : op.operation = "create" := hcreate
      rw [hupdate] at hcreate
      exact absurd hcreate (by decide)
  refine ⟨?_, fun net => NetSuiteClient.refused_of_incoherent hincoherent client net⟩
  intro original hreaches
  obtain ⟨request, hrequest, -⟩ := hreaches.put NetSuiteClient.signing NetSuiteClient.signing_signs
  have hcoherent := (NetSuiteClient.putRequest_ok hrequest).2.1
  exact hincoherent (NetSuiteClient.requireCoherent_ok_iff.mp hcoherent)

/-- Whatever state the agent is in: an update proposed as the reversal of a completed write, once its dry
run succeeds, is pending without a target, does not reach the record of the original, and is refused by
the client before any request. -/
theorem reversal_update_never_reaches (cfg : Config) (client : NetSuiteClient)
    (calls : List (Env × Event)) (env : Env) (event : Event) (writeId : String)
    (op : WriteOperation) (hreverse : ReversesByUpdate event writeId)
    (hdry : Proposes env event (served cfg calls).self op) :
    (handle cfg env event (served cfg calls)).2.self.pending op.writeId = some op ∧
      (∀ original, (served cfg calls).self.completed writeId = some original →
        ¬ ReachesOriginal client original op) ∧
      ∀ net, client.applyRequests net { op with state := .approved } = [] ∧
        ∃ text, client.apply net { op with state := .approved } = .error text := by
  obtain ⟨htarget, hoperation⟩ := hdry.reversal_fields hreverse.subject
  have hupdate : op.operation = "update" :=
    Except.ok.inj (hoperation.symm.trans hreverse.operation)
  obtain ⟨hreaches, hrefused⟩ := untargeted_refused client hupdate htarget
  refine ⟨?_, fun original _ => hreaches original, hrefused⟩
  rw [handle_of_proposes hdry, emit_self]
  exact Function.update_self ..

/-! ## A create, and its reversal by an update -/

/-- Vault signs, NetSuite has no such record yet and carries out every PUT. -/
def productionNet : Net :=
  carryingOut fun request => .ok { statusCode := if request.method = "GET" then 404 else 204 }

def productionCall (n newId : String) (event : Event) : ErpCall where
  net := productionNet
  env := orderEnv n newId fun _ => .error ""
  event := event

/-- The order is proposed and approved. -/
def orderCalls : List ErpCall :=
  [productionCall "0" "w-1" (orderProposal 10), productionCall "1" "w-2" (approval "w-1")]

/-- The calls as the agent takes them. -/
def inProduction (calls : List ErpCall) : List (Env × Event) :=
  calls.map fun call => (call.productionEnv exampleClient, call.event)

/-- The order once it is completed, with the diff of its dry run. -/
def completedOrder : WriteOperation :=
  { order .completed with diffPreview := .str (renderDiff none (asProposed (order .requested))) }

/-- The order is to be voided, by an update that names its record. -/
def voidOrder : Event where
  subject := "forge.write.reverse"
  schemaVersion := .int 1
  source := "console"
  id := "00000000-0000-0000-0000-00000000000c"
  payload := .obj
    [("write_id", "w-1"), ("operation", "update"), ("payload", .obj [("status", "void")]),
      ("requested_by", "ana"), ("target_external_id", "cavi-w-1")]

def voidCall : ErpCall := productionCall "2" "w-3" voidOrder

/-- The reversal before its preview is known. -/
def voidDraft : WriteOperation where
  writeId := "w-3"
  tenantId := "acme"
  erpPlatform := "netsuite"
  operation := "update"
  targetModule := "SalesOrder"
  payload := [("status", "void")]
  requestedBy := "ana"
  diffPreview := ""
  reverses := "w-1"

def voidWrite : WriteOperation := { voidDraft with diffPreview := .str (renderDiff none voidDraft) }

theorem voidOrder_reverses : ReversesByUpdate voidOrder "w-1" := ⟨rfl, rfl, rfl⟩

theorem orderCalls_completed :
    (served orderConfig (inProduction orderCalls)).self.completed "w-1" = some completedOrder := by
  decide +kernel

theorem voidCall_proposes : Proposes (voidCall.productionEnv exampleClient) voidOrder
    (served orderConfig (inProduction orderCalls)).self voidWrite :=
  .reversal rfl rfl orderCalls_completed rfl rfl rfl rfl (by rfl)

/-- The hypotheses of `reversal_update_never_reaches` hold for the completed order. -/
theorem reversal_update_voidOrder :
    (served orderConfig (inProduction orderCalls)).self.completed "w-1" = some completedOrder ∧
      ¬ ReachesOriginal exampleClient completedOrder voidWrite := by
  have hnever := reversal_update_never_reaches orderConfig exampleClient (inProduction orderCalls)
    (voidCall.productionEnv exampleClient) voidOrder "w-1" voidWrite voidOrder_reverses
    voidCall_proposes
  exact ⟨orderCalls_completed, hnever.2.1 completedOrder orderCalls_completed⟩

/-- The update that names the record of the order gets the address of a record of its own. -/
theorem voidOrder_misses_original :
    ReversesByUpdate voidOrder "w-1" ∧ completedOrder.state = .completed ∧
      (served orderConfig (inProduction orderCalls)).self.completed "w-1" = some completedOrder ∧
      Proposes (voidCall.productionEnv exampleClient) voidOrder
        (served orderConfig (inProduction orderCalls)).self voidWrite ∧
      completedOrder.erpAddress = "cavi-w-1" ∧ voidWrite.erpAddress = "cavi-w-3" ∧
      ¬ ReachesOriginal exampleClient completedOrder voidWrite :=
  ⟨voidOrder_reverses, rfl, orderCalls_completed, voidCall_proposes, rfl, rfl,
    (untargeted_refused exampleClient rfl rfl).1 completedOrder⟩

end ForgeWriteAgent

end CaviErp
