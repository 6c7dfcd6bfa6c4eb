import CaviErp.Base.Proofs.AgentProofs
import CaviErp.Forge.Agent
import CaviErp.Ledger.Proofs.AgentProofs

/-!
# What completing a work order emits

Both events of a completion are checked against their contracts one after the other. Everything the
contract of `ledger.entry` asks of the second follows from what the contract of `forge.completed` asked
of the first, except for the length of the memo.
-/

namespace CaviErp

open Py Schema

/-! ## The two contracts -/

/-- What `forge.completed` asks of an order. -/
structure Completed (order : WorkOrder) : Prop where
  workOrderId : ∃ s, order.workOrderId = .str s ∧ 1 ≤ s.length
  tenantId : ∃ s, order.tenantId = .str s ∧ 1 ≤ s.length
  sku : ∃ s, order.sku = .str s ∧ 1 ≤ s.length
  quantity : 1 ≤ order.quantity
  currency : ∃ s, order.currency = .str s ∧ currencyPattern s = true
  net : 1 ≤ order.netMinor
  tax : 0 ≤ order.taxMinor
  gross : 1 ≤ order.grossMinor

theorem valid_completedEvent_iff (order : WorkOrder) :
    forgeCompletedV1.valid (completedEvent order) = true ↔ Completed order := by
  rw [forgeCompletedV1, completedEvent, valid_strictRecord_iff rfl (by decide)]
  simp only [List.forall₂_cons, List.Forall₂.nil, valid_text_iff, valid_atLeast_int,
    valid_currency_iff]
  constructor
  · rintro ⟨hw, ht, hs, hq, hc, hn, htax, hg, -⟩
    exact ⟨hw, ht, hs, hq, hc, hn, htax, hg⟩
  · rintro ⟨hw, ht, hs, hq, hc, hn, htax, hg⟩
    exact ⟨hw, ht, hs, hq, hc, hn, htax, hg, trivial⟩

theorem valid_toDict {line : JournalLine} (h : 1 ≤ line.amountMinor) :
    journalLineSchema.valid line.toDict = true := by
  have hdirection : (oneOf ["debit", "credit"]).valid (.str line.direction.value) = true := by
    cases line.direction <;> rfl
  refine (valid_strictRecord_iff rfl (by decide)).mpr ?_
  simp only [List.forall₂_cons, List.Forall₂.nil, valid_text_str, Nat.zero_le, valid_atLeast_int]
  exact ⟨trivial, hdirection, h, trivial⟩

theorem Completed.positive {order : WorkOrder} (h : Completed order) :
    ∀ line ∈ revenueLines order, 1 ≤ line.amountMinor := by
  intro line hline
  unfold revenueLines at hline
  have hgross := h.gross
  have hnet := h.net
  have htax := h.tax
  split at hline
  · rename_i hne
    simp only [List.cons_append, List.nil_append, List.mem_cons, List.not_mem_nil, or_false] at hline
    rcases hline with rfl | rfl | rfl
    · exact hgross
    · exact hnet
    · show 1 ≤ order.taxMinor
      omega
  · simp only [List.append_nil, List.mem_cons, List.not_mem_nil, or_false] at hline
    rcases hline with rfl | rfl
    · exact hgross
    · exact hnet

/-- The ledger entry of a completed order meets its contract exactly where the memo is short enough. -/
theorem valid_ledgerEntry_iff (uuid5 : String → String) {order : WorkOrder} (h : Completed order) :
    ledgerEntryV1.valid (ledgerEntry uuid5 order) = true ↔ (saleMemo order).length ≤ 280 := by
  obtain ⟨cur, hcur, hpattern⟩ := h.currency
  have hid : (text 0).valid (.str (ledgerEntryId uuid5 order)) = true :=
    (valid_text_str ..).mpr (Nat.zero_le _)
  have hcurrency : CaviErp.currency.valid order.currency = true :=
    valid_currency_iff.mpr ⟨cur, hcur, hpattern⟩
  have hlines : (listOf 2 journalLineSchema).valid
      (.arr ((revenueLines order).map JournalLine.toDict)) = true := by
    refine (valid_list_iff ..).mpr ⟨_, rfl, ?_, ?_⟩
    · simp [revenueLines]
    · intro x hx
      obtain ⟨line, hline, rfl⟩ := List.mem_map.mp hx
      exact valid_toDict (h.positive line hline)
  simp [ledgerEntryV1, ledgerEntry, record, Schema.valid, validProps, Keywords.admits, JType.admits,
    Keywords.objectOk, Keywords.stringOk, Obj.get?, Obj.keys, List.lookup_cons, hid, hcurrency, hlines]

/-! ## One call of `handle` -/

namespace WorkOrder

/-- An order that arrives in this state is completed. -/
def Completable (order : WorkOrder) : Prop := order.state = .created ∨ order.state = .inProgress

instance (order : WorkOrder) : Decidable order.Completable := inferInstanceAs (Decidable (_ ∨ _))

def finished (order : WorkOrder) : WorkOrder := { order with state := .completed }

end WorkOrder

namespace ForgeAgent

variable {dir : String} {complaint : Schema → Json → String} {sha256 : String → String}
  {uuid5 : String → String}

/-- The two events of a completed order. -/
def factOf (env : Env) (event : Event) (order : WorkOrder) : Event :=
  outcome env event order.finished "forge.completed" (completedEvent order)

@[inherit_doc factOf]
def entryOf (uuid5 : String → String) (env : Env) (event : Event) (order : WorkOrder) : Event :=
  outcome env event order.finished "ledger.entry" (ledgerEntry uuid5 order)

/-- The agent over the repository's contracts. -/
def Config.repository (dir : String) (complaint : Schema → Json → String) (sha256 : String → String)
    (uuid5 : String → String) : Config :=
  ⟨.repository dir complaint sha256, uuid5⟩

def Valid (cfg : Config) (event : Event) : Prop :=
  cfg.rt.registry.validate event.subject event.schemaVersion event.payload = .ok ()

theorem valid_factOf_iff (env : Env) (event : Event) (order : WorkOrder) :
    Valid (.repository dir complaint sha256 uuid5) (factOf env event order) ↔ Completed order := by
  unfold Valid
  rw [← valid_completedEvent_iff]
  have hfile : schemaFiles.lookup (SchemaRegistry.key "forge.completed" (.int 1)) =
      some forgeCompletedV1 := rfl
  exact validate_repository_iff hfile

theorem valid_entryOf_iff (env : Env) (event : Event) {order : WorkOrder} (h : Completed order) :
    Valid (.repository dir complaint sha256 uuid5) (entryOf uuid5 env event order) ↔
      (saleMemo order).length ≤ 280 := by
  unfold Valid
  rw [← valid_ledgerEntry_iff uuid5 h]
  have hfile : schemaFiles.lookup (SchemaRegistry.key "ledger.entry" (.int 1)) = some ledgerEntryV1 := rfl
  exact validate_repository_iff hfile

theorem handle_of_not_completable (cfg : Config) (env : Env) {event : Event} {order : WorkOrder}
    (h : WorkOrder.fromPayload event.payload = .ok order) (hc : ¬ order.Completable) (w : World) :
    handle cfg env event w = (.ok (), w) := by
  have hstate : order.state = .completed ∨ order.state = .cancelled := by
    unfold WorkOrder.Completable at hc
    cases hs : order.state <;> simp_all
  have hstarted : started order = .ok order := by
    unfold started
    rw [if_neg]
    rcases hstate with hs | hs <;> rw [hs] <;> decide
  have htext : ∃ t, Forge.complete cfg.uuid5 order = .error (.invalidTransition t) := by
    unfold Forge.complete WorkOrder.transitionTo
    rcases hstate with hs | hs <;> rw [hs] <;> exact ⟨_, rfl⟩
  obtain ⟨t, ht⟩ := htext
  simp [handle, h, hstarted, ht, PyError.isInvalidTransition]

theorem handle_of_completable (cfg : Config) (env : Env) {event : Event} {order : WorkOrder}
    (h : WorkOrder.fromPayload event.payload = .ok order) (hc : order.Completable) :
    handle cfg env event = (do
      emit cfg env (factOf env event order)
      emit cfg env (entryOf cfg.uuid5 env event order)) := by
  have hstarted : started order = .ok { order with state := .inProgress } := by
    rcases hc with hs | hs
    · simp [started, Forge.start, WorkOrder.transitionTo, hs, WorkOrderState.allowed]
    · unfold started
      rw [if_neg (by rw [hs]; decide), ← hs]
  have hcomplete : Forge.complete cfg.uuid5 { order with state := .inProgress } =
      .ok ⟨order.finished, completedEvent order, ledgerEntry cfg.uuid5 order⟩ := rfl
  funext w
  simp only [handle, h, hstarted, hcomplete, Action.bind_apply, Action.ofExcept_apply]
  rfl

theorem emit_of_valid {cfg : Config} {env : Env} (henv : env.infra = .healthy) {event : Event}
    (hv : Valid cfg event) (w : World) :
    ∃ w', emit cfg env event w = (.ok (), w') ∧ w'.trace = w.trace ++ [event] := by
  unfold emit
  rw [henv, BaseAgent.emit_healthy _ _ _ _ hv]
  exact ⟨_, rfl, rfl⟩

theorem emit_of_invalid {cfg : Config} (env : Env) {event : Event} (hv : ¬ Valid cfg event)
    (w : World) : ∃ e, emit cfg env event w = (.error e, w) := by
  cases he : cfg.rt.registry.validate event.subject event.schemaVersion event.payload with
  | ok u => exact absurd he hv
  | error e => exact ⟨e, by simp [emit, BaseAgent.emit, he]⟩

/-- The order that an event completes: it arrives in a state that can be completed, and meets the
contract of `forge.completed`. -/
def completes (event : Event) : Option WorkOrder :=
  match WorkOrder.fromPayload event.payload with
  | .ok order =>
    if order.Completable ∧ forgeCompletedV1.valid (completedEvent order) = true then some order
    else none
  | .error _ => none

/-- The events of a completed order that meet their contracts. -/
def outcomes (uuid5 : String → String) (env : Env) (event : Event) (order : WorkOrder) : List Event :=
  factOf env event order ::
    if (saleMemo order).length ≤ 280 then [entryOf uuid5 env event order] else []

theorem trace_handle {env : Env} (henv : env.infra = .healthy) (event : Event) (w : World) :
    (handle (.repository dir complaint sha256 uuid5) env event w).2.trace =
      w.trace ++ ((completes event).map (outcomes uuid5 env event)).getD [] := by
  let cfg : Config := .repository dir complaint sha256 uuid5
  show (handle cfg env event w).2.trace = _
  unfold completes
  cases h : WorkOrder.fromPayload event.payload with
  | error e => simp [handle, h]
  | ok order =>
    by_cases hc : order.Completable
    · rw [handle_of_completable cfg env h hc]
      by_cases hfact : Completed order
      · have hif : order.Completable ∧ forgeCompletedV1.valid (completedEvent order) = true :=
          ⟨hc, (valid_completedEvent_iff order).mpr hfact⟩
        simp only [if_pos hif, Option.map_some, Option.getD_some, outcomes]
        have hvfact : Valid cfg (factOf env event order) := (valid_factOf_iff env event order).mpr hfact
        obtain ⟨w₁, h₁, ht₁⟩ := emit_of_valid henv hvfact w
        rw [Action.bind_apply, h₁]
        show (emit cfg env (entryOf uuid5 env event order) w₁).2.trace = _
        have hventry : Valid cfg (entryOf uuid5 env event order) ↔ (saleMemo order).length ≤ 280 :=
          valid_entryOf_iff env event hfact
        by_cases hmemo : (saleMemo order).length ≤ 280
        · obtain ⟨w₂, h₂, ht₂⟩ := emit_of_valid henv (hventry.mpr hmemo) w₁
          rw [if_pos hmemo, h₂]
          show w₂.trace = _
          rw [ht₂, ht₁, List.append_assoc]
          rfl
        · -- the fact is out, the entry is not
          obtain ⟨e, h₂⟩ := emit_of_invalid env (mt hventry.mp hmemo) w₁
          rw [if_neg hmemo, h₂]
          exact ht₁
      · have hif : ¬ (order.Completable ∧ forgeCompletedV1.valid (completedEvent order) = true) :=
          fun hh => hfact ((valid_completedEvent_iff order).mp hh.2)
        have hvfact : ¬ Valid cfg (factOf env event order) := mt (valid_factOf_iff env event order).mp hfact
        obtain ⟨e, h₁⟩ := emit_of_invalid env hvfact w
        rw [Action.bind_apply, h₁]
        simp only [if_neg hif, Option.map_none, Option.getD_none, List.append_nil]
    · have hif : ¬ (order.Completable ∧ forgeCompletedV1.valid (completedEvent order) = true) :=
        fun hh => hc hh.1
      rw [handle_of_not_completable cfg env h hc]
      simp only [if_neg hif, Option.map_none, Option.getD_none, List.append_nil]

/-! ## All or nothing -/

/-- A call emits both events of a completion or none. -/
def AllOrNothing (cfg : Config) (env : Env) (event : Event) (w : World) : Prop :=
  (handle cfg env event w).2.trace = w.trace ∨
    ∃ fact entry : Event, fact.subject = "forge.completed" ∧ entry.subject = "ledger.entry" ∧
      (handle cfg env event w).2.trace = w.trace ++ [fact, entry]

/-- An order is left alone, or fails the contract of `forge.completed`, or has a short memo. -/
def Fits (order : WorkOrder) : Prop :=
  order.Completable → forgeCompletedV1.valid (completedEvent order) = true →
    (saleMemo order).length ≤ 280

/-- **Completion is all or nothing exactly where the memo fits.** For every payload that `from_payload`
accepts, in every state and with a store and a bus that do not fail: the call emits both events or none,
and an order that passes `forge.completed` yields an entry that passes `ledger.entry`, if and only if the
order cannot be completed, fails `forge.completed`, or has a memo of at most 280 characters. -/
theorem all_or_nothing_iff_memo_fits (dir : String) (complaint : Schema → Json → String)
    (sha256 uuid5 : String → String) (env : Env) (henv : env.infra = .healthy) (event : Event)
    (order : WorkOrder) (horder : WorkOrder.fromPayload event.payload = .ok order) (w : World) :
    (AllOrNothing (.repository dir complaint sha256 uuid5) env event w ↔ Fits order) ∧
      ((order.Completable → forgeCompletedV1.valid (completedEvent order) = true →
        ledgerEntryV1.valid (ledgerEntry uuid5 order) = true) ↔ Fits order) := by
  refine ⟨?_, ?_⟩
  · unfold AllOrNothing Fits
    rw [trace_handle henv]
    unfold completes
    simp only [horder]
    by_cases hif : order.Completable ∧ forgeCompletedV1.valid (completedEvent order) = true
    · simp only [if_pos hif, Option.map_some, Option.getD_some, outcomes]
      by_cases hmemo : (saleMemo order).length ≤ 280
      · rw [if_pos hmemo]
        refine iff_of_true (Or.inr ⟨_, _, rfl, rfl, rfl⟩) fun _ _ => hmemo
      · rw [if_neg hmemo]
        refine iff_of_false ?_ fun h => hmemo (h hif.1 hif.2)
        rintro (h | ⟨fact, entry, -, -, h⟩)
        · simp at h
        · simp at h
    · simp only [if_neg hif, Option.map_none, Option.getD_none, List.append_nil, true_or, true_iff]
      exact fun hc hv => absurd ⟨hc, hv⟩ hif
  · unfold Fits
    refine imp_congr_right fun _ => ?_
    refine imp_congr_right fun hv => ?_
    exact valid_ledgerEntry_iff uuid5 ((valid_completedEvent_iff order).mp hv)

/-! ## An order with a long SKU -/

/-- A `forge.workorder` event of three units at 10.00 with 8.25% tax. -/
def orderEvent (tenantId workOrderId sku : String) : Event where
  subject := "forge.workorder"
  schemaVersion := .int 1
  source := "shop"
  id := "00000000-0000-0000-0000-0000000000f0"
  payload := .obj
    [("work_order_id", .str workOrderId), ("tenant_id", .str tenantId), ("sku", .str sku),
      ("quantity", .int 3), ("unit_price_minor", .int 1000), ("currency", .str "USD"),
      ("tax_rate_bps", .int 825)]

def sampleOrder (tenantId workOrderId sku : String) : WorkOrder where
  workOrderId := .str workOrderId
  tenantId := .str tenantId
  sku := .str sku
  quantity := 3
  unitPriceMinor := 1000
  currency := .str "USD"
  taxRateBps := 825

theorem fromPayload_orderEvent (tenantId workOrderId sku : String) :
    WorkOrder.fromPayload (orderEvent tenantId workOrderId sku).payload =
      .ok (sampleOrder tenantId workOrderId sku) := rfl

theorem completes_orderEvent {tenantId workOrderId sku : String} (ht : 1 ≤ tenantId.length)
    (hw : 1 ≤ workOrderId.length) (hs : 1 ≤ sku.length) :
    completes (orderEvent tenantId workOrderId sku) = some (sampleOrder tenantId workOrderId sku) := by
  have hnet : (sampleOrder tenantId workOrderId sku).netMinor = 3000 := rfl
  have htax : (sampleOrder tenantId workOrderId sku).taxMinor = 247 := rfl
  have hcompleted : Completed (sampleOrder tenantId workOrderId sku) := by
    refine ⟨⟨_, rfl, hw⟩, ⟨_, rfl, ht⟩, ⟨_, rfl, hs⟩, ?_, ⟨_, rfl, by decide⟩, ?_, ?_, ?_⟩
    · show (1 : Int) ≤ 3
      omega
    · omega
    · omega
    · unfold WorkOrder.grossMinor
      omega
  have hvalid := (valid_completedEvent_iff _).mpr hcompleted
  unfold completes
  rw [fromPayload_orderEvent]
  simp only
  rw [if_pos ⟨Or.inl rfl, hvalid⟩]

def sampleEnv : Env where
  uuid := fun subject =>
    if subject = "forge.completed" then "00000000-0000-0000-0000-000000000001"
    else "00000000-0000-0000-0000-000000000002"

/-- `uuid5` on the name of the order `wo-1` of `acme`. -/
def sampleUuid5 (_ : String) : String := "5907d86f-8f36-571f-8c69-09d7932a749c"

def longSku : String := String.ofList (List.replicate 300 'A')

theorem longSku_length : longSku.length = 300 := by
  unfold longSku
  simp only [String.length_ofList, List.length_replicate]

/-- The agent of that order, with the SHA-256 of the one event it records. -/
def longSkuConfig : Config :=
  .repository "schema_registry/schemas" (fun _ _ => "")
    (fun _ => "79c7795a629a6f52c8454c0d43bc5f95ec88cbf62b0f996f94aba295d0ff8b65") sampleUuid5

/-- The completion of the order is emitted, its ledger entry is not. -/
theorem longSku_emits_half :
    WorkOrder.fromPayload (orderEvent "acme" "wo-1" longSku).payload =
        .ok (sampleOrder "acme" "wo-1" longSku) ∧
      ¬ AllOrNothing longSkuConfig sampleEnv (orderEvent "acme" "wo-1" longSku) { self := () } := by
  refine ⟨rfl, ?_⟩
  have hmemo : ¬ (saleMemo (sampleOrder "acme" "wo-1" longSku)).length ≤ 280 := by
    have htext : saleMemo (sampleOrder "acme" "wo-1" longSku) =
        "sale " ++ longSku ++ " x" ++ "3" ++ " (wo " ++ "wo-1" ++ ")" := rfl
    rw [htext]
    simp only [String.length_append, longSku_length]
    omega
  have hlen : ((handle longSkuConfig sampleEnv (orderEvent "acme" "wo-1" longSku)
      { self := () }).2.trace).length = 1 := by
    unfold longSkuConfig
    rw [trace_handle rfl, completes_orderEvent (by decide) (by decide) (by rw [longSku_length]; omega)]
    simp only [Option.map_some, Option.getD_some, outcomes, if_neg hmemo]
    rfl
  rintro (h | ⟨fact, entry, -, -, h⟩)
  · rw [h] at hlen
    simp at hlen
  · rw [h] at hlen
    simp at hlen

/-- SHA-256 on the two strings hashed for the order of a widget. -/
def widgetDigest (m : String) : String :=
  if m = genesisHash ++ "\n" ++ canonicalEvent (chainEnvelope
      (factOf sampleEnv (orderEvent "acme" "wo-1" "WIDGET-9") (sampleOrder "acme" "wo-1" "WIDGET-9"))) then
    "82d6115053015cdd7b2b1b7d2d557089991523b4107088e21fca064d0aaf2439"
  else "92e7afab881d55816dd6522d205e8b34208a9ec2ce11292a699e63cee705b75c"

/-- The hypotheses of `all_or_nothing_iff_memo_fits` hold for that order, and both events are
emitted. -/
theorem widget_all_or_nothing :
    AllOrNothing (.repository "schema_registry/schemas" (fun _ _ => "") widgetDigest sampleUuid5)
      sampleEnv (orderEvent "acme" "wo-1" "WIDGET-9") { self := () } := by
  refine (all_or_nothing_iff_memo_fits _ _ _ _ sampleEnv rfl _ _
    (fromPayload_orderEvent "acme" "wo-1" "WIDGET-9") _).1.mpr ?_
  intro _ _
  decide +kernel

end ForgeAgent

end CaviErp
