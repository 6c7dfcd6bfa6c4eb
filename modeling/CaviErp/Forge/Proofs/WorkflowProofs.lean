import CaviErp.Forge.Proofs.OrderProofs
import CaviErp.Forge.Workflow
import CaviErp.Lib.Proofs.JsProofs

/-!
# Revenue recognised twice

What the workflow derives from the completion of an order is the entry that the agent derives from the order,
but for its id: the event has none. Nor has the envelope, so that no subscriber takes it for an event.
-/

namespace CaviErp

open Py Js

/-- What the agent completes meets the contract of `forge.completed`. -/
theorem ForgeAgent.valid_of_completes {event : Event} {order : WorkOrder} (h : completes event = some order) :
    forgeCompletedV1.valid (completedEvent order) = true := by
  unfold completes at h
  split at h
  · split at h
    · rename_i hif
      obtain rfl := Option.some.inj h
      exact hif.2
    · cases h
  · cases h

namespace SaleToPosting

variable {uuid5 : String → String} {env : ForgeAgent.Env} {cause fact : Event}
  {order : WorkOrder} {result : CompletionResult}

/-! ## The objects of the code node -/

def entryItems (e : Value) : List (String × Value) :=
  [("entry_id", e.prop "entry_id"), ("currency", e.prop "currency"), ("memo", .string (memo e)),
    ("lines", .array (lines e))]

def envelopeItems (evt e : Value) : List (String × Value) :=
  [("subject", .string "ledger.entry"), ("schema_version", .number (.finite 1)),
    ("source", .string "n8n:sale-to-posting"), ("correlation_id", (evt.prop "correlation_id").orElse .null),
    ("payload", .object (entryItems e))]

theorem published_eq_some {j : Json} (h : published fact = some j) :
    ∃ evt, Js.parse (.obj fact.toDict) = some evt ∧
      j = .obj (Value.stringifiedItems (envelopeItems evt ((evt.prop "payload").orElse evt))) := by
  obtain ⟨evt, hevt, hj⟩ := Option.bind_eq_some_iff.mp h
  refine ⟨evt, hevt, ?_⟩
  have hobject : buildLedgerEntry evt = .object (envelopeItems evt ((evt.prop "payload").orElse evt)) := rfl
  rw [hobject, Value.stringified] at hj
  exact (Option.some.inj hj).symm

theorem get?_envelope (evt e : Value) (k : String) :
    Obj.get? (Value.stringifiedItems (envelopeItems evt e)) k =
      ((envelopeItems evt e).lookup k).bind Value.stringified := by
  have hkeys : (envelopeItems evt e).map Prod.fst =
      ["subject", "schema_version", "source", "correlation_id", "payload"] := rfl
  exact lookup_stringifiedItems (hkeys ▸ by decide) k

theorem get?_entry (e : Value) (k : String) :
    Obj.get? (Value.stringifiedItems (entryItems e)) k = ((entryItems e).lookup k).bind Value.stringified := by
  have hkeys : (entryItems e).map Prod.fst = ["entry_id", "currency", "memo", "lines"] := rfl
  exact lookup_stringifiedItems (hkeys ▸ by decide) k

/-- The derived payload is built from the payload of the event. -/
theorem derivedEntry_eq_some {evt : Value} {kvs : Obj} (hevt : Js.parse (.obj fact.toDict) = some evt)
    (hpayload : fact.payload = .obj kvs) :
    ∃ e, Js.parse (.obj kvs) = some e ∧
      derivedEntry fact = some (Value.stringifiedItems (entryItems e)) := by
  have hget : Obj.get? fact.toDict "payload" = some (.obj kvs) := by
    rw [← hpayload]
    rfl
  obtain ⟨e, he, hprop⟩ := parse_item hevt hget
  have helse : (evt.prop "payload").orElse evt = e := by
    have hobject := he
    rw [Js.parse] at hobject
    obtain ⟨items, -, rfl⟩ := Option.map_eq_some_iff.mp hobject
    rw [hprop]
    rfl
  have hpublished : published fact = some (.obj (Value.stringifiedItems (envelopeItems evt e))) := by
    unfold published
    rw [hevt, Option.bind_some, ← helse]
    rfl
  have hentry : Obj.get? (Value.stringifiedItems (envelopeItems evt e)) "payload" =
      some (.obj (Value.stringifiedItems (entryItems e))) := by
    rw [get?_envelope]
    rfl
  refine ⟨e, he, ?_⟩
  unfold derivedEntry
  rw [hpublished]
  simp only [hentry]

/-! ## The two entries -/

/-- The workflow derives the entry from the fact: id, currency, memo and lines are the same. -/
def Agrees (fact : Event) (entry : Json) : Prop :=
  ∃ derived o, derivedEntry fact = some derived ∧ entry = .obj o ∧
    ∀ k ∈ ["entry_id", "currency", "memo", "lines"], Obj.get? derived k = Obj.get? o k

/-- The event that `ForgeAgent` emits of a completion. -/
def factOf (env : ForgeAgent.Env) (cause : Event) (result : CompletionResult) : Event :=
  ForgeAgent.outcome env cause result.order "forge.completed" result.completedEvent

theorem complete_eq_ok (h : Forge.complete uuid5 order = .ok result) :
    result = ⟨order.finished, completedEvent order, ledgerEntry uuid5 order⟩ := by
  unfold Forge.complete WorkOrder.transitionTo at h
  split at h
  · exact (Except.ok.inj h).symm
  · cases h

/-- A message of the workflow cannot be read as an event. -/
theorem fromDict_of_published {j : Json} (h : published fact = some j) :
    Event.fromDict j = .error (.keyError "id") := by
  obtain ⟨evt, -, rfl⟩ := published_eq_some h
  have hid : Obj.get? (Value.stringifiedItems (envelopeItems evt ((evt.prop "payload").orElse evt))) "id" =
      none := by
    rw [get?_envelope]
    rfl
  simp [Event.fromDict, item, hid, bind, Except.bind]

/-- The event of a completion has no id for the entry. -/
theorem get?_entryId {order : WorkOrder} (hpayload : fact.payload = completedEvent order) {derived : Obj}
    (h : derivedEntry fact = some derived) : Obj.get? derived "entry_id" = none := by
  obtain ⟨evt, hevt⟩ : ∃ evt, Js.parse (.obj fact.toDict) = some evt := by
    unfold derivedEntry published at h
    cases hevt : Js.parse (.obj fact.toDict) with
    | some evt => exact ⟨evt, rfl⟩
    | none =>
      rw [hevt] at h
      cases h
  obtain ⟨e, he, hderived⟩ := derivedEntry_eq_some hevt hpayload
  obtain rfl := Option.some.inj (hderived.symm.trans h)
  have hprop : e.prop "entry_id" = .undefined := by
    rw [prop_parse he]
    rfl
  rw [get?_entry]
  simp [entryItems, hprop, Value.stringified]

theorem not_agrees_completedEvent {order : WorkOrder} (uuid5 : String → String)
    (hpayload : fact.payload = completedEvent order) : ¬ Agrees fact (ledgerEntry uuid5 order) := by
  rintro ⟨derived, o, hderived, hentry, hsame⟩
  obtain rfl := Json.obj.inj hentry
  have hid := hsame "entry_id" List.mem_cons_self
  rw [get?_entryId hpayload hderived] at hid
  cases hid

/-! ## The entry but for its id -/

/-- The amounts and the quantity of the order are integers that a script does not change. -/
structure SafeAmounts (order : WorkOrder) : Prop where
  quantity : Safe order.quantity
  gross : Safe order.grossMinor
  net : Safe order.netMinor
  tax : Safe order.taxMinor

theorem stringified_line (account direction : String) {n : Int} (hn : Safe n) :
    (line account direction (.number (ofInt n))).stringified =
      some (.obj [("account", .str account), ("direction", .str direction), ("amount_minor", .int n)]) := by
  simp [line, Value.stringified, Value.stringifiedItems, stringifiedNumber_ofInt hn]

/-- What the code node reads of a completed order. -/
theorem parse_completedEvent {order : WorkOrder} (h : Completed order) :
    ∃ e workOrderId sku cur, Js.parse (completedEvent order) = some e ∧
      order.workOrderId = .str workOrderId ∧ order.sku = .str sku ∧ order.currency = .str cur ∧
      e.prop "entry_id" = .undefined ∧ e.prop "work_order_id" = .string workOrderId ∧
      e.prop "sku" = .string sku ∧ e.prop "currency" = .string cur ∧
      e.prop "quantity" = .number (ofInt order.quantity) ∧
      e.prop "gross_minor" = .number (ofInt order.grossMinor) ∧
      e.prop "net_minor" = .number (ofInt order.netMinor) ∧
      e.prop "tax_minor" = .number (ofInt order.taxMinor) := by
  obtain ⟨workOrderId, hworkOrderId, -⟩ := h.workOrderId
  obtain ⟨tenantId, htenantId, -⟩ := h.tenantId
  obtain ⟨sku, hsku, -⟩ := h.sku
  obtain ⟨cur, hcur, -⟩ := h.currency
  have hparse : Js.parse (completedEvent order) = some (.object
      [("work_order_id", .string workOrderId), ("tenant_id", .string tenantId), ("sku", .string sku),
        ("quantity", .number (ofInt order.quantity)), ("currency", .string cur),
        ("net_minor", .number (ofInt order.netMinor)), ("tax_minor", .number (ofInt order.taxMinor)),
        ("gross_minor", .number (ofInt order.grossMinor))]) := by
    simp [completedEvent, hworkOrderId, htenantId, hsku, hcur, Js.parse, parseItems]
  exact ⟨_, workOrderId, sku, cur, hparse, hworkOrderId, hsku, hcur, rfl, rfl, rfl, rfl, rfl, rfl, rfl, rfl⟩

/-- The lines are those of `revenue_lines`. -/
theorem stringifiedList_lines {order : WorkOrder} {e : Value} (h : Completed order) (hsafe : SafeAmounts order)
    (hgross : e.prop "gross_minor" = .number (ofInt order.grossMinor))
    (hnet : e.prop "net_minor" = .number (ofInt order.netMinor))
    (htax : e.prop "tax_minor" = .number (ofInt order.taxMinor)) :
    Value.stringifiedList (lines e) = (revenueLines order).map JournalLine.toDict := by
  have hline : ∀ {account direction : String} {n : Int}, Safe n → ∀ vs : List Value,
      Value.stringifiedList (line account direction (.number (ofInt n)) :: vs) =
        .obj [("account", .str account), ("direction", .str direction), ("amount_minor", .int n)] ::
          Value.stringifiedList vs := by
    intro account direction n hn vs
    rw [Value.stringifiedList, stringified_line _ _ hn]
    rfl
  have htest : ((Value.number (ofInt order.taxMinor)).orElse (.number (.finite 0))).positive =
      decide (0 < order.taxMinor) := positive_ofInt hsafe.tax
  unfold lines revenueLines
  rw [hgross, hnet, htax, htest]
  by_cases hpos : 0 < order.taxMinor
  · rw [if_pos (decide_eq_true hpos), if_pos (by omega : order.taxMinor ≠ 0), List.cons_append,
      List.cons_append, List.nil_append, hline hsafe.gross, hline hsafe.net, hline hsafe.tax]
    rfl
  · -- the contract of the event excludes a negative tax, on which the two tests differ
    have hzero : order.taxMinor = 0 := by
      have hnonneg := h.tax
      omega
    rw [if_neg (by simpa using hpos), if_neg (not_not.mpr hzero), List.append_nil, List.append_nil,
      hline hsafe.gross, hline hsafe.net]
    rfl

/-- **The workflow derives the rest of the entry.** Of an order that meets the contract of `forge.completed`,
with amounts of at most 53 bits, currency, memo and lines are those of the agent's entry, and the id is all
that lacks. -/
theorem derivedEntry_of_completed (uuid5 : String → String) (env : ForgeAgent.Env) {cause : Event} {order : WorkOrder}
    (h : Completed order) (hsafe : SafeAmounts order) (hcause : (Js.parse cause.correlationId).isSome) :
    ∃ derived, derivedEntry (ForgeAgent.factOf env cause order) = some derived ∧
      ledgerEntry uuid5 order = .obj (("entry_id", .str (ledgerEntryId uuid5 order)) :: derived) := by
  obtain ⟨e, workOrderId, sku, cur, he, hworkOrderId, hsku, hcur, hid, hprops⟩ := parse_completedEvent h
  obtain ⟨hpworkOrderId, hpsku, hpcur, hpquantity, hpgross, hpnet, hptax⟩ := hprops
  obtain ⟨tenantId, htenantId, -⟩ := h.tenantId
  obtain ⟨correlationId, hcorrelationId⟩ := Option.isSome_iff_exists.mp hcause
  have hevt : ∃ evt, Js.parse (.obj (ForgeAgent.factOf env cause order).toDict) = some evt := by
    have htenant : (ForgeAgent.factOf env cause order).tenantId = .str tenantId := htenantId
    have hpayload : (ForgeAgent.factOf env cause order).payload = completedEvent order := rfl
    have hcorrelation : (ForgeAgent.factOf env cause order).correlationId = cause.correlationId := rfl
    unfold Event.toDict
    rw [htenant, hpayload, hcorrelation]
    simp [Js.parse, parseItems, ForgeAgent.factOf, ForgeAgent.outcome, hcorrelationId, he]
  obtain ⟨evt, hevt⟩ := hevt
  obtain ⟨e', he', hderived⟩ := derivedEntry_eq_some hevt rfl
  obtain rfl := Option.some.inj (he.symm.trans he')
  refine ⟨_, hderived, ?_⟩
  have hmemo : memo e = saleMemo order := by
    unfold memo saleMemo
    rw [hpworkOrderId, hpsku, hpquantity, text_ofInt hsafe.quantity, hworkOrderId, hsku]
    rfl
  have hlines := stringifiedList_lines h hsafe hpgross hpnet hptax
  unfold ledgerEntry entryItems
  simp only [Value.stringifiedItems, Value.stringified, hid, hpcur, hmemo, hlines, hcur]

/-- **The workflow never derives the entry that the agent emits.** Whatever order is completed, the payload
derived from the event of its completion lacks the id; and what the workflow publishes is not read as an event,
so that no second posting is tried. -/
theorem never_agrees (uuid5 : String → String) (env : ForgeAgent.Env) (cause : Event) {order : WorkOrder}
    {result : CompletionResult} (h : Forge.complete uuid5 order = .ok result) :
    ¬ Agrees (factOf env cause result) result.ledgerEntry ∧
      ∀ j, published (factOf env cause result) = some j → Event.fromDict j = .error (.keyError "id") := by
  obtain rfl := complete_eq_ok h
  exact ⟨not_agrees_completedEvent uuid5 rfl, fun _ => fromDict_of_published⟩

/-- The order of a widget, in progress. -/
def widgetOrder : WorkOrder := { ForgeAgent.sampleOrder "acme" "wo-1" "WIDGET-9" with state := .inProgress }

def widgetResult : CompletionResult :=
  ⟨widgetOrder.finished, completedEvent widgetOrder, ledgerEntry ForgeAgent.sampleUuid5 widgetOrder⟩

theorem never_agrees_widget :
    ¬ Agrees (factOf ForgeAgent.sampleEnv (ForgeAgent.orderEvent "acme" "wo-1" "WIDGET-9") widgetResult)
      widgetResult.ledgerEntry :=
  (never_agrees ForgeAgent.sampleUuid5 ForgeAgent.sampleEnv (ForgeAgent.orderEvent "acme" "wo-1" "WIDGET-9")
    (show Forge.complete ForgeAgent.sampleUuid5 widgetOrder = .ok widgetResult from rfl)).1

/-- The agent completes the order of a widget; the entry that the workflow derives has its memo, and no id. -/
theorem widget_entry_without_id :
    ForgeAgent.completes (ForgeAgent.orderEvent "acme" "wo-1" "WIDGET-9") =
        some (ForgeAgent.sampleOrder "acme" "wo-1" "WIDGET-9") ∧
      Forge.complete ForgeAgent.sampleUuid5 widgetOrder = .ok widgetResult ∧
      (∃ derived, derivedEntry (factOf ForgeAgent.sampleEnv (ForgeAgent.orderEvent "acme" "wo-1" "WIDGET-9")
        widgetResult) = some derived ∧ Obj.get? derived "entry_id" = none ∧
        Obj.get? derived "memo" = some (.str "sale WIDGET-9 x3 (wo wo-1)")) ∧
      ¬ Agrees (factOf ForgeAgent.sampleEnv (ForgeAgent.orderEvent "acme" "wo-1" "WIDGET-9") widgetResult)
        widgetResult.ledgerEntry := by
  have hcompletes : ForgeAgent.completes (ForgeAgent.orderEvent "acme" "wo-1" "WIDGET-9") =
      some (ForgeAgent.sampleOrder "acme" "wo-1" "WIDGET-9") :=
    ForgeAgent.completes_orderEvent (by decide) (by decide) (by decide)
  have hvalid := ForgeAgent.valid_of_completes hcompletes
  have hcompleted : Completed widgetOrder := (valid_completedEvent_iff widgetOrder).mp hvalid
  have hsafe : SafeAmounts widgetOrder := ⟨by decide, by decide, by decide, by decide⟩
  have hcause : (Js.parse (ForgeAgent.orderEvent "acme" "wo-1" "WIDGET-9").correlationId).isSome := rfl
  obtain ⟨derived, hderived, hentry⟩ := derivedEntry_of_completed ForgeAgent.sampleUuid5 ForgeAgent.sampleEnv
    hcompleted hsafe hcause
  refine ⟨hcompletes, rfl, ⟨derived, hderived, get?_entryId rfl hderived, ?_⟩,
    not_agrees_completedEvent ForgeAgent.sampleUuid5 rfl⟩
  obtain rfl := (List.cons.inj (Json.obj.inj hentry)).2
  rfl

end SaleToPosting

end CaviErp
