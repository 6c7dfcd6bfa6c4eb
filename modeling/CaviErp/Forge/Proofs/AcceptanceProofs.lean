import CaviErp.Forge.Proofs.RevenueProofs
import Mathlib.Data.Rat.Floor

/-!
# The ledger takes every entry of Forge

What the contract of `forge.completed` admits of a work order decides its amounts: once the fact passes
it, the entry balances, whatever the quantity, the price and the rate are.
-/

namespace CaviErp

open Py

/-- `//` rounds down. -/
theorem WorkOrder.taxMinor_eq_floor (order : WorkOrder) :
    order.taxMinor = ⌊((order.netMinor * order.taxRateBps : ℤ) : ℚ) / (10000 : ℚ)⌋ :=
  (Rat.floor_intCast_div_natCast (order.netMinor * order.taxRateBps) 10000).symm

/-- The tax line is there where there is tax. -/
theorem Completed.tax_line {order : WorkOrder} (h : Completed order) :
    (∃ line ∈ revenueLines order, line.account = accountTaxPayable) ↔ 0 < order.taxMinor := by
  have htax := h.tax
  have hreceivable : accountReceivable ≠ accountTaxPayable := by decide
  have hrevenue : accountRevenue ≠ accountTaxPayable := by decide
  unfold revenueLines
  by_cases hzero : order.taxMinor = 0
  · simp [hzero, hreceivable, hrevenue]
  · have hpos : 0 < order.taxMinor := by omega
    simp [hzero, hpos]

namespace ForgeAgent

theorem totalDebits_bookEntry (uuid5 : String → String) (order : WorkOrder) :
    (bookEntry uuid5 order).totalDebits = order.grossMinor := by
  unfold JournalEntry.totalDebits sideTotal bookEntry revenueLines
  by_cases htax : order.taxMinor = 0
  · simp [htax]
  · simp [htax]

/-- **Forge's revenue entries are always accepted.** Where an order can be completed, `handle` emits the
fact and the entry. Once the fact meets its contract (whether the entry then meets its own is only a
question of the memo), `from_payload` makes a balanced entry of the second payload for the tenant of its
event, and posting it fails only where the store does: the posted total is the gross amount, every line
has a positive amount, and the tax line is there exactly for a tax. -/
theorem revenue_entry_accepted (dir : String) (complaint : Schema → Json → String)
    (sha256 uuid5 : String → String) (env : Env) (event : Event) (order : WorkOrder)
    (horder : WorkOrder.fromPayload event.payload = .ok order) (hstate : order.Completable)
    (hfact : Valid (.repository dir complaint sha256 uuid5) (factOf env event order)) :
    (handle (.repository dir complaint sha256 uuid5) env event = do
      emit (.repository dir complaint sha256 uuid5) env (factOf env event order)
      emit (.repository dir complaint sha256 uuid5) env (entryOf uuid5 env event order)) ∧
    ∃ tenantId entry, (entryOf uuid5 env event order).tenantId = .str tenantId ∧
      JournalEntry.fromPayload (entryOf uuid5 env event order).payload tenantId = .ok entry ∧
      entry.isBalanced = true ∧
      (∀ (σ : Type) (store : LedgerStore σ) (s : σ),
        (∀ reason, (Ledger.post store entry s).1 = .error (.unbalancedEntry reason) →
          (store.insertIfAbsent entry s).1 = .error (.unbalancedEntry reason)) ∧
        (∀ result, (Ledger.post store entry s).1 = .ok result →
          result.totalMinor = order.grossMinor)) ∧
      order.grossMinor = order.netMinor + order.taxMinor ∧
      order.netMinor = order.quantity * order.unitPriceMinor ∧
      order.taxMinor = ⌊((order.netMinor * order.taxRateBps : ℤ) : ℚ) / (10000 : ℚ)⌋ ∧
      0 ≤ order.taxMinor ∧ (∀ line ∈ entry.lines, 1 ≤ line.amountMinor) ∧
      ((∃ line ∈ entry.lines, line.account = accountTaxPayable) ↔ 0 < order.taxMinor) := by
  have hcompleted : Completed order := (valid_factOf_iff env event order).mp hfact
  obtain ⟨tenantId, ht, -⟩ := hcompleted.tenantId
  have hpayload : JournalEntry.fromPayload (ledgerEntry uuid5 order) tenantId =
      .ok (bookEntry uuid5 order) := by
    have hbook := fromPayload_ledgerEntry uuid5 hcompleted
    rwa [ht] at hbook
  have hbalanced := isBalanced_bookEntry uuid5 hcompleted
  refine ⟨handle_of_completable _ env horder hstate, tenantId, bookEntry uuid5 order, ht, hpayload,
    hbalanced, ?_, rfl, rfl, order.taxMinor_eq_floor, hcompleted.tax, hcompleted.positive,
    hcompleted.tax_line⟩
  intro σ store s
  rw [post_of_balanced store hbalanced s]
  cases (store.insertIfAbsent (bookEntry uuid5 order) s).1 with
  | ok inserted =>
    refine ⟨fun _ h => (by cases h), fun result h => ?_⟩
    obtain rfl := Except.ok.inj h
    exact totalDebits_bookEntry uuid5 order
  | error e =>
    refine ⟨fun _ h => ?_, fun result h => by cases h⟩
    exact congrArg Except.error (Except.error.inj h)

/-- The hypotheses hold for the order of three widgets, whose entry has a tax line. -/
theorem widget_entry_accepted :
    ∃ entry, JournalEntry.fromPayload
        (entryOf sampleUuid5 sampleEnv (orderEvent "acme" "wo-1" "WIDGET-9")
          (sampleOrder "acme" "wo-1" "WIDGET-9")).payload "acme" = .ok entry ∧
      ∃ line ∈ entry.lines, line.account = accountTaxPayable := by
  have hcompleted : Completed (sampleOrder "acme" "wo-1" "WIDGET-9") :=
    (completed_of_completes (completes_orderEvent (by decide) (by decide) (by decide))).2
  obtain ⟨-, tenantId, entry, ht, hpayload, -, -, -, -, -, -, -, htax⟩ :=
    revenue_entry_accepted "schema_registry/schemas" (fun _ _ => "") (fun _ => "") sampleUuid5 sampleEnv
      (orderEvent "acme" "wo-1" "WIDGET-9") (sampleOrder "acme" "wo-1" "WIDGET-9") rfl (Or.inl rfl)
      ((valid_factOf_iff ..).mpr hcompleted)
  have hacme : "acme" = tenantId := Json.str.inj ht
  subst hacme
  exact ⟨entry, hpayload, htax.mpr (by decide)⟩

end ForgeAgent

end CaviErp
