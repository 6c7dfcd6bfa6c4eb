import CaviErp.Forge.Proofs.OrderProofs
import CaviErp.Forge.Revenue
import CaviErp.Ledger.Proofs.DeliveryProofs
import CaviErp.Ledger.Proofs.TenantProofs

/-!
# When revenue is recognised exactly once

The ledger keeps the first entry under an id, and the id is derived from the tenant and the work order
joined by a colon. So each completed pair has its own entry exactly as long as no two pairs are joined to
the same name, and each pair has a delivery whose entry is emitted and taken by the store.
-/

namespace CaviErp

open Py FirstWriter

namespace ForgeAgent

variable {dir : String} {complaint : Schema → Json → String} {sha256 uuid5 : String → String}

/-! ## What the forge agent emits -/

/-- One of the deliveries completes the order. -/
def Completes (ds : List Delivery) (order : WorkOrder) : Prop := ∃ d ∈ ds, completes d.2 = some order

theorem emitted_eq (ds : List Delivery) :
    emitted (.repository dir complaint sha256 uuid5) ds = ds.flatMap fun d =>
      ((completes d.2).map (outcomes uuid5 { uuid := d.1 } d.2)).getD [] := by
  have hrun : ∀ (ds : List Delivery) (w : World),
      (deliver (.repository dir complaint sha256 uuid5) (ds.map fun d => ({ uuid := d.1 }, d.2)) w).trace =
        w.trace ++ ds.flatMap fun d =>
          ((completes d.2).map (outcomes uuid5 { uuid := d.1 } d.2)).getD [] := by
    intro ds
    induction ds with
    | nil => intro w; simp [deliver]
    | cons d ds ih =>
      intro w
      have hhead : (handle (.repository dir complaint sha256 uuid5) { uuid := d.1 } d.2 w).2.trace =
          w.trace ++ ((completes d.2).map (outcomes uuid5 { uuid := d.1 } d.2)).getD [] :=
        trace_handle rfl d.2 w
      unfold deliver at ih ⊢
      rw [List.map_cons, Action.serve_cons, ih, hhead, List.flatMap_cons, List.append_assoc]
  exact hrun ds { self := () }

theorem mem_emitted {ds : List Delivery} {e : Event} :
    e ∈ emitted (.repository dir complaint sha256 uuid5) ds ↔
      ∃ d ∈ ds, ∃ order, completes d.2 = some order ∧
        (e = factOf { uuid := d.1 } d.2 order ∨
          ((saleMemo order).length ≤ 280 ∧ e = entryOf uuid5 { uuid := d.1 } d.2 order)) := by
  rw [emitted_eq, List.mem_flatMap]
  refine exists_congr fun d => and_congr_right fun _ => ?_
  cases completes d.2 with
  | none => simp
  | some order =>
    simp only [Option.map_some, Option.getD_some, outcomes, List.mem_cons, Option.some.injEq,
      exists_eq_left']
    by_cases hmemo : (saleMemo order).length ≤ 280
    · simp [hmemo]
    · simp [hmemo]

theorem completed_of_completes {event : Event} {order : WorkOrder} (h : completes event = some order) :
    WorkOrder.fromPayload event.payload = .ok order ∧ Completed order := by
  unfold completes at h
  split at h
  · rename_i o ho
    split at h
    · rename_i hif
      injection h with h
      subst h
      exact ⟨ho, (valid_completedEvent_iff o).mp hif.2⟩
    · cases h
  · cases h

theorem Completes.completed {ds : List Delivery} {order : WorkOrder} (h : Completes ds order) :
    Completed order := by
  obtain ⟨d, -, hd⟩ := h
  exact (completed_of_completes hd).2

theorem completedPair_iff {ds : List Delivery} {t w : String} :
    CompletedPair (emitted (.repository dir complaint sha256 uuid5) ds) t w ↔
      ∃ order, Completes ds order ∧ order.tenantId = .str t ∧ order.workOrderId = .str w := by
  constructor
  · rintro ⟨e, he, hsubject, ht, hw⟩
    obtain ⟨d, hd, order, horder, rfl | ⟨-, rfl⟩⟩ := mem_emitted.mp he
    · exact ⟨order, ⟨d, hd, horder⟩, Except.ok.inj ht, Except.ok.inj hw⟩
    · have hname : Json.str "ledger.entry" = .str "forge.completed" := hsubject
      exact absurd hname (by decide)
  · rintro ⟨order, ⟨d, hd, horder⟩, ht, hw⟩
    refine ⟨_, mem_emitted.mpr ⟨d, hd, order, horder, Or.inl rfl⟩, rfl, ?_, ?_⟩
    · exact congrArg Except.ok ht
    · exact congrArg Except.ok hw

/-! ## The entry of an order -/

/-- The journal entry that the ledger makes of a completed order. -/
def bookEntry (uuid5 : String → String) (order : WorkOrder) : JournalEntry where
  entryId := ledgerEntryId uuid5 order
  tenantId := order.tenantId.pyStr
  currency := order.currency.pyStr
  lines := revenueLines order
  memo := some (saleMemo order)

theorem fromJson_toDict (line : JournalLine) : JournalLine.fromJson line.toDict = .ok line := by
  obtain ⟨account, direction, amount⟩ := line
  cases direction <;> rfl

theorem mapM_fromJson_toDict (lines : List JournalLine) :
    (lines.map JournalLine.toDict).mapM JournalLine.fromJson = .ok lines := by
  induction lines with
  | nil => rfl
  | cons line lines ih =>
    rw [List.map_cons, List.mapM_cons, fromJson_toDict, ih]
    rfl

theorem fromPayload_ledgerEntry (uuid5 : String → String) {order : WorkOrder} (h : Completed order) :
    JournalEntry.fromPayload (ledgerEntry uuid5 order) order.tenantId.pyStr =
      .ok (bookEntry uuid5 order) := by
  obtain ⟨t, ht, hlen⟩ := h.tenantId
  obtain ⟨c, hc, -⟩ := h.currency
  have hne : order.tenantId.pyStr ≠ "" := by
    rw [ht]
    rintro rfl
    exact absurd hlen (by decide)
  have hlines : (item (ledgerEntry uuid5 order) "lines" >>= elements >>=
      List.mapM JournalLine.fromJson) = .ok (revenueLines order) := mapM_fromJson_toDict _
  have hcurrency : (item (ledgerEntry uuid5 order) "currency" >>= asStr) =
      .ok order.currency.pyStr := by
    show asStr order.currency = _
    rw [hc]
    rfl
  unfold JournalEntry.fromPayload
  rw [if_neg hne, hlines, hcurrency]
  rfl

/-- Debits equal credits by construction. -/
theorem isBalanced_bookEntry (uuid5 : String → String) {order : WorkOrder} (h : Completed order) :
    (bookEntry uuid5 order).isBalanced = true := by
  rw [isBalanced_iff]
  have hgross := h.gross
  have hsum : order.grossMinor = order.netMinor + order.taxMinor := rfl
  have hdebits : (bookEntry uuid5 order).totalDebits = order.grossMinor := by
    unfold JournalEntry.totalDebits sideTotal bookEntry revenueLines
    by_cases htax : order.taxMinor = 0
    · simp [htax]
    · simp [htax]
  have hcredits : (bookEntry uuid5 order).totalCredits = order.grossMinor := by
    unfold JournalEntry.totalCredits sideTotal bookEntry revenueLines
    by_cases htax : order.taxMinor = 0
    · simp [htax, hsum]
    · simp [htax, hsum]
  omega

end ForgeAgent

/-! ## What the ledger makes of the entries -/

namespace LedgerAgent

variable {σ κ : Type} [DecidableEq κ] {store : LedgerStore σ} {s₀ : σ} {guard : Guard JournalEntry κ}

/-- A valid event of a tenant whose payload decodes is posted, whatever becomes of the answer. -/
theorem dispatch_of_entry (rt : Runtime) (env : Env) {event : Event} {tenantId : String}
    {entry : JournalEntry}
    (hv : rt.registry.validate event.subject event.schemaVersion event.payload = .ok ())
    (ht : event.tenantId = .str tenantId)
    (he : JournalEntry.fromPayload event.payload tenantId = .ok entry) (w : World σ) :
    (dispatch rt store env event w).2.self = (Ledger.post store entry w.self).2 := by
  unfold dispatch
  rw [BaseAgent.dispatch_of_valid rt env.infra hv, handle_of_entry rt store env ht he]
  cases (Ledger.post store entry w.self).1 with
  | error e =>
    cases e with
    | unbalancedEntry reason => exact (emit_frame rt env _ _).1
    | _ => rfl
  | ok result =>
    simp only
    cases result.status with
    | duplicate => rfl
    | posted => exact (emit_frame rt env _ _).1

/-- The event of the delivery is one that is posted as the entry. -/
def Posts (rt : Runtime) (d : Delivery) (entry : JournalEntry) : Prop :=
  rt.registry.validate d.event.subject d.event.schemaVersion d.event.payload = .ok () ∧
    ∃ tenantId, d.event.tenantId = .str tenantId ∧
      JournalEntry.fromPayload d.event.payload tenantId = .ok entry

theorem deliver_keeps (b : Books store s₀ guard) (rt : Runtime) (ds : List Delivery)
    (hposts : ∀ d ∈ ds, ∃ entry, Posts rt d entry) (w : World σ) {h : List JournalEntry}
    (hw : b.Keeps w.self h) :
    ∃ h', b.Keeps (deliver rt store ds w).self (h ++ h') ∧
      ∀ e, e ∈ h' ↔ ∃ d ∈ ds, Posts rt d e := by
  induction ds generalizing w h with
  | nil => exact ⟨[], by simpa [deliver] using hw, by simp⟩
  | cons d ds ih =>
    obtain ⟨entry, hv, t, ht, he⟩ := hposts d List.mem_cons_self
    have hstep : b.Keeps (dispatch rt store d.env d.event w).2.self (h ++ [entry]) := by
      rw [dispatch_of_entry rt d.env hv ht he]
      exact b.post_snd hw entry
    obtain ⟨h', hkeeps, hmem⟩ := ih (fun d' hd' => hposts d' (List.mem_cons_of_mem _ hd')) _ hstep
    refine ⟨entry :: h', ?_, ?_⟩
    · rw [List.append_assoc] at hkeeps
      exact hkeeps
    · intro e
      rw [List.mem_cons, hmem]
      constructor
      · rintro (rfl | ⟨d', hd', hpost⟩)
        · exact ⟨d, List.mem_cons_self, hv, t, ht, he⟩
        · exact ⟨d', List.mem_cons_of_mem _ hd', hpost⟩
      · rintro ⟨d', hd', hv', t', ht', he'⟩
        rcases List.mem_cons.mp hd' with rfl | hd'
        · -- the tenant is determined, and with it the entry
          obtain rfl : t = t' := Json.str.inj (ht.symm.trans ht')
          exact Or.inl (Except.ok.inj (he'.symm.trans he))
        · exact Or.inr ⟨d', hd', hv', t', ht', he'⟩

end LedgerAgent

/-! ## The journals of the two stores -/

/-- A journal shows what a guard holds after a history. -/
structure Journal.Shows {κ : Type} [DecidableEq κ] (journal : Journal κ)
    (guard : Guard JournalEntry κ) (h : List JournalEntry) : Prop where
  held : ∀ k, journal.held k = ((guard.holder h k).map fun e => (e.tenantId, e.lines)).toList
  keys : ∀ k, k ∈ journal.keys ↔ (guard.holder h k).isSome

theorem filter_entryId {l : List JournalEntry} (hnodup : (l.map JournalEntry.entryId).Nodup)
    (k : String) : (l.filter fun e => e.entryId = k) = (l.find? fun e => e.entryId = k).toList := by
  induction l with
  | nil => rfl
  | cons e l ih =>
    rw [List.map_cons, List.nodup_cons] at hnodup
    by_cases hk : e.entryId = k
    · have hrest : (l.filter fun e => decide (e.entryId = k)) = [] := by
        rw [List.filter_eq_nil_iff]
        intro e' he' hid
        refine hnodup.1 (List.mem_map.mpr ⟨e', he', ?_⟩)
        rw [of_decide_eq_true hid, hk]
      simp [hk, hrest]
    · simp [hk, ih hnodup.2]

theorem InMemoryLedgerStore.journal_shows {s : InMemoryLedgerStore} {h : List JournalEntry}
    (hs : Keeps s h) : s.journal.Shows guard h := by
  refine ⟨?_, ?_⟩
  · intro k
    show (s.entries.filter fun e => e.entryId = k).map _ = _
    rw [filter_entryId s.nodup k, ← hs k]
    show (s.find? k).toList.map _ = _
    cases s.find? k <;> rfl
  · intro k
    rw [← hs k, find?, List.find?_isSome]
    show k ∈ s.entries.map JournalEntry.entryId ↔ _
    simp

theorem Postgres.journal_shows {κ : Type} [DecidableEq κ] {srv : Postgres.Server κ}
    {t : Postgres.Tables κ} {h : List JournalEntry} (hs : Keeps srv t h) :
    (Postgres.journal t).Shows (guard srv) h := by
  refine ⟨?_, ?_⟩
  · intro k
    show (t.entries.filter fun row => row.entryId = k).map _ = _
    rw [hs.entries k, hs.lines k]
    cases hh : (guard srv).holder h k with
    | none => rfl
    | some e =>
      obtain ⟨hkey, hadmits⟩ := Guard.key_of_holder hh
      obtain ⟨-, row, hrow, -⟩ := guard_key_some hkey
      obtain ⟨rows, hrows⟩ := Option.isSome_iff_exists.mp hadmits
      rw [hrow, Option.bind_some] at hrows
      have hlines := (mapM_lineRow_some hrows).2
      have htenant := (entryRow_some hrow).2.2.1
      simp [linesOf, hrow, hrows, hlines, htenant]
  · intro k
    rw [← hs.any_iff k, List.any_eq_true]
    show k ∈ t.entries.map EntryRow.entryId ↔ _
    simp [List.mem_map]

/-! ## Exactly once -/

namespace ForgeAgent

open LedgerAgent (DeliversEntries)

variable {dir : String} {complaint : Schema → Json → String} {sha256 uuid5 : String → String}

/-- No two orders of different pairs are completed whose entries have the same name. -/
def Unambiguous (ds : List Delivery) : Prop :=
  ∀ o o', Completes ds o → Completes ds o' → ledgerEntryName o = ledgerEntryName o' →
    o.tenantId = o'.tenantId ∧ o.workOrderId = o'.workOrderId

/-- Every pair that is completed is so by an order with a short memo whose entry the store takes. -/
def Recognised (uuid5 : String → String) (takes : JournalEntry → Bool) (ds : List Delivery) : Prop :=
  ∀ o, Completes ds o → ∃ o', Completes ds o' ∧ o'.tenantId = o.tenantId ∧
    o'.workOrderId = o.workOrderId ∧ (saleMemo o').length ≤ 280 ∧ takes (bookEntry uuid5 o') = true

/-- The names of the entries of the orders that are completed. -/
def entryNames (ds : List Delivery) : Set String :=
  { name | ∃ o, Completes ds o ∧ name = ledgerEntryName o }

/-- The entries that are posted are those of the completed orders with short memos. -/
theorem posts_iff {ds : List Delivery} {ls : List LedgerAgent.Delivery}
    (hls : DeliversEntries (emitted (.repository dir complaint sha256 uuid5) ds) ls) :
    (∀ l ∈ ls, ∃ e, LedgerAgent.Posts (.repository dir complaint sha256) l e) ∧
      ∀ e, (∃ l ∈ ls, LedgerAgent.Posts (.repository dir complaint sha256) l e) ↔
        ∃ o, Completes ds o ∧ (saleMemo o).length ≤ 280 ∧ e = bookEntry uuid5 o := by
  -- what a delivery of an entry posts
  have hpost : ∀ (l : LedgerAgent.Delivery) (d : Delivery) (o : WorkOrder), completes d.2 = some o →
      (saleMemo o).length ≤ 280 → l.event = entryOf uuid5 { uuid := d.1 } d.2 o →
      ∀ e, LedgerAgent.Posts (.repository dir complaint sha256) l e ↔ e = bookEntry uuid5 o := by
    intro l d o ho hmemo hl e
    obtain ⟨-, hc⟩ := completed_of_completes ho
    obtain ⟨t, ht, -⟩ := hc.tenantId
    have hv : Valid (.repository dir complaint sha256 uuid5)
        (entryOf uuid5 { uuid := d.1 } d.2 o) := (valid_entryOf_iff _ _ hc).mpr hmemo
    have hdecode := fromPayload_ledgerEntry uuid5 hc
    rw [ht] at hdecode
    unfold LedgerAgent.Posts
    rw [hl]
    constructor
    · rintro ⟨-, t', ht', he⟩
      obtain rfl : t = t' := Json.str.inj (ht.symm.trans ht')
      exact Except.ok.inj (he.symm.trans hdecode)
    · rintro rfl
      exact ⟨hv, t, ht, hdecode⟩
  -- every delivery is one of an entry
  have hfrom : ∀ l ∈ ls, ∃ d ∈ ds, ∃ o, completes d.2 = some o ∧ (saleMemo o).length ≤ 280 ∧
      l.event = entryOf uuid5 { uuid := d.1 } d.2 o := by
    intro l hl
    obtain ⟨hmem, hsubject⟩ := hls.1 l hl
    obtain ⟨d, hd, o, ho, hfact | ⟨hmemo, hentry⟩⟩ := mem_emitted.mp hmem
    · rw [hfact] at hsubject
      have hname : Json.str "forge.completed" = .str "ledger.entry" := hsubject
      exact absurd hname (by decide)
    · exact ⟨d, hd, o, ho, hmemo, hentry⟩
  refine ⟨?_, ?_⟩
  · intro l hl
    obtain ⟨d, -, o, ho, hmemo, hentry⟩ := hfrom l hl
    exact ⟨_, (hpost l d o ho hmemo hentry _).mpr rfl⟩
  · intro e
    constructor
    · rintro ⟨l, hl, he⟩
      obtain ⟨d, hd, o, ho, hmemo, hentry⟩ := hfrom l hl
      exact ⟨o, ⟨d, hd, ho⟩, hmemo, (hpost l d o ho hmemo hentry e).mp he⟩
    · rintro ⟨o, ⟨d, hd, ho⟩, hmemo, rfl⟩
      obtain ⟨l, hl, hentry⟩ := hls.2 _ (mem_emitted.mpr ⟨d, hd, o, ho, Or.inr ⟨hmemo, rfl⟩⟩) rfl
      exact ⟨l, hl, (hpost l d o ho hmemo hentry _).mpr rfl⟩

theorem pairEntryId_eq (uuid5 : String → String) {o : WorkOrder} {t w : String}
    (ht : o.tenantId = .str t) (hw : o.workOrderId = .str w) :
    pairEntryId uuid5 t w = uuid5 (ledgerEntryName o) := by
  unfold pairEntryId ledgerEntryName
  rw [ht, hw]
  rfl

theorem Completes.strings {ds : List Delivery} {o : WorkOrder} (h : Completes ds o) :
    ∃ t w, o.tenantId = .str t ∧ o.workOrderId = .str w := by
  obtain ⟨w, hw, -⟩ := h.completed.workOrderId
  obtain ⟨t, ht, -⟩ := h.completed.tenantId
  exact ⟨t, w, ht, hw⟩

section Booking

variable {κ : Type} {guard : Guard JournalEntry κ} {key : String → Option κ} {ds : List Delivery}
  {h : List JournalEntry} {journal : Journal κ}

/-- The ledger was handed the entries of the completed orders with short memos, `h`, and finds them under
the keys of their names. -/
structure Booking (uuid5 : String → String) (guard : Guard JournalEntry κ) (key : String → Option κ)
    (ds : List Delivery) (h : List JournalEntry) : Prop where
  mem_iff : ∀ e, e ∈ h ↔
    ∃ o, Completes ds o ∧ (saleMemo o).length ≤ 280 ∧ e = bookEntry uuid5 o
  key_eq : ∀ e k, guard.key e = some k → key e.entryId = some k
  injOn : Set.InjOn (fun name => key (uuid5 name)) (entryNames ds)

theorem Booking.same_pair (hb : Booking uuid5 guard key ds h) (hunamb : Unambiguous ds)
    {o o' : WorkOrder} (ho : Completes ds o) (ho' : Completes ds o')
    (heq : key (uuid5 (ledgerEntryName o)) = key (uuid5 (ledgerEntryName o'))) :
    o.tenantId = o'.tenantId ∧ o.workOrderId = o'.workOrderId :=
  hunamb o o' ho ho' (hb.injOn ⟨_, ho, rfl⟩ ⟨_, ho', rfl⟩ heq)

theorem ExactlyOnce.unambiguous
    (hx : ExactlyOnce uuid5 key ds (emitted (.repository dir complaint sha256 uuid5) ds) journal) :
    Unambiguous ds := by
  intro o o' ho ho' heq
  obtain ⟨t, w, ht, hw⟩ := ho.strings
  obtain ⟨t', w', ht', hw'⟩ := ho'.strings
  have hid : key (pairEntryId uuid5 t w) = key (pairEntryId uuid5 t' w') := by
    rw [pairEntryId_eq uuid5 ht hw, pairEntryId_eq uuid5 ht' hw', heq]
  obtain ⟨rfl, rfl⟩ := hx.unshared t w t' w' (completedPair_iff.mpr ⟨o, ho, ht, hw⟩)
    (completedPair_iff.mpr ⟨o', ho', ht', hw'⟩) hid
  rw [ht, hw, ht', hw']
  exact ⟨rfl, rfl⟩

variable [DecidableEq κ]

/-- What is held is the entry of a completed order, under the key of its name. -/
theorem Booking.held (hb : Booking uuid5 guard key ds h) {k : κ} {e : JournalEntry}
    (hk : guard.holder h k = some e) :
    ∃ o, Completes ds o ∧ (saleMemo o).length ≤ 280 ∧ e = bookEntry uuid5 o ∧
      guard.admits e = true ∧ key (uuid5 (ledgerEntryName o)) = some k := by
  obtain ⟨hkey, hadmits⟩ := Guard.key_of_holder hk
  obtain ⟨o, ho, hmemo, rfl⟩ := (hb.mem_iff e).mp (List.mem_of_find?_eq_some hk)
  exact ⟨o, ho, hmemo, rfl, hadmits, hb.key_eq _ _ hkey⟩

/-- The entry of a completed pair is that of an order with a short memo that the store took. -/
theorem ExactlyOnce.recognised (hb : Booking uuid5 guard key ds h) (hj : journal.Shows guard h)
    (hx : ExactlyOnce uuid5 key ds (emitted (.repository dir complaint sha256 uuid5) ds) journal) :
    Recognised uuid5 guard.admits ds := by
  intro o ho
  obtain ⟨t, w, ht, hw⟩ := ho.strings
  obtain ⟨k, order, hk, -, hone⟩ := hx.one t w (completedPair_iff.mpr ⟨o, ho, ht, hw⟩)
  rw [pairEntryId_eq uuid5 ht hw] at hk
  rw [hj.held k] at hone
  cases hh : guard.holder h k with
  | none =>
    rw [hh] at hone
    simp at hone
  | some e =>
    obtain ⟨o', ho', hmemo, rfl, hadmits, hk'⟩ := hb.held hh
    obtain ⟨htenant, horder⟩ := hb.same_pair hx.unambiguous ho' ho (hk'.trans hk.symm)
    exact ⟨o', ho', htenant, horder, hmemo, hadmits⟩

/-- A completed pair that is recognised has one entry, with the amounts of one of its orders. -/
theorem Booking.one (hb : Booking uuid5 guard key ds h) (hj : journal.Shows guard h)
    (htakes : ∀ e, e.isBalanced = true → guard.admits e = true → ∃ k, guard.key e = some k)
    (hunamb : Unambiguous ds) (hrec : Recognised uuid5 guard.admits ds) {o : WorkOrder} {t w : String}
    (ho : Completes ds o) (ht : o.tenantId = .str t) (hw : o.workOrderId = .str w) :
    ∃ k order, key (pairEntryId uuid5 t w) = some k ∧ DeliveredOrder ds t w order ∧
      journal.held k = [(t, revenueLines order)] := by
  obtain ⟨o₁, ho₁, ht₁, hw₁, hmemo₁, hadmits₁⟩ := hrec o ho
  obtain ⟨k, hk⟩ := htakes _ (isBalanced_bookEntry uuid5 ho₁.completed) hadmits₁
  -- the entry of `o₁` is posted, so something is held under its key
  have hin : bookEntry uuid5 o₁ ∈ h := (hb.mem_iff _).mpr ⟨o₁, ho₁, hmemo₁, rfl⟩
  have hsome : (guard.holder h k).isSome := by
    rw [Guard.holder, List.find?_isSome]
    exact ⟨_, hin, Guard.claims_iff.mpr ⟨hk, hadmits₁⟩⟩
  obtain ⟨e, he⟩ := Option.isSome_iff_exists.mp hsome
  obtain ⟨o₂, ho₂, -, rfl, -, hk₂⟩ := hb.held he
  have hk₁ : key (uuid5 (ledgerEntryName o₁)) = some k := hb.key_eq _ _ hk
  obtain ⟨htt, hww⟩ := hb.same_pair hunamb ho₂ ho₁ (hk₂.trans hk₁.symm)
  have ht₂ : o₂.tenantId = .str t := by rw [htt, ht₁, ht]
  have hw₂ : o₂.workOrderId = .str w := by rw [hww, hw₁, hw]
  refine ⟨k, o₂, ?_, ?_, ?_⟩
  · rw [pairEntryId_eq uuid5 ht₂ hw₂]
    exact hk₂
  · obtain ⟨d₂, hd₂, hc₂⟩ := ho₂
    exact ⟨d₂, hd₂, (completed_of_completes hc₂).1, ht₂, hw₂⟩
  · rw [hj.held k, he]
    show [((bookEntry uuid5 o₂).tenantId, (bookEntry uuid5 o₂).lines)] = _
    rw [bookEntry, ht₂]
    rfl

/-- The journal shows every completed pair once, exactly where the names are unambiguous and every pair
is recognised. -/
theorem Booking.exactlyOnce_iff (hb : Booking uuid5 guard key ds h) (hj : journal.Shows guard h)
    (htakes : ∀ e, e.isBalanced = true → guard.admits e = true → ∃ k, guard.key e = some k) :
    ExactlyOnce uuid5 key ds (emitted (.repository dir complaint sha256 uuid5) ds) journal ↔
      Unambiguous ds ∧ Recognised uuid5 guard.admits ds := by
  constructor
  · intro hx
    exact ⟨hx.unambiguous, hx.recognised hb hj⟩
  · rintro ⟨hunamb, hrec⟩
    refine ⟨?_, ?_, ?_⟩
    · intro t w hpair
      obtain ⟨o, ho, ht, hw⟩ := completedPair_iff.mp hpair
      exact hb.one hj htakes hunamb hrec ho ht hw
    · intro k hk
      obtain ⟨e, he⟩ := Option.isSome_iff_exists.mp ((hj.keys k).mp hk)
      obtain ⟨o, ho, -, -, -, hko⟩ := hb.held he
      obtain ⟨t, w, ht, hw⟩ := ho.strings
      refine ⟨t, w, completedPair_iff.mpr ⟨o, ho, ht, hw⟩, ?_⟩
      rw [pairEntryId_eq uuid5 ht hw]
      exact hko
    · intro t w t' w' hp hp' heq
      obtain ⟨o, ho, ht, hw⟩ := completedPair_iff.mp hp
      obtain ⟨o', ho', ht', hw'⟩ := completedPair_iff.mp hp'
      rw [pairEntryId_eq uuid5 ht hw, pairEntryId_eq uuid5 ht' hw'] at heq
      obtain ⟨htt, hww⟩ := hb.same_pair hunamb ho ho' heq
      rw [ht, ht'] at htt
      rw [hw, hw'] at hww
      exact ⟨Json.str.inj htt, Json.str.inj hww⟩

end Booking

theorem exactlyOnce_iff {σ κ : Type} [DecidableEq κ] {store : LedgerStore σ} {s₀ : σ}
    {guard : Guard JournalEntry κ} (b : Books store s₀ guard) {journal : σ → Journal κ}
    {key : String → Option κ} (hshows : ∀ {s h}, b.Keeps s h → (journal s).Shows guard h)
    (hkey : ∀ e k, guard.key e = some k → key e.entryId = some k)
    (htakes : ∀ e, e.isBalanced = true → guard.admits e = true → ∃ k, guard.key e = some k)
    {ds : List Delivery} {ls : List LedgerAgent.Delivery}
    (hls : DeliversEntries (emitted (.repository dir complaint sha256 uuid5) ds) ls)
    (hinj : Set.InjOn (fun name => key (uuid5 name)) (entryNames ds)) :
    ExactlyOnce uuid5 key ds (emitted (.repository dir complaint sha256 uuid5) ds)
        (journal (LedgerAgent.deliver (.repository dir complaint sha256) store ls { self := s₀ }).self) ↔
      Unambiguous ds ∧ Recognised uuid5 guard.admits ds := by
  obtain ⟨hposts, hposted⟩ := posts_iff hls
  obtain ⟨h, hkeeps, hmem⟩ := LedgerAgent.deliver_keeps b _ ls hposts { self := s₀ } b.init
  rw [List.nil_append] at hkeeps
  have hbooking : Booking uuid5 guard key ds h := ⟨fun e => (hmem e).trans (hposted e), hkey, hinj⟩
  exact hbooking.exactlyOnce_iff (hshows hkeeps) htakes

/-- **Revenue is recognised exactly once** for every completed pair, with either store and whatever is
redelivered in whatever order, if and only if no two different pairs are completed whose names
`tenant:work order` are the same, and every completed pair has a delivery whose memo fits the contract
of `ledger.entry` and whose rows, in Postgres, can be inserted. `uuid5` is injective on these names. -/
theorem revenue_exactly_once_iff {κ : Type} [DecidableEq κ] (srv : Postgres.Server κ) (dir : String)
    (complaint : Schema → Json → String) (sha256 uuid5 : String → String) (ds : List Delivery)
    (ls : List LedgerAgent.Delivery)
    (hls : DeliversEntries (emitted (.repository dir complaint sha256 uuid5) ds) ls)
    (hinj : Set.InjOn (fun name => srv.uuid (uuid5 name)) (entryNames ds)) :
    let rt := Runtime.repository dir complaint sha256
    let events := emitted (.repository dir complaint sha256 uuid5) ds
    (ExactlyOnce uuid5 some ds events
        (LedgerAgent.deliver rt InMemoryLedgerStore.store ls
          { self := InMemoryLedgerStore.empty }).self.journal ↔
      Unambiguous ds ∧ Recognised uuid5 (fun _ => true) ds) ∧
    (ExactlyOnce uuid5 srv.uuid ds events
        (Postgres.journal (LedgerAgent.deliver rt (Postgres.store srv) ls { self := {} }).self) ↔
      Unambiguous ds ∧ Recognised uuid5 (Postgres.guard srv).admits ds) := by
  intro rt events
  refine ⟨?_, ?_⟩
  · refine exactlyOnce_iff InMemoryLedgerStore.books InMemoryLedgerStore.journal_shows ?_ ?_ hls ?_
    · intro e k hk
      have hk' : (if e.isBalanced then some e.entryId else none) = some k := hk
      split at hk'
      · exact hk'
      · cases hk'
    · intro e hb _
      exact ⟨e.entryId, by simp [InMemoryLedgerStore.guard, hb]⟩
    · intro n hn m hm heq
      exact hinj hn hm (congrArg srv.uuid (Option.some.inj heq))
  · refine exactlyOnce_iff (Postgres.books srv) Postgres.journal_shows ?_ ?_ hls hinj
    · intro e k hk
      obtain ⟨-, row, hrow, rfl⟩ := Postgres.guard_key_some hk
      exact (Postgres.entryRow_some hrow).1
    · intro e hb hadmits
      obtain ⟨rows, hrows⟩ := Option.isSome_iff_exists.mp hadmits
      obtain ⟨row, hrow, -⟩ := Option.bind_eq_some_iff.mp hrows
      exact ⟨row.entryId, by simp [Postgres.guard, hb, hrow]⟩

/-! ## Two pairs, one name -/

/-- `uuid5` on the name that the orders `c` of the tenant `a:b` and `b:c` of the tenant `a` share. -/
def sharedUuid5 (_ : String) : String := "f64c4dd5-ba01-5272-af69-6a43d2010672"

def sharedNameDeliveries : List Delivery :=
  [(sampleEnv.uuid, orderEvent "a:b" "c" "WIDGET-9"), (sampleEnv.uuid, orderEvent "a" "b:c" "WIDGET-9")]

/-- The delivery of the entry of a sample order to the ledger. -/
def entryDelivery (uuid5 : String → String) (tenantId workOrderId : String) : LedgerAgent.Delivery where
  env := { uuid := "00000000-0000-0000-0000-000000000003" }
  event := entryOf uuid5 sampleEnv (orderEvent tenantId workOrderId "WIDGET-9")
    (sampleOrder tenantId workOrderId "WIDGET-9")
  tenant_typed := .inr ⟨tenantId, rfl⟩

/-- An agent of these orders; which digests it records does not matter. -/
def sharedNameConfig : Config :=
  .repository "schema_registry/schemas" (fun _ _ => "")
    (fun _ => "82d6115053015cdd7b2b1b7d2d557089991523b4107088e21fca064d0aaf2439") sharedUuid5

theorem widget_memo_fits {tenantId workOrderId : String} (h : workOrderId.length ≤ 100) :
    (saleMemo (sampleOrder tenantId workOrderId "WIDGET-9")).length ≤ 280 := by
  have htext : saleMemo (sampleOrder tenantId workOrderId "WIDGET-9") =
      "sale " ++ "WIDGET-9" ++ " x" ++ "3" ++ " (wo " ++ workOrderId ++ ")" := rfl
  have hknown : ("sale " : String).length + ("WIDGET-9" : String).length + (" x" : String).length +
      ("3" : String).length + (" (wo " : String).length + (")" : String).length = 22 := by decide
  rw [htext]
  simp only [String.length_append]
  omega

/-- The entries of widget orders are delivered once they are all delivered. -/
theorem deliversEntries_widgets {uuid5 : String → String} (names : List (String × String))
    (hnames : ∀ n ∈ names, 1 ≤ n.1.length ∧ 1 ≤ n.2.length ∧ n.2.length ≤ 100)
    {ls : List LedgerAgent.Delivery}
    (hls : ∀ l, l ∈ ls → ∃ n ∈ names, l = entryDelivery uuid5 n.1 n.2)
    (hall : ∀ n ∈ names, entryDelivery uuid5 n.1 n.2 ∈ ls) :
    DeliversEntries (emitted (.repository dir complaint sha256 uuid5)
      (names.map fun n => (sampleEnv.uuid, orderEvent n.1 n.2 "WIDGET-9"))) ls := by
  refine ⟨?_, ?_⟩
  · intro l hl
    obtain ⟨n, hn, rfl⟩ := hls l hl
    obtain ⟨ht, hw, hshort⟩ := hnames n hn
    refine ⟨mem_emitted.mpr ⟨_, List.mem_map.mpr ⟨n, hn, rfl⟩, _,
      completes_orderEvent ht hw (by decide), Or.inr ⟨widget_memo_fits hshort, rfl⟩⟩, rfl⟩
  · intro e he hsubject
    obtain ⟨d, hd, o, ho, hcase⟩ := mem_emitted.mp he
    obtain ⟨n, hn, rfl⟩ := List.mem_map.mp hd
    obtain ⟨ht, hw, -⟩ := hnames n hn
    obtain rfl : sampleOrder n.1 n.2 "WIDGET-9" = o :=
      Option.some.inj ((completes_orderEvent ht hw (by decide)).symm.trans ho)
    rcases hcase with rfl | ⟨-, rfl⟩
    · have hname : Json.str "forge.completed" = .str "ledger.entry" := hsubject
      exact absurd hname (by decide)
    · exact ⟨_, hall n hn, rfl⟩

/-- The second pair has no entry. -/
theorem shared_name_loses_entry :
    ¬ ExactlyOnce sharedUuid5 some sharedNameDeliveries (emitted sharedNameConfig sharedNameDeliveries)
      (LedgerAgent.deliver sharedNameConfig.rt InMemoryLedgerStore.store
        [entryDelivery sharedUuid5 "a:b" "c", entryDelivery sharedUuid5 "a" "b:c"]
        { self := InMemoryLedgerStore.empty }).self.journal := by
  intro h
  have hfact : ∀ t w, (t, w) ∈ [("a:b", "c"), ("a", "b:c")] →
      CompletedPair (emitted sharedNameConfig sharedNameDeliveries) t w := by
    intro t w htw
    simp only [List.mem_cons, Prod.mk.injEq, List.not_mem_nil, or_false] at htw
    rcases htw with ⟨rfl, rfl⟩ | ⟨rfl, rfl⟩
    · exact completedPair_iff.mpr ⟨sampleOrder "a:b" "c" "WIDGET-9", ⟨_, List.mem_cons_self,
        completes_orderEvent (by decide) (by decide) (by decide)⟩, rfl, rfl⟩
    · exact completedPair_iff.mpr ⟨sampleOrder "a" "b:c" "WIDGET-9", ⟨_,
        List.mem_cons_of_mem _ List.mem_cons_self,
        completes_orderEvent (by decide) (by decide) (by decide)⟩, rfl, rfl⟩
  have hshared := h.unshared "a:b" "c" "a" "b:c" (hfact _ _ (by simp)) (hfact _ _ (by simp)) rfl
  exact absurd hshared.1 (by decide)

/-- SHA-256 on the strings that the two agents hash for the order of a widget. -/
def revenueDigest (m : String) : String :=
  if m = genesisHash ++ "\n" ++ canonicalEvent (chainEnvelope
      (factOf sampleEnv (orderEvent "acme" "wo-1" "WIDGET-9") (sampleOrder "acme" "wo-1" "WIDGET-9"))) then
    "82d6115053015cdd7b2b1b7d2d557089991523b4107088e21fca064d0aaf2439"
  else if m = "sha256:82d6115053015cdd7b2b1b7d2d557089991523b4107088e21fca064d0aaf2439" ++ "\n" ++
      canonicalEvent (chainEnvelope (entryDelivery sampleUuid5 "acme" "wo-1").event) then
    "92e7afab881d55816dd6522d205e8b34208a9ec2ce11292a699e63cee705b75c"
  else "4437c9c1d6c70273126522e0cd3fa519b0cf4b56c3df8bbc1aa5b649a79d4537"

def widgetDeliveries : List Delivery := [(sampleEnv.uuid, orderEvent "acme" "wo-1" "WIDGET-9")]

/-- The hypotheses of `revenue_exactly_once_iff` hold for the order of a widget whose entry is delivered
twice, and it is recognised once. -/
theorem widget_exactly_once :
    let rt := Runtime.repository "schema_registry/schemas" (fun _ _ => "") revenueDigest
    let events := emitted (.repository "schema_registry/schemas" (fun _ _ => "") revenueDigest sampleUuid5)
      widgetDeliveries
    let ls := [entryDelivery sampleUuid5 "acme" "wo-1", entryDelivery sampleUuid5 "acme" "wo-1"]
    ExactlyOnce sampleUuid5 some widgetDeliveries events
        (LedgerAgent.deliver rt InMemoryLedgerStore.store ls
          { self := InMemoryLedgerStore.empty }).self.journal ∧
      ExactlyOnce sampleUuid5 saleServer.uuid widgetDeliveries events
        (Postgres.journal (LedgerAgent.deliver rt (Postgres.store saleServer) ls { self := {} }).self) := by
  intro rt events ls
  have honly : ∀ o, Completes widgetDeliveries o → o = sampleOrder "acme" "wo-1" "WIDGET-9" := by
    rintro o ⟨d, hd, ho⟩
    rw [List.mem_singleton.mp hd, completes_orderEvent (by decide) (by decide) (by decide)] at ho
    exact (Option.some.inj ho).symm
  have hls : DeliversEntries events ls := by
    refine deliversEntries_widgets [("acme", "wo-1")] (by decide) ?_ (by simp [ls])
    intro l hl
    refine ⟨("acme", "wo-1"), by simp, ?_⟩
    simpa [ls] using hl
  have hinj : Set.InjOn (fun name => saleServer.uuid (sampleUuid5 name))
      (entryNames widgetDeliveries) := by
    rintro n ⟨o, ho, rfl⟩ m ⟨o', ho', rfl⟩ -
    rw [honly o ho, honly o' ho']
  have hunamb : Unambiguous widgetDeliveries := by
    intro o o' ho ho' _
    rw [honly o ho, honly o' ho']
    exact ⟨rfl, rfl⟩
  have hrec : ∀ takes : JournalEntry → Bool,
      takes (bookEntry sampleUuid5 (sampleOrder "acme" "wo-1" "WIDGET-9")) = true →
      Recognised sampleUuid5 takes widgetDeliveries := by
    intro takes htakes o ho
    refine ⟨o, ho, rfl, rfl, ?_, ?_⟩
    · rw [honly o ho]
      exact widget_memo_fits (by decide)
    · rw [honly o ho]
      exact htakes
  obtain ⟨hmemory, hpostgres⟩ := revenue_exactly_once_iff saleServer _ _ revenueDigest sampleUuid5
    widgetDeliveries ls hls hinj
  exact ⟨hmemory.mpr ⟨hunamb, hrec _ rfl⟩, hpostgres.mpr ⟨hunamb, hrec _ (by decide +kernel)⟩⟩

end ForgeAgent

end CaviErp
