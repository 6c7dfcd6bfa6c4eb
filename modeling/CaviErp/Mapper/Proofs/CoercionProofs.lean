import CaviErp.Ledger.Proofs.AgentProofs
import CaviErp.Mapper.Coercion
import CaviErp.Mapper.Proofs.MapperProofs

/-!
# What the ledger makes of a coerced entry

The mapper agent re-emits an entry without its tenant, and the ledger agent drops an entry without a
tenant. So the coerced entry is only as good as the original where the original changes nothing either.
-/

namespace CaviErp

open Py Schema

variable {dir : String} {complaint : Schema → Json → String} {sha256 : String → String}

/-! ## The coerced entry -/

/-- The event the mapper re-emits for a valid entry: of the envelope only the correlation id is left. -/
theorem reemitted_of_valid {request event : Event} (hr : AsksForV2 request event) {o : Obj}
    (hpayload : event.payload = .obj o) (hvalid : ledgerEntryV1.valid (.obj o) = true)
    (uuid : String) :
    reemitted (.repository dir complaint sha256) uuid request =
      [MapperAgent.coerced { uuid } request "ledger.entry" 2 (ledgerEntryV1ToV2 o)] := by
  have htransform : (MapperAgent.mapper (.repository dir complaint sha256)).transform "ledger.entry" 1 2
      (.obj o) = .ok (ledgerEntryV1ToV2 o) := MapperAgent.transform_entry hvalid
  set rt : Runtime := .repository dir complaint sha256 with hrt
  set coerced := MapperAgent.coerced { uuid } request "ledger.entry" 2 (ledgerEntryV1ToV2 o)
    with hcoerced
  have hfrom : (item request.payload "from_version" >>= asInt) = .ok 1 := by
    rw [hr.from_version]
    rfl
  have hto : (item request.payload "to_version" >>= asInt) = .ok 2 := by
    rw [hr.to_version]
    rfl
  have hhandle : MapperAgent.handle rt { uuid } (MapperAgent.mapper rt) request { self := () } =
      BaseAgent.emit rt .healthy coerced coerced { self := () } := by
    unfold MapperAgent.handle
    simp only [hr.subject, hfrom, hto, hr.payload, Action.bind_apply, Action.ofExcept_apply, hpayload,
      htransform]
    rfl
  have hfile : schemaFiles.lookup (SchemaRegistry.key "ledger.entry" (.int 2)) =
      some ledgerEntryV2 := rfl
  have hok : rt.registry.validate coerced.subject coerced.schemaVersion coerced.payload = .ok () :=
    (validate_repository_iff hfile).mpr (valid_ledgerEntryV1ToV2 hvalid)
  rw [reemitted, hhandle, BaseAgent.emit_healthy _ _ _ _ hok]
  rfl

/-- Even under a tenant of its own the coerced entry is not the original: what the ledger reads as the
memo of an entry is not there any more. -/
theorem fromPayload_ledgerEntryV1ToV2 {o : Obj} (hvalid : ledgerEntryV1.valid (.obj o) = true)
    {tenantId : String} (ht : tenantId ≠ "") :
    ∃ entry, JournalEntry.fromPayload (.obj o) tenantId = .ok entry ∧
      JournalEntry.fromPayload (.obj (ledgerEntryV1ToV2 o)) tenantId =
        .ok { entry with memo := none } := by
  obtain ⟨entryId, currency, lines, memo, hp⟩ := entryPayload_of_valid (.inl hvalid)
  have hsame : ∀ k ∈ ["entry_id", "currency", "lines"],
      item (.obj (ledgerEntryV1ToV2 o)) k = item (.obj o) k := by
    intro k hk
    have hne : k ≠ "description" ∧ k ≠ "entry_type" ∧ k ≠ "memo" := by
      revert k
      decide
    simp [item, get?_ledgerEntryV1ToV2, hne]
  have hp₂ : EntryPayload (.obj (ledgerEntryV1ToV2 o)) entryId currency lines none := by
    refine ⟨?_, ?_, hp.currency_ok, ?_, hp.two_lines, hp.positive, ?_⟩
    · rw [hsame "entry_id" (by simp)]
      exact hp.entryId_eq
    · rw [hsame "currency" (by simp)]
      exact hp.currency_eq
    · rw [payloadLines, hsame "lines" (by simp)]
      exact hp.lines_eq
    · simp [getItem?, get?_ledgerEntryV1ToV2]
  exact ⟨_, hp.fromPayload_eq ht, hp₂.fromPayload_eq ht⟩

/-- There is no contract for requests to the mapper: one that arrives over the bus is a dead letter. -/
theorem request_quarantined (env : MapperAgent.Env) (m : Mapper) {request : Event}
    (hsubject : request.subject = "mapper.transform") (w : MapperAgent.World) :
    ∃ e : PyError, MapperAgent.dispatch (.repository dir complaint sha256) env m request w =
      BaseAgent.deadLetter (.repository dir complaint sha256) env.infra request e.text w := by
  cases hv : (SchemaRegistry.repository dir complaint).validate request.subject request.schemaVersion
      request.payload with
  | error e => exact ⟨e, BaseAgent.dispatch_of_invalid _ _ hv w⟩
  | ok u =>
    obtain ⟨schema, hfile, -⟩ := (SchemaRegistry.validate_ok_iff _).mp hv
    replace hfile : schemaFiles.lookup
      (SchemaRegistry.key request.subject request.schemaVersion) = some schema := hfile
    have hkey : SchemaRegistry.key request.subject request.schemaVersion =
        "mapper.transform.v" ++ request.schemaVersion.pyStr := by
      have happ : ("mapper.transform" ++ ".v" : String) = "mapper.transform.v" := rfl
      rw [hsubject, ← happ]
      rfl
    rw [hkey] at hfile
    have hnone : contractsNamed "mapper.transform.v" = [] := rfl
    have hmem := mem_contractsNamed hfile
    rw [hnone] at hmem
    exact absurd hmem List.not_mem_nil

/-! ## The two deliveries -/

namespace LedgerAgent

variable {σ : Type} (store : LedgerStore σ)

theorem after_singleton (rt : Runtime) (uuid : String) (event : Event) (w : World σ) :
    after rt store uuid [event] w = (dispatch rt store { uuid } event w).2 := by
  rw [after, Action.serve_cons, Action.serve_nil]

/-- The coerced entry has no tenant, and is dropped. -/
theorem after_coerced {request : Event} {o : Obj} (hvalid : ledgerEntryV1.valid (.obj o) = true)
    (uuid mapperUuid : String) (w : World σ) :
    after (.repository dir complaint sha256) store uuid
      [MapperAgent.coerced { uuid := mapperUuid } request "ledger.entry" 2 (ledgerEntryV1ToV2 o)] w =
      w := by
  set coerced := MapperAgent.coerced { uuid := mapperUuid } request "ledger.entry" 2
    (ledgerEntryV1ToV2 o) with hcoerced
  have hfile : schemaFiles.lookup (SchemaRegistry.key "ledger.entry" (.int 2)) =
      some ledgerEntryV2 := rfl
  have hok : (SchemaRegistry.repository dir complaint).validate coerced.subject coerced.schemaVersion
      coerced.payload = .ok () :=
    (validate_repository_iff hfile).mpr (valid_ledgerEntryV1ToV2 hvalid)
  rw [after_singleton, dispatch, BaseAgent.dispatch_of_valid _ _ hok]
  exact handle_of_no_tenant _ store _ rfl w

section Entry

variable {event : Event} {tenantId entryId currency : String} {lines : List JournalLine}
  {memo : Option String} {entry : JournalEntry}
  (hvalid : (SchemaRegistry.repository dir complaint).validate event.subject event.schemaVersion
    event.payload = .ok ())
  (ht : event.tenantId = .str tenantId)
  (hp : EntryPayload event.payload entryId currency lines memo)
  (hentry : entry = { entryId, tenantId, currency, lines, memo })
  (he : JournalEntry.fromPayload event.payload tenantId = .ok entry) (uuid : String) (w : World σ)

include hvalid in
/-- An event that meets its contract is handled. -/
theorem after_valid :
    after (.repository dir complaint sha256) store uuid [event] w =
      (handle (.repository dir complaint sha256) store { uuid } event w).2 := by
  rw [after_singleton, dispatch, BaseAgent.dispatch_of_valid _ _ hvalid]

include hvalid ht he

/-- A balanced entry the store does not insert leaves everything but the ledger store as it was. -/
theorem after_refused (hb : entry.isBalanced = true)
    (hins : (store.insertIfAbsent entry w.self).1 = .ok false ∨
      ∃ text, (store.insertIfAbsent entry w.self).1 = .error (.storeError text)) :
    after (.repository dir complaint sha256) store uuid [event] w =
      { w with self := (store.insertIfAbsent entry w.self).2 } := by
  rw [after_valid store hvalid, handle_of_entry _ store _ ht he, post_of_balanced store hb]
  rcases hins with hins | ⟨text, hins⟩
  · rw [hins]
    rfl
  · rw [hins]
    rfl

include hp hentry

/-- An unbalanced entry is rejected. -/
theorem after_unbalanced (hb : entry.isBalanced = false) :
    ∃ ev, (after (.repository dir complaint sha256) store uuid [event] w).trace = w.trace ++ [ev] := by
  have hcur : currencyPattern entry.currency = true := by
    rw [hentry]
    exact hp.currency_ok
  have hpos : ∀ ln ∈ entry.lines, 1 ≤ ln.amountMinor := by
    rw [hentry]
    exact hp.positive
  rw [after_valid store hvalid, handle_of_entry _ store _ ht he, post_of_unbalanced store hb]
  set reason : String := "entry " ++ entry.entryId ++ ": debits " ++ toString entry.totalDebits ++
    " != credits " ++ toString entry.totalCredits with hreason
  have hlong : 1 ≤ reason.length := by
    have hstart : "entry ".length = 6 := rfl
    simp only [hreason, String.length_append]
    omega
  have hok : (SchemaRegistry.repository dir complaint).validate
      (rejected { uuid } event entry reason).subject (rejected { uuid } event entry reason).schemaVersion
      (rejected { uuid } event entry reason).payload = .ok () := validate_rejected hcur hpos hlong
  refine ⟨rejected { uuid } event entry reason, ?_⟩
  show (emit _ _ (rejected { uuid } event entry reason) _).2.trace = _
  rw [emit, BaseAgent.emit_healthy _ _ _ _ hok]
  rfl

/-- A balanced entry the store inserts is in the ledger store. -/
theorem after_inserted (hb : entry.isBalanced = true)
    (hins : (store.insertIfAbsent entry w.self).1 = .ok true) :
    (after (.repository dir complaint sha256) store uuid [event] w).self =
      (store.insertIfAbsent entry w.self).2 := by
  have hcur : currencyPattern entry.currency = true := by
    rw [hentry]
    exact hp.currency_ok
  have hlen : 2 ≤ entry.lines.length := by
    rw [hentry]
    exact hp.two_lines
  rw [after_valid store hvalid, handle_of_entry _ store _ ht he, post_of_balanced store hb, hins]
  have hok : (SchemaRegistry.repository dir complaint).validate
      (posted { uuid } event (postResult entry .posted)).subject
      (posted { uuid } event (postResult entry .posted)).schemaVersion
      (posted { uuid } event (postResult entry .posted)).payload = .ok () :=
    validate_posted hcur hb hlen
  show (emit _ _ (posted { uuid } event (postResult entry .posted)) _).2.self = _
  rw [emit, BaseAgent.emit_healthy _ _ _ _ hok]
  rfl

/-- Next to a delivery that changes nothing: the entry is as good as dropped if and only if it is
balanced and the store has no room for it. -/
theorem postAlike_nothing_iff {Room : Prop}
    (hroom : Room → (store.insertIfAbsent entry w.self).1 = .ok true ∧
      store.get entry.tenantId entry.entryId (store.insertIfAbsent entry w.self).2 ≠
        store.get entry.tenantId entry.entryId w.self)
    (hfull : ¬ Room → (store.insertIfAbsent entry w.self).2 = w.self ∧
      ((store.insertIfAbsent entry w.self).1 = .ok false ∨
        ∃ text, (store.insertIfAbsent entry w.self).1 = .error (.storeError text)))
    {others : List Event} (hothers : after (.repository dir complaint sha256) store uuid others w = w) :
    PostAlike (.repository dir complaint sha256) store uuid w [event] others ↔
      entry.isBalanced = true ∧ ¬ Room := by
  rw [PostAlike, hothers]
  by_cases hb : entry.isBalanced = true
  · by_cases hr : Room
    · obtain ⟨hins, hget⟩ := hroom hr
      rw [after_inserted store hvalid ht hp hentry he uuid w hb hins]
      refine iff_of_false ?_ (fun h => h.2 hr)
      rintro ⟨hsame, -⟩
      exact hget (hsame entry.tenantId entry.entryId)
    · obtain ⟨hself, hins⟩ := hfull hr
      rw [after_refused store hvalid ht he uuid w hb hins, hself]
      exact iff_of_true ⟨fun _ _ => rfl, rfl⟩ ⟨hb, hr⟩
  · have hb' : entry.isBalanced = false := by simpa using hb
    obtain ⟨ev, hev⟩ : ∃ ev, (after (.repository dir complaint sha256) store uuid [event] w).trace =
        w.trace ++ [ev] := after_unbalanced store hvalid ht hp hentry he uuid w hb'
    refine iff_of_false ?_ (fun h => hb h.1)
    rintro ⟨-, htrace⟩
    rw [hev] at htrace
    simp at htrace

end Entry

end LedgerAgent

/-! ## The two stores -/

theorem InMemoryLedgerStore.insertIfAbsent_of_room {s : InMemoryLedgerStore} {entry : JournalEntry}
    (h : s.HasRoom entry) : (store.insertIfAbsent entry s).1 = .ok true ∧
      store.get entry.tenantId entry.entryId (store.insertIfAbsent entry s).2 ≠
        store.get entry.tenantId entry.entryId s := by
  have hfree : s.find? entry.entryId = none := h
  have hins : store.insertIfAbsent entry s = (.ok true, s.add entry hfree) := by
    simp [store, insertIfAbsent, hfree]
  have hfind : (s.add entry hfree).find? entry.entryId = some entry := by simp [find?_add]
  rw [hins]
  refine ⟨rfl, ?_⟩
  show Except.ok (get entry.tenantId entry.entryId (s.add entry hfree)) ≠
    Except.ok (get entry.tenantId entry.entryId s)
  simp [get, hfind, hfree]

theorem InMemoryLedgerStore.insertIfAbsent_of_full {s : InMemoryLedgerStore} {entry : JournalEntry}
    (h : ¬ s.HasRoom entry) : store.insertIfAbsent entry s = (.ok false, s) := by
  have htaken : ¬ s.find? entry.entryId = none := h
  simp [store, insertIfAbsent, htaken]

section Postgres

variable {κ : Type} [DecidableEq κ] {srv : Postgres.Server κ} {t : Postgres.Tables κ}
  {entry : JournalEntry}

theorem Postgres.insertIfAbsent_of_room (h : HasRoom srv t entry) :
    ((store srv).insertIfAbsent entry t).1 = .ok true ∧
      (store srv).get entry.tenantId entry.entryId ((store srv).insertIfAbsent entry t).2 ≠
        (store srv).get entry.tenantId entry.entryId t := by
  obtain ⟨row, rows, hrow, hfree, hrows⟩ := h
  obtain ⟨huuid, -, hten, -, -⟩ := entryRow_some hrow
  have hstorable := entryRow_storable hrow
  have hany : (t.entries.any fun r => decide (r.entryId = row.entryId)) = false := by
    simpa using hfree
  have hins : (store srv).insertIfAbsent entry t =
      (.ok true, { entries := t.entries ++ [row], lines := t.lines ++ rows }) := by
    simp only [store, insertIfAbsent, hrow, hany, hrows, Bool.false_eq_true, if_false]
  have hnone : (t.entries.find? fun r => r.tenantId = entry.tenantId ∧ r.entryId = row.entryId) =
      none := by
    rw [List.find?_eq_none]
    intro r hr
    simp [hfree r hr]
  have hbefore : (store srv).get entry.tenantId entry.entryId t = .ok none := by
    simp only [store, get, huuid, hstorable, hnone]
  have hafter : ((t.entries ++ [row]).find? fun r =>
      r.tenantId = entry.tenantId ∧ r.entryId = row.entryId) = some row := by
    rw [List.find?_append, hnone]
    simp [hten]
  rw [hins, hbefore]
  refine ⟨rfl, ?_⟩
  simp only [store, get, huuid, hstorable, hafter]
  simp

theorem Postgres.insertIfAbsent_of_full (h : ¬ HasRoom srv t entry) :
    ((store srv).insertIfAbsent entry t).2 = t ∧
      (((store srv).insertIfAbsent entry t).1 = .ok false ∨
        ∃ text, ((store srv).insertIfAbsent entry t).1 = .error (.storeError text)) := by
  cases hrow : entryRow srv entry with
  | none =>
    have hins : (store srv).insertIfAbsent entry t =
        (.error (.storeError "invalid journal_entry"), t) := by
      simp only [store, insertIfAbsent, hrow]
    rw [hins]
    exact ⟨rfl, .inr ⟨_, rfl⟩⟩
  | some row =>
    by_cases hany : (t.entries.any fun r => decide (r.entryId = row.entryId)) = true
    · have hins : (store srv).insertIfAbsent entry t = (.ok false, t) := by
        simp only [store, insertIfAbsent, hrow, hany, if_true]
      rw [hins]
      exact ⟨rfl, .inl rfl⟩
    · cases hrows : entry.lines.mapM (lineRow srv row) with
      | none =>
        have hins : (store srv).insertIfAbsent entry t =
            (.error (.storeError "invalid journal_line"), t) := by
          simp only [store, insertIfAbsent, hrow, hany, hrows, Bool.false_eq_true, if_false]
        rw [hins]
        exact ⟨rfl, .inr ⟨_, rfl⟩⟩
      | some rows =>
        refine absurd ⟨row, rows, hrow, ?_, hrows⟩ h
        simpa using hany

end Postgres

/-! ## The coercion -/

namespace LedgerAgent

section

variable {event request : Event} {tenantId : String} {entry : JournalEntry}
  (hsubject : event.subject = "ledger.entry") (hversion : event.schemaVersion = .int 1)
  (hvalid : ledgerEntryV1.valid event.payload = true) (ht : event.tenantId = .str tenantId)
  (hne : tenantId ≠ "") (hrequest : AsksForV2 request event)

include hsubject hversion hvalid ht hne hrequest

/-- Delivering an entry by way of the mapper comes to the same as delivering it directly if and only if
the entry is balanced and the store has no room for it. -/
theorem postAlike_coerced_iff {σ : Type} {store : LedgerStore σ} {Room : σ → JournalEntry → Prop}
    (hroom : ∀ s entry, Room s entry → (store.insertIfAbsent entry s).1 = .ok true ∧
      store.get entry.tenantId entry.entryId (store.insertIfAbsent entry s).2 ≠
        store.get entry.tenantId entry.entryId s)
    (hfull : ∀ s entry, ¬ Room s entry → (store.insertIfAbsent entry s).2 = s ∧
      ((store.insertIfAbsent entry s).1 = .ok false ∨
        ∃ text, (store.insertIfAbsent entry s).1 = .error (.storeError text)))
    (he : JournalEntry.fromPayload event.payload tenantId = .ok entry) (uuid mapperUuid : String)
    (w : World σ) :
    PostAlike (.repository dir complaint sha256) store uuid w [event]
        (reemitted (.repository dir complaint sha256) mapperUuid request) ↔
      entry.isBalanced = true ∧ ¬ Room w.self entry := by
  obtain ⟨o, hpayload, -⟩ := (valid_record_iff ..).mp hvalid
  obtain ⟨entryId, currency, lines, memo, hp⟩ := entryPayload_of_valid (.inl hvalid)
  have hentry := Except.ok.inj (he.symm.trans (hp.fromPayload_eq hne))
  have hfile : schemaFiles.lookup (SchemaRegistry.key "ledger.entry" (.int 1)) =
      some ledgerEntryV1 := rfl
  have hok : (SchemaRegistry.repository dir complaint).validate event.subject event.schemaVersion
      event.payload = .ok () := by
    rw [hsubject, hversion]
    exact (validate_repository_iff hfile).mpr hvalid
  rw [hpayload] at hvalid
  rw [reemitted_of_valid hrequest hpayload hvalid mapperUuid]
  exact postAlike_nothing_iff store hok ht hp hentry he uuid w (hroom w.self entry)
    (hfull w.self entry) (after_coerced store hvalid uuid mapperUuid w)

end

theorem inMemory_full {s : InMemoryLedgerStore} {entry : JournalEntry} (h : ¬ s.HasRoom entry) :
    (InMemoryLedgerStore.store.insertIfAbsent entry s).2 = s ∧
      ((InMemoryLedgerStore.store.insertIfAbsent entry s).1 = .ok false ∨
        ∃ text, (InMemoryLedgerStore.store.insertIfAbsent entry s).1 = .error (.storeError text)) := by
  rw [InMemoryLedgerStore.insertIfAbsent_of_full h]
  exact ⟨rfl, .inl rfl⟩

/-- For either store. -/
theorem coerced_posts_alike_iff (dir : String) (complaint : Schema → Json → String)
    (sha256 : String → String) {event request : Event} {tenantId : String}
    (hsubject : event.subject = "ledger.entry") (hversion : event.schemaVersion = .int 1)
    (hvalid : ledgerEntryV1.valid event.payload = true) (ht : event.tenantId = .str tenantId)
    (hne : tenantId ≠ "") (hrequest : AsksForV2 request event) (uuid mapperUuid : String) :
    let rt : Runtime := .repository dir complaint sha256
    ∃ entry, JournalEntry.fromPayload event.payload tenantId = .ok entry ∧
      (∀ w : World InMemoryLedgerStore,
        PostAlike rt InMemoryLedgerStore.store uuid w [event] (reemitted rt mapperUuid request) ↔
          entry.isBalanced = true ∧ ¬ w.self.HasRoom entry) ∧
      ∀ (κ : Type) [DecidableEq κ] (srv : Postgres.Server κ) (w : World (Postgres.Tables κ)),
        PostAlike rt (Postgres.store srv) uuid w [event] (reemitted rt mapperUuid request) ↔
          entry.isBalanced = true ∧ ¬ Postgres.HasRoom srv w.self entry := by
  intro rt
  obtain ⟨entryId, currency, lines, memo, hp⟩ := entryPayload_of_valid (.inl hvalid)
  have he := hp.fromPayload_eq hne
  refine ⟨_, he, ?_, ?_⟩
  · intro w
    exact postAlike_coerced_iff hsubject hversion hvalid ht hne hrequest
      (fun _ _ => InMemoryLedgerStore.insertIfAbsent_of_room) (fun _ _ => inMemory_full) he uuid
      mapperUuid w
  · intro κ _ srv w
    exact postAlike_coerced_iff hsubject hversion hvalid ht hne hrequest
      (fun _ _ => Postgres.insertIfAbsent_of_room) (fun _ _ => Postgres.insertIfAbsent_of_full) he
      uuid mapperUuid w

/-- The sale of `test_mapper.py`, for a tenant. -/
def initialSale : Event where
  subject := "ledger.entry"
  schemaVersion := .int 1
  source := "forge"
  id := "0b0f3a9e-51a2-4c39-9f5e-0d6a3a3c1d10"
  tenantId := "acme"
  payload := .obj
    [("entry_id", "00000000-0000-0000-0000-000000000001"), ("currency", "USD"),
      ("memo", "initial sale"),
      ("lines", .arr
        [.obj [("account", "1100-ar"), ("direction", "debit"), ("amount_minor", .int 2500)],
          .obj [("account", "4000-rev"), ("direction", "credit"), ("amount_minor", .int 2500)]])]

def initialSaleRequest : Event where
  subject := "mapper.transform"
  schemaVersion := .int 1
  source := "forge"
  id := "5a7bb8f4-0a4c-4b55-8f2e-5f3a6c1f7e21"
  tenantId := "acme"
  payload := .obj [("subject", "ledger.entry"), ("from_version", .int 1), ("to_version", .int 2),
    ("payload", initialSale.payload)]

theorem initialSale_valid : ledgerEntryV1.valid initialSale.payload = true := rfl

theorem initialSaleRequest_asks : AsksForV2 initialSaleRequest initialSale :=
  ⟨rfl, rfl, rfl, rfl, rfl, rfl⟩

/-- Delivered directly to an empty ledger the sale is posted; by way of the mapper it is lost. -/
theorem initialSale_lost :
    ¬ PostAlike (.repository "schemas" (fun _ _ => "invalid") id) InMemoryLedgerStore.store "out-1"
      { self := InMemoryLedgerStore.empty } [initialSale]
      (reemitted (.repository "schemas" (fun _ _ => "invalid") id) "out-2" initialSaleRequest) := by
  obtain ⟨entryId, currency, lines, memo, hp⟩ := entryPayload_of_valid (.inl initialSale_valid)
  rw [postAlike_coerced_iff rfl rfl initialSale_valid rfl (by decide)
    initialSaleRequest_asks (fun _ _ => InMemoryLedgerStore.insertIfAbsent_of_room)
    (fun _ _ => inMemory_full) (hp.fromPayload_eq (by decide))]
  rintro ⟨-, hfull⟩
  exact hfull rfl

theorem initialSale_posts_alike_iff :
    ∃ entry, JournalEntry.fromPayload initialSale.payload "acme" = .ok entry ∧
      (∀ w : World InMemoryLedgerStore,
        PostAlike (.repository "schemas" (fun _ _ => "invalid") id) InMemoryLedgerStore.store "out-1" w
            [initialSale]
            (reemitted (.repository "schemas" (fun _ _ => "invalid") id) "out-2" initialSaleRequest) ↔
          entry.isBalanced = true ∧ ¬ w.self.HasRoom entry) := by
  obtain ⟨entry, he, h, -⟩ := coerced_posts_alike_iff "schemas" (fun _ _ => "invalid") id rfl rfl
    initialSale_valid rfl (by decide) initialSaleRequest_asks "out-1" "out-2"
  exact ⟨entry, he, h⟩

end LedgerAgent

end CaviErp
