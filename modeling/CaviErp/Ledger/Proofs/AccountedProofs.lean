import CaviErp.Ledger.Proofs.DeliveryProofs
import CaviErp.Ledger.Proofs.TenantProofs

/-!
# What becomes of an entry

An entry handed to the agent should end up in quarantine, in a rejection or in the books. The agent
drops it in two more ways: an event without a tenant is only logged, and an entry whose id is taken
counts as a duplicate even when the entry stored under that id is a different one.
-/

namespace CaviErp

open Py FirstWriter

namespace LedgerAgent

variable {σ : Type}

/-- A dead letter for the event is recorded. -/
def Quarantined (event : Event) (w : World σ) : Prop :=
  ∃ error, BaseAgent.envelope event error ∈ w.store.deadletters

/-- Between two worlds a rejection of the event's entry, for its tenant, was emitted. -/
def Rejected (event : Event) (w w' : World σ) : Prop :=
  ∃ ev ∈ w'.trace.drop w.trace.length, ev.subject = "ledger.rejected" ∧
    ev.tenantId = event.tenantId ∧ item ev.payload "entry_id" = item event.payload "entry_id"

/-- The store gives the event's tenant an entry with the currency and the lines of the payload. -/
def InBooks (store : LedgerStore σ) (event : Event) (w : World σ) : Prop :=
  ∃ tenantId entryId e, event.tenantId = .str tenantId ∧
    item event.payload "entry_id" = .ok (.str entryId) ∧
    store.get tenantId entryId w.self = .ok (some e) ∧
    item event.payload "currency" = .ok (.str e.currency) ∧ payloadLines event.payload = .ok e.lines

/-- The entry of the event is not lost between the two worlds. -/
def Accounted (store : LedgerStore σ) (event : Event) (w w' : World σ) : Prop :=
  Quarantined event w' ∨ Rejected event w w' ∨ InBooks store event w'

/-- The store shows, to the tenant of an entry and under its id, an entry with the same currency and
lines. -/
def Shows (store : LedgerStore σ) (entry : JournalEntry) (s : σ) : Prop :=
  ∃ q, store.get entry.tenantId entry.entryId s = .ok (some q) ∧ q.currency = entry.currency ∧
    q.lines = entry.lines

/-- When the entry of an event is kept, by the state `w` it arrives in. `Takes` says which entries the
store has room for as they are. -/
def Kept (rt : Runtime) (store : LedgerStore σ) (Takes : JournalEntry → σ → Prop) (event : Event)
    (w : World σ) : Prop :=
  InBooks store event w ∨
    if rt.registry.validate event.subject event.schemaVersion event.payload = .ok () then
      ∃ tenantId entry, event.tenantId = .str tenantId ∧
        JournalEntry.fromPayload event.payload tenantId = .ok entry ∧
        (entry.isBalanced = false ∨ Takes entry w.self)
    else
      Quarantined event w ∨
        ∀ d ∈ w.store.deadletters, EventStore.deadletterKey d ≠ event.id.pyStr

/-! ## Quarantine -/

theorem quarantined_iff_of_recordDeadletter {event : Event} {error : String} {w w' : World σ}
    (h : w'.store = w.store.recordDeadletter (BaseAgent.envelope event error)) :
    Quarantined event w' ↔
      Quarantined event w ∨
        ∀ d ∈ w.store.deadletters, EventStore.deadletterKey d ≠ event.id.pyStr := by
  have hkey : EventStore.deadletterKey (BaseAgent.envelope event error) = event.id.pyStr := rfl
  unfold Quarantined
  rw [h, EventStore.recordDeadletter, hkey]
  by_cases hseen : (w.store.deadletters.any fun d =>
      EventStore.deadletterKey d == event.id.pyStr) = true
  · rw [if_pos hseen]
    obtain ⟨d, hd, hdk⟩ := List.any_eq_true.mp hseen
    constructor
    · exact .inl
    · rintro (hq | hnone)
      · exact hq
      · exact absurd (by simpa using hdk) (hnone d hd)
  · rw [if_neg hseen]
    have hfree : ∀ d ∈ w.store.deadletters, EventStore.deadletterKey d ≠ event.id.pyStr := by
      intro d hd hdk
      exact hseen (List.any_eq_true.mpr ⟨d, hd, by simpa using hdk⟩)
    exact ⟨fun _ => .inr hfree, fun _ => ⟨error, by simp⟩⟩

theorem envelope_injective {event event' : Event} {error error' : String}
    (h : BaseAgent.envelope event error = BaseAgent.envelope event' error') : event = event' := by
  cases event
  cases event'
  simp [BaseAgent.envelope, Event.toDict] at h
  simp [h]

section

variable {dir : String} {complaint : Schema → Json → String} {sha256 : String → String}
  {store : LedgerStore σ} {κ : Type} [DecidableEq κ] {s₀ : σ} {guard : Guard JournalEntry κ}
  {b : Books store s₀ guard}

theorem not_quarantined {rt : Runtime} {w : World σ} {h : List JournalEntry}
    (hw : Reached rt b w h) {event : Event}
    (hv : rt.registry.validate event.subject event.schemaVersion event.payload = .ok ()) :
    ¬ Quarantined event w := by
  rintro ⟨error, hd⟩
  obtain ⟨event', error', heq, hbad⟩ := hw.deadletters _ hd
  obtain rfl := envelope_injective heq
  exact hbad hv

/-- For an entry with the payload's fields, being in the books is being shown. -/
theorem inBooks_iff_shows {event : Event} {tenantId entryId currency : String}
    {lines : List JournalLine} {memo : Option String} (ht : event.tenantId = .str tenantId)
    (hp : EntryPayload event.payload entryId currency lines memo) (w : World σ) :
    InBooks store event w ↔ Shows store { entryId, tenantId, currency, lines, memo } w.self := by
  constructor
  · rintro ⟨t, i, e, ht', hi, hget, hc, hl⟩
    obtain rfl : tenantId = t := by simpa [ht] using ht'
    obtain rfl : entryId = i := by simpa [hp.entryId_eq] using hi
    refine ⟨e, hget, ?_, ?_⟩
    · simpa [hp.currency_eq] using hc.symm
    · simpa [hp.lines_eq] using hl.symm
  · rintro ⟨e, hget, hc, hl⟩
    refine ⟨tenantId, entryId, e, ht, hp.entryId_eq, hget, ?_, ?_⟩
    · rw [hc]
      exact hp.currency_eq
    · rw [hl]
      exact hp.lines_eq

theorem rejected_of_emitted {event : Event} {tenantId entryId currency reason : String}
    {lines : List JournalLine} {memo : Option String} {env : Env}
    (hp : EntryPayload event.payload entryId currency lines memo) {w w' : World σ}
    (hw' : w'.trace = w.trace ++
      [rejected env event { entryId, tenantId, currency, lines, memo } reason]) :
    Rejected event w w' := by
  refine ⟨rejected env event { entryId, tenantId, currency, lines, memo } reason, ?_, rfl, rfl, ?_⟩
  · simp [hw']
  · rw [hp.entryId_eq]
    rfl

/-- A delivery whose post does not come back unbalanced emits no rejection. -/
theorem not_rejected_of_balanced (rt : Runtime) {event : Event} {entry : JournalEntry} {env : Env}
    {tenantId : String} (hinfra : env.infra = .healthy) (ht : event.tenantId = .str tenantId)
    (he : JournalEntry.fromPayload event.payload tenantId = .ok entry)
    (hb : entry.isBalanced = true)
    (hstore : ∀ s err, (store.insertIfAbsent entry s).1 = .error err → ∃ text, err = .storeError text)
    (hposted : ∀ status, rt.registry.validate (posted env event (postResult entry status)).subject
      (posted env event (postResult entry status)).schemaVersion
      (posted env event (postResult entry status)).payload = .ok ()) (w : World σ) :
    (handle rt store env event w).2.self = (Ledger.post store entry w.self).2 ∧
      (handle rt store env event w).2.store.deadletters = w.store.deadletters ∧
      ¬ Rejected event w (handle rt store env event w).2 := by
  rw [handle_of_entry rt store env ht he, post_of_balanced store hb]
  cases hins : (store.insertIfAbsent entry w.self).1 with
  | error err =>
    obtain ⟨text, rfl⟩ := hstore w.self err hins
    refine ⟨rfl, rfl, ?_⟩
    rintro ⟨ev, hev, -⟩
    simp at hev
  | ok inserted =>
    cases inserted with
    | false =>
      refine ⟨rfl, rfl, ?_⟩
      rintro ⟨ev, hev, -⟩
      simp [postResult] at hev
    | true =>
      simp only [if_true]
      show (emit rt env (posted env event (postResult entry .posted)) _).2.self = _ ∧
        (emit rt env (posted env event (postResult entry .posted)) _).2.store.deadletters = _ ∧
        ¬ Rejected event w (emit rt env (posted env event (postResult entry .posted)) _).2
      rw [emit, hinfra, BaseAgent.emit_healthy rt _ _ _ (hposted .posted)]
      refine ⟨rfl, by simp [World.recorded, World.published], ?_⟩
      rintro ⟨ev, hev, hsub, -⟩
      have hev' : ev = posted env event (postResult entry .posted) := by
        simpa [World.recorded, World.published] using hev
      rw [hev'] at hsub
      exact absurd hsub (by simp [posted])

/-! ## The ways of an event -/

variable {env : Env} {event : Event} {w : World σ}

/-- An event that fails its contract is quarantined, and nothing else changes. -/
theorem accounted_of_invalid {rt : Runtime} (hinfra : env.infra = .healthy) {e : PyError}
    (hv : rt.registry.validate event.subject event.schemaVersion event.payload = .error e) :
    Accounted store event w (dispatch rt store env event w).2 ↔
      InBooks store event w ∨ (Quarantined event w ∨
        ∀ d ∈ w.store.deadletters, EventStore.deadletterKey d ≠ event.id.pyStr) := by
  have hd : dispatch rt store env event w = (.ok (), (w.quarantined
      (BaseAgent.envelope event e.text)).published ("deadletter." ++ event.subject.pyStr)
        (dumps .default (.obj (BaseAgent.envelope event e.text)))) := by
    rw [dispatch, BaseAgent.dispatch_of_invalid rt _ hv, hinfra, BaseAgent.deadLetter_healthy]
  rw [hd]
  set w' := (w.quarantined (BaseAgent.envelope event e.text)).published
    ("deadletter." ++ event.subject.pyStr)
    (dumps .default (.obj (BaseAgent.envelope event e.text))) with hw'
  have hstore' : w'.store = w.store.recordDeadletter (BaseAgent.envelope event e.text) := rfl
  rw [← quarantined_iff_of_recordDeadletter hstore']
  constructor
  · rintro (h1 | ⟨ev, hev, -⟩ | h3)
    · exact .inr h1
    · simp [hw', World.quarantined, World.published] at hev
    · exact .inl h3
  · rintro (h3 | h1)
    · exact .inr (.inr h3)
    · exact .inl h1

theorem accounted_of_no_tenant {rt : Runtime} (hfalse : event.tenantId.truthy = false)
    (hnq : ¬ Quarantined event (handle rt store env event w).2) :
    Accounted store event w (handle rt store env event w).2 ↔ InBooks store event w := by
  rw [handle_of_no_tenant rt store env hfalse] at hnq ⊢
  constructor
  · rintro (h1 | ⟨ev, hev, -⟩ | h3)
    · exact absurd h1 hnq
    · simp at hev
    · exact h3
  · intro h
    exact .inr (.inr h)

section Entry

variable {tenantId entryId currency : String} {lines : List JournalLine} {memo : Option String}
  {entry : JournalEntry} (hinfra : env.infra = .healthy) (ht : event.tenantId = .str tenantId)
  (hp : EntryPayload event.payload entryId currency lines memo)
  (hentry : entry = { entryId, tenantId, currency, lines, memo })
  (he : JournalEntry.fromPayload event.payload tenantId = .ok entry)

include hinfra ht hp hentry he

theorem rejected_of_unbalanced (hb : entry.isBalanced = false) :
    Rejected event w (handle (.repository dir complaint sha256) store env event w).2 := by
  rw [handle_of_entry _ store env ht he, post_of_unbalanced store hb]
  set reason : String := "entry " ++ entry.entryId ++ ": debits " ++
    toString entry.totalDebits ++ " != credits " ++ toString entry.totalCredits with hreason
  show Rejected event w (emit _ env (rejected env event entry reason) _).2
  have hlen : 1 ≤ reason.length := by
    have hstart : "entry ".length = 6 := rfl
    simp only [hreason, String.length_append]
    omega
  have hcurrency : currencyPattern entry.currency = true := by
    rw [hentry]
    exact hp.currency_ok
  have hpositive : ∀ ln ∈ entry.lines, 1 ≤ ln.amountMinor := by
    rw [hentry]
    exact hp.positive
  have hvalid : (SchemaRegistry.repository dir complaint).validate
      (rejected env event entry reason).subject (rejected env event entry reason).schemaVersion
      (rejected env event entry reason).payload = .ok () :=
    validate_rejected hcurrency hpositive hlen
  rw [emit, hinfra, BaseAgent.emit_healthy _ _ _ _ hvalid]
  subst hentry
  exact rejected_of_emitted hp rfl

/-- A balanced entry is accounted for where the store shows it, or takes it. -/
theorem accounted_of_balanced {Takes : JournalEntry → σ → Prop} (hb : entry.isBalanced = true)
    (hstore : ∀ s err, (store.insertIfAbsent entry s).1 = .error err → ∃ text, err = .storeError text)
    (htakes : Shows store entry (Ledger.post store entry w.self).2 ↔
      Shows store entry w.self ∨ Takes entry w.self)
    (hnq : ¬ Quarantined event (handle (.repository dir complaint sha256) store env event w).2) :
    Accounted store event w (handle (.repository dir complaint sha256) store env event w).2 ↔
      InBooks store event w ∨ Takes entry w.self := by
  have hcurrency : currencyPattern entry.currency = true := by
    rw [hentry]
    exact hp.currency_ok
  have htwo : 2 ≤ entry.lines.length := by
    rw [hentry]
    exact hp.two_lines
  obtain ⟨hself, -, hnr⟩ := not_rejected_of_balanced (.repository dir complaint sha256) hinfra ht he hb
    hstore (fun status => validate_posted hcurrency hb htwo) w
  have hbooks : InBooks store event (handle (.repository dir complaint sha256) store env event w).2 ↔
      InBooks store event w ∨ Takes entry w.self := by
    rw [inBooks_iff_shows ht hp, inBooks_iff_shows ht hp, hself, ← hentry]
    exact htakes
  rw [← hbooks]
  constructor
  · rintro (h1 | h2 | h3)
    · exact absurd h1 hnq
    · exact absurd h2 hnr
    · exact h3
  · intro h3
    exact .inr (.inr h3)

end Entry

/-- For a store that keeps the books: the entry of an event is accounted for if and only if it is
kept. -/
theorem accounted_iff_kept {w : World σ} {h : List JournalEntry}
    (hw : Reached (.repository dir complaint sha256) b w h) {Takes : JournalEntry → σ → Prop}
    (hstore : ∀ e s err, (store.insertIfAbsent e s).1 = .error err → ∃ text, err = .storeError text)
    (htakes : ∀ entry, entry.isBalanced = true →
      (Shows store entry (Ledger.post store entry w.self).2 ↔
        Shows store entry w.self ∨ Takes entry w.self))
    {env : Env} (hinfra : env.infra = .healthy) {event : Event}
    (hsubject : event.subject = "ledger.entry")
    (htyped : event.tenantId = .null ∨ ∃ t, event.tenantId = .str t) :
    Accounted store event w (dispatch (.repository dir complaint sha256) store env event w).2 ↔
      Kept (.repository dir complaint sha256) store Takes event w := by
  set rt : Runtime := .repository dir complaint sha256 with hrt
  unfold Kept
  cases hv : rt.registry.validate event.subject event.schemaVersion event.payload with
  | error e =>
    rw [accounted_of_invalid hinfra hv, if_neg (by simp)]
  | ok u =>
    have hnq : ¬ Quarantined event (dispatch rt store env event w).2 := by
      obtain ⟨h', hw'⟩ := hw.step rt b env event
      exact not_quarantined hw' hv
    have hdisp : dispatch rt store env event w = handle rt store env event w :=
      BaseAgent.dispatch_of_valid rt env.infra hv w
    rw [hdisp] at hnq ⊢
    rw [if_pos rfl]
    by_cases htruthy : event.tenantId.truthy = true
    · obtain ⟨tenantId, ht⟩ : ∃ t, event.tenantId = .str t := by
        rcases htyped with hnull | ht
        · simp [hnull, Json.truthy] at htruthy
        · exact ht
      have hne : tenantId ≠ "" := by simpa [ht, Json.truthy] using htruthy
      rw [hsubject] at hv
      obtain ⟨i, c, l, m, hp⟩ := entryPayload_of_valid (valid_of_validate_entry hv)
      have he := hp.fromPayload_eq hne
      -- the event has one entry
      have hone : ∀ P : JournalEntry → Prop, (∃ t entry, event.tenantId = .str t ∧
          JournalEntry.fromPayload event.payload t = .ok entry ∧ P entry) ↔
          P { entryId := i, tenantId := tenantId, currency := c, lines := l, memo := m } := by
        intro P
        constructor
        · rintro ⟨t, entry, ht', he', hP⟩
          obtain rfl : tenantId = t := Json.str.inj (ht.symm.trans ht')
          obtain rfl := Except.ok.inj (he.symm.trans he')
          exact hP
        · intro hP
          exact ⟨tenantId, _, ht, he, hP⟩
      rw [hone fun entry => entry.isBalanced = false ∨ Takes entry w.self]
      set entry : JournalEntry :=
        { entryId := i, tenantId := tenantId, currency := c, lines := l, memo := m } with hentry
      by_cases hb : entry.isBalanced = true
      · rw [accounted_of_balanced hinfra ht hp hentry he hb (hstore entry) (htakes entry hb) hnq, hb]
        simp
      · have hb' : entry.isBalanced = false := by simpa using hb
        exact iff_of_true (.inr (.inl (rejected_of_unbalanced hinfra ht hp hentry he hb')))
          (.inr (.inl hb'))
    · have hfalse : event.tenantId.truthy = false := by simpa using htruthy
      rw [accounted_of_no_tenant hfalse hnq]
      constructor
      · intro h
        exact .inl h
      · rintro (h | ⟨t, entry, ht, he, -⟩)
        · exact h
        · have hempty : t = "" := by simpa [ht, Json.truthy] using hfalse
          simp [JournalEntry.fromPayload, hempty] at he

end

end LedgerAgent

open LedgerAgent

/-! ## Which entries the two stores take -/

/-- The in-memory store takes an entry when its id is free. -/
def InMemoryLedgerStore.Takes (entry : JournalEntry) (s : InMemoryLedgerStore) : Prop :=
  s.find? entry.entryId = none

theorem InMemoryLedgerStore.shows_post_iff {entry : JournalEntry} (hb : entry.isBalanced = true)
    (s : InMemoryLedgerStore) :
    Shows store entry (Ledger.post store entry s).2 ↔ Shows store entry s ∨ Takes entry s := by
  rw [post_of_balanced store hb s]
  by_cases hfree : s.find? entry.entryId = none
  · refine iff_of_true ⟨entry, ?_, rfl, rfl⟩ (.inr hfree)
    have hins : store.insertIfAbsent entry s = (.ok true, s.add entry hfree) := by
      simp [store, insertIfAbsent, hfree]
    have hfind : (s.add entry hfree).find? entry.entryId = some entry := by simp [find?_add]
    rw [hins]
    show Except.ok (get entry.tenantId entry.entryId (s.add entry hfree)) = _
    simp [get, hfind]
  · have hins : store.insertIfAbsent entry s = (.ok false, s) := by
      simp [store, insertIfAbsent, hfree]
    rw [hins]
    simp [Takes, hfree]

/-- The Postgres store takes an entry as it is when its rows can be inserted, the `CHAR(3)` column gives
its currency back, and its key is free. -/
def Postgres.Takes {κ : Type} (srv : Postgres.Server κ) (entry : JournalEntry) (t : Tables κ) : Prop :=
  ∃ row, entryRow srv entry = some row ∧ row.currency = entry.currency ∧
    (entry.lines.mapM (lineRow srv row)).isSome ∧ ∀ r ∈ t.entries, r.entryId ≠ row.entryId

theorem Postgres.shows_post_iff {κ : Type} [DecidableEq κ] {srv : Postgres.Server κ} {t : Tables κ}
    {h : List JournalEntry} (hs : Keeps srv t h) {entry : JournalEntry}
    (hb : entry.isBalanced = true) :
    Shows (store srv) entry (Ledger.post (store srv) entry t).2 ↔
      Shows (store srv) entry t ∨ Takes srv entry t := by
  rw [post_of_balanced (store srv) hb t]
  cases hrow : entryRow srv entry with
  | none =>
    have hins : (store srv).insertIfAbsent entry t =
        (.error (.storeError "invalid journal_entry"), t) := by
      simp [store, insertIfAbsent, hrow]
    rw [hins]
    simp [Takes, hrow]
  | some row =>
    obtain ⟨huuid, -, hten, -, -⟩ := entryRow_some hrow
    by_cases hany : (t.entries.any fun r => decide (r.entryId = row.entryId)) = true
    · have hins : (store srv).insertIfAbsent entry t = (.ok false, t) := by
        simp only [store, insertIfAbsent, hrow, hany, if_true]
      have htaken : ¬ Takes srv entry t := by
        rintro ⟨row', hrow', -, -, hfree⟩
        obtain rfl : row = row' := by simpa [hrow] using hrow'
        obtain ⟨r, hr, hrk⟩ := List.any_eq_true.mp hany
        exact hfree r hr (by simpa using hrk)
      rw [hins]
      simp [htaken]
    · cases hrows : entry.lines.mapM (lineRow srv row) with
      | none =>
        have hins : (store srv).insertIfAbsent entry t =
            (.error (.storeError "invalid journal_line"), t) := by
          simp only [store, insertIfAbsent, hrow, hany, hrows, Bool.false_eq_true, if_false]
        rw [hins]
        simp [Takes, hrow, hrows]
      | some rows =>
        -- the entry is inserted: the history grows by it, and it holds its key
        have hspec := post_spec hs entry
        rw [post_of_balanced (store srv) hb t] at hspec
        have hholder : (guard srv).holder h row.entryId = none := by
          have := hs.any_iff row.entryId
          rw [Bool.eq_false_iff.mpr hany] at this
          simpa using this.symm
        have hkey : (guard srv).key entry = some row.entryId := by simp [guard, hb, hrow]
        have hadm : (guard srv).admits entry = true := by simp [guard, hrow, hrows]
        have hv : (guard srv).verdict h entry = .inserted :=
          Guard.verdict_eq_inserted_iff.mpr ⟨row.entryId, hkey, hholder, hadm⟩
        have hnew : (guard srv).holder (h ++ [entry]) row.entryId = some entry := by
          rw [Guard.holder_snoc, hv, hkey]
          simp
        have hstorable : srv.storable entry.tenantId = true := entryRow_storable hrow
        have hlines := (mapM_lineRow_some hrows).2
        have hafter : get srv entry.tenantId entry.entryId
              ((store srv).insertIfAbsent entry t).2 =
            .ok (some { entryId := entry.entryId, tenantId := entry.tenantId,
                        currency := row.currency, lines := entry.lines, memo := row.memo }) := by
          rw [get_spec hspec.2 huuid hstorable, hnew]
          simp [Option.filter_some, readBack, linesOf, hrow, hrows, hlines]
        have hbefore : get srv entry.tenantId entry.entryId t = .ok none := by
          rw [get_spec hs huuid hstorable, hholder]
          rfl
        have hfree : ∀ r ∈ t.entries, r.entryId ≠ row.entryId := by
          intro r hr hrk
          exact hany (List.any_eq_true.mpr ⟨r, hr, by simpa using hrk⟩)
        constructor
        · rintro ⟨q, hq, hc, -⟩
          refine .inr ⟨row, hrow, ?_, by simp [hrows], hfree⟩
          have hq' : get srv entry.tenantId entry.entryId
              ((store srv).insertIfAbsent entry t).2 = .ok (some q) := hq
          rw [hafter] at hq'
          rw [← hc, ← Option.some.inj (Except.ok.inj hq')]
        · rintro (⟨q, hq, -⟩ | ⟨row', hrow', hc, -, -⟩)
          · have hq' : get srv entry.tenantId entry.entryId t = .ok (some q) := hq
            rw [hbefore] at hq'
            cases hq'
          · obtain rfl : row = row' := by simpa [hrow] using hrow'
            exact ⟨_, hafter, hc, rfl⟩

/-- For either store, in every state that deliveries lead to: a `ledger.entry` event is accounted for
if and only if its entry is kept. -/
theorem ledger_entry_accounted_iff (dir : String) (complaint : Schema → Json → String)
    (sha256 : String → String) (history : List Delivery) (d : Delivery)
    (hinfra : d.env.infra = .healthy) (hsubject : d.event.subject = "ledger.entry") :
    let rt := Runtime.repository dir complaint sha256
    (let store := InMemoryLedgerStore.store
      let w := deliver rt store history { self := InMemoryLedgerStore.empty }
      Accounted store d.event w (dispatch rt store d.env d.event w).2 ↔
        Kept rt store InMemoryLedgerStore.Takes d.event w) ∧
    (∀ (κ : Type) [DecidableEq κ] (srv : Postgres.Server κ),
      let store := Postgres.store srv
      let w := deliver rt store history { self := {} }
      Accounted store d.event w (dispatch rt store d.env d.event w).2 ↔
        Kept rt store (Postgres.Takes srv) d.event w) := by
  intro rt
  refine ⟨?_, ?_⟩
  · intro store w
    obtain ⟨h, hw⟩ := reached_deliver rt InMemoryLedgerStore.books history
    refine accounted_iff_kept hw ?_ ?_ hinfra hsubject d.tenant_typed
    · intro e s err herr
      cases herr
    · intro entry hb
      exact InMemoryLedgerStore.shows_post_iff hb w.self
  · intro κ _ srv store w
    obtain ⟨h, hw⟩ := reached_deliver rt (Postgres.books srv) history
    refine accounted_iff_kept hw ?_ ?_ hinfra hsubject d.tenant_typed
    · intro e s err herr
      exact Postgres.insertIfAbsent_error herr
    · intro entry hb
      exact Postgres.shows_post_iff hw.keeps hb

/-! ## A sale, with and without a tenant -/

def saleEvent (tenantId : Json) : Event where
  subject := "ledger.entry"
  schemaVersion := .int 1
  source := "forge"
  id := "00000000-0000-0000-0000-000000000001"
  tenantId := tenantId
  payload := .obj
    [("entry_id", "00000000-0000-0000-0000-0000000000ab"), ("currency", "USD"),
      ("lines", .arr
        [.obj [("account", "1000-cash"), ("direction", "debit"), ("amount_minor", .int 2500)],
          .obj [("account", "4000-revenue"), ("direction", "credit"), ("amount_minor", .int 2500)]])]

/-- The event of a `sale`, delivered for a tenant. -/
def saleDelivery (tenantId : String) : Delivery where
  env := { uuid := "00000000-0000-0000-0000-000000000002" }
  event := saleEvent (.str tenantId)
  tenant_typed := .inr ⟨tenantId, rfl⟩

/-- The event of a `sale`, delivered without a tenant. -/
def untenantedDelivery : Delivery where
  env := { uuid := "00000000-0000-0000-0000-000000000002" }
  event := saleEvent .null
  tenant_typed := .inl rfl

/-- The runtime of a `sale`, with the SHA-256 of the one entry it adds to the log. -/
def saleRuntime : Runtime :=
  .repository "schema_registry/schemas" (fun _ _ => "")
    (fun _ => "ec855ec465f49c7daf2d0e3139df40277f40b2e47eafe51ed6e4f94d28adcc8a")

/-- An agent that has not been handed anything. -/
def freshLedger : LedgerAgent.World InMemoryLedgerStore := { self := InMemoryLedgerStore.empty }

def afterSale (d : Delivery) (w : LedgerAgent.World InMemoryLedgerStore) :
    LedgerAgent.World InMemoryLedgerStore :=
  (dispatch saleRuntime InMemoryLedgerStore.store d.env d.event w).2

/-- The first sale under an id is accounted for. -/
theorem sale_accounted :
    Accounted InMemoryLedgerStore.store (saleDelivery "acme").event freshLedger
      (afterSale (saleDelivery "acme") freshLedger) := by
  have hv : saleRuntime.registry.validate (saleDelivery "acme").event.subject
      (saleDelivery "acme").event.schemaVersion (saleDelivery "acme").event.payload = .ok () := rfl
  refine (ledger_entry_accounted_iff _ _ _ [] (saleDelivery "acme") rfl rfl).1.mpr (.inr ?_)
  exact Eq.mpr (if_pos hv) ⟨"acme", sale "acme", rfl, rfl, .inr rfl⟩

/-- A sale without a tenant, and a sale under an id that another tenant has taken, leave no trace. -/
theorem sale_lost :
    ¬ Accounted InMemoryLedgerStore.store untenantedDelivery.event freshLedger
        (afterSale untenantedDelivery freshLedger) ∧
      ¬ Accounted InMemoryLedgerStore.store (saleDelivery "globex").event
        (afterSale (saleDelivery "acme") freshLedger)
        (afterSale (saleDelivery "globex") (afterSale (saleDelivery "acme") freshLedger)) := by
  refine ⟨?_, ?_⟩
  · have hdead : (afterSale untenantedDelivery freshLedger).store.deadletters = [] := by
      decide +kernel
    have htrace : (afterSale untenantedDelivery freshLedger).trace = [] := by decide +kernel
    rintro (⟨error, hd⟩ | ⟨ev, hev, -⟩ | ⟨t, i, e, ht, -⟩)
    · rw [hdead] at hd
      cases hd
    · rw [htrace] at hev
      simp at hev
    · cases ht
  · set w := afterSale (saleDelivery "acme") freshLedger with hw
    have hdead : (afterSale (saleDelivery "globex") w).store.deadletters = [] := by decide +kernel
    have htrace : (afterSale (saleDelivery "globex") w).trace.drop w.trace.length = [] := by
      decide +kernel
    have hget : InMemoryLedgerStore.get "globex" "00000000-0000-0000-0000-0000000000ab"
        (afterSale (saleDelivery "globex") w).self = none := by decide +kernel
    rintro (⟨error, hd⟩ | ⟨ev, hev, -⟩ | ⟨t, i, e, ht, hi, hg, -⟩)
    · rw [hdead] at hd
      cases hd
    · rw [htrace] at hev
      cases hev
    · obtain rfl : "globex" = t := by simpa [saleDelivery, saleEvent] using ht
      obtain rfl : "00000000-0000-0000-0000-0000000000ab" = i := Json.str.inj (Except.ok.inj hi)
      have hg' : some e = none := by
        rw [← hget]
        exact (Except.ok.inj hg).symm
      cases hg'

end CaviErp
