import CaviErp.Ledger.Proofs.AccountedProofs

/-!
# Posting and notification under redelivery

The insert into the journal and the record of `ledger.posted` are two commits. A failure between them
aborts the delivery with the entry stored and no event recorded, and a redelivery takes the duplicate
branch, which emits nothing. As long as no record fails in a delivery that finds its id free, every
stored entry has its event.
-/

namespace CaviErp

open Py FirstWriter

namespace LedgerAgent

variable {σ : Type}

/-- A delivery of a schema-valid, balanced, tenant-carrying `ledger.entry` event. -/
def Postable (rt : Runtime) (d : Delivery) : Prop :=
  d.event.subject = "ledger.entry" ∧
    rt.registry.validate d.event.subject d.event.schemaVersion d.event.payload = .ok () ∧
    ∃ tenantId entry, d.event.tenantId = .str tenantId ∧
      JournalEntry.fromPayload d.event.payload tenantId = .ok entry ∧ entry.isBalanced = true

/-- A `ledger.posted` event for an entry id is recorded. -/
def PostedFor (SameId : String → String → Prop) (entryId : String) (s : EventStore) : Prop :=
  ∃ ev ∈ s.events, ev.subject = "ledger.posted" ∧
    ∃ named, item ev.payload "entry_id" = .ok (.str named) ∧ SameId named entryId

/-- When the delivery returns, and its entry is in the store under its tenant, the event that says so
is recorded. -/
def Notifies (rt : Runtime) (store : LedgerStore σ) (SameId : String → String → Prop) (d : Delivery)
    (w : World σ) : Prop :=
  (dispatch rt store d.env d.event w).1 = .ok () →
    ∀ tenantId entryId e, d.event.tenantId = .str tenantId →
      item d.event.payload "entry_id" = .ok (.str entryId) →
      store.get tenantId entryId (dispatch rt store d.env d.event w).2.self = .ok (some e) →
      PostedFor SameId entryId (dispatch rt store d.env d.event w).2.store

/-- No `record_event` raises in a delivery that finds its entry id free. -/
def Recording (rt : Runtime) (store : LedgerStore σ) (s₀ : σ) (Taken : String → σ → Prop)
    (ds : List Delivery) : Prop :=
  ∀ pre d post, ds = pre ++ d :: post → ∀ entryId,
    item d.event.payload "entry_id" = .ok (.str entryId) →
    ¬ Taken entryId (deliver rt store pre { self := s₀ }).self →
    ∀ ev, d.env.infra.recordEvent ev = none

theorem recordEvent_of_fresh {sha256 : String → String} {s : EventStore} {ev : Event} {u : String}
    (hid : ev.id = .str u) (hfresh : ∀ e ∈ s.events, ∃ v, e.id = .str v ∧ v ≠ u) :
    (s.recordEvent sha256 ev).events = s.events ++ [ev] := by
  have hnot : s.hasEvent ev = false := by
    rw [EventStore.hasEvent, List.any_eq_false]
    intro e he
    obtain ⟨v, hv, hne⟩ := hfresh e he
    simp [hv, hid, Json.dictKey, hne]
  simp [EventStore.recordEvent, hnot]

theorem mem_recordEvent {sha256 : String → String} {s : EventStore} {ev e : Event}
    (h : e ∈ (s.recordEvent sha256 ev).events) : e ∈ s.events ∨ e = ev := by
  unfold EventStore.recordEvent at h
  split at h
  · exact .inl h
  · simpa using h

theorem mem_recordEvent_of_mem {sha256 : String → String} {s : EventStore} {ev e : Event}
    (h : e ∈ s.events) : e ∈ (s.recordEvent sha256 ev).events := by
  unfold EventStore.recordEvent
  split
  · exact h
  · simp [h]

section

variable {store : LedgerStore σ} {κ : Type} [DecidableEq κ] {s₀ : σ} {guard : Guard JournalEntry κ}
  (b : Books store s₀ guard)

/-- The invariant: every entry held has its `ledger.posted` recorded, and the ids of the recorded events
are those given out so far. -/
structure Told (used : List String) (w : World σ) (h : List JournalEntry) : Prop where
  keeps : b.Keeps w.self h
  recorded : ∀ k e, guard.holder h k = some e → PostedFor Eq e.entryId w.store
  ids : ∀ ev ∈ w.store.events, ∃ u ∈ used, ev.id = .str u

theorem PostedFor.mono {SameId : String → String → Prop} {entryId : String} {s s' : EventStore}
    (h : PostedFor SameId entryId s) (hsub : ∀ ev ∈ s.events, ev ∈ s'.events) :
    PostedFor SameId entryId s' := by
  obtain ⟨ev, hev, hrest⟩ := h
  exact ⟨ev, hsub ev hev, hrest⟩

variable {dir : String} {complaint : Schema → Json → String} {sha256 : String → String}

/-- What the agent says about an entry it posted meets the contract of `ledger.posted`. -/
theorem validate_posted_of_postable {event : Event} {tenantId : String} {entry : JournalEntry}
    {env : Env} {status : PostStatus} (hsub : event.subject = "ledger.entry")
    (hv : (Runtime.repository dir complaint sha256).registry.validate event.subject
      event.schemaVersion event.payload = .ok ())
    (he : JournalEntry.fromPayload event.payload tenantId = .ok entry)
    (hb : entry.isBalanced = true) :
    (Runtime.repository dir complaint sha256).registry.validate
      (posted env event (postResult entry status)).subject
      (posted env event (postResult entry status)).schemaVersion
      (posted env event (postResult entry status)).payload = .ok () := by
  rw [hsub] at hv
  obtain ⟨i, c, l, m, hp⟩ := entryPayload_of_valid (valid_of_validate_entry hv)
  have hne : tenantId ≠ "" := by
    rintro rfl
    simp [JournalEntry.fromPayload] at he
  have hentry : entry = { entryId := i, tenantId := tenantId, currency := c, lines := l, memo := m } :=
    by simpa [he] using hp.fromPayload_eq hne
  have hcur : currencyPattern entry.currency = true := by rw [hentry]; exact hp.currency_ok
  have hlen : 2 ≤ entry.lines.length := by rw [hentry]; exact hp.two_lines
  exact validate_posted hcur hb hlen

section Step

variable {b} {used : List String} {w w' : World σ} {h : List JournalEntry} {entry : JournalEntry}
  {uuid : String}

theorem Told.ids_snoc (hw : Told b used w h) :
    ∀ ev ∈ w.store.events, ∃ u ∈ used ++ [uuid], ev.id = .str u := by
  intro ev hev
  obtain ⟨u, hu, hid⟩ := hw.ids ev hev
  exact ⟨u, List.mem_append_left _ hu, hid⟩

/-- A post that took no key holds nothing new, so what is recorded is enough. -/
theorem Told.of_not_inserted (hw : Told b used w h) (hkeeps : b.Keeps w'.self (h ++ [entry]))
    (hne : guard.verdict h entry ≠ .inserted) (hmono : ∀ ev ∈ w.store.events, ev ∈ w'.store.events)
    (hids : ∀ ev ∈ w'.store.events, ∃ u ∈ used ++ [uuid], ev.id = .str u) :
    Told b (used ++ [uuid]) w' (h ++ [entry]) := by
  refine ⟨hkeeps, ?_, hids⟩
  intro k e hk
  rw [Guard.holder_snoc] at hk
  simp only [hne, false_and, if_false] at hk
  exact (hw.recorded k e hk).mono hmono

/-- A post that took a key is recorded under an id that no recorded event has. -/
theorem Told.of_posted {env : Env} {event : Event} (hw : Told b used w h)
    (hkeeps : b.Keeps w'.self (h ++ [entry])) (hfresh : env.uuid ∉ used) {digest : String → String}
    (hstore : w'.store =
      w.store.recordEvent digest (posted env event (postResult entry .posted))) :
    Told b (used ++ [env.uuid]) w' (h ++ [entry]) := by
  have hother : ∀ ev ∈ w.store.events, ∃ v, ev.id = .str v ∧ v ≠ env.uuid := by
    intro ev hev
    obtain ⟨u, hu, hid⟩ := hw.ids ev hev
    exact ⟨u, hid, fun heq => hfresh (heq ▸ hu)⟩
  have hevents : w'.store.events =
      w.store.events ++ [posted env event (postResult entry .posted)] := by
    rw [hstore]
    exact recordEvent_of_fresh rfl hother
  refine ⟨hkeeps, ?_, ?_⟩
  · intro k e hk
    rw [Guard.holder_snoc] at hk
    split at hk
    · -- the entry that was just posted
      obtain rfl := Option.some.inj hk
      refine ⟨posted env event (postResult entry .posted), ?_, rfl, entry.entryId, rfl, rfl⟩
      rw [hevents]
      simp
    · refine (hw.recorded k e hk).mono ?_
      intro ev hev
      rw [hevents]
      exact List.mem_append_left _ hev
  · intro ev hev
    rw [hevents] at hev
    rcases List.mem_append.mp hev with hev | hev
    · exact hw.ids_snoc ev hev
    · rw [List.mem_singleton.mp hev]
      exact ⟨env.uuid, by simp, rfl⟩

end Step

/-- One delivery keeps the invariant, unless its record fails when the id is free. -/
theorem Told.step {used : List String} {w : World σ} {h : List JournalEntry}
    (hw : Told b used w h) {d : Delivery} (hd : Postable (.repository dir complaint sha256) d)
    (hfresh : d.env.uuid ∉ used)
    (hrecord : ∀ tenantId entry, d.event.tenantId = .str tenantId →
      JournalEntry.fromPayload d.event.payload tenantId = .ok entry →
      guard.verdict h entry = .inserted → ∀ ev, d.env.infra.recordEvent ev = none) :
    ∃ h', Told b (used ++ [d.env.uuid])
      (dispatch (.repository dir complaint sha256) store d.env d.event w).2 h' := by
  set rt : Runtime := .repository dir complaint sha256 with hrt
  obtain ⟨hsub, hv, tenantId, entry, ht, he, hb⟩ := hd
  rcases dispatch_cases rt store d.env d.event w with
    ⟨hself, hstore⟩ | ⟨e, hv', -⟩ | ⟨t, entry', ht', -, he', hself, hnote⟩
  · exact ⟨h, by rw [hself]; exact hw.keeps, by rw [hstore]; exact hw.recorded,
      by rw [hstore]; exact hw.ids_snoc⟩
  · rw [hv] at hv'
    cases hv'
  · obtain rfl : tenantId = t := by simpa [ht] using ht'
    obtain rfl : entry = entry' := by rw [he] at he'; exact Except.ok.inj he'
    set w' := (dispatch rt store d.env d.event w).2 with hw'
    have hkeeps : b.Keeps w'.self (h ++ [entry]) := by
      rw [hself]
      exact b.post_snd hw.keeps entry
    have hreply := b.post_fst hw.keeps entry
    rw [hreply] at hnote
    refine ⟨h ++ [entry], ?_⟩
    generalize hr : b.reply entry (guard.verdict h entry) = r at hnote
    generalize hs' : w'.store = s' at hnote
    cases hnote with
    | silent hstatus =>
      refine hw.of_not_inserted hkeeps ?_ (by rw [hs']; exact fun ev hev => hev)
        (by rw [hs']; exact hw.ids_snoc)
      intro hins
      rw [hins, b.reply_inserted] at hr
      exact hstatus (by rw [← hr]; rfl)
    | unrecorded hstatus hwhy =>
      refine hw.of_not_inserted hkeeps ?_ (by rw [hs']; exact fun ev hev => hev)
        (by rw [hs']; exact hw.ids_snoc)
      intro hins
      rcases hwhy with ⟨e, hbad⟩ | ⟨text, hbad⟩
      · -- the event meets its contract
        rw [hins, b.reply_inserted] at hr
        obtain rfl := Except.ok.inj hr
        rw [validate_posted_of_postable hsub hv he hb] at hbad
        cases hbad
      · rw [hrecord tenantId entry ht he hins] at hbad
        cases hbad
    | rejected =>
      refine hw.of_not_inserted hkeeps ?_ ?_ ?_
      · intro hins
        rw [hins, b.reply_inserted] at hr
        cases hr
      · intro ev hev
        rw [hs']
        exact mem_recordEvent_of_mem hev
      · intro ev hev
        rw [hs'] at hev
        rcases mem_recordEvent hev with hev | rfl
        · exact hw.ids_snoc ev hev
        · exact ⟨d.env.uuid, by simp, rfl⟩
    | posted hstatus =>
      have hins : guard.verdict h entry = .inserted :=
        b.statusOf_reply entry _ (by rw [hr]; simp [statusOf, hstatus])
      rw [hins, b.reply_inserted] at hr
      obtain rfl := Except.ok.inj hr
      exact hw.of_posted hkeeps hfresh hs'

/-- Every run whose deliveries record what they post keeps the invariant. -/
theorem told_deliver {ds : List Delivery}
    (hpost : ∀ d ∈ ds, Postable (.repository dir complaint sha256) d)
    (huuid : (ds.map fun d => d.env.uuid).Nodup) {Taken : String → σ → Prop}
    (hfree : ∀ s h entry, b.Keeps s h → guard.verdict h entry = .inserted →
      ¬ Taken entry.entryId s)
    (hrec : Recording (.repository dir complaint sha256) store s₀ Taken ds)
    (pre post : List Delivery) (hds : ds = pre ++ post) :
    ∃ h, Told b (pre.map fun d => d.env.uuid)
      (deliver (.repository dir complaint sha256) store pre { self := s₀ }) h := by
  induction pre using List.reverseRecOn generalizing post with
  | nil => exact ⟨[], b.init, by simp [Guard.holder], by simp [deliver]⟩
  | append_singleton pre d ih =>
    have hsplit : ds = pre ++ d :: post := by simpa using hds
    obtain ⟨h, hw⟩ := ih (d :: post) hsplit
    have hdisp : deliver (.repository dir complaint sha256) store (pre ++ [d]) { self := s₀ } =
        (dispatch (.repository dir complaint sha256) store d.env d.event
          (deliver (.repository dir complaint sha256) store pre { self := s₀ })).2 := by
      rw [deliver, Action.serve_append]
      rfl
    rw [hdisp, List.map_append]
    refine hw.step b (hpost d (by simp [hsplit])) ?_ ?_
    · rw [hsplit, List.map_append, List.nodup_append] at huuid
      intro hmem
      exact huuid.2.2 _ hmem _ (by simp) rfl
    · intro tenantId entry ht he hins
      have hid : item d.event.payload "entry_id" = .ok (.str entry.entryId) := entryId_of_fromPayload he
      exact hrec pre d post hsplit entry.entryId hid (hfree _ _ entry hw.keeps hins)

theorem notifies_of_recording {ds : List Delivery}
    (hpost : ∀ d ∈ ds, Postable (.repository dir complaint sha256) d)
    (huuid : (ds.map fun d => d.env.uuid).Nodup) {Taken : String → σ → Prop}
    {SameId : String → String → Prop}
    (hfree : ∀ s h entry, b.Keeps s h → guard.verdict h entry = .inserted →
      ¬ Taken entry.entryId s)
    (hget : ∀ s h tenantId entryId e, b.Keeps s h → store.get tenantId entryId s = .ok (some e) →
      ∃ k q, guard.holder h k = some q ∧ SameId q.entryId entryId)
    (hrec : Recording (.repository dir complaint sha256) store s₀ Taken ds)
    {pre post : List Delivery} {d : Delivery} (hds : ds = pre ++ d :: post) :
    Notifies (.repository dir complaint sha256) store SameId d
      (deliver (.repository dir complaint sha256) store pre { self := s₀ }) := by
  intro _ tenantId entryId e _ _ hshow
  obtain ⟨h, hw⟩ := told_deliver b hpost huuid hfree hrec (pre ++ [d]) post (by simp [hds])
  have hdisp : deliver (.repository dir complaint sha256) store (pre ++ [d]) { self := s₀ } =
      (dispatch (.repository dir complaint sha256) store d.env d.event
        (deliver (.repository dir complaint sha256) store pre { self := s₀ })).2 := by
    rw [deliver, Action.serve_append]
    rfl
  rw [hdisp] at hw
  obtain ⟨k, q, hk, hsame⟩ := hget _ h tenantId entryId e hw.keeps hshow
  obtain ⟨ev, hev, hsubj, named, hnamed, rfl⟩ := hw.recorded k q hk
  exact ⟨ev, hev, hsubj, q.entryId, hnamed, hsame⟩

end

end LedgerAgent

open LedgerAgent

/-- A run whose every delivery that finds its id free records what it posts: whenever a delivery
returns with its entry in the store, `ledger.posted` is recorded. Postgres compares ids as UUIDs. -/
theorem posting_notified_of_recording (dir : String) (complaint : Schema → Json → String)
    (sha256 : String → String) (ds : List Delivery)
    (hpost : ∀ d ∈ ds, Postable (.repository dir complaint sha256) d)
    (huuid : (ds.map fun d => d.env.uuid).Nodup) :
    let rt := Runtime.repository dir complaint sha256
    (Recording rt InMemoryLedgerStore.store InMemoryLedgerStore.empty
        (fun entryId s => (s.find? entryId).isSome) ds →
      ∀ pre d post, ds = pre ++ d :: post →
        Notifies rt InMemoryLedgerStore.store Eq d
          (deliver rt InMemoryLedgerStore.store pre { self := InMemoryLedgerStore.empty })) ∧
    (∀ (κ : Type) [DecidableEq κ] (srv : Postgres.Server κ),
      Recording rt (Postgres.store srv) {}
        (fun entryId t => ∃ r ∈ t.entries, srv.uuid entryId = some r.entryId) ds →
      ∀ pre d post, ds = pre ++ d :: post →
        Notifies rt (Postgres.store srv) (fun i j => srv.uuid i = srv.uuid j) d
          (deliver rt (Postgres.store srv) pre { self := {} })) := by
  intro rt
  refine ⟨?_, ?_⟩
  · intro hrec pre d post hds
    refine notifies_of_recording InMemoryLedgerStore.books hpost huuid ?_ ?_ hrec hds
    · intro s h entry hs hins
      obtain ⟨k, hk, hfree, -⟩ := Guard.verdict_eq_inserted_iff.mp hins
      rw [hs entry.entryId, (InMemoryLedgerStore.guard_key_some hk).2, hfree]
      simp
    · intro s h tenantId entryId e hs hget
      rw [InMemoryLedgerStore.books.get_eq hs] at hget
      obtain ⟨hq, -⟩ := Option.filter_eq_some_iff.mp (Except.ok.inj hget)
      exact ⟨entryId, e, hq, (InMemoryLedgerStore.guard_key_some (Guard.key_of_holder hq).1).2⟩
  · intro κ _ srv hrec pre d post hds
    refine notifies_of_recording (Postgres.books srv) hpost huuid ?_ ?_ hrec hds
    · rintro t h entry hs hins ⟨r, hr, hrk⟩
      obtain ⟨k, hk, hfree, -⟩ := Guard.verdict_eq_inserted_iff.mp hins
      obtain ⟨-, row, hrow, rfl⟩ := Postgres.guard_key_some hk
      have huuid' := (Postgres.entryRow_some hrow).1
      have hany := Postgres.Keeps.any_iff hs row.entryId
      rw [hfree, Option.isSome_none, List.any_eq_false] at hany
      refine hany r hr ?_
      rw [huuid'] at hrk
      simpa using (Option.some.inj hrk).symm
    · intro t h tenantId entryId e hs hget
      have hget' : Postgres.get srv tenantId entryId t = .ok (some e) := hget
      cases hk : srv.uuid entryId with
      | none => simp [Postgres.get, hk] at hget'
      | some k =>
        cases ht : srv.storable tenantId with
        | false => simp [Postgres.get, hk, ht] at hget'
        | true =>
          rw [Postgres.get_spec hs hk ht] at hget'
          obtain ⟨q, hq, -⟩ := Option.bind_eq_some_iff.mp (Except.ok.inj hget')
          obtain ⟨hq, -⟩ := Option.filter_eq_some_iff.mp hq
          obtain ⟨-, row, hrow, hrk⟩ := Postgres.guard_key_some (Guard.key_of_holder hq).1
          exact ⟨k, q, hq, by rw [(Postgres.entryRow_some hrow).1, hrk]⟩

/-! ## A sale, delivered twice -/

def saleRedelivery : Delivery :=
  { saleDelivery "acme" with env := { uuid := "00000000-0000-0000-0000-000000000003" } }

/-- The first delivery of a `sale`, with an event log that cannot be reached. -/
def saleUnrecorded : Delivery :=
  { saleDelivery "acme" with
    env := { uuid := "00000000-0000-0000-0000-000000000002"
             infra := { recordEvent := fun _ => some "connection lost" } } }

/-- With a working event log the redelivery finds the event recorded. -/
theorem saleRedelivery_notifies :
    Notifies saleRuntime InMemoryLedgerStore.store Eq saleRedelivery
      (deliver saleRuntime InMemoryLedgerStore.store [saleDelivery "acme"] freshLedger) := by
  refine (posting_notified_of_recording _ _ _ [saleDelivery "acme", saleRedelivery] ?_ ?_).1 ?_
    [saleDelivery "acme"] saleRedelivery [] rfl
  · intro d hd
    rcases List.mem_cons.mp hd with rfl | hd
    · exact ⟨rfl, rfl, "acme", sale "acme", rfl, rfl, rfl⟩
    · rw [List.mem_singleton.mp hd]
      exact ⟨rfl, rfl, "acme", sale "acme", rfl, rfl, rfl⟩
  · decide
  · intro pre d post hds _ _ _ ev
    have hd : d ∈ [saleDelivery "acme", saleRedelivery] := by rw [hds]; simp
    rcases List.mem_cons.mp hd with rfl | hd
    · rfl
    · rw [List.mem_singleton.mp hd]
      rfl

/-- After a delivery aborted by the event log, the redelivery returns with the entry stored and no event
recorded. -/
theorem saleRedelivery_silent :
    ¬ Notifies saleRuntime InMemoryLedgerStore.store Eq saleRedelivery
      (deliver saleRuntime InMemoryLedgerStore.store [saleUnrecorded] freshLedger) := by
  intro h
  have hok : (dispatch saleRuntime InMemoryLedgerStore.store saleRedelivery.env saleRedelivery.event
      (deliver saleRuntime InMemoryLedgerStore.store [saleUnrecorded] freshLedger)).1 = .ok () := by
    decide +kernel
  have hget : InMemoryLedgerStore.get "acme" "00000000-0000-0000-0000-0000000000ab"
      (dispatch saleRuntime InMemoryLedgerStore.store saleRedelivery.env saleRedelivery.event
        (deliver saleRuntime InMemoryLedgerStore.store [saleUnrecorded] freshLedger)).2.self =
      some (sale "acme") := by
    decide +kernel
  have hnone : (dispatch saleRuntime InMemoryLedgerStore.store saleRedelivery.env saleRedelivery.event
      (deliver saleRuntime InMemoryLedgerStore.store [saleUnrecorded] freshLedger)).2.store.events =
      [] := by
    decide +kernel
  obtain ⟨ev, hev, -⟩ := h hok "acme" "00000000-0000-0000-0000-0000000000ab" (sale "acme") rfl rfl
    (congrArg Except.ok hget)
  rw [hnone] at hev
  cases hev

end CaviErp
