import CaviErp.Lib.Proofs.CanonicalProofs
import CaviErp.Shared.AuditExport
import CaviErp.Shared.Proofs.EventLogProofs

/-!
# When an untampered log verifies

The hash of a row covers `chain_envelope(event)`, where the id is the text the event came with; the
export rebuilds the envelope from the row, where the id is a `UUID`. So an export verifies exactly as
long as every recorded event spells its id the way `str(uuid)` does.
-/

namespace CaviErp

open Py HashChain

/-! ## The text of an envelope -/

/-- An envelope with its keys as `to_dict` and `export_row` order them. -/
def envelopeOf (id subject version source correlation tenant payload : Json) : Obj :=
  [("id", id), ("subject", subject), ("schema_version", version), ("source", source),
    ("correlation_id", correlation), ("tenant_id", tenant), ("payload", payload)]

/-- In the canonical text the id stands between the correlation id and the payload. -/
theorem canonicalEvent_envelopeOf (subject version source correlation tenant : Json) :
    ∃ before : List Char, ∃ after : List Char → List Char,
      ∀ id payload, canonicalEvent
        (envelopeOf id subject version source correlation tenant payload) =
          String.ofList (before ++ (dumpChars .canonical id ++ after (dumpChars .canonical payload))) := by
  have horder : ∀ id payload, DumpStyle.canonical.order
      (dumpItems .canonical (envelopeOf id subject version source correlation tenant payload)) =
      dumpItems .canonical [("correlation_id", correlation), ("id", id), ("payload", payload),
        ("schema_version", version), ("source", source), ("subject", subject),
        ("tenant_id", tenant)] := by
    intro id payload
    simp +decide only [envelopeOf, DumpStyle.order, dumpItems, List.insertionSort,
      List.orderedInsert, DumpStyle.canonical, if_true, if_false, List.foldr]
  refine ⟨'{' :: (quote "correlation_id" ++ ':' :: (dumpChars .canonical correlation ++
      ',' :: (quote "id" ++ [':']))),
    fun l => ',' :: (quote "payload" ++ ':' :: (l ++
      ',' :: (quote "schema_version" ++ ':' :: (dumpChars .canonical version ++
      ',' :: (quote "source" ++ ':' :: (dumpChars .canonical source ++
      ',' :: (quote "subject" ++ ':' :: (dumpChars .canonical subject ++
      ',' :: (quote "tenant_id" ++ ':' :: (dumpChars .canonical tenant ++ ['}'])))))))))), ?_⟩
  intro id payload
  unfold canonicalEvent dumps
  rw [dumpChars, horder]
  simp [dumpItems, Json.joinChars, DumpStyle.canonical]

variable {srv : EventLog.Server} {sha256 : String → String}

theorem chainEnvelope_eq (event : Event) : chainEnvelope event =
    envelopeOf event.id event.subject event.schemaVersion event.source
      (uuidJson (asUuid event.correlationId)) event.tenantId event.payload := by
  unfold chainEnvelope envelopeOf uuidJson
  cases asUuid event.correlationId <;> rfl

/-- Of the fields of an envelope, only the id may come back from the row differently. -/
theorem exportRow_event {event : Event} {row : EventRow} (h : EventLog.Persisted srv event row)
    (hash : String) : (exportRow row hash).event =
      envelopeOf (.str (uuidText row.id)) event.subject event.schemaVersion event.source
        (uuidJson (asUuid event.correlationId)) event.tenantId (srv.jsonb event.payload) := by
  rw [h.subject, h.schemaVersion, h.source, ← h.correlationId, h.tenantId, ← h.payload]
  rfl

/-- The id of an event is spelled as `str(uuid)` spells it. -/
def CanonicalId (event : Event) : Prop :=
  (asUuid event.id).map (fun u => Json.str (uuidText u)) = some event.id

instance (event : Event) : Decidable (CanonicalId event) := inferInstanceAs (Decidable (_ = _))

/-- The rebuilt envelope has the canonical text of the one that was hashed exactly where the id has its
canonical spelling. -/
theorem canonicalEvent_exportRow_iff (hjsonb : ∀ j, (srv.jsonb j).SameValue j) {event : Event}
    {row : EventRow} (h : EventLog.Persisted srv event row) (hash : String) :
    canonicalEvent (chainEnvelope event) = canonicalEvent (exportRow row hash).event ↔
      CanonicalId event := by
  obtain ⟨before, after, htext⟩ := canonicalEvent_envelopeOf event.subject event.schemaVersion
    event.source (uuidJson (asUuid event.correlationId)) event.tenantId
  rw [exportRow_event h, chainEnvelope_eq, htext, htext, (hjsonb event.payload).dumpChars_eq]
  have hcanonical : CanonicalId event ↔ event.id = .str (uuidText row.id) := by
    unfold CanonicalId
    rw [h.id, Option.map_some, Option.some_inj]
    exact eq_comm
  rw [hcanonical]
  refine ⟨?_, fun hid => by rw [hid]⟩
  intro heq
  have hchars := String.ofList_injective heq
  have hid := List.append_cancel_right (List.append_cancel_left hchars)
  exact dumpChars_eq_quote hid

/-! ## The rows of the chain -/

def Record.hash (r : Record) : String := r.row.chainHash.getD ""

theorem filterMap_hashed {α : Type} (f : Record → String → α) {l : List Record}
    (h : ∀ r ∈ l, r.row.chainHash.isSome) :
    l.filterMap (fun r => r.row.chainHash.map (f r)) = l.map fun r => f r r.hash := by
  induction l with
  | nil => rfl
  | cons r l ih =>
    obtain ⟨hash, hhash⟩ := Option.isSome_iff_exists.mp (h r List.mem_cons_self)
    have hhere : r.row.chainHash.map (f r) = some (f r r.hash) := by
      rw [Record.hash, hhash]
      rfl
    rw [List.filterMap_cons, hhere, List.map_cons, ih fun r' hr' => h r' (List.mem_cons_of_mem _ hr')]

namespace EventLog

theorem Intact.chained_eq {log : EventLog} (hi : Intact srv sha256 log) :
    log.chained = log.hashed := chained_eq_hashed hi.sorted

theorem hashed_isSome {log : EventLog} : ∀ r ∈ log.hashed, r.row.chainHash.isSome :=
  fun _ hr => (List.mem_filter.mp hr).2

theorem Intact.entries_eq {log : EventLog} (hi : Intact srv sha256 log) :
    log.entries = log.hashed.map fun r => (chainEnvelope r.event, r.hash) := by
  unfold entries
  rw [hi.chained_eq]
  exact filterMap_hashed (fun r h => (chainEnvelope r.event, h)) hashed_isSome

def exported (log : EventLog) : List (Obj × String) :=
  (exportLines log).map fun line => (line.event, line.chainHash)

theorem Intact.exported_eq {log : EventLog} (hi : Intact srv sha256 log) :
    log.exported = log.hashed.map fun r => ((exportRow r.row r.hash).event, r.hash) := by
  unfold exported exportLines fetchChained
  rw [hi.chained_eq, filterMap_hashed (fun r h => (r.row, h)) hashed_isSome, List.map_map,
    List.map_map]
  rfl

/-- The export of an intact log verifies exactly where the events of its chained rows spell their ids
canonically. -/
theorem Intact.verifyExport_iff {log : EventLog} (hi : Intact srv sha256 log)
    (hlen : ∀ m, (sha256 m).length = 64) (hjsonb : ∀ j, (srv.jsonb j).SameValue j)
    (hinj : Set.InjOn sha256 (hashedStrings log.entries ∪ hashedStrings log.exported)) :
    verifyExport sha256 (exportLines log) = [] ↔ ∀ r ∈ log.hashed, CanonicalId r.event := by
  show verifyChain sha256 log.exported = [] ↔ _
  have hchain := hi.chain
  rw [verifyChain_eq_nil_iff]
  rw [hi.entries_eq] at hchain hinj
  rw [hi.exported_eq] at hinj ⊢
  have hprev := hchain.links_prev (P := fun h => h.length = 71) genesisHash_length
    (chainHash_length hlen)
  refine chained_map_iff hchain ?_
  intro p r hr hf hg
  rw [← canonicalEvent_exportRow_iff hjsonb (hi.persisted r hr) r.hash]
  refine ⟨?_, fun h => by rw [chainHash, chainHash, h]⟩
  intro h
  have hp := hprev _ hf
  exact (chainHash_split _ hinj hp hp (Or.inl ⟨_, hf, rfl⟩) (Or.inr ⟨_, hg, rfl⟩) h).2

/-! ## Calls of `record_event` -/

/-- The events of a sequence whose id is not taken when they come. -/
def firsts (taken : List Uuid) : List Event → List Event
  | [] => []
  | event :: events =>
    match asUuid event.id with
    | none => firsts taken events
    | some u => if u ∈ taken then firsts taken events else event :: firsts (taken ++ [u]) events

def ids (log : EventLog) : List Uuid := log.records.map fun r => r.row.id

/-- One call: nothing but a value of `seq` is used up where the id is taken, else the event gets a row
at the end of the chain. -/
theorem recordEvent_spec {log log' : EventLog} {now : String} {event : Event}
    (hi : Intact srv sha256 log) (h : recordEvent srv sha256 log now event = some log') :
    Intact srv sha256 log' ∧ ∃ u, asUuid event.id = some u ∧
      ((u ∈ log.ids ∧ log'.ids = log.ids ∧ log'.hashed = log.hashed) ∨
        (u ∉ log.ids ∧ log'.ids = log.ids ++ [u] ∧
          log'.hashed.map Record.event = log.hashed.map Record.event ++ [event])) := by
  obtain ⟨record, hins, rfl⟩ := Option.map_eq_some_iff.mp h
  obtain ⟨row, hrow, hcase⟩ := insertion_spec hins
  obtain ⟨-, hhash, hpersisted⟩ := rowOf_spec hrow
  rcases hcase with ⟨rfl, r, hr, hid⟩ | ⟨rfl, hfresh⟩
  · have hsame : log.append none = log := by
      simp [EventLog.append]
    rw [hsame]
    refine ⟨hi.draw, row.id, hpersisted.id, Or.inl ⟨?_, rfl, rfl⟩⟩
    exact List.mem_map.mpr ⟨r, hr, hid⟩
  · have hready := ready_of_insertion hi hins
    refine ⟨hi.draw.append hready, row.id, hpersisted.id, Or.inr ⟨?_, ?_, ?_⟩⟩
    · intro hmem
      obtain ⟨r, hr, hid⟩ := List.mem_map.mp hmem
      exact hfresh r hr hid
    · simp [ids, EventLog.append]
    · have hhashed : (log.append (some ⟨row, event⟩)).hashed = log.hashed ++ [⟨row, event⟩] :=
        hashed_append (by rw [hhash]; rfl)
      show (log.append (some ⟨row, event⟩)).hashed.map Record.event = _
      rw [hhashed, List.map_append]
      rfl

/-- The chained rows are those of the events that came first with their ids. -/
theorem recordAll_spec {log log' : EventLog} {events : List (String × Event)}
    (hi : Intact srv sha256 log) (h : recordAll srv sha256 log events = some log') :
    Intact srv sha256 log' ∧ log'.hashed.map Record.event =
      log.hashed.map Record.event ++ firsts log.ids (events.map Prod.snd) := by
  induction events generalizing log with
  | nil =>
    injection h with h
    subst h
    exact ⟨hi, (List.append_nil _).symm⟩
  | cons x events ih =>
    obtain ⟨now, event⟩ := x
    obtain ⟨log₁, hstep, hrest⟩ := Option.bind_eq_some_iff.mp h
    obtain ⟨hi₁, u, hu, hcase⟩ := recordEvent_spec hi hstep
    obtain ⟨hi', hevents⟩ := ih hi₁ hrest
    refine ⟨hi', ?_⟩
    rw [hevents, List.map_cons, firsts, hu]
    simp only
    rcases hcase with ⟨hmem, hids, hsame⟩ | ⟨hmem, hids, hnew⟩
    · rw [if_pos hmem, hids, hsame]
    · rw [if_neg hmem, hids, hnew, List.append_assoc]
      rfl

/-- A call that is not disturbed is the transaction of a writer who finds the lock free. -/
theorem run_alone {ι : Type} [DecidableEq ι] {s : System ι} {w : ι} {now : String} {event : Event}
    {log' : EventLog} (hfree : s.lock = none) (hidle : s.writers w = .idle)
    (h : recordEvent srv sha256 s.log now event = some log') :
    ∃ s', run srv sha256 s [.begin w now event, .lock w, .readTip w, .insert w, .commit w] = some s' ∧
      s'.log = log' ∧ s'.lock = none ∧ s'.done = s.done ++ [event] := by
  obtain ⟨record, hins, rfl⟩ := Option.map_eq_some_iff.mp h
  simp [run, step, System.goto, System.finish, hfree, hidle, hins, EventLog.append]

/-- **An untampered log verifies exactly while ids are canonical.** Whatever sequence of events is
accepted, from any table that predates the chain: the export verifies, and every envelope rebuilt from
a row has the canonical text that was hashed, if and only if every event that came first with its id
spells it as `str(uuid)` does. -/
theorem export_verifies_iff_canonical_ids (hlen : ∀ m, (sha256 m).length = 64)
    (hjsonb : ∀ j, (srv.jsonb j).SameValue j) {start log : EventLog} (hstart : PreChain start)
    (events : List (String × Event)) (hrec : recordAll srv sha256 start events = some log)
    (hinj : Set.InjOn sha256 (hashedStrings log.entries ∪ hashedStrings log.exported)) :
    (verifyExport sha256 (exportLines log) = [] ↔
      ∀ event ∈ firsts start.ids (events.map Prod.snd), CanonicalId event) ∧
    ((∀ r ∈ log.chained, canonicalEvent (chainEnvelope r.event) =
        canonicalEvent (exportRow r.row r.hash).event) ↔
      ∀ event ∈ firsts start.ids (events.map Prod.snd), CanonicalId event) := by
  obtain ⟨hi, hevents⟩ := recordAll_spec hstart.intact hrec
  rw [hstart.hashed_eq_nil, List.map_nil, List.nil_append] at hevents
  have hcond : (∀ r ∈ log.hashed, CanonicalId r.event) ↔
      ∀ event ∈ firsts start.ids (events.map Prod.snd), CanonicalId event := by
    rw [← hevents]
    exact List.forall_mem_map.symm
  refine ⟨(hi.verifyExport_iff hlen hjsonb hinj).trans hcond, ?_⟩
  rw [hi.chained_eq, ← hcond]
  refine forall₂_congr ?_
  intro r hr
  exact canonicalEvent_exportRow_iff hjsonb (hi.persisted r hr) r.hash

/-! ## An id in capitals -/

/-- An event whose id is accepted, and is not how `str(uuid)` spells it. -/
def capitalCompletion : Event := completionEvent "00000000-0000-0000-0000-0000000000AB" "wo-0"

/-- SHA-256 on the strings hashed for it at the insert and at the verification, and some other digest
elsewhere. -/
def capitalDigest (m : String) : String :=
  if m = genesisHash ++ "\n" ++
      "\x7b\"correlation_id\":null,\"id\":\"00000000-0000-0000-0000-0000000000AB\",\"payload\":\x7b\"work_order_id\":\"wo-0\"\x7d" ++
      ",\"schema_version\":1,\"source\":\"forge\",\"subject\":\"forge.completed\",\"tenant_id\":\"tenant-acme\"\x7d" then
    "b2d374ad7d76319b34184eeed4b075f94586e9b9a20e1fe7001feaeac8d18cb2"
  else if m = genesisHash ++ "\n" ++
      "\x7b\"correlation_id\":null,\"id\":\"00000000-0000-0000-0000-0000000000ab\",\"payload\":\x7b\"work_order_id\":\"wo-0\"\x7d" ++
      ",\"schema_version\":1,\"source\":\"forge\",\"subject\":\"forge.completed\",\"tenant_id\":\"tenant-acme\"\x7d" then
    "e1f54014dc304681294a902b7d9efcb3060e373451a771477057e611999de35b"
  else String.ofList (List.replicate 64 'f')

/-- The event is recorded, and the export of the log does not verify. -/
theorem capital_id_breaks_export :
    ∃ log, recordAll plainServer capitalDigest {} [("t0", capitalCompletion)] = some log ∧
      verifyExport capitalDigest (exportLines log) ≠ [] := by
  refine ⟨_, rfl, ?_⟩
  decide +kernel

/-- The hypotheses of `export_verifies_iff_canonical_ids` hold for a completion with a canonical id. -/
theorem export_verifies_firstCompletion :
    ∃ log, recordAll plainServer completionDigest {} [("t0", firstCompletion)] = some log ∧
      verifyExport completionDigest (exportLines log) = [] := by
  have hstart : PreChain {} := ⟨by simp, by simp, by simp⟩
  have hjsonb : ∀ j, (plainServer.jsonb j).SameValue j := fun _ => rfl
  have hcanonical : CanonicalId firstCompletion := by decide +kernel
  obtain ⟨log, hrec⟩ : ∃ log, recordAll plainServer completionDigest {} [("t0", firstCompletion)] =
      some log := ⟨_, rfl⟩
  obtain ⟨hi, hevents⟩ := recordAll_spec hstart.intact hrec
  -- there is one row, and both times the same string is hashed for it
  obtain ⟨r, hr⟩ : ∃ r, log.hashed = [r] := by
    refine List.length_eq_one_iff.mp ?_
    rw [← List.length_map Record.event, hevents]
    decide +kernel
  have hevent : r.event = firstCompletion := by
    rw [hr] at hevents
    have hfirsts : firsts (ids {}) ([("t0", firstCompletion)].map Prod.snd) = [firstCompletion] := by
      decide +kernel
    rw [hfirsts] at hevents
    simpa [hashed] using hevents
  have hsame : canonicalEvent (chainEnvelope r.event) = canonicalEvent (exportRow r.row r.hash).event :=
    (canonicalEvent_exportRow_iff hjsonb (hi.persisted r (by rw [hr]; simp)) r.hash).mpr
      (hevent ▸ hcanonical)
  have hinj : Set.InjOn completionDigest (hashedStrings log.entries ∪ hashedStrings log.exported) := by
    refine Set.Subsingleton.injOn ?_ _
    have hall : ∀ m ∈ hashedStrings log.entries ∪ hashedStrings log.exported,
        m = genesisHash ++ "\n" ++ canonicalEvent (chainEnvelope r.event) := by
      rw [hi.entries_eq, hi.exported_eq, hr]
      rintro m (⟨x, hx, rfl⟩ | ⟨x, hx, rfl⟩)
      · rw [List.mem_singleton.mp hx]
      · rw [List.mem_singleton.mp hx, hsame]
    intro m hm m' hm'
    rw [hall m hm, hall m' hm']
  refine ⟨log, hrec, ((export_verifies_iff_canonical_ids completionDigest_length hjsonb hstart _ hrec
    hinj).1).mpr ?_⟩
  decide +kernel

end EventLog

end CaviErp
