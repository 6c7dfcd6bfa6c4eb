import CaviErp.Shared.EventLog
import CaviErp.Shared.Proofs.EventsProofs

/-!
# Concurrent writers keep one chain

Only the holder of the advisory lock reads the tip, inserts and commits, so the tip it read is still the
tip when it commits. `Intact` says what holds of the table alone, `Inv` ties it to the transactions in
flight.
-/

namespace CaviErp

open Py HashChain

namespace EventLog

variable {srv : Server} {sha256 : String → String}

/-! ## What an insert writes -/

/-- The columns of a row keep an event. -/
structure Persisted (srv : Server) (event : Event) (row : EventRow) : Prop where
  id : asUuid event.id = some row.id
  subject : event.subject = .str row.subject
  schemaVersion : event.schemaVersion = .int row.schemaVersion
  source : event.source = .str row.source
  correlationId : row.correlationId = asUuid event.correlationId
  tenantId : event.tenantId = (row.tenantId.map Json.str).getD .null
  payload : row.payload = srv.jsonb event.payload

theorem text?_eq_some {j : Json} {s : String} (h : text? j = some s) : j = .str s := by
  cases j <;> simp_all [text?]

theorem nullableText?_eq_some {j : Json} {s : Option String} (h : nullableText? j = some s) :
    j = (s.map Json.str).getD .null := by
  cases j <;> simp [nullableText?] at h <;> subst h <;> rfl

theorem integer?_eq_some {j : Json} {n : Int} (h : integer? j = some n) : j = .int n := by
  cases j <;> simp_all [integer?]

theorem rowOf_spec {seq : Nat} {now prev : String} {event : Event} {row : EventRow}
    (h : rowOf srv sha256 seq now prev event = some row) :
    row.seq = seq ∧ row.chainHash = some (chainHash sha256 prev (chainEnvelope event)) ∧
      Persisted srv event row := by
  simp only [rowOf, Option.bind_eq_bind, Option.bind_eq_some_iff] at h
  obtain ⟨id, hid, subject, hsubject, version, hversion, source, hsource, tenant, htenant, h⟩ := h
  split at h
  · injection h with h
    subst h
    exact ⟨rfl, rfl, hid, text?_eq_some hsubject, integer?_eq_some hversion, text?_eq_some hsource,
      rfl, nullableText?_eq_some htenant, rfl⟩
  · cases h

theorem insertion_spec {log : EventLog} {now prev : String} {event : Event} {record : Option Record}
    (h : insertion srv sha256 log now prev event = some record) :
    ∃ row, rowOf srv sha256 log.nextSeq now prev event = some row ∧
      ((record = none ∧ ∃ r ∈ log.records, r.row.id = row.id) ∨
        (record = some ⟨row, event⟩ ∧ ∀ r ∈ log.records, r.row.id ≠ row.id)) := by
  simp only [insertion, Option.map_eq_some_iff] at h
  obtain ⟨row, hrow, hrecord⟩ := h
  refine ⟨row, hrow, ?_⟩
  split at hrecord
  · rename_i htaken
    obtain ⟨r, hr, hid⟩ := List.any_eq_true.mp htaken
    exact Or.inl ⟨hrecord.symm, r, hr, of_decide_eq_true hid⟩
  · rename_i hfree
    refine Or.inr ⟨hrecord.symm, ?_⟩
    intro r hr hid
    exact hfree (List.any_eq_true.mpr ⟨r, hr, decide_eq_true hid⟩)

/-! ## The table -/

/-- The rows that carry a chain hash, in the order of their inserts. -/
def hashed (log : EventLog) : List Record := log.records.filter fun r => r.row.chainHash.isSome

/-- What holds of the committed rows. -/
structure Intact (srv : Server) (sha256 : String → String) (log : EventLog) : Prop where
  sorted : log.hashed.Pairwise fun a b => a.row.seq < b.row.seq
  below : ∀ r ∈ log.records, r.row.seq < log.nextSeq
  ids : (log.records.map fun r => r.row.id).Nodup
  chain : Chained (chainHash sha256) genesisHash log.entries
  persisted : ∀ r ∈ log.hashed, Persisted srv r.event r.row

/-- The log from before migration 0004: no row has a chain hash. -/
structure PreChain (log : EventLog) : Prop where
  unchained : ∀ r ∈ log.records, r.row.chainHash = none
  below : ∀ r ∈ log.records, r.row.seq < log.nextSeq
  ids : (log.records.map fun r => r.row.id).Nodup

/-- Rows that are inserted in the order of `seq` are read in that order. -/
theorem chained_eq_hashed {log : EventLog}
    (h : log.hashed.Pairwise fun a b => a.row.seq < b.row.seq) : log.chained = log.hashed :=
  (h.imp fun hlt => Nat.le_of_lt hlt).insertionSort_eq

theorem getLast?_filterMap_entry {l : List Record} (h : ∀ r ∈ l, r.row.chainHash.isSome) :
    (l.filterMap Record.entry?).getLast? = l.getLast?.bind Record.entry? := by
  rcases List.eq_nil_or_concat l with rfl | ⟨l, r, rfl⟩
  · rfl
  · obtain ⟨hash, hhash⟩ := Option.isSome_iff_exists.mp (h r (by simp))
    simp [List.filterMap_append, Record.entry?, hhash]

theorem tip_eq (log : EventLog) : log.tip = HashChain.tip genesisHash log.entries := by
  have hall : ∀ r ∈ log.chained, r.row.chainHash.isSome := by
    intro r hr
    have hr' := (List.perm_insertionSort _ _).mem_iff.mp hr
    exact (List.mem_filter.mp hr').2
  unfold EventLog.tip HashChain.tip entries
  rw [getLast?_filterMap_entry hall]
  cases log.chained.getLast? with
  | none => rfl
  | some r => cases hr : r.row.chainHash <;> simp [Record.entry?, hr]

theorem PreChain.hashed_eq_nil {log : EventLog} (h : PreChain log) : log.hashed = [] := by
  refine List.filter_eq_nil_iff.mpr ?_
  intro r hr
  simp [h.unchained r hr]

theorem PreChain.intact {log : EventLog} (h : PreChain log) : Intact srv sha256 log where
  sorted := by rw [h.hashed_eq_nil]; exact List.Pairwise.nil
  below := h.below
  ids := h.ids
  chain := by
    have hentries : log.entries = [] := by
      rw [entries, chained_eq_hashed (by rw [h.hashed_eq_nil]; exact List.Pairwise.nil),
        h.hashed_eq_nil]
      rfl
    rw [hentries]
    trivial
  persisted := by rw [h.hashed_eq_nil]; simp

/-- A row that is inserted and not committed would extend the chain. -/
structure Ready (srv : Server) (sha256 : String → String) (log : EventLog) (event : Event)
    (r : Record) : Prop where
  event_eq : r.event = event
  persisted : Persisted srv event r.row
  hash : r.row.chainHash = some (chainHash sha256 log.tip (chainEnvelope event))
  above : ∀ r' ∈ log.records, r'.row.seq < r.row.seq
  below : r.row.seq < log.nextSeq
  fresh : ∀ r' ∈ log.records, r'.row.id ≠ r.row.id

theorem hashed_append {log : EventLog} {r : Record} (h : r.row.chainHash.isSome) :
    (log.append (some r)).hashed = log.hashed ++ [r] := by
  simp [hashed, append, List.filter_append, h]

theorem Intact.append {log : EventLog} {event : Event} {r : Record} (hi : Intact srv sha256 log)
    (hr : Ready srv sha256 log event r) : Intact srv sha256 (log.append (some r)) := by
  have hhashed : (log.append (some r)).hashed = log.hashed ++ [r] :=
    hashed_append (by rw [hr.hash]; rfl)
  have hsub : ∀ r' ∈ log.hashed, r' ∈ log.records := fun r' h => (List.mem_filter.mp h).1
  have hsorted : (log.append (some r)).hashed.Pairwise fun a b => a.row.seq < b.row.seq := by
    rw [hhashed, List.pairwise_append]
    refine ⟨hi.sorted, List.pairwise_singleton _ _, ?_⟩
    intro a ha b hb
    rw [List.mem_singleton.mp hb]
    exact hr.above a (hsub a ha)
  have hentries : (log.append (some r)).entries =
      log.entries ++ [(chainEnvelope event, chainHash sha256 log.tip (chainEnvelope event))] := by
    unfold entries
    rw [chained_eq_hashed hsorted, chained_eq_hashed hi.sorted, hhashed, List.filterMap_append]
    simp [Record.entry?, hr.hash, hr.event_eq]
  refine ⟨hsorted, ?_, ?_, ?_, ?_⟩
  · intro r' hr'
    rcases List.mem_append.mp hr' with h | h
    · exact hi.below r' h
    · rw [List.mem_singleton.mp h]
      exact hr.below
  · show ((log.records ++ [r]).map fun r => r.row.id).Nodup
    rw [List.map_append, List.nodup_append]
    refine ⟨hi.ids, by simp, ?_⟩
    intro a ha b hb
    obtain ⟨r', hr', rfl⟩ := List.mem_map.mp ha
    rw [List.map_singleton, List.mem_singleton] at hb
    rw [hb]
    exact hr.fresh r' hr'
  · rw [hentries, chained_snoc, ← tip_eq]
    exact ⟨hi.chain, rfl⟩
  · intro r' hr'
    rw [hhashed] at hr'
    rcases List.mem_append.mp hr' with h | h
    · exact hi.persisted r' h
    · rw [List.mem_singleton.mp h, hr.event_eq]
      exact hr.persisted

theorem Intact.draw {log : EventLog} (hi : Intact srv sha256 log) :
    Intact srv sha256 { log with nextSeq := log.nextSeq + 1 } :=
  ⟨hi.sorted, fun r hr => Nat.lt_succ_of_lt (hi.below r hr), hi.ids, hi.chain, hi.persisted⟩

theorem ready_of_insertion {log : EventLog} {now : String} {event : Event} {r : Record}
    (hi : Intact srv sha256 log)
    (h : insertion srv sha256 log now log.tip event = some (some r)) :
    Ready srv sha256 { log with nextSeq := log.nextSeq + 1 } event r := by
  obtain ⟨row, hrow, ⟨hnone, -⟩ | ⟨hsome, hfresh⟩⟩ := insertion_spec h
  · cases hnone
  · injection hsome with hsome
    subst hsome
    obtain ⟨hseq, hhash, hpersisted⟩ := rowOf_spec hrow
    refine ⟨rfl, hpersisted, hhash, ?_, ?_, hfresh⟩
    · intro r' hr'
      show r'.row.seq < row.seq
      rw [hseq]
      exact hi.below r' hr'
    · show row.seq < log.nextSeq + 1
      omega

/-! ## The transactions in flight -/

/-- What the phase of a transaction says about the committed rows. -/
def PhaseOk (srv : Server) (sha256 : String → String) (log : EventLog) : Phase → Prop
  | .tipRead _ _ prev => prev = log.tip
  | .inserted event none => ∃ r ∈ log.records, asUuid event.id = some r.row.id
  | .inserted event (some r) => Ready srv sha256 log event r
  | _ => True

theorem phaseOk_of_not_holdsLock {log : EventLog} {phase : Phase} (h : phase.holdsLock = false) :
    PhaseOk srv sha256 log phase := by
  cases phase <;> simp_all [Phase.holdsLock, PhaseOk]

theorem PhaseOk.draw {log : EventLog} {phase : Phase} (h : PhaseOk srv sha256 log phase) :
    PhaseOk srv sha256 { log with nextSeq := log.nextSeq + 1 } phase := by
  cases phase with
  | tipRead now event prev => exact h
  | inserted event record =>
    cases record with
    | none => exact h
    | some r =>
      obtain ⟨hevent, hpersisted, hhash, habove, hbelow, hfresh⟩ := h
      exact ⟨hevent, hpersisted, hhash, habove, Nat.lt_succ_of_lt hbelow, hfresh⟩
  | _ => trivial

variable {ι : Type}

/-- What holds of the server in every state, with the rows it started from. -/
structure Inv (srv : Server) (sha256 : String → String) (start : EventLog) (s : System ι) : Prop where
  intact : Intact srv sha256 s.log
  /-- The lock is exclusive. -/
  owner : ∀ w, (s.writers w).holdsLock → s.lock = some w
  phase : ∀ w, PhaseOk srv sha256 s.log (s.writers w)
  done : ∀ event ∈ s.done, ∃ r ∈ s.log.records, asUuid event.id = some r.row.id
  /-- Every row without a hash was there before. -/
  old : ∀ r ∈ s.log.records, r.row.chainHash = none → r ∈ start.records

theorem inv_start {start : EventLog} (h : PreChain start) :
    Inv srv sha256 start ({ log := start } : System ι) where
  intact := h.intact
  owner := by simp [Phase.holdsLock]
  phase := fun _ => trivial
  done := by simp
  old := fun r hr _ => hr

theorem Inv.draw {start : EventLog} {s : System ι} (hi : Inv srv sha256 start s) :
    Inv srv sha256 start { s with log := { s.log with nextSeq := s.log.nextSeq + 1 } } :=
  ⟨hi.intact.draw, hi.owner, fun w => (hi.phase w).draw, hi.done, hi.old⟩

variable [DecidableEq ι]

/-- A writer goes on to another phase, while the rows stay and the lock changes hands at most to it. -/
theorem Inv.goto {start : EventLog} {s : System ι} (hi : Inv srv sha256 start s) (w : ι)
    (phase : Phase) (lock : Option ι) (hphase : PhaseOk srv sha256 s.log phase)
    (hown : phase.holdsLock → lock = some w)
    (hother : ∀ w' ≠ w, (s.writers w').holdsLock → lock = some w') :
    Inv srv sha256 start { s.goto w phase with lock := lock } := by
  refine ⟨hi.intact, ?_, ?_, hi.done, hi.old⟩
  · intro w' hw'
    by_cases h : w' = w
    · subst h
      simp only [System.goto, Function.update_self] at hw'
      exact hown hw'
    · simp only [System.goto, Function.update_of_ne h] at hw'
      exact hother w' h hw'
  · intro w'
    by_cases h : w' = w
    · subst h
      simpa only [System.goto, Function.update_self] using hphase
    · simpa only [System.goto, Function.update_of_ne h] using hi.phase w'

theorem Inv.finish {start : EventLog} {s : System ι} (hi : Inv srv sha256 start s) (w : ι) :
    Inv srv sha256 start (s.finish w) := by
  refine hi.goto w .idle _ trivial (by simp [Phase.holdsLock]) ?_
  intro w' hne hw'
  have hlock := hi.owner w' hw'
  rw [if_neg]
  · exact hlock
  · rw [hlock]
    intro h
    injection h with h
    exact hne h

/-- The row of a conflict is there, a new row extends the chain; either way the id is present. -/
theorem Inv.commit {start : EventLog} {s : System ι} (hi : Inv srv sha256 start s) {w : ι}
    {event : Event} {record : Option Record} (hw : s.writers w = .inserted event record) :
    Inv srv sha256 start
      { s.finish w with log := s.log.append record, done := s.done ++ [event] } := by
  have hfin := hi.finish w
  have hok : PhaseOk srv sha256 s.log (.inserted event record) := hw ▸ hi.phase w
  -- nobody else holds the lock, so nobody else relies on the rows
  have hothers : ∀ w', ((s.finish w).writers w').holdsLock = false := by
    intro w'
    by_cases h : w' = w
    · subst h
      simp [System.finish, System.goto, Phase.holdsLock]
    · have hlock : s.lock = some w := hi.owner w (by rw [hw]; rfl)
      have hwr : (s.finish w).writers w' = s.writers w' := by
        simp only [System.finish, System.goto, Function.update_of_ne h]
      rw [hwr]
      by_contra hheld
      have hlock' := hi.owner w' (by simpa using hheld)
      rw [hlock] at hlock'
      injection hlock' with hlock'
      exact h hlock'.symm
  have hold : ∀ r ∈ s.log.records, r ∈ (s.log.append record).records :=
    fun r hr => List.mem_append_left _ hr
  have hpresent : ∃ r ∈ (s.log.append record).records, asUuid event.id = some r.row.id := by
    cases record with
    | none =>
      obtain ⟨r, hr, hid⟩ := hok
      exact ⟨r, hold r hr, hid⟩
    | some r => exact ⟨r, List.mem_append_right _ (by simp), hok.persisted.id⟩
  refine ⟨?_, hfin.owner, ?_, ?_, ?_⟩
  · cases record with
    | none =>
      have hsame : s.log.append none = s.log := by
        simp [EventLog.append]
      show Intact srv sha256 (s.log.append none)
      rw [hsame]
      exact hi.intact
    | some r => exact hi.intact.append hok
  · intro w'
    exact phaseOk_of_not_holdsLock (hothers w')
  · intro e he
    rcases List.mem_append.mp he with he | he
    · obtain ⟨r, hr, hid⟩ := hi.done e he
      exact ⟨r, hold r hr, hid⟩
    · rw [List.mem_singleton.mp he]
      exact hpresent
  · intro r hr hnull
    rcases List.mem_append.mp hr with hr | hr
    · exact hi.old r hr hnull
    · cases record with
      | none => simp at hr
      | some r' =>
        have hr' : r = r' := by simpa using hr
        rw [hr', hok.hash] at hnull
        cases hnull

/-- One statement of one writer. -/
theorem Inv.step {start : EventLog} {s s' : System ι} (hi : Inv srv sha256 start s) {act : Act ι}
    (h : step srv sha256 s act = some s') : Inv srv sha256 start s' := by
  cases act with
  | begin w now event =>
    simp only [EventLog.step] at h
    split at h
    · injection h with h
      subst h
      refine hi.goto w (.begun now event) s.lock trivial (by simp [Phase.holdsLock]) ?_
      intro w' _ hw'
      exact hi.owner w' hw'
    · cases h
  | lock w =>
    simp only [EventLog.step] at h
    split at h
    · rename_i now event hphase hfree
      injection h with h
      subst h
      refine hi.goto w (.locked now event) (some w) trivial (fun _ => rfl) ?_
      -- the lock was free, so nobody held it
      intro w' _ hw'
      have hlock := hi.owner w' hw'
      rw [hfree] at hlock
      cases hlock
    · cases h
  | readTip w =>
    simp only [EventLog.step] at h
    split at h
    · rename_i now event hphase
      injection h with h
      subst h
      refine hi.goto w (.tipRead now event s.log.tip) s.lock rfl ?_ ?_
      · intro _
        exact hi.owner w (by rw [hphase]; rfl)
      · intro w' _ hw'
        exact hi.owner w' hw'
    · cases h
  | insert w =>
    simp only [EventLog.step] at h
    split at h
    · rename_i now event prev hphase
      split at h
      · rename_i record hins
        injection h with h
        subst h
        have hprev : prev = s.log.tip := by
          have hok := hi.phase w
          rw [hphase] at hok
          exact hok
        subst hprev
        have hlock : s.lock = some w := hi.owner w (by rw [hphase]; rfl)
        refine hi.draw.goto w (.inserted event record) s.lock ?_ (fun _ => hlock)
          (fun w' _ hw' => hi.owner w' hw')
        cases record with
        | none =>
          obtain ⟨row, hrow, ⟨-, r, hr, hid⟩ | ⟨hsome, -⟩⟩ := insertion_spec hins
          · refine ⟨r, hr, ?_⟩
            rw [hid]
            exact (rowOf_spec hrow).2.2.id
          · cases hsome
        | some r => exact ready_of_insertion hi.intact hins
      · cases h
    · cases h
  | commit w =>
    simp only [EventLog.step] at h
    split at h
    · rename_i event record hphase
      injection h with h
      subst h
      exact hi.commit hphase
    · cases h
  | abort w =>
    simp only [EventLog.step] at h
    split at h
    · cases h
    · injection h with h
      subst h
      exact hi.finish w
  | burn =>
    injection h with h
    subst h
    exact hi.draw

/-- Any number of statements, in any interleaving. -/
theorem Inv.run {start : EventLog} {acts : List (Act ι)} {s s' : System ι}
    (hi : Inv srv sha256 start s) (h : run srv sha256 s acts = some s') :
    Inv srv sha256 start s' := by
  induction acts generalizing s with
  | nil =>
    injection h with h
    exact h ▸ hi
  | cons act acts ih =>
    obtain ⟨s₁, hstep, hrest⟩ := Option.bind_eq_some_iff.mp h
    exact ih (hi.step hstep) hrest

/-- **Concurrent writers cannot fork the chain.** From any table whose rows all predate the chain, after
any interleaving of the statements of any number of writers: the committed rows with a chain hash, in
the order of `seq` and each with the envelope hashed at its insert, verify; no id is there twice; and
the id of every committed transaction is there, in a row of the chain unless it was a conflict with a
row from before the chain. -/
theorem concurrent_writers_keep_chain (srv : Server) (sha256 : String → String) {start : EventLog}
    (hstart : PreChain start) (acts : List (Act ι)) (s : System ι)
    (hrun : run srv sha256 { log := start } acts = some s) :
    verifyChain sha256 s.log.entries = [] ∧
      (s.log.records.map fun r => r.row.id).Nodup ∧
      ∀ event ∈ s.done, ∃ r ∈ s.log.records, asUuid event.id = some r.row.id ∧
        (r ∈ s.log.chained ∨ r ∈ start.records) := by
  have hi : Inv srv sha256 start s := (inv_start hstart).run hrun
  refine ⟨(verifyChain_eq_nil_iff _).mpr hi.intact.chain, hi.intact.ids, ?_⟩
  intro event hevent
  obtain ⟨r, hr, hid⟩ := hi.done event hevent
  refine ⟨r, hr, hid, ?_⟩
  cases hhash : r.row.chainHash with
  | none => exact Or.inr (hi.old r hr hhash)
  | some h =>
    refine Or.inl ?_
    rw [chained_eq_hashed hi.intact.sorted]
    exact List.mem_filter.mpr ⟨hr, by simp [hhash]⟩

/-- A server that accepts the rows and returns `JSONB` as it was written. -/
def plainServer : Server where
  accepts := fun _ => true
  jsonb := id

/-- Two writers whose transactions overlap, and a redelivery. -/
def overlappingActs : List (Act Bool) :=
  [.begin false "t0" firstCompletion, .begin true "t1" secondCompletion, .lock false,
    .readTip false, .insert false, .commit false, .lock true, .readTip true, .insert true,
    .begin false "t2" firstCompletion, .commit true, .lock false, .readTip false, .insert false,
    .commit false]

/-- The hypotheses of `concurrent_writers_keep_chain` hold for them; the redelivery adds no row. -/
theorem overlapping_writers_keep_chain :
    ∃ s, run plainServer completionDigest { log := {} } overlappingActs = some s ∧
      s.done = [firstCompletion, secondCompletion, firstCompletion] ∧ s.log.records.length = 2 ∧
      verifyChain completionDigest s.log.entries = [] := by
  have hrun : ∃ s, run plainServer completionDigest { log := {} } overlappingActs = some s ∧
      s.done = [firstCompletion, secondCompletion, firstCompletion] ∧
      s.log.records.length = 2 := ⟨_, rfl, rfl, rfl⟩
  obtain ⟨s, hs, hdone, hrows⟩ := hrun
  have hstart : PreChain {} := ⟨by simp, by simp, by simp⟩
  exact ⟨s, hs, hdone, hrows, (concurrent_writers_keep_chain _ _ hstart _ s hs).1⟩

end EventLog

end CaviErp
