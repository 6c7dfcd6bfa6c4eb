import CaviErp.Ledger.Proofs.TenantProofs
import CaviErp.Ledger.Transactions

/-!
# Concurrent posts keep the journal atomic

A transaction that has inserted a head holds its id until it ends, so no other transaction inserts the id
meanwhile. Whatever the interleaving, the committed posts are therefore those of a serial run in the order
of the commits, and what is known of serial runs holds of the tables.
-/

namespace CaviErp

open Py FirstWriter

namespace Postgres

namespace Database

variable {ι κ : Type} [DecidableEq κ] {srv : Server κ}

/-! ## The transactions in flight -/

/-- What a transaction has written and not committed. -/
structure Writes (srv : Server κ) (db : Database ι κ) (client : ι) (entry : JournalEntry)
    (head : EntryRow κ) (lines : List (StoredLine κ)) (rest : List JournalLine) : Prop where
  balanced : entry.isBalanced = true
  row : entryRow srv entry = some head
  holds : db.holder head.entryId = some client
  free : ∀ row ∈ db.entries, row.entryId ≠ head.entryId
  inserted : ∃ done, entry.lines = done ++ rest ∧
    done.mapM (lineRow srv head) = some (lines.map StoredLine.row)
  sorted : lines.Pairwise fun a b => a.id < b.id
  drawn : ∀ line ∈ lines, line.id < db.nextId

/-- What the session of a client says about the server. -/
def SessionOk (srv : Server κ) (db : Database ι κ) (client : ι) : Session κ → Prop
  | .idle => True
  | .begun entry => entry.isBalanced = true
  | .writing entry head lines rest => Writes srv db client entry head lines rest
  | .present entry => entry.isBalanced = true ∧ ∃ head, entryRow srv entry = some head ∧
      ∃ row ∈ db.entries, row.entryId = head.entryId

/-- A session stays in order while others commit heads with ids that it does not hold. -/
theorem SessionOk.transfer {db db' : Database ι κ} {client : ι} {session : Session κ}
    (h : SessionOk srv db client session) (hentries : ∀ row ∈ db.entries, row ∈ db'.entries)
    (hnew : ∀ row ∈ db'.entries, row ∉ db.entries → db.holder row.entryId ≠ some client)
    (hholder : ∀ k, db.holder k = some client → db'.holder k = some client)
    (hnext : db.nextId ≤ db'.nextId) : SessionOk srv db' client session := by
  cases session with
  | idle => trivial
  | begun entry => exact h
  | writing entry head lines rest =>
    obtain ⟨hbalanced, hrow, hholds, hfree, hinserted, hsorted, hdrawn⟩ := h
    refine ⟨hbalanced, hrow, hholder _ hholds, ?_, hinserted, hsorted, ?_⟩
    · intro row hmem heq
      by_cases hold : row ∈ db.entries
      · exact hfree row hold heq
      · exact hnew row hmem hold (heq ▸ hholds)
    · intro line hline
      exact lt_of_lt_of_le (hdrawn line hline) hnext
  | present entry =>
    obtain ⟨hbalanced, head, hrow, row, hmem, hid⟩ := h
    exact ⟨hbalanced, head, hrow, row, hentries row hmem, hid⟩

/-- What a committed post returned. -/
def answer (post : JournalEntry × Bool) : JournalEntry × Except PyError PostResult :=
  (post.1, .ok (postResult post.1 (if post.2 then .posted else .duplicate)))

/-- What holds of the server in every state. -/
structure Inv (srv : Server κ) (db : Database ι κ) : Prop where
  /-- The committed posts are those of a serial run in the order of the commits. -/
  serial : Ledger.postAll (store srv) {} (db.committed.map Prod.fst) =
    (db.committed.map answer, db.tables)
  sessions : ∀ client, SessionOk srv db client (db.sessions client)
  /-- The committed lines under an id stand in the order of their serial ids. -/
  sorted : ∀ k, (db.lines.filter fun line => line.row.entryId = k).Pairwise fun a b => a.id < b.id

theorem inv_init (srv : Server κ) : Inv srv ({} : Database ι κ) :=
  ⟨rfl, fun _ => trivial, fun _ => List.Pairwise.nil⟩

variable {db : Database ι κ} {client : ι}

theorem Inv.keeps (hi : Inv srv db) : Keeps srv db.tables (db.committed.map Prod.fst) := by
  have hkeeps := (books srv).postAll_keeps (db.committed.map Prod.fst)
  rw [hi.serial] at hkeeps
  exact hkeeps

theorem Inv.session (hi : Inv srv db) {session : Session κ} (h : db.sessions client = session) :
    SessionOk srv db client session := by
  rw [← h]
  exact hi.sessions client

/-! ## Posts that are committed -/

theorem post_of_writing {entry : JournalEntry} {head : EntryRow κ} {lines : List (StoredLine κ)}
    (h : Writes srv db client entry head lines []) :
    Ledger.post (store srv) entry db.tables =
      (.ok (postResult entry .posted),
        { entries := db.entries ++ [head], lines := (db.lines ++ lines).map StoredLine.row }) := by
  obtain ⟨done, hdone, hrows⟩ := h.inserted
  rw [List.append_nil] at hdone
  rw [← hdone] at hrows
  have hfree : (db.tables.entries.any fun r => decide (r.entryId = head.entryId)) = false := by
    rw [List.any_eq_false]
    intro row hrow
    simpa using h.free row hrow
  have hins : (store srv).insertIfAbsent entry db.tables =
      (.ok true, { entries := db.tables.entries ++ [head]
                   lines := db.tables.lines ++ lines.map StoredLine.row }) := by
    simp [store, insertIfAbsent, h.row, hfree, hrows]
  rw [post_of_balanced _ h.balanced, hins, List.map_append]
  rfl

theorem post_of_present {entry : JournalEntry} (h : SessionOk srv db client (.present entry)) :
    Ledger.post (store srv) entry db.tables = (.ok (postResult entry .duplicate), db.tables) := by
  obtain ⟨hbalanced, head, hhead, row, hrow, hid⟩ := h
  have htaken : (db.tables.entries.any fun r => decide (r.entryId = head.entryId)) = true :=
    List.any_eq_true.mpr ⟨row, hrow, decide_eq_true hid⟩
  have hins : (store srv).insertIfAbsent entry db.tables = (.ok false, db.tables) := by
    simp [store, insertIfAbsent, hhead, htaken]
  rw [post_of_balanced _ hbalanced, hins]
  rfl

/-- One more post of the serial run. -/
theorem serial_snoc (post : JournalEntry × Bool)
    (hserial : Ledger.postAll (store srv) {} (db.committed.map Prod.fst) =
      (db.committed.map answer, db.tables))
    {t : Tables κ} (hpost : Ledger.post (store srv) post.1 db.tables = ((answer post).2, t)) :
    Ledger.postAll (store srv) {} ((db.committed ++ [post]).map Prod.fst) =
      ((db.committed ++ [post]).map answer, t) := by
  rw [List.map_append, List.map_singleton, postAll_snoc, hserial, hpost, List.map_append]
  rfl

/-! ## What the tables show -/

theorem Inv.linesUnder_eq (hi : Inv srv db) (k : κ) :
    db.linesUnder k = db.tables.lines.filter fun row => row.entryId = k := by
  have hsorted : (db.lines.filter fun line => line.row.entryId = k).Pairwise fun a b => a.id ≤ b.id :=
    (hi.sorted k).imp fun hlt => Nat.le_of_lt hlt
  rw [linesUnder, hsorted.insertionSort_eq, tables, List.filter_map]
  rfl

omit [DecidableEq κ] in
theorem uuid_of_key {entry : JournalEntry} {k : κ} (h : (guard srv).key entry = some k) :
    srv.uuid entry.entryId = some k := by
  obtain ⟨-, head, hhead, rfl⟩ := guard_key_some h
  exact (entryRow_some hhead).1

/-- What a committed post returned tells how it was answered. -/
theorem statusOf_answer (post : JournalEntry × Bool) :
    statusOf (answer post).2 = some .posted ↔ post.2 = true := by
  cases h : post.2 <;> simp [answer, statusOf, postResult, h]

theorem reply_ok {entry : JournalEntry} {v : Verdict} {result : PostResult}
    (h : reply entry v = .ok result) : v = .duplicate ∨ v = .inserted := by
  cases v with
  | invalid => cases hb : entry.isBalanced <;> simp [reply, hb] at h
  | duplicate => exact .inl rfl
  | refused => simp [reply] at h
  | inserted => exact .inr rfl

/-- The id of a committed post is held. -/
theorem Inv.holder_of_committed (hi : Inv srv db) {post : JournalEntry × Bool}
    (hpost : post ∈ db.committed) : ∃ k, srv.uuid post.1.entryId = some k ∧
      ((guard srv).holder (db.committed.map Prod.fst) k).isSome := by
  have hanswer : answer post ∈ (Ledger.postAll (store srv) {} (db.committed.map Prod.fst)).1 := by
    rw [hi.serial]
    exact List.mem_map_of_mem hpost
  rw [(books srv).postAll_fst_eq_map] at hanswer
  obtain ⟨⟨entry, v⟩, hmem, heq⟩ := List.mem_map.mp hanswer
  obtain ⟨rfl, hreply⟩ : entry = post.1 ∧ reply entry v = (answer post).2 := Prod.mk.inj heq
  obtain ⟨k, hk, hheld⟩ := Guard.holder_of_answered hmem (reply_ok hreply)
  exact ⟨k, uuid_of_key hk, hheld⟩

/-- The entry that holds an id was committed by a post that returned `True`. -/
theorem Inv.committed_of_holder (hi : Inv srv db) {k : κ} {entry : JournalEntry}
    (h : (guard srv).holder (db.committed.map Prod.fst) k = some entry) :
    (entry, true) ∈ db.committed := by
  have hposted : (entry, reply entry .inserted) ∈
      (Ledger.postAll (store srv) {} (db.committed.map Prod.fst)).1 := by
    rw [(books srv).postAll_fst_eq_map]
    exact List.mem_map.mpr ⟨_, Guard.inserted_of_holder h, rfl⟩
  rw [hi.serial] at hposted
  obtain ⟨post, hpost, heq⟩ := List.mem_map.mp hposted
  obtain ⟨hentry, hreply⟩ : post.1 = entry ∧ (answer post).2 = reply entry .inserted :=
    Prod.mk.inj heq
  have htrue : post.2 = true := by
    rw [← statusOf_answer, hreply]
    rfl
  rw [← hentry, ← htrue]
  exact hpost

theorem Inv.atomic (hi : Inv srv db) : Atomic srv db := by
  refine ⟨?_, ?_, ?_, ?_⟩
  · intro head hhead
    obtain ⟨entry, hheld, hrow, hlines⟩ := hi.keeps.entry_of_head hhead
    have hbalanced := (guard_key_some (Guard.key_of_holder hheld).1).1
    have htotals : entry.totalDebits = entry.totalCredits := by
      simp only [JournalEntry.isBalanced, Bool.and_eq_true, decide_eq_true_eq] at hbalanced
      exact hbalanced.1
    have htotal : head.totalMinor = entry.totalDebits := (entryRow_some hrow).2.2.2.2
    rw [hi.linesUnder_eq, (mapM_lineRow_some hlines).2, htotal]
    exact ⟨rfl, htotals.symm⟩
  · intro head hhead
    obtain ⟨entry, hheld, hrow, hlines⟩ := hi.keeps.entry_of_head hhead
    refine ⟨entry, hi.committed_of_holder hheld, hrow, ?_⟩
    rw [hi.linesUnder_eq]
    exact hlines
  · intro line hline
    exact hi.keeps.headed (List.mem_map_of_mem hline)
  · intro post hpost
    obtain ⟨k, hid, hheld⟩ := hi.holder_of_committed hpost
    refine ⟨k, hid, ?_⟩
    have hcount := (books srv).countP_posted (fun _ _ => uuid_of_key)
      (db.committed.map Prod.fst) k
    rw [hi.serial, if_pos hheld, List.countP_map] at hcount
    rw [← hcount]
    refine List.countP_congr ?_
    intro p _
    have hstatus := statusOf_answer p
    have hfst : (answer p).1 = p.1 := rfl
    simp only [Function.comp_apply, hfst, hstatus, Bool.and_eq_true, decide_eq_true_eq]

/-! ## Statements -/

/-- A number that is drawn and not used. -/
theorem Inv.burn (hi : Inv srv db) : Inv srv { db with nextId := db.nextId + 1 } := by
  refine ⟨hi.serial, fun c => ?_, hi.sorted⟩
  refine (hi.sessions c).transfer (fun _ hrow => hrow) ?_ (fun _ hk => hk) (Nat.le_succ _)
  intro row hrow hnot
  exact absurd hrow hnot

variable [DecidableEq ι]

/-- A client goes on to another session, while the committed rows stay and no other transaction loses an
id that it holds. -/
theorem Inv.goto (hi : Inv srv db) (client : ι) (session : Session κ) (holder : κ → Option ι)
    (nextId : Nat)
    (hown : SessionOk srv { db.goto client session with holder := holder, nextId := nextId } client
      session)
    (hother : ∀ c ≠ client, ∀ k, db.holder k = some c → holder k = some c)
    (hnext : db.nextId ≤ nextId) :
    Inv srv { db.goto client session with holder := holder, nextId := nextId } := by
  refine ⟨hi.serial, ?_, hi.sorted⟩
  intro c
  by_cases hc : c = client
  · subst hc
    simpa only [Database.goto, Function.update_self] using hown
  · simp only [Database.goto, Function.update_of_ne hc]
    refine (hi.sessions c).transfer (fun row hrow => hrow) ?_ (hother c hc) hnext
    intro row hrow hnot
    exact absurd hrow hnot

/-- A head is inserted whose id no committed head has and nobody holds; from then on the client holds it. -/
theorem Inv.insert_head (hi : Inv srv db) {entry : JournalEntry} {head : EntryRow κ}
    (hbalanced : entry.isBalanced = true) (hhead : entryRow srv entry = some head)
    (hfree : ∀ row ∈ db.entries, row.entryId ≠ head.entryId) (hholder : db.holder head.entryId = none) :
    Inv srv { db.goto client (.writing entry head [] entry.lines) with
      holder := Function.update db.holder head.entryId (some client) } := by
  refine hi.goto client (.writing entry head [] entry.lines) _ db.nextId
    ⟨hbalanced, hhead, by simp, hfree, ⟨[], rfl, rfl⟩, List.Pairwise.nil, by simp⟩ ?_ le_rfl
  intro c _ k hk
  have hne : k ≠ head.entryId := by
    rintro rfl
    rw [hholder] at hk
    cases hk
  simpa only [Function.update_of_ne hne] using hk

/-- A line is inserted, with the id that the sequence has next. -/
theorem Inv.insert_line (hi : Inv srv db) {entry : JournalEntry} {head : EntryRow κ}
    {lines : List (StoredLine κ)} {line : JournalLine} {rest : List JournalLine} {row : LineRow κ}
    (hok : Writes srv db client entry head lines (line :: rest)) (hrow : lineRow srv head line = some row) :
    Inv srv { db.goto client (.writing entry head (lines ++ [⟨db.nextId, row⟩]) rest) with
      nextId := db.nextId + 1 } := by
  obtain ⟨done, hdone, hrows⟩ := hok.inserted
  refine hi.goto client (.writing entry head (lines ++ [⟨db.nextId, row⟩]) rest) db.holder
    (db.nextId + 1) ⟨hok.balanced, hok.row, hok.holds, hok.free, ⟨done ++ [line], ?_, ?_⟩, ?_, ?_⟩
    (fun _ _ _ hk => hk) (Nat.le_succ _)
  · rw [hdone, List.append_assoc]
    rfl
  · rw [List.mapM_append, hrows]
    simp [hrow]
  · rw [List.pairwise_append]
    refine ⟨hok.sorted, List.pairwise_singleton _ _, ?_⟩
    intro a ha b hb
    rw [List.mem_singleton.mp hb]
    exact hok.drawn a ha
  · intro stored hstored
    show stored.id < db.nextId + 1
    rcases List.mem_append.mp hstored with hold | hnew
    · exact Nat.lt_succ_of_lt (hok.drawn stored hold)
    · rw [List.mem_singleton.mp hnew]
      exact Nat.lt_succ_self _

/-- The end of a transaction gives up the id that it holds, and no other. -/
theorem Inv.finish (hi : Inv srv db) (client : ι) : Inv srv (db.finish client) := by
  unfold Database.finish
  split
  · rename_i entry head lines rest hsession
    have hok : Writes srv db client entry head lines rest := hi.session hsession
    refine hi.goto client .idle _ db.nextId trivial ?_ le_rfl
    intro c hc k hk
    have hne : k ≠ head.entryId := by
      rintro rfl
      rw [hok.holds] at hk
      exact hc (Option.some.inj hk).symm
    simpa only [Function.update_of_ne hne] using hk
  · exact hi.goto client .idle db.holder db.nextId trivial (fun _ _ _ hk => hk) le_rfl

theorem tables_finish (db : Database ι κ) (client : ι) :
    (db.finish client).entries = db.entries ∧ (db.finish client).lines = db.lines ∧
      (db.finish client).committed = db.committed := by
  unfold Database.finish
  split <;> exact ⟨rfl, rfl, rfl⟩

/-- The rows of a transaction become those of its post. -/
theorem Inv.commit_writing (hi : Inv srv db) {entry : JournalEntry} {head : EntryRow κ}
    {lines : List (StoredLine κ)} (hsession : db.sessions client = .writing entry head lines []) :
    Inv srv { db.finish client with
      entries := db.entries ++ [head]
      lines := db.lines ++ lines
      committed := db.committed ++ [(entry, true)] } := by
  have hok : Writes srv db client entry head lines [] := hi.session hsession
  have hfinish := hi.finish client
  have hrows : ∀ line ∈ lines, line.row.entryId = head.entryId := by
    obtain ⟨done, -, hdone⟩ := hok.inserted
    intro line hline
    exact ((mapM_lineRow_some hdone).1 _ (List.mem_map_of_mem hline)).1
  refine ⟨serial_snoc (entry, true) hi.serial (post_of_writing hok), ?_, ?_⟩
  · intro c
    refine (hfinish.sessions c).transfer ?_ ?_ (fun _ hk => hk) le_rfl
    · intro row hrow
      rw [(tables_finish db client).1] at hrow
      exact List.mem_append_left _ hrow
    · -- the only new head is that of the transaction, and nobody holds its id any more
      intro row hrow hnot
      rw [(tables_finish db client).1] at hnot
      rcases List.mem_append.mp hrow with hold | hnew
      · exact absurd hold hnot
      · rw [List.mem_singleton.mp hnew]
        simp [Database.finish, hsession]
  · intro k
    show ((db.lines ++ lines).filter _).Pairwise _
    rw [List.filter_append]
    by_cases hk : head.entryId = k
    · have hnone : (db.lines.filter fun line => decide (line.row.entryId = k)) = [] := by
        rw [List.filter_eq_nil_iff]
        intro line hline hid
        obtain ⟨row, hrow, hrowid⟩ := hi.keeps.headed (List.mem_map_of_mem hline)
        refine hok.free row hrow ?_
        rw [hrowid, hk]
        simpa using hid
      rw [hnone, List.nil_append]
      exact hok.sorted.filter _
    · have hnone : (lines.filter fun line => decide (line.row.entryId = k)) = [] := by
        rw [List.filter_eq_nil_iff]
        intro line hline
        rw [hrows line hline]
        simpa using hk
      rw [hnone, List.append_nil]
      exact hi.sorted k

/-- A conflict changes nothing. -/
theorem Inv.commit_present (hi : Inv srv db) {entry : JournalEntry}
    (hsession : db.sessions client = .present entry) :
    Inv srv { db.finish client with committed := db.committed ++ [(entry, false)] } := by
  have hok := hi.session hsession
  have hfinish := hi.finish client
  obtain ⟨hentries, hlines, -⟩ := tables_finish db client
  have htables : (db.finish client).tables = db.tables := by
    unfold Database.tables
    rw [hentries, hlines]
  refine ⟨?_, ?_, hfinish.sorted⟩
  · have hserial := serial_snoc (entry, false) hi.serial (post_of_present hok)
    rw [← htables] at hserial
    exact hserial
  · intro c
    refine (hfinish.sessions c).transfer (fun _ hrow => hrow) ?_ (fun _ hk => hk) le_rfl
    intro row hrow hnot
    exact absurd hrow hnot

/-- One statement of one client. -/
theorem Inv.step (hi : Inv srv db) {statement : Statement ι} {db' : Database ι κ}
    (h : step srv db statement = some db') : Inv srv db' := by
  cases statement with
  | post client entry =>
    simp only [Database.step] at h
    split at h
    · obtain rfl := Option.some.inj h
      split
      · rename_i hbalanced
        exact hi.goto client (.begun entry) db.holder db.nextId hbalanced (fun _ _ _ hk => hk) le_rfl
      · exact hi
    · cases h
  | insertHead client =>
    simp only [Database.step] at h
    split at h
    · rename_i entry hsession
      have hbalanced : entry.isBalanced = true := hi.session hsession
      split at h
      · cases h
      · rename_i head hhead
        split at h
        · cases h
        · rename_i hholder
          split at h
          · rename_i htaken
            obtain rfl := Option.some.inj h
            obtain ⟨row, hrow, hid⟩ := List.any_eq_true.mp htaken
            exact hi.goto client (.present entry) db.holder db.nextId
              ⟨hbalanced, head, hhead, row, hrow, of_decide_eq_true hid⟩ (fun _ _ _ hk => hk) le_rfl
          · rename_i hnone
            obtain rfl := Option.some.inj h
            refine hi.insert_head hbalanced hhead ?_ hholder
            intro row hrow hid
            exact hnone (List.any_eq_true.mpr ⟨row, hrow, decide_eq_true hid⟩)
    · cases h
  | insertLine client =>
    simp only [Database.step] at h
    split at h
    · rename_i entry head lines line rest hsession
      have hok : Writes srv db client entry head lines (line :: rest) := hi.session hsession
      split at h
      · cases h
      · rename_i row hrow
        obtain rfl := Option.some.inj h
        exact hi.insert_line hok hrow
    · cases h
  | commit client =>
    simp only [Database.step] at h
    split at h
    · rename_i entry head lines hsession
      obtain rfl := Option.some.inj h
      exact hi.commit_writing hsession
    · rename_i entry hsession
      obtain rfl := Option.some.inj h
      exact hi.commit_present hsession
    · cases h
  | abort client =>
    simp only [Database.step] at h
    split at h
    · cases h
    · obtain rfl := Option.some.inj h
      exact hi.finish client
  | burn =>
    obtain rfl := Option.some.inj h
    exact hi.burn

/-- Any number of statements. -/
theorem Inv.run {statements : List (Statement ι)} {db db' : Database ι κ} (hi : Inv srv db)
    (h : run srv db statements = some db') : Inv srv db' := by
  induction statements generalizing db with
  | nil =>
    obtain rfl := Option.some.inj h
    exact hi
  | cons statement statements ih =>
    obtain ⟨next, hstep, hrun⟩ := Option.bind_eq_some_iff.mp h
    exact ih (hi.step hstep) hrun

/-- **Concurrent posts keep the journal atomic.** In every state that any number of clients reach by posting
any entries, whatever the order of their statements and whichever transactions are aborted. -/
theorem journal_atomic (srv : Server κ) (statements : List (Statement ι)) (db : Database ι κ)
    (h : run srv {} statements = some db) : Atomic srv db :=
  ((inv_init srv).run h).atomic

/-! ## A sale posted twice at once -/

/-- The first of two posts holds the id and is aborted after a line. The second, which had to wait, takes
over, and the first is tried again. -/
def handover : List (Statement Bool) :=
  [.post false (sale "acme"), .post true (sale "acme"), .insertHead false, .insertLine false,
    .abort false, .insertHead true, .insertLine true, .post false (sale "acme"), .insertLine true,
    .commit true, .insertHead false, .commit false]

/-- The hypothesis of `journal_atomic` holds for the posts; one of them returns `True`. -/
theorem journal_atomic_handover : ∃ db, run saleServer {} handover = some db ∧
    db.committed = [(sale "acme", true), (sale "acme", false)] ∧
      db.lines.map StoredLine.id = [2, 3] ∧ Atomic saleServer db := by
  have hrun : (run saleServer {} handover).isSome := by decide +kernel
  have hcommitted : (run saleServer {} handover).map Database.committed =
      some [(sale "acme", true), (sale "acme", false)] := by decide +kernel
  have hids : (run saleServer {} handover).map (fun db => db.lines.map StoredLine.id) =
      some [2, 3] := by decide +kernel
  obtain ⟨db, hdb⟩ := Option.isSome_iff_exists.mp hrun
  rw [hdb] at hcommitted hids
  exact ⟨db, hdb, Option.some.inj hcommitted, Option.some.inj hids,
    journal_atomic saleServer handover db hdb⟩

end Database

end Postgres

end CaviErp
