import CaviErp.Ledger.Books

/-!
# The stores keep the books

Both stores of the ledger are first-writer-wins stores, and a run of posts is answered as the history
says.
-/

namespace CaviErp

open Py FirstWriter

/-! ## Runs of a store that keeps the books -/

theorem postAll_cons {σ : Type} (store : LedgerStore σ) (s : σ) (e : JournalEntry)
    (l : List JournalEntry) :
    Ledger.postAll store s (e :: l) =
      ((e, (Ledger.post store e s).1) :: (Ledger.postAll store (Ledger.post store e s).2 l).1,
        (Ledger.postAll store (Ledger.post store e s).2 l).2) := rfl

theorem postAll_snoc {σ : Type} (store : LedgerStore σ) (s : σ) (l : List JournalEntry)
    (e : JournalEntry) :
    Ledger.postAll store s (l ++ [e]) =
      ((Ledger.postAll store s l).1 ++ [(e, (Ledger.post store e (Ledger.postAll store s l).2).1)],
        (Ledger.post store e (Ledger.postAll store s l).2).2) := by
  induction l generalizing s with
  | nil => rfl
  | cons e' l ih =>
    rw [List.cons_append, postAll_cons, ih, postAll_cons]
    rfl

namespace Books

variable {σ κ : Type} [DecidableEq κ] {store : LedgerStore σ} {s₀ : σ}
  {guard : Guard JournalEntry κ} (b : Books store s₀ guard)

/-- Posts from a state of a history are answered as that history says. -/
theorem postAll_from {s : σ} {h : List JournalEntry} (hs : b.Keeps s h) (l : List JournalEntry) :
    (Ledger.postAll store s l).1 =
        answersFrom (fun h e => b.reply e (guard.verdict h e)) h l ∧
      b.Keeps (Ledger.postAll store s l).2 (h ++ l) := by
  induction l generalizing s h with
  | nil => exact ⟨rfl, by simpa [Ledger.postAll] using hs⟩
  | cons e l ih =>
    obtain ⟨h1, h2⟩ := ih (b.post_snd hs e)
    rw [postAll_cons]
    refine ⟨?_, by simpa using h2⟩
    rw [h1, b.post_fst hs e]
    rfl

theorem postAll_fst (l : List JournalEntry) :
    (Ledger.postAll store s₀ l).1 = answers (fun h e => b.reply e (guard.verdict h e)) l :=
  (b.postAll_from b.init l).1

theorem postAll_keeps (l : List JournalEntry) : b.Keeps (Ledger.postAll store s₀ l).2 l := by
  simpa using (b.postAll_from b.init l).2

theorem postAll_fst_eq_map (l : List JournalEntry) :
    (Ledger.postAll store s₀ l).1 =
      (answers guard.verdict l).map fun x => (x.1, b.reply x.1 x.2) := by
  rw [b.postAll_fst, answers_map]

theorem statusOf_reply_iff (e : JournalEntry) (v : Verdict) :
    statusOf (b.reply e v) = some .posted ↔ v = .inserted := by
  constructor
  · exact b.statusOf_reply e v
  · rintro rfl
    rw [b.reply_inserted]
    rfl

include b in
/-- Of the posts with one id, one is posted where the id is held, and none elsewhere. -/
theorem countP_posted {idOf : JournalEntry → Option κ}
    (hid : ∀ e k, guard.key e = some k → idOf e = some k) (l : List JournalEntry) (k : κ) :
    (Ledger.postAll store s₀ l).1.countP
        (fun x => decide (idOf x.1 = some k ∧ statusOf x.2 = some .posted)) =
      if (guard.holder l k).isSome then 1 else 0 := by
  rw [← Guard.countP_inserted, b.postAll_fst_eq_map, List.countP_map]
  refine List.countP_congr ?_
  rintro ⟨e, v⟩ hx
  obtain ⟨pre, post, hsplit⟩ := List.append_of_mem hx
  obtain ⟨-, hv⟩ := answers_split hsplit
  simp only [Function.comp_apply, decide_eq_true_eq, b.statusOf_reply_iff]
  constructor
  · rintro ⟨hk, rfl⟩
    obtain ⟨k', hk', -⟩ := Guard.verdict_eq_inserted_iff.mp hv.symm
    have hidk := hid e k' hk'
    rw [hk] at hidk
    obtain rfl := Option.some.inj hidk
    exact ⟨hk', rfl⟩
  · rintro ⟨hk, rfl⟩
    exact ⟨hid e k hk, rfl⟩

include b in
/-- The others do not interfere with a tenant exactly when none of its posts meets an id that another
tenant holds. -/
theorem noninterfering_iff (tenantId : String) (l : List JournalEntry) :
    Noninterfering store s₀ tenantId l ↔
      Guard.Undisturbed (fun e => e.tenantId = tenantId) guard l := by
  set p : JournalEntry → Bool := fun e => decide (e.tenantId = tenantId) with hp
  have hanswers := answers_filter_iff (fun h e => b.reply e (guard.verdict h e)) p l
  unfold Noninterfering postsOf
  rw [b.postAll_fst, b.postAll_fst]
  constructor
  · rintro ⟨h, -⟩
    refine Guard.undisturbed_of_verdict_eq p ?_
    intro pre r post hl hr
    exact b.reply_injective r (hanswers.mp h pre r post hl hr)
  · intro h
    refine ⟨hanswers.mpr ?_, ?_⟩
    · intro pre r post hl hr
      rw [h.verdict_eq p hl hr]
    · intro entryId
      rw [b.get_eq (b.postAll_keeps l), b.get_eq (b.postAll_keeps (l.filter p))]
      congr 1
      funext k
      -- in the run of its own posts every entry held is the tenant's
      have hown : (guard.holder (l.filter p) k).filter p = guard.holder (l.filter p) k := by
        cases hq : guard.holder (l.filter p) k with
        | none => rfl
        | some q =>
          have hmem : q ∈ l.filter p := List.mem_of_find?_eq_some hq
          have hpq : p q = true := (List.mem_filter.mp hmem).2
          simp [hpq]
      rw [hown]
      exact h.holder_eq p k

end Books

theorem post_of_unbalanced {σ : Type} (store : LedgerStore σ) {e : JournalEntry}
    (h : e.isBalanced = false) (s : σ) :
    Ledger.post store e s = (.error (.unbalancedEntry
      ("entry " ++ e.entryId ++ ": debits " ++ toString e.totalDebits ++
        " != credits " ++ toString e.totalCredits)), s) := by
  simp [Ledger.post, h]

theorem post_of_balanced {σ : Type} (store : LedgerStore σ) {e : JournalEntry}
    (h : e.isBalanced = true) (s : σ) :
    Ledger.post store e s =
      (match (store.insertIfAbsent e s).1 with
        | .ok inserted => .ok (postResult e (if inserted then .posted else .duplicate))
        | .error err => .error err,
        (store.insertIfAbsent e s).2) := by
  unfold Ledger.post
  simp only [h, Bool.not_true, Bool.false_eq_true, if_false, Action.bind_apply]
  rcases store.insertIfAbsent e s with ⟨r, s'⟩
  cases r with
  | ok inserted => rfl
  | error err => rfl

/-! ## The in-memory store -/

namespace InMemoryLedgerStore

/-- A state of a history: under each id stands the first balanced post of it. -/
def Keeps (s : InMemoryLedgerStore) (h : List JournalEntry) : Prop :=
  ∀ k, s.find? k = guard.holder h k

theorem find?_add (s : InMemoryLedgerStore) (e : JournalEntry) (h : s.find? e.entryId = none)
    (k : String) : (s.add e h).find? k = if e.entryId = k then some e else s.find? k := by
  by_cases hk : e.entryId = k
  · subst hk
    have hnone : s.entries.find? (fun x => x.entryId = e.entryId) = none := h
    simp [find?, add, List.find?_append, hnone]
  · simp [find?, add, List.find?_append, hk]

/-- What `post` makes of a verdict; the last case does not arise, since nothing is refused. -/
def reply (e : JournalEntry) : Verdict → Except PyError PostResult
  | .invalid => .error (.unbalancedEntry
      ("entry " ++ e.entryId ++ ": debits " ++ toString e.totalDebits ++
        " != credits " ++ toString e.totalCredits))
  | .duplicate => .ok (postResult e .duplicate)
  | .inserted => .ok (postResult e .posted)
  | .refused => .error (.storeError "refused")

theorem reply_injective (e : JournalEntry) : Function.Injective (reply e) := by
  intro v w h
  cases v <;> cases w <;> simp [reply, postResult] at h ⊢

theorem statusOf_reply (e : JournalEntry) (v : Verdict) :
    statusOf (reply e v) = some .posted ↔ v = .inserted := by
  cases v <;> simp [reply, statusOf, postResult]

/-- One post of the in-memory store, against the history it was made after. -/
theorem post_spec {s : InMemoryLedgerStore} {h : List JournalEntry} (hs : Keeps s h)
    (e : JournalEntry) :
    (Ledger.post store e s).1 = reply e (guard.verdict h e) ∧
      Keeps (Ledger.post store e s).2 (h ++ [e]) := by
  by_cases hb : e.isBalanced = true
  · have hkey : guard.key e = some e.entryId := by simp [guard, hb]
    rw [post_of_balanced store hb s]
    by_cases hfree : s.find? e.entryId = none
    · -- the id is free: the entry is inserted
      have hv : guard.verdict h e = .inserted :=
        Guard.verdict_eq_inserted_iff.mpr ⟨e.entryId, hkey, by rw [← hs, hfree], rfl⟩
      have hins : store.insertIfAbsent e s = (.ok true, s.add e hfree) := by
        simp [store, insertIfAbsent, hfree]
      rw [hins, hv]
      refine ⟨rfl, ?_⟩
      intro k
      rw [Guard.holder_snoc, hv, hkey, find?_add, hs k]
      simp
    · -- the id is taken
      have hv : guard.verdict h e = .duplicate := by
        refine Guard.verdict_eq_duplicate_iff.mpr ⟨e.entryId, hkey, ?_⟩
        rw [← hs]
        exact Option.isSome_iff_ne_none.mpr hfree
      have hins : store.insertIfAbsent e s = (.ok false, s) := by
        simp [store, insertIfAbsent, hfree]
      rw [hins, hv]
      refine ⟨rfl, ?_⟩
      intro k
      rw [Guard.holder_snoc, hv]
      simpa using hs k
  · have hb' : e.isBalanced = false := by simpa using hb
    have hv : guard.verdict h e = .invalid := by simp [Guard.verdict, guard, hb']
    rw [post_of_unbalanced store hb' s, hv]
    refine ⟨rfl, ?_⟩
    intro k
    rw [Guard.holder_snoc, hv]
    simpa using hs k

/-- The in-memory store keeps the books. -/
def books : Books store empty guard where
  reply := reply
  shown := fun _ entryId held => .ok (held entryId)
  Keeps := Keeps
  init := fun _ => rfl
  reply_injective := reply_injective
  reply_inserted := fun _ => rfl
  statusOf_reply := fun e v h => (statusOf_reply e v).mp h
  post_fst := fun hs e => (post_spec hs e).1
  post_snd := fun hs e => (post_spec hs e).2
  get_eq := by
    intro s h hs tenantId entryId
    show Except.ok (get tenantId entryId s) =
      .ok ((guard.holder h entryId).filter fun q => q.tenantId = tenantId)
    unfold get
    rw [hs entryId]
    cases guard.holder h entryId with
    | none => rfl
    | some q => by_cases hq : q.tenantId = tenantId <;> simp [Option.filter_some, hq]

end InMemoryLedgerStore

/-! ## The Postgres store -/

namespace Postgres

variable {κ : Type} (srv : Server κ)

/-- The rows of an entry's lines, when its head and all its lines can be inserted. -/
def linesOf (e : JournalEntry) : Option (List (LineRow κ)) :=
  (entryRow srv e).bind fun row => e.lines.mapM (lineRow srv row)

/-- A state of a history: under each key stand the rows of the first post that could take it. -/
structure Keeps [DecidableEq κ] (t : Tables κ) (h : List JournalEntry) : Prop where
  entries : ∀ k, t.entries.filter (fun row => row.entryId = k) =
    (((guard srv).holder h k).bind (entryRow srv)).toList
  lines : ∀ k, t.lines.filter (fun row => row.entryId = k) =
    (((guard srv).holder h k).bind (linesOf srv)).getD []

def reply (e : JournalEntry) : Verdict → Except PyError PostResult
  | .invalid =>
    if e.isBalanced then .error (.storeError "invalid journal_entry")
    else .error (.unbalancedEntry
      ("entry " ++ e.entryId ++ ": debits " ++ toString e.totalDebits ++
        " != credits " ++ toString e.totalCredits))
  | .duplicate => .ok (postResult e .duplicate)
  | .inserted => .ok (postResult e .posted)
  | .refused => .error (.storeError "invalid journal_line")

/-- The entry a tenant reads under an id, when the rows are those of `e`. -/
def readBack (entryId : String) (e : JournalEntry) : Option JournalEntry := do
  let row ← entryRow srv e
  let rows ← linesOf srv e
  return { entryId, tenantId := e.tenantId, currency := row.currency,
           lines := rows.map LineRow.line, memo := row.memo }

theorem reply_injective (e : JournalEntry) : Function.Injective (reply e) := by
  intro v w h
  cases hb : e.isBalanced <;> cases v <;> cases w <;> simp [reply, postResult, hb] at h ⊢

variable {srv}

theorem entryRow_some {e : JournalEntry} {row : EntryRow κ} (h : entryRow srv e = some row) :
    srv.uuid e.entryId = some row.entryId ∧ srv.char3 e.currency = some row.currency ∧
      row.tenantId = e.tenantId ∧ row.memo = e.memo ∧ row.totalMinor = e.totalDebits := by
  unfold entryRow at h
  obtain ⟨k, hk, h⟩ := Option.bind_eq_some_iff.mp h
  obtain ⟨c, hc, h⟩ := Option.bind_eq_some_iff.mp h
  split at h
  · obtain rfl := Option.some.inj h
    exact ⟨hk, hc, rfl, rfl, rfl⟩
  · cases h

theorem entryRow_storable {e : JournalEntry} {row : EntryRow κ} (h : entryRow srv e = some row) :
    srv.storable e.tenantId = true := by
  unfold entryRow at h
  obtain ⟨k, -, h⟩ := Option.bind_eq_some_iff.mp h
  obtain ⟨c, -, h⟩ := Option.bind_eq_some_iff.mp h
  split at h
  · rename_i hcond
    simp only [Bool.and_eq_true] at hcond
    exact hcond.1.1.1
  · cases h

theorem lineRow_some {row : EntryRow κ} {ln : JournalLine} {r : LineRow κ}
    (h : lineRow srv row ln = some r) :
    r.entryId = row.entryId ∧ r.tenantId = row.tenantId ∧ r.line = ln := by
  unfold lineRow at h
  split at h
  · obtain rfl := Option.some.inj h
    exact ⟨rfl, rfl, rfl⟩
  · cases h

/-- Rows of lines carry the key and the tenant of their head, and read back as the lines. -/
theorem mapM_lineRow_some {row : EntryRow κ} {lines : List JournalLine} {rows : List (LineRow κ)}
    (h : lines.mapM (lineRow srv row) = some rows) :
    (∀ r ∈ rows, r.entryId = row.entryId ∧ r.tenantId = row.tenantId) ∧
      rows.map LineRow.line = lines := by
  induction lines generalizing rows with
  | nil =>
    obtain rfl : rows = [] := by simpa using h.symm
    simp
  | cons ln lines ih =>
    rw [List.mapM_cons] at h
    obtain ⟨r, hr, h⟩ := Option.bind_eq_some_iff.mp h
    obtain ⟨rs, hrs, h⟩ := Option.bind_eq_some_iff.mp h
    obtain rfl : rows = r :: rs := by simpa using h.symm
    obtain ⟨h1, h2, h3⟩ := lineRow_some hr
    obtain ⟨ih1, ih2⟩ := ih hrs
    refine ⟨?_, by simp [h3, ih2]⟩
    intro x hx
    rcases List.mem_cons.mp hx with rfl | hx
    · exact ⟨h1, h2⟩
    · exact ih1 x hx

theorem guard_key_some {e : JournalEntry} {k : κ} (h : (guard srv).key e = some k) :
    e.isBalanced = true ∧ ∃ row, entryRow srv e = some row ∧ row.entryId = k := by
  have h' : (if e.isBalanced then (entryRow srv e).map EntryRow.entryId else none) = some k := h
  split at h'
  · rename_i hb
    obtain ⟨row, hrow, hk⟩ := Option.map_eq_some_iff.mp h'
    exact ⟨hb, row, hrow, hk⟩
  · cases h'

variable [DecidableEq κ]

theorem Keeps.any_iff {t : Tables κ} {h : List JournalEntry} (hs : Keeps srv t h) (k : κ) :
    (t.entries.any fun r => decide (r.entryId = k)) = ((guard srv).holder h k).isSome := by
  have hany : (t.entries.any fun r => decide (r.entryId = k)) =
      !(t.entries.filter fun r => decide (r.entryId = k)).isEmpty := by
    induction t.entries with
    | nil => rfl
    | cons r rs ih => by_cases hr : r.entryId = k <;> simp [hr, ih]
  rw [hany, hs.entries k]
  cases hh : (guard srv).holder h k with
  | none => rfl
  | some q =>
    obtain ⟨row, hrow, -⟩ := (guard_key_some (Guard.key_of_holder hh).1).2
    simp [hrow]

/-- A head is that of the entry that holds its id, and its lines are those of that entry. -/
theorem Keeps.entry_of_head {t : Tables κ} {h : List JournalEntry} (hs : Keeps srv t h)
    {head : EntryRow κ} (hhead : head ∈ t.entries) :
    ∃ e, (guard srv).holder h head.entryId = some e ∧ entryRow srv e = some head ∧
      e.lines.mapM (lineRow srv head) =
        some (t.lines.filter fun row => row.entryId = head.entryId) := by
  have hmem : head ∈ t.entries.filter fun row => row.entryId = head.entryId :=
    List.mem_filter.mpr ⟨hhead, by simp⟩
  rw [hs.entries, Option.mem_toList] at hmem
  obtain ⟨e, he, hrow⟩ := Option.bind_eq_some_iff.mp hmem
  obtain ⟨rows, hrows⟩ := Option.isSome_iff_exists.mp (Guard.key_of_holder he).2
  have hlines : linesOf srv e = some rows := hrows
  refine ⟨e, he, hrow, ?_⟩
  rw [hs.lines, he, Option.bind_some, hlines]
  rw [linesOf, hrow] at hlines
  exact hlines

theorem Keeps.headed {t : Tables κ} {h : List JournalEntry} (hs : Keeps srv t h) {row : LineRow κ}
    (hrow : row ∈ t.lines) : ∃ head ∈ t.entries, head.entryId = row.entryId := by
  have hmem : row ∈ t.lines.filter fun r => r.entryId = row.entryId :=
    List.mem_filter.mpr ⟨hrow, by simp⟩
  rw [hs.lines] at hmem
  cases he : (guard srv).holder h row.entryId with
  | none => simp [he] at hmem
  | some e =>
    obtain ⟨-, head, hhead, hid⟩ := guard_key_some (Guard.key_of_holder he).1
    have hin : head ∈ t.entries.filter fun r => r.entryId = row.entryId := by
      rw [hs.entries, he, Option.bind_some, hhead]
      exact List.mem_singleton_self head
    exact ⟨head, (List.mem_filter.mp hin).1, hid⟩

theorem insertIfAbsent_error {e : JournalEntry} {t : Tables κ} {err : PyError}
    (h : ((store srv).insertIfAbsent e t).1 = .error err) : ∃ text, err = .storeError text := by
  simp only [store, insertIfAbsent] at h
  cases hrow : entryRow srv e with
  | none =>
    rw [hrow] at h
    exact ⟨_, (Except.error.inj h).symm⟩
  | some row =>
    simp only [hrow] at h
    split at h
    · cases h
    · cases hrows : e.lines.mapM (lineRow srv row) with
      | none =>
        rw [hrows] at h
        exact ⟨_, (Except.error.inj h).symm⟩
      | some rows =>
        rw [hrows] at h
        cases h

theorem Keeps.snoc_of_not_inserted {t : Tables κ} {h : List JournalEntry} (hs : Keeps srv t h)
    {e : JournalEntry} (hv : (guard srv).verdict h e ≠ .inserted) : Keeps srv t (h ++ [e]) := by
  have hsame : ∀ k, (guard srv).holder (h ++ [e]) k = (guard srv).holder h k := by
    intro k
    rw [Guard.holder_snoc]
    simp [hv]
  exact ⟨fun k => by rw [hsame]; exact hs.entries k, fun k => by rw [hsame]; exact hs.lines k⟩

theorem Keeps.snoc_of_inserted {t : Tables κ} {h : List JournalEntry} (hs : Keeps srv t h)
    {e : JournalEntry} {row : EntryRow κ} {rows : List (LineRow κ)}
    (hv : (guard srv).verdict h e = .inserted) (hrow : entryRow srv e = some row)
    (hrows : e.lines.mapM (lineRow srv row) = some rows) :
    Keeps srv { entries := t.entries ++ [row], lines := t.lines ++ rows } (h ++ [e]) := by
  obtain ⟨k', hk', hfree, -⟩ := Guard.verdict_eq_inserted_iff.mp hv
  obtain ⟨-, row', hrow', rfl⟩ := guard_key_some hk'
  obtain rfl : row' = row := by rw [hrow] at hrow'; exact (Option.some.inj hrow').symm
  have hlines : linesOf srv e = some rows := by simp [linesOf, hrow, hrows]
  obtain ⟨hids, -⟩ := mapM_lineRow_some hrows
  constructor
  · intro k
    rw [List.filter_append, hs.entries k, Guard.holder_snoc, hv, hk']
    by_cases hk : row'.entryId = k
    · subst hk
      simp [hfree, hrow]
    · simp [hk]
  · intro k
    rw [List.filter_append, hs.lines k, Guard.holder_snoc, hv, hk']
    by_cases hk : row'.entryId = k
    · subst hk
      have hall : rows.filter (fun r => decide (r.entryId = row'.entryId)) = rows := by
        rw [List.filter_eq_self]
        intro r hr
        simpa using (hids r hr).1
      simp [hfree, hlines, hall]
    · have hnone : rows.filter (fun r => decide (r.entryId = k)) = [] := by
        rw [List.filter_eq_nil_iff]
        intro r hr
        rw [(hids r hr).1]
        simpa using hk
      simp [hk, hnone]

/-- One post of the Postgres store, against the history it was made after. -/
theorem post_spec {t : Tables κ} {h : List JournalEntry} (hs : Keeps srv t h) (e : JournalEntry) :
    (Ledger.post (store srv) e t).1 = reply e ((guard srv).verdict h e) ∧
      Keeps srv (Ledger.post (store srv) e t).2 (h ++ [e]) := by
  by_cases hb : e.isBalanced = true
  · rw [post_of_balanced (store srv) hb t]
    cases hrow : entryRow srv e with
    | none =>
      have hv : (guard srv).verdict h e = .invalid := by simp [Guard.verdict, guard, hrow]
      have hins : (store srv).insertIfAbsent e t =
          (.error (.storeError "invalid journal_entry"), t) := by
        simp [store, insertIfAbsent, hrow]
      rw [hins, hv]
      exact ⟨by simp [reply, hb], hs.snoc_of_not_inserted (by simp [hv])⟩
    | some row =>
      have hkey : (guard srv).key e = some row.entryId := by simp [guard, hb, hrow]
      by_cases htaken : ((guard srv).holder h row.entryId).isSome = true
      · have hv : (guard srv).verdict h e = .duplicate :=
          Guard.verdict_eq_duplicate_iff.mpr ⟨row.entryId, hkey, htaken⟩
        have hins : (store srv).insertIfAbsent e t = (.ok false, t) := by
          simp [store, insertIfAbsent, hrow, hs.any_iff, htaken]
        rw [hins, hv]
        exact ⟨rfl, hs.snoc_of_not_inserted (by simp [hv])⟩
      · cases hrows : e.lines.mapM (lineRow srv row) with
        | none =>
          have hadm : (guard srv).admits e = false := by simp [guard, hrow, hrows]
          have hv : (guard srv).verdict h e = .refused := by
            simp only [Guard.verdict, hkey, htaken, hadm, Bool.false_eq_true, if_false]
          have hins : (store srv).insertIfAbsent e t =
              (.error (.storeError "invalid journal_line"), t) := by
            simp [store, insertIfAbsent, hrow, hs.any_iff, htaken, hrows]
          rw [hins, hv]
          exact ⟨rfl, hs.snoc_of_not_inserted (by simp [hv])⟩
        | some rows =>
          have hadm : (guard srv).admits e = true := by simp [guard, hrow, hrows]
          have hv : (guard srv).verdict h e = .inserted :=
            Guard.verdict_eq_inserted_iff.mpr
              ⟨row.entryId, hkey, by simpa using htaken, hadm⟩
          have hins : (store srv).insertIfAbsent e t =
              (.ok true, { entries := t.entries ++ [row], lines := t.lines ++ rows }) := by
            simp [store, insertIfAbsent, hrow, hs.any_iff, htaken, hrows]
          rw [hins, hv]
          exact ⟨rfl, hs.snoc_of_inserted hv hrow hrows⟩
  · have hb' : e.isBalanced = false := by simpa using hb
    have hv : (guard srv).verdict h e = .invalid := by simp [Guard.verdict, guard, hb']
    rw [post_of_unbalanced (store srv) hb' t, hv]
    exact ⟨by simp [reply, hb'], hs.snoc_of_not_inserted (by simp [hv])⟩

theorem get_spec {t : Tables κ} {h : List JournalEntry} (hs : Keeps srv t h)
    {tenantId entryId : String} {k : κ} (hk : srv.uuid entryId = some k)
    (ht : srv.storable tenantId = true) :
    get srv tenantId entryId t =
      .ok ((((guard srv).holder h k).filter fun q => q.tenantId = tenantId).bind
        (readBack srv entryId)) := by
  have hhead : t.entries.find? (fun row => decide (row.tenantId = tenantId ∧ row.entryId = k)) =
      (t.entries.filter fun row => decide (row.entryId = k)).find?
        fun row => decide (row.tenantId = tenantId) := by
    rw [List.find?_filter]
    congr 1
    funext row
    simp [and_comm]
  have hrows : t.lines.filter (fun row => decide (row.tenantId = tenantId ∧ row.entryId = k)) =
      (t.lines.filter fun row => decide (row.entryId = k)).filter
        fun row => decide (row.tenantId = tenantId) := by
    rw [List.filter_filter]
    congr 1
    funext row
    simp
  unfold get
  rw [hk, ht]
  simp only [hhead, hrows, hs.entries k, hs.lines k]
  cases hh : (guard srv).holder h k with
  | none => rfl
  | some q =>
    obtain ⟨hkey, hadm⟩ := Guard.key_of_holder hh
    obtain ⟨-, row, hrow, -⟩ := guard_key_some hkey
    obtain ⟨-, -, hten, -, -⟩ := entryRow_some hrow
    have hadm' : ((entryRow srv q).bind fun row => q.lines.mapM (lineRow srv row)).isSome := hadm
    obtain ⟨rows, hls⟩ := Option.isSome_iff_exists.mp hadm'
    have hmap : q.lines.mapM (lineRow srv row) = some rows := by simpa [hrow] using hls
    obtain ⟨hall, -⟩ := mapM_lineRow_some hmap
    have hls' : linesOf srv q = some rows := hls
    by_cases hq : q.tenantId = tenantId
    · have hrowsall : rows.filter (fun r => decide (r.tenantId = tenantId)) = rows := by
        rw [List.filter_eq_self]
        intro r hr
        simp [(hall r hr).2, hten, hq]
      simp [hrow, hten, hq, hls', readBack, hrowsall, Option.filter_some]
    · simp [hrow, hten, hq, Option.filter_some]

/-- The Postgres store keeps the books. -/
def books (srv : Server κ) : Books (store srv) {} (guard srv) where
  reply := reply
  shown := fun tenantId entryId held =>
    match srv.uuid entryId, srv.storable tenantId with
    | some k, true => .ok ((held k).bind (readBack srv entryId))
    | _, _ => .error (.storeError "invalid input syntax")
  Keeps := Keeps srv
  init := ⟨fun _ => rfl, fun _ => rfl⟩
  reply_injective := reply_injective
  reply_inserted := fun _ => rfl
  statusOf_reply := by
    intro e v h
    cases hb : e.isBalanced <;> cases v <;> simp [reply, statusOf, postResult, hb] at h ⊢
  post_fst := fun hs e => (post_spec hs e).1
  post_snd := fun hs e => (post_spec hs e).2
  get_eq := by
    intro t h hs tenantId entryId
    show get srv tenantId entryId t = _
    cases hk : srv.uuid entryId with
    | none => simp [get, hk]
    | some k =>
      cases ht : srv.storable tenantId with
      | false => simp [get, hk, ht]
      | true => rw [get_spec hs hk ht]

end Postgres

end CaviErp
