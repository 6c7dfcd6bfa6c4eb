import CaviErp.Ledger.Proofs.BooksProofs
import Mathlib.Algebra.BigOperators.Group.List.Basic

/-!
# Double entry over whole runs

Posts on an in-memory store, in any number and order: every stored entry is balanced, so the books are;
an entry is stored by exactly one post and never changed.
-/

namespace CaviErp

open Py FirstWriter

/-- The amounts of all stored lines of a tenant in a currency, on one side. -/
def booked (d : Direction) (tenantId currency : String) (s : InMemoryLedgerStore) : Int :=
  sideTotal d ((s.entries.filter fun e => e.tenantId = tenantId ∧ e.currency = currency).flatMap
    JournalEntry.lines)

theorem isBalanced_iff (e : JournalEntry) :
    e.isBalanced = true ↔ e.totalDebits = e.totalCredits ∧ 0 < e.totalDebits := by
  simp [JournalEntry.isBalanced]

theorem sideTotal_append (d : Direction) (l m : List JournalLine) :
    sideTotal d (l ++ m) = sideTotal d l + sideTotal d m := by
  simp [sideTotal]

theorem sideTotal_flatMap_eq {es : List JournalEntry}
    (h : ∀ e ∈ es, e.totalDebits = e.totalCredits) :
    sideTotal .debit (es.flatMap JournalEntry.lines) =
      sideTotal .credit (es.flatMap JournalEntry.lines) := by
  induction es with
  | nil => rfl
  | cons e es ih =>
    have he : sideTotal .debit e.lines = sideTotal .credit e.lines := h e List.mem_cons_self
    have hes := ih fun x hx => h x (List.mem_cons_of_mem e hx)
    rw [List.flatMap_cons, sideTotal_append, sideTotal_append, he, hes]

namespace InMemoryLedgerStore

theorem mem_entries_iff (s : InMemoryLedgerStore) (e : JournalEntry) :
    e ∈ s.entries ↔ s.find? e.entryId = some e := by
  constructor
  · intro he
    obtain ⟨q, hq⟩ : ∃ q, s.find? e.entryId = some q := by
      refine Option.isSome_iff_exists.mp ?_
      exact List.find?_isSome.mpr ⟨e, he, by simp⟩
    have hid : q.entryId = e.entryId := by simpa using List.find?_some hq
    have hqe := List.inj_on_of_nodup_map s.nodup (List.mem_of_find?_eq_some hq) he hid
    rw [hq, hqe]
  · intro h
    exact List.mem_of_find?_eq_some h

/-- The state after a run holds, under each id, the first balanced post of it. -/
theorem find?_postAll (l : List JournalEntry) (k : String) :
    (Ledger.postAll store empty l).2.find? k = guard.holder l k :=
  books.postAll_keeps l k

theorem guard_key_some {e : JournalEntry} {k : String} (h : guard.key e = some k) :
    e.isBalanced = true ∧ e.entryId = k := by
  have h' : (if e.isBalanced then some e.entryId else none) = some k := h
  split at h'
  · rename_i hb
    exact ⟨hb, Option.some.inj h'⟩
  · cases h'

theorem balanced_of_mem {l : List JournalEntry} {e : JournalEntry}
    (he : e ∈ (Ledger.postAll store empty l).2.entries) : e.isBalanced = true := by
  rw [mem_entries_iff, find?_postAll] at he
  exact (guard_key_some (Guard.key_of_holder he).1).1

theorem booked_eq (l : List JournalEntry) (tenantId currency : String) :
    booked .debit tenantId currency (Ledger.postAll store empty l).2 =
      booked .credit tenantId currency (Ledger.postAll store empty l).2 := by
  refine sideTotal_flatMap_eq ?_
  intro e he
  have hb := balanced_of_mem (List.mem_filter.mp he).1
  exact ((isBalanced_iff e).mp hb).1

theorem find?_postAll_append {l : List JournalEntry} {k : String} {e : JournalEntry}
    (h : (Ledger.postAll store empty l).2.find? k = some e) (m : List JournalEntry) :
    (Ledger.postAll store empty (l ++ m)).2.find? k = some e := by
  rw [find?_postAll] at h ⊢
  exact Guard.holder_append_of_some h m

theorem countP_posted (l : List JournalEntry) (k : String) :
    (Ledger.postAll store empty l).1.countP
        (fun x => decide (x.1.entryId = k ∧ statusOf x.2 = some .posted)) =
      if ((Ledger.postAll store empty l).2.find? k).isSome then 1 else 0 := by
  have hid : ∀ (e : JournalEntry) (k : String), guard.key e = some k → some e.entryId = some k :=
    fun _ _ h => congrArg some (guard_key_some h).2
  rw [find?_postAll, ← books.countP_posted hid l k]
  refine List.countP_congr ?_
  simp

/-- After the post that returned `posted`, every balanced post of the id returns `duplicate`. -/
theorem duplicate_of_later {l : List JournalEntry}
    {pre mid post : List (JournalEntry × Except PyError PostResult)}
    {x y : JournalEntry × Except PyError PostResult}
    (hl : (Ledger.postAll store empty l).1 = pre ++ x :: (mid ++ y :: post))
    (hx : statusOf x.2 = some .posted) (hid : y.1.entryId = x.1.entryId)
    (hb : y.1.isBalanced = true) : y.2 = .ok (postResult y.1 .duplicate) := by
  rw [books.postAll_fst] at hl
  have hl' : answers (fun h e => books.reply e (guard.verdict h e)) l =
      (pre ++ x :: mid) ++ y :: post := by simpa using hl
  obtain ⟨-, hxr⟩ := answers_split hl
  obtain ⟨-, hyr⟩ := answers_split hl'
  have hvx : guard.verdict (pre.map Prod.fst) x.1 = .inserted := by
    rw [hxr] at hx
    exact (statusOf_reply _ _).mp hx
  obtain ⟨k, hkx, -⟩ := Guard.verdict_eq_inserted_iff.mp hvx
  have hky : guard.key y.1 = some k := by
    rw [← (guard_key_some hkx).2, ← hid]
    simp [guard, hb]
  rw [hyr, List.map_append, List.map_cons, Guard.verdict_of_taken hvx hkx hky]
  rfl

/-- A balanced post under a free id is stored. -/
theorem posted_of_free (s : InMemoryLedgerStore) {e : JournalEntry} (hb : e.isBalanced = true)
    (hfree : s.find? e.entryId = none) :
    statusOf (Ledger.post store e s).1 = some .posted ∧
      (Ledger.post store e s).2.find? e.entryId = some e := by
  have hinsert : store.insertIfAbsent e s = (.ok true, s.add e hfree) := by
    simp [store, insertIfAbsent, hfree]
  rw [post_of_balanced store hb, hinsert]
  refine ⟨rfl, ?_⟩
  show (s.add e hfree).find? e.entryId = some e
  rw [find?_add]
  simp

/-- Over every run of posts on an in-memory store. -/
theorem double_entry (l : List JournalEntry) :
    let run := Ledger.postAll store empty l
    (∀ e ∈ run.2.entries, e.totalDebits = e.totalCredits ∧ 0 < e.totalDebits) ∧
    (∀ tenantId currency,
      booked .debit tenantId currency run.2 = booked .credit tenantId currency run.2) ∧
    (∀ m entryId e, run.2.find? entryId = some e →
      (Ledger.postAll store empty (l ++ m)).2.find? entryId = some e) ∧
    (∀ entryId, (run.2.find? entryId).isSome →
      run.1.countP (fun x => decide (x.1.entryId = entryId ∧ statusOf x.2 = some .posted)) = 1) ∧
    (∀ pre x mid y post, run.1 = pre ++ x :: (mid ++ y :: post) → statusOf x.2 = some .posted →
      y.1.entryId = x.1.entryId → y.1.isBalanced = true →
        statusOf y.2 = some .duplicate) ∧
    (∀ e msg, (Ledger.post store e run.2).1 = .error (.unbalancedEntry msg) →
      (Ledger.post store e run.2).2 = run.2) ∧
    (∀ e, e.isBalanced = true → run.2.find? e.entryId = none →
      statusOf (Ledger.post store e run.2).1 = some .posted ∧
        (Ledger.post store e run.2).2.find? e.entryId = some e) := by
  intro run
  refine ⟨?_, booked_eq l, ?_, ?_, ?_, ?_, fun _ => posted_of_free run.2⟩
  · intro e he
    exact (isBalanced_iff e).mp (balanced_of_mem he)
  · intro m entryId e h
    exact find?_postAll_append h m
  · intro entryId h
    rw [countP_posted, if_pos h]
  · intro pre x mid y post hl hx hid hb
    rw [duplicate_of_later hl hx hid hb]
    rfl
  · intro e msg h
    by_cases hb : e.isBalanced = true
    · -- a balanced post of the in-memory store does not raise
      rw [post_of_balanced store hb] at h
      simp [store] at h
    · have hb' : e.isBalanced = false := by simpa using hb
      rw [post_of_unbalanced store hb']

end InMemoryLedgerStore

end CaviErp
