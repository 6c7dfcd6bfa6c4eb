import CaviErp.Ledger.Postgres
import CaviErp.Lib.FirstWriter

/-!
# The books as a first-writer-wins store

What both stores of the ledger are for: a journal in which the first admissible post under an id takes
it. A state of a store is related to the history of posts that led to it, and every answer of the store
is a function of that history.
-/

namespace CaviErp

open FirstWriter

/-- The status a post returned, if it returned. -/
def statusOf : Except PyError PostResult → Option PostStatus
  | .ok r => some r.status
  | .error _ => none

/-- The result of a post that the store accepted. -/
def postResult (e : JournalEntry) (status : PostStatus) : PostResult where
  entryId := e.entryId
  currency := e.currency
  status := status
  totalMinor := e.totalDebits
  lineCount := e.lines.length

/-- That a store, started in `s₀`, keeps the books of a `guard`. -/
structure Books {σ κ : Type} [DecidableEq κ] (store : LedgerStore σ) (s₀ : σ)
    (guard : Guard JournalEntry κ) where
  /-- What `post` makes of a verdict. -/
  reply : JournalEntry → Verdict → Except PyError PostResult
  /-- What `get` shows a tenant of the entries it owns. -/
  shown : String → String → (κ → Option JournalEntry) → Except PyError (Option JournalEntry)
  /-- The states that a history of posts can lead to. -/
  Keeps : σ → List JournalEntry → Prop
  init : Keeps s₀ []
  reply_injective : ∀ e, Function.Injective (reply e)
  reply_inserted : ∀ e, reply e .inserted = .ok (postResult e .posted)
  statusOf_reply : ∀ e v, statusOf (reply e v) = some .posted → v = .inserted
  post_fst : ∀ {s h}, Keeps s h → ∀ e,
    (Ledger.post store e s).1 = reply e (guard.verdict h e)
  post_snd : ∀ {s h}, Keeps s h → ∀ e, Keeps (Ledger.post store e s).2 (h ++ [e])
  get_eq : ∀ {s h}, Keeps s h → ∀ tenantId entryId, store.get tenantId entryId s =
    shown tenantId entryId fun k => (guard.holder h k).filter fun q => q.tenantId = tenantId

/-! ## The two guards -/

/-- The in-memory store: a balanced entry is keyed by its id, and nothing else can go wrong. -/
def InMemoryLedgerStore.guard : Guard JournalEntry String where
  key := fun e => if e.isBalanced then some e.entryId else none
  admits := fun _ => true

/-- The Postgres store: a balanced entry with a valid head row is keyed by that row, and takes its key
when all its lines can be inserted. -/
def Postgres.guard {κ : Type} (srv : Postgres.Server κ) : Guard JournalEntry κ where
  key := fun e => if e.isBalanced then (entryRow srv e).map EntryRow.entryId else none
  admits := fun e => ((entryRow srv e).bind fun row => e.lines.mapM (lineRow srv row)).isSome

/-! ## Tenants -/

/-- The posts of one tenant. -/
def postsOf (tenantId : String) (l : List JournalEntry) : List JournalEntry :=
  l.filter fun e => e.tenantId = tenantId

/-- A tenant's results, and everything it can read, are those of the run without the others. -/
def Noninterfering {σ : Type} (store : LedgerStore σ) (s₀ : σ) (tenantId : String)
    (l : List JournalEntry) : Prop :=
  (Ledger.postAll store s₀ l).1.filter (fun x => x.1.tenantId = tenantId) =
      (Ledger.postAll store s₀ (postsOf tenantId l)).1 ∧
    ∀ entryId, store.get tenantId entryId (Ledger.postAll store s₀ l).2 =
      store.get tenantId entryId (Ledger.postAll store s₀ (postsOf tenantId l)).2

end CaviErp
