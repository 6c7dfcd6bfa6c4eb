import CaviErp.Ledger.Postgres
import Mathlib.Data.List.Sort
import Mathlib.Logic.Function.Basic

/-!
# Concurrent posts in Postgres

`Ledger.post` over `PostgresLedgerStore.insert_if_absent`, statement by statement, for many clients at
once. A call is one transaction on a connection of the pool: the head is inserted with
`ON CONFLICT (entry_id) DO NOTHING`, then the lines one by one, and the connection commits when the block is
left. Until then the rows are seen by the transaction alone, but its head already stands in the index of
the primary key, where an insert of the same id has to wait for it.
-/

namespace CaviErp

namespace Postgres

/-- A row of `journal_line` with its serial `id`. -/
structure StoredLine (κ : Type) where
  id : Nat
  row : LineRow κ
deriving DecidableEq, Repr

/-- How far the call of a client has come. -/
inductive Session (κ : Type) where
  | idle
  /-- The entry is balanced, and the transaction begins. -/
  | begun (entry : JournalEntry)
  /-- The head and some of the lines are inserted; `rest` are the lines still to come. -/
  | writing (entry : JournalEntry) (head : EntryRow κ) (lines : List (StoredLine κ))
    (rest : List JournalLine)
  /-- The insert of the head wrote no row. -/
  | present (entry : JournalEntry)

/-- The server, with the clients `ι` connected to it. -/
structure Database (ι κ : Type) where
  /-- The committed rows of `journal_entry`. -/
  entries : List (EntryRow κ) := []
  /-- The committed rows of `journal_line`, in the order of the commits. -/
  lines : List (StoredLine κ) := []
  /-- The next value of the sequence of `journal_line.id`. -/
  nextId : Nat := 1
  /-- The transaction whose head with the id is in the index and not committed. -/
  holder : κ → Option ι := fun _ => none
  sessions : ι → Session κ := fun _ => .idle
  /-- The posts whose transaction was committed, with what `insert_if_absent` returned. -/
  committed : List (JournalEntry × Bool) := []

/-- What one client does next. -/
inductive Statement (ι : Type) where
  | post (client : ι) (entry : JournalEntry)
  | insertHead (client : ι)
  | insertLine (client : ι)
  | commit (client : ι)
  /-- A statement failed, or the connection was lost. -/
  | abort (client : ι)
  /-- A serial `id` is drawn by a statement that fails. -/
  | burn

namespace Database

variable {ι κ : Type}

/-- `SELECT … WHERE entry_id = … ORDER BY id`, over the committed rows. -/
def linesUnder [DecidableEq κ] (db : Database ι κ) (entryId : κ) : List (LineRow κ) :=
  ((db.lines.filter fun line => line.row.entryId = entryId).insertionSort
    fun a b => a.id ≤ b.id).map StoredLine.row

variable [DecidableEq ι] [DecidableEq κ] (srv : Server κ)

def goto (db : Database ι κ) (client : ι) (session : Session κ) : Database ι κ :=
  { db with sessions := Function.update db.sessions client session }

/-- The transaction of a client ends, and with it its claim on the id of a head. -/
def finish (db : Database ι κ) (client : ι) : Database ι κ :=
  match db.sessions client with
  | .writing _ head _ _ =>
    { db.goto client .idle with holder := Function.update db.holder head.entryId none }
  | _ => db.goto client .idle

/-- A statement as the server executes it, or `none` where it waits, fails, or does not come next. A
post of an entry that is not balanced raises before it reaches the store. -/
def step (db : Database ι κ) : Statement ι → Option (Database ι κ)
  | .post client entry =>
    match db.sessions client with
    | .idle => some (if entry.isBalanced then db.goto client (.begun entry) else db)
    | _ => none
  | .insertHead client =>
    match db.sessions client with
    | .begun entry =>
      match entryRow srv entry with
      | none => none
      | some head =>
        match db.holder head.entryId with
        | some _ => none
        | none =>
          if db.entries.any fun row => row.entryId = head.entryId then
            some (db.goto client (.present entry))
          else
            some { db.goto client (.writing entry head [] entry.lines) with
              holder := Function.update db.holder head.entryId (some client) }
    | _ => none
  | .insertLine client =>
    match db.sessions client with
    | .writing entry head lines (line :: rest) =>
      match lineRow srv head line with
      | none => none
      | some row =>
        some { db.goto client (.writing entry head (lines ++ [⟨db.nextId, row⟩]) rest) with
          nextId := db.nextId + 1 }
    | _ => none
  | .commit client =>
    match db.sessions client with
    | .writing entry head lines [] =>
      some { db.finish client with
        entries := db.entries ++ [head]
        lines := db.lines ++ lines
        committed := db.committed ++ [(entry, true)] }
    | .present entry =>
      some { db.finish client with committed := db.committed ++ [(entry, false)] }
    | _ => none
  | .abort client =>
    match db.sessions client with
    | .idle => none
    | _ => some (db.finish client)
  | .burn => some { db with nextId := db.nextId + 1 }

/-- Statements in the order the server executes them; `none` where one is not possible. -/
def run (db : Database ι κ) : List (Statement ι) → Option (Database ι κ)
  | [] => some db
  | statement :: statements => do
    let db' ← step srv db statement
    run db' statements

/-- The committed rows as the store sees them. -/
def tables (db : Database ι κ) : Tables κ where
  entries := db.entries
  lines := db.lines.map StoredLine.row

/-- The journal is atomic: no entry is there in part, mixed with another or twice. -/
structure Atomic (db : Database ι κ) : Prop where
  /-- The total of a head is that of its debit lines and that of its credit lines. -/
  totals : ∀ head ∈ db.entries,
    sideTotal .debit ((db.linesUnder head.entryId).map LineRow.line) = head.totalMinor ∧
      sideTotal .credit ((db.linesUnder head.entryId).map LineRow.line) = head.totalMinor
  /-- The lines of a head are those of one post that returned `True`, in order. -/
  single : ∀ head ∈ db.entries, ∃ entry, (entry, true) ∈ db.committed ∧
    entryRow srv entry = some head ∧
      entry.lines.mapM (lineRow srv head) = some (db.linesUnder head.entryId)
  headed : ∀ line ∈ db.lines, ∃ head ∈ db.entries, head.entryId = line.row.entryId
  /-- Of the committed posts with one id, one returned `True`. -/
  once : ∀ post ∈ db.committed, ∃ entryId, srv.uuid post.1.entryId = some entryId ∧
    db.committed.countP (fun p => decide (srv.uuid p.1.entryId = some entryId) && p.2) = 1

end Database

end Postgres

end CaviErp
