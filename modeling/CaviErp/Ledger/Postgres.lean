import CaviErp.Ledger.Ledger

/-!
# The Postgres store of the ledger

`PostgresLedgerStore` over the tables of `migrations/0002_ledger.sql` and `0003_tenant_isolation.sql`.
An insert is one transaction: it commits as a whole or leaves the tables as they were. What the
server makes of a value bound to a column is taken from a `Server`: the cast of a text to `UUID`, of a
text to `CHAR(3)`, and whether it can store a text at all.
-/

namespace CaviErp

open Py

namespace Postgres

/-- The parts of the server's type system the ledger's tables rely on. -/
structure Server (κ : Type) where
  /-- The `UUID` a text denotes. -/
  uuid : String → Option κ
  /-- A text as a `CHAR(3)` column gives it back. -/
  char3 : String → Option String
  /-- Whether a text can be bound to a `TEXT` column. -/
  storable : String → Bool

/-- Whether an integer fits a `BIGINT` column. -/
def isBigint (n : Int) : Bool := decide (-2 ^ 63 ≤ n) && decide (n < 2 ^ 63)

/-- A row of `journal_entry`. -/
structure EntryRow (κ : Type) where
  entryId : κ
  tenantId : String
  currency : String
  memo : Option String
  totalMinor : Int
deriving DecidableEq, Repr

/-- A row of `journal_line`. -/
structure LineRow (κ : Type) where
  entryId : κ
  tenantId : String
  account : String
  direction : Direction
  amountMinor : Int
deriving DecidableEq, Repr

/-- The tables; the lines stand in the order of their serial `id`. -/
structure Tables (κ : Type) where
  entries : List (EntryRow κ) := []
  lines : List (LineRow κ) := []

variable {κ : Type} [DecidableEq κ] (srv : Server κ)

/-- The row of `journal_entry` for an entry; `none` where binding or the check of the total fails. -/
def entryRow (entry : JournalEntry) : Option (EntryRow κ) := do
  let entryId ← srv.uuid entry.entryId
  let currency ← srv.char3 entry.currency
  if srv.storable entry.tenantId && entry.memo.all srv.storable &&
      isBigint entry.totalDebits && decide (0 < entry.totalDebits) then
    some { entryId, tenantId := entry.tenantId, currency, memo := entry.memo,
           totalMinor := entry.totalDebits }
  else none

/-- The row of `journal_line` for a line; `none` where binding or the check of the amount fails. -/
def lineRow (row : EntryRow κ) (line : JournalLine) : Option (LineRow κ) :=
  if srv.storable line.account && isBigint line.amountMinor && decide (0 < line.amountMinor) then
    some { entryId := row.entryId, tenantId := row.tenantId, account := line.account,
           direction := line.direction, amountMinor := line.amountMinor }
  else none

def LineRow.line (row : LineRow κ) : JournalLine :=
  { account := row.account, direction := row.direction, amountMinor := row.amountMinor }

def get (tenantId entryId : String) (t : Tables κ) : Except PyError (Option JournalEntry) :=
  match srv.uuid entryId, srv.storable tenantId with
  | some k, true =>
    match t.entries.find? fun row => row.tenantId = tenantId ∧ row.entryId = k with
    | none => .ok none
    | some head =>
      let rows := t.lines.filter fun row => row.tenantId = tenantId ∧ row.entryId = k
      .ok (some { entryId, tenantId, currency := head.currency, lines := rows.map LineRow.line,
                  memo := head.memo })
  | _, _ => .error (.storeError "invalid input syntax")

/-- `insert_if_absent`: the head is guarded by `ON CONFLICT (entry_id) DO NOTHING`, and lines are
only inserted under a head that was. -/
def insertIfAbsent (entry : JournalEntry) : Action (Tables κ) PyError Bool := fun t =>
  match entryRow srv entry with
  | none => (.error (.storeError "invalid journal_entry"), t)
  | some row =>
    if t.entries.any fun r => r.entryId = row.entryId then (.ok false, t)
    else
      match entry.lines.mapM (lineRow srv row) with
      | none => (.error (.storeError "invalid journal_line"), t)
      | some rows => (.ok true, { entries := t.entries ++ [row], lines := t.lines ++ rows })

def store : LedgerStore (Tables κ) where
  get := get srv
  insertIfAbsent := insertIfAbsent srv

end Postgres

end CaviErp
