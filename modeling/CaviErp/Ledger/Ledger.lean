import CaviErp.Lib.Action
import CaviErp.Base.Contract

/-!
# The double-entry core

`agents/ledger/ledger.py`: journal entries, the stores they are kept in and `Ledger.post`. The fields
of an entry have the types the dataclass declares; `from_payload` runs on schema-validated payloads,
where the values have them.
-/

namespace CaviErp

open Py

/-- The side of a line. -/
inductive Direction where
  | debit
  | credit
deriving DecidableEq, Repr

def Direction.value : Direction → String
  | .debit => "debit"
  | .credit => "credit"

def Direction.ofJson : Json → Except PyError Direction
  | .str "debit" => .ok .debit
  | .str "credit" => .ok .credit
  | j => .error (.valueError (j.pyStr ++ " is not a valid Direction"))

/-- A line of a journal entry, in minor units of its currency. -/
structure JournalLine where
  account : String
  direction : Direction
  amountMinor : Int
deriving DecidableEq, Repr

structure JournalEntry where
  entryId : String
  tenantId : String
  currency : String
  lines : List JournalLine
  memo : Option String := none
deriving DecidableEq, Repr

/-- The amounts of the lines on one side, summed. -/
def sideTotal (d : Direction) (lines : List JournalLine) : Int :=
  ((lines.filter fun ln => ln.direction = d).map JournalLine.amountMinor).sum

namespace JournalEntry

def totalDebits (e : JournalEntry) : Int := sideTotal .debit e.lines

def totalCredits (e : JournalEntry) : Int := sideTotal .credit e.lines

/-- `is_balanced`: debits equal credits, and money moved. -/
def isBalanced (e : JournalEntry) : Bool :=
  decide (e.totalDebits = e.totalCredits) && decide (0 < e.totalDebits)

end JournalEntry

/-- A value that is declared, and schema-validated, to be a string. -/
def asStr : Json → Except PyError String
  | .str s => .ok s
  | _ => .error (.typeError "not a str")

/-- A value that is declared `str | None`, as `get` returns it. -/
def asOptStr : Option Json → Except PyError (Option String)
  | none => .ok none
  | some .null => .ok none
  | some (.str s) => .ok (some s)
  | some _ => .error (.typeError "not a str")

/-- `int(x)`. -/
def asInt (j : Json) : Except PyError Int :=
  match j.toInt with
  | some n => .ok n
  | none => .error (.valueError "invalid literal for int()")

/-- One line of `payload["lines"]`. -/
def JournalLine.fromJson (line : Json) : Except PyError JournalLine := do
  let account ← item line "account" >>= asStr
  let direction ← item line "direction" >>= Direction.ofJson
  let amountMinor ← item line "amount_minor" >>= asInt
  return { account, direction, amountMinor }

/-- The elements `for line in xs` goes through. -/
def elements : Json → Except PyError (List Json)
  | .arr xs => .ok xs
  | _ => .error (.typeError "not a list")

def JournalEntry.fromPayload (payload : Json) (tenantId : String) : Except PyError JournalEntry :=
  if tenantId = "" then .error (.ledgerError "ledger entry requires a non-empty tenant_id")
  else do
    let lines ← item payload "lines" >>= elements >>= List.mapM JournalLine.fromJson
    let entryId ← item payload "entry_id" >>= asStr
    let currency ← item payload "currency" >>= asStr
    let memo ← getItem? payload "memo" >>= asOptStr
    return { entryId, tenantId, currency, lines, memo }

/-- The outcome of a post that did not raise. -/
inductive PostStatus where
  | posted
  | duplicate
deriving DecidableEq, Repr

structure PostResult where
  entryId : String
  currency : String
  status : PostStatus
  totalMinor : Int
  lineCount : Nat
deriving DecidableEq, Repr

/-- The `LedgerStore` protocol, for a store with states `σ`. -/
structure LedgerStore (σ : Type) where
  get : String → String → σ → Except PyError (Option JournalEntry)
  insertIfAbsent : JournalEntry → Action σ PyError Bool

def Ledger.post {σ : Type} (store : LedgerStore σ) (entry : JournalEntry) :
    Action σ PyError PostResult :=
  if !entry.isBalanced then
    Action.raise (.unbalancedEntry
      ("entry " ++ entry.entryId ++ ": debits " ++ toString entry.totalDebits ++
        " != credits " ++ toString entry.totalCredits))
  else do
    let inserted ← store.insertIfAbsent entry
    return {
      entryId := entry.entryId
      currency := entry.currency
      status := if inserted then .posted else .duplicate
      totalMinor := entry.totalDebits
      lineCount := entry.lines.length }

/-- Posts one after the other: what each returned or raised, and the final state. -/
def Ledger.postAll {σ : Type} (store : LedgerStore σ) :
    σ → List JournalEntry → List (JournalEntry × Except PyError PostResult) × σ
  | s, [] => ([], s)
  | s, e :: es =>
    let r := Ledger.post store e s
    let rest := Ledger.postAll store r.2 es
    ((e, r.1) :: rest.1, rest.2)

/-! ## The in-memory store -/

/-- `InMemoryLedgerStore`: the entries in the order of insertion, under distinct ids. -/
structure InMemoryLedgerStore where
  entries : List JournalEntry
  nodup : (entries.map JournalEntry.entryId).Nodup

namespace InMemoryLedgerStore

def empty : InMemoryLedgerStore := ⟨[], List.nodup_nil⟩

/-- `self._entries.get(entry_id)`. -/
def find? (s : InMemoryLedgerStore) (entryId : String) : Option JournalEntry :=
  s.entries.find? fun e => e.entryId = entryId

/-- `get`: an entry is only visible to its owning tenant. -/
def get (tenantId entryId : String) (s : InMemoryLedgerStore) : Option JournalEntry :=
  match s.find? entryId with
  | none => none
  | some entry => if entry.tenantId ≠ tenantId then none else some entry

/-- The store with an entry added under an id that is free. -/
def add (s : InMemoryLedgerStore) (entry : JournalEntry) (h : s.find? entry.entryId = none) :
    InMemoryLedgerStore where
  entries := s.entries ++ [entry]
  nodup := by
    have hfree : ∀ e ∈ s.entries, e.entryId ≠ entry.entryId := by
      simpa [find?] using h
    rw [List.map_append, List.nodup_append]
    refine ⟨s.nodup, by simp, ?_⟩
    intro a ha b hb
    obtain ⟨e, he, rfl⟩ := List.mem_map.mp ha
    simp only [List.map_cons, List.map_nil, List.mem_singleton] at hb
    rw [hb]
    exact hfree e he

def insertIfAbsent (entry : JournalEntry) (s : InMemoryLedgerStore) :
    Bool × InMemoryLedgerStore :=
  if h : s.find? entry.entryId = none then (true, s.add entry h) else (false, s)

/-- The store behind the protocol; its operations do not raise. -/
def store : LedgerStore InMemoryLedgerStore where
  get := fun tenantId entryId s => .ok (get tenantId entryId s)
  insertIfAbsent := fun entry s => (.ok (insertIfAbsent entry s).1, (insertIfAbsent entry s).2)

end InMemoryLedgerStore

end CaviErp
