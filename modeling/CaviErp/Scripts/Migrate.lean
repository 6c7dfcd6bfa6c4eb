import CaviErp.Lib.Action
import Mathlib.Data.List.Sort
import Mathlib.Data.String.Basic

/-!
# The migration runner

`scripts/migrate.py`: the migrations of a directory, those that a database has recorded, and the two commands
that change it. A `with connection()` is one transaction, which may fail; it then leaves nothing behind. The
SQL of a migration is taken not to touch the tracking table.
-/

namespace CaviErp

open Py

namespace Migrate

structure File where
  name : String
  text : String
deriving DecidableEq, Repr

/-- The directory of the migrations. -/
structure Directory where
  files : List File
  /-- No two files of a directory have one name. -/
  nodup : (files.map File.name).Nodup

/-! ## File names -/

/-- The zeros of the decimal digits of Unicode 14, each followed by its nine others. -/
def digitZeros : List Nat :=
  [0x30, 0x660, 0x6f0, 0x7c0, 0x966, 0x9e6, 0xa66, 0xae6, 0xb66, 0xbe6, 0xc66, 0xce6, 0xd66, 0xde6, 0xe50,
    0xed0, 0xf20, 0x1040, 0x1090, 0x17e0, 0x1810, 0x1946, 0x19d0, 0x1a80, 0x1a90, 0x1b50, 0x1bb0, 0x1c40,
    0x1c50, 0xa620, 0xa8d0, 0xa900, 0xa9d0, 0xa9f0, 0xaa50, 0xabf0, 0xff10, 0x104a0, 0x10d30, 0x11066,
    0x110f0, 0x11136, 0x111d0, 0x112f0, 0x11450, 0x114d0, 0x11650, 0x116c0, 0x11730, 0x118e0, 0x11950,
    0x11c50, 0x11d50, 0x11da0, 0x16a60, 0x16ac0, 0x16b50, 0x1d7ce, 0x1d7d8, 0x1d7e2, 0x1d7ec, 0x1d7f6,
    0x1e140, 0x1e2f0, 0x1e950, 0x1fbf0]

/-- The value of a character that `\d` matches. -/
def digitValue (c : Char) : Option Nat :=
  (digitZeros.find? fun z => z ≤ c.toNat && c.toNat < z + 10).map (c.toNat - ·)

def isDigit (c : Char) : Bool := (digitValue c).isSome

/-- The number that a version writes. -/
def number (version : String) : Nat :=
  version.toList.foldl (fun n c => 10 * n + (digitValue c).getD 0) 0

/-- `s.endswith(suffix)`. -/
def endsWith (s suffix : String) : Bool := suffix.toList.isSuffixOf s.toList

structure Migration where
  version : String
  name : String
  /-- `path`, with what is there to read. -/
  file : File
deriving DecidableEq, Repr

namespace Migration

/-- A match of `_UP`: digits, an underscore, and a name without a line break before `.sql`. -/
def ofFile (file : File) : Option Migration :=
  let version := file.name.toList.takeWhile isDigit
  match file.name.toList.dropWhile isDigit with
  | '_' :: rest =>
    let name := rest.take (rest.length - 4)
    if version ≠ [] ∧ name ≠ [] ∧ '\n' ∉ name ∧ rest.drop (rest.length - 4) = ".sql".toList then
      some ⟨String.ofList version, String.ofList name, file⟩
    else none
  | _ => none

def downName (m : Migration) : String := m.version ++ "_" ++ m.name ++ ".down.sql"

/-- The file at `down_path`, if there is one. -/
def downFile (m : Migration) (dir : Directory) : Option File :=
  dir.files.find? fun file => file.name = m.downName

def hasDown (m : Migration) (dir : Directory) : Bool := (m.downFile dir).isSome

end Migration

/-- `discover_migrations`: in the order of the file names. -/
def discoverMigrations (dir : Directory) : List Migration :=
  ((dir.files.filter fun file => endsWith file.name ".sql").insertionSort fun a b => a.name ≤ b.name).filterMap
    fun file => if endsWith file.name ".down.sql" then none else Migration.ofFile file

def pending (allMigrations : List Migration) (appliedVersions : List String) : List Migration :=
  allMigrations.filter fun m => m.version ∉ appliedVersions

/-! ## The database -/

/-- A row of `schema_migrations`. -/
structure Row where
  version : String
  name : String
deriving DecidableEq, Repr

def Migration.row (m : Migration) : Row := ⟨m.version, m.name⟩

/-- A transaction that ran the SQL of a migration, or that of its down file. -/
inductive Commit where
  | up (m : Migration)
  | down (m : Migration) (file : File)
deriving DecidableEq, Repr

structure Database where
  /-- `schema_migrations`, in the order of insertion. -/
  tracking : List Row := []
  /-- The transactions that were committed, but for those that only read. -/
  log : List Commit := []
deriving DecidableEq, Repr

namespace Database

def versions (db : Database) : List String := db.tracking.map Row.version

/-- The transaction of a migration. -/
def commitUp (db : Database) (m : Migration) : Database :=
  ⟨db.tracking ++ [m.row], db.log ++ [.up m]⟩

/-- The transaction of its reversal. -/
def commitDown (db : Database) (m : Migration) (file : File) : Database :=
  ⟨db.tracking.filter fun row => row.version ≠ m.version, db.log ++ [.down m file]⟩

end Database

/-- What a command raises. -/
inductive Failure where
  /-- A connection, a script or a commit failed. -/
  | database (text : String)
  | uniqueViolation (version : String)
  | systemExit (text : String)
deriving DecidableEq, Repr

/-- What ends the transactions of one command, besides a version that is recorded already. -/
structure Env where
  tracking : Option String := none
  up : Migration → Option String := fun _ => none
  down : Migration → Option String := fun _ => none

variable (env : Env)

/-- `CREATE_TRACKING`, and what the tracking table holds. -/
def readTracking : Action Database Failure (List Row) := do
  Action.raiseIf (env.tracking.map .database)
  let db ← Action.read
  return db.tracking

/-- The transaction of one migration; `version` is the primary key. -/
def applyMigration (m : Migration) : Action Database Failure Unit := do
  Action.raiseIf ((env.up m).map .database)
  let db ← Action.read
  if m.version ∈ db.versions then Action.raise (.uniqueViolation m.version)
  else Action.modify fun db => db.commitUp m

/-- The loop of `apply_pending`, past the versions in `done`. -/
def applyAll (done : List String) : List Migration → Action Database Failure (List String)
  | [] => pure []
  | m :: ms =>
    if m.version ∈ done then applyAll done ms
    else do
      applyMigration env m
      let applied ← applyAll done ms
      return m.version :: applied

/-- `apply_pending`: the versions that are recorded are read once. -/
def applyPending (dir : Directory) : Action Database Failure (List String) := do
  let rows ← readTracking env
  applyAll env (rows.map Row.version) (discoverMigrations dir)

/-- `status`: the versions of the directory that are recorded, sorted, and those that are not. -/
def status (dir : Directory) : Action Database Failure (List String × List String) := do
  let rows ← readTracking env
  let done := rows.map Row.version
  let allMigrations := discoverMigrations dir
  let applied := (allMigrations.filter fun m => m.version ∈ done).map Migration.version
  return (applied.insertionSort (· ≤ ·), (pending allMigrations done).map Migration.version)

/-- The collation of the column `version`: a total order of the texts. -/
structure Collation where
  le : String → String → Bool
  trans : ∀ a b c, le a b = true → le b c = true → le a c = true
  antisymm : ∀ a b, le a b = true → le b a = true → a = b
  total : ∀ a b, le a b = true ∨ le b a = true

variable (collation : Collation)

/-- `ORDER BY version DESC LIMIT 1`. -/
def lastByVersion : List Row → Option Row
  | [] => none
  | row :: rows =>
    match lastByVersion rows with
    | none => some row
    | some last => if collation.le row.version last.version then some last else some row

/-- `rollback_last`. -/
def rollbackLast (dir : Directory) : Action Database Failure (Option String) := do
  let rows ← readTracking env
  match lastByVersion collation rows with
  | none => return none
  | some row =>
    match (discoverMigrations dir).find? fun m => m.version = row.version with
    | none => Action.raise (.systemExit ("no down migration for " ++ row.version ++ "; cannot roll back"))
    | some m =>
      match m.downFile dir with
      | none => Action.raise (.systemExit ("no down migration for " ++ row.version ++ "; cannot roll back"))
      | some file => do
        Action.raiseIf ((env.down m).map .database)
        Action.modify fun db => db.commitDown m file
        return some row.version

end Migrate

end CaviErp
