import CaviErp.Scripts.Migrate

/-!
# Histories of the migration runner

What is asked of a history of commands: that each migration is committed once and in its turn, and that a
rollback undoes the latest of those still applied.
-/

namespace CaviErp

open Py

namespace Migrate

/-- Files were only added. -/
def Directory.Grows (dir dir' : Directory) : Prop := ∀ file ∈ dir.files, file ∈ dir'.files

def Growing (dirs : List Directory) : Prop := dirs.Pairwise Directory.Grows

/-- No two forward migrations have one version. -/
def DistinctVersions (dir : Directory) : Prop := ((discoverMigrations dir).map Migration.version).Nodup

/-! ## Applying -/

/-- A run of a command: what fails in it, and the directory it finds. -/
abbrev Run := Env × Directory

/-- The database after runs of `apply_pending`, any of which may have failed. -/
def applied (runs : List Run) : Database := runs.foldl (fun db run => (applyPending run.1 run.2 db).2) {}

/-- The SQL of every migration of the directory was committed once. -/
def ExactlyOnce (dir : Directory) (db : Database) : Prop :=
  ∀ m ∈ discoverMigrations dir, db.log.count (.up m) = 1

/-- Between the two databases, migrations of increasing numbers were committed. -/
def Ascends (db db' : Database) : Prop :=
  ∃ ms : List Migration, db'.log = db.log ++ ms.map .up ∧
    ms.Pairwise fun m m' => number m.version < number m'.version

/-- Of two migrations that are not recorded, the one whose file comes first has the smaller number. -/
def NamedInOrder (dir : Directory) (db : Database) : Prop :=
  ∀ m ∈ pending (discoverMigrations dir) db.versions, ∀ m' ∈ pending (discoverMigrations dir) db.versions,
    m.file.name < m'.file.name → number m.version < number m'.version

/-! ## Rolling back -/

inductive Command where
  | apply (env : Env) (dir : Directory)
  | rollback (env : Env) (dir : Directory)

def Command.dir : Command → Directory
  | .apply _ dir => dir
  | .rollback _ dir => dir

variable (collation : Collation)

def Command.exec : Command → Database → Database
  | .apply env dir, db => (applyPending env dir db).2
  | .rollback env dir, db => (rollbackLast env collation dir db).2

/-- The database after commands, any of which may have failed. -/
def executed (commands : List Command) : Database := commands.foldl (fun db c => c.exec collation db) {}

/-- The migrations that were applied and not reverted, in the order of their commits. -/
def stillApplied (log : List Commit) : List Migration :=
  log.foldl (fun ms c => match c with
    | .up m => ms ++ [m]
    | .down m _ => ms.erase m) []

/-- Every forward migration has a down file. -/
def HasDowns (dir : Directory) : Prop := ∀ m ∈ discoverMigrations dir, m.hasDown dir = true

def Collation.lt (s t : String) : Prop := collation.le t s = false

instance (s t : String) : Decidable (collation.lt s t) := inferInstanceAs (Decidable (collation.le t s = false))

/-- The migrations that are not recorded have versions after those that are, and the order of their files is
that of their versions. -/
structure Rising (dir : Directory) (db : Database) : Prop where
  above : ∀ m ∈ pending (discoverMigrations dir) db.versions, ∀ version ∈ db.versions,
    collation.lt version m.version
  named : ∀ m ∈ pending (discoverMigrations dir) db.versions,
    ∀ m' ∈ pending (discoverMigrations dir) db.versions,
      m.file.name < m'.file.name → collation.lt m.version m'.version

/-- What a command has to find. -/
def Command.Fits : Command → Database → Prop
  | .apply _ dir, db => DistinctVersions dir ∧ Rising collation dir db
  | .rollback _ dir, _ => DistinctVersions dir

def EachFits (commands : List Command) : Prop :=
  ∀ pre c post, commands = pre ++ c :: post → c.Fits collation (executed collation pre)

/-- A rollback that returns has reverted the migration committed last among those still applied. -/
def UndoesLatest (env : Env) (dir : Directory) (db : Database) : Prop :=
  ∀ version, (rollbackLast env collation dir db).1 = .ok version →
    match (stillApplied db.log).getLast? with
    | none => version = none ∧ (rollbackLast env collation dir db).2 = db
    | some m => version = some m.version ∧ ∃ file, m.downFile dir = some file ∧
        (rollbackLast env collation dir db).2.log = db.log ++ [.down m file] ∧
        stillApplied (rollbackLast env collation dir db).2.log = (stillApplied db.log).dropLast

/-- Rollbacks one after the other, and what they return. -/
def rollbackAll : List Run → Action Database Failure (List (Option String))
  | [] => pure []
  | run :: runs => do
    let version ← rollbackLast run.1 collation run.2
    let versions ← rollbackAll runs
    return version :: versions

/-- No transaction of a rollback fails. -/
def Env.Sound (env : Env) : Prop := env.tracking = none ∧ ∀ m, env.down m = none

/-- As many rollbacks as there are versions return them from the last to the first, and restore what was
applied before. -/
def Restores (versions : List String) (before after : Database) (rollbacks : List Run) : Prop :=
  (rollbackAll collation rollbacks after).1 = .ok (versions.reverse.map some) ∧
    (rollbackAll collation rollbacks after).2.tracking = before.tracking ∧
    stillApplied (rollbackAll collation rollbacks after).2.log = stillApplied before.log

end Migrate

end CaviErp
