import CaviErp.Lib.Sorted
import CaviErp.Scripts.History
import Mathlib.Data.List.Count
import Mathlib.Data.List.Induction

/-!
# Migrations applied once

`apply_pending` commits a prefix of the migrations that are not recorded, in the order of their files, and all
of them where it returns. The versions in the log are those in the table, whose key keeps them distinct.
-/

namespace CaviErp

open Py

namespace Migrate

/-! ## The migrations of a directory -/

section Discover

variable {dir dir' : Directory} {file : File} {m m' : Migration}

theorem file_of_ofFile (h : Migration.ofFile file = some m) : m.file = file := by
  unfold Migration.ofFile at h
  dsimp only at h
  split at h
  · split at h
    · obtain rfl := Option.some.inj h
      rfl
    · cases h
  · cases h

theorem mem_discoverMigrations : m ∈ discoverMigrations dir ↔
    m.file ∈ dir.files ∧ endsWith m.file.name ".sql" = true ∧ endsWith m.file.name ".down.sql" = false ∧
      Migration.ofFile m.file = some m := by
  unfold discoverMigrations
  rw [List.mem_filterMap]
  constructor
  · rintro ⟨file, hfile, hm⟩
    rw [List.mem_insertionSort, List.mem_filter] at hfile
    split at hm
    · cases hm
    · rename_i hdown
      obtain rfl := file_of_ofFile hm
      exact ⟨hfile.1, hfile.2, by simpa using hdown, hm⟩
  · rintro ⟨hfile, hsql, hdown, hm⟩
    refine ⟨m.file, ?_, ?_⟩
    · rw [List.mem_insertionSort, List.mem_filter]
      exact ⟨hfile, hsql⟩
    · rw [if_neg (by simp [hdown])]
      exact hm

theorem Directory.Grows.discover (h : dir.Grows dir') (hm : m ∈ discoverMigrations dir) :
    m ∈ discoverMigrations dir' := by
  rw [mem_discoverMigrations] at hm ⊢
  exact ⟨h m.file hm.1, hm.2⟩

/-- The migrations come in the order of the names of their files. -/
theorem discoverMigrations_sorted (dir : Directory) :
    (discoverMigrations dir).Pairwise fun m m' => m.file.name < m'.file.name := by
  have hnames : ((dir.files.filter fun file => endsWith file.name ".sql").map File.name).Nodup :=
    (List.filter_sublist.map File.name).nodup dir.nodup
  unfold discoverMigrations
  rw [List.pairwise_filterMap]
  refine (Sorted.pairwise_lt File.name hnames).imp ?_
  intro a b hlt m hm m' hm'
  split at hm
  · cases hm
  · split at hm'
    · cases hm'
    · rw [file_of_ofFile hm, file_of_ofFile hm']
      exact hlt

theorem discoverMigrations_nodup (dir : Directory) : (discoverMigrations dir).Nodup := by
  refine (discoverMigrations_sorted dir).imp ?_
  rintro m _ hlt rfl
  exact lt_irrefl _ hlt

theorem pending_sorted (dir : Directory) (versions : List String) :
    (pending (discoverMigrations dir) versions).Pairwise fun m m' => m.file.name < m'.file.name :=
  (discoverMigrations_sorted dir).sublist List.filter_sublist

theorem namedInOrder_iff {db : Database} : NamedInOrder dir db ↔
    (pending (discoverMigrations dir) db.versions).Pairwise fun m m' => number m.version < number m'.version :=
  (Sorted.pairwise_iff (fun m : Migration => m.file.name) (pending_sorted dir db.versions)).symm

end Discover

/-! ## One run -/

/-- The database after the transactions of migrations. -/
def Database.commitUps (db : Database) (ms : List Migration) : Database :=
  ⟨db.tracking ++ ms.map Migration.row, db.log ++ ms.map .up⟩

section Apply

variable {env : Env} {dir : Directory} {db : Database}

theorem commitUps_nil (db : Database) : db.commitUps [] = db := by
  simp [Database.commitUps]

theorem commitUps_cons (db : Database) (m : Migration) (ms : List Migration) :
    (db.commitUp m).commitUps ms = db.commitUps (m :: ms) := by
  simp [Database.commitUps, Database.commitUp]

theorem versions_commitUps (db : Database) (ms : List Migration) :
    (db.commitUps ms).versions = db.versions ++ ms.map Migration.version := by
  simp [Database.commitUps, Database.versions, Migration.row]

theorem pending_cons_of_mem {m : Migration} {done : List String} (h : m.version ∈ done) (ms : List Migration) :
    pending (m :: ms) done = pending ms done := by
  unfold pending
  rw [List.filter_cons_of_neg (by simpa using h)]

theorem pending_cons_of_not_mem {m : Migration} {done : List String} (h : m.version ∉ done)
    (ms : List Migration) : pending (m :: ms) done = m :: pending ms done := by
  unfold pending
  rw [List.filter_cons_of_pos (by simpa using h)]

/-- All that the transaction of a migration can come down to. -/
theorem applyMigration_cases (env : Env) (m : Migration) (db : Database) :
    (∃ e, applyMigration env m db = (.error e, db)) ∨
      (m.version ∉ db.versions ∧ applyMigration env m db = (.ok (), db.commitUp m)) := by
  unfold applyMigration
  cases hup : env.up m with
  | some text => exact .inl ⟨.database text, rfl⟩
  | none =>
    by_cases hmem : m.version ∈ db.versions
    · refine .inl ⟨.uniqueViolation m.version, ?_⟩
      simp [hmem]
    · refine .inr ⟨hmem, ?_⟩
      simp [hmem]

theorem applyAll_cons {m : Migration} {done : List String} (hdone : m.version ∉ done)
    (hok : applyMigration env m db = (.ok (), db.commitUp m)) (ms : List Migration) :
    applyAll env done (m :: ms) db =
      ((applyAll env done ms (db.commitUp m)).1.map (m.version :: ·), (applyAll env done ms (db.commitUp m)).2) := by
  rw [applyAll, if_neg hdone, Action.bind_apply, hok]
  show (applyAll env done ms >>= fun applied => pure (m.version :: applied)) (db.commitUp m) = _
  rw [Action.bind_apply]
  rcases applyAll env done ms (db.commitUp m) with ⟨_ | vs, db'⟩ <;> rfl

/-- The loop commits a prefix of the pending migrations, and all of them where it returns. -/
theorem applyAll_spec (env : Env) (done : List String) (ms : List Migration) (db : Database) :
    ∃ new, new <+: pending ms done ∧ (applyAll env done ms db).2 = db.commitUps new ∧
      (db.versions.Nodup → (db.commitUps new).versions.Nodup) ∧
      ∀ vs, (applyAll env done ms db).1 = .ok vs → new = pending ms done ∧ vs = new.map Migration.version := by
  induction ms generalizing db with
  | nil =>
    refine ⟨[], List.nil_prefix, (commitUps_nil db).symm, ?_, ?_⟩
    · rw [commitUps_nil]
      exact id
    · intro vs hvs
      exact ⟨rfl, (Except.ok.inj hvs).symm⟩
  | cons m ms ih =>
    by_cases hdone : m.version ∈ done
    · rw [pending_cons_of_mem hdone, applyAll, if_pos hdone]
      exact ih db
    · rw [pending_cons_of_not_mem hdone]
      rcases applyMigration_cases env m db with ⟨e, he⟩ | ⟨hfresh, hok⟩
      · -- the run ends here
        rw [applyAll, if_neg hdone, Action.bind_apply, he]
        refine ⟨[], List.nil_prefix, (commitUps_nil db).symm, ?_, nofun⟩
        rw [commitUps_nil]
        exact id
      · rw [applyAll_cons hdone hok]
        obtain ⟨new, hlead, hdb, hnodup, hreturns⟩ := ih (db.commitUp m)
        rw [commitUps_cons] at hdb hnodup
        have hversions : (db.commitUp m).versions = db.versions ++ [m.version] := by
          simp [Database.versions, Database.commitUp, Migration.row]
        refine ⟨m :: new, List.cons_prefix_cons.mpr ⟨rfl, hlead⟩, hdb, ?_, ?_⟩
        · intro hold
          refine hnodup ?_
          rw [hversions, ← List.concat_eq_append, List.nodup_concat]
          exact ⟨hfresh, hold⟩
        · intro vs hvs
          cases hrest : (applyAll env done ms (db.commitUp m)).1 with
          | error e =>
            rw [hrest] at hvs
            cases hvs
          | ok rest =>
            rw [hrest] at hvs
            obtain rfl := Except.ok.inj hvs
            obtain ⟨rfl, rfl⟩ := hreturns rest hrest
            exact ⟨rfl, rfl⟩

/-- What `apply_pending` does. -/
theorem applyPending_spec (env : Env) (dir : Directory) (db : Database) :
    ∃ new, new <+: pending (discoverMigrations dir) db.versions ∧
      (applyPending env dir db).2 = db.commitUps new ∧
      (db.versions.Nodup → (db.commitUps new).versions.Nodup) ∧
      ∀ vs, (applyPending env dir db).1 = .ok vs →
        new = pending (discoverMigrations dir) db.versions ∧ vs = new.map Migration.version := by
  cases htracking : env.tracking with
  | some text =>
    have hraise : applyPending env dir db = (.error (.database text), db) := by
      simp [applyPending, readTracking, htracking]
    rw [hraise]
    refine ⟨[], List.nil_prefix, (commitUps_nil db).symm, ?_, nofun⟩
    rw [commitUps_nil]
    exact id
  | none =>
    have hread : applyPending env dir db = applyAll env db.versions (discoverMigrations dir) db := by
      simp [applyPending, readTracking, htracking, Database.versions]
    rw [hread]
    exact applyAll_spec env db.versions (discoverMigrations dir) db

end Apply

/-! ## Histories -/

/-- What holds after runs over directories that the present one has grown from. -/
structure Recorded (dir : Directory) (db : Database) : Prop where
  /-- The log is of migrations that the directory still has, and the table lists them. -/
  log : ∃ ms : List Migration, db.log = ms.map .up ∧ db.versions = ms.map Migration.version ∧
    ∀ m ∈ ms, m ∈ discoverMigrations dir
  key : db.versions.Nodup

section History

variable {dir dir' : Directory} {db : Database}

theorem recorded_empty (dir : Directory) : Recorded dir {} :=
  ⟨⟨[], rfl, rfl, nofun⟩, List.nodup_nil⟩

theorem Recorded.grow (h : Recorded dir db) (hgrows : dir.Grows dir') : Recorded dir' db := by
  obtain ⟨ms, hlog, hversions, hms⟩ := h.log
  exact ⟨⟨ms, hlog, hversions, fun m hm => hgrows.discover (hms m hm)⟩, h.key⟩

/-- One run. -/
theorem Recorded.apply (h : Recorded dir db) (env : Env) : Recorded dir (applyPending env dir db).2 := by
  obtain ⟨new, hlead, hdb, hnodup, -⟩ := applyPending_spec env dir db
  obtain ⟨ms, hlog, hversions, hms⟩ := h.log
  rw [hdb]
  refine ⟨⟨ms ++ new, ?_, ?_, ?_⟩, hnodup h.key⟩
  · simp [Database.commitUps, hlog]
  · rw [versions_commitUps, hversions, List.map_append]
  · intro m hm
    rcases List.mem_append.mp hm with hm | hm
    · exact hms m hm
    · exact List.mem_of_mem_filter (hlead.subset hm)

theorem applied_snoc (runs : List Run) (run : Run) :
    applied (runs ++ [run]) = (applyPending run.1 run.2 (applied runs)).2 := by
  simp [applied]

/-- All runs: what was committed is still there in a directory that has grown from those of the runs. -/
theorem applied_recorded (runs : List Run) (dir : Directory) (hgrow : Growing (runs.map Prod.snd ++ [dir])) :
    Recorded dir (applied runs) := by
  induction runs using List.reverseRecOn generalizing dir with
  | nil => exact recorded_empty dir
  | append_singleton runs run ih =>
    rw [List.map_append] at hgrow
    obtain ⟨hruns, -, hlast⟩ := List.pairwise_append.mp hgrow
    have hgrows : run.2.Grows dir := hlast run.2 (by simp) dir (by simp)
    rw [applied_snoc]
    exact ((ih run.2 hruns).apply run.1).grow hgrows

end History

/-! ## Once, and in turn -/

section Once

variable {dir : Directory} {env : Env} {db : Database} {vs : List String}

/-- After a run that returned, every version of the directory is recorded. -/
theorem version_mem_of_returned (hok : (applyPending env dir db).1 = .ok vs) {m : Migration}
    (hm : m ∈ discoverMigrations dir) : m.version ∈ (applyPending env dir db).2.versions := by
  obtain ⟨new, -, hdb, -, hreturns⟩ := applyPending_spec env dir db
  obtain ⟨hnew, -⟩ := hreturns vs hok
  rw [hdb, versions_commitUps, List.mem_append]
  by_cases hrecorded : m.version ∈ db.versions
  · exact .inl hrecorded
  · have hpending : m ∈ pending (discoverMigrations dir) db.versions :=
      List.mem_filter.mpr ⟨hm, by simpa using hrecorded⟩
    exact .inr (List.mem_map_of_mem (hnew ▸ hpending))

theorem exactlyOnce_iff (h : Recorded dir db) (hok : (applyPending env dir db).1 = .ok vs) :
    ExactlyOnce dir (applyPending env dir db).2 ↔ DistinctVersions dir := by
  obtain ⟨⟨ms, hlog, hversions, hms⟩, hkey⟩ := h.apply env
  have hcovered : ∀ m ∈ discoverMigrations dir, m.version ∈ ms.map Migration.version :=
    fun m hm => hversions ▸ version_mem_of_returned hok hm
  rw [hversions] at hkey
  have hcount : ∀ m, (applyPending env dir db).2.log.count (.up m) = ms.count m := by
    intro m
    rw [hlog]
    exact List.count_map_of_injective ms Commit.up (fun _ _ h => Commit.up.inj h) m
  unfold ExactlyOnce DistinctVersions
  simp only [hcount]
  constructor
  · intro honce
    have hmem : ∀ m ∈ discoverMigrations dir, m ∈ ms := by
      intro m hm
      exact List.count_pos_iff.mp (by rw [honce m hm]; exact one_pos)
    refine (discoverMigrations_nodup dir).map_on ?_
    intro m hm m' hm' hversion
    exact List.inj_on_of_nodup_map hkey (hmem m hm) (hmem m' hm') hversion
  · intro hdistinct m hm
    obtain ⟨m', hm', hversion⟩ := List.mem_map.mp (hcovered m hm)
    obtain rfl : m' = m := List.inj_on_of_nodup_map hdistinct (hms m' hm') hm hversion
    exact List.count_eq_one_of_mem hkey.of_map hm'

theorem ascends_commitUps_iff {new : List Migration} : Ascends db (db.commitUps new) ↔
    new.Pairwise fun m m' => number m.version < number m'.version := by
  constructor
  · rintro ⟨ms, hlog, hascends⟩
    have hmap : new.map Commit.up = ms.map Commit.up := List.append_cancel_left hlog
    obtain rfl : new = ms := List.map_injective_iff.mpr (fun _ _ h => Commit.up.inj h) hmap
    exact hascends
  · intro hascends
    exact ⟨new, rfl, hascends⟩

theorem ascends_of_named (h : NamedInOrder dir db) : Ascends db (applyPending env dir db).2 := by
  obtain ⟨new, hlead, hdb, -⟩ := applyPending_spec env dir db
  rw [hdb, ascends_commitUps_iff]
  exact (namedInOrder_iff.mp h).sublist hlead.sublist

theorem ascends_iff (hok : (applyPending env dir db).1 = .ok vs) :
    Ascends db (applyPending env dir db).2 ↔ NamedInOrder dir db := by
  obtain ⟨new, -, hdb, -, hreturns⟩ := applyPending_spec env dir db
  obtain ⟨rfl, -⟩ := hreturns vs hok
  rw [hdb, ascends_commitUps_iff, namedInOrder_iff]

end Once

/-- **Migrations are applied once and in turn exactly where their names allow it.** After any runs over
directories that grew, failed ones included: where a run returns, every migration of its directory was committed
once, and the run applied them by increasing number, if and only if the versions of the directory are distinct
and those not recorded are named in the order of their numbers. The latter is enough for the order of a run that
fails. -/
theorem applied_once_iff (runs : List Run) (env : Env) (dir : Directory)
    (hgrow : Growing (runs.map Prod.snd ++ [dir])) :
    (∀ vs, (applyPending env dir (applied runs)).1 = .ok vs →
      (ExactlyOnce dir (applyPending env dir (applied runs)).2 ∧
          Ascends (applied runs) (applyPending env dir (applied runs)).2 ↔
        DistinctVersions dir ∧ NamedInOrder dir (applied runs))) ∧
    (NamedInOrder dir (applied runs) → Ascends (applied runs) (applyPending env dir (applied runs)).2) := by
  refine ⟨?_, ascends_of_named⟩
  intro vs hok
  rw [exactlyOnce_iff (applied_recorded runs dir hgrow) hok, ascends_iff hok]

/-- Two migrations, and a third that is added to them. -/
def firstDirectory : Directory where
  files := [⟨"0002_ledger.sql", "create table journal_entry ();"⟩, ⟨"0001_init.sql", "create table event_log ();"⟩]
  nodup := by decide

def grownDirectory : Directory where
  files := ⟨"0003_audit.sql", "alter table event_log add hash text;"⟩ :: firstDirectory.files
  nodup := by decide

/-- The second migration fails in the first run, which leaves the first one behind. -/
def failingEnv : Env where
  up := fun m => if m.version = "0002" then some "connection lost" else none

theorem applied_once_grown :
    ExactlyOnce grownDirectory
      (applyPending {} grownDirectory (applied [(failingEnv, firstDirectory)])).2 := by
  have hgrow : Growing ([(failingEnv, firstDirectory)].map Prod.snd ++ [grownDirectory]) := by
    refine List.pairwise_pair.mpr ?_
    intro file hfile
    exact List.mem_cons_of_mem _ hfile
  have hreturns : (applyPending {} grownDirectory (applied [(failingEnv, firstDirectory)])).1 =
      .ok ["0002", "0003"] := by
    decide +kernel
  refine ((applied_once_iff [(failingEnv, firstDirectory)] {} grownDirectory hgrow).1 _ hreturns).mpr
    ⟨?_, namedInOrder_iff.mpr ?_⟩ |>.1
  · unfold DistinctVersions
    decide +kernel
  · decide +kernel

/-- Two files of one version. -/
def sharedVersion : Directory where
  files := [⟨"0001_accounts.sql", "create table account ();"⟩, ⟨"0001_audit.sql", "create table audit ();"⟩]
  nodup := by decide

/-- Versions of different widths. -/
def mixedWidths : Directory where
  files := [⟨"9_accounts.sql", "create table account ();"⟩, ⟨"10_audit.sql", "alter table account add hash text;"⟩]
  nodup := by decide

/-- The run after the one that failed on the key returns, and has skipped the second file. The tenth migration
is applied before the ninth. -/
theorem skipped_and_out_of_turn :
    ((applyPending {} sharedVersion (applied [({}, sharedVersion)])).1 = .ok [] ∧
      ¬ ExactlyOnce sharedVersion (applyPending {} sharedVersion (applied [({}, sharedVersion)])).2) ∧
    (applyPending {} mixedWidths {}).1 = .ok ["10", "9"] ∧
      ¬ Ascends {} (applyPending {} mixedWidths {}).2 := by
  have hreturns : (applyPending {} mixedWidths {}).1 = .ok ["10", "9"] := by decide +kernel
  refine ⟨⟨by decide +kernel, ?_⟩, hreturns, ?_⟩
  · unfold ExactlyOnce
    decide +kernel
  · rw [ascends_iff hreturns, namedInOrder_iff]
    decide +kernel

end Migrate

end CaviErp
