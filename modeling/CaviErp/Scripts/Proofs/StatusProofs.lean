import CaviErp.Scripts.Proofs.MigrateProofs

/-!
# What the status foretells

`--status` lists what the next run will apply: a run that fails applies a part of it, and leaves the rest to be
listed.
-/

namespace CaviErp

open Py

namespace Migrate

variable {env : Env} {dir : Directory} {db : Database}

/-- The versions of the directory that are recorded. -/
def recordedVersions (dir : Directory) (versions : List String) : List String :=
  ((discoverMigrations dir).filter fun m => m.version ∈ versions).map Migration.version

theorem status_eq (htracking : env.tracking = none) (dir : Directory) (db : Database) :
    status env dir db = (.ok ((recordedVersions dir db.versions).insertionSort (· ≤ ·),
      (pending (discoverMigrations dir) db.versions).map Migration.version), db) := by
  simp [status, readTracking, htracking, recordedVersions, Database.versions]

theorem status_tracking {listed : List String × List String} (h : (status env dir db).1 = .ok listed) :
    env.tracking = none := by
  unfold status readTracking at h
  cases htracking : env.tracking with
  | none => rfl
  | some text =>
    rw [htracking] at h
    cases h

/-- What is pending after migrations that were: the rest. -/
theorem pending_after (hdistinct : DistinctVersions dir) {new rest : List Migration} {versions : List String}
    (hsplit : pending (discoverMigrations dir) versions = new ++ rest) :
    pending (discoverMigrations dir) (versions ++ new.map Migration.version) = rest := by
  have hfilter : pending (discoverMigrations dir) (versions ++ new.map Migration.version) =
      (pending (discoverMigrations dir) versions).filter fun m => m.version ∉ new.map Migration.version := by
    unfold pending
    rw [List.filter_filter]
    refine List.filter_congr fun m _ => ?_
    simp only [List.mem_append, not_or, Bool.decide_and, Bool.and_comm]
  have hnodup : ((new ++ rest).map Migration.version).Nodup := by
    rw [← hsplit]
    exact (List.filter_sublist.map Migration.version).nodup hdistinct
  rw [List.map_append] at hnodup
  have hdisjoint := (List.nodup_append'.mp hnodup).2.2
  rw [hfilter, hsplit, List.filter_append]
  have hnew : (new.filter fun m => m.version ∉ new.map Migration.version) = [] := by
    rw [List.filter_eq_nil_iff]
    intro m hm
    simpa using ⟨m, hm, rfl⟩
  have hrest : (rest.filter fun m => m.version ∉ new.map Migration.version) = rest := by
    rw [List.filter_eq_self]
    intro m hm
    have hnot : m.version ∉ new.map Migration.version :=
      fun h => hdisjoint h (List.mem_map_of_mem hm)
    simpa using hnot
  rw [hnew, hrest, List.nil_append]

/-- What is recorded after migrations that were pending: what was, and they. -/
theorem recorded_after (hdistinct : DistinctVersions dir) {new rest : List Migration} {versions : List String}
    (hsplit : pending (discoverMigrations dir) versions = new ++ rest) :
    (recordedVersions dir (versions ++ new.map Migration.version)).Perm
      (recordedVersions dir versions ++ new.map Migration.version) := by
  have hpending : ∀ m, m ∈ new → m ∈ discoverMigrations dir ∧ m.version ∉ versions := by
    intro m hm
    have hmem : m ∈ pending (discoverMigrations dir) versions := hsplit ▸ List.mem_append_left _ hm
    obtain ⟨hdir, hnot⟩ := List.mem_filter.mp hmem
    exact ⟨hdir, by simpa using hnot⟩
  have hmem : ∀ versions v, v ∈ recordedVersions dir versions ↔
      v ∈ versions ∧ v ∈ (discoverMigrations dir).map Migration.version := by
    intro versions v
    unfold recordedVersions
    rw [List.mem_map, List.mem_map]
    constructor
    · rintro ⟨m, hm, rfl⟩
      obtain ⟨hdir, hin⟩ := List.mem_filter.mp hm
      exact ⟨by simpa using hin, m, hdir, rfl⟩
    · rintro ⟨hin, m, hdir, rfl⟩
      exact ⟨m, List.mem_filter.mpr ⟨hdir, by simpa using hin⟩, rfl⟩
  have hnodup : ∀ versions, (recordedVersions dir versions).Nodup := fun versions =>
    (List.filter_sublist.map Migration.version).nodup hdistinct
  have hnew : (new.map Migration.version).Nodup := by
    have hsub : new.Sublist (discoverMigrations dir) :=
      (List.sublist_append_left new rest).trans (hsplit ▸ List.filter_sublist)
    exact (hsub.map Migration.version).nodup hdistinct
  refine (List.perm_ext_iff_of_nodup (hnodup _) ?_).mpr fun v => ?_
  · refine List.nodup_append'.mpr ⟨hnodup _, hnew, ?_⟩
    intro v hv hvnew
    obtain ⟨m, hm, rfl⟩ := List.mem_map.mp hvnew
    exact (hpending m hm).2 ((hmem _ _).mp hv).1
  · rw [hmem, List.mem_append, List.mem_append, hmem]
    constructor
    · rintro ⟨hv | hv, hdir⟩
      · exact .inl ⟨hv, hdir⟩
      · exact .inr hv
    · rintro (⟨hv, hdir⟩ | hv)
      · exact ⟨.inl hv, hdir⟩
      · obtain ⟨m, hm, rfl⟩ := List.mem_map.mp hv
        exact ⟨.inr hv, List.mem_map_of_mem (hpending m hm).1⟩

/-- In a database that works the loop applies all that is pending. -/
theorem applyAll_ok (hup : ∀ m, env.up m = none) {done : List String} {ms : List Migration} (db : Database)
    (hnodup : ((pending ms done).map Migration.version).Nodup)
    (hfresh : ∀ m ∈ pending ms done, m.version ∉ db.versions) :
    ∃ vs, (applyAll env done ms db).1 = .ok vs := by
  induction ms generalizing db with
  | nil => exact ⟨[], rfl⟩
  | cons m ms ih =>
    by_cases hdone : m.version ∈ done
    · rw [pending_cons_of_mem hdone] at hnodup hfresh
      rw [applyAll, if_pos hdone]
      exact ih db hnodup hfresh
    · rw [pending_cons_of_not_mem hdone] at hnodup hfresh
      obtain ⟨hnot, hrest⟩ := List.nodup_cons.mp hnodup
      have hm := hfresh m List.mem_cons_self
      have hok : applyMigration env m db = (.ok (), db.commitUp m) := by
        simp [applyMigration, hup, hm]
      obtain ⟨vs, hvs⟩ := ih (db.commitUp m) hrest fun m' hm' => by
        have hversions : (db.commitUp m).versions = db.versions ++ [m.version] := by
          simp [Database.versions, Database.commitUp, Migration.row]
        rw [hversions, List.mem_append, List.mem_singleton, not_or]
        exact ⟨hfresh m' (List.mem_cons_of_mem _ hm'), fun h => hnot (h ▸ List.mem_map_of_mem hm')⟩
      rw [applyAll_cons hdone hok, hvs]
      exact ⟨_, rfl⟩

/-- **The status foretells the next run.** Of the versions listed as pending a run applies the first ones, and
all of them exactly if it returns them; it returns if the database works. Afterwards those it has applied are
listed as applied with the ones before, and the rest as pending. -/
theorem status_foretells (env look : Env) (dir : Directory) (hdistinct : DistinctVersions dir) (db : Database)
    {applied pend : List String} (hstatus : (status look dir db).1 = .ok (applied, pend)) :
    ∃ done rest, pend = done ++ rest ∧
      (status look dir (applyPending env dir db).2).1 = .ok ((applied ++ done).insertionSort (· ≤ ·), rest) ∧
      (∀ vs, (applyPending env dir db).1 = .ok vs → vs = pend ∧ rest = []) ∧
      (env.tracking = none → (∀ m, env.up m = none) → (applyPending env dir db).1 = .ok pend) := by
  have hlook := status_tracking hstatus
  rw [status_eq hlook] at hstatus
  obtain ⟨rfl, rfl⟩ := Prod.mk.inj (Except.ok.inj hstatus)
  obtain ⟨new, ⟨rest, hsplit⟩, hdb, -, hreturns⟩ := applyPending_spec env dir db
  refine ⟨new.map Migration.version, rest.map Migration.version, ?_, ?_, ?_, ?_⟩
  · rw [← hsplit, List.map_append]
  · rw [status_eq hlook, hdb, versions_commitUps, pending_after hdistinct hsplit.symm]
    have hperm := recorded_after hdistinct hsplit.symm
    have hsorted : ((recordedVersions dir db.versions).insertionSort (· ≤ ·)).Perm (recordedVersions dir db.versions) :=
      List.perm_insertionSort _ _
    have hnodup : ((recordedVersions dir (db.versions ++ new.map Migration.version)).map id).Nodup := by
      rw [List.map_id]
      exact (List.filter_sublist.map Migration.version).nodup hdistinct
    have hsame := (Sorted.insertionSort_eq_iff id hnodup).mpr (hperm.trans (hsorted.symm.append_right _))
    exact congrArg (fun l => Except.ok (l, rest.map Migration.version)) hsame
  · intro vs hvs
    obtain ⟨hnew, rfl⟩ := hreturns vs hvs
    have hnone : rest = [] := by
      rw [← hsplit] at hnew
      exact List.self_eq_append_right.mp hnew
    exact ⟨by rw [hnew], by rw [hnone]; rfl⟩
  · intro htracking hup
    have hread : applyPending env dir db = applyAll env db.versions (discoverMigrations dir) db := by
      simp [applyPending, readTracking, htracking, Database.versions]
    have hnodup : ((pending (discoverMigrations dir) db.versions).map Migration.version).Nodup :=
      (List.filter_sublist.map Migration.version).nodup hdistinct
    obtain ⟨vs, hvs⟩ := applyAll_ok hup db hnodup fun m hm => by simpa using (List.mem_filter.mp hm).2
    rw [← hread] at hvs
    obtain ⟨hnew, rfl⟩ := hreturns vs hvs
    rw [hvs, hnew]

/-- After the run that failed the second and the third migration are listed, and the next run returns them. -/
theorem status_foretells_grown :
    (applyPending {} grownDirectory (applied [(failingEnv, firstDirectory)])).1 = .ok ["0002", "0003"] := by
  have hdistinct : DistinctVersions grownDirectory := by
    unfold DistinctVersions
    decide +kernel
  have hlisted : (status {} grownDirectory (applied [(failingEnv, firstDirectory)])).1 =
      .ok (["0001"], ["0002", "0003"]) := by
    decide +kernel
  obtain ⟨done, rest, -, -, -, hreturns⟩ := status_foretells {} {} grownDirectory hdistinct _ hlisted
  exact hreturns rfl fun _ => rfl

end Migrate

end CaviErp
