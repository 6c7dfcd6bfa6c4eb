import CaviErp.Scripts.Proofs.MigrateProofs

/-!
# Rollbacks as a stack

While every migration that is applied has a version after those before it, the tracking table sorts as the
stack of commits does, and its last version is the top of that stack. `Stacked` says so; applying pushes, and
rolling back pops.
-/

namespace CaviErp

open Py

namespace Migrate

/-! ## The stack -/

theorem stillApplied_ups (log : List Commit) (ms : List Migration) :
    stillApplied (log ++ ms.map .up) = stillApplied log ++ ms := by
  induction ms using List.reverseRecOn with
  | nil => simp
  | append_singleton ms m ih =>
    rw [List.map_append, ← List.append_assoc, stillApplied, List.foldl_append]
    show stillApplied (log ++ ms.map .up) ++ [m] = _
    rw [ih, List.append_assoc]

theorem stillApplied_down (log : List Commit) (m : Migration) (file : File) :
    stillApplied (log ++ [.down m file]) = (stillApplied log).erase m := by
  rw [stillApplied, List.foldl_append]
  rfl

namespace Collation

variable {collation : Collation} {s t : String}

theorem ne_of_lt (h : collation.lt s t) : s ≠ t := by
  rintro rfl
  rcases collation.total s s with hself | hself <;> exact absurd (h.symm.trans hself) (by decide)

theorem le_of_lt (h : collation.lt s t) : collation.le s t = true := by
  rcases collation.total s t with hle | hle
  · exact hle
  · exact absurd (h.symm.trans hle) (by decide)

end Collation

/-- In a table whose versions rise, the last by version is the last row. -/
theorem lastByVersion_eq {collation : Collation} {rows : List Row}
    (h : rows.Pairwise fun row row' => collation.lt row.version row'.version) :
    lastByVersion collation rows = rows.getLast? := by
  induction rows with
  | nil => rfl
  | cons row rows ih =>
    obtain ⟨hrow, hrows⟩ := List.pairwise_cons.mp h
    rw [lastByVersion, ih hrows, List.getLast?_cons]
    cases hlast : rows.getLast? with
    | none => rfl
    | some last =>
      have hle := Collation.le_of_lt (hrow last (List.mem_of_getLast? hlast))
      simp only [if_pos hle, Option.getD_some]

/-- The table lists what is still applied, whose versions rise and which the directory still has. -/
structure Stacked (collation : Collation) (dir : Directory) (db : Database) : Prop where
  tracking : db.tracking = (stillApplied db.log).map Migration.row
  rising : (stillApplied db.log).Pairwise fun m m' => collation.lt m.version m'.version
  known : ∀ m ∈ stillApplied db.log, m ∈ discoverMigrations dir

section Step

variable {collation : Collation} {dir dir' : Directory} {db : Database}

theorem stacked_empty (collation : Collation) (dir : Directory) : Stacked collation dir {} :=
  ⟨rfl, List.Pairwise.nil, nofun⟩

theorem Stacked.grow (h : Stacked collation dir db) (hgrows : dir.Grows dir') : Stacked collation dir' db :=
  ⟨h.tracking, h.rising, fun m hm => hgrows.discover (h.known m hm)⟩

/-! ## Applying pushes -/

theorem Stacked.push {new : List Migration} (h : Stacked collation dir db) (hfits : Rising collation dir db)
    (hlead : new <+: pending (discoverMigrations dir) db.versions) :
    Stacked collation dir (db.commitUps new) ∧
      stillApplied (db.commitUps new).log = stillApplied db.log ++ new := by
  have hstill : stillApplied (db.commitUps new).log = stillApplied db.log ++ new := stillApplied_ups db.log new
  have hrising : (pending (discoverMigrations dir) db.versions).Pairwise
      fun m m' => collation.lt m.version m'.version :=
    (Sorted.pairwise_iff (fun m : Migration => m.file.name) (pending_sorted dir db.versions)).mpr
      hfits.named
  refine ⟨⟨?_, ?_, ?_⟩, hstill⟩
  · rw [hstill, List.map_append, ← h.tracking]
    rfl
  · rw [hstill, List.pairwise_append]
    refine ⟨h.rising, hrising.sublist hlead.sublist, ?_⟩
    intro m hm m' hm'
    have hrecorded : m.version ∈ db.versions := by
      unfold Database.versions
      rw [h.tracking, List.map_map]
      exact List.mem_map_of_mem (f := Row.version ∘ Migration.row) hm
    exact hfits.above m' (hlead.subset hm') m.version hrecorded
  · intro m hm
    rw [hstill] at hm
    rcases List.mem_append.mp hm with hm | hm
    · exact h.known m hm
    · exact List.mem_of_mem_filter (hlead.subset hm)

/-! ## Rolling back pops -/

theorem find?_version (hdistinct : DistinctVersions dir) {m : Migration} (hm : m ∈ discoverMigrations dir) :
    ((discoverMigrations dir).find? fun m' => m'.version = m.version) = some m := by
  cases hfind : (discoverMigrations dir).find? fun m' => m'.version = m.version with
  | none =>
    have hself := List.find?_eq_none.mp hfind m hm
    simp at hself
  | some m' =>
    have hversion : m'.version = m.version := by simpa using List.find?_some hfind
    rw [List.inj_on_of_nodup_map hdistinct (List.mem_of_find?_eq_some hfind) hm hversion]

/-- The top of the stack is reverted. -/
theorem Stacked.pop {init : List Migration} {m : Migration} (h : Stacked collation dir db)
    (hstack : stillApplied db.log = init ++ [m]) (file : File) :
    Stacked collation dir (db.commitDown m file) ∧ stillApplied (db.commitDown m file).log = init := by
  have hrising := h.rising
  have hknown := h.known
  rw [hstack] at hrising hknown
  obtain ⟨hinit, -, hbelow⟩ := List.pairwise_append.mp hrising
  have hne : ∀ m' ∈ init, m'.version ≠ m.version := by
    intro m' hm'
    exact Collation.ne_of_lt (hbelow m' hm' m List.mem_cons_self)
  have hstill : stillApplied (db.commitDown m file).log = init := by
    have hmem : m ∉ init := fun hm => hne m hm rfl
    show stillApplied (db.log ++ [.down m file]) = init
    rw [stillApplied_down, hstack, List.erase_append_right _ hmem, List.erase_cons_head, List.append_nil]
  refine ⟨⟨?_, ?_, ?_⟩, hstill⟩
  · show db.tracking.filter (fun row => row.version ≠ m.version) = _
    rw [hstill, h.tracking, hstack, List.map_append, List.filter_append]
    have hkept : (init.map Migration.row).filter (fun row => row.version ≠ m.version) =
        init.map Migration.row := by
      rw [List.filter_eq_self]
      intro row hrow
      obtain ⟨m', hm', rfl⟩ := List.mem_map.mp hrow
      exact decide_eq_true (hne m' hm')
    have hdeleted : ([m].map Migration.row).filter (fun row => row.version ≠ m.version) = [] := by
      simp [Migration.row]
    rw [hkept, hdeleted, List.append_nil]
  · rw [hstill]
    exact hinit
  · intro m' hm'
    rw [hstill] at hm'
    exact hknown m' (List.mem_append_left _ hm')

/-- All that a rollback can come down to, on a stack that is empty. -/
theorem rollbackLast_empty (env : Env) (h : Stacked collation dir db) (hstack : stillApplied db.log = []) :
    (¬ env.Sound ∧ ∃ e, rollbackLast env collation dir db = (.error e, db)) ∨
      rollbackLast env collation dir db = (.ok none, db) := by
  have hrows : db.tracking = [] := by rw [h.tracking, hstack, List.map_nil]
  unfold rollbackLast readTracking
  cases htracking : env.tracking with
  | some text =>
    refine .inl ⟨?_, .database text, rfl⟩
    rintro ⟨hnone, -⟩
    rw [htracking] at hnone
    cases hnone
  | none => exact .inr (by simp [hrows, lastByVersion])

/-- The transaction of a rollback. -/
theorem rollbackLast_reverts {row : Row} {m : Migration} {file : File} (env : Env)
    (htracking : env.tracking = none) (hdown : env.down m = none)
    (hlast : lastByVersion collation db.tracking = some row)
    (hfind : (discoverMigrations dir).find? (fun m => m.version = row.version) = some m)
    (hfile : m.downFile dir = some file) :
    rollbackLast env collation dir db = (.ok (some row.version), db.commitDown m file) := by
  simp [rollbackLast, readTracking, htracking, hlast, hfind, hfile, hdown]

/-- And on one that is not. -/
theorem rollbackLast_top (env : Env) (h : Stacked collation dir db) (hdistinct : DistinctVersions dir)
    (hdowns : HasDowns dir) {init : List Migration} {m : Migration}
    (hstack : stillApplied db.log = init ++ [m]) :
    (¬ env.Sound ∧ ∃ e, rollbackLast env collation dir db = (.error e, db)) ∨
      ∃ file, m.downFile dir = some file ∧
        rollbackLast env collation dir db = (.ok (some m.version), db.commitDown m file) := by
  have hm : m ∈ discoverMigrations dir := h.known m (by rw [hstack]; simp)
  obtain ⟨file, hfile⟩ := Option.isSome_iff_exists.mp (hdowns m hm)
  have hlast : lastByVersion collation db.tracking = some m.row := by
    rw [lastByVersion_eq, h.tracking, hstack, List.map_append]
    · simp
    · rw [h.tracking, List.pairwise_map]
      exact h.rising
  have hfind := find?_version hdistinct hm
  cases htracking : env.tracking with
  | some text =>
    refine .inl ⟨?_, .database text, by simp [rollbackLast, readTracking, htracking]⟩
    rintro ⟨hnone, -⟩
    rw [htracking] at hnone
    cases hnone
  | none =>
    cases hdown : env.down m with
    | some text =>
      refine .inl ⟨?_, .database text, ?_⟩
      · rintro ⟨-, hnone⟩
        rw [hnone m] at hdown
        cases hdown
      · simp [rollbackLast, readTracking, htracking, hlast, Migration.row, hfind, hfile, hdown]
    | none => exact .inr ⟨file, hfile, rollbackLast_reverts env htracking hdown hlast hfind hfile⟩

end Step

/-! ## Histories -/

section History

variable {collation : Collation} {commands : List Command}

theorem executed_snoc (collation : Collation) (commands : List Command) (c : Command) :
    executed collation (commands ++ [c]) = c.exec collation (executed collation commands) := by
  simp [executed]

/-- One command. -/
theorem Stacked.exec {db : Database} {c : Command} (h : Stacked collation c.dir db) (hdowns : HasDowns c.dir)
    (hfits : c.Fits collation db) : Stacked collation c.dir (c.exec collation db) := by
  cases c with
  | apply env dir =>
    obtain ⟨new, hlead, hdb, -⟩ := applyPending_spec env dir db
    show Stacked collation dir (applyPending env dir db).2
    rw [hdb]
    exact (h.push hfits.2 hlead).1
  | rollback env dir =>
    replace h : Stacked collation dir db := h
    replace hdowns : HasDowns dir := hdowns
    replace hfits : DistinctVersions dir := hfits
    show Stacked collation dir (rollbackLast env collation dir db).2
    rcases List.eq_nil_or_concat (stillApplied db.log) with hstack | ⟨init, m, hstack⟩
    · rcases rollbackLast_empty env h hstack with ⟨-, e, he⟩ | hok
      · rw [he]
        exact h
      · rw [hok]
        exact h
    · rw [List.concat_eq_append] at hstack
      rcases rollbackLast_top env h hfits hdowns hstack with ⟨-, e, he⟩ | ⟨file, -, hok⟩
      · rw [he]
        exact h
      · rw [hok]
        exact (h.pop hstack file).1

theorem EachFits.split {c : Command} (h : EachFits collation (commands ++ [c])) :
    EachFits collation commands ∧ c.Fits collation (executed collation commands) := by
  refine ⟨?_, h commands c [] rfl⟩
  intro pre d post hsplit
  exact h pre d (post ++ [c]) (by rw [hsplit, List.append_assoc, List.cons_append])

/-- All commands. -/
theorem executed_stacked (commands : List Command) (dir : Directory)
    (hgrow : Growing (commands.map Command.dir ++ [dir])) (hdowns : ∀ c ∈ commands, HasDowns c.dir)
    (hfits : EachFits collation commands) : Stacked collation dir (executed collation commands) := by
  induction commands using List.reverseRecOn generalizing dir with
  | nil => exact stacked_empty collation dir
  | append_singleton commands c ih =>
    obtain ⟨hbefore, hc⟩ := hfits.split
    rw [List.map_append] at hgrow
    obtain ⟨hcommands, -, hlast⟩ := List.pairwise_append.mp hgrow
    have hgrows : c.dir.Grows dir := hlast c.dir (by simp) dir (by simp)
    have hstacked : Stacked collation c.dir (executed collation commands) :=
      ih c.dir hcommands (fun d hd => hdowns d (List.mem_append_left _ hd)) hbefore
    rw [executed_snoc]
    exact (hstacked.exec (hdowns c (by simp)) hc).grow hgrows

/-- A rollback reverts the top of the stack. -/
theorem Stacked.undoesLatest {db : Database} {env : Env} {dir : Directory} (h : Stacked collation dir db)
    (hdistinct : DistinctVersions dir) (hdowns : HasDowns dir) : UndoesLatest collation env dir db := by
  intro version hversion
  rcases List.eq_nil_or_concat (stillApplied db.log) with hstack | ⟨init, m, hstack⟩
  · rw [hstack]
    rcases rollbackLast_empty env h hstack with ⟨-, e, he⟩ | hok
    · rw [he] at hversion
      cases hversion
    · rw [hok] at hversion ⊢
      exact ⟨(Except.ok.inj hversion).symm, rfl⟩
  · rw [List.concat_eq_append] at hstack
    rw [hstack, List.getLast?_concat, List.dropLast_concat]
    rcases rollbackLast_top env h hdistinct hdowns hstack with ⟨-, e, he⟩ | ⟨file, hfile, hok⟩
    · rw [he] at hversion
      cases hversion
    · rw [hok] at hversion ⊢
      exact ⟨(Except.ok.inj hversion).symm, file, hfile, rfl, (h.pop hstack file).2⟩

theorem UndoesLatest.version_eq {db : Database} {env : Env} {dir : Directory}
    (h : UndoesLatest collation env dir db) {m : Migration} (hlast : (stillApplied db.log).getLast? = some m)
    {version : Option String} (hok : (rollbackLast env collation dir db).1 = .ok version) :
    version = some m.version := by
  have hmatch := h version hok
  rw [hlast] at hmatch
  exact hmatch.1

theorem rollbackAll_cons {run : Run} {version : Option String} {db db' : Database}
    (hok : rollbackLast run.1 collation run.2 db = (.ok version, db')) (runs : List Run) :
    rollbackAll collation (run :: runs) db =
      ((rollbackAll collation runs db').1.map (version :: ·), (rollbackAll collation runs db').2) := by
  rw [rollbackAll, Action.bind_apply, hok]
  show (rollbackAll collation runs >>= fun versions => pure (version :: versions)) db' = _
  rw [Action.bind_apply]
  rcases rollbackAll collation runs db' with ⟨_ | vs, db''⟩ <;> rfl

/-- As many rollbacks as there are migrations on top of a stack take these off, one after the other. -/
theorem rollbackAll_pops {base : List Migration} (rollbacks : List Run) {dir : Directory} {db : Database}
    {new : List Migration} (h : Stacked collation dir db) (hstack : stillApplied db.log = base ++ new)
    (hlength : rollbacks.length = new.length) (hgrow : Growing (dir :: rollbacks.map Prod.snd))
    (hdowns : ∀ r ∈ rollbacks, HasDowns r.2) (hdistinct : ∀ r ∈ rollbacks, DistinctVersions r.2)
    (hsound : ∀ r ∈ rollbacks, r.1.Sound) :
    (rollbackAll collation rollbacks db).1 = .ok (new.reverse.map fun m => some m.version) ∧
      (rollbackAll collation rollbacks db).2.tracking = base.map Migration.row ∧
      stillApplied (rollbackAll collation rollbacks db).2.log = base := by
  induction rollbacks generalizing dir db new with
  | nil =>
    obtain rfl : new = [] := List.length_eq_zero_iff.mp hlength.symm
    rw [List.append_nil] at hstack
    refine ⟨rfl, ?_, hstack⟩
    show db.tracking = _
    rw [h.tracking, hstack]
  | cons r rs ih =>
    rcases List.eq_nil_or_concat new with rfl | ⟨init, m, rfl⟩
    · cases hlength
    · rw [List.concat_eq_append] at hstack hlength ⊢
      obtain ⟨hgrows, hlater⟩ := List.pairwise_cons.mp hgrow
      have hr : Stacked collation r.2 db := h.grow (hgrows r.2 (by simp))
      rw [← List.append_assoc] at hstack
      rcases rollbackLast_top r.1 hr (hdistinct r (by simp)) (hdowns r (by simp)) hstack with
        ⟨hunsound, -⟩ | ⟨file, -, hok⟩
      · exact absurd (hsound r (by simp)) hunsound
      · obtain ⟨hpopped, hrest⟩ := hr.pop hstack file
        have hshorter : rs.length = init.length := by
          rw [List.length_cons, List.length_append, List.length_singleton] at hlength
          omega
        obtain ⟨hreturns, htracking, hstill⟩ := ih hpopped hrest hshorter hlater
          (fun r' hr' => hdowns r' (List.mem_cons_of_mem r hr'))
          (fun r' hr' => hdistinct r' (List.mem_cons_of_mem r hr'))
          (fun r' hr' => hsound r' (List.mem_cons_of_mem r hr'))
        rw [rollbackAll_cons hok]
        refine ⟨?_, htracking, hstill⟩
        rw [hreturns, List.reverse_append]
        rfl

theorem eachFits_nil : EachFits collation [] := by
  intro pre c post hsplit
  simp at hsplit

theorem EachFits.snoc {c : Command} (h : EachFits collation commands)
    (hc : c.Fits collation (executed collation commands)) : EachFits collation (commands ++ [c]) := by
  intro pre d post hsplit
  rcases List.eq_nil_or_concat post with rfl | ⟨after, last, rfl⟩
  · obtain ⟨rfl, hd⟩ := List.append_inj' hsplit rfl
    obtain rfl := List.singleton_inj.mp hd
    exact hc
  · rw [List.concat_eq_append, ← List.cons_append, ← List.append_assoc] at hsplit
    exact h pre d after (List.append_inj' hsplit rfl).1

theorem EachFits.lead {pre post : List Command} (h : EachFits collation (pre ++ post)) :
    EachFits collation pre := by
  intro before c after hsplit
  exact h before c (after ++ post) (by rw [hsplit, List.append_assoc, List.cons_append])

theorem EachFits.distinct (h : EachFits collation commands) {c : Command} (hc : c ∈ commands) :
    DistinctVersions c.dir := by
  obtain ⟨pre, post, hsplit⟩ := List.append_of_mem hc
  have hfits := h pre c post hsplit
  cases c with
  | apply env dir => exact hfits.1
  | rollback env dir => exact hfits

theorem Growing.lead {pre post : List Command} {c : Command}
    (h : Growing ((pre ++ c :: post).map Command.dir)) : Growing (pre.map Command.dir ++ [c.dir]) := by
  refine h.sublist ?_
  rw [List.map_append, List.map_cons]
  exact (List.Sublist.refl _).append (List.singleton_sublist.mpr List.mem_cons_self)

end History

/-- **A rollback undoes the latest apply wherever versions rise.** In a history of commands over directories that
grow and have all their down files, failed commands included, each command finding distinct versions and each
apply new ones that sort after those recorded and in the order of their files: a rollback that returns has
reverted the latest of the migrations still applied, and as many rollbacks after an apply as it applied versions
return these from the last to the first and restore what was applied before. -/
theorem rollback_undoes_latest (collation : Collation) (commands : List Command)
    (hgrow : Growing (commands.map Command.dir)) (hdowns : ∀ c ∈ commands, HasDowns c.dir)
    (hfits : EachFits collation commands) :
    (∀ pre env dir post, commands = pre ++ .rollback env dir :: post →
      UndoesLatest collation env dir (executed collation pre)) ∧
    (∀ pre env dir (rollbacks : List Run) post vs,
      commands = pre ++ .apply env dir :: (rollbacks.map (fun r => .rollback r.1 r.2) ++ post) →
      (applyPending env dir (executed collation pre)).1 = .ok vs →
      rollbacks.length = vs.length → (∀ r ∈ rollbacks, r.1.Sound) →
      Restores collation vs (executed collation pre) (executed collation (pre ++ [.apply env dir])) rollbacks) := by
  constructor
  · intro pre env dir post hsplit
    subst hsplit
    have hstacked : Stacked collation dir (executed collation pre) :=
      executed_stacked pre dir hgrow.lead (fun c hc => hdowns c (List.mem_append_left _ hc)) hfits.lead
    have hmem : Command.rollback env dir ∈ pre ++ .rollback env dir :: post := by simp
    exact hstacked.undoesLatest (hfits.distinct hmem) (hdowns _ hmem)
  · intro pre env dir rollbacks post vs hsplit hok hlength hsound
    subst hsplit
    have hstacked : Stacked collation dir (executed collation pre) :=
      executed_stacked pre dir hgrow.lead (fun c hc => hdowns c (List.mem_append_left _ hc)) hfits.lead
    obtain ⟨new, hlead, hdb, -, hreturns⟩ := applyPending_spec env dir (executed collation pre)
    obtain ⟨-, rfl⟩ := hreturns vs hok
    obtain ⟨-, hrising⟩ := hfits pre (.apply env dir) _ rfl
    obtain ⟨hpushed, hstill⟩ := hstacked.push hrising hlead
    have hafter : executed collation (pre ++ [.apply env dir]) = (executed collation pre).commitUps new := by
      rw [executed_snoc]
      exact hdb
    have hmem : ∀ r ∈ rollbacks, Command.rollback r.1 r.2 ∈
        pre ++ .apply env dir :: (rollbacks.map (fun r => .rollback r.1 r.2) ++ post) := by
      intro r hr
      have hmap : Command.rollback r.1 r.2 ∈ rollbacks.map (fun r => Command.rollback r.1 r.2) :=
        List.mem_map_of_mem (f := fun r : Run => Command.rollback r.1 r.2) hr
      simp [hmap]
    have hgrown : Growing (dir :: rollbacks.map Prod.snd) := by
      refine hgrow.sublist ?_
      rw [List.map_append, List.map_cons, List.map_append, List.map_map]
      exact ((List.sublist_append_left _ _).cons_cons dir).trans (List.sublist_append_right _ _)
    rw [List.length_map] at hlength
    obtain ⟨hall, htracking, hlog⟩ := rollbackAll_pops rollbacks hpushed hstill hlength hgrown
      (fun r hr => hdowns _ (hmem r hr)) (fun r hr => hfits.distinct (hmem r hr)) hsound
    rw [hafter]
    refine ⟨?_, ?_, hlog⟩
    · rw [hall, ← List.map_reverse, List.map_map]
      rfl
    · rw [htracking, hstacked.tracking]

/-- The order of the code points. -/
def codePoints : Collation where
  le := fun s t => decide (s ≤ t)
  trans := by
    intro a b c hab hbc
    exact decide_eq_true ((of_decide_eq_true hab).trans (of_decide_eq_true hbc))
  antisymm := by
    intro a b hab hba
    exact le_antisymm (of_decide_eq_true hab) (of_decide_eq_true hba)
  total := by
    intro a b
    simpa using le_total a b

/-- A migration, and two that are added to it later. -/
def revertible : Directory where
  files := [⟨"0001_init.sql", "create table event_log ();"⟩, ⟨"0001_init.down.sql", "drop table event_log;"⟩]
  nodup := by decide +kernel

def revertibleGrown : Directory where
  files := revertible.files ++
    [⟨"0002_ledger.sql", "create table journal_entry ();"⟩, ⟨"0002_ledger.down.sql", "drop table journal_entry;"⟩,
      ⟨"0003_audit.sql", "create table audit ();"⟩, ⟨"0003_audit.down.sql", "drop table audit;"⟩]
  nodup := by decide +kernel

theorem rollback_undoes_latest_grown :
    Restores codePoints ["0002", "0003"] (executed codePoints [.apply {} revertible])
      (executed codePoints [.apply {} revertible, .apply {} revertibleGrown])
      [({}, revertibleGrown), ({}, revertibleGrown)] := by
  have hgrows : revertible.Grows revertibleGrown := fun file hfile => List.mem_append_left _ hfile
  have hself : revertibleGrown.Grows revertibleGrown := fun _ hfile => hfile
  have hgrow : Growing (([.apply {} revertible, .apply {} revertibleGrown, .rollback {} revertibleGrown,
      .rollback {} revertibleGrown] : List Command).map Command.dir) := by
    simp [Growing, Command.dir, hgrows, hself]
  have hdowns : HasDowns revertible := by
    unfold HasDowns
    decide +kernel
  have hdownsGrown : HasDowns revertibleGrown := by
    unfold HasDowns
    decide +kernel
  have hdistinct : DistinctVersions revertible := by
    unfold DistinctVersions
    decide +kernel
  have hdistinctGrown : DistinctVersions revertibleGrown := by
    unfold DistinctVersions
    decide +kernel
  have hrising : Rising codePoints revertible {} := ⟨by decide +kernel, by decide +kernel⟩
  have hrisingGrown : Rising codePoints revertibleGrown (executed codePoints [.apply {} revertible]) :=
    ⟨by decide +kernel, by decide +kernel⟩
  have happlied : EachFits codePoints [.apply {} revertible] :=
    eachFits_nil.snoc (c := .apply {} revertible) ⟨hdistinct, hrising⟩
  have hgrown : EachFits codePoints [.apply {} revertible, .apply {} revertibleGrown] :=
    happlied.snoc (c := .apply {} revertibleGrown) ⟨hdistinctGrown, hrisingGrown⟩
  have hreverted : EachFits codePoints [.apply {} revertible, .apply {} revertibleGrown,
      .rollback {} revertibleGrown] :=
    hgrown.snoc (c := .rollback {} revertibleGrown) hdistinctGrown
  have hfits : EachFits codePoints [.apply {} revertible, .apply {} revertibleGrown,
      .rollback {} revertibleGrown, .rollback {} revertibleGrown] :=
    hreverted.snoc (c := .rollback {} revertibleGrown) hdistinctGrown
  have hreturns : (applyPending {} revertibleGrown (executed codePoints [.apply {} revertible])).1 =
      .ok ["0002", "0003"] := by
    decide +kernel
  have hall : ∀ c ∈ ([.apply {} revertible, .apply {} revertibleGrown, .rollback {} revertibleGrown,
      .rollback {} revertibleGrown] : List Command), HasDowns c.dir := by
    simp [Command.dir, hdowns, hdownsGrown]
  exact (rollback_undoes_latest codePoints _ hgrow hall hfits).2 [.apply {} revertible] {} revertibleGrown
    [({}, revertibleGrown), ({}, revertibleGrown)] [] ["0002", "0003"] rfl hreturns rfl (by simp [Env.Sound])

/-- A migration, and an earlier one that is added after it was applied. -/
def late : Directory where
  files := [⟨"0002_ledger.sql", "create table journal_entry ();"⟩,
    ⟨"0002_ledger.down.sql", "drop table journal_entry;"⟩]
  nodup := by decide +kernel

def lateGrown : Directory where
  files := late.files ++ revertible.files
  nodup := by decide +kernel

/-- The apply returned the earlier version, and the rollback reverts the later one. -/
theorem rollback_reverts_other :
    Growing [late, lateGrown, lateGrown] ∧ HasDowns late ∧ HasDowns lateGrown ∧
      (applyPending {} lateGrown (executed codePoints [.apply {} late])).1 = .ok ["0001"] ∧
      (rollbackLast {} codePoints lateGrown
        (executed codePoints [.apply {} late, .apply {} lateGrown])).1 = .ok (some "0002") ∧
      ¬ UndoesLatest codePoints {} lateGrown (executed codePoints [.apply {} late, .apply {} lateGrown]) := by
  have hgrows : late.Grows lateGrown := fun file hfile => List.mem_append_left _ hfile
  have hself : lateGrown.Grows lateGrown := fun _ hfile => hfile
  have hreturns : (rollbackLast {} codePoints lateGrown
      (executed codePoints [.apply {} late, .apply {} lateGrown])).1 = .ok (some "0002") := by
    have hlast : lastByVersion codePoints
        (executed codePoints [.apply {} late, .apply {} lateGrown]).tracking = some ⟨"0002", "ledger"⟩ := by
      decide +kernel
    have hfind : (discoverMigrations lateGrown).find? (fun m => m.version = "0002") =
        some ⟨"0002", "ledger", ⟨"0002_ledger.sql", "create table journal_entry ();"⟩⟩ := by
      decide +kernel
    have hfile : Migration.downFile
        ⟨"0002", "ledger", ⟨"0002_ledger.sql", "create table journal_entry ();"⟩⟩ lateGrown =
        some ⟨"0002_ledger.down.sql", "drop table journal_entry;"⟩ := by
      decide +kernel
    rw [rollbackLast_reverts {} rfl rfl hlast hfind hfile]
  have hlatest : (stillApplied (executed codePoints [.apply {} late, .apply {} lateGrown]).log).getLast?.map
      Migration.version = some "0001" := by
    decide +kernel
  refine ⟨by simp [Growing, hgrows, hself], ?_, ?_, by decide +kernel, hreturns, ?_⟩
  · unfold HasDowns
    decide +kernel
  · unfold HasDowns
    decide +kernel
  · intro hundoes
    obtain ⟨m, hlast, hversion⟩ := Option.map_eq_some_iff.mp hlatest
    have hreverted : some "0002" = some m.version := hundoes.version_eq hlast hreturns
    rw [hversion] at hreverted
    exact absurd hreverted (by decide)

end Migrate

end CaviErp
