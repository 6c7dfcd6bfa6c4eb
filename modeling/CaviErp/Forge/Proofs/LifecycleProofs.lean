import CaviErp.Forge.Proofs.WriteAgentProofs

/-!
# The approval gate over whole runs

The invariant ties the two dictionaries of the write agent to the steps seen of each write. Every
handler keeps it in whatever order the calls come, and a call that raises leaves every write on a lawful
path.
-/

namespace CaviErp

open Py

namespace ForgeWriteAgent

/-! ## Steps -/

theorem stepsOf_tell (writeId : String) (v : View) (obs : Obs) :
    stepsOf writeId (v.tell obs).trace = stepsOf writeId v.trace ++ (obs.step? writeId).toList := by
  unfold stepsOf View.tell
  rw [List.filterMap_append]
  cases h : obs.step? writeId <;> simp [h]

theorem step?_obsOf (env : Env) (event : Event) (step : WriteStep) (writeId : String) :
    (obsOf env event step).step? writeId =
      if step.op.writeId = writeId then stageOf (stepEvent env step event.correlationId) else none :=
  rfl

theorem step?_obsOf_ne {env : Env} {event : Event} {step : WriteStep} {writeId : String}
    (h : writeId ≠ step.op.writeId) : (obsOf env event step).step? writeId = none := by
  rw [step?_obsOf, if_neg (Ne.symm h)]

theorem step?_applied_ne {op : WriteOperation} {outcome : Except String Obj} {writeId : String}
    (h : writeId ≠ op.writeId) : (Obs.applied op outcome).step? writeId = none := by
  simp [Obs.step?, Ne.symm h]

theorem attempts_succ (n : Nat) : attempts n ++ [.applyFailed] = attempts (n + 1) := by
  simp [attempts, List.replicate_succ']

theorem lawful_attempts (n : Nat) : Lawful (attempts n) := .inr ⟨n, List.prefix_append _ _⟩

theorem lawful_applied (n : Nat) : Lawful (attempts n ++ [.applySucceeded]) := by
  refine .inr ⟨n, ?_⟩
  rw [List.prefix_append_right_inj]
  exact ⟨[.completed], rfl⟩

theorem Lawful.apply_after_approved {steps : List Step} (h : Lawful steps) {pre post : List Step}
    {s : Step} (hs : s = .applyFailed ∨ s = .applySucceeded) (hsplit : steps = pre ++ s :: post) :
    .approved ∈ pre := by
  subst hsplit
  rcases h with h | ⟨n, h⟩
  · -- neither of the two steps is an apply
    have hmem : s ∈ ([.requested, .rejected] : List Step) := h.subset (by simp)
    rcases hs with rfl | rfl <;> simp at hmem
  · obtain ⟨rest, hrest⟩ := h
    cases pre with
    | nil => rcases hs with rfl | rfl <;> simp [attempts] at hrest
    | cons a pre =>
      cases pre with
      | nil => rcases hs with rfl | rfl <;> simp [attempts] at hrest
      | cons b pre =>
        have hb : b = .approved := by simp [attempts] at hrest; exact hrest.2.1
        simp [hb]

theorem Lawful.rejected_last {steps : List Step} (h : Lawful steps) {pre post : List Step}
    (hsplit : steps = pre ++ .rejected :: post) : post = [] := by
  subst hsplit
  rcases h with ⟨rest, hrest⟩ | ⟨n, h⟩
  · cases pre with
    | nil => simp at hrest
    | cons a pre =>
      cases pre with
      | nil =>
        simp at hrest
        exact hrest.2.1
      | cons b pre => simp at hrest
  · -- the other path has no rejection
    have hmem : Step.rejected ∈ attempts n ++ [.applySucceeded, .completed] := h.subset (by simp)
    simp [attempts, List.mem_replicate] at hmem

theorem Lawful.count_le_one {steps : List Step} (h : Lawful steps) {s : Step}
    (hs : s = .approved ∨ s = .applySucceeded ∨ s = .completed) : steps.count s ≤ 1 := by
  rcases h with h | ⟨n, h⟩
  · refine (h.sublist.count_le s).trans ?_
    rcases hs with rfl | rfl | rfl <;> decide
  · refine (h.sublist.count_le s).trans ?_
    rcases hs with rfl | rfl | rfl <;> simp [attempts, List.count_replicate]

/-! ## The invariant -/

/-- A write that nothing is known of. -/
structure Unknown (writeId : String) (v : View) : Prop where
  pending : v.pending writeId = none
  completed : v.completed writeId = none
  steps : stepsOf writeId v.trace = []

/-- The dictionaries and the steps seen of a write agree. -/
inductive Agrees (writeId : String) (v : View) : Prop
  | unknown (h : Unknown writeId v)
  | rejected (hp : v.pending writeId = none) (hc : v.completed writeId = none)
    (hs : stepsOf writeId v.trace = [.requested, .rejected])
  | requested {op : WriteOperation} (hp : v.pending writeId = some op) (hid : op.writeId = writeId)
    (hstate : op.state = .requested) (hc : v.completed writeId = none)
    (hs : stepsOf writeId v.trace = [.requested])
  | approved {op : WriteOperation} {n : Nat} (hp : v.pending writeId = some op)
    (hid : op.writeId = writeId) (hstate : op.state = .approved) (hc : v.completed writeId = none)
    (hs : stepsOf writeId v.trace = attempts n)
  | completed {op : WriteOperation} {n : Nat} (hp : v.pending writeId = none)
    (hc : v.completed writeId = some op) (hid : op.writeId = writeId) (hstate : op.state = .completed)
    (hs : stepsOf writeId v.trace = attempts n ++ [.applySucceeded, .completed])

theorem Agrees.lawful {writeId : String} {v : View} (h : Agrees writeId v) :
    Lawful (stepsOf writeId v.trace) := by
  cases h with
  | unknown h => rw [h.steps]; exact .inl (List.nil_prefix)
  | rejected _ _ hs => rw [hs]; exact .inl (List.prefix_refl _)
  | requested _ _ _ _ hs => rw [hs]; exact .inl ⟨[.rejected], rfl⟩
  | approved _ _ _ _ hs => rw [hs]; exact lawful_attempts _
  | completed _ _ _ _ hs => rw [hs]; exact .inr ⟨_, List.prefix_refl _⟩

theorem Agrees.of_pending {writeId : String} {v : View} {op : WriteOperation}
    (h : Agrees writeId v) (hop : v.pending writeId = some op) :
    op.writeId = writeId ∧ v.completed writeId = none ∧
      ((op.state = .requested ∧ stepsOf writeId v.trace = [.requested]) ∨
        (op.state = .approved ∧ ∃ n, stepsOf writeId v.trace = attempts n)) := by
  cases h with
  | unknown h => rw [h.pending] at hop; cases hop
  | rejected hp => rw [hp] at hop; cases hop
  | requested hp hid hstate hc hs =>
    obtain rfl : _ = op := Option.some.inj (hp.symm.trans hop)
    exact ⟨hid, hc, .inl ⟨hstate, hs⟩⟩
  | approved hp hid hstate hc hs =>
    obtain rfl : _ = op := Option.some.inj (hp.symm.trans hop)
    exact ⟨hid, hc, .inr ⟨hstate, _, hs⟩⟩
  | completed hp => rw [hp] at hop; cases hop

/-- Nothing changed about a write. -/
structure SameFor (writeId : String) (v v' : View) : Prop where
  pending : v'.pending writeId = v.pending writeId
  completed : v'.completed writeId = v.completed writeId
  steps : stepsOf writeId v'.trace = stepsOf writeId v.trace

namespace SameFor

theorem refl (writeId : String) (v : View) : SameFor writeId v v := ⟨rfl, rfl, rfl⟩

theorem trans {writeId : String} {v₁ v₂ v₃ : View} (h₁ : SameFor writeId v₁ v₂)
    (h₂ : SameFor writeId v₂ v₃) : SameFor writeId v₁ v₃ :=
  ⟨h₂.pending.trans h₁.pending, h₂.completed.trans h₁.completed, h₂.steps.trans h₁.steps⟩

theorem put {writeId id : String} (h : writeId ≠ id) (v : View) (op : WriteOperation) :
    SameFor writeId v (v.put id op) :=
  ⟨by simp [View.put, h], rfl, rfl⟩

theorem pop {writeId id : String} (h : writeId ≠ id) (v : View) : SameFor writeId v (v.pop id) :=
  ⟨by simp [View.pop, h], rfl, rfl⟩

theorem finish {writeId id : String} (h : writeId ≠ id) (v : View) (op : WriteOperation) :
    SameFor writeId v (v.finish id op) :=
  ⟨by simp [View.finish, h], by simp [View.finish, h], rfl⟩

theorem tell {writeId : String} {obs : Obs} (h : obs.step? writeId = none) (v : View) :
    SameFor writeId v (v.tell obs) :=
  ⟨rfl, rfl, by rw [stepsOf_tell, h]; simp⟩

theorem agrees {writeId : String} {v v' : View} (h : SameFor writeId v v')
    (ha : Agrees writeId v) : Agrees writeId v' := by
  cases ha with
  | unknown hu =>
    exact .unknown ⟨h.pending.trans hu.pending, h.completed.trans hu.completed,
      h.steps.trans hu.steps⟩
  | rejected hp hc hs => exact .rejected (h.pending.trans hp) (h.completed.trans hc) (h.steps.trans hs)
  | requested hp hid hst hc hs =>
    exact .requested (h.pending.trans hp) hid hst (h.completed.trans hc) (h.steps.trans hs)
  | approved hp hid hst hc hs =>
    exact .approved (h.pending.trans hp) hid hst (h.completed.trans hc) (h.steps.trans hs)
  | completed hp hc hid hst hs =>
    exact .completed (h.pending.trans hp) (h.completed.trans hc) hid hst (h.steps.trans hs)

theorem unknown {writeId : String} {v v' : View} (h : SameFor writeId v v')
    (hu : Unknown writeId v) : Unknown writeId v' :=
  ⟨h.pending.trans hu.pending, h.completed.trans hu.completed, h.steps.trans hu.steps⟩

end SameFor

/-- What a call leaves of a write: the invariant, or a lawful path of a call that raised. -/
def Left (writeId : String) (ok : Bool) (v : View) : Prop :=
  Agrees writeId v ∨ (ok = false ∧ Lawful (stepsOf writeId v.trace))

/-! ## One call -/

variable {cfg : Config} {env : Env} {event : Event}

theorem executed_same {op : WriteOperation} {v v' : View} {ok : Bool}
    (h : Executed cfg env event op v ok v') {writeId : String} (hne : writeId ≠ op.writeId) :
    SameFor writeId v v' := by
  cases h with
  | refused => exact .refl _ _
  | failed _ => exact .tell (step?_applied_ne hne) v
  | unannounced _ _ => exact (SameFor.tell (step?_applied_ne hne) v).trans (.finish hne _ _)
  | completed _ _ =>
    rename_i confirmation _ _
    refine SameFor.trans ?_ (.tell (step?_obsOf_ne hne) _)
    exact (SameFor.tell (step?_applied_ne hne) v).trans (.finish hne _ _)

theorem executed_left {op : WriteOperation} {v v' : View} {ok : Bool} {n : Nat}
    (h : Executed cfg env event op v ok v') (hstate : op.state = .approved)
    (hp : v.pending op.writeId = some op) (hc : v.completed op.writeId = none)
    (hs : stepsOf op.writeId v.trace = attempts n) : Left op.writeId ok v' := by
  cases h with
  | refused => exact .inl (.approved hp rfl hstate hc hs)
  | failed _ =>
    refine .inl (.approved (n := n + 1) hp rfl hstate hc ?_)
    rw [stepsOf_tell, hs, ← attempts_succ]
    simp [Obs.step?]
  | unannounced _ _ =>
    refine .inr ⟨rfl, ?_⟩
    show Lawful (stepsOf op.writeId (v.tell (.applied op (.ok _))).trace)
    rw [stepsOf_tell, hs]
    simpa [Obs.step?] using lawful_applied n
  | completed _ _ =>
    have hstage : ∀ c conf, stageOf (stepEvent env (completedStep c op conf) event.correlationId) =
        some .completed := by
      intro c conf
      simp [stageOf, stepEvent, completedStep]
    refine .inl (@Agrees.completed _ _ { op with state := .completed } n ?_ ?_ rfl rfl ?_)
    · simp [View.finish, View.tell]
    · simp [View.finish, View.tell]
    · rw [stepsOf_tell, step?_obsOf]
      show stepsOf op.writeId (v.tell (.applied op (.ok _))).trace ++ _ = _
      rw [stepsOf_tell, hs, hstage]
      simp [Obs.step?, completedStep]

/-- A call touches at most one write, its own new one or a pending one, and leaves that on a lawful
path. -/
theorem handled_focus {v v' : View} {ok : Bool} (h : Handled cfg env event v ok v')
    (ha : ∀ writeId, Agrees writeId v) (hnew : Unknown env.coordinator.newId v) :
    ∃ id, (id = env.coordinator.newId ∨ v.pending id ≠ none) ∧ Left id ok v' ∧
      ∀ writeId, writeId ≠ id → SameFor writeId v v' := by
  cases h with
  | idle => exact ⟨env.coordinator.newId, .inl rfl, .inl (ha _), fun _ _ => .refl _ _⟩
  | unannounced hid hstate =>
    rename_i op
    refine ⟨op.writeId, .inl hid, .inr ⟨rfl, ?_⟩, fun _ hne => .put hne v op⟩
    show Lawful (stepsOf op.writeId v.trace)
    rw [hid, hnew.steps]
    exact .inl List.nil_prefix
  | proposed hid hstate _ =>
    rename_i op _
    refine ⟨op.writeId, .inl hid,
      .inl (.requested (by simp [View.put, View.tell]) rfl hstate ?_ ?_), ?_⟩
    · rw [hid]
      exact hnew.completed
    · have hstage : stageOf (stepEvent env (requestedStep env.coordinator op)
          event.correlationId) = some .requested := by
        simp [stageOf, stepEvent, requestedStep]
      rw [stepsOf_tell, step?_obsOf, hstage]
      show stepsOf op.writeId v.trace ++ _ = _
      rw [hid, hnew.steps]
      simp [requestedStep, hid]
    · intro writeId hne
      exact (SameFor.put hne v op).trans (.tell (step?_obsOf_ne hne) _)
  | retried hop hstate hex =>
    rename_i id op
    obtain ⟨rfl, hc, ⟨hst, -⟩ | ⟨-, n, hs⟩⟩ := (ha id).of_pending hop
    · rw [hstate] at hst
      cases hst
    · exact ⟨op.writeId, .inr (by simp [hop]), executed_left hex hstate hop hc hs,
        fun _ hne => executed_same hex hne⟩
  | unapproved hop hstate =>
    rename_i id op
    obtain ⟨rfl, hc, ⟨-, hs⟩ | ⟨hst, -⟩⟩ := (ha id).of_pending hop
    · refine ⟨op.writeId, .inr (by simp [hop]), .inr ⟨rfl, ?_⟩, fun _ hne => .put hne v _⟩
      show Lawful (stepsOf op.writeId v.trace)
      rw [hs]
      exact .inl ⟨[.rejected], rfl⟩
    · rw [hstate] at hst
      cases hst
  | approved _ hop hstate _ hex =>
    rename_i id op reviewer _ _
    obtain ⟨rfl, hc, ⟨-, hs⟩ | ⟨hst, -⟩⟩ := (ha id).of_pending hop
    · refine ⟨op.writeId, .inr (by simp [hop]),
        @executed_left cfg env event { op with state := .approved } _ _ _ 0 hex rfl ?_ hc ?_, ?_⟩
      · simp [View.put, View.tell]
      · have hstage : stageOf (stepEvent env (approvedStep env.coordinator op reviewer)
            event.correlationId) = some .approved := by
          simp [stageOf, stepEvent, approvedStep]
        rw [stepsOf_tell, step?_obsOf, hstage]
        show stepsOf op.writeId v.trace ++ _ = _
        rw [hs]
        simp [approvedStep, attempts]
      · intro writeId hne
        exact ((SameFor.put hne v _).trans (.tell (step?_obsOf_ne hne) _)).trans
          (executed_same hex hne)
    · rw [hstate] at hst
      cases hst
  | unrejected hop hstate =>
    rename_i id op
    obtain ⟨rfl, hc, ⟨-, hs⟩ | ⟨hst, -⟩⟩ := (ha id).of_pending hop
    · refine ⟨op.writeId, .inr (by simp [hop]), .inr ⟨rfl, ?_⟩, fun _ hne => .pop hne v⟩
      show Lawful (stepsOf op.writeId v.trace)
      rw [hs]
      exact .inl ⟨[.rejected], rfl⟩
    · rw [hstate] at hst
      cases hst
  | rejected _ hop hstate _ =>
    rename_i id op reviewer reason _ _
    obtain ⟨rfl, hc, ⟨-, hs⟩ | ⟨hst, -⟩⟩ := (ha id).of_pending hop
    · refine ⟨op.writeId, .inr (by simp [hop]),
        .inl (.rejected (by simp [View.pop, View.tell]) hc ?_), ?_⟩
      · have hstage : stageOf (stepEvent env (rejectedStep env.coordinator op reviewer reason)
            event.correlationId) = some .rejected := by
          simp [stageOf, stepEvent, rejectedStep]
        rw [stepsOf_tell, step?_obsOf, hstage]
        show stepsOf op.writeId v.trace ++ _ = _
        rw [hs]
        simp [rejectedStep]
      · intro writeId hne
        exact (SameFor.pop hne v).trans (.tell (step?_obsOf_ne hne) _)
    · rw [hstate] at hst
      cases hst

/-- What one call leaves: the invariant for every write if it returns, lawful paths in any case, and
still nothing of a write whose id it did not mint. -/
theorem handled_left {v v' : View} {ok : Bool} (h : Handled cfg env event v ok v')
    (ha : ∀ writeId, Agrees writeId v) (hnew : Unknown env.coordinator.newId v) :
    (∀ writeId, Left writeId ok v') ∧
      ∀ writeId, writeId ≠ env.coordinator.newId → Unknown writeId v → Unknown writeId v' := by
  obtain ⟨id, hid, hleft, hsame⟩ := handled_focus h ha hnew
  refine ⟨?_, ?_⟩
  · intro writeId
    by_cases hne : writeId = id
    · rw [hne]
      exact hleft
    · exact .inl ((hsame writeId hne).agrees (ha writeId))
  · intro writeId hne hu
    refine (hsame writeId ?_).unknown hu
    rintro rfl
    rcases hid with rfl | hp
    · exact hne rfl
    · exact hp hu.pending

/-! ## Runs -/

def newIds (calls : List (Env × Event)) : List String := calls.map fun c => c.1.coordinator.newId

/-- The invariant, with nothing known yet of the writes still to be minted. -/
structure Consistent (rest : List (Env × Event)) (v : View) : Prop where
  nodup : (newIds rest).Nodup
  agrees : ∀ writeId, Agrees writeId v
  fresh : ∀ writeId ∈ newIds rest, Unknown writeId v

theorem Consistent.init {calls : List (Env × Event)} (hids : (newIds calls).Nodup) :
    Consistent calls (view ({ self := {} } : World)) :=
  ⟨hids, fun _ => .unknown ⟨rfl, rfl, rfl⟩, fun _ _ => ⟨rfl, rfl, rfl⟩⟩

/-- A call that returns keeps the invariant; one that raises leaves lawful paths. -/
theorem Consistent.step {c : Env × Event} {rest : List (Env × Event)} {w : World}
    (h : Consistent (c :: rest) (view w)) (cfg : Config) :
    ((handle cfg c.1 c.2 w).1 = .ok () → Consistent rest (view (handle cfg c.1 c.2 w).2)) ∧
      ∀ writeId, Lawful (stepsOf writeId (handle cfg c.1 c.2 w).2.trace) := by
  obtain ⟨hnot, hrest⟩ := List.nodup_cons.mp h.nodup
  obtain ⟨hleft, hstill⟩ := handled_left (handle_spec w) h.agrees (h.fresh _ List.mem_cons_self)
  refine ⟨fun hok => ⟨hrest, fun id => ?_, fun id hid => ?_⟩, fun id => ?_⟩
  · rcases hleft id with h | ⟨h, -⟩
    · exact h
    · rw [hok] at h
      cases h
  · refine hstill id ?_ (h.fresh id (List.mem_cons_of_mem _ hid))
    rintro rfl
    exact hnot hid
  · rcases hleft id with h | ⟨-, h⟩
    · exact h.lawful
    · exact h

/-- The invariant over every run from a fresh agent that ends at the first call that raises. -/
theorem handleAll_lawful (cfg : Config) (calls : List (Env × Event)) (hids : (newIds calls).Nodup)
    (writeId : String) :
    Lawful (stepsOf writeId (handleAll cfg calls { self := {} }).2.trace) := by
  obtain ⟨hok, herr⟩ := Action.forEach_induct
    (I := fun rest (w : World) => Consistent rest (view w))
    (R := fun w : World => ∀ id, Lawful (stepsOf id w.trace))
    (fun _ _ _ h => ⟨(h.step cfg).1, fun _ _ => (h.step cfg).2⟩) calls { self := {} } (.init hids)
  cases hr : (handleAll cfg calls { self := {} }).1 with
  | ok u => exact ((hok hr).agrees writeId).lawful
  | error e => exact herr e hr writeId

/-- Whatever the calls, the answers of writer, reader, store and bus and the readings of the clocks: the
steps seen of each write are lawful. In particular a write is applied only after its approval was
emitted, nothing follows a rejection, and it is approved, applied with success and completed at most
once. -/
theorem write_lifecycle (cfg : Config) (calls : List (Env × Event)) (hids : (newIds calls).Nodup)
    (writeId : String) :
    let steps := stepsOf writeId (handleAll cfg calls { self := {} }).2.trace
    Lawful steps ∧
      (∀ pre s post, s = .applyFailed ∨ s = .applySucceeded → steps = pre ++ s :: post →
        .approved ∈ pre) ∧
      (∀ pre post, steps = pre ++ .rejected :: post → post = []) ∧
      ∀ s, s = .approved ∨ s = .applySucceeded ∨ s = .completed → steps.count s ≤ 1 := by
  intro steps
  have h : Lawful steps := handleAll_lawful cfg calls hids writeId
  exact ⟨h, fun _ _ _ hs hsplit => h.apply_after_approved hs hsplit,
    fun _ _ hsplit => h.rejected_last hsplit, fun _ hs => h.count_le_one hs⟩

/-! ## A write that is approved, fails once and is retried -/

def orderProposal (total : Int) : Event where
  subject := "forge.write.propose"
  schemaVersion := .int 1
  source := "console"
  id := "00000000-0000-0000-0000-00000000000a"
  payload := .obj
    [("tenant_id", "acme"), ("erp_platform", "netsuite"), ("operation", "create"),
      ("target_module", "SalesOrder"), ("payload", .obj [("total", .int total)]),
      ("requested_by", "ana")]

/-- The order, as it is pending. -/
def order (state : WriteState) : WriteOperation where
  writeId := "w-1"
  tenantId := "acme"
  erpPlatform := "netsuite"
  operation := "create"
  targetModule := "SalesOrder"
  payload := [("total", .int 10)]
  requestedBy := "ana"
  diffPreview := .str noDryRunPreview
  state := state

def approval (writeId : String) : Event where
  subject := "forge.write.decision"
  schemaVersion := .int 1
  source := "console"
  id := "00000000-0000-0000-0000-00000000000b"
  payload := .obj [("write_id", .str writeId), ("decision", "approve"), ("reviewer", "bo")]

/-- What a call takes from outside, when `n` tells apart the ids of its events. -/
def orderEnv (n : String) (newId : String) (writer : WriteOperation → Except String Obj) : Env where
  coordinator := { writer, clock := fun _ => "2026-01-01T00:00:00+00:00", newId }
  uuid := fun subject =>
    "00000000-0000-0000-0000-0000000000" ++ n ++ toString (subject.length - 20)
  breakerClock := ⟨0, 0, 0⟩

/-- The agent of the run, with the SHA-256 of the three entries it adds to the log (they differ in
length). -/
def orderConfig : Config where
  rt := .repository "schema_registry/schemas" (fun _ _ => "") fun m =>
    if m.length = 527 then "4c7b715394fe138496fff0a07118384ef0c8127104fdb43ecf9dd0f7652f4306"
    else if m.length = 381 then "50621d694e566c5bc23024370994ea1d2d7e6e72ebea8d05b77eb9cd02edc408"
    else "2be9fb97f670fa7530b4dbe4a6204ed03fcb1752f2cf91803ea16a0d5ae54cc0"

/-- The order is proposed, approved while the ERP is down, and the approval is replayed. -/
def orderRun : List (Env × Event) :=
  [(orderEnv "0" "w-1" fun _ => .error "down", orderProposal 10),
    (orderEnv "1" "w-2" fun _ => .error "down", approval "w-1"),
    (orderEnv "2" "w-3" fun _ => .ok [("id", .int 7)], approval "w-1")]

/-- The hypothesis of `write_lifecycle` holds for the run, which goes through the whole lifecycle. -/
theorem write_lifecycle_orderRun :
    stepsOf "w-1" (handleAll orderConfig orderRun { self := {} }).2.trace =
        [.requested, .approved, .applyFailed, .applySucceeded, .completed] ∧
      Lawful (stepsOf "w-1" (handleAll orderConfig orderRun { self := {} }).2.trace) := by
  refine ⟨by decide +kernel, (write_lifecycle orderConfig orderRun ?_ "w-1").1⟩
  decide

end ForgeWriteAgent

end CaviErp
