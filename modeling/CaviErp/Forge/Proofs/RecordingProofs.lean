import CaviErp.Forge.Proofs.ContractProofs
import CaviErp.Forge.Proofs.LifecycleProofs
import Mathlib.Data.List.Induction

/-!
# State and event log agree where every change is recorded

The invariant says of each pending write what is recorded for it. A call that finds what `Recordable` asks
for keeps it and records whatever it takes out of `_pending`, even where it raises afterwards. A reviewer
who is the empty string is enough to break it.
-/

namespace CaviErp

open Py

namespace ForgeWriteAgent

/-! ## The invariant -/

/-- What is known of a pending write. -/
structure Logged (writeId : String) (op : WriteOperation) (trace : List Obs) : Prop where
  id : op.writeId = writeId
  named : Named op
  requested : .requested ∈ stepsOf writeId trace
  approved : op.state = .approved → .approved ∈ stepsOf writeId trace

def AllLogged (v : View) : Prop :=
  ∀ writeId op, v.pending writeId = some op → Logged writeId op v.trace

theorem mem_stepsOf_append {writeId : String} {trace : List Obs} {s : Step} (obs : List Obs)
    (h : s ∈ stepsOf writeId trace) : s ∈ stepsOf writeId (trace ++ obs) := by
  unfold stepsOf
  rw [List.filterMap_append]
  exact List.mem_append_left _ h

theorem Logged.append {writeId : String} {op : WriteOperation} {trace : List Obs}
    (h : Logged writeId op trace) (obs : List Obs) : Logged writeId op (trace ++ obs) :=
  ⟨h.id, h.named, mem_stepsOf_append obs h.requested,
    fun hs => mem_stepsOf_append obs (h.approved hs)⟩

/-- From one view to a later one: the log has grown, every pending write is logged, and a write that is
no longer pending is recorded as rejected or completed. -/
structure Follows (v v' : View) : Prop where
  grown : v.trace <+: v'.trace
  logged : AllLogged v'
  absent : ∀ writeId, v.pending writeId ≠ none → v'.pending writeId = none →
    .rejected ∈ stepsOf writeId v'.trace ∨ .completed ∈ stepsOf writeId v'.trace

namespace Follows

theorem refl {v : View} (h : AllLogged v) : Follows v v :=
  ⟨List.prefix_refl _, h, fun _ hne hnone => absurd hnone hne⟩

theorem trans {v₁ v₂ v₃ : View} (h₁ : Follows v₁ v₂) (h₂ : Follows v₂ v₃) : Follows v₁ v₃ := by
  refine ⟨h₁.grown.trans h₂.grown, h₂.logged, ?_⟩
  intro writeId hne hnone
  by_cases hmid : v₂.pending writeId = none
  · -- it was taken out on the way, and the log only grows
    obtain ⟨obs, hobs⟩ := h₂.grown
    rw [← hobs]
    rcases h₁.absent writeId hne hmid with hr | hc
    · exact .inl (mem_stepsOf_append obs hr)
    · exact .inr (mem_stepsOf_append obs hc)
  · exact h₂.absent writeId hmid hnone

theorem of_update {v v' : View} {writeId : String} {x : Option WriteOperation} {obs : Obs}
    (h : AllLogged v) (hpending : v'.pending = Function.update v.pending writeId x)
    (htrace : v'.trace = v.trace ++ [obs]) (hsome : ∀ op, x = some op → Logged writeId op v'.trace)
    (hnone : x = none → .rejected ∈ stepsOf writeId v'.trace ∨ .completed ∈ stepsOf writeId v'.trace) :
    Follows v v' := by
  refine ⟨⟨[obs], htrace.symm⟩, ?_, ?_⟩
  · intro id op hop
    rw [hpending] at hop
    rcases update_eq_some hop with ⟨rfl, hx⟩ | ⟨-, hold⟩
    · exact hsome op hx
    · rw [htrace]
      exact (h id op hold).append [obs]
  · intro id hne hgone
    rw [hpending] at hgone
    by_cases hid : id = writeId
    · subst hid
      rw [Function.update_self] at hgone
      exact hnone hgone
    · rw [Function.update_of_ne hid] at hgone
      exact absurd hgone hne

theorem applied {v : View} (h : AllLogged v) (op : WriteOperation) (outcome : Except String Obj) :
    Follows v (v.tell (.applied op outcome)) := by
  refine ⟨⟨_, rfl⟩, ?_, fun _ hne hnone => absurd hnone hne⟩
  intro id op' hop'
  exact (h id op' hop').append _

end Follows

theorem mem_stepsOf_tell {env : Env} {event : Event} (step : WriteStep) {s : Step}
    (hs : stageOf (stepEvent env step event.correlationId) = some s) (v : View) :
    s ∈ stepsOf step.op.writeId (v.tell (obsOf env event step)).trace := by
  rw [stepsOf_tell, step?_obsOf, if_pos rfl, hs]
  simp

/-! ## One call -/

variable {cfg : Config} {env : Env} {event : Event}

/-- An event that is valid and that the store accepts is recorded, whatever the bus does. -/
theorem emit_recorded {step : WriteStep} {w : World}
    (hvalid : Valid cfg (stepEvent env step event.correlationId)) (hstores : Stores env event step) :
    view (emit cfg env step event.correlationId w).2 = (view w).tell (obsOf env event step) := by
  rcases emit_view cfg env event step w with ⟨-, hrefused, -⟩ | ⟨-, hview⟩
  · rcases hrefused with hnot | hnot
    · exact absurd hvalid hnot
    · exact absurd hstores hnot
  · exact hview

theorem with_approved {op : WriteOperation} (h : op.state = .approved) :
    { op with state := .approved } = op := by
  rw [← h]

section Repository

variable {dir : String} {complaint : Schema → Json → String}
  (hreg : cfg.rt.registry = .repository dir complaint)

include hreg

/-- The execution of a logged write whose completion the store accepts. -/
theorem execute_follows {op : WriteOperation} {w : World} (hstate : op.state = .approved)
    (hall : AllLogged (view w)) (hop : w.self.pending op.writeId = some op)
    (hstores : Admits cfg env op w → ∀ confirmation, env.coordinator.writer op = .ok confirmation →
      Stores env event (completedStep env.coordinator op confirmation)) :
    Follows (view w) (view (execute cfg env op event event.correlationId w).2) := by
  have hnamed : Named op := (hall _ op hop).named
  have hcourse := execute_course cfg env event hstate event.correlationId w
  generalize execute cfg env op event event.correlationId w = r at hcourse
  cases hcourse with
  | unkeyed hkey => exact .refl hall
  | refused hkey hcheck =>
    rw [deadLetter_view]
    exact .refl hall
  | failed hkey hcheck hw =>
    rw [onWriteFailed_view]
    exact .applied hall op _
  | @written key confirmation hkey hcheck hw =>
    have hvalid : Valid cfg (stepEvent env (completedStep env.coordinator op confirmation)
        event.correlationId) := (valid_completed_iff hreg).mpr hnamed
    refine (Follows.applied hall op (env.coordinator.writer op)).trans ?_
    -- the write leaves `_pending` and its completion is recorded
    rcases onWritten_view confirmation key
      ((breakerOf key w).check cfg.breaker env.breakerClock).2 (appliedWorld env op
        (withBreaker key ((breakerOf key w).check cfg.breaker env.breakerClock).2 w)) with
      ⟨-, hrefused, -⟩ | ⟨-, hview⟩
    · rcases hrefused with hnot | hnot
      · exact absurd hvalid hnot
      · exact absurd (hstores ⟨key, hkey, hcheck⟩ confirmation hw) hnot
    · rw [hview]
      refine Follows.of_update (Follows.applied hall op _).logged rfl rfl
        (fun _ hx => by cases hx) fun _ => .inr ?_
      exact mem_stepsOf_tell (completedStep env.coordinator op confirmation) rfl _

theorem announceAndExecute_follows {op : WriteOperation} {reviewer : Json} {w : World}
    (hall : AllLogged (view w)) (hop : w.self.pending op.writeId = some op)
    (hreviewer : (Schema.text 1).valid reviewer = true)
    (happroval : Stores env event (approvedStep env.coordinator op reviewer))
    (hcompletion : Admits cfg env op w → ∀ confirmation,
      env.coordinator.writer { op with state := .approved } = .ok confirmation →
        Stores env event
          (completedStep env.coordinator { op with state := .approved } confirmation)) :
    Follows (view w) (view (announceAndExecute cfg env event op reviewer
      (pended op.writeId { op with state := .approved } w)).2) := by
  have hlogged := hall _ op hop
  have hvalid : Valid cfg (stepEvent env (approvedStep env.coordinator op reviewer)
      event.correlationId) := (valid_approved_iff hreg).mpr ⟨hlogged.named, hreviewer⟩
  have hview := emit_recorded (w := pended op.writeId { op with state := .approved } w) hvalid
    happroval
  have hself := emit_self cfg env (approvedStep env.coordinator op reviewer)
    event.correlationId (pended op.writeId { op with state := .approved } w)
  have hannounced : Follows (view w) ((view (pended op.writeId { op with state := .approved } w)).tell
      (obsOf env event (approvedStep env.coordinator op reviewer))) := by
    refine Follows.of_update hall rfl rfl ?_ fun hx => by cases hx
    intro op' hop'
    obtain rfl := Option.some.inj hop'
    refine ⟨rfl, ⟨hlogged.named.tenantId, hlogged.named.erpPlatform, hlogged.named.operation,
      hlogged.named.writeId⟩, ?_, fun _ => ?_⟩
    · exact mem_stepsOf_append _ hlogged.requested
    · exact mem_stepsOf_tell (approvedStep env.coordinator op reviewer) rfl _
  rw [← hview] at hannounced
  rcases announceAndExecute_cases cfg env event op reviewer
    (pended op.writeId { op with state := .approved } w) with ⟨e, -, hr⟩ | ⟨-, hr⟩
  · rw [hr]
    exact hannounced
  · rw [hr]
    refine hannounced.trans (execute_follows hreg rfl hannounced.logged ?_ ?_)
    · rw [hself]
      simp [pended]
    · -- the announcement left the breakers as they were
      rintro ⟨key, hkey, hcheck⟩ confirmation hw
      refine hcompletion ⟨key, hkey, ?_⟩ confirmation hw
      unfold breakerOf at hcheck ⊢
      rw [hself] at hcheck
      exact hcheck

/-- A call that finds what it needs keeps state and log together. -/
theorem handle_follows {w : World} (hall : AllLogged (view w)) (h : Recordable cfg env event w) :
    Follows (view w) (view (handle cfg env event w).2) := by
  have hcourse := handle_course cfg env event w
  generalize hr : handle cfg env event w = r at hcourse
  cases hcourse with
  | idle r => exact .refl hall
  | quarantined error =>
    rw [deadLetter_view]
    exact .refl hall
  | proposed hp =>
    rename_i op
    obtain ⟨hdescribed, hstores⟩ := h.proposal op hp
    rw [emit_recorded (hdescribed.valid_requested hreg) hstores]
    refine Follows.of_update hall rfl rfl ?_ fun hx => by cases hx
    intro op' hop'
    obtain rfl : op = op' := Option.some.inj hop'
    refine ⟨rfl, hdescribed.toNamed, ?_, ?_⟩
    · exact mem_stepsOf_tell (requestedStep env.coordinator op) rfl _
    · intro hs
      rw [hp.minted.2] at hs
      cases hs
  | retried happroval hop hstate =>
    rename_i writeId op
    obtain rfl : op.writeId = writeId := (hall writeId op hop).id
    refine execute_follows hreg hstate hall hop ?_
    intro hadmits confirmation hw
    have hstores := h.completion _ op confirmation happroval hop hadmits
    rw [with_approved hstate] at hstores
    exact hstores hw
  | approved happroval hreviewer hop hstate =>
    rename_i writeId op reviewer
    obtain rfl : op.writeId = writeId := (hall writeId op hop).id
    obtain ⟨htext, hstores⟩ := h.approval _ op reviewer happroval hreviewer hop hstate
    exact announceAndExecute_follows hreg hall hop htext hstores
      fun hadmits confirmation hw => h.completion _ op confirmation happroval hop hadmits hw
  | rejected hrefusal hop hstate =>
    rename_i writeId op reviewer reason
    have hlogged := hall writeId op hop
    obtain rfl : op.writeId = writeId := hlogged.id
    obtain ⟨hreviewer, hreason, hstores⟩ := h.rejection _ op reviewer reason hrefusal hop hstate
    rw [emit_recorded (hlogged.named.valid_rejected hreg hreviewer hreason) hstores]
    refine Follows.of_update hall rfl rfl (fun _ hx => by cases hx) fun _ => .inl ?_
    exact mem_stepsOf_tell (rejectedStep env.coordinator op reviewer reason) rfl _

end Repository

/-! ## Runs -/

theorem served_snoc (cfg : Config) (calls : List (Env × Event)) (c : Env × Event) :
    served cfg (calls ++ [c]) = (handle cfg c.1 c.2 (served cfg calls)).2 := by
  unfold served
  rw [Action.serve_append]
  rfl

/-- Every write is kept under its own id, in a state that fits the dictionary. -/
structure Keyed (v : View) : Prop where
  pending : ∀ writeId op, v.pending writeId = some op →
    op.writeId = writeId ∧ (op.state = .requested ∨ op.state = .approved)
  completed : ∀ writeId op, v.completed writeId = some op →
    op.writeId = writeId ∧ op.state = .completed

namespace Keyed

variable {v : View}

theorem put (h : Keyed v) (op : WriteOperation)
    (hs : op.state = .requested ∨ op.state = .approved) : Keyed (v.put op.writeId op) := by
  refine ⟨?_, h.completed⟩
  intro id op' hop'
  rcases update_eq_some hop' with ⟨rfl, hsome⟩ | ⟨-, hold⟩
  · obtain rfl := Option.some.inj hsome
    exact ⟨rfl, hs⟩
  · exact h.pending id op' hold

theorem pop (h : Keyed v) (writeId : String) : Keyed (v.pop writeId) := by
  refine ⟨?_, h.completed⟩
  intro id op hop
  rcases update_eq_some hop with ⟨-, hnone⟩ | ⟨-, hold⟩
  · cases hnone
  · exact h.pending id op hold

theorem finish (h : Keyed v) (op : WriteOperation) (hs : op.state = .completed) :
    Keyed (v.finish op.writeId op) := by
  refine ⟨(h.pop op.writeId).pending, ?_⟩
  intro id op' hop'
  rcases update_eq_some hop' with ⟨rfl, hsome⟩ | ⟨-, hold⟩
  · obtain rfl := Option.some.inj hsome
    exact ⟨rfl, hs⟩
  · exact h.completed id op' hold

theorem tell (h : Keyed v) (obs : Obs) : Keyed (v.tell obs) := ⟨h.pending, h.completed⟩

theorem executed (h : Keyed v) {cfg : Config} {env : Env} {event : Event} {op : WriteOperation}
    {ok : Bool} {v' : View} (hex : Executed cfg env event op v ok v') : Keyed v' := by
  cases hex with
  | refused => exact h
  | failed _ => exact h.tell _
  | unannounced _ _ => exact (h.tell _).finish { op with state := .completed } rfl
  | completed _ _ => exact ((h.tell _).finish { op with state := .completed } rfl).tell _

theorem handled (h : Keyed v) {cfg : Config} {env : Env} {event : Event} {ok : Bool} {v' : View}
    (hh : Handled cfg env event v ok v') : Keyed v' := by
  cases hh with
  | idle => exact h
  | unannounced _ hs => exact h.put _ (.inl hs)
  | proposed _ hs _ => exact (h.put _ (.inl hs)).tell _
  | retried _ _ hex => exact h.executed hex
  | unapproved hop hs =>
    rename_i writeId op
    obtain rfl : op.writeId = writeId := (h.pending _ _ hop).1
    exact h.put { op with state := .approved } (.inr rfl)
  | approved hnames hop hs hv hex =>
    rename_i writeId op reviewer
    obtain rfl : op.writeId = writeId := (h.pending _ _ hop).1
    exact ((h.put { op with state := .approved } (.inr rfl)).tell _).executed hex
  | unrejected _ _ => exact h.pop _
  | rejected _ _ _ _ => exact (h.pop _).tell _

end Keyed

theorem served_keyed (cfg : Config) (calls : List (Env × Event)) : Keyed (view (served cfg calls)) := by
  refine Action.serve_induct (I := fun w : World => Keyed (view w)) ?_ calls _ ?_
  · intro c w h
    exact h.handled (handle_spec w)
  · exact ⟨fun _ _ hop => (by cases hop), fun _ _ hop => (by cases hop)⟩

theorem Recorded.snoc {cfg : Config} {calls : List (Env × Event)} {c : Env × Event} {s : Step}
    {writeId : String} (h : Recorded cfg calls s writeId)
    (hgrown : (served cfg calls).trace <+: (served cfg (calls ++ [c])).trace) :
    Recorded cfg (calls ++ [c]) s writeId := by
  obtain ⟨obs, hobs⟩ := hgrown
  unfold Recorded
  rw [← hobs]
  exact mem_stepsOf_append obs h

theorem EachFinds.split {cfg : Config} {condition : Env × Event → World → Prop}
    {calls : List (Env × Event)} {c : Env × Event}
    (h : EachFinds cfg condition (calls ++ [c])) :
    EachFinds cfg condition calls ∧ condition c (served cfg calls) := by
  obtain ⟨hcalls, hc, -⟩ := Action.along_append.mp h
  exact ⟨hcalls, hc⟩

theorem EachFinds.initial {cfg : Config} {condition : Env × Event → World → Prop}
    {pre calls : List (Env × Event)} (h : EachFinds cfg condition calls) (hpre : pre <+: calls) :
    EachFinds cfg condition pre := by
  obtain ⟨post, rfl⟩ := hpre
  exact (Action.along_append.mp h).1

/-- **State and event log agree where every change is recorded.** In every run of calls, raising or not,
each of which finds fields that pass the contracts of the events it emits and an event store that accepts
them: after each call, only announced approvals are pending as approved, only writes with a recorded
rejection or completion are no longer pending, and only requested writes are pending. -/
theorem log_agrees_of_recordable (dir : String) (complaint : Schema → Json → String)
    (sha256 : String → String) (breaker : BreakerConfig) (calls : List (Env × Event))
    (h : EachFinds ⟨.repository dir complaint sha256, breaker⟩
      (fun c => Recordable ⟨.repository dir complaint sha256, breaker⟩ c.1 c.2) calls)
    (pre : List (Env × Event)) (hpre : pre <+: calls) :
    LogAgrees ⟨.repository dir complaint sha256, breaker⟩ pre := by
  replace h := h.initial hpre
  clear hpre
  generalize hcfg : (⟨.repository dir complaint sha256, breaker⟩ : Config) = cfg at h ⊢
  have hreg : cfg.rt.registry = .repository dir complaint := by
    rw [← hcfg]
    rfl
  -- the invariant, and what is recorded of the writes that were taken out
  have hinv : AllLogged (view (served cfg pre)) ∧ ∀ writeId, Proposed cfg pre writeId →
      (served cfg pre).self.pending writeId = none →
        Recorded cfg pre .rejected writeId ∨ Recorded cfg pre .completed writeId := by
    induction pre using List.reverseRecOn with
    | nil =>
      refine ⟨?_, ?_⟩
      · intro writeId op hop
        cases hop
      · rintro writeId ⟨before, hbefore, hne⟩ -
        rw [List.prefix_nil.mp hbefore] at hne
        exact absurd rfl hne
    | append_singleton pre c ih =>
      obtain ⟨hearlier, hc⟩ := h.split
      obtain ⟨hall, habsent⟩ := ih hearlier
      have hfollows := handle_follows hreg hall hc
      rw [← served_snoc] at hfollows
      refine ⟨hfollows.logged, ?_⟩
      rintro writeId ⟨before, hbefore, hne⟩ hnone
      rcases List.prefix_concat_iff.mp hbefore with rfl | hbefore
      · exact absurd hnone hne
      · by_cases hwas : (served cfg pre).self.pending writeId = none
        · -- it was taken out by an earlier call
          rcases habsent writeId ⟨before, hbefore, hne⟩ hwas with hr | hc
          · exact .inl (hr.snoc hfollows.grown)
          · exact .inr (hc.snoc hfollows.grown)
        · exact hfollows.absent writeId hwas hnone
  obtain ⟨hall, habsent⟩ := hinv
  refine ⟨?_, habsent, ?_⟩
  · intro writeId op hop hstate
    exact (hall writeId op hop).approved hstate
  · intro writeId hne
    obtain ⟨op, hop⟩ := Option.ne_none_iff_exists'.mp hne
    exact (hall writeId op hop).requested

/-! ## A rejection without a reason -/

theorem orderProposal_not_names (total : Int) (writeId : String) :
    ¬ Names (orderProposal total) writeId := by
  intro h
  have hsub := h.1
  simp [orderProposal] at hsub

theorem recordable_orderProposal (cfg : Config) (n newId : String) (hid : 1 ≤ newId.length)
    (writer : WriteOperation → Except String Obj) (total : Int) (w : World) :
    Recordable cfg (orderEnv n newId writer) (orderProposal total) w := by
  refine ⟨?_, ?_, ?_, ?_⟩
  · intro op hp
    refine ⟨?_, rfl⟩
    cases hp with
    | proposal _ hr hop =>
      obtain rfl := Except.ok.inj hr
      obtain rfl := congrArg WriteStep.op (Except.ok.inj hop)
      exact ⟨⟨rfl, rfl, rfl, hid⟩, rfl, rfl, rfl, rfl, rfl⟩
    | reversal hsub => simp [orderProposal] at hsub
  · intro writeId op reviewer h
    exact absurd h.names (orderProposal_not_names _ _)
  · intro writeId op reviewer reason h
    exact absurd h.names (orderProposal_not_names _ _)
  · intro writeId op confirmation h
    exact absurd h.names (orderProposal_not_names _ _)

theorem recordable_approval (cfg : Config) (n newId : String)
    (writer : WriteOperation → Except String Obj) (writeId : String) (w : World) :
    Recordable cfg (orderEnv n newId writer) (approval writeId) w := by
  refine ⟨?_, ?_, ?_, ?_⟩
  · intro op hp
    cases hp with
    | proposal hsub => simp [approval] at hsub
    | reversal hsub => simp [approval] at hsub
  · intro id op reviewer _ hreviewer _ _
    obtain rfl := Except.ok.inj hreviewer
    exact ⟨rfl, rfl⟩
  · rintro id op reviewer reason ⟨-, ⟨d, hd, hne⟩, -⟩
    exact absurd (Except.ok.inj hd).symm hne
  · intro id op confirmation _ _ _ _
    rfl

/-- The hypothesis of `log_agrees_of_recordable` holds for the order that is proposed, approved while the
ERP is down and retried. -/
theorem log_agrees_orderRun : LogAgrees orderConfig orderRun := by
  refine log_agrees_of_recordable "schema_registry/schemas" (fun _ _ => "") orderConfig.rt.sha256 {}
    orderRun ⟨?_, ?_, ?_, trivial⟩ orderRun (List.prefix_refl _)
  · exact recordable_orderProposal _ _ _ (by decide) _ _ _
  · exact recordable_approval _ _ _ _ _ _
  · exact recordable_approval _ _ _ _ _ _

/-- A rejection whose reason is the empty string. -/
def rejection (writeId : String) : Event where
  subject := "forge.write.decision"
  schemaVersion := .int 1
  source := "console"
  id := "00000000-0000-0000-0000-00000000000c"
  payload := .obj
    [("write_id", .str writeId), ("decision", "reject"), ("reviewer", "bo"), ("reason", "")]

def rejectionRun : List (Env × Event) :=
  [(orderEnv "0" "w-1" fun _ => .error "down", orderProposal 10),
    (orderEnv "1" "w-2" fun _ => .error "down", rejection "w-1")]

/-- The order is no longer pending, and no rejection is recorded. -/
theorem empty_reason_loses_rejection : ¬ LogAgrees orderConfig rejectionRun := by
  intro h
  have hproposed : Proposed orderConfig rejectionRun "w-1" := by
    refine ⟨rejectionRun.take 1, List.take_prefix 1 _, ?_⟩
    decide +kernel
  have hgone : (served orderConfig rejectionRun).self.pending "w-1" = none := by decide +kernel
  rcases h.absent "w-1" hproposed hgone with hrejected | hcompleted
  · exact absurd hrejected (by unfold Recorded; decide +kernel)
  · exact absurd hcompleted (by unfold Recorded; decide +kernel)

end ForgeWriteAgent

end CaviErp
