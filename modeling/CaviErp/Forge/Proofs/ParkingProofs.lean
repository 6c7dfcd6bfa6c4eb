import CaviErp.Forge.Parking
import CaviErp.Forge.Proofs.RecordingProofs

/-!
# An approval that leaves no trace

Each exit of `_execute` is looked at once, by what it adds to the trace and to the bus. The approval of a
pending write ends in a completion or in a dead letter exactly where the call finds what `Escalates` asks
for. A first failure of the ERP does not meet it.
-/

namespace CaviErp

open Py

namespace ForgeWriteAgent

/-! ## What is added -/

/-- What a part of a call adds to the trace and to the bus. -/
structure Adds (w w' : World) (seen : List Obs) (sent : List (String × String)) : Prop where
  trace : w'.trace = w.trace ++ seen
  bus : w'.bus = w.bus ++ sent

theorem Adds.refl (w : World) : Adds w w [] [] := ⟨by simp, by simp⟩

theorem Adds.trans {w₁ w₂ w₃ : World} {seen seen' : List Obs} {sent sent' : List (String × String)}
    (h : Adds w₁ w₂ seen sent) (h' : Adds w₂ w₃ seen' sent') :
    Adds w₁ w₃ (seen ++ seen') (sent ++ sent') :=
  ⟨by rw [h'.trace, h.trace, List.append_assoc], by rw [h'.bus, h.bus, List.append_assoc]⟩

/-- Nothing that is added is a completion or a dead letter. -/
structure Quiet (event : Event) (sent : List (String × String)) : Prop where
  completion : ∀ data, ("forge.write.completed", data) ∉ sent
  deadLetter : ∀ data, ("deadletter." ++ event.subject.pyStr, data) ∉ sent

theorem quiet_nil (event : Event) : Quiet event [] := ⟨by simp, by simp⟩

theorem not_visible_of_quiet {event : Event} {writeId : String} {w w' : World} {seen : List Obs}
    {sent : List (String × String)} (h : Adds w w' seen sent) (hquiet : Quiet event sent) :
    ¬ Visible event writeId w w' := by
  have hdrop : w'.bus.drop w.bus.length = sent := by rw [h.bus, List.drop_left]
  rintro (⟨e, -, -, hmem⟩ | ⟨error, hmem, -⟩)
  · rw [hdrop] at hmem
    exact hquiet.completion _ hmem
  · rw [hdrop] at hmem
    exact hquiet.deadLetter _ hmem

variable {cfg : Config} {env : Env} {event : Event}

theorem deadLetter_of_quarantines {error : String} (h : Quarantines env event error) (w : World) :
    deadLetter cfg env event error w =
      (.ok (), (w.quarantined (BaseAgent.envelope event error)).published
        ("deadletter." ++ event.subject.pyStr)
        (dumps .default (.obj (BaseAgent.envelope event error)))) := by
  obtain ⟨hrecord, hpublish⟩ := h
  simp [deadLetter, BaseAgent.deadLetter, hrecord, BaseAgent.publish, hpublish, World.quarantined,
    World.published]

theorem deadLetter_of_not_quarantines {error : String} (h : ¬ Quarantines env event error)
    (w : World) : Adds w (deadLetter cfg env event error w).2 [] [] := by
  cases hrecord : env.infra.recordDeadletter (BaseAgent.envelope event error) with
  | some text =>
    simp only [deadLetter, BaseAgent.deadLetter, Action.bind_apply, Action.attempt_apply, hrecord,
      Option.map_some, Action.raiseIf_some]
    exact .refl w
  | none =>
    cases hpublish : env.infra.publish ("deadletter." ++ event.subject.pyStr)
        (dumps .default (.obj (BaseAgent.envelope event error))) with
    | some text =>
      simp only [deadLetter, BaseAgent.deadLetter, Action.bind_apply, Action.attempt_apply, hrecord,
        Option.map_none, Action.raiseIf_none, Action.modify_apply, BaseAgent.publish, hpublish,
        Option.map_some, Action.raiseIf_some]
      exact ⟨by simp, by simp⟩
    | none => exact absurd ⟨hrecord, hpublish⟩ h

/-- The store has a dead letter under the key of one that it was given. -/
theorem exists_deadletter (s : EventStore) (envelope : Obj) :
    ∃ d ∈ (s.recordDeadletter envelope).deadletters,
      EventStore.deadletterKey d = EventStore.deadletterKey envelope := by
  unfold EventStore.recordDeadletter
  split
  · rename_i hany
    obtain ⟨d, hd, hkey⟩ := List.any_eq_true.mp hany
    exact ⟨d, hd, by simpa using hkey⟩
  · exact ⟨envelope, by simp, rfl⟩

theorem deadLetter_visible_iff {error writeId : String} {w₀ w : World} {seen : List Obs}
    {sent : List (String × String)} (h : Adds w₀ w seen sent) (hquiet : Quiet event sent) :
    Visible event writeId w₀ (deadLetter cfg env event error w).2 ↔ Quarantines env event error := by
  by_cases hq : Quarantines env event error
  · refine iff_of_true (.inr ⟨error, ?_, ?_⟩) hq
    · rw [deadLetter_of_quarantines hq]
      simp [World.published, World.quarantined, h.bus]
    · rw [deadLetter_of_quarantines hq]
      exact exists_deadletter w.store _
  · refine iff_of_false (not_visible_of_quiet (h.trans (deadLetter_of_not_quarantines hq w)) ?_) hq
    rw [List.append_nil]
    exact hquiet

theorem emit_of_emits {step : WriteStep} (h : Emits cfg env event step) (w : World) :
    emit cfg env step event.correlationId w =
      (.ok (), (w.recorded cfg.rt (obsOf env event step)
        (stepEvent env step event.correlationId)).published step.subject
          (dumps .default (.obj (stepEvent env step event.correlationId).toDict))) := by
  obtain ⟨hvalid, hstores, hpublish⟩ := h
  unfold Valid at hvalid
  unfold Stores at hstores
  have hsubject : (stepEvent env step event.correlationId).subject.pyStr = step.subject := rfl
  simp [emit, BaseAgent.emit, hvalid, BaseAgent.recordEvent, hstores, BaseAgent.publish, hsubject,
    hpublish, World.recorded, World.published, obsOf]

/-- An event that is not emitted is not published, and the call raises. -/
theorem emit_of_not_emits {step : WriteStep} (h : ¬ Emits cfg env event step) (w : World) :
    (∃ e, (emit cfg env step event.correlationId w).1 = .error e) ∧
      ∃ seen, Adds w (emit cfg env step event.correlationId w).2 seen [] := by
  rcases BaseAgent.emit_cases cfg.rt env.infra
    (Obs.emitted step.op.writeId (stepEvent env step event.correlationId))
    (stepEvent env step event.correlationId) w with
    ⟨e, he, -, -⟩ | ⟨hstores, hvalid, ⟨e, he, -⟩ | he⟩
  · unfold emit
    rw [he]
    exact ⟨⟨e, rfl⟩, [], .refl w⟩
  · unfold emit
    rw [he]
    exact ⟨⟨e, rfl⟩, _, rfl, by simp [World.recorded]⟩
  · refine absurd ⟨hvalid, hstores, ?_⟩ h
    exact BaseAgent.publish_of_emit cfg.rt env.infra (by rw [he])

/-! ## Executing -/

theorem check_openedAt (b : CircuitBreaker) (config : BreakerConfig) (clock : BreakerClock) :
    (b.check config clock).2.openedAt = b.openedAt ∧
      (b.check config clock).2.consecutiveFailures = b.consecutiveFailures := by
  unfold CircuitBreaker.check
  split
  · exact ⟨rfl, rfl⟩
  · split
    · exact ⟨rfl, rfl⟩
    · exact ⟨rfl, rfl⟩
  · exact ⟨rfl, rfl⟩

theorem recordFailure_iff (b : CircuitBreaker) (clock : BreakerClock) :
    (b.recordFailure cfg.breaker clock).1 = true ↔ Trips cfg b := by
  unfold CircuitBreaker.recordFailure Trips
  cases hopen : b.openedAt with
  | none =>
    by_cases hle : cfg.breaker.failureThreshold ≤ b.consecutiveFailures + 1
    · simp [hle]
    · simp [hle]
  | some t => simp

/-- The trace grows by the call of the writer, and nothing is sent yet. -/
theorem adds_applied (env : Env) (key : Json × Json) (b : CircuitBreaker) (op : WriteOperation) (w : World) :
    Adds w (appliedWorld env op (withBreaker key b w))
      [.applied op (env.coordinator.writer op)] [] :=
  ⟨rfl, by simp [appliedWorld, withBreaker]⟩

theorem adds_withBreaker (key : Json × Json) (b : CircuitBreaker) (w : World) :
    Adds w (withBreaker key b w) [] [] :=
  ⟨by simp [withBreaker], by simp [withBreaker]⟩

theorem onWriteFailed_visible_iff {key : Json × Json} {b : CircuitBreaker} {text writeId : String}
    {w₀ w : World} {seen : List Obs} {sent : List (String × String)} (h : Adds w₀ w seen sent)
    (hquiet : Quiet event sent) :
    Visible event writeId w₀ (onWriteFailed cfg env key b event text w).2 ↔
      Trips cfg b ∧ Quarantines env event ("circuit breaker opened; last error: " ++ text) := by
  have hadds := h.trans (adds_withBreaker key (b.recordFailure cfg.breaker env.breakerClock).2 w)
  rw [List.append_nil, List.append_nil] at hadds
  rw [onWriteFailed_eq]
  by_cases htrips : (b.recordFailure cfg.breaker env.breakerClock).1 = true
  · rw [if_pos htrips, deadLetter_visible_iff hadds hquiet]
    have ht := (recordFailure_iff b env.breakerClock).mp htrips
    exact ⟨fun hq => ⟨ht, hq⟩, fun hq => hq.2⟩
  · rw [if_neg htrips]
    -- the failure is counted, and only logged
    refine iff_of_false (not_visible_of_quiet hadds hquiet) ?_
    rintro ⟨ht, -⟩
    exact htrips ((recordFailure_iff b env.breakerClock).mpr ht)

/-- A write that went through is seen where its completion is emitted. -/
theorem onWritten_visible_iff {key : Json × Json} {b : CircuitBreaker} {op : WriteOperation}
    {confirmation : Obj} {w₀ w : World} {seen : List Obs} {sent : List (String × String)}
    (h : Adds w₀ w seen sent) (hquiet : Quiet event sent) :
    Visible event op.writeId w₀ (onWritten cfg env key b op
        (completedStep env.coordinator op confirmation) event.correlationId w).2 ↔
      Emits cfg env event (completedStep env.coordinator op confirmation) := by
  obtain ⟨w', hadds, hw'⟩ : ∃ w', Adds w w' [] [] ∧ onWritten cfg env key b op
      (completedStep env.coordinator op confirmation) event.correlationId w =
        emit cfg env (completedStep env.coordinator op confirmation) event.correlationId w' := by
    refine ⟨{ w with
      self := {
        pending := Function.update w.self.pending op.writeId none
        completed := Function.update w.self.completed op.writeId (some { op with state := .completed })
        breakers := Function.update w.self.breakers key (some b.recordSuccess) } }, ?_, rfl⟩
    exact ⟨by simp, by simp⟩
  replace hadds := h.trans hadds
  rw [List.append_nil, List.append_nil] at hadds
  rw [hw']
  by_cases hemits : Emits cfg env event (completedStep env.coordinator op confirmation)
  · refine iff_of_true (.inl ⟨stepEvent env (completedStep env.coordinator op confirmation)
      event.correlationId, rfl, ?_, ?_⟩) hemits
    · rw [emit_of_emits hemits]
      simp [World.published, World.recorded, hadds.trace, obsOf, completedStep]
    · rw [emit_of_emits hemits]
      simp [World.published, World.recorded, hadds.bus, completedStep]
  · obtain ⟨-, seen', hseen'⟩ := emit_of_not_emits hemits w'
    refine iff_of_false (not_visible_of_quiet (hadds.trans hseen') ?_) hemits
    rw [List.append_nil]
    exact hquiet

section Settles

variable {op : WriteOperation} {key : Json × Json} {w : World}

/-! What `Settles` comes down to on each of the three ways through `_execute`. -/

theorem settles_of_refusal_iff {refusal : String}
    (hcheck : ((breakerOf key w).check cfg.breaker env.breakerClock).1 = some refusal) :
    Settles cfg env event op key w ↔ Quarantines env event refusal := by
  have hrefused : ((breakerOf key w).check cfg.breaker env.breakerClock).1 ≠ none := by
    rw [hcheck]
    exact Option.some_ne_none _
  constructor
  · intro hs
    exact hs.refused refusal hcheck
  · intro hq
    refine ⟨?_, fun hnone => absurd hnone hrefused, fun hnone => absurd hnone hrefused⟩
    intro refusal' hrefusal'
    obtain rfl := Option.some.inj (hcheck.symm.trans hrefusal')
    exact hq

theorem settles_of_failure_iff {text : String}
    (hcheck : ((breakerOf key w).check cfg.breaker env.breakerClock).1 = none)
    (hw : env.coordinator.writer op = .error text) :
    Settles cfg env event op key w ↔ Trips cfg (breakerOf key w) ∧
      Quarantines env event ("circuit breaker opened; last error: " ++ text) := by
  constructor
  · intro hs
    exact hs.failed hcheck text hw
  · intro hq
    refine ⟨?_, ?_, ?_⟩
    · intro refusal hrefusal
      cases hcheck.symm.trans hrefusal
    · intro _ text' htext'
      obtain rfl := Except.error.inj (hw.symm.trans htext')
      exact hq
    · intro _ confirmation hok
      cases hw.symm.trans hok

theorem settles_of_success_iff {confirmation : Obj}
    (hcheck : ((breakerOf key w).check cfg.breaker env.breakerClock).1 = none)
    (hw : env.coordinator.writer op = .ok confirmation) :
    Settles cfg env event op key w ↔
      Emits cfg env event (completedStep env.coordinator op confirmation) := by
  constructor
  · intro hs
    exact hs.written hcheck confirmation hw
  · intro hemits
    refine ⟨?_, ?_, ?_⟩
    · intro refusal hrefusal
      cases hcheck.symm.trans hrefusal
    · intro _ text htext
      cases hw.symm.trans htext
    · intro _ confirmation' hok
      obtain rfl := Except.ok.inj (hw.symm.trans hok)
      exact hemits

end Settles

/-- The execution of an approved write is seen exactly where it finds what `Settles` asks for. -/
theorem execute_visible_iff (cfg : Config) (env : Env) {op : WriteOperation} {w₀ w : World}
    {seen : List Obs} {sent : List (String × String)} (hstate : op.state = .approved)
    (h : Adds w₀ w seen sent) (hquiet : Quiet event sent) :
    Visible event op.writeId w₀ (execute cfg env op event event.correlationId w).2 ↔
      ∃ key, breakerKey op = .ok key ∧ Settles cfg env event op key w := by
  have hkeys : ∀ {key}, breakerKey op = .ok key →
      ((∃ key', breakerKey op = .ok key' ∧ Settles cfg env event op key' w) ↔
        Settles cfg env event op key w) := by
    intro key hkey
    constructor
    · rintro ⟨key', heq, hs⟩
      rw [hkey] at heq
      obtain rfl := Except.ok.inj heq
      exact hs
    · intro hs
      exact ⟨key, hkey, hs⟩
  have hcourse := execute_course cfg env event hstate event.correlationId w
  generalize execute cfg env op event event.correlationId w = r at hcourse
  cases hcourse with
  | unkeyed hkey =>
    refine iff_of_false (not_visible_of_quiet h hquiet) ?_
    rintro ⟨key, hkey', -⟩
    rw [hkey] at hkey'
    cases hkey'
  | @refused key refusal hkey hcheck =>
    have hadds := h.trans (adds_withBreaker key
      ((breakerOf key w).check cfg.breaker env.breakerClock).2 w)
    rw [List.append_nil, List.append_nil] at hadds
    rw [hkeys hkey, deadLetter_visible_iff hadds hquiet, settles_of_refusal_iff hcheck]
  | @failed key text hkey hcheck hw =>
    have hadds := h.trans (adds_applied env key
      ((breakerOf key w).check cfg.breaker env.breakerClock).2 op w)
    rw [List.append_nil] at hadds
    obtain ⟨hopened, hfailures⟩ := check_openedAt (breakerOf key w) cfg.breaker env.breakerClock
    -- `check` leaves what the trip depends on as it was
    have htrips : Trips cfg ((breakerOf key w).check cfg.breaker env.breakerClock).2 ↔
        Trips cfg (breakerOf key w) := by
      unfold Trips
      rw [hopened, hfailures]
    rw [hkeys hkey, onWriteFailed_visible_iff hadds hquiet, htrips, settles_of_failure_iff hcheck hw]
  | @written key confirmation hkey hcheck hw =>
    have hadds := h.trans (adds_applied env key
      ((breakerOf key w).check cfg.breaker env.breakerClock).2 op w)
    rw [List.append_nil] at hadds
    rw [hkeys hkey, onWritten_visible_iff hadds hquiet, settles_of_success_iff hcheck hw]

/-! ## Approving -/

theorem Settles.congr {op : WriteOperation} {key : Json × Json} {w w' : World}
    (h : Settles cfg env event op key w) (heq : breakerOf key w' = breakerOf key w) :
    Settles cfg env event op key w' := by
  refine ⟨?_, ?_, ?_⟩
  · rw [heq]
    exact h.refused
  · rw [heq]
    exact h.failed
  · rw [heq]
    exact h.written

theorem quiet_approved (hsub : event.subject = "forge.write.decision") (data : String) :
    Quiet event [("forge.write.approved", data)] := by
  have hchannel : "deadletter." ++ event.subject.pyStr ≠ "forge.write.approved" := by
    rw [hsub]
    decide
  refine ⟨?_, ?_⟩
  · intro data' hmem
    simp at hmem
  · intro data' hmem
    simp only [List.mem_singleton, Prod.mk.injEq] at hmem
    exact hchannel hmem.1

theorem announceAndExecute_visible_iff {op : WriteOperation} {reviewer : Json} {w : World}
    (hsub : event.subject = "forge.write.decision") :
    Visible event op.writeId w (announceAndExecute cfg env event op reviewer
        (pended op.writeId { op with state := .approved } w)).2 ↔
      Emits cfg env event (approvedStep env.coordinator op reviewer) ∧
        ∃ key, breakerKey op = .ok key ∧
          Settles cfg env event { op with state := .approved } key w := by
  have hpended : Adds w (pended op.writeId { op with state := .approved } w) [] [] :=
    ⟨by simp [pended], by simp [pended]⟩
  unfold announceAndExecute
  rw [Action.bind_apply]
  by_cases hemits : Emits cfg env event (approvedStep env.coordinator op reviewer)
  · rw [emit_of_emits hemits]
    simp only []
    generalize hw' : World.published (approvedStep env.coordinator op reviewer).subject _
      (World.recorded cfg.rt _ _ (pended op.writeId { op with state := .approved } w)) = w'
    have hadds : Adds w w' [obsOf env event (approvedStep env.coordinator op reviewer)]
        [("forge.write.approved", dumps .default (.obj (stepEvent env
          (approvedStep env.coordinator op reviewer) event.correlationId).toDict))] := by
      rw [← hw']
      exact ⟨rfl, rfl⟩
    have hbreakers : w'.self.breakers = w.self.breakers := by
      rw [← hw']
      rfl
    have hexec := execute_visible_iff cfg env
      (show ({ op with state := .approved } : WriteOperation).state = .approved from rfl) hadds
      (quiet_approved hsub _)
    refine hexec.trans ?_
    have hsame : ∀ key, breakerOf key w' = breakerOf key w := by
      intro key
      unfold breakerOf
      rw [hbreakers]
    constructor
    · rintro ⟨key, hkey, hs⟩
      exact ⟨hemits, key, hkey, hs.congr (hsame key).symm⟩
    · rintro ⟨-, key, hkey, hs⟩
      exact ⟨key, hkey, hs.congr (hsame key)⟩
  · obtain ⟨⟨e, he⟩, seen, hseen⟩ :=
      emit_of_not_emits hemits (pended op.writeId { op with state := .approved } w)
    refine iff_of_false ?_ fun h => hemits h.1
    rcases hr : emit cfg env (approvedStep env.coordinator op reviewer) event.correlationId
      (pended op.writeId { op with state := .approved } w) with ⟨r, w'⟩
    rw [hr] at he hseen
    obtain rfl : r = .error e := he
    exact not_visible_of_quiet (hpended.trans hseen) (quiet_nil event)

/-- **An approval leaves a trace exactly where its failure is not the kind that is only logged.** In every
reachable state, the approval of a pending write ends in the completion of the write or in a dead letter
of the decision if and only if it finds a reviewer and accepted events, and the breaker refuses the
write, or the writer returns, or its failure is the one that opens the breaker. -/
theorem approval_visible_iff (cfg : Config) (calls : List (Env × Event)) (env : Env) (event : Event)
    (writeId : String) (op : WriteOperation) (h : Approval event writeId)
    (hop : (served cfg calls).self.pending writeId = some op) :
    Visible event writeId (served cfg calls) (handle cfg env event (served cfg calls)).2 ↔
      Escalates cfg env event op (served cfg calls) := by
  obtain ⟨rfl, hstate⟩ := (served_keyed cfg calls).pending writeId op hop
  rcases hstate with hstate | hstate
  · cases hreviewer : item event.payload "reviewer" with
    | error e =>
      rw [handle_of_unsigned h hreviewer hop hstate]
      refine iff_of_false (not_visible_of_quiet (.refl _) (quiet_nil event)) ?_
      rintro ⟨happroval, -⟩
      obtain ⟨reviewer, hok, -⟩ := happroval hstate
      rw [hreviewer] at hok
      cases hok
    | ok reviewer =>
      rw [handle_of_approval h hreviewer hop hstate, announceAndExecute_visible_iff h.names.1]
      constructor
      · rintro ⟨hemits, hexecution⟩
        exact ⟨fun _ => ⟨reviewer, hreviewer, hemits⟩, hexecution⟩
      · rintro ⟨happroval, hexecution⟩
        obtain ⟨reviewer', hok, hemits⟩ := happroval hstate
        obtain rfl : reviewer = reviewer' := Except.ok.inj (hreviewer.symm.trans hok)
        exact ⟨hemits, hexecution⟩
  · rw [handle_of_replay h hop hstate,
      execute_visible_iff cfg env hstate (.refl _) (quiet_nil event)]
    constructor
    · intro hexecution
      refine ⟨fun hs => ?_, ?_⟩
      · rw [hstate] at hs
        cases hs
      · rw [with_approved hstate]
        exact hexecution
    · rintro ⟨-, hexecution⟩
      rw [with_approved hstate] at hexecution
      exact hexecution

/-! ## A first failure -/

theorem approval_approves (writeId : String) : Approval (approval writeId) writeId :=
  ⟨⟨rfl, rfl⟩, rfl⟩

/-- The agent to which the order was proposed. -/
def proposedOrder : List (Env × Event) := orderRun.take 1

/-- The hypotheses of `approval_visible_iff` hold for the approval of the order, which is seen where the
writer returns. -/
theorem approval_visible_order :
    Visible (approval "w-1") "w-1" (served orderConfig proposedOrder)
      (handle orderConfig (orderEnv "1" "w-2" fun _ => .ok [("id", .int 7)]) (approval "w-1")
        (served orderConfig proposedOrder)).2 := by
  refine (approval_visible_iff orderConfig proposedOrder _ _ "w-1" (order .requested)
    (approval_approves "w-1") rfl).mpr ⟨fun _ => ⟨"bo", rfl, ?_, rfl, rfl⟩, _, rfl, ?_, ?_, ?_⟩
  · exact (valid_approved_iff rfl).mpr ⟨⟨rfl, rfl, rfl, by decide⟩, rfl⟩
  · intro refusal hrefusal
    cases hrefusal
  · intro _ text htext
    cases htext
  · intro _ confirmation _
    exact ⟨(valid_completed_iff rfl).mpr ⟨rfl, rfl, rfl, by decide⟩, rfl, rfl⟩

/-- The ERP is down when the order is approved: the approval is announced, and that is all there is to
see. -/
theorem first_failure_parks :
    Approval (approval "w-1") "w-1" ∧
      (served orderConfig proposedOrder).self.pending "w-1" = some (order .requested) ∧
      ¬ Visible (approval "w-1") "w-1" (served orderConfig proposedOrder)
        (handle orderConfig (orderEnv "1" "w-2" fun _ => .error "down") (approval "w-1")
          (served orderConfig proposedOrder)).2 := by
  refine ⟨approval_approves "w-1", rfl, ?_⟩
  have hsent : ((handle orderConfig (orderEnv "1" "w-2" fun _ => .error "down") (approval "w-1")
      (served orderConfig proposedOrder)).2.bus.drop
        (served orderConfig proposedOrder).bus.length).map Prod.fst = ["forge.write.approved"] := by
    decide +kernel
  rintro (⟨e, -, -, hmem⟩ | ⟨error, hmem, -⟩)
  · have hchannel := List.mem_map_of_mem (f := Prod.fst) hmem
    rw [hsent] at hchannel
    simp at hchannel
  · have hchannel := List.mem_map_of_mem (f := Prod.fst) hmem
    rw [hsent] at hchannel
    have hname : "deadletter.forge.write.decision" ∈ ["forge.write.approved"] := hchannel
    exact absurd hname (by decide)

end ForgeWriteAgent

end CaviErp
