import CaviErp.Base.Proofs.AgentProofs
import CaviErp.Forge.Course

/-!
# What one call of the write agent does

The handlers, unfolded once: `handle_course` says which course a call takes. `handle_spec` derives what
the call does to the two dictionaries and to the trace.
-/

namespace CaviErp

open Py

theorem WriteRequest.item_of_argument {o : Obj} {key : String} {v : Json}
    (h : WriteRequest.ofKwargs.argument o key = .ok v) : item (.obj o) key = .ok v := by
  unfold WriteRequest.ofKwargs.argument at h
  cases hv : Obj.get? o key with
  | none =>
    rw [hv] at h
    cases h
  | some v' =>
    rw [hv] at h
    obtain rfl := Except.ok.inj h
    simp [item, hv]

/-- The request takes the arguments from the event, and no target where none is given. -/
theorem WriteRequest.ofKwargs_items {kwargs : Json} {r : WriteRequest}
    (h : WriteRequest.ofKwargs kwargs = .ok r) :
    item kwargs "tenant_id" = .ok r.tenantId ∧ item kwargs "operation" = .ok r.operation ∧
      item kwargs "payload" = .ok r.payload ∧
      (r.targetExternalId = .null ∨ item kwargs "target_external_id" = .ok r.targetExternalId) := by
  unfold WriteRequest.ofKwargs at h
  cases kwargs with
  | obj o =>
    simp only at h
    split at h
    · obtain ⟨tenantId, htenantId, h⟩ := bind_eq_ok h
      obtain ⟨erpPlatform, -, h⟩ := bind_eq_ok h
      obtain ⟨operation, hoperation, h⟩ := bind_eq_ok h
      obtain ⟨targetModule, -, h⟩ := bind_eq_ok h
      obtain ⟨payload, hpayload, h⟩ := bind_eq_ok h
      obtain ⟨requestedBy, -, h⟩ := bind_eq_ok h
      obtain rfl := Except.ok.inj h
      refine ⟨item_of_argument htenantId, item_of_argument hoperation, item_of_argument hpayload, ?_⟩
      cases htarget : Obj.get? o "target_external_id" with
      | none => exact .inl (by simp [Obj.get, htarget])
      | some v => exact .inr (by simp [item, Obj.get, htarget])
    · cases h
  | _ => cases h

namespace ForgeWriteAgent

variable {cfg : Config} {env : Env} {event : Event}

/-- A write that is found in a dictionary was just put there, or is that of another key. -/
theorem update_eq_some {d : String → Option WriteOperation} {key key' : String}
    {x : Option WriteOperation} {op : WriteOperation} (h : Function.update d key x key' = some op) :
    (key' = key ∧ x = some op) ∨ (key' ≠ key ∧ d key' = some op) := by
  by_cases hkey : key' = key
  · rw [hkey, Function.update_self] at h
    exact .inl ⟨hkey, h⟩
  · rw [Function.update_of_ne hkey] at h
    exact .inr ⟨hkey, h⟩

/-! ## Emitting and quarantining -/

theorem deadLetter_view (ev : Event) (error : String) (w : World) :
    view (deadLetter cfg env ev error w).2 = view w := by
  have hself : (deadLetter cfg env ev error w).2.self = w.self := BaseAgent.deadLetter_self ..
  have htrace : (deadLetter cfg env ev error w).2.trace = w.trace := BaseAgent.deadLetter_trace ..
  rw [view, view, hself, htrace]

theorem emit_self (cfg : Config) (env : Env) (step : WriteStep) (correlationId : Json) (w : World) :
    (emit cfg env step correlationId w).2.self = w.self := BaseAgent.emit_self ..

/-- `_emit` raises with nothing seen of an event that was refused, or the event is valid and seen. -/
theorem emit_view (cfg : Config) (env : Env) (event : Event) (step : WriteStep) (w : World) :
    ((emit cfg env step event.correlationId w).1.isOk = false ∧
      Refused cfg env (stepEvent env step event.correlationId) ∧
      view (emit cfg env step event.correlationId w).2 = view w) ∨
    (Valid cfg (stepEvent env step event.correlationId) ∧
      view (emit cfg env step event.correlationId w).2 = (view w).tell (obsOf env event step)) := by
  unfold emit
  rcases BaseAgent.emit_cases cfg.rt env.infra
    (Obs.emitted step.op.writeId (stepEvent env step event.correlationId))
    (stepEvent env step event.correlationId) w with
    ⟨e, he, -, hwhy⟩ | ⟨-, hv, ⟨e, he, -⟩ | he⟩
  · rw [he]
    refine .inl ⟨rfl, ?_, rfl⟩
    rcases hwhy with hbad | ⟨text, hr⟩
    · exact .inl (by simp [Valid, hbad])
    · exact .inr (by simp [hr])
  · rw [he]
    exact .inr ⟨hv, rfl⟩
  · rw [he]
    exact .inr ⟨hv, rfl⟩

theorem deadLetter_error {ev : Event} {error : String} {w : World} {e : PyError}
    (h : (deadLetter cfg env ev error w).1 = .error e) : e.isInvalidTransition = false :=
  (BaseAgent.deadLetter_error _ _ h).not_invalidTransition

theorem emit_error {step : WriteStep} {correlationId : Json} {w : World} {e : PyError}
    (h : (emit cfg env step correlationId w).1 = .error e) : e.isInvalidTransition = false :=
  (BaseAgent.emit_error _ _ h).not_invalidTransition

/-! ## The coordinator's steps -/

theorem approve_of_requested (c : WriteCoordinator) {op : WriteOperation}
    (h : op.state = .requested) (reviewer : Json) :
    c.approve op reviewer = .ok (approvedStep c op reviewer) := by
  simp [WriteCoordinator.approve, WriteOperation.transitionTo, h, WriteState.allowed, approvedStep,
    bind, Except.bind, pure, Except.pure]

theorem approve_of_not_requested (c : WriteCoordinator) {op : WriteOperation}
    (h : op.state ≠ .requested) (reviewer : Json) :
    ∃ text, c.approve op reviewer = .error (.invalidTransition text) := by
  cases hs : op.state with
  | requested => exact absurd hs h
  | _ =>
    simp [WriteCoordinator.approve, WriteOperation.transitionTo, hs, WriteState.allowed, bind,
      Except.bind]

theorem reject_of_requested (c : WriteCoordinator) {op : WriteOperation}
    (h : op.state = .requested) (reviewer reason : Json) :
    c.reject op reviewer reason = .ok (rejectedStep c op reviewer reason) := by
  simp [WriteCoordinator.reject, WriteOperation.transitionTo, h, WriteState.allowed, rejectedStep,
    bind, Except.bind, pure, Except.pure]

theorem reject_of_not_requested (c : WriteCoordinator) {op : WriteOperation}
    (h : op.state ≠ .requested) (reviewer reason : Json) :
    ∃ text, c.reject op reviewer reason = .error (.invalidTransition text) := by
  cases hs : op.state with
  | requested => exact absurd hs h
  | _ =>
    simp [WriteCoordinator.reject, WriteOperation.transitionTo, hs, WriteState.allowed, bind,
      Except.bind]

theorem complete_of_approved (c : WriteCoordinator) {op : WriteOperation}
    (h : op.state = .approved) (confirmation : Obj) :
    c.complete op confirmation = .ok (completedStep c op confirmation) := by
  simp [WriteCoordinator.complete, WriteOperation.transitionTo, h, WriteState.allowed, completedStep,
    bind, Except.bind, pure, Except.pure]

theorem request_ok {c : WriteCoordinator} {r : WriteRequest} {step : WriteStep}
    (h : c.request r = .ok step) :
    step = requestedStep c step.op ∧ step.op.writeId = c.newId ∧ step.op.state = .requested := by
  unfold WriteCoordinator.request at h
  cases hd : dictOf r.payload with
  | none => simp [hd, bind, Except.bind] at h
  | some o =>
    simp only [hd] at h
    obtain ⟨p, -, h⟩ := bind_eq_ok h
    obtain ⟨preview, -, h⟩ := bind_eq_ok h
    obtain rfl := Except.ok.inj h
    exact ⟨rfl, rfl, rfl⟩

/-- A new write has the fields of the request. -/
theorem request_carries {c : WriteCoordinator} {r : WriteRequest} {step : WriteStep}
    (h : c.request r = .ok step) :
    dictOf r.payload = some step.op.payload ∧ step.op.tenantId = r.tenantId ∧
      step.op.erpPlatform = r.erpPlatform ∧ step.op.operation = r.operation ∧
      step.op.targetModule = r.targetModule ∧ step.op.reverses = r.reverses ∧
      step.op.targetExternalId = r.targetExternalId := by
  unfold WriteCoordinator.request at h
  cases hd : dictOf r.payload with
  | none => simp [hd, bind, Except.bind] at h
  | some o =>
    simp only [hd] at h
    obtain ⟨payload, hpayload, h⟩ := bind_eq_ok h
    obtain rfl := Except.ok.inj hpayload
    obtain ⟨preview, -, h⟩ := bind_eq_ok h
    obtain rfl := Except.ok.inj h
    exact ⟨rfl, rfl, rfl, rfl, rfl, rfl, rfl⟩

theorem requestReversal_ok {c : WriteCoordinator} {original : WriteOperation}
    {operation payload requestedBy diffPreview target : Json} {step : WriteStep}
    (h : c.requestReversal original operation payload requestedBy diffPreview target = .ok step) :
    step = requestedStep c step.op ∧ step.op.writeId = c.newId ∧ step.op.state = .requested := by
  unfold WriteCoordinator.requestReversal at h
  split at h
  · cases h
  · exact request_ok h

/-! ## Executing -/

theorem executeWrite_of_approved {op : WriteOperation} (h : op.state = .approved) (w : World) :
    executeWrite env op w =
      (match env.coordinator.writer op with
        | .error text => .error (.erpWriteError text)
        | .ok confirmation => .ok (completedStep env.coordinator op confirmation),
        appliedWorld env op w) := by
  unfold executeWrite
  simp only [h, ne_eq, not_true_eq_false, if_false, Action.bind_apply, Action.modify_apply]
  cases hw : env.coordinator.writer op with
  | error text =>
    simp only [appliedWorld, hw]
    rfl
  | ok confirmation => simp only [appliedWorld, hw, complete_of_approved _ h, Action.ofExcept_apply]

section Execute

variable {op : WriteOperation} {key : Json × Json} {correlationId : Json} {w : World}

theorem execute_of_unkeyed {e : PyError} (hkey : breakerKey op = .error e) :
    execute cfg env op event correlationId w = (.error e, w) := by
  simp [execute, hkey]

/-- The breaker refuses: the decision is quarantined. -/
theorem execute_of_refusal (hkey : breakerKey op = .ok key) {refusal : String}
    (hcheck : ((breakerOf key w).check cfg.breaker env.breakerClock).1 = some refusal) :
    execute cfg env op event correlationId w = deadLetter cfg env event refusal
      (withBreaker key ((breakerOf key w).check cfg.breaker env.breakerClock).2 w) := by
  unfold breakerOf at hcheck
  simp only [execute, Action.bind_apply, Action.ofExcept_apply, Action.read_apply, putBreaker,
    Action.modify_apply, hkey, hcheck, withBreaker, breakerOf]

/-- The writer raises: the failure is counted. -/
theorem execute_of_failure (hstate : op.state = .approved) (hkey : breakerKey op = .ok key)
    (hcheck : ((breakerOf key w).check cfg.breaker env.breakerClock).1 = none) {text : String}
    (hwriter : env.coordinator.writer op = .error text) :
    execute cfg env op event correlationId w =
      onWriteFailed cfg env key ((breakerOf key w).check cfg.breaker env.breakerClock).2 event text
        (appliedWorld env op
          (withBreaker key ((breakerOf key w).check cfg.breaker env.breakerClock).2 w)) := by
  unfold breakerOf at hcheck
  simp only [execute, Action.bind_apply, Action.ofExcept_apply, Action.read_apply, putBreaker,
    Action.modify_apply, hkey, hcheck, Action.attempt_apply, executeWrite_of_approved hstate, hwriter,
    withBreaker, breakerOf]
  rfl

/-- The writer returns: the write is completed. -/
theorem execute_of_success (hstate : op.state = .approved) (hkey : breakerKey op = .ok key)
    (hcheck : ((breakerOf key w).check cfg.breaker env.breakerClock).1 = none) {confirmation : Obj}
    (hwriter : env.coordinator.writer op = .ok confirmation) :
    execute cfg env op event correlationId w =
      onWritten cfg env key ((breakerOf key w).check cfg.breaker env.breakerClock).2 op
        (completedStep env.coordinator op confirmation) correlationId
        (appliedWorld env op
          (withBreaker key ((breakerOf key w).check cfg.breaker env.breakerClock).2 w)) := by
  unfold breakerOf at hcheck
  simp only [execute, Action.bind_apply, Action.ofExcept_apply, Action.read_apply, putBreaker,
    Action.modify_apply, hkey, hcheck, Action.attempt_apply, executeWrite_of_approved hstate, hwriter,
    withBreaker, breakerOf]

theorem execute_course (cfg : Config) (env : Env) (event : Event) (hstate : op.state = .approved)
    (correlationId : Json) (w : World) :
    ExecuteCourse cfg env event op correlationId w (execute cfg env op event correlationId w) := by
  cases hkey : breakerKey op with
  | error e =>
    rw [execute_of_unkeyed hkey]
    exact .unkeyed hkey
  | ok key =>
    cases hcheck : ((breakerOf key w).check cfg.breaker env.breakerClock).1 with
    | some refusal =>
      rw [execute_of_refusal hkey hcheck]
      exact .refused hkey hcheck
    | none =>
      cases hwriter : env.coordinator.writer op with
      | error text =>
        rw [execute_of_failure hstate hkey hcheck hwriter]
        exact .failed hkey hcheck hwriter
      | ok confirmation =>
        rw [execute_of_success hstate hkey hcheck hwriter]
        exact .written hkey hcheck hwriter

end Execute

/-- A failure is escalated where it opens the breaker, and otherwise only counted. -/
theorem onWriteFailed_eq (key : Json × Json) (b : CircuitBreaker) (text : String) (w : World) :
    onWriteFailed cfg env key b event text w =
      if (b.recordFailure cfg.breaker env.breakerClock).1 then
        deadLetter cfg env event ("circuit breaker opened; last error: " ++ text)
          (withBreaker key (b.recordFailure cfg.breaker env.breakerClock).2 w)
      else (.ok (), withBreaker key (b.recordFailure cfg.breaker env.breakerClock).2 w) := by
  unfold onWriteFailed
  rw [Action.bind_apply]
  cases (b.recordFailure cfg.breaker env.breakerClock).1 <;> rfl

theorem onWriteFailed_view (key : Json × Json) (b : CircuitBreaker) (text : String) (w : World) :
    view (onWriteFailed cfg env key b event text w).2 = view w := by
  rw [onWriteFailed_eq]
  split
  · exact deadLetter_view _ _ _
  · rfl

/-- A write that went through is completed, and announced unless the announcement raises. -/
theorem onWritten_view {op : WriteOperation} (confirmation : Obj) (key : Json × Json)
    (b : CircuitBreaker) (w : World) :
    let step := completedStep env.coordinator op confirmation
    let r := onWritten cfg env key b op step event.correlationId w
    let v := (view w).finish op.writeId { op with state := .completed }
    (r.1.isOk = false ∧ Refused cfg env (stepEvent env step event.correlationId) ∧ view r.2 = v) ∨
      (Valid cfg (stepEvent env step event.correlationId) ∧
        view r.2 = v.tell (obsOf env event step)) := by
  intro step r v
  exact emit_view cfg env event step { w with
    self := {
      pending := Function.update w.self.pending op.writeId none
      completed := Function.update w.self.completed op.writeId (some { op with state := .completed })
      breakers := Function.update w.self.breakers key (some b.recordSuccess) } }

theorem execute_spec (cfg : Config) (env : Env) (event : Event) {op : WriteOperation}
    (h : op.state = .approved) (w : World) :
    Executed cfg env event op (view w)
      (execute cfg env op event event.correlationId w).1.isOk
      (view (execute cfg env op event event.correlationId w).2) := by
  have hcourse := execute_course cfg env event h event.correlationId w
  generalize execute cfg env op event event.correlationId w = r at hcourse
  cases hcourse with
  | unkeyed hkey => exact .refused
  | refused hkey hcheck =>
    rw [deadLetter_view]
    exact .refused
  | @failed key text hkey hcheck hw =>
    -- the failure is counted; the write stays as it was
    have hview : view (appliedWorld env op (withBreaker key
        ((breakerOf key w).check cfg.breaker env.breakerClock).2 w)) =
        (view w).tell (.applied op (.error text)) := by
      rw [← hw]
      rfl
    rw [onWriteFailed_view, hview]
    exact .failed hw
  | @written key confirmation hkey hcheck hw =>
    have hview : view (appliedWorld env op (withBreaker key
        ((breakerOf key w).check cfg.breaker env.breakerClock).2 w)) =
        (view w).tell (.applied op (.ok confirmation)) := by
      rw [← hw]
      rfl
    rcases onWritten_view confirmation key _ _ with ⟨hok, hwhy, hv⟩ | ⟨hvalid, hv⟩
    · rw [hok, hv, hview]
      exact .unannounced hw hwhy
    · rw [hv, hview]
      exact .completed hw hvalid

/-- `_execute` raises no `InvalidTransition` for a write that is approved. -/
theorem execute_error {op : WriteOperation} (h : op.state = .approved) {correlationId : Json}
    {w : World} {e : PyError} (he : (execute cfg env op event correlationId w).1 = .error e) :
    e.isInvalidTransition = false := by
  have hcourse := execute_course cfg env event h correlationId w
  generalize execute cfg env op event correlationId w = r at hcourse he
  cases hcourse with
  | unkeyed hkey =>
    obtain rfl := Except.error.inj he
    unfold breakerKey at hkey
    split at hkey
    · cases hkey
    · obtain rfl := Except.error.inj hkey
      rfl
  | refused hkey hcheck => exact deadLetter_error he
  | failed hkey hcheck hw =>
    rw [onWriteFailed_eq] at he
    split at he
    · exact deadLetter_error he
    · cases he
  | written hkey hcheck hw =>
    have he' : (emit cfg env _ _ _).1 = .error e := he
    exact emit_error he'

/-! ## The handlers -/

/-- The end of `_propose` and of `_reverse`, for an outcome of the coordinator's `request`. -/
theorem record_course {outcome : Except PyError WriteStep} {w : World}
    (h : ∀ step, outcome = .ok step →
      step = requestedStep env.coordinator step.op ∧ Proposes env event w.self step.op) :
    Course cfg env event w (record cfg env event outcome w) := by
  cases outcome with
  | error e =>
    by_cases herp : e.isErpWriteError = true
    · have hr : record cfg env event (.error e) =
          deadLetter cfg env event ("dry-run failed: " ++ e.text) := if_pos herp
      rw [hr]
      exact .quarantined _
    · have hr : record cfg env event (.error e) = Action.raise e := if_neg herp
      rw [hr]
      exact .idle _
  | ok step =>
    obtain ⟨hstep, hp⟩ := h step rfl
    have hr : record cfg env event (.ok step) w =
        emit cfg env step event.correlationId (pended step.op.writeId step.op w) := rfl
    rw [hr, hstep]
    exact .proposed hp

theorem propose_course (hsub : event.subject = "forge.write.propose") (w : World) :
    Course cfg env event w (propose cfg env event w) := by
  refine record_course ?_
  intro step hstep
  obtain ⟨r, hr, hstep⟩ := bind_eq_ok hstep
  obtain ⟨heq, -, -⟩ := request_ok hstep
  refine ⟨heq, .proposal hsub hr ?_⟩
  rw [hstep]
  exact congrArg _ heq

theorem lookup_eq_ok {d : String → Option WriteOperation} {key : Json} {op : WriteOperation}
    (h : lookup d key = .ok (some op)) : key = .str key.pyStr ∧ d key.pyStr = some op := by
  cases key <;> simp [lookup] at h
  exact ⟨rfl, h⟩

theorem reverse_course (hsub : event.subject = "forge.write.reverse") (w : World) :
    Course cfg env event w (reverse cfg env event w) := by
  unfold reverse
  simp only [Action.bind_apply, Action.ofExcept_apply, Action.read_apply]
  cases hid : item event.payload "write_id" with
  | error e => exact .idle _
  | ok writeId =>
    simp only []
    cases hl : lookup w.self.completed writeId with
    | error e => exact .idle _
    | ok found =>
      cases found with
      | none => exact .quarantined _
      | some original =>
        obtain ⟨hkey, horiginal⟩ := lookup_eq_ok hl
        rw [hkey] at hid
        refine record_course ?_
        intro step hstep
        obtain ⟨operation, hoperation, hstep⟩ := bind_eq_ok hstep
        obtain ⟨payload, hpayload, hstep⟩ := bind_eq_ok hstep
        obtain ⟨requestedBy, hrequestedBy, hstep⟩ := bind_eq_ok hstep
        obtain ⟨diffPreview, hdiffPreview, hstep⟩ := bind_eq_ok hstep
        obtain ⟨heq, -, -⟩ := requestReversal_ok hstep
        refine ⟨heq, .reversal hsub hid horiginal hoperation hpayload hrequestedBy hdiffPreview ?_⟩
        rw [hstep]
        exact congrArg _ heq

/-- A proposal or a reversal that gets through its dry run is made pending and announced. -/
theorem handle_of_proposes {op : WriteOperation} {w : World} (h : Proposes env event w.self op) :
    handle cfg env event w = emit cfg env (requestedStep env.coordinator op) event.correlationId
      (pended op.writeId op w) := by
  cases h with
  | proposal hsub hr hop =>
    have hrecord : WriteRequest.ofKwargs event.payload >>= env.coordinator.request =
        .ok (requestedStep env.coordinator op) := by
      rw [hr]
      exact hop
    simp only [handle, hsub, if_true, propose, hrecord]
    rfl
  | reversal hsub hid horiginal hoperation hpayload hrequestedBy hdiffPreview hop =>
    rename_i writeId original operation payload requestedBy diffPreview
    have hl : lookup w.self.completed (.str writeId) = .ok (some original) := by
      simp [lookup, horiginal]
    have hreverse : handle cfg env event w = reverse cfg env event w := by simp [handle, hsub]
    rw [hreverse]
    simp only [reverse, Action.ofExcept_apply, Action.read_apply, hid, hl,
      hoperation, hpayload, hrequestedBy, hdiffPreview, bind, Except.bind, hop]
    rfl

theorem handle_of_names {writeId : String} {op : WriteOperation} {w : World}
    (hnames : Names event writeId) (hop : w.self.pending writeId = some op) :
    handle cfg env event w =
      onDecided cfg env event (decideOn cfg env event writeId op w).1
        (decideOn cfg env event writeId op w).2 := by
  obtain ⟨hsub, hid⟩ := hnames
  have hl : lookup w.self.pending (.str writeId) = .ok (some op) := by simp [lookup, hop]
  simp [handle, hsub, decide, hid, hl, Json.pyStr]

/-- An outcome that is no `InvalidTransition` passes through the `except` clause. -/
theorem onDecided_of_other {r : Except PyError Unit}
    (h : ∀ e, r = .error e → e.isInvalidTransition = false) (w : World) :
    onDecided cfg env event r w = (r, w) := by
  cases r with
  | ok u => rfl
  | error e => simp [onDecided, h e rfl]

section Decide

variable {writeId : String} {op : WriteOperation} {w : World}

theorem handle_of_replay (h : Approval event writeId) (hop : w.self.pending writeId = some op)
    (hstate : op.state = .approved) :
    handle cfg env event w = execute cfg env op event event.correlationId w := by
  have htry : decideOn cfg env event writeId op w =
      execute cfg env op event event.correlationId w := by
    simp [decideOn, h.decision, hstate]
  rw [handle_of_names h.names hop, htry, onDecided_of_other]
  intro e he
  exact execute_error hstate he

/-- The announcement raises, or the write is executed on the world that the announcement left. -/
theorem announceAndExecute_cases (cfg : Config) (env : Env) (event : Event) (op : WriteOperation)
    (reviewer : Json) (w : World) :
    let announced := emit cfg env (approvedStep env.coordinator op reviewer) event.correlationId w
    (∃ e, announced.1 = .error e ∧
      announceAndExecute cfg env event op reviewer w = (.error e, announced.2)) ∨
    (announced.1 = .ok () ∧ announceAndExecute cfg env event op reviewer w =
      execute cfg env { op with state := .approved } event event.correlationId announced.2) := by
  unfold announceAndExecute
  rw [Action.bind_apply]
  rcases emit cfg env (approvedStep env.coordinator op reviewer) event.correlationId w with ⟨r, w'⟩
  cases r with
  | error e => exact .inl ⟨e, rfl, rfl⟩
  | ok u => exact .inr ⟨rfl, rfl⟩

theorem announceAndExecute_error {reviewer : Json} {e : PyError}
    (he : (announceAndExecute cfg env event op reviewer w).1 = .error e) :
    e.isInvalidTransition = false := by
  rcases announceAndExecute_cases cfg env event op reviewer w with ⟨e', hemit, hr⟩ | ⟨-, hr⟩
  · rw [hr] at he
    obtain rfl := Except.error.inj he
    exact emit_error hemit
  · rw [hr] at he
    exact execute_error rfl he

/-- An approval makes the write approved, announces that and executes it. -/
theorem handle_of_approval (h : Approval event writeId) {reviewer : Json}
    (hreviewer : item event.payload "reviewer" = .ok reviewer)
    (hop : w.self.pending writeId = some op) (hstate : op.state = .requested) :
    handle cfg env event w = announceAndExecute cfg env event op reviewer
      (pended writeId { op with state := .approved } w) := by
  have htry : decideOn cfg env event writeId op w = announceAndExecute cfg env event op reviewer
      (pended writeId { op with state := .approved } w) := by
    simp [decideOn, h.decision, hstate, approveWrite, hreviewer, approve_of_requested, putPending,
      announceAndExecute, pended, approvedStep]
  rw [handle_of_names h.names hop, htry, onDecided_of_other]
  intro e he
  exact announceAndExecute_error he

theorem item_error {d : Json} {key : String} {e : PyError} (h : item d key = .error e) :
    e.isInvalidTransition = false := by
  cases d with
  | obj o =>
    simp only [item] at h
    split at h
    · cases h
    · obtain rfl := Except.error.inj h
      rfl
  | _ =>
    obtain rfl := Except.error.inj h
    rfl

theorem handle_of_unsigned (h : Approval event writeId) {e : PyError}
    (hreviewer : item event.payload "reviewer" = .error e)
    (hop : w.self.pending writeId = some op) (hstate : op.state = .requested) :
    handle cfg env event w = (.error e, w) := by
  have htry : decideOn cfg env event writeId op w = (.error e, w) := by
    simp [decideOn, h.decision, hstate, approveWrite, hreviewer]
  rw [handle_of_names h.names hop, htry, onDecided_of_other]
  intro e' he'
  obtain rfl := Except.error.inj he'
  exact item_error hreviewer

end Decide

/-- An outcome of the `try` that changed nothing: the decision is quarantined or the call raises. -/
theorem onDecided_course (r : Except PyError Unit) (w : World) :
    Course cfg env event w (onDecided cfg env event r w) := by
  cases r with
  | ok u => exact .idle _
  | error e =>
    by_cases hit : e.isInvalidTransition = true
    · have hd : onDecided cfg env event (.error e) =
          deadLetter cfg env event ("illegal decision: " ++ e.text) := if_pos hit
      rw [hd]
      exact .quarantined _
    · have hd : onDecided cfg env event (.error e) = Action.raise e := if_neg hit
      rw [hd]
      exact .idle _

section Decide

variable {writeId : String} {op : WriteOperation} {w : World}

theorem course_of_try_error (hnames : Names event writeId) (hop : w.self.pending writeId = some op)
    {e : PyError} (htry : decideOn cfg env event writeId op w = (.error e, w)) :
    Course cfg env event w (handle cfg env event w) := by
  rw [handle_of_names hnames hop, htry]
  exact onDecided_course _ w

theorem approval_course (h : Approval event writeId) (hop : w.self.pending writeId = some op) :
    Course cfg env event w (handle cfg env event w) := by
  by_cases happroved : op.state = .approved
  · rw [handle_of_replay h hop happroved]
    exact .retried h hop happroved
  · cases hreviewer : item event.payload "reviewer" with
    | error e =>
      refine course_of_try_error h.names hop (e := e) ?_
      simp [decideOn, h.decision, happroved, approveWrite, hreviewer]
    | ok reviewer =>
      by_cases hs : op.state = .requested
      · rw [handle_of_approval h hreviewer hop hs]
        exact .approved h hreviewer hop hs
      · obtain ⟨text, htext⟩ := approve_of_not_requested env.coordinator hs reviewer
        refine course_of_try_error h.names hop (e := .invalidTransition text) ?_
        simp [decideOn, h.decision, happroved, approveWrite, hreviewer, htext]

theorem refusal_course (hnames : Names event writeId) {d : Json}
    (hd : item event.payload "decision" = .ok d) (hne : d ≠ "approve")
    (hop : w.self.pending writeId = some op) :
    Course cfg env event w (handle cfg env event w) := by
  have hbody : decideOn cfg env event writeId op w = rejectWrite cfg env event writeId op w := by
    have hne' : ¬ d = .str "approve" := hne
    simp [decideOn, hd, hne']
  cases hreviewer : item event.payload "reviewer" with
  | error e =>
    refine course_of_try_error hnames hop (e := e) ?_
    simp [hbody, rejectWrite, hreviewer]
  | ok reviewer =>
    cases hreason : getItem? event.payload "reason" with
    | error e =>
      refine course_of_try_error hnames hop (e := e) ?_
      simp [hbody, rejectWrite, hreviewer, hreason]
    | ok reason =>
      by_cases hs : op.state = .requested
      · have htry : decideOn cfg env event writeId op w =
            emit cfg env (rejectedStep env.coordinator op reviewer (reason.getD "rejected"))
              event.correlationId (unpended writeId w) := by
          simp [hbody, rejectWrite, hreviewer, hreason, reject_of_requested, hs, popPending, unpended]
        rw [handle_of_names hnames hop, htry, onDecided_of_other]
        · exact .rejected ⟨hnames, ⟨d, hd, hne⟩, hreviewer, reason, hreason, rfl⟩ hop hs
        · intro e he
          exact emit_error he
      · obtain ⟨text, htext⟩ :=
          reject_of_not_requested env.coordinator hs reviewer (reason.getD "rejected")
        refine course_of_try_error hnames hop (e := .invalidTransition text) ?_
        simp [hbody, rejectWrite, hreviewer, hreason, htext]

end Decide

theorem decide_course (hsub : event.subject = "forge.write.decision") (w : World) :
    Course cfg env event w (handle cfg env event w) := by
  have hdecide : handle cfg env event w = decide cfg env event w := by simp [handle, hsub]
  cases hid : item event.payload "write_id" with
  | error e =>
    rw [hdecide]
    simp only [decide, Action.bind_apply, Action.ofExcept_apply, hid]
    exact .idle _
  | ok writeId =>
    cases hl : lookup w.self.pending writeId with
    | error e =>
      rw [hdecide]
      simp only [decide, Action.bind_apply, Action.ofExcept_apply, Action.read_apply, hid, hl]
      exact .idle _
    | ok found =>
      cases found with
      | none =>
        rw [hdecide]
        simp only [decide, Action.bind_apply, Action.ofExcept_apply, Action.read_apply, hid, hl]
        exact .idle _
      | some op =>
        obtain ⟨hkey, hop⟩ := lookup_eq_ok hl
        rw [hkey] at hid
        cases hd : item event.payload "decision" with
        | error e =>
          refine course_of_try_error ⟨hsub, hid⟩ hop (e := e) ?_
          simp [decideOn, hd]
        | ok d =>
          by_cases happrove : d = "approve"
          · rw [happrove] at hd
            exact approval_course ⟨⟨hsub, hid⟩, hd⟩ hop
          · exact refusal_course ⟨hsub, hid⟩ hd happrove hop

/-- Every call takes one of the courses. -/
theorem handle_course (cfg : Config) (env : Env) (event : Event) (w : World) :
    Course cfg env event w (handle cfg env event w) := by
  by_cases hpropose : event.subject = "forge.write.propose"
  · have heq : handle cfg env event w = propose cfg env event w := by simp [handle, hpropose]
    rw [heq]
    exact propose_course hpropose w
  · by_cases hdecide : event.subject = "forge.write.decision"
    · exact decide_course hdecide w
    · by_cases hreverse : event.subject = "forge.write.reverse"
      · have heq : handle cfg env event w = reverse cfg env event w := by simp [handle, hreverse]
        rw [heq]
        exact reverse_course hreverse w
      · have heq : handle cfg env event w = (.ok (), w) := by
          simp [handle, hpropose, hdecide, hreverse]
        rw [heq]
        exact .idle _

/-! ## What a call does to the dictionaries and to the trace -/

theorem Proposes.minted {self : ForgeWriteAgent} {op : WriteOperation}
    (h : Proposes env event self op) :
    op.writeId = env.coordinator.newId ∧ op.state = .requested := by
  cases h with
  | proposal _ _ hop => exact (request_ok hop).2
  | reversal _ _ _ _ _ _ _ hop => exact (requestReversal_ok hop).2

/-- An approval that cannot be announced raises; one that is announced is executed. -/
theorem announceAndExecute_executed (cfg : Config) (env : Env) (event : Event) (writeId : String)
    (op : WriteOperation) (reviewer : Json) (w : World) :
    let v := (view w).put writeId { op with state := .approved }
    let r := announceAndExecute cfg env event op reviewer
      (pended writeId { op with state := .approved } w)
    (r.1.isOk = false ∧ view r.2 = v) ∨
      (Valid cfg (stepEvent env (approvedStep env.coordinator op reviewer) event.correlationId) ∧
        Executed cfg env event { op with state := .approved }
          (v.tell (obsOf env event (approvedStep env.coordinator op reviewer))) r.1.isOk (view r.2)) := by
  intro v r
  have hemit := emit_view cfg env event (approvedStep env.coordinator op reviewer)
    (pended writeId { op with state := .approved } w)
  rcases announceAndExecute_cases cfg env event op reviewer
    (pended writeId { op with state := .approved } w) with ⟨e, -, hr⟩ | ⟨hok, hr⟩
  · replace hr : r = _ := hr
    rw [hr]
    rcases hemit with ⟨-, -, hview⟩ | ⟨hvalid, hview⟩
    · exact .inl ⟨rfl, hview⟩
    · refine .inr ⟨hvalid, ?_⟩
      rw [hview]
      exact .refused
  · replace hr : r = _ := hr
    rw [hr]
    rcases hemit with ⟨hraised, -⟩ | ⟨hvalid, hview⟩
    · rw [hok] at hraised
      cases hraised
    · have hstate : ({ op with state := .approved } : WriteOperation).state = .approved := rfl
      have hex := execute_spec cfg env event hstate
        (emit cfg env (approvedStep env.coordinator op reviewer) event.correlationId
          (pended writeId { op with state := .approved } w)).2
      rw [hview] at hex
      exact .inr ⟨hvalid, hex⟩

theorem Course.handled {w : World} {r : Except PyError Unit × World}
    (h : Course cfg env event w r) : Handled cfg env event (view w) r.1.isOk (view r.2) := by
  cases h with
  | idle r => exact .idle
  | quarantined error =>
    rw [deadLetter_view]
    exact .idle
  | proposed hp =>
    rename_i op
    obtain ⟨hid, hstate⟩ := hp.minted
    rcases emit_view cfg env event (requestedStep env.coordinator op) (pended op.writeId op w) with
      ⟨hok, -, hv⟩ | ⟨hvalid, hv⟩
    · rw [hok, hv]
      exact .unannounced hid hstate
    · rw [hv]
      exact .proposed hid hstate hvalid
  | retried h hop hstate => exact .retried hop hstate (execute_spec cfg env event hstate w)
  | approved h hreviewer hop hstate =>
    rename_i writeId op reviewer
    rcases announceAndExecute_executed cfg env event writeId op reviewer w with
      ⟨hok, hv⟩ | ⟨hvalid, hex⟩
    · rw [hok, hv]
      exact .unapproved hop hstate
    · exact .approved h.names hop hstate hvalid hex
  | rejected h hop hstate =>
    rename_i writeId op reviewer reason
    rcases emit_view cfg env event (rejectedStep env.coordinator op reviewer reason)
      (unpended writeId w) with ⟨hok, -, hv⟩ | ⟨hvalid, hv⟩
    · rw [hok, hv]
      exact .unrejected hop hstate
    · rw [hv]
      exact .rejected h.names hop hstate hvalid

theorem handle_spec (w : World) :
    Handled cfg env event (view w) (handle cfg env event w).1.isOk
      (view (handle cfg env event w).2) :=
  (handle_course cfg env event w).handled

end ForgeWriteAgent

end CaviErp
