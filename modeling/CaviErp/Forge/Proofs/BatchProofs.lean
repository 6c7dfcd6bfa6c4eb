import CaviErp.Forge.Batch

/-!
# What a batch did

`execute_batch` either refuses the batch before any call, or accounts for every operation of it: it
committed, it failed, or it was never attempted. The calls of the writer are those of the first two.
-/

namespace CaviErp

open Py

namespace WriteCoordinator

variable {c : WriterLog → WriteCoordinator} {ops : List WriteOperation} {op : WriteOperation}

/-- The step completes the operation of a call that returned, with the confirmation of the call. -/
def CompletesCall (step : WriteStep) (call : WriterCall) : Prop :=
  ∃ confirmation completedAt, call.outcome = .ok confirmation ∧
    step = {
      op := { call.op with state := .completed }, subject := "forge.write.completed"
      event := completedPayload { call.op with state := .completed } confirmation completedAt }

/-- The operation that a step completed, as it was before. -/
def approvedOp (step : WriteStep) : WriteOperation := { step.op with state := .approved }

theorem CompletesCall.approvedOp_eq {step : WriteStep} {call : WriterCall} (h : CompletesCall step call)
    (hop : call.op.state = .approved) : approvedOp step = call.op := by
  obtain ⟨confirmation, completedAt, -, rfl⟩ := h
  obtain ⟨⟨writeId, tenantId, erpPlatform, operation, targetModule, payload, requestedBy, diffPreview,
    state, reverses, targetExternalId⟩, outcome⟩ := call
  obtain rfl : state = .approved := hop
  rfl

/-! ## One write -/

theorem complete_of_approved (d : WriteCoordinator) (hop : op.state = .approved) (confirmation : Obj) :
    ∃ step, d.complete op confirmation = .ok step ∧ CompletesCall step ⟨op, .ok confirmation⟩ := by
  have hallowed : WriteState.completed ∈ op.state.allowed := by
    rw [hop]
    decide
  unfold complete WriteOperation.transitionTo
  rw [if_pos hallowed]
  exact ⟨_, rfl, confirmation, d.clock "forge.write.completed", rfl, rfl⟩

/-- Executing an approved write is one call of the writer, and fails just where that does. -/
theorem execute_cases (c : WriterLog → WriteCoordinator) (hop : op.state = .approved) (log : WriterLog) :
    (∃ confirmation step, CompletesCall step ⟨op, .ok confirmation⟩ ∧
      execute c op log = (.ok step, log ++ [⟨op, .ok confirmation⟩])) ∨
    ∃ text, execute c op log = (.error (.erpWriteError text), log ++ [⟨op, .error text⟩]) := by
  have hstate : ¬ op.state ≠ .approved := by simpa using hop
  unfold execute applyOf
  rw [if_neg hstate]
  cases hw : (c log).writer op with
  | ok confirmation =>
    obtain ⟨step, hstep, hcompletes⟩ :=
      complete_of_approved (c (log ++ [⟨op, .ok confirmation⟩])) hop confirmation
    refine .inl ⟨confirmation, step, hcompletes, ?_⟩
    simp only [Action.bind_apply, Action.read_apply, hw, Action.modify_apply, Except.mapError,
      Action.ofExcept_apply, hstep]
  | error text =>
    refine .inr ⟨text, ?_⟩
    simp only [Action.bind_apply, Action.read_apply, hw, Action.modify_apply, Except.mapError,
      Action.ofExcept_apply]

/-! ## The loop -/

/-- What a batch did: each operation committed, or failed, or was not attempted, and these were the
calls. -/
structure Accounts (ops : List WriteOperation) (calls : WriterLog) (b : BatchExecution) : Prop where
  partition : b.steps.map approvedOp ++ b.failed.toList ++ b.notAttempted = ops
  called : calls.map WriterCall.op = b.steps.map approvedOp ++ b.failed.toList
  committed : List.Forall₂ CompletesCall b.steps (calls.take b.steps.length)
  failure : ∀ call ∈ calls.drop b.steps.length, ∃ text, call.outcome = .error text ∧ b.error = some text
  error_iff : b.error.isSome = b.failed.isSome
  executed : b.failed = none → b.notAttempted = []

/-- The steps completed so far are the calls made so far. -/
structure Progress (done : List WriteOperation) (calls : WriterLog) (completed : List WriteStep) :
    Prop where
  ops : completed.map approvedOp = done
  called : calls.map WriterCall.op = done
  committed : List.Forall₂ CompletesCall completed calls

theorem Progress.finished {done : List WriteOperation} {calls : WriterLog} {completed : List WriteStep}
    (h : Progress done calls completed) : Accounts done calls { steps := completed } where
  partition := by simp [h.ops]
  called := by simp [h.called, h.ops]
  committed := by
    rw [h.committed.length_eq, List.take_length]
    exact h.committed
  failure := by
    rw [h.committed.length_eq, List.drop_length]
    simp
  error_iff := rfl
  executed := fun _ => rfl

theorem Progress.halted {done rest : List WriteOperation} {calls : WriterLog}
    {completed : List WriteStep} (h : Progress done calls completed) (op : WriteOperation)
    (text : String) :
    Accounts (done ++ op :: rest) (calls ++ [⟨op, .error text⟩])
      { steps := completed, failed := some op, error := some text, notAttempted := rest } where
  partition := by simp [h.ops]
  called := by simp [h.called, h.ops]
  committed := by
    rw [h.committed.length_eq, List.take_left]
    exact h.committed
  failure := by
    rw [h.committed.length_eq, List.drop_left]
    simp
  error_iff := rfl
  executed := fun hfailed => by cases hfailed

theorem Progress.step {done : List WriteOperation} {calls : WriterLog} {completed : List WriteStep}
    (h : Progress done calls completed) (hop : op.state = .approved) {step : WriteStep} {outcome}
    (hstep : CompletesCall step ⟨op, outcome⟩) :
    Progress (done ++ [op]) (calls ++ [⟨op, outcome⟩]) (completed ++ [step]) where
  ops := by rw [List.map_append, h.ops, List.map_singleton, hstep.approvedOp_eq hop]
  called := by rw [List.map_append, h.called, List.map_singleton]
  committed := List.rel_append h.committed (.cons hstep .nil)

/-- The loop from any position on; `index` is the number of operations it has completed. -/
theorem executeFrom_spec (c : WriterLog → WriteCoordinator) (log : WriterLog)
    {done rest : List WriteOperation} {calls : WriterLog} {completed : List WriteStep}
    (h : Progress done calls completed) (hrest : ∀ op ∈ rest, op.state = .approved) :
    ∃ b calls', executeFrom c (done ++ rest) done.length completed rest (log ++ calls) =
      (.ok b, log ++ calls') ∧ Accounts (done ++ rest) calls' b := by
  induction rest generalizing done calls completed with
  | nil =>
    refine ⟨{ steps := completed }, calls, rfl, ?_⟩
    rw [List.append_nil]
    exact h.finished
  | cons op rest ih =>
    have hop : op.state = .approved := hrest op List.mem_cons_self
    rcases execute_cases c hop (log ++ calls) with ⟨confirmation, step, hstep, hexecute⟩ | ⟨text, hexecute⟩
    · obtain ⟨b, calls', hb, haccounts⟩ := ih (h.step hop hstep)
        fun o ho => hrest o (List.mem_cons_of_mem op ho)
      refine ⟨b, calls', ?_, ?_⟩
      · rw [executeFrom, Action.bind_apply, Action.attempt_apply, hexecute]
        simpa using hb
      · simpa using haccounts
    · refine ⟨_, _, ?_, h.halted op text⟩
      have hdrop : (done ++ op :: rest).drop (done.length + 1) = rest := by simp
      rw [executeFrom, Action.bind_apply, Action.attempt_apply, hexecute, hdrop, ← List.append_assoc]
      rfl

/-! ## The batch -/

theorem returned_of_completes {steps : List WriteStep} {calls : WriterLog}
    (h : List.Forall₂ CompletesCall steps calls) :
    ∀ call ∈ calls, ∃ confirmation, call.outcome = .ok confirmation := by
  induction h with
  | nil => simp
  | cons hstep _ ih =>
    obtain ⟨confirmation, -, hok, -⟩ := hstep
    exact List.forall_mem_cons.mpr ⟨⟨confirmation, hok⟩, ih⟩

namespace Accounts

variable {calls : WriterLog} {b : BatchExecution}

theorem length_calls (h : Accounts ops calls b) :
    calls.length = b.steps.length + b.failed.toList.length := by
  have hlength := congrArg List.length h.called
  simpa using hlength

theorem failed_none_iff (h : Accounts ops calls b) :
    b.failed = none ↔ ∀ call ∈ calls, ∃ confirmation, call.outcome = .ok confirmation := by
  have hlength := h.length_calls
  cases hfailed : b.failed with
  | none =>
    rw [hfailed] at hlength
    have htake : calls.take b.steps.length = calls := List.take_of_length_le (by simp at hlength; omega)
    have hreturned := returned_of_completes h.committed
    rw [htake] at hreturned
    exact iff_of_true rfl hreturned
  | some op =>
    rw [hfailed] at hlength
    refine iff_of_false (by simp) fun hall => ?_
    have hne : calls.drop b.steps.length ≠ [] := by
      intro hnil
      have hle := List.drop_eq_nil_iff.mp hnil
      simp at hlength
      omega
    obtain ⟨call, hcall⟩ := List.exists_mem_of_ne_nil _ hne
    obtain ⟨text, herror, -⟩ := h.failure call hcall
    obtain ⟨confirmation, hok⟩ := hall call (List.mem_of_mem_drop hcall)
    rw [hok] at herror
    cases herror

/-- A batch is partial where a commit came before a failure. -/
theorem isPartial_iff (h : Accounts ops calls b) :
    b.isPartial = true ↔ ∃ op confirmation op' text,
      [⟨op, .ok confirmation⟩, ⟨op', .error text⟩].Sublist calls := by
  have hhalted : b.isPartial = true ↔ b.failed ≠ none ∧ b.steps ≠ [] := by
    simp [BatchExecution.isPartial, BatchExecution.halted, Option.isSome_iff_ne_none]
  rw [hhalted, ne_eq, h.failed_none_iff]
  constructor
  · rintro ⟨hfailure, hsteps⟩
    push Not at hfailure
    obtain ⟨late, hlate, hnot⟩ := hfailure
    have hreturned := returned_of_completes h.committed
    have hafter : late ∈ calls.drop b.steps.length := by
      rw [← List.take_append_drop b.steps.length calls, List.mem_append] at hlate
      refine hlate.resolve_left fun hmem => ?_
      obtain ⟨confirmation, hok⟩ := hreturned late hmem
      exact hnot confirmation hok
    obtain ⟨text, herror, -⟩ := h.failure late hafter
    have hne : calls.take b.steps.length ≠ [] := by
      intro hnil
      have hlength := h.committed.length_eq
      rw [hnil] at hlength
      exact hsteps (List.length_eq_zero_iff.mp hlength)
    obtain ⟨early, hearly⟩ := List.exists_mem_of_ne_nil _ hne
    obtain ⟨confirmation, hok⟩ := hreturned early hearly
    obtain ⟨op, _⟩ := early
    obtain ⟨op', _⟩ := late
    obtain rfl := hok
    obtain rfl := herror
    refine ⟨op, confirmation, op', text, ?_⟩
    rw [← List.take_append_drop b.steps.length calls]
    exact (List.singleton_sublist.mpr hearly).append (List.singleton_sublist.mpr hafter)
  · rintro ⟨op, confirmation, op', text, hsub⟩
    constructor
    · intro hall
      obtain ⟨confirmation', hok⟩ := hall _ (hsub.subset (List.mem_cons_of_mem _ List.mem_cons_self))
      cases hok
    · intro hnil
      have hfailure := h.failure ⟨op, .ok confirmation⟩
      rw [hnil] at hfailure
      obtain ⟨text', herror, -⟩ := hfailure (hsub.subset List.mem_cons_self)
      cases herror

end Accounts

/-- **The batch partition law.** For a writer that returns or raises `ErpWriteError` on each call, and
may answer by all the calls so far: a batch with a write that is not approved is refused before any call;
any other is accounted for, and attempted to its end where no write failed. -/
theorem batch_partition (c : WriterLog → WriteCoordinator) (ops : List WriteOperation)
    (log : WriterLog) :
    ((∃ op ∈ ops, op.state ≠ .approved) ∧
      ∃ text, executeBatch c ops log = (.error (.invalidTransition text), log)) ∨
    (∀ op ∈ ops, op.state = .approved) ∧
    ∃ b calls, executeBatch c ops log = (.ok b, log ++ calls) ∧
      b.steps.map approvedOp ++ b.failed.toList ++ b.notAttempted = ops ∧
      (b.failed = none → b.notAttempted = []) ∧
      calls.map WriterCall.op = b.steps.map approvedOp ++ b.failed.toList ∧
      List.Forall₂ CompletesCall b.steps (calls.take b.steps.length) ∧
      (b.failed = none ↔ ∀ call ∈ calls, ∃ confirmation, call.outcome = .ok confirmation) ∧
      (∀ call ∈ calls.drop b.steps.length, ∃ text, call.outcome = .error text ∧ b.error = some text) ∧
      b.error.isSome = b.failed.isSome ∧
      (b.isPartial = true ↔ ∃ op confirmation op' text,
        [⟨op, .ok confirmation⟩, ⟨op', .error text⟩].Sublist calls) := by
  cases hfind : ops.find? fun op => op.state ≠ .approved with
  | some op =>
    have hmem : op ∈ ops := List.mem_of_find?_eq_some hfind
    have hstate : op.state ≠ .approved := by simpa using List.find?_some hfind
    refine .inl ⟨⟨op, hmem, hstate⟩, ?_⟩
    rw [executeBatch, hfind]
    exact ⟨_, rfl⟩
  | none =>
    have hall : ∀ op ∈ ops, op.state = .approved := by simpa using hfind
    have hstart : Progress [] [] [] := ⟨rfl, rfl, .nil⟩
    obtain ⟨b, calls, hb, haccounts⟩ := executeFrom_spec c log hstart hall
    refine .inr ⟨hall, b, calls, ?_, haccounts.partition, haccounts.executed, haccounts.called,
      haccounts.committed, haccounts.failed_none_iff, haccounts.failure, haccounts.error_iff, haccounts.isPartial_iff⟩
    rw [executeBatch, hfind]
    simpa using hb

end WriteCoordinator

end CaviErp
