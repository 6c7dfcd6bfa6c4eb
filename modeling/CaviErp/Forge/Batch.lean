import CaviErp.Lib.Action
import CaviErp.Forge.Write

/-!
# Executing writes, one or a batch

The end of `agents/forge/write.py`. The world of these procedures is the log of the calls made to the
writer: what the coordinator's injected parts answer next may depend on all of it.
-/

namespace CaviErp

open Py

/-- A call `writer.apply(op)`: the confirmation it returned, or the text of the `ErpWriteError`. -/
structure WriterCall where
  op : WriteOperation
  outcome : Except String Obj

/-- The calls of the writer, oldest first. -/
abbrev WriterLog := List WriterCall

/-- `BatchExecution`: what committed, what failed, and what was never attempted. -/
structure BatchExecution where
  steps : List WriteStep
  failed : Option WriteOperation := none
  error : Option String := none
  notAttempted : List WriteOperation := []

namespace BatchExecution

def halted (b : BatchExecution) : Bool := b.failed.isSome

/-- `partial`, the condition to escalate: some writes committed, and the rest did not. -/
def isPartial (b : BatchExecution) : Bool := b.halted && !b.steps.isEmpty

end BatchExecution

namespace WriteCoordinator

/-- `apply` and its outcome; a writer either returns or raises `ErpWriteError`. -/
def applyOf (c : WriterLog → WriteCoordinator) (op : WriteOperation) :
    Action WriterLog PyError Obj := do
  let log ← Action.read
  let outcome := (c log).writer op
  Action.modify fun log => log ++ [⟨op, outcome⟩]
  Action.ofExcept (outcome.mapError .erpWriteError)

variable (c : WriterLog → WriteCoordinator)

/-- `execute`; the check of the state comes before anything reaches the ERP. -/
def execute (op : WriteOperation) : Action WriterLog PyError WriteStep :=
  if op.state ≠ .approved then
    Action.raise (.invalidTransition
      ("write " ++ op.writeId ++ ": cannot execute from " ++ op.state.value))
  else do
    let confirmation ← applyOf c op
    let log ← Action.read
    Action.ofExcept ((c log).complete op confirmation)

/-- The loop of `execute_batch` from position `index` of `ops` on, with the steps completed so far. -/
def executeFrom (ops : List WriteOperation) :
    Nat → List WriteStep → List WriteOperation → Action WriterLog PyError BatchExecution
  | _, completed, [] => pure { steps := completed }
  | index, completed, op :: rest => do
    match ← Action.attempt (execute c op) with
    | .ok step => executeFrom ops (index + 1) (completed ++ [step]) rest
    | .error (.erpWriteError text) =>
      return {
        steps := completed, failed := some op, error := some text
        notAttempted := ops.drop (index + 1) }
    | .error e => Action.raise e

/-- `execute_batch`: the whole batch is checked before the first call. -/
def executeBatch (ops : List WriteOperation) : Action WriterLog PyError BatchExecution :=
  match ops.find? fun op => op.state ≠ .approved with
  | some op =>
    Action.raise (.invalidTransition
      ("batch refused: write " ++ op.writeId ++ " is " ++ op.state.value ++
        ", not approved — no write in the batch was executed"))
  | none => executeFrom c ops 0 [] ops

end WriteCoordinator

end CaviErp
