import CaviErp.Forge.Parking
import CaviErp.Lib.Streak

/-!
# The discipline of the circuit breaker

What the breaker of one tenant and platform does over a whole run, told by the attempts: the calls of
`writer.apply` for the writes under its key, in order, with the readings of the clock around each.
-/

namespace CaviErp

open Py

namespace ForgeWriteAgent

/-- A call of `writer.apply`, and what the breaker made of it. -/
structure Attempt where
  op : WriteOperation
  outcome : Except String Obj
  /-- The clock when the breaker let the write through, before the call. -/
  started : ℚ
  /-- The clock in `record_failure`, where the writer raised. -/
  failedAt : ℚ
  /-- What `record_failure` returned; `false` where the writer did not raise. -/
  tripped : Bool

def Attempt.failed (a : Attempt) : Bool := !a.outcome.isOk

variable (cfg : Config)

/-- The attempt that an observation of a call shows, if it is one for a write under the key; `b` is the
breaker that the call found. -/
def attempt? (env : Env) (key : Json × Json) (b : CircuitBreaker) : Obs → Option Attempt
  | .emitted _ _ => none
  | .applied op outcome =>
    match breakerKey op with
    | .error _ => none
    | .ok k =>
      if k = key then
        some {
          op, outcome
          started := env.breakerClock.state
          failedAt := env.breakerClock.failure
          tripped := !outcome.isOk &&
            ((b.check cfg.breaker env.breakerClock).2.recordFailure cfg.breaker env.breakerClock).1 }
      else none

/-- The attempts of one call. -/
def attemptsOf (key : Json × Json) (call : Env × Event) (w : World) : List Attempt :=
  ((handle cfg call.1 call.2 w).2.trace.drop w.trace.length).filterMap
    (attempt? cfg call.1 key (breakerOf key w))

/-- The attempts of the calls that follow on a world. -/
def attemptsFrom (key : Json × Json) : World → List (Env × Event) → List Attempt
  | _, [] => []
  | w, call :: calls =>
    attemptsOf cfg key call w ++ attemptsFrom key (handle cfg call.1 call.2 w).2 calls

/-- The attempts of a run. -/
def history (key : Json × Json) (calls : List (Env × Event)) : List Attempt :=
  attemptsFrom cfg key { self := {} } calls

/-- A call of the writer for a write under the key. -/
def appliedUnder (key : Json × Json) : Obs → Option (WriteOperation × Except String Obj)
  | .emitted _ _ => none
  | .applied op outcome =>
    match breakerKey op with
    | .error _ => none
    | .ok k => if k = key then some (op, outcome) else none

/-- The number of failures since the last success. -/
def failures (attempts : List Attempt) : Nat := streak Attempt.failed attempts

/-- From the threshold on an attempt waits for a cooldown after the last failure, where `elapsed` measures the
time between two readings of the clock. -/
def Waits (elapsed : ℚ → ℚ → ℚ) (attempts : List Attempt) : Prop :=
  ∀ pre a post, attempts = pre ++ a :: post → cfg.breaker.failureThreshold ≤ failures pre →
    ∃ last, pre.getLast? = some last ∧ last.failed = true ∧
      cfg.breaker.cooldownSeconds ≤ elapsed a.started last.failedAt

/-- No difference of the readings of a run that is less than the cooldown is rounded up to it. -/
def UnroundedReadings (calls : List (Env × Event)) : Prop :=
  ∀ c ∈ calls, ∀ c' ∈ calls,
    cfg.breaker.cooldownSeconds ≤ Binary64.sub c'.1.breakerClock.state c.1.breakerClock.failure →
      cfg.breaker.cooldownSeconds ≤ c'.1.breakerClock.state - c.1.breakerClock.failure

/-- A decision approves a pending write under the key. A write that is not approved yet needs a reviewer,
and its approval has to be emitted. -/
structure Approves (env : Env) (event : Event) (key : Json × Json) (op : WriteOperation) (w : World) :
    Prop where
  approval : Approval event op.writeId
  pending : w.self.pending op.writeId = some op
  keyed : breakerKey op = .ok key
  emits : op.state = .requested → ∃ reviewer, item event.payload "reviewer" = .ok reviewer ∧
    Emits cfg env event (approvedStep env.coordinator op reviewer)

/-- What the breaker under a key promises about a run. -/
structure Disciplined (key : Json × Json) (calls : List (Env × Event)) : Prop where
  /-- The attempts are the calls of the writer, each of them. -/
  applied : (history cfg key calls).map (fun a => (a.op, a.outcome)) =
    (served cfg calls).trace.filterMap (appliedUnder key)
  /-- Below the threshold every approval reaches the writer. -/
  reaches : failures (history cfg key calls) < cfg.breaker.failureThreshold →
    ∀ env event op, Approves cfg env event key op (served cfg calls) →
      .applied { op with state := .approved } (env.coordinator.writer { op with state := .approved }) ∈
        (handle cfg env event (served cfg calls)).2.trace.drop (served cfg calls).trace.length
  /-- From the threshold on an attempt waits for a cooldown after the last failure, by the difference of the
  readings as floats. -/
  cooled : Waits cfg Binary64.sub (history cfg key calls)
  /-- It waits for the whole cooldown unless the difference is rounded up to it. -/
  cooledExactly : UnroundedReadings cfg calls → Waits cfg (· - ·) (history cfg key calls)
  /-- Failures in a row since the last success escalate once when they reach the threshold. -/
  escalates : ∀ pre run post, history cfg key calls = pre ++ run ++ post →
    (∀ a, pre.getLast? = some a → a.failed = false) → (∀ a ∈ run, a.failed = true) →
      run.countP Attempt.tripped = if cfg.breaker.failureThreshold ≤ run.length then 1 else 0
  /-- A success does not escalate. -/
  quiet : ∀ a ∈ history cfg key calls, a.failed = false → a.tripped = false
  /-- The breaker is open exactly from the threshold on. -/
  opened : (breakerOf key (served cfg calls)).openedAt.isSome ↔
    cfg.breaker.failureThreshold ≤ failures (history cfg key calls)

end ForgeWriteAgent

end CaviErp
