import CaviErp.Forge.Lifecycle

/-!
# The courses a call can take

`Course` lists what a call of `handle` comes down to: nothing, a dead letter, or an operation of the
agent on a world in which one write was made pending, changed or taken out. It is exact, so that what is
known of `emit`, `deadLetter` and `execute` carries over to `handle` without unfolding the handlers again.
`ExecuteCourse` does the same for `execute`.
-/

namespace CaviErp

open Py

namespace ForgeWriteAgent

/-- A proposal or a reversal that gets through its dry run, and the write that it makes pending. -/
inductive Proposes (env : Env) (event : Event) (self : ForgeWriteAgent) (op : WriteOperation) : Prop
  | proposal {r : WriteRequest} (hsub : event.subject = "forge.write.propose")
    (hr : WriteRequest.ofKwargs event.payload = .ok r)
    (hop : env.coordinator.request r = .ok (requestedStep env.coordinator op)) :
    Proposes env event self op
  | reversal {writeId : String} {original : WriteOperation} {operation payload requestedBy : Json}
    {diffPreview : Option Json} (hsub : event.subject = "forge.write.reverse")
    (hid : item event.payload "write_id" = .ok (.str writeId))
    (horiginal : self.completed writeId = some original)
    (hoperation : item event.payload "operation" = .ok operation)
    (hpayload : item event.payload "payload" = .ok payload)
    (hrequestedBy : item event.payload "requested_by" = .ok requestedBy)
    (hdiffPreview : getItem? event.payload "diff_preview" = .ok diffPreview)
    (hop : env.coordinator.requestReversal original operation payload requestedBy
      (diffPreview.getD .null) .null = .ok (requestedStep env.coordinator op)) :
    Proposes env event self op

structure Approval (event : Event) (writeId : String) : Prop where
  names : Names event writeId
  decision : item event.payload "decision" = .ok "approve"

/-- The event refuses the write, for the reason and by the reviewer given. -/
structure Refusal (event : Event) (writeId : String) (reviewer reason : Json) : Prop where
  names : Names event writeId
  decision : ∃ d, item event.payload "decision" = .ok d ∧ d ≠ "approve"
  reviewer : item event.payload "reviewer" = .ok reviewer
  reason : ∃ r, getItem? event.payload "reason" = .ok r ∧ reason = r.getD "rejected"

/-- The world in which a write is pending. -/
def pended (writeId : String) (op : WriteOperation) (w : World) : World :=
  { w with self.pending := Function.update w.self.pending writeId (some op) }

/-- The world in which a write is no longer pending. -/
def unpended (writeId : String) (w : World) : World :=
  { w with self.pending := Function.update w.self.pending writeId none }

variable (cfg : Config) (env : Env) (event : Event)

/-- What is left of an approval once the write is approved in `_pending`. -/
def announceAndExecute (op : WriteOperation) (reviewer : Json) : Action World PyError Unit := do
  emit cfg env (approvedStep env.coordinator op reviewer) event.correlationId
  execute cfg env { op with state := .approved } event event.correlationId

/-- All that a call of `handle` can come down to. -/
inductive Course (w : World) : Except PyError Unit × World → Prop
  | idle (r : Except PyError Unit) : Course w (r, w)
  | quarantined (error : String) : Course w (deadLetter cfg env event error w)
  | proposed {op : WriteOperation} (h : Proposes env event w.self op) :
    Course w (emit cfg env (requestedStep env.coordinator op) event.correlationId
      (pended op.writeId op w))
  /-- The replay of an approval. -/
  | retried {writeId : String} {op : WriteOperation} (h : Approval event writeId)
    (hop : w.self.pending writeId = some op) (hstate : op.state = .approved) :
    Course w (execute cfg env op event event.correlationId w)
  | approved {writeId : String} {op : WriteOperation} {reviewer : Json} (h : Approval event writeId)
    (hreviewer : item event.payload "reviewer" = .ok reviewer)
    (hop : w.self.pending writeId = some op) (hstate : op.state = .requested) :
    Course w (announceAndExecute cfg env event op reviewer
      (pended writeId { op with state := .approved } w))
  | rejected {writeId : String} {op : WriteOperation} {reviewer reason : Json}
    (h : Refusal event writeId reviewer reason) (hop : w.self.pending writeId = some op)
    (hstate : op.state = .requested) :
    Course w (emit cfg env (rejectedStep env.coordinator op reviewer reason) event.correlationId
      (unpended writeId w))

/-! ## Executing -/

/-- The breaker of a write as `_execute` finds it. -/
def breakerOf (key : Json × Json) (w : World) : CircuitBreaker := (w.self.breakers key).getD {}

/-- The breaker lets a write through to the ERP. -/
def Admits (op : WriteOperation) (w : World) : Prop :=
  ∃ key, breakerKey op = .ok key ∧
    ((breakerOf key w).check cfg.breaker env.breakerClock).1 = none

/-- The world once the breaker under a key was replaced. -/
def withBreaker (key : Json × Json) (b : CircuitBreaker) (w : World) : World :=
  { w with self.breakers := Function.update w.self.breakers key (some b) }

def appliedWorld (op : WriteOperation) (w : World) : World :=
  { w with trace := w.trace ++ [.applied op (env.coordinator.writer op)] }

/-- All that the execution of an approved write can come down to. -/
inductive ExecuteCourse (op : WriteOperation) (correlationId : Json) (w : World) :
    Except PyError Unit × World → Prop
  | unkeyed {e : PyError} (hkey : breakerKey op = .error e) :
    ExecuteCourse op correlationId w (.error e, w)
  | refused {key : Json × Json} {refusal : String} (hkey : breakerKey op = .ok key)
    (hcheck : ((breakerOf key w).check cfg.breaker env.breakerClock).1 = some refusal) :
    ExecuteCourse op correlationId w (deadLetter cfg env event refusal
      (withBreaker key ((breakerOf key w).check cfg.breaker env.breakerClock).2 w))
  | failed {key : Json × Json} {text : String} (hkey : breakerKey op = .ok key)
    (hcheck : ((breakerOf key w).check cfg.breaker env.breakerClock).1 = none)
    (hwriter : env.coordinator.writer op = .error text) :
    ExecuteCourse op correlationId w
      (onWriteFailed cfg env key ((breakerOf key w).check cfg.breaker env.breakerClock).2 event text
        (appliedWorld env op
          (withBreaker key ((breakerOf key w).check cfg.breaker env.breakerClock).2 w)))
  | written {key : Json × Json} {confirmation : Obj} (hkey : breakerKey op = .ok key)
    (hcheck : ((breakerOf key w).check cfg.breaker env.breakerClock).1 = none)
    (hwriter : env.coordinator.writer op = .ok confirmation) :
    ExecuteCourse op correlationId w
      (onWritten cfg env key ((breakerOf key w).check cfg.breaker env.breakerClock).2 op
        (completedStep env.coordinator op confirmation) correlationId
        (appliedWorld env op
          (withBreaker key ((breakerOf key w).check cfg.breaker env.breakerClock).2 w)))

end ForgeWriteAgent

end CaviErp
