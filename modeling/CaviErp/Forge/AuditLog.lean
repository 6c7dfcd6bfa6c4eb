import CaviErp.Forge.Lifecycle
import CaviErp.Lib.Replay
import Mathlib.Data.Multiset.Basic
import Mathlib.Data.Set.Insert

/-!
# What the audit log says about the ERP

Expected ERP state as a projection of the `forge.write.*` events. A `requested` event carries the
content of a write but not its id; `approved` and `completed` carry the id but not the content. The
projection therefore has to link them through the fields they share, and `LogStep` only does so where
these leave one content to choose.
-/

namespace CaviErp

open Py

namespace ForgeWriteAgent

def emittedOf (trace : List Obs) : List Event :=
  trace.filterMap fun
    | .emitted _ event => some event
    | .applied _ _ => none

/-- The address, module and payload of each write applied with success, in order. -/
def appliedOf (trace : List Obs) : List (Json × Json × Json) :=
  trace.filterMap fun
    | .applied op (.ok _) => some (op.erpAddress, op.targetModule, .obj op.payload)
    | _ => none

/-- What was successfully applied to the ERP. -/
def appliedSet (trace : List Obs) : Set (Json × Json × Json) := { x | x ∈ appliedOf trace }

/-- What every event of a write carries. -/
structure Kind where
  tenantId : Json
  erpPlatform : Json
  operation : Json
deriving DecidableEq

/-- What a write does to the ERP. -/
structure Content where
  targetModule : Json
  payload : Json
  targetExternalId : Json
deriving DecidableEq

def kind (op : WriteOperation) : Kind := ⟨op.tenantId, op.erpPlatform, op.operation⟩

def content (op : WriteOperation) : Content :=
  ⟨op.targetModule, .obj op.payload, op.targetExternalId⟩

/-- What a write with the given id and content applies. -/
def Content.effect (c : Content) (writeId : String) : Json × Json × Json :=
  (if c.targetExternalId.truthy then c.targetExternalId else .str ("cavi-" ++ writeId),
    c.targetModule, c.payload)

/-! ## Reading the log -/

def field (event : Event) (key : String) : Json :=
  match event.payload with
  | .obj o => Obj.get o key
  | _ => .null

/-- The kind named by an event. -/
def kindOf (event : Event) : Kind :=
  ⟨field event "tenant_id", field event "erp_platform", field event "operation"⟩

/-- The content carried by a `requested` event. -/
def contentOf (event : Event) : Content :=
  ⟨field event "target_module", field event "payload", field event "target_external_id"⟩

/-- What a log says so far. -/
structure Projection where
  /-- The writes that wait for a decision. -/
  undecided : Multiset (Kind × Content) := 0
  /-- The content of the approved writes, by id. -/
  approved : String → Option Content := fun _ => none
  applied : Set (Json × Json × Json) := ∅

/-- How an event changes what the log says. A decision is only read where all undecided writes of its
kind have one content. -/
inductive LogStep (event : Event) (p : Projection) : Projection → Prop
  | requested (hsub : event.subject = "forge.write.requested") :
    LogStep event p { p with undecided := (kindOf event, contentOf event) ::ₘ p.undecided }
  | approved {writeId : String} {c : Content} {rest : Multiset (Kind × Content)}
    (hsub : event.subject = "forge.write.approved") (hid : field event "write_id" = .str writeId)
    (hp : p.undecided = (kindOf event, c) ::ₘ rest)
    (honly : ∀ x ∈ rest, x.1 = kindOf event → x.2 = c) :
    LogStep event p
      { p with undecided := rest, approved := Function.update p.approved writeId (some c) }
  | rejected {c : Content} {rest : Multiset (Kind × Content)}
    (hsub : event.subject = "forge.write.rejected")
    (hp : p.undecided = (kindOf event, c) ::ₘ rest)
    (honly : ∀ x ∈ rest, x.1 = kindOf event → x.2 = c) :
    LogStep event p { p with undecided := rest }
  | completed {writeId : String} {c : Content} (hsub : event.subject = "forge.write.completed")
    (hid : field event "write_id" = .str writeId) (hc : p.approved writeId = some c) :
    LogStep event p { p with applied := insert (c.effect writeId) p.applied }

/-! ## Runs whose log can be read -/

/-- Where a decision names an undecided write, all undecided writes of its kind have its content. -/
def Clear (event : Event) (v : View) : Prop :=
  ∀ writeId op, Names event writeId → v.pending writeId = some op → op.state = .requested →
    ∀ writeId' op', v.pending writeId' = some op' → op'.state = .requested →
      kind op' = kind op → content op' = content op

/-- Every call of a run meets a clear state, and no `completed` event is refused by the event store. -/
def Linkable (cfg : Config) (calls : List (Env × Event)) : Prop :=
  ∀ pre c post, calls = pre ++ c :: post → (handleAll cfg pre { self := {} }).1 = .ok () →
    Clear c.2 (view (handleAll cfg pre { self := {} }).2) ∧
      ∀ ev : Event, ev.subject = "forge.write.completed" → c.1.infra.recordEvent ev = none

end ForgeWriteAgent

end CaviErp
