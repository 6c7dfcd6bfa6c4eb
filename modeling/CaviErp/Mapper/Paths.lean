import CaviErp.Mapper.Mapper
import CaviErp.Lib.Bfs
import CaviErp.Lib.Dict

/-!
# Paths between versions, and coercions backwards

The graph of versions is that of the registered transforms, in whatever order they were registered. The
built-in transforms add to a payload what its version did not have yet; each can be read backwards.
-/

namespace CaviErp

open Py

namespace Mapper

/-- A mapper on which the transforms were registered, one after the other. -/
def registered (m : Mapper) (rs : List (Edge × TransformFn)) : Mapper :=
  rs.foldl (fun m r => m.register r.1.subject r.1.fromVersion r.1.toVersion r.2) m

/-- The transform that was last registered for an edge. -/
def lastOf (rs : List (Edge × TransformFn)) (edge : Edge) : Option TransformFn := rs.reverse.lookup edge

/-- A transform of the subject leads from one version to another. -/
def Leads (rs : List (Edge × TransformFn)) (subject : Json) (u v : Int) : Prop :=
  ∃ e ∈ rs.map Prod.fst, Json.str e.subject = subject ∧ e.fromVersion = u ∧ e.toVersion = v

/-- `sorted(adjacency.get(node, []))`. -/
def neighbours (m : Mapper) (subject : Json) (node : Int) : List Int :=
  (m.adjacency subject node).mergeSort (· ≤ ·)

/-- `list(zip(node_path, node_path[1:]))`. -/
def steps (versions : List Int) : List (Int × Int) := versions.zip versions.tail

/-- What becomes of a payload on the way through versions: at each step the transform that was last registered
for it is applied, until one raises. -/
inductive Composes (rs : List (Edge × TransformFn)) (subject : String) :
    List Int → Obj → Except PyError Obj → Prop
  | arrived (v : Int) (payload : Obj) : Composes rs subject [v] payload (.ok payload)
  | raised {u v : Int} {vs : List Int} {payload : Obj} {fn : TransformFn} {e : PyError}
    (hfn : lastOf rs ⟨subject, u, v⟩ = some fn) (h : fn payload = .error e) :
    Composes rs subject (u :: v :: vs) payload (.error e)
  | step {u v : Int} {vs : List Int} {payload next : Obj} {fn : TransformFn} {outcome : Except PyError Obj}
    (hfn : lastOf rs ⟨subject, u, v⟩ = some fn) (h : fn payload = .ok next)
    (hrest : Composes rs subject (v :: vs) next outcome) : Composes rs subject (u :: v :: vs) payload outcome

/-- What is returned of a composition: with validation on, only what meets the contract of the version. -/
def checked (registry : SchemaRegistry) (validateOutput : Bool) (subject : String) (version : Int) :
    Except PyError Obj → Except MapperError Obj
  | .error e => .error (.raised e)
  | .ok result =>
    if validateOutput then
      match registry.validate (.str subject) (.int version) (.obj result) with
      | .ok _ => .ok result
      | .error e => .error (.raised e)
    else .ok result

end Mapper

/-! ## Backwards -/

/-- The first version of an entry, from its second. -/
def ledgerEntryV2ToV1 (payload : Obj) : Obj :=
  let out : Obj := payload.filter fun kv => kv.1 ≠ "entry_type"
  let out : Obj := out.filter fun kv => kv.1 ≠ "description"
  match payload.get? "description" with
  | none => out
  | some description => Obj.set out "memo" description

def forgeWriteRequestedV2ToV1 (payload : Obj) : Obj := payload.filter fun kv => kv.1 ≠ "reverses"

def forgeWriteRequestedV3ToV2 (payload : Obj) : Obj :=
  payload.filter fun kv => kv.1 ≠ "target_external_id"

end CaviErp
