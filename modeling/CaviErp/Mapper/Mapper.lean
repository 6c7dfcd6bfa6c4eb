import CaviErp.Base.Registry

/-!
# Coercion between schema versions

`agents/mapper/mapper.py`: transforms are the edges of a graph of versions, one graph for each subject,
and a coercion composes those along a shortest path. The dictionary of transforms is its list of items
in the order of registration.
-/

namespace CaviErp

open Py

/-- A transform of one payload into another; it may raise. -/
abbrev TransformFn := Obj → Except PyError Obj

/-- What a coercion raises. -/
inductive MapperError where
  | noTransformPath (text : String)
  | raised (e : PyError)
deriving DecidableEq, Repr

/-- `(subject, from_version, to_version)`. -/
structure Edge where
  subject : String
  fromVersion : Int
  toVersion : Int
deriving DecidableEq, Repr

structure Mapper where
  registry : SchemaRegistry
  transforms : List (Edge × TransformFn) := []
  validateOutput : Bool := true

namespace Mapper

/-- `register`: a transform that is registered again keeps its place. -/
def register (m : Mapper) (subject : String) (fromVersion toVersion : Int) (fn : TransformFn) :
    Mapper :=
  let edge : Edge := ⟨subject, fromVersion, toVersion⟩
  { m with transforms :=
      if edge ∈ m.transforms.map Prod.fst then
        m.transforms.map fun p => if p.1 = edge then (edge, fn) else p
      else m.transforms ++ [(edge, fn)] }

/-- `adjacency.get(node, [])`: where the transforms of a subject lead from a version. -/
def adjacency (m : Mapper) (subject : Json) (node : Int) : List Int :=
  (m.transforms.map Prod.fst).filterMap fun e =>
    if Json.str e.subject = subject ∧ e.fromVersion = node then some e.toVersion else none

/-- The loop over the neighbours of a node: those not seen yet are marked and their paths queued. -/
def visit (nodePath : List Int) : List Int → List (List Int) → List Int → List (List Int) × List Int
  | [], queue, seen => (queue, seen)
  | nxt :: rest, queue, seen =>
    if nxt ∈ seen then visit nodePath rest queue seen
    else visit nodePath rest (queue ++ [nodePath ++ [nxt]]) (nxt :: seen)

/-- The loop of `_find_path`, for at most `fuel` rounds. -/
def search (adjacency : Int → List Int) (dst : Int) :
    Nat → List (List Int) → List Int → Option (List (Int × Int))
  | 0, _, _ => none
  | _ + 1, [], _ => none
  | fuel + 1, nodePath :: queue, seen =>
    match nodePath.getLast? with
    | none => none
    | some node =>
      if node = dst then some (nodePath.zip nodePath.tail)
      else
        let next := visit nodePath ((adjacency node).mergeSort (· ≤ ·)) queue seen
        search adjacency dst fuel next.1 next.2

/-- `_find_path`. A round takes one path from the queue, and a path is queued for each version that is
seen for the first time: the source, and where a transform leads. -/
def findPath (m : Mapper) (subject : Json) (src dst : Int) : Option (List (Int × Int)) :=
  search (m.adjacency subject) dst (m.transforms.length + 2) [[src]] [src]

/-- `self._transforms[(subject, step[0], step[1])]`. -/
def transformOf (m : Mapper) (subject : Json) (step : Int × Int) : Option TransformFn :=
  (m.transforms.find? fun p =>
    Json.str p.1.subject = subject ∧ p.1.fromVersion = step.1 ∧ p.1.toVersion = step.2).map Prod.snd

/-- The transforms along a path, one after the other. -/
def compose (m : Mapper) (subject : Json) : List (Int × Int) → Obj → Except PyError Obj
  | [], result => .ok result
  | step :: path, result =>
    match m.transformOf subject step with
    | none => .error (.keyError subject.pyStr)
    | some fn => fn result >>= compose m subject path

/-- `dict(payload)`, coerced along the path when the versions differ. -/
def coerce (m : Mapper) (subject : Json) (fromVersion toVersion : Int) (payload : Json) :
    Except MapperError Obj :=
  match dictOf payload with
  | none => .error (.raised (.typeError "cannot convert payload to dict"))
  | some result =>
    if fromVersion = toVersion then .ok result
    else
      match m.findPath subject fromVersion toVersion with
      | none => .error (.noTransformPath
          ("no transform path for " ++ subject.pyStr ++ " v" ++ toString fromVersion ++ " -> v" ++
            toString toVersion))
      | some path => (m.compose subject path result).mapError .raised

/-- `transform`: the result is checked against the contract of the target version. -/
def transform (m : Mapper) (subject : Json) (fromVersion toVersion : Int) (payload : Json) :
    Except MapperError Obj := do
  let result ← m.coerce subject fromVersion toVersion payload
  if m.validateOutput then
    (m.registry.validate subject (.int toVersion) (.obj result)).mapError .raised
  return result

end Mapper

/-! ## The built-in transforms -/

/-- `memo` becomes `description`, and legacy entries are classified as sales. -/
def ledgerEntryV1ToV2 (payload : Obj) : Obj :=
  let out : Obj := payload.filter fun kv => kv.1 ≠ "memo"
  let out := Obj.set out "entry_type" "sale"
  match Obj.get payload "memo" with
  | .null => out
  | memo => Obj.set out "description" memo

def forgeWriteRequestedV1ToV2 (payload : Obj) : Obj := Obj.set payload "reverses" .null

def forgeWriteRequestedV2ToV3 (payload : Obj) : Obj := Obj.set payload "target_external_id" .null

/-- `register_all`. -/
def registerAll (m : Mapper) : Mapper :=
  ((m.register "ledger.entry" 1 2 fun p => .ok (ledgerEntryV1ToV2 p)).register
    "forge.write.requested" 1 2 fun p => .ok (forgeWriteRequestedV1ToV2 p)).register
    "forge.write.requested" 2 3 fun p => .ok (forgeWriteRequestedV2ToV3 p)

end CaviErp
