import CaviErp.Base.Registry
import CaviErp.Lib.JsonText
import CaviErp.Scripts.Migrate
import Mathlib.Data.List.DropRight
import Mathlib.Logic.Function.Basic

/-!
# Registering the schemas

`scripts/bootstrap.py`: the files of the schema directory are upserted into the table that the foreign key of
the event log refers to. The agents do not read the table; they look a schema up by the name of its file.
-/

namespace CaviErp

open Py

namespace Bootstrap

open Migrate (File Directory isDigit number endsWith)

/-! ## File names -/

/-- What comes before a suffix, if the text ends in it. -/
def dropSuffix (cs suffix : List Char) : Option (List Char) :=
  if suffix.isSuffixOf cs then some (cs.take (cs.length - suffix.length)) else none

/-- A match of `_NAME`: a subject without a line break, `.v`, digits and `.json`; `$` also matches before a
last line break. A name is too short for the limit on the digits that `int` reads. -/
def parseSubjectVersion (filename : String) : Option (String × Nat) := do
  let cs := filename.toList
  let stem ← dropSuffix (if cs.getLast? = some '\n' then cs.dropLast else cs) ".json".toList
  let digits := stem.rtakeWhile isDigit
  let subject ← dropSuffix (stem.rdropWhile isDigit) ".v".toList
  if digits ≠ [] ∧ subject ≠ [] ∧ '\n' ∉ subject then
    some (String.ofList subject, number (String.ofList digits))
  else none

/-! ## Discovery -/

/-- A record that `discover_schemas` returns. -/
structure Contract where
  subject : String
  version : Nat
  schema : Json
  path : File

/-- The record of a file; one with another name is skipped. -/
def ofFile (file : File) : Except PyError (Option Contract) :=
  match parseSubjectVersion file.name with
  | none => .ok none
  | some (subject, version) =>
    match loads file.text with
    | none => .error .jsonDecodeError
    | some schema => .ok (some ⟨subject, version, schema, file⟩)

/-- The files that the loop of `discover_schemas` sees, in its order. -/
def listed (dir : Directory) : List File :=
  (dir.files.filter fun file => endsWith file.name ".json").insertionSort fun a b => a.name ≤ b.name

/-- The loop of `discover_schemas`. -/
def collect : List File → Except PyError (List Contract)
  | [] => .ok []
  | file :: files => do
    let found ← ofFile file
    let rest ← collect files
    return found.toList ++ rest

def discoverSchemas (dir : Directory) : Except PyError (List Contract) := collect (listed dir)

/-! ## The table -/

/-- The columns of `schema_registry` besides its key; `jsonSchema` is the text that was put in. -/
structure Row where
  jsonSchema : String
  createdAt : String
deriving DecidableEq, Repr

/-- `schema_registry`, by its primary key. -/
abbrev Table := String × Nat → Option Row

/-- The foreign key of `event_log`. -/
def Admits (table : Table) (subject : String) (version : Nat) : Prop := (table (subject, version)).isSome

inductive Failure where
  | database (text : String)
  | raised (e : PyError)
deriving DecidableEq, Repr

/-- What a run finds: the time, and what fails of its transaction. -/
structure Env where
  now : String
  connect : Option String := none
  upsert : Contract → Option String := fun _ => none
  commit : Option String := none

/-- `UPSERT_SQL`. -/
def upsert (now : String) (table : Table) (c : Contract) : Table :=
  Function.update table (c.subject, c.version) (some ⟨dumps .default c.schema, now⟩)

/-- `load_schemas`: one transaction for all records. -/
def loadSchemas (env : Env) (dir : Directory) : Action Table Failure Nat := do
  let records ← Action.ofExcept ((discoverSchemas dir).mapError .raised)
  Action.raiseIf (env.connect.map .database)
  Action.raiseIf ((records.findSome? env.upsert).map .database)
  Action.raiseIf (env.commit.map .database)
  Action.modify fun table => records.foldl (upsert env.now) table
  return records.length

/-- A run: what it finds, and the directory. -/
abbrev Run := Env × Directory

/-- The table after a run, which may have failed. -/
def afterRun (table : Table) (run : Run) : Table := (loadSchemas run.1 run.2 table).2

/-- The table after runs, the first of which finds it empty. -/
def loaded (runs : List Run) : Table := runs.foldl afterRun fun _ => none

/-! ## The registry of the agents -/

/-- The file that `SchemaRegistry` reads for a subject and a version. A subject without a slash names a file of the
directory itself; with one it would be a path that leads elsewhere. -/
def contractFile (dir : Directory) (subject : String) (version : Nat) : Option File :=
  dir.files.find? fun file => file.name = SchemaRegistry.key (.str subject) (.int version) ++ ".json"

/-- The schema that `SchemaRegistry.get` reads, as `json.loads` returns it. -/
def contractOf (dir : Directory) (subject : String) (version : Nat) : Option Json :=
  (contractFile dir subject version).bind fun file => loads file.text

/-- The registry of the agents over a directory; `read` is what `jsonschema` makes of a schema. -/
def registry (dir : Directory) (path : String) (read : Json → Schema)
    (complaint : Schema → Json → String) : SchemaRegistry where
  dir := path
  files := fun name => (dir.files.find? fun file => file.name = name ++ ".json").bind fun file =>
    (loads file.text).map read
  complaint := complaint

/-- Every version in the directory is written in ASCII digits. -/
def AsciiVersions (dir : Directory) : Prop :=
  ∀ file ∈ dir.files, ∀ c ∈ file.name.toList, isDigit c = true → c.isDigit = true

/-- A subject that a file name can carry. -/
def Nameable (subject : String) : Prop := subject ≠ "" ∧ '\n' ∉ subject.toList

end Bootstrap

end CaviErp
