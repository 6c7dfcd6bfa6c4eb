import CaviErp.Mapper.NetsuiteRecords

/-!
# The transformation of ERP records

`agents/mapper/erp.py`: a record is transformed by what is registered for its schema and the target schema,
and its fingerprint goes with the outcome. The values are those that a request holds, so a schema may be no
key of `_transforms`, and the record no dictionary. `sha256 text` stands for
`hashlib.sha256(text.encode("utf-8")).hexdigest()`, and the clock's reading is a parameter.
-/

namespace CaviErp

open Py

section

variable (sha256 : String → String)

/-- `canonical` in `input_hash`. -/
def canonicalRecord (record : Obj) : String := dumps .canonical (.obj record)

def inputHash (record : Obj) : String := "sha256:" ++ sha256 (canonicalRecord record)

end

/-- What is registered: the transformed record, or the text of what is raised. -/
abbrev ErpTransformer.TransformFn := Obj → Except String Obj

/-- `_transforms`. -/
structure ErpTransformer where
  transforms : String × String → Option ErpTransformer.TransformFn := fun _ => none

namespace ErpTransformer

def completedPayload (sha256 : String → String) (tenantId sourceErp sourceSchema targetSchema : Json)
    (record output : Obj) (transformedAt : String) : Obj :=
  [("tenant_id", tenantId), ("source_erp", sourceErp), ("source_schema", sourceSchema),
    ("target_schema", targetSchema), ("input_hash", .str (inputHash sha256 record)),
    ("output", .obj output), ("transformed_at", .str transformedAt)]

def failedPayload (tenantId sourceErp sourceSchema : Json) (reason failedAt : String) : Obj :=
  [("tenant_id", tenantId), ("source_erp", sourceErp), ("source_schema", sourceSchema),
    ("reason", .str reason), ("failed_at", .str failedAt)]

def register (t : ErpTransformer) (sourceSchema targetSchema : String) (fn : TransformFn) :
    ErpTransformer :=
  { t with transforms := Function.update t.transforms (sourceSchema, targetSchema) (some fn) }

/-- `_transforms.get((source_schema, target_schema))`. -/
def lookup (t : ErpTransformer) (sourceSchema targetSchema : Json) :
    Except PyError (Option TransformFn) :=
  match sourceSchema.dictKey, targetSchema.dictKey with
  | some (.str source), some (.str target) => .ok (t.transforms (source, target))
  | some _, some _ => .ok none
  | _, _ => .error (.typeError "unhashable type")

def unregisteredText (sourceSchema targetSchema : Json) : String :=
  "no transform registered for " ++ sourceSchema.pyStr ++ " -> " ++ targetSchema.pyStr

def failedText (sourceSchema targetSchema : Json) (exc : String) : String :=
  "transform " ++ sourceSchema.pyStr ++ " -> " ++ targetSchema.pyStr ++ " failed: " ++ exc

/-- `fn(dict(record))`, with the text of whatever it raises; and the record as a dictionary. -/
def applyTo (fn : TransformFn) (record : Json) : Except String (Obj × Obj) :=
  match dictOf record with
  | none => .error "cannot convert record to a dictionary"
  | some record => (fn record).map fun output => (record, output)

/-- `transform`; the inner error is the text of the `ErpTransformError`. -/
def transform (sha256 : String → String) (t : ErpTransformer)
    (tenantId sourceErp sourceSchema targetSchema record : Json) (now : String) :
    Except PyError (Except String Obj) := do
  let found ← t.lookup sourceSchema targetSchema
  match found with
  | none => return .error (unregisteredText sourceSchema targetSchema)
  | some fn =>
    match applyTo fn record with
    | .error exc => return .error (failedText sourceSchema targetSchema exc)
    | .ok (record, output) =>
      return .ok (completedPayload sha256 tenantId sourceErp sourceSchema targetSchema record output now)

/-- `failure`. -/
def failure (tenantId sourceErp sourceSchema : Json) (reason now : String) : Obj :=
  failedPayload tenantId sourceErp sourceSchema reason now

end ErpTransformer

end CaviErp
