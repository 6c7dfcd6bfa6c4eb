import CaviErp.Lib.Json

/-!
# JSON Schema, the keywords in use

A fragment of JSON Schema (draft 2020-12) as the `jsonschema` package checks it by default: `type`,
`required`, `properties`, `additionalProperties: false`, `items`, `minItems`, `minLength`,
`maxLength`, `minimum`, `enum` and `pattern`. A keyword constrains only values of the type it is
about. `format` is an annotation: without a format checker nothing is checked, so it has no
counterpart here.
-/

namespace Py

/-- The names the `type` keyword can give. -/
inductive JType where
  | null
  | boolean
  | integer
  | number
  | string
  | array
  | object
deriving DecidableEq, Repr

/-- Whether a value is of a type. A `bool` is no number, and a `float` with an integral value is an
`integer`. -/
def JType.admits : JType → Json → Bool
  | .null, .null => true
  | .boolean, .bool _ => true
  | .integer, .int _ => true
  | .integer, .float x => x.isInteger
  | .number, .int _ => true
  | .number, .float _ => true
  | .string, .str _ => true
  | .array, .arr _ => true
  | .object, .obj _ => true
  | _, _ => false

/-- The keywords of a schema that hold no subschema. -/
structure Keywords where
  /-- `type`; empty when the keyword is absent. -/
  types : List JType := []
  required : List String := []
  /-- `additionalProperties: false`. -/
  closed : Bool := false
  minItems : Nat := 0
  minLength : Nat := 0
  maxLength : Option Nat := none
  minimum : Option Int := none
  enum : Option (List Json) := none
  /-- `pattern`, as the predicate `re.search` computes. -/
  pattern : Option (String → Bool) := none

/-- A schema: its own keywords, `properties` and `items`. -/
inductive Schema where
  | mk (kw : Keywords) (properties : List (String × Schema)) (items : Option Schema)

namespace Keywords

/-- The `type` and `enum` keywords. -/
def admits (kw : Keywords) (j : Json) : Bool :=
  (kw.types.isEmpty || kw.types.any (·.admits j)) &&
    (match kw.enum with
      | none => true
      | some vs => decide (j ∈ vs))

def stringOk (kw : Keywords) (s : String) : Bool :=
  decide (kw.minLength ≤ s.length) &&
    (match kw.maxLength with
      | none => true
      | some n => decide (s.length ≤ n)) &&
    (match kw.pattern with
      | none => true
      | some p => p s)

def numberOk (kw : Keywords) (j : Json) : Bool :=
  match kw.minimum, j with
  | some m, .int n => decide (m ≤ n)
  | some m, .float x => !x.ltInt m
  | _, _ => true

/-- The keywords about the shape of a dictionary, `properties` apart. -/
def objectOk (kw : Keywords) (declared : List String) (o : Obj) : Bool :=
  kw.required.all (fun k => (o.get? k).isSome) &&
    (!kw.closed || o.keys.all (fun k => declared.contains k))

end Keywords

namespace Schema

mutual

/-- Whether a value is valid against a schema. -/
def valid : Schema → Json → Bool
  | mk kw props items, j =>
    kw.admits j &&
      (match j with
        | .str s => kw.stringOk s
        | .obj o => kw.objectOk (props.map Prod.fst) o && validProps props o
        | .arr xs => decide (kw.minItems ≤ xs.length) && validItems items xs
        | _ => kw.numberOk j)

/-- Each declared property that is present is valid against its schema. -/
def validProps : List (String × Schema) → Obj → Bool
  | [], _ => true
  | (k, s) :: props, o =>
    (match o.get? k with
      | some v => valid s v
      | none => true) && validProps props o

/-- Each element is valid against `items`. -/
def validItems : Option Schema → List Json → Bool
  | none, _ => true
  | some s, xs => xs.all (valid s)

end

/-- A schema of a string with at least `n` characters. -/
def text (n : Nat) : Schema := mk { types := [.string], minLength := n } [] none

/-- A schema of an integer with at least the given value. -/
def atLeast (m : Int) : Schema := mk { types := [.integer], minimum := some m } [] none

/-- A schema of a dictionary without constraints on its items. -/
def anyObject : Schema := mk { types := [.object] } [] none

/-- A schema of a string or `null`. -/
def textOrNull : Schema := mk { types := [.string, .null] } [] none

/-- A closed dictionary with the given properties, of which those named are required. -/
def record (required : List String) (props : List (String × Schema)) : Schema :=
  mk { types := [.object], required := required, closed := true } props none

/-- A closed dictionary all of whose properties are required. -/
def strictRecord (props : List (String × Schema)) : Schema := record (props.map Prod.fst) props

end Schema

end Py
