import CaviErp.Forge.Write
import CaviErp.Lib.JsonText
import CaviErp.Lib.Upsert

/-!
# What a diff says

The lines that `render_diff` puts under its header, as changes of fields. The write itself is an upsert:
the fields of the payload are merged into the record (`Upsert.Record.merge`), and a field differs where
`==` tells its values apart.
-/

namespace CaviErp

open Py

/-- A field that the write adds, or changes from the value it has. -/
structure FieldChange where
  field : String
  old : Option Json
  new : Json
deriving DecidableEq, Repr

namespace FieldChange

def removal (ch : FieldChange) (old : Json) : String := "- " ++ ch.field ++ ": " ++ fmt old

def addition (ch : FieldChange) : String := "+ " ++ ch.field ++ ": " ++ fmt ch.new

def lines (ch : FieldChange) : List String :=
  match ch.old with
  | none => [ch.addition]
  | some old => [ch.removal old, ch.addition]

/-- What one item of the payload changes in the record. -/
def ofItem (current : Obj) (kv : String × Json) : Option FieldChange :=
  match current.get? kv.1 with
  | none => some { field := kv.1, old := none, new := kv.2 }
  | some old => if old.pyEq kv.2 then none else some { field := kv.1, old := some old, new := kv.2 }

end FieldChange

/-- The changes that the payload makes to the record, in the order of the diff. -/
def changes (current payload : Obj) : List FieldChange :=
  (DumpStyle.canonical.order payload).filterMap (FieldChange.ofItem current)

/-- The fields that the changes assign. -/
def assigned (chs : List FieldChange) : Upsert.Record String Json := fun k =>
  (chs.find? fun ch => ch.field = k).map FieldChange.new

def diffHeader (before : Option Obj) (op : WriteOperation) : String :=
  op.erpPlatform.pyStr ++ " " ++ op.targetModule.pyStr ++ " eid " ++ op.erpAddress.pyStr ++ " — " ++
    op.operation.pyStr ++ " (" ++
    (if before.isSome then "updates existing record" else "no existing record") ++ ")"

/-- What a reader of two diffs takes for the same value: they are read back from their texts alike. -/
def SameJson (v w : Json) : Prop := v.sortKeys.reread = w.sortKeys.reread

/-- Two upserts assign the same fields, from the same values to the same values. -/
def SameEffect (current payload current' payload' : Obj) : Prop :=
  ∀ k,
    Option.Rel SameJson (Upsert.Record.delta Json.pyEq current.get? payload.get? k)
      (Upsert.Record.delta Json.pyEq current'.get? payload'.get? k) ∧
    (Upsert.Record.delta Json.pyEq current.get? payload.get? k ≠ none →
      Option.Rel SameJson (current.get? k) (current'.get? k))

/-- A change that reads like another. -/
structure FieldChange.Same (ch ch' : FieldChange) : Prop where
  field : ch.field = ch'.field
  old : Option.Rel SameJson ch.old ch'.old
  new : SameJson ch.new ch'.new

/-- The value in the first line of a change. -/
def FieldChange.firstValue (ch : FieldChange) : Json := ch.old.getD ch.new

/-- The field of `ch'` is named like the first line of `ch`, with a newline and the start of another line
after it. -/
def FieldChange.Imitated (ch ch' : FieldChange) : Prop :=
  ∃ rest, ch'.field = ch.field ++ ": " ++ fmt ch.firstValue ++ "\n+ " ++ rest ∨
    ch'.field = ch.field ++ ": " ++ fmt ch.firstValue ++ "\n- " ++ rest

/-- Where the two lists of changes part, the second one imitates a line of the first one. -/
def Imitates (chs chs' : List FieldChange) : Prop :=
  ∃ before before' ch ch' after after',
    chs = before ++ ch :: after ∧ chs' = before' ++ ch' :: after' ∧
    List.Forall₂ FieldChange.Same before before' ∧ FieldChange.Imitated ch ch'

def noFieldChanges : String := "(no field changes — ERP record already matches the payload)"

/-- The lines under the header. -/
def diffBody (before : Option Obj) (op : WriteOperation) : List String :=
  if changes (before.getD []) op.payload = [] then [noFieldChanges]
  else (changes (before.getD []) op.payload).flatMap FieldChange.lines

end CaviErp
