import CaviErp.Mapper.NetsuiteRecords

/-!
# What a record lacks

Which records a mapping carries, what it makes of them, and the gaps it is to report of the others, apart
from the loops that find them.
-/

namespace CaviErp

open Py

/-! ## Records that can be mapped -/

/-- The output holds, under the target of each field that is carried, the converted value, and nothing
else. -/
def Carries (fields : List (String × String)) (convert : String → Converter) (record : Obj)
    (target : String) (v : Json) : Prop :=
  ∃ src, (src, target) ∈ fields ∧ record.get src ≠ .null ∧ convert src (record.get src) = .ok v

namespace LineMapping

structure Complete (m : LineMapping) (line : Obj) : Prop where
  required : ∀ f ∈ m.required, line.get f ≠ .null ∧ line.get f ≠ .str ""
  declared : ∀ k ∈ line.keys, k ∈ m.fields.map Prod.fst

def Maps (m : LineMapping) (line out : Obj) : Prop :=
  ∀ target v, out.get? target = some v ↔ Carries m.fields (converterOf m.converters) line target v

end LineMapping

namespace RecordMapping

/-- The values of the field are amounts of money. -/
def IsMoney (m : RecordMapping) (f : String) : Prop :=
  f ∈ m.fields.map Prod.fst ∧ m.converters.lookup f = some minorToMajor

/-- Each amount of money in the record is an integer. -/
def MoneyIsInteger (m : RecordMapping) (record : Obj) : Prop :=
  ∀ f, m.IsMoney f → ∀ v, record.get? f = some v → v ≠ .null → ∃ n, v = .int n

structure Complete (m : RecordMapping) (record : Obj) : Prop where
  required : ∀ f ∈ m.required,
    record.get f ≠ .null ∧ record.get f ≠ .str "" ∧ record.get f ≠ .arr []
  declared : ∀ k ∈ record.keys, k ∈ m.fields.map Prod.fst ∨ k ∈ m.unmapped ∨ k ∈ m.lines.map Prod.fst
  lines : ∀ f line, (f, line) ∈ m.lines → ∀ v, record.get? f = some v →
    ∃ ls : List Obj, ls ≠ [] ∧ v = .arr (ls.map Json.obj) ∧ ∀ l ∈ ls, line.Complete l
  money : m.MoneyIsInteger record

/-- The output of a mapping: the fields that are carried, and the lines one by one. -/
structure Maps (m : RecordMapping) (record out : Obj) : Prop where
  fields : ∀ target, target ∉ (m.lines.map fun l => l.2.target) → ∀ v,
    out.get? target = some v ↔ Carries m.fields (converterOf m.converters) record target v
  lines : ∀ src line, (src, line) ∈ m.lines → ∀ ls : List Obj,
    record.get? src = some (.arr (ls.map Json.obj)) →
      ∃ outs : List Obj, out.get? line.target = some (.arr (outs.map Json.obj)) ∧
        List.Forall₂ line.Maps ls outs
  absent : ∀ src line, (src, line) ∈ m.lines → record.get? src = none → out.get? line.target = none

/-- The targets of a mapping. -/
def targets (m : RecordMapping) : List String :=
  m.fields.map Prod.snd ++ m.lines.map fun l => l.2.target

end RecordMapping

/-! ## Gaps -/

inductive Gap where
  | missing (field : String)
  | undeclared (field : String)
  | noLines (field : String)
  | notObject (field : String) (i : Nat)
  | lineMissing (field : String) (i : Nat) (required : String)
  | lineUndeclared (field : String) (i : Nat) (name : String)
  | notMinorUnits (field : String) (value : Json)
deriving DecidableEq, Repr

namespace Gap

/-- The entry that tells of a gap. -/
def text : Gap → String
  | missing field => field ++ " is required"
  | undeclared field => field ++ " has no NetSuite target (undeclared)"
  | noLines field => field ++ " must be a non-empty list"
  | notObject field i => LineMapping.lineName field i ++ " must be an object"
  | lineMissing field i required =>
    LineMapping.lineName field i ++ "." ++ required ++ " is required"
  | lineUndeclared field i name =>
    LineMapping.lineName field i ++ "." ++ name ++ " has no NetSuite target (undeclared)"
  | notMinorUnits _ value => minorUnitsText value

/-- The gaps of a line. -/
inductive OfLine (line : LineMapping) (field : String) (i : Nat) (o : Obj) : Gap → Prop
  | lineMissing {required : String} (hrequired : required ∈ line.required)
      (h : o.get required = .null ∨ o.get required = .str "") :
      OfLine line field i o (.lineMissing field i required)
  | lineUndeclared {name : String} (hname : name ∈ o.keys) (h : name ∉ line.fields.map Prod.fst) :
      OfLine line field i o (.lineUndeclared field i name)

/-- The gaps of a record. -/
inductive Of (m : RecordMapping) (record : Obj) : Gap → Prop
  | missing {field : String} (hrequired : field ∈ m.required)
      (h : record.get field = .null ∨ record.get field = .str "" ∨ record.get field = .arr []) :
      Of m record (.missing field)
  | undeclared {field : String} (hfield : field ∈ record.keys)
      (h : field ∉ m.fields.map Prod.fst ∧ field ∉ m.unmapped ∧ field ∉ m.lines.map Prod.fst) :
      Of m record (.undeclared field)
  | noLines {field : String} {line : LineMapping} {v : Json} (hline : (field, line) ∈ m.lines)
      (hv : record.get? field = some v) (h : ∀ x xs, v ≠ .arr (x :: xs)) : Of m record (.noLines field)
  | notObject {field : String} {line : LineMapping} {lines : List Json} {i : Nat} {x : Json}
      (hline : (field, line) ∈ m.lines) (hv : record.get? field = some (.arr lines))
      (hx : lines[i]? = some x) (h : ∀ o, x ≠ .obj o) : Of m record (.notObject field i)
  | ofLine {field : String} {line : LineMapping} {lines : List Json} {i : Nat} {o : Obj} {g : Gap}
      (hline : (field, line) ∈ m.lines) (hv : record.get? field = some (.arr lines))
      (hx : lines[i]? = some (.obj o)) (h : OfLine line field i o g) : Of m record g
  | notMinorUnits {field : String} {v : Json} (hmoney : m.IsMoney field)
      (hv : record.get? field = some v) (hnull : v ≠ .null) (h : ∀ n, v ≠ .int n) :
      Of m record (.notMinorUnits field v)

end Gap

namespace RecordMapping

/-- A refused record is reported with all its gaps, one entry for each and no other, and a record that has
none of those left, and no new one, can be mapped. -/
def SurfacesAll (m : RecordMapping) (record : Obj) : Prop :=
  ∀ e, m.apply record = .error e →
    (∃ gaps : List Gap, gaps.Nodup ∧ (∀ g : Gap, g ∈ gaps ↔ g.Of m record) ∧ e.reports = gaps.map Gap.text) ∧
    ∀ fixed : Obj, (∀ g : Gap, g.Of m fixed → g.Of m record ∧ g.text ∉ e.reports) →
      ∃ out, m.apply fixed = .ok out

/-- The only gaps of the record are amounts of money that are none. -/
def OnlyMoneyGaps (m : RecordMapping) (record : Obj) : Prop :=
  ∀ g : Gap, g.Of m record → ∃ f v, g = .notMinorUnits f v

end RecordMapping

end CaviErp
