import CaviErp.Lib.Dict
import CaviErp.Mapper.Gaps
import Mathlib.Data.List.Dedup

/-!
# Which records are mapped, and what is said of the others

The loops collect exactly the gaps of a record, one entry for each. A converter does not collect: an
amount of money that is no integer is all that its record is told of.
-/

namespace CaviErp

open Py

/-! ## The fields that are carried -/

section MapFields

variable {convert : String → Converter} {record : Obj}

theorem mapFields_cons (src target : String) (fields : List (String × String)) (out : Obj) :
    mapFields convert record ((src, target) :: fields) out =
      if record.get src = .null then mapFields convert record fields out
      else convert src (record.get src) >>= fun v => mapFields convert record fields (out.set target v) := by
  rw [mapFields]
  cases record.get src <;> rfl

theorem mapFields_returns {fields : List (String × String)}
    (h : ∀ src ∈ fields.map Prod.fst, record.get src ≠ .null →
      ∃ v, convert src (record.get src) = .ok v) (out : Obj) :
    ∃ out', mapFields convert record fields out = .ok out' := by
  induction fields generalizing out with
  | nil => exact ⟨out, rfl⟩
  | cons field fields ih =>
    obtain ⟨src, target⟩ := field
    have hrest := ih fun src hsrc => h src (List.mem_cons_of_mem _ hsrc)
    rw [mapFields_cons]
    by_cases hnull : record.get src = .null
    · rw [if_pos hnull]
      exact hrest out
    · obtain ⟨v, hv⟩ := h src List.mem_cons_self hnull
      rw [if_neg hnull, hv]
      exact hrest _

theorem mapFields_raises {fields : List (String × String)} {out : Obj} {e : ErpTransformError}
    (h : mapFields convert record fields out = .error e) :
    ∃ src ∈ fields.map Prod.fst, record.get src ≠ .null ∧ convert src (record.get src) = .error e := by
  induction fields generalizing out with
  | nil => cases h
  | cons field fields ih =>
    obtain ⟨src, target⟩ := field
    rw [mapFields_cons] at h
    by_cases hnull : record.get src = .null
    · rw [if_pos hnull] at h
      obtain ⟨src', hsrc', herror⟩ := ih h
      exact ⟨src', List.mem_cons_of_mem _ hsrc', herror⟩
    · rw [if_neg hnull] at h
      cases hv : convert src (record.get src) with
      | error e' =>
        rw [hv] at h
        obtain rfl : e' = e := Except.error.inj h
        exact ⟨src, List.mem_cons_self, hnull, hv⟩
      | ok v =>
        rw [hv] at h
        obtain ⟨src', hsrc', herror⟩ := ih h
        exact ⟨src', List.mem_cons_of_mem _ hsrc', herror⟩

theorem mapFields_converts {fields : List (String × String)} {out out' : Obj}
    (h : mapFields convert record fields out = .ok out') (src : String)
    (hsrc : src ∈ fields.map Prod.fst) (hnull : record.get src ≠ .null) :
    ∃ v, convert src (record.get src) = .ok v := by
  induction fields generalizing out with
  | nil => cases hsrc
  | cons field fields ih =>
    obtain ⟨src', target⟩ := field
    rw [mapFields_cons] at h
    rcases List.mem_cons.mp hsrc with rfl | hsrc
    · rw [if_neg hnull] at h
      obtain ⟨v, hv, -⟩ := bind_eq_ok h
      exact ⟨v, hv⟩
    · by_cases hnull' : record.get src' = .null
      · rw [if_pos hnull'] at h
        exact ih h hsrc
      · rw [if_neg hnull'] at h
        obtain ⟨v, -, h⟩ := bind_eq_ok h
        exact ih h hsrc

/-- The loop adds what is carried to the output, each under its own target. -/
theorem get?_mapFields {fields : List (String × String)} (hnodup : (fields.map Prod.snd).Nodup)
    {out out' : Obj} (hout : ∀ target ∈ fields.map Prod.snd, out.get? target = none)
    (h : mapFields convert record fields out = .ok out') (target : String) (v : Json) :
    out'.get? target = some v ↔
      Carries fields convert record target v ∨ out.get? target = some v := by
  induction fields generalizing out with
  | nil =>
    obtain rfl := Except.ok.inj h
    constructor
    · exact .inr
    · rintro (⟨src, hsrc, -⟩ | hv)
      · cases hsrc
      · exact hv
  | cons field fields ih =>
    obtain ⟨src, tgt⟩ := field
    obtain ⟨hfresh, hnodup⟩ := List.nodup_cons.mp hnodup
    have hcarries : Carries ((src, tgt) :: fields) convert record target v ↔
        (tgt = target ∧ record.get src ≠ .null ∧ convert src (record.get src) = .ok v) ∨
          Carries fields convert record target v := by
      constructor
      · rintro ⟨src', hmem, hcarried⟩
        rcases List.mem_cons.mp hmem with heq | hmem
        · obtain ⟨rfl, rfl⟩ := Prod.mk.inj heq
          exact .inl ⟨rfl, hcarried⟩
        · exact .inr ⟨src', hmem, hcarried⟩
      · rintro (⟨rfl, hcarried⟩ | ⟨src', hmem, hcarried⟩)
        · exact ⟨src, List.mem_cons_self, hcarried⟩
        · exact ⟨src', List.mem_cons_of_mem _ hmem, hcarried⟩
    rw [mapFields_cons] at h
    by_cases hnull : record.get src = .null
    · rw [if_pos hnull] at h
      rw [ih hnodup (fun t ht => hout t (List.mem_cons_of_mem _ ht)) h, hcarries]
      simp [hnull]
    · rw [if_neg hnull] at h
      obtain ⟨w, hw, h⟩ := bind_eq_ok h
      have hout' : ∀ t ∈ fields.map Prod.snd, (out.set tgt w).get? t = none := by
        intro t ht
        have hne : t ≠ tgt := fun heq => hfresh (heq ▸ ht)
        rw [Obj.get?_set, if_neg hne]
        exact hout t (List.mem_cons_of_mem _ ht)
      rw [ih hnodup hout' h, hcarries, Obj.get?_set]
      by_cases ht : target = tgt
      · subst ht
        have hnone := hout target List.mem_cons_self
        simp only [if_pos, hnone, hw, hnull, ne_eq, not_false_eq_true, true_and, Option.some.injEq,
          Except.ok.injEq, reduceCtorEq, or_false]
        rw [or_comm]
      · rw [if_neg ht]
        simp [Ne.symm ht]

end MapFields

/-! ## Undeclared names -/

theorem mem_undeclared {record : Obj} {declared : List String} {k : String} :
    k ∈ undeclared record declared ↔ k ∈ record.keys ∧ k ∉ declared := by
  unfold undeclared
  rw [List.mem_mergeSort, List.mem_dedup, List.mem_filter]
  simp

theorem undeclared_nodup (record : Obj) (declared : List String) :
    (undeclared record declared).Nodup :=
  (List.mergeSort_perm _ _).nodup_iff.mpr (List.nodup_dedup _)

theorem isBlank_iff {v : Json} : isBlank v = true ↔ v = .null ∨ v = .str "" := by
  simp [isBlank]

theorem isBlankField_iff {v : Json} :
    isBlankField v = true ↔ v = .null ∨ v = .str "" ∨ v = .arr [] := by
  simp [isBlankField, isBlank_iff, or_assoc]

/-! ## Lines -/

namespace LineMapping

/-- What the loops need of a mapping of lines; those of the reference mappings convert nothing. -/
structure Plain (m : LineMapping) : Prop where
  converters : m.converters = []
  targets_nodup : (m.fields.map Prod.snd).Nodup
  required_nodup : m.required.Nodup

variable {m : LineMapping} {field : String}

/-- The gaps of a line, in the order in which they are found. -/
def lineGaps (m : LineMapping) (field : String) (i : Nat) (line : Obj) : List Gap :=
  (m.required.filter fun req => isBlank (line.get req)).map (Gap.lineMissing field i) ++
    (undeclared line (m.fields.map Prod.fst)).map (Gap.lineUndeclared field i)

/-- The gaps of the lines from the line `i`. -/
def gapsFrom (m : LineMapping) (field : String) : Nat → List Json → List Gap
  | _, [] => []
  | i, .obj line :: lines => m.lineGaps field i line ++ gapsFrom m field (i + 1) lines
  | i, _ :: lines => .notObject field i :: gapsFrom m field (i + 1) lines

/-- The gaps of a line field. -/
def fieldGaps (m : LineMapping) (field : String) : Json → List Gap
  | .arr (line :: lines) => m.gapsFrom field 0 (line :: lines)
  | _ => [.noLines field]

theorem mem_lineGaps {i : Nat} {line : Obj} {g : Gap} :
    g ∈ m.lineGaps field i line ↔ g.OfLine m field i line := by
  unfold lineGaps
  rw [List.mem_append, List.mem_map, List.mem_map]
  constructor
  · rintro (⟨req, hreq, rfl⟩ | ⟨name, hname, rfl⟩)
    · obtain ⟨hreq, hblank⟩ := List.mem_filter.mp hreq
      exact .lineMissing hreq (isBlank_iff.mp hblank)
    · obtain ⟨hkey, hnot⟩ := mem_undeclared.mp hname
      exact .lineUndeclared hkey hnot
  · intro h
    cases h with
    | lineMissing hreq hblank =>
      exact .inl ⟨_, List.mem_filter.mpr ⟨hreq, isBlank_iff.mpr hblank⟩, rfl⟩
    | lineUndeclared hkey hnot => exact .inr ⟨_, mem_undeclared.mpr ⟨hkey, hnot⟩, rfl⟩

theorem lineGaps_nodup (hm : m.Plain) (i : Nat) (line : Obj) : (m.lineGaps field i line).Nodup := by
  refine List.Nodup.append ?_ ?_ ?_
  · exact (hm.required_nodup.filter _).map fun a b h => by injection h
  · exact (undeclared_nodup ..).map fun a b h => by injection h
  · intro g hmissing hundeclared
    obtain ⟨req, -, rfl⟩ := List.mem_map.mp hmissing
    obtain ⟨name, -, hname⟩ := List.mem_map.mp hundeclared
    cases hname

/-- A gap of a line: the line is no object, or it is one and has the gap. -/
theorem mem_gapsFrom {i : Nat} {lines : List Json} {g : Gap} :
    g ∈ m.gapsFrom field i lines ↔ ∃ j x, lines[j]? = some x ∧
      (((∀ o, x ≠ .obj o) ∧ g = .notObject field (i + j)) ∨
        ∃ o, x = .obj o ∧ g.OfLine m field (i + j) o) := by
  induction lines generalizing i with
  | nil => simp [gapsFrom]
  | cons x lines ih =>
    have hhead : g ∈ m.gapsFrom field i (x :: lines) ↔
        (((∀ o, x ≠ .obj o) ∧ g = .notObject field i) ∨ ∃ o, x = .obj o ∧ g.OfLine m field i o) ∨
          g ∈ m.gapsFrom field (i + 1) lines := by
      cases x with
      | obj o => simp [gapsFrom, mem_lineGaps]
      | _ => simp [gapsFrom]
    rw [hhead, ih]
    constructor
    · rintro (h | ⟨j, y, hy, h⟩)
      · exact ⟨0, x, rfl, h⟩
      · refine ⟨j + 1, y, hy, ?_⟩
        rw [Nat.add_right_comm] at h
        exact h
    · rintro ⟨j, y, hy, h⟩
      cases j with
      | zero =>
        obtain rfl : x = y := Option.some.inj hy
        exact .inl h
      | succ j =>
        refine .inr ⟨j, y, hy, ?_⟩
        rw [Nat.add_right_comm]
        exact h

/-- The number of the line that a gap is about. -/
theorem index_of_mem_gapsFrom {i : Nat} {lines : List Json} {g : Gap}
    (h : g ∈ m.gapsFrom field i lines) :
    ∃ k, i ≤ k ∧ (g = .notObject field k ∨ ∃ o, g.OfLine m field k o) := by
  obtain ⟨j, x, -, hgap⟩ := mem_gapsFrom.mp h
  refine ⟨i + j, Nat.le_add_right i j, ?_⟩
  rcases hgap with ⟨-, rfl⟩ | ⟨o, -, h⟩
  · exact .inl rfl
  · exact .inr ⟨o, h⟩

theorem gapsFrom_nodup (hm : m.Plain) (i : Nat) (lines : List Json) :
    (m.gapsFrom field i lines).Nodup := by
  induction lines generalizing i with
  | nil => exact List.nodup_nil
  | cons x lines ih =>
    -- the gaps of the later lines have later numbers
    have hlater : ∀ g ∈ m.gapsFrom field (i + 1) lines,
        g ≠ .notObject field i ∧ ∀ o, ¬ g.OfLine m field i o := by
      intro g hg
      obtain ⟨k, hk, rfl | ⟨o, ho⟩⟩ := index_of_mem_gapsFrom hg
      · refine ⟨fun heq => ?_, nofun⟩
        injection heq with _ hki
        omega
      · cases ho with
        | lineMissing =>
          refine ⟨nofun, fun o' h => ?_⟩
          cases h
          omega
        | lineUndeclared =>
          refine ⟨nofun, fun o' h => ?_⟩
          cases h
          omega
    cases x with
    | obj line =>
      refine List.Nodup.append (lineGaps_nodup hm i line) (ih (i + 1)) ?_
      intro g hline hrest
      exact (hlater g hrest).2 line (mem_lineGaps.mp hline)
    | _ =>
      refine List.nodup_cons.mpr ⟨?_, ih (i + 1)⟩
      exact fun hmem => (hlater _ hmem).1 rfl

theorem fieldGaps_nodup (hm : m.Plain) (field : String) (v : Json) : (m.fieldGaps field v).Nodup := by
  unfold fieldGaps
  split
  · exact gapsFrom_nodup hm 0 _
  · exact List.nodup_singleton _

theorem texts_lineGaps (m : LineMapping) (field : String) (i : Nat) (line : Obj) :
    (m.lineGaps field i line).map Gap.text = m.gapsOf field i line := by
  unfold lineGaps gapsOf
  rw [List.map_append, List.map_map, List.map_map]
  rfl

/-- Lines are mapped one by one, and their gaps are collected. -/
theorem applyFrom_eq (hm : m.Plain) (field : String) (i : Nat) (lines : List Json) :
    ∃ mapped, m.applyFrom field i lines = .ok (mapped, (m.gapsFrom field i lines).map Gap.text) ∧
      ∀ ls : List Obj, lines = ls.map Json.obj →
        ∃ outs : List Obj, mapped = outs.map Json.obj ∧ List.Forall₂ m.Maps ls outs := by
  induction lines generalizing i with
  | nil =>
    refine ⟨[], rfl, fun ls hls => ⟨[], rfl, ?_⟩⟩
    obtain rfl := List.map_eq_nil_iff.mp hls.symm
    exact .nil
  | cons x lines ih =>
    obtain ⟨mapped, happly, hmaps⟩ := ih (i + 1)
    cases x with
    | obj line =>
      have hconvert : ∀ src ∈ m.fields.map Prod.fst, Obj.get line src ≠ .null →
          ∃ v, converterOf m.converters src (Obj.get line src) = .ok v := by
        intro src _ _
        rw [hm.converters]
        exact ⟨_, rfl⟩
      obtain ⟨out, hout⟩ := mapFields_returns hconvert []
      refine ⟨.obj out :: mapped, ?_, ?_⟩
      · unfold applyFrom gapsFrom
        rw [List.map_append, texts_lineGaps]
        simp only [bind, Except.bind, hout, happly]
        rfl
      · intro ls hls
        obtain ⟨l, ls, rfl, hl, hrest⟩ := List.map_eq_cons_iff.mp hls.symm
        obtain rfl := Json.obj.inj hl
        obtain ⟨outs, rfl, houts⟩ := hmaps ls hrest.symm
        refine ⟨out :: outs, rfl, .cons ?_ houts⟩
        intro target v
        rw [get?_mapFields hm.targets_nodup (fun _ _ => rfl) hout]
        simp [Obj.get?]
    | _ =>
      refine ⟨mapped, ?_, ?_⟩
      · unfold applyFrom gapsFrom
        simp only [bind, Except.bind, happly]
        rfl
      · intro ls hls
        obtain ⟨l, ls, rfl, hl, -⟩ := List.map_eq_cons_iff.mp hls.symm
        cases hl

theorem Plain.apply_eq (hm : m.Plain) (field : String) (v : Json) :
    ∃ mapped, m.apply field v = .ok (mapped, (m.fieldGaps field v).map Gap.text) ∧
      ∀ ls : List Obj, v = .arr (ls.map Json.obj) → ls ≠ [] →
        ∃ outs : List Obj, mapped = outs.map Json.obj ∧ List.Forall₂ m.Maps ls outs := by
  by_cases hv : ∃ x xs, v = .arr (x :: xs)
  · obtain ⟨x, xs, rfl⟩ := hv
    obtain ⟨mapped, happly, hmaps⟩ := applyFrom_eq hm field 0 (x :: xs)
    exact ⟨mapped, happly, fun ls hls _ => hmaps ls (Json.arr.inj hls)⟩
  · have hnone : m.apply field v = .ok ([], [field ++ " must be a non-empty list"]) ∧
        m.fieldGaps field v = [.noLines field] := by
      cases v with
      | arr xs =>
        cases xs with
        | nil => exact ⟨rfl, rfl⟩
        | cons x xs => exact absurd ⟨x, xs, rfl⟩ hv
      | _ => exact ⟨rfl, rfl⟩
    refine ⟨[], ?_, ?_⟩
    · rw [hnone.1, hnone.2]
      rfl
    · rintro ls rfl hls
      obtain ⟨l, ls, rfl⟩ := List.exists_cons_of_ne_nil hls
      exact absurd ⟨_, _, rfl⟩ hv

end LineMapping

/-! ## Records -/

namespace RecordMapping

/-- What the loops need of a mapping; the reference mappings have it. -/
structure Plain (m : RecordMapping) : Prop where
  targets_nodup : m.targets.Nodup
  required_nodup : m.required.Nodup
  lines_nodup : (m.lines.map Prod.fst).Nodup
  lines_plain : ∀ l ∈ m.lines, l.2.Plain
  /-- Amounts of money are all that is converted. -/
  money : ∀ c ∈ m.converters, c.2 = minorToMajor
  money_unique : ∀ f f', m.IsMoney f → m.IsMoney f' → f = f'

variable {m : RecordMapping} {record : Obj}

/-- The gaps of a line field, if the record has it. -/
def gapsAt (record : Obj) (l : String × LineMapping) : List Gap :=
  match record.get? l.1 with
  | none => []
  | some v => l.2.fieldGaps l.1 v

/-- The gaps that are collected, in the order in which they are found. -/
def gapList (m : RecordMapping) (record : Obj) : List Gap :=
  (m.required.filter fun req => isBlankField (record.get req)).map Gap.missing ++
    (undeclared record m.declared).map Gap.undeclared ++ m.lines.flatMap (gapsAt record)

theorem mem_gapsAt {l : String × LineMapping} (hl : l ∈ m.lines) {g : Gap} (hg : g ∈ gapsAt record l) :
    g.Of m record := by
  obtain ⟨field, line⟩ := l
  unfold gapsAt at hg
  cases hv : record.get? field with
  | none =>
    rw [hv] at hg
    cases hg
  | some v =>
    rw [hv] at hg
    by_cases hlist : ∃ x xs, v = .arr (x :: xs)
    · obtain ⟨x, xs, rfl⟩ := hlist
      obtain ⟨j, y, hy, hgap⟩ := LineMapping.mem_gapsFrom.mp hg
      rw [Nat.zero_add] at hgap
      rcases hgap with ⟨hnot, rfl⟩ | ⟨o, rfl, hline⟩
      · exact .notObject hl hv hy hnot
      · exact .ofLine hl hv hy hline
    · have hgap : g = .noLines field := by
        cases v with
        | arr xs =>
          cases xs with
          | nil => exact List.mem_singleton.mp hg
          | cons x xs => exact absurd ⟨x, xs, rfl⟩ hlist
        | _ => exact List.mem_singleton.mp hg
      rw [hgap]
      exact .noLines hl hv fun x xs h => hlist ⟨x, xs, h⟩

/-- The gaps that are collected are those of the record that are not about money. -/
theorem mem_gapList {g : Gap} :
    g ∈ m.gapList record ↔ g.Of m record ∧ ∀ f v, g ≠ .notMinorUnits f v := by
  have hdeclared : ∀ k, k ∉ m.declared ↔
      k ∉ m.fields.map Prod.fst ∧ k ∉ m.unmapped ∧ k ∉ m.lines.map Prod.fst := by
    intro k
    unfold declared
    rw [List.mem_append, List.mem_append, not_or, not_or, and_assoc]
  have hmoney : ∀ l ∈ m.lines, ∀ g ∈ gapsAt record l, ∀ f v, g ≠ .notMinorUnits f v := by
    rintro ⟨field, line⟩ - g hg f v rfl
    unfold gapsAt LineMapping.fieldGaps at hg
    split at hg
    · cases hg
    · split at hg
      · obtain ⟨k, -, h | ⟨o, h⟩⟩ := LineMapping.index_of_mem_gapsFrom hg
        · cases h
        · cases h
      · cases List.mem_singleton.mp hg
  unfold gapList
  rw [List.mem_append, List.mem_append, List.mem_map, List.mem_map, List.mem_flatMap]
  constructor
  · rintro ((⟨req, hreq, rfl⟩ | ⟨name, hname, rfl⟩) | ⟨l, hl, hg⟩)
    · obtain ⟨hreq, hblank⟩ := List.mem_filter.mp hreq
      exact ⟨.missing hreq (isBlankField_iff.mp hblank), nofun⟩
    · obtain ⟨hkey, hnot⟩ := mem_undeclared.mp hname
      exact ⟨.undeclared hkey ((hdeclared name).mp hnot), nofun⟩
    · exact ⟨mem_gapsAt hl hg, hmoney l hl g hg⟩
  · rintro ⟨h, hnot⟩
    cases h with
    | missing hreq hblank =>
      exact .inl (.inl ⟨_, List.mem_filter.mpr ⟨hreq, isBlankField_iff.mpr hblank⟩, rfl⟩)
    | undeclared hkey hundeclared =>
      have hname := mem_undeclared.mpr ⟨hkey, (hdeclared _).mpr hundeclared⟩
      exact .inl (.inr ⟨_, hname, rfl⟩)
    | @noLines field line v hline hv h =>
      refine .inr ⟨(field, line), hline, ?_⟩
      unfold gapsAt
      rw [hv]
      cases v with
      | arr xs =>
        cases xs with
        | nil => exact List.mem_singleton_self _
        | cons x xs => exact absurd rfl (h x xs)
      | _ => exact List.mem_singleton_self _
    | @notObject field line lines i x hline hv hx h =>
      refine .inr ⟨(field, line), hline, ?_⟩
      unfold gapsAt
      rw [hv]
      cases lines with
      | nil => cases hx
      | cons y ys => exact LineMapping.mem_gapsFrom.mpr ⟨i, x, hx, .inl ⟨h, by rw [Nat.zero_add]⟩⟩
    | @ofLine field line lines i o _ hline hv hx h =>
      refine .inr ⟨(field, line), hline, ?_⟩
      unfold gapsAt
      rw [hv]
      cases lines with
      | nil => cases hx
      | cons y ys =>
        refine LineMapping.mem_gapsFrom.mpr ⟨i, .obj o, hx, .inr ⟨o, rfl, ?_⟩⟩
        rwa [Nat.zero_add]
    | notMinorUnits => exact absurd rfl (hnot _ _)

/-- The field of the record that a gap is found in. -/
def gapField : Gap → String
  | .missing field | .undeclared field | .noLines field | .notObject field _
  | .lineMissing field _ _ | .lineUndeclared field _ _ | .notMinorUnits field _ => field

/-- A gap of the lines is about the field of the lines, and no gap of the record itself. -/
theorem field_of_mem_gapsAt {l : String × LineMapping} {g : Gap} (hg : g ∈ gapsAt record l) :
    gapField g = l.1 ∧ ∀ field, g ≠ .missing field ∧ g ≠ .undeclared field := by
  unfold gapsAt LineMapping.fieldGaps at hg
  split at hg
  · cases hg
  · split at hg
    · obtain ⟨k, -, rfl | ⟨o, h⟩⟩ := LineMapping.index_of_mem_gapsFrom hg
      · exact ⟨rfl, fun _ => ⟨nofun, nofun⟩⟩
      · cases h <;> exact ⟨rfl, fun _ => ⟨nofun, nofun⟩⟩
    · obtain rfl := List.mem_singleton.mp hg
      exact ⟨rfl, fun _ => ⟨nofun, nofun⟩⟩

/-- No gap is collected twice. -/
theorem gapList_nodup (hm : m.Plain) (record : Obj) : (m.gapList record).Nodup := by
  have hlines : (m.lines.flatMap (gapsAt record)).Nodup := by
    refine List.nodup_flatMap.mpr ⟨fun l hl => ?_, ?_⟩
    · unfold gapsAt
      split
      · exact List.nodup_nil
      · exact LineMapping.fieldGaps_nodup (hm.lines_plain l hl) _ _
    · refine (List.pairwise_map.mp hm.lines_nodup).imp ?_
      intro l l' hne g hg hg'
      exact hne ((field_of_mem_gapsAt hg).1.symm.trans (field_of_mem_gapsAt hg').1)
  refine List.Nodup.append (List.Nodup.append ?_ ?_ ?_) hlines ?_
  · exact (hm.required_nodup.filter _).map fun a b h => by injection h
  · exact (undeclared_nodup ..).map fun a b h => by injection h
  · intro g hmissing hundeclared
    obtain ⟨req, -, rfl⟩ := List.mem_map.mp hmissing
    obtain ⟨name, -, hname⟩ := List.mem_map.mp hundeclared
    cases hname
  · intro g hfield hline
    obtain ⟨l, -, hg⟩ := List.mem_flatMap.mp hline
    have hnot := (field_of_mem_gapsAt hg).2
    rcases List.mem_append.mp hfield with hmem | hmem
    · obtain ⟨req, -, rfl⟩ := List.mem_map.mp hmem
      exact (hnot req).1 rfl
    · obtain ⟨name, -, rfl⟩ := List.mem_map.mp hmem
      exact (hnot name).2 rfl

theorem texts_gapList (m : RecordMapping) (record : Obj) :
    (m.gapList record).map Gap.text =
      m.gapsOf record ++ (m.lines.flatMap (gapsAt record)).map Gap.text := by
  unfold gapList gapsOf
  rw [List.map_append, List.map_append, List.map_map, List.map_map]
  rfl

/-- The lines go to their own targets, and leave the others as they are. -/
theorem applyLines_eq (record : Obj) {lines : List (String × LineMapping)} (hplain : ∀ l ∈ lines, l.2.Plain)
    (hnodup : (lines.map fun l => l.2.target).Nodup) (out : Obj) :
    ∃ out', applyLines record lines out = .ok (out', (lines.flatMap (gapsAt record)).map Gap.text) ∧
      (∀ target, target ∉ (lines.map fun l => l.2.target) → out'.get? target = out.get? target) ∧
      ∀ src line, (src, line) ∈ lines →
        (∀ ls : List Obj, ls ≠ [] → record.get? src = some (.arr (ls.map Json.obj)) →
          ∃ outs : List Obj, out'.get? line.target = some (.arr (outs.map Json.obj)) ∧
            List.Forall₂ line.Maps ls outs) ∧
        (record.get? src = none → out'.get? line.target = out.get? line.target) := by
  induction lines generalizing out with
  | nil => exact ⟨out, rfl, fun _ _ => rfl, nofun⟩
  | cons l lines ih =>
    obtain ⟨field, m⟩ := l
    obtain ⟨hfresh, hnodup⟩ := List.nodup_cons.mp hnodup
    have ih := ih (fun l hl => hplain l (List.mem_cons_of_mem _ hl)) hnodup
    have hne : ∀ src line, (src, line) ∈ lines → line.target ≠ m.target := by
      intro src line hmem heq
      exact hfresh (List.mem_map.mpr ⟨(src, line), hmem, heq⟩)
    cases hv : record.get? field with
    | none =>
      obtain ⟨out', happly, hframe, hlines⟩ := ih out
      have hgaps : gapsAt record (field, m) = [] := by
        unfold gapsAt
        rw [hv]
      refine ⟨out', ?_, ?_, ?_⟩
      · rw [applyLines, hv, List.flatMap_cons, hgaps]
        exact happly
      · intro target htarget
        exact hframe target fun hmem => htarget (List.mem_cons_of_mem _ hmem)
      · intro src line hmem
        rcases List.mem_cons.mp hmem with heq | hmem
        · obtain ⟨rfl, rfl⟩ := Prod.mk.inj heq
          refine ⟨fun ls _ hls => ?_, fun _ => hframe _ hfresh⟩
          rw [hv] at hls
          cases hls
        · exact hlines src line hmem
    | some v =>
      obtain ⟨mapped, hmapped, hmaps⟩ := (hplain _ List.mem_cons_self).apply_eq field v
      obtain ⟨out', happly, hframe, hlines⟩ := ih (out.set m.target (.arr mapped))
      have hgaps : gapsAt record (field, m) = m.fieldGaps field v := by
        unfold gapsAt
        rw [hv]
      refine ⟨out', ?_, ?_, ?_⟩
      · rw [applyLines, hv, List.flatMap_cons, hgaps, List.map_append]
        simp only [hmapped, happly, bind, Except.bind]
        rfl
      · intro target htarget
        obtain ⟨hhead, htail⟩ := not_or.mp (mt List.mem_cons.mpr htarget)
        rw [hframe target htail, Obj.get?_set, if_neg hhead]
      · intro src line hmem
        rcases List.mem_cons.mp hmem with heq | hmem
        · obtain ⟨rfl, rfl⟩ := Prod.mk.inj heq
          constructor
          · intro ls hne hls
            obtain rfl := Option.some.inj (hv.symm.trans hls)
            obtain ⟨outs, rfl, houts⟩ := hmaps ls rfl hne
            refine ⟨outs, ?_, houts⟩
            rw [hframe _ hfresh, Obj.get?_set, if_pos rfl]
          · intro hnone
            rw [hv] at hnone
            cases hnone
        · obtain ⟨hlist, hnone⟩ := hlines src line hmem
          refine ⟨hlist, fun h => ?_⟩
          rw [hnone h, Obj.get?_set, if_neg (hne src line hmem)]

/-! ## What a record is told -/

theorem convert_eq (hm : m.Plain) {src : String} (v : Json)
    (h : m.converters.lookup src = some minorToMajor → ∃ n, v = .int n) :
    ∃ w, converterOf m.converters src v = .ok w := by
  unfold converterOf
  cases hlookup : m.converters.lookup src with
  | none => exact ⟨v, rfl⟩
  | some c =>
    have hc : c = minorToMajor := hm.money _ (Dict.mem_of_lookup hlookup)
    rw [hc] at hlookup
    obtain ⟨n, rfl⟩ := h hlookup
    exact ⟨_, by rw [hc]; rfl⟩

/-- A converter that refuses an amount of money is all that a record is told of. -/
theorem apply_refused (hm : m.Plain) {f : String} {v : Json} (hmoney : m.IsMoney f)
    (hv : record.get? f = some v) (hnull : v ≠ .null) (hint : ∀ n, v ≠ .int n) :
    m.apply record = .error (.refused (minorUnitsText v)) := by
  have hget : record.get f = v := by rw [Obj.get, hv]; rfl
  have hrefused : converterOf m.converters f v = .error (.refused (minorUnitsText v)) := by
    unfold converterOf
    rw [hmoney.2]
    cases v with
    | int n => exact absurd rfl (hint n)
    | _ => rfl
  have hraises : mapFields (converterOf m.converters) record m.fields [] =
      .error (.refused (minorUnitsText v)) := by
    cases hout : mapFields (converterOf m.converters) record m.fields [] with
    | ok out =>
      obtain ⟨w, hw⟩ := mapFields_converts hout f hmoney.1 (hget ▸ hnull)
      rw [hget, hrefused] at hw
      cases hw
    | error e =>
      obtain ⟨src, hsrc, hsrcnull, herror⟩ := mapFields_raises hout
      have hlookup : m.converters.lookup src = some minorToMajor := by
        by_contra hlookup
        obtain ⟨w, hw⟩ := convert_eq hm (record.get src) fun h => absurd h hlookup
        rw [hw] at herror
        cases herror
      obtain rfl := hm.money_unique _ _ ⟨hsrc, hlookup⟩ hmoney
      rw [hget, hrefused] at herror
      exact congrArg Except.error (Except.error.inj herror).symm
  unfold apply
  rw [hraises]
  rfl

/-- A record whose amounts of money are integers is told of all the gaps that are collected. -/
theorem apply_collects (hm : m.Plain) (hmoney : m.MoneyIsInteger record) :
    ∃ out, (m.gapList record = [] → m.apply record = .ok out ∧ m.Maps record out) ∧
      (m.gapList record ≠ [] →
        m.apply record = .error (.mappingBlocked m.sourceSchema ((m.gapList record).map Gap.text))) := by
  have hconverts : ∀ src ∈ m.fields.map Prod.fst, record.get src ≠ .null →
      ∃ v, converterOf m.converters src (record.get src) = .ok v := by
    intro src hsrc hnull
    refine convert_eq hm _ fun hlookup => ?_
    cases hv : record.get? src with
    | none => exact absurd (by rw [Obj.get, hv]; rfl) hnull
    | some v =>
      have hget : record.get src = v := by rw [Obj.get, hv]; rfl
      rw [hget] at hnull ⊢
      exact hmoney src ⟨hsrc, hlookup⟩ v hv hnull
  obtain ⟨hfields, htargets, hdisjoint⟩ := List.nodup_append.mp hm.targets_nodup
  obtain ⟨carried, hcarried⟩ := mapFields_returns hconverts []
  obtain ⟨out, hlines, hframe, hmaps⟩ :=
    applyLines_eq record hm.lines_plain htargets carried
  have hget : ∀ target v, carried.get? target = some v ↔
      Carries m.fields (converterOf m.converters) record target v := by
    intro target v
    rw [get?_mapFields hfields (fun _ _ => rfl) hcarried]
    simp [Obj.get?]
  have happly : m.apply record =
      if (m.gapList record).map Gap.text ≠ [] then
        .error (.mappingBlocked m.sourceSchema ((m.gapList record).map Gap.text))
      else .ok out := by
    rw [texts_gapList]
    unfold apply
    simp only [hcarried, hlines, bind, Except.bind]
  refine ⟨out, fun hnil => ?_, fun hgaps => ?_⟩
  · have hnone : ∀ g : Gap, g.Of m record → ∃ f v, g = .notMinorUnits f v := by
      intro g hg
      by_contra hother
      have hmem : g ∈ m.gapList record := mem_gapList.mpr ⟨hg, fun f v h => hother ⟨f, v, h⟩⟩
      rw [hnil] at hmem
      cases hmem
    rw [happly, hnil, if_neg (by simp)]
    refine ⟨rfl, ?_, ?_, ?_⟩
    · intro target htarget v
      rw [hframe target htarget]
      exact hget target v
    · intro src line hline ls hls
      refine (hmaps src line hline).1 ls ?_ hls
      rintro rfl
      have hempty : ∀ x xs, (Json.arr []) ≠ .arr (x :: xs) := by
        intro x xs h
        cases h
      obtain ⟨f, v, h⟩ := hnone _ (.noLines hline hls hempty)
      cases h
    · intro src line hline habsent
      rw [(hmaps src line hline).2 habsent, Option.eq_none_iff_forall_ne_some]
      intro v hv
      obtain ⟨field, hfield, -⟩ := (hget line.target v).mp hv
      exact hdisjoint _ (List.mem_map_of_mem (f := Prod.snd) hfield) _
        (List.mem_map_of_mem (f := fun l => l.2.target) hline) rfl
  · rw [happly, if_pos]
    rwa [ne_eq, List.map_eq_nil_iff]

theorem exists_objs {xs : List Json} (h : ∀ x ∈ xs, ∃ o, x = .obj o) :
    ∃ ls : List Obj, xs = ls.map Json.obj := by
  induction xs with
  | nil => exact ⟨[], rfl⟩
  | cons x xs ih =>
    obtain ⟨o, rfl⟩ := h x List.mem_cons_self
    obtain ⟨ls, rfl⟩ := ih fun x hx => h x (List.mem_cons_of_mem _ hx)
    exact ⟨o :: ls, rfl⟩

/-- The records that can be mapped are those without a gap. -/
theorem complete_iff : m.Complete record ↔ ∀ g : Gap, ¬ g.Of m record := by
  constructor
  · intro hcomplete g hg
    cases hg with
    | missing hreq h =>
      obtain ⟨hnull, hempty, hnil⟩ := hcomplete.required _ hreq
      rcases h with h | h | h
      · exact hnull h
      · exact hempty h
      · exact hnil h
    | undeclared hkey h =>
      rcases hcomplete.declared _ hkey with hk | hk | hk
      · exact h.1 hk
      · exact h.2.1 hk
      · exact h.2.2 hk
    | noLines hline hv h =>
      obtain ⟨ls, hne, rfl, -⟩ := hcomplete.lines _ _ hline _ hv
      obtain ⟨l, ls, rfl⟩ := List.exists_cons_of_ne_nil hne
      exact h _ _ rfl
    | notObject hline hv hx h =>
      obtain ⟨ls, -, heq, -⟩ := hcomplete.lines _ _ hline _ hv
      obtain rfl := Json.arr.inj heq
      obtain ⟨l, -, rfl⟩ := List.mem_map.mp (List.mem_of_getElem? hx)
      exact h l rfl
    | ofLine hline hv hx h =>
      obtain ⟨ls, -, heq, hls⟩ := hcomplete.lines _ _ hline _ hv
      obtain rfl := Json.arr.inj heq
      obtain ⟨l, hl, hlo⟩ := List.mem_map.mp (List.mem_of_getElem? hx)
      obtain rfl := Json.obj.inj hlo
      cases h with
      | lineMissing hreq hblank =>
        obtain ⟨hnull, hempty⟩ := (hls l hl).required _ hreq
        exact hblank.elim hnull hempty
      | lineUndeclared hkey h => exact h ((hls l hl).declared _ hkey)
    | notMinorUnits hmoney hv hnull h =>
      obtain ⟨n, rfl⟩ := hcomplete.money _ hmoney _ hv hnull
      exact h n rfl
  · intro hnone
    refine ⟨fun f hf => ?_, fun k hk => ?_, fun f line hline v hv => ?_, fun f hmoney v hv hnull => ?_⟩
    · exact ⟨fun h => hnone _ (.missing hf (.inl h)), fun h => hnone _ (.missing hf (.inr (.inl h))),
        fun h => hnone _ (.missing hf (.inr (.inr h)))⟩
    · by_contra h
      push Not at h
      exact hnone _ (.undeclared hk h)
    · obtain ⟨x, xs, rfl⟩ : ∃ x xs, v = .arr (x :: xs) := by
        by_contra h
        push Not at h
        exact hnone _ (.noLines hline hv h)
      obtain ⟨ls, hls⟩ := exists_objs fun y (hy : y ∈ x :: xs) => by
        obtain ⟨i, hi⟩ := List.mem_iff_getElem?.mp hy
        by_contra h
        push Not at h
        exact hnone _ (.notObject hline hv hi h)
      refine ⟨ls, ?_, congrArg Json.arr hls, fun l hl => ?_⟩
      · rintro rfl
        cases hls
      · have hmem : Json.obj l ∈ x :: xs := hls ▸ List.mem_map_of_mem hl
        obtain ⟨i, hi⟩ := List.mem_iff_getElem?.mp hmem
        refine ⟨fun req hreq => ⟨fun h => ?_, fun h => ?_⟩, fun k hk => ?_⟩
        · exact hnone _ (.ofLine hline hv hi (.lineMissing hreq (.inl h)))
        · exact hnone _ (.ofLine hline hv hi (.lineMissing hreq (.inr h)))
        · by_contra h
          exact hnone _ (.ofLine hline hv hi (.lineUndeclared hk h))
    · by_contra h
      push Not at h
      exact hnone _ (.notMinorUnits hmoney hv hnull h)

/-- A record without a gap is mapped. -/
theorem apply_of_complete (hm : m.Plain) (hcomplete : m.Complete record) :
    ∃ out, m.apply record = .ok out ∧ m.Maps record out := by
  obtain ⟨out, hok, -⟩ := apply_collects hm hcomplete.money
  refine ⟨out, hok ?_⟩
  rw [List.eq_nil_iff_forall_not_mem]
  exact fun g hg => complete_iff.mp hcomplete g (mem_gapList.mp hg).1

/-- What is mapped has no gap. -/
theorem complete_of_apply (hm : m.Plain) {out : Obj} (h : m.apply record = .ok out) :
    m.Complete record := by
  have hmoney : m.MoneyIsInteger record := by
    intro f hf v hv hnull
    by_contra hint
    push Not at hint
    rw [apply_refused hm hf hv hnull hint] at h
    cases h
  obtain ⟨out', -, hblocked⟩ := apply_collects hm hmoney
  refine complete_iff.mpr fun g hg => ?_
  by_cases hcollected : ∃ f v, g = .notMinorUnits f v
  · obtain ⟨f, v, rfl⟩ := hcollected
    cases hg with
    | notMinorUnits hf hv hnull hint =>
      obtain ⟨n, rfl⟩ := hmoney f hf v hv hnull
      exact hint n rfl
    | ofLine _ _ _ h => cases h
  · push Not at hcollected
    have hmem := mem_gapList.mpr ⟨hg, hcollected⟩
    rw [hblocked (List.ne_nil_of_mem hmem)] at h
    cases h

/-- All gaps are reported where those found are all that the record has. -/
theorem surfacesAll_of_reports (hm : m.Plain) {e : ErpTransformError} (happly : m.apply record = .error e)
    {gaps : List Gap} (hnodup : gaps.Nodup) (hgaps : ∀ g : Gap, g ∈ gaps ↔ g.Of m record)
    (hreports : e.reports = gaps.map Gap.text) : m.SurfacesAll record := by
  intro e' he'
  obtain rfl : e = e' := Except.error.inj (happly.symm.trans he')
  refine ⟨⟨gaps, hnodup, hgaps, hreports⟩, fun fixed hfixed => ?_⟩
  have hcomplete : m.Complete fixed := by
    refine complete_iff.mpr fun g hg => ?_
    obtain ⟨hof, hnot⟩ := hfixed g hg
    rw [hreports] at hnot
    exact hnot (List.mem_map_of_mem ((hgaps g).mpr hof))
  obtain ⟨out, hout, -⟩ := apply_of_complete hm hcomplete
  exact ⟨out, hout⟩

end RecordMapping

/-! ## The reference mappings -/

theorem plain_of_mem {m : RecordMapping} (hm : m ∈ netsuiteRecordMappings) : m.Plain := by
  have hnomoney : ∀ {m : RecordMapping}, m.converters = [] → ∀ f f', m.IsMoney f → m.IsMoney f' → f = f' := by
    intro m hnil f f' hf
    have hlookup := hf.2
    rw [hnil] at hlookup
    cases hlookup
  have hlines : ∀ l ∈ [adjustmentLines, transferLines], l.Plain := by
    intro l hl
    rcases List.mem_pair.mp hl with rfl | rfl
    · exact ⟨rfl, by decide, by decide⟩
    · exact ⟨rfl, by decide, by decide⟩
  rcases List.mem_cons.mp hm with rfl | hm
  · refine ⟨by decide, by decide, by decide, nofun, ?_, ?_⟩
    · intro c hc
      obtain rfl := List.mem_singleton.mp hc
      rfl
    · have hname : ∀ f, itemMapping.IsMoney f → f = "unit_price_minor" := by
        intro f hf
        by_contra hne
        have hlookup := hf.2
        rw [itemMapping, Dict.lookup_cons, if_neg hne] at hlookup
        cases hlookup
      intro f f' hf hf'
      rw [hname f hf, hname f' hf']
  · rcases List.mem_pair.mp hm with rfl | rfl
    · refine ⟨by decide, by decide, by decide, ?_, nofun, hnomoney rfl⟩
      intro l hl
      obtain rfl := List.mem_singleton.mp hl
      exact hlines _ (by simp)
    · refine ⟨by decide, by decide, by decide, ?_, nofun, hnomoney rfl⟩
      intro l hl
      obtain rfl := List.mem_singleton.mp hl
      exact hlines _ (by simp)

/-- A record is mapped exactly if nothing is missing, undeclared or of the wrong kind, and then each
field that is carried, each line in its place, and nothing else is in the payload. -/
theorem record_mapping_complete (m : RecordMapping) (hm : m ∈ netsuiteRecordMappings) (record : Obj) :
    ((∃ out, m.apply record = .ok out) ↔ m.Complete record) ∧
      (∀ out, m.apply record = .ok out → m.Maps record out) ∧
      m.targets.Nodup ∧ ∀ l ∈ m.lines, (l.2.fields.map Prod.snd).Nodup := by
  have hplain := plain_of_mem hm
  refine ⟨⟨?_, fun hcomplete => ?_⟩, fun out hout => ?_, hplain.targets_nodup,
    fun l hl => (hplain.lines_plain l hl).targets_nodup⟩
  · rintro ⟨out, hout⟩
    exact RecordMapping.complete_of_apply hplain hout
  · obtain ⟨out, hout, -⟩ := RecordMapping.apply_of_complete hplain hcomplete
    exact ⟨out, hout⟩
  · obtain ⟨out', hout', hmaps⟩ :=
      RecordMapping.apply_of_complete hplain (RecordMapping.complete_of_apply hplain hout)
    obtain rfl := Except.ok.inj (hout.symm.trans hout')
    exact hmaps

theorem record_mapping_complete_item :
    ((∃ out, itemMapping.apply [("sku", .str "WHEY-1"), ("name", .str "Whey"),
        ("unit_price_minor", .int 1499)] = .ok out) ↔
      itemMapping.Complete [("sku", .str "WHEY-1"), ("name", .str "Whey"),
        ("unit_price_minor", .int 1499)]) :=
  (record_mapping_complete itemMapping List.mem_cons_self _).1

/-- All gaps surface in one pass exactly if no amount of money is refused, or nothing else is wrong. -/
theorem gaps_surface_iff (m : RecordMapping) (hm : m ∈ netsuiteRecordMappings) (record : Obj) :
    m.SurfacesAll record ↔ m.MoneyIsInteger record ∨ m.OnlyMoneyGaps record := by
  have hplain := plain_of_mem hm
  by_cases hmoney : m.MoneyIsInteger record
  · refine ⟨fun _ => .inl hmoney, fun _ => ?_⟩
    obtain ⟨out, hok, hblocked⟩ := RecordMapping.apply_collects hplain hmoney
    by_cases hnil : m.gapList record = []
    · intro e he
      rw [(hok hnil).1] at he
      cases he
    · refine RecordMapping.surfacesAll_of_reports hplain (hblocked hnil)
        (RecordMapping.gapList_nodup hplain record) (fun g => ?_) rfl
      rw [RecordMapping.mem_gapList]
      refine ⟨And.left, fun hg => ⟨hg, ?_⟩⟩
      rintro f v rfl
      cases hg with
      | notMinorUnits hf hv hnull hint =>
        obtain ⟨n, rfl⟩ := hmoney f hf v hv hnull
        exact hint n rfl
      | ofLine _ _ _ h => cases h
  · obtain ⟨f, hf, v, hv, hnull, hint⟩ : ∃ f, m.IsMoney f ∧ ∃ v, record.get? f = some v ∧
        v ≠ .null ∧ ∀ n, v ≠ .int n := by
      unfold RecordMapping.MoneyIsInteger at hmoney
      push Not at hmoney
      obtain ⟨f, hf, v, hv, hnull, hint⟩ := hmoney
      exact ⟨f, hf, v, hv, hnull, hint⟩
    have happly := RecordMapping.apply_refused hplain hf hv hnull hint
    have hgap : (Gap.notMinorUnits f v).Of m record := .notMinorUnits hf hv hnull hint
    constructor
    · intro hsurfaces
      obtain ⟨⟨gaps, -, hgaps, hreports⟩, -⟩ := hsurfaces _ happly
      -- there is one report, so there is one gap
      obtain ⟨g, rfl, -⟩ := List.map_eq_singleton_iff.mp hreports.symm
      obtain rfl := List.mem_singleton.mp ((hgaps _).mpr hgap)
      exact .inr fun g hg => ⟨f, v, List.mem_singleton.mp ((hgaps g).mpr hg)⟩
    · intro honly
      refine RecordMapping.surfacesAll_of_reports hplain happly
        (List.nodup_singleton (Gap.notMinorUnits f v)) (fun g => ?_) rfl
      constructor
      · intro hg
        rw [List.mem_singleton.mp hg]
        exact hgap
      · intro hg
        obtain ⟨f', v', rfl⟩ := (honly.resolve_left hmoney) g hg
        cases hg with
        | notMinorUnits hf' hv' =>
          obtain rfl := hplain.money_unique _ _ hf' hf
          obtain rfl := Option.some.inj (hv'.symm.trans hv)
          exact List.mem_singleton_self _
        | ofLine _ _ _ h => cases h

theorem gaps_surface_iff_item :
    itemMapping.SurfacesAll [("sku", .str "WHEY-1"), ("unit_price_minor", .int 1499)] ↔
      itemMapping.MoneyIsInteger [("sku", .str "WHEY-1"), ("unit_price_minor", .int 1499)] ∨
        itemMapping.OnlyMoneyGaps [("sku", .str "WHEY-1"), ("unit_price_minor", .int 1499)] :=
  gaps_surface_iff itemMapping List.mem_cons_self _

/-- The price is refused before it is said that the item has no number and no name. -/
theorem gaps_hidden_by_money :
    ¬ ∀ m ∈ netsuiteRecordMappings, ∀ record : Obj, m.SurfacesAll record := by
  intro h
  obtain ⟨⟨gaps, -, hgaps, hreports⟩, -⟩ :=
    h itemMapping List.mem_cons_self [("unit_price_minor", .str "14.99")] _ rfl
  obtain ⟨g, rfl, -⟩ := List.map_eq_singleton_iff.mp hreports.symm
  have hsku := List.mem_singleton.mp ((hgaps (.missing "sku")).mpr (.missing (by decide) (.inl rfl)))
  have hname := List.mem_singleton.mp ((hgaps (.missing "name")).mpr (.missing (by decide) (.inl rfl)))
  have hsame : Gap.missing "name" = Gap.missing "sku" := hname.trans hsku.symm
  exact absurd hsame (by decide)

end CaviErp
