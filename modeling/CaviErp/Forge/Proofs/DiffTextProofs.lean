import CaviErp.Forge.Proofs.DiffProofs
import CaviErp.Lib.Proofs.ScanProofs

/-!
# What the text of a diff determines

A line of a diff is a sign, a key as it stands and a value in JSON. The value ends at the end of its line,
so what can be taken in two ways is where a key ends: a key that holds a newline can go on over lines that
another diff has. Without such keys the text determines the changes.
-/

namespace CaviErp

open Py Py.JsonText

/-! ## One line -/

/-- A line of a diff. -/
structure DiffLine where
  sign : Char
  field : List Char
  value : Json

namespace DiffLine

/-- What comes after the sign. -/
def item (l : DiffLine) : List Char := l.field ++ ':' :: ' ' :: dumpChars .canonical l.value

def chars (l : DiffLine) : List Char := l.sign :: ' ' :: l.item

/-- The rest of a text after one of its lines. -/
def rest : List DiffLine → List Char
  | [] => []
  | l :: ls => '\n' :: (l.chars ++ rest ls)

/-- The lines of a diff start with a plus or a minus. -/
def Signed (ls : List DiffLine) : Prop := ∀ l ∈ ls, l.sign = '+' ∨ l.sign = '-'

/-- The key of `l'` goes on, after the text of `l`, with the start of another line. -/
def Imitated (l l' : DiffLine) : Prop :=
  ∃ sign t, (sign = '+' ∨ sign = '-') ∧ l'.field = l.item ++ '\n' :: sign :: ' ' :: t

theorem intercalate_chars (l : DiffLine) (ls : List DiffLine) :
    ['\n'].intercalate ((l :: ls).map chars) = l.chars ++ rest ls := by
  induction ls generalizing l with
  | nil => simp [rest]
  | cons l' ls ih =>
    have hrest := ih l'
    rw [List.map_cons] at hrest
    rw [List.map_cons, List.map_cons, List.intercalate_cons_cons, hrest, rest]
    simp

theorem rest_cases (ls : List DiffLine) : rest ls = [] ∨ ∃ t, rest ls = '\n' :: t := by
  cases ls with
  | nil => exact .inl rfl
  | cons l ls => exact .inr ⟨_, rfl⟩

end DiffLine

/-- Two texts without newlines, each at the end or before a newline. -/
theorem cut_at_newline {a b r s : List Char} (ha : '\n' ∉ a) (hb : '\n' ∉ b)
    (hr : r = [] ∨ ∃ t, r = '\n' :: t) (hs : s = [] ∨ ∃ t, s = '\n' :: t) (h : a ++ r = b ++ s) :
    a = b ∧ r = s := by
  have hcut : ∀ {a b r s : List Char}, '\n' ∉ b → (r = [] ∨ ∃ t, r = '\n' :: t) →
      ∀ m, b = a ++ m → r = m ++ s → m = [] := by
    intro a b r s hb hr m hbm hrm
    rcases m with _ | ⟨c, m⟩
    · rfl
    · rcases hr with rfl | ⟨t, rfl⟩
      · cases hrm
      · obtain ⟨rfl, -⟩ := List.cons.inj hrm
        exact absurd (hbm ▸ by simp) hb
  rcases List.append_eq_append_iff.mp h with ⟨m, hbm, hrm⟩ | ⟨m, ham, hsm⟩
  · obtain rfl := hcut hb hr m hbm hrm
    exact ⟨by simpa using hbm.symm, by simpa using hrm⟩
  · obtain rfl := hcut ha hs m ham hsm
    exact ⟨by simpa using ham, by simpa using hsm.symm⟩

/-- A text of a key and a value in which the key ends elsewhere, later than in `l`. -/
theorem DiffLine.later_key {l : DiffLine} {ls : List DiffLine} (hls : Signed ls) {m : List Char}
    (hm : m ≠ []) {w : Json} {r : List Char} (hr : r = [] ∨ ∃ t, r = '\n' :: t)
    (h : ':' :: ' ' :: (dumpChars .canonical l.value ++ rest ls) =
      m ++ ':' :: ' ' :: (dumpChars .canonical w ++ r)) :
    ∃ sign t, (sign = '+' ∨ sign = '-') ∧
      m = ':' :: ' ' :: (dumpChars .canonical l.value ++ '\n' :: sign :: ' ' :: t) := by
  have hv := scan_no_newline (scan_canonical l.value)
  have hw := scan_no_newline (scan_canonical w)
  rcases m with _ | ⟨c, _ | ⟨d, m⟩⟩
  · exact absurd rfl hm
  · -- the separator cannot start with a blank
    simp at h
  simp only [List.cons_append, List.cons.injEq] at h
  obtain ⟨rfl, rfl, h⟩ := h
  rcases List.append_eq_append_iff.mp h with ⟨n, hm', hrest⟩ | ⟨n, hvalue, hr'⟩
  · -- the longer key takes in the value and more
    rcases ls with _ | ⟨l', ls⟩
    · cases n <;> simp [rest] at hrest
    · have hsign := hls l' List.mem_cons_self
      rcases n with _ | ⟨a, _ | ⟨b, _ | ⟨e, n⟩⟩⟩
      · simp [rest] at hrest
      · obtain ⟨-, hrest⟩ := List.cons.inj hrest
        obtain ⟨hcolon, -⟩ := List.cons.inj hrest
        rw [hcolon] at hsign
        rcases hsign with hsign | hsign <;> exact absurd hsign (by decide)
      · simp [rest, chars] at hrest
      · simp only [rest, chars, List.cons_append, List.cons.injEq] at hrest
        obtain ⟨rfl, rfl, rfl, -⟩ := hrest
        exact ⟨l'.sign, n, hsign, by rw [hm']⟩
  · -- the longer key ends inside of the value, which then ends in another value
    rcases n with _ | ⟨a, _ | ⟨b, n⟩⟩
    · rcases rest_cases ls with hnil | ⟨t, ht⟩
      · simp [hnil] at hr'
      · simp [ht] at hr'
    · obtain ⟨-, hr'⟩ := List.cons.inj hr'
      rcases rest_cases ls with hnil | ⟨t, ht⟩
      · simp [hnil] at hr'
      · simp [ht] at hr'
    · simp only [List.cons_append, List.cons.injEq] at hr'
      obtain ⟨rfl, rfl, hr'⟩ := hr'
      have hn : '\n' ∉ n := fun hmem => hv (hvalue ▸ by simp [hmem])
      obtain ⟨rfl, -⟩ := cut_at_newline hw hn hr (rest_cases ls) hr'
      have hsuffix : dumpChars .canonical l.value = (m ++ [':']) ++ ' ' :: dumpChars .canonical w := by
        rw [hvalue]
        simp
      exact absurd hsuffix canonical_ne_append

/-- Two lines that start one text have one key, unless a key of one goes on over the other line. -/
theorem DiffLine.field_cases {l l' : DiffLine} {ls ls' : List DiffLine} (hls : Signed ls)
    (hls' : Signed ls') (h : l.item ++ rest ls = l'.item ++ rest ls') :
    l.field = l'.field ∨ Imitated l l' ∨ Imitated l' l := by
  unfold item at h
  rw [List.append_assoc, List.append_assoc] at h
  rcases List.append_eq_append_iff.mp h with ⟨m, hfield, hm⟩ | ⟨m, hfield, hm⟩
  · by_cases hnil : m = []
    · left
      rw [hfield, hnil, List.append_nil]
    · obtain ⟨sign, t, hsign, rfl⟩ := later_key hls hnil (rest_cases ls') hm
      refine .inr (.inl ⟨sign, t, hsign, ?_⟩)
      rw [hfield, item]
      simp
  · by_cases hnil : m = []
    · left
      rw [hfield, hnil, List.append_nil]
    · obtain ⟨sign, t, hsign, rfl⟩ := later_key hls' hnil (rest_cases ls) hm
      refine .inr (.inr ⟨sign, t, hsign, ?_⟩)
      rw [hfield, item]
      simp

/-- With one key, they have one value. -/
theorem DiffLine.value_eq {l l' : DiffLine} {ls ls' : List DiffLine} (hfield : l.field = l'.field)
    (h : l.item ++ rest ls = l'.item ++ rest ls') :
    dumpChars .canonical l.value = dumpChars .canonical l'.value ∧ rest ls = rest ls' := by
  unfold item at h
  rw [hfield, List.append_assoc, List.append_assoc] at h
  have hvalues := List.append_cancel_left h
  simp only [List.cons_append, List.cons.injEq, true_and] at hvalues
  exact cut_at_newline (scan_no_newline (scan_canonical l.value))
    (scan_no_newline (scan_canonical l'.value)) (rest_cases ls) (rest_cases ls') hvalues

theorem DiffLine.rest_cons {l l' : DiffLine} {ls ls' : List DiffLine}
    (h : rest (l :: ls) = rest (l' :: ls')) :
    l.sign = l'.sign ∧ l.item ++ rest ls = l'.item ++ rest ls' := by
  simpa [rest, chars] using h

/-! ## The lines of a change -/

theorem sameJson_of_text {v w : Json} (h : dumpChars .canonical v = dumpChars .canonical w) :
    SameJson v w := by
  have hv := loads_canonical v
  have hw := loads_canonical w
  have htext : dumps .canonical v = dumps .canonical w := congrArg String.ofList h
  rw [htext, hw] at hv
  exact (Option.some.inj hv).symm

namespace FieldChange

variable {ch ch' : FieldChange}

theorem Same.symm (h : Same ch ch') : Same ch' ch where
  field := h.field.symm
  old := by
    have hold := h.old
    cases ho : ch.old with
    | none =>
      cases ho' : ch'.old with
      | none => exact .none
      | some old' =>
        rw [ho, ho'] at hold
        cases hold
    | some old =>
      cases ho' : ch'.old with
      | none =>
        rw [ho, ho'] at hold
        cases hold
      | some old' =>
        rw [ho, ho', Option.rel_some_some] at hold
        exact .some hold.symm
  new := h.new.symm

def diffLines (ch : FieldChange) : List DiffLine :=
  match ch.old with
  | none => [⟨'+', ch.field.toList, ch.new⟩]
  | some old => [⟨'-', ch.field.toList, old⟩, ⟨'+', ch.field.toList, ch.new⟩]

theorem lines_toList (ch : FieldChange) :
    ch.lines.map String.toList = ch.diffLines.map DiffLine.chars := by
  have hsep : (": " : String).toList = [':', ' '] := rfl
  have hplus : ("+ " : String).toList = ['+', ' '] := rfl
  have hminus : ("- " : String).toList = ['-', ' '] := rfl
  unfold lines diffLines
  cases ch.old with
  | none => simp [addition, fmt, dumps, DiffLine.chars, DiffLine.item, hsep, hplus]
  | some old =>
    simp [addition, removal, fmt, dumps, DiffLine.chars, DiffLine.item, hsep, hplus, hminus]

theorem mem_diffLines {l : DiffLine} (hl : l ∈ ch.diffLines) : l.sign = '+' ∨ l.sign = '-' := by
  unfold diffLines at hl
  cases ho : ch.old with
  | none =>
    rw [ho, List.mem_singleton] at hl
    exact .inl (congrArg DiffLine.sign hl)
  | some old =>
    rw [ho, List.mem_pair] at hl
    rcases hl with rfl | rfl
    · exact .inr rfl
    · exact .inl rfl

/-- A key that goes on over the first line of the other change. -/
theorem imitated_of_line {l l' : DiffLine} (hitem : l.item = (ch.field ++ ": " ++ fmt ch.firstValue).toList)
    (hfield : l'.field = ch'.field.toList) (h : DiffLine.Imitated l l') : Imitated ch ch' := by
  obtain ⟨sign, t, hsign, h⟩ := h
  refine ⟨String.ofList t, ?_⟩
  rw [hfield, hitem] at h
  rcases hsign with rfl | rfl
  · left
    refine String.toList_inj.mp (h.trans ?_)
    simp
  · right
    refine String.toList_inj.mp (h.trans ?_)
    simp

theorem item_first {sign : Char} {v : Json} (h : ch.firstValue = v) :
    (⟨sign, ch.field.toList, v⟩ : DiffLine).item = (ch.field ++ ": " ++ fmt ch.firstValue).toList := by
  have hsep : (": " : String).toList = [':', ' '] := rfl
  simp [DiffLine.item, fmt, dumps, hsep, h]

/-- The first changes of two diffs with one text are the same, unless one imitates the other. -/
theorem same_or_imitated {ls ls' : List DiffLine} (hls : DiffLine.Signed ls) (hls' : DiffLine.Signed ls')
    (h : DiffLine.rest (ch.diffLines ++ ls) = DiffLine.rest (ch'.diffLines ++ ls')) :
    (Same ch ch' ∧ DiffLine.rest ls = DiffLine.rest ls') ∨ Imitated ch ch' ∨ Imitated ch' ch := by
  unfold diffLines at h
  cases ho : ch.old with
  | none =>
    have hfirst : ch.firstValue = ch.new := by rw [firstValue, ho, Option.getD_none]
    cases ho' : ch'.old with
    | none =>
      have hfirst' : ch'.firstValue = ch'.new := by rw [firstValue, ho', Option.getD_none]
      rw [ho, ho'] at h
      obtain ⟨-, hitem⟩ := DiffLine.rest_cons h
      rcases DiffLine.field_cases hls hls' hitem with hfield | him | him
      · obtain ⟨hnew, hrest⟩ := DiffLine.value_eq hfield hitem
        refine .inl ⟨⟨String.toList_inj.mp hfield, ?_, sameJson_of_text hnew⟩, hrest⟩
        rw [ho, ho']
        exact .none
      · exact .inr (.inl (imitated_of_line (item_first hfirst) rfl him))
      · exact .inr (.inr (imitated_of_line (item_first hfirst') rfl him))
    | some old' =>
      rw [ho, ho'] at h
      have hsign : '+' = '-' := (DiffLine.rest_cons h).1
      exact absurd hsign (by decide)
  | some old =>
    have hfirst : ch.firstValue = old := by rw [firstValue, ho, Option.getD_some]
    cases ho' : ch'.old with
    | none =>
      rw [ho, ho'] at h
      have hsign : '-' = '+' := (DiffLine.rest_cons h).1
      exact absurd hsign (by decide)
    | some old' =>
      have hfirst' : ch'.firstValue = old' := by rw [firstValue, ho', Option.getD_some]
      rw [ho, ho'] at h
      obtain ⟨-, hitem⟩ := DiffLine.rest_cons h
      have hsecond : DiffLine.Signed (⟨'+', ch.field.toList, ch.new⟩ :: ls) :=
        List.forall_mem_cons.mpr ⟨.inl rfl, hls⟩
      have hsecond' : DiffLine.Signed (⟨'+', ch'.field.toList, ch'.new⟩ :: ls') :=
        List.forall_mem_cons.mpr ⟨.inl rfl, hls'⟩
      rcases DiffLine.field_cases hsecond hsecond' hitem with hfield | him | him
      · obtain ⟨hold, hrest⟩ := DiffLine.value_eq hfield hitem
        -- the addition after it has the same key
        obtain ⟨-, hitem'⟩ := DiffLine.rest_cons hrest
        have hfield' : ch.field.toList = ch'.field.toList := hfield
        obtain ⟨hnew, hrest'⟩ := DiffLine.value_eq hfield' hitem'
        refine .inl ⟨⟨String.toList_inj.mp hfield', ?_, sameJson_of_text hnew⟩, hrest'⟩
        rw [ho, ho']
        exact .some (sameJson_of_text hold)
      · exact .inr (.inl (imitated_of_line (item_first hfirst) rfl him))
      · exact .inr (.inr (imitated_of_line (item_first hfirst') rfl him))

end FieldChange

theorem signed_lines (chs : List FieldChange) : DiffLine.Signed (chs.flatMap FieldChange.diffLines) := by
  intro l hl
  obtain ⟨ch, -, hl⟩ := List.mem_flatMap.mp hl
  exact FieldChange.mem_diffLines hl

theorem Imitates.cons {chs chs' : List FieldChange} {ch ch' : FieldChange} (hsame : ch.Same ch')
    (h : Imitates chs chs') : Imitates (ch :: chs) (ch' :: chs') := by
  obtain ⟨before, before', c, c', after, after', rfl, rfl, hbefore, him⟩ := h
  exact ⟨ch :: before, ch' :: before', c, c', after, after', rfl, rfl, .cons hsame hbefore, him⟩

/-- The lines of the changes determine the changes, up to a place where one imitates the other. -/
theorem changes_same_or_imitate {chs chs' : List FieldChange}
    (h : DiffLine.rest (chs.flatMap FieldChange.diffLines) =
      DiffLine.rest (chs'.flatMap FieldChange.diffLines)) :
    List.Forall₂ FieldChange.Same chs chs' ∨ Imitates chs chs' ∨ Imitates chs' chs := by
  have hne : ∀ (ch : FieldChange) (ls : List DiffLine), DiffLine.rest (ch.diffLines ++ ls) ≠ [] := by
    intro ch ls
    unfold FieldChange.diffLines
    cases ch.old with
    | none => exact List.cons_ne_nil _ _
    | some old => exact List.cons_ne_nil _ _
  induction chs generalizing chs' with
  | nil =>
    cases chs' with
    | nil => exact .inl .nil
    | cons ch' chs' => exact absurd h.symm (hne ch' _)
  | cons ch chs ih =>
    cases chs' with
    | nil => exact absurd h (hne ch _)
    | cons ch' chs' =>
      rw [List.flatMap_cons, List.flatMap_cons] at h
      rcases FieldChange.same_or_imitated (signed_lines chs) (signed_lines chs') h with
        ⟨hsame, hrest⟩ | him | him
      · rcases ih hrest with hall | him | him
        · exact .inl (.cons hsame hall)
        · exact .inr (.inl (him.cons hsame))
        · exact .inr (.inr (him.cons hsame.symm))
      · exact .inr (.inl ⟨[], [], ch, ch', chs, chs', rfl, rfl, .nil, him⟩)
      · exact .inr (.inr ⟨[], [], ch', ch, chs', chs, rfl, rfl, .nil, him⟩)

/-! ## The whole text -/

theorem flatMap_lines_toList (chs : List FieldChange) :
    (chs.flatMap FieldChange.lines).map String.toList =
      (chs.flatMap FieldChange.diffLines).map DiffLine.chars := by
  rw [List.map_flatMap, List.map_flatMap]
  exact List.flatMap_congr fun ch _ => ch.lines_toList

/-- The body of a diff after the newline of the header. -/
theorem body_toList {before : Option Obj} {op : WriteOperation}
    (h : changes (before.getD []) op.payload ≠ []) :
    '\n' :: (("\n".intercalate (diffBody before op)).toList) =
      DiffLine.rest ((changes (before.getD []) op.payload).flatMap FieldChange.diffLines) := by
  rw [String.toList_intercalate, diffBody, if_neg h, flatMap_lines_toList]
  cases hlines : (changes (before.getD []) op.payload).flatMap FieldChange.diffLines with
  | nil =>
    have hnil := flatMap_lines_toList (changes (before.getD []) op.payload)
    rw [hlines, List.map_nil, List.map_eq_nil_iff, lines_eq_nil_iff] at hnil
    exact absurd hnil h
  | cons l ls => exact congrArg ('\n' :: ·) (DiffLine.intercalate_chars l ls)

/-- The two operations have one platform, module, name and address, and so one header but for its
mention of the record. -/
structure SameTarget (op op' : WriteOperation) : Prop where
  platform : op.erpPlatform = op'.erpPlatform
  targetModule : op.targetModule = op'.targetModule
  operation : op.operation = op'.operation
  address : op.erpAddress = op'.erpAddress

theorem SameTarget.body_eq {before before' : Option Obj} {op op' : WriteOperation}
    (h : SameTarget op op') (htext : renderDiff before op = renderDiff before' op') :
    "\n".intercalate (diffBody before op) = "\n".intercalate (diffBody before' op') := by
  have hne : ∀ (b : Option Obj) (o : WriteOperation), diffBody b o ≠ [] := by
    intro b o
    unfold diffBody
    by_cases hnil : changes (b.getD []) o.payload = []
    · rw [if_pos hnil]
      simp
    · rw [if_neg hnil]
      exact mt lines_eq_nil_iff.mp hnil
  rw [renderDiff_eq, renderDiff_eq, String.intercalate_cons_of_ne_nil (hne _ _),
    String.intercalate_cons_of_ne_nil (hne _ _)] at htext
  unfold diffHeader at htext
  rw [h.platform, h.targetModule, h.operation, h.address] at htext
  simp only [String.append_assoc, String.append_right_inj] at htext
  cases hb : before.isSome with
  | true =>
    cases hb' : before'.isSome with
    | true => simpa [hb, hb'] using htext
    | false =>
      have hfirst := congrArg (fun s : String => s.toList.head?) htext
      simp [hb, hb'] at hfirst
  | false =>
    cases hb' : before'.isSome with
    | true =>
      have hfirst := congrArg (fun s : String => s.toList.head?) htext
      simp [hb, hb'] at hfirst
    | false => simpa [hb, hb'] using htext

/-- The line for no changes does not start like a line of a change. -/
theorem body_none_ne {before before' : Option Obj} {op op' : WriteOperation}
    (h : changes (before.getD []) op.payload = []) (h' : changes (before'.getD []) op'.payload ≠ []) :
    "\n".intercalate (diffBody before op) ≠ "\n".intercalate (diffBody before' op') := by
  intro heq
  have hrest := body_toList h'
  rw [← heq, diffBody, if_pos h, String.intercalate_singleton] at hrest
  cases hlines : (changes (before'.getD []) op'.payload).flatMap FieldChange.diffLines with
  | nil =>
    rw [hlines] at hrest
    cases hrest
  | cons l ls =>
    have hsign := signed_lines (changes (before'.getD []) op'.payload) l (hlines ▸ List.mem_cons_self)
    rw [hlines, DiffLine.rest] at hrest
    have hfirst : some '(' = some l.sign := congrArg (fun cs : List Char => cs.tail.head?) hrest
    obtain hparen := Option.some.inj hfirst
    rcases hsign with hsign | hsign
    · exact absurd (hparen.trans hsign) (by decide)
    · exact absurd (hparen.trans hsign) (by decide)

theorem changes_same_or_imitate_of_text {before before' : Option Obj} {op op' : WriteOperation}
    (h : SameTarget op op') (htext : renderDiff before op = renderDiff before' op') :
    List.Forall₂ FieldChange.Same (changes (before.getD []) op.payload)
        (changes (before'.getD []) op'.payload) ∨
      Imitates (changes (before.getD []) op.payload) (changes (before'.getD []) op'.payload) ∨
      Imitates (changes (before'.getD []) op'.payload) (changes (before.getD []) op.payload) := by
  have hbody := h.body_eq htext
  by_cases hnil : changes (before.getD []) op.payload = []
  · by_cases hnil' : changes (before'.getD []) op'.payload = []
    · rw [hnil, hnil']
      exact .inl .nil
    · exact absurd hbody (body_none_ne hnil hnil')
  · by_cases hnil' : changes (before'.getD []) op'.payload = []
    · exact absurd hbody.symm (body_none_ne hnil' hnil)
    · have hrest := body_toList hnil
      rw [hbody, body_toList hnil'] at hrest
      exact changes_same_or_imitate hrest.symm

/-! ## The change that is made -/

theorem assigned_same {chs chs' : List FieldChange} (h : List.Forall₂ FieldChange.Same chs chs')
    (k : String) : Option.Rel SameJson (assigned chs k) (assigned chs' k) := by
  unfold assigned
  induction h with
  | nil => exact .none
  | @cons ch ch' chs chs' hsame _ ih =>
    by_cases hk : ch.field = k
    · have hk' : ch'.field = k := hsame.field.symm.trans hk
      rw [List.find?_cons_of_pos (by simpa using hk), List.find?_cons_of_pos (by simpa using hk')]
      exact .some hsame.new
    · have hk' : ¬ ch'.field = k := fun heq => hk (hsame.field.trans heq)
      rw [List.find?_cons_of_neg (by simpa using hk), List.find?_cons_of_neg (by simpa using hk')]
      exact ih

theorem exists_same {chs chs' : List FieldChange} (h : List.Forall₂ FieldChange.Same chs chs')
    {ch : FieldChange} (hch : ch ∈ chs) : ∃ ch' ∈ chs', FieldChange.Same ch ch' := by
  induction h with
  | nil => cases hch
  | cons hsame _ ih =>
    rcases List.mem_cons.mp hch with rfl | hch
    · exact ⟨_, List.mem_cons_self, hsame⟩
    · obtain ⟨ch', hmem, hsame'⟩ := ih hch
      exact ⟨ch', List.mem_cons_of_mem _ hmem, hsame'⟩

theorem sameEffect_of_changes {current payload current' payload' : Obj} (hkeys : payload.keys.Nodup)
    (hkeys' : payload'.keys.Nodup)
    (h : List.Forall₂ FieldChange.Same (changes current payload) (changes current' payload')) :
    SameEffect current payload current' payload' := by
  intro k
  rw [← assigned_changes hkeys, ← assigned_changes hkeys']
  refine ⟨assigned_same h k, fun hne => ?_⟩
  obtain ⟨v, hv⟩ := Option.ne_none_iff_exists'.mp hne
  obtain ⟨ch, hch, rfl, -⟩ := (assigned_eq_some ((changes_sorted hkeys).imp ne_of_lt)).mp hv
  obtain ⟨ch', hch', hsame⟩ := exists_same h hch
  obtain ⟨-, hold, -⟩ := (mem_changes hkeys).mp hch
  obtain ⟨-, hold', -⟩ := (mem_changes hkeys').mp hch'
  have hrel := hsame.old
  rw [hold, hold', ← hsame.field] at hrel
  exact hrel

theorem mem_fields_iff {current payload : Obj} (hkeys : payload.keys.Nodup) (k : String) :
    k ∈ (changes current payload).map FieldChange.field ↔
      Upsert.Record.delta Json.pyEq current.get? payload.get? k ≠ none := by
  rw [← assigned_changes hkeys, List.mem_map, Option.ne_none_iff_exists']
  constructor
  · rintro ⟨ch, hch, rfl⟩
    exact ⟨ch.new, (assigned_eq_some ((changes_sorted hkeys).imp ne_of_lt)).mpr ⟨ch, hch, rfl, rfl⟩⟩
  · rintro ⟨v, hv⟩
    obtain ⟨ch, hch, hfield, -⟩ := (assigned_eq_some ((changes_sorted hkeys).imp ne_of_lt)).mp hv
    exact ⟨ch, hch, hfield⟩

theorem SameEffect.fields {current payload current' payload' : Obj} (hkeys : payload.keys.Nodup)
    (hkeys' : payload'.keys.Nodup) (h : SameEffect current payload current' payload') (k : String) :
    k ∈ (changes current payload).map FieldChange.field ↔
      k ∈ (changes current' payload').map FieldChange.field := by
  rw [mem_fields_iff hkeys, mem_fields_iff hkeys']
  obtain ⟨hrel, -⟩ := h k
  cases hleft : Upsert.Record.delta Json.pyEq current.get? payload.get? k with
  | none =>
    cases hright : Upsert.Record.delta Json.pyEq current'.get? payload'.get? k with
    | none => exact Iff.rfl
    | some v =>
      rw [hleft, hright] at hrel
      cases hrel
  | some v =>
    cases hright : Upsert.Record.delta Json.pyEq current'.get? payload'.get? k with
    | none =>
      rw [hleft, hright] at hrel
      cases hrel
    | some w => simp

theorem fields_eq {chs chs' : List FieldChange} (h : List.Forall₂ FieldChange.Same chs chs') :
    chs.map FieldChange.field = chs'.map FieldChange.field := by
  induction h with
  | nil => rfl
  | cons hsame _ ih => rw [List.map_cons, List.map_cons, hsame.field, ih]

theorem FieldChange.Imitated.lt {ch ch' : FieldChange} (h : Imitated ch ch') : ch.field < ch'.field := by
  obtain ⟨t, ht, hfield⟩ : ∃ t, t ≠ "" ∧ ch'.field = ch.field ++ t := by
    obtain ⟨t, h | h⟩ := h
    · exact ⟨": " ++ fmt ch.firstValue ++ "\n+ " ++ t, by simp [String.append_assoc],
        by rw [h]; simp only [String.append_assoc]⟩
    · exact ⟨": " ++ fmt ch.firstValue ++ "\n- " ++ t, by simp [String.append_assoc],
        by rw [h]; simp only [String.append_assoc]⟩
  rw [String.lt_iff_toList_lt, hfield, String.toList_append]
  cases hrest : t.toList with
  | nil => exact absurd (String.toList_eq_nil_iff.mp hrest) ht
  | cons c cs =>
    have hlex : List.Lex (· < ·) (ch.field.toList ++ []) (ch.field.toList ++ c :: cs) :=
      List.Lex.append_left _ List.Lex.nil ch.field.toList
    rw [List.append_nil] at hlex
    exact (List.lt_iff_lex_lt _ _).mpr hlex

/-- The field whose line is imitated is not among the fields of the other list. -/
theorem Imitates.field_not_mem {chs chs' : List FieldChange}
    (hsorted : (chs.map FieldChange.field).Pairwise (· < ·))
    (hsorted' : (chs'.map FieldChange.field).Pairwise (· < ·)) (h : Imitates chs chs') :
    ∃ k ∈ chs.map FieldChange.field, k ∉ chs'.map FieldChange.field := by
  obtain ⟨before, before', ch, ch', after, after', rfl, rfl, hbefore, him⟩ := h
  refine ⟨ch.field, List.mem_map_of_mem (by simp), fun hmem => ?_⟩
  rw [List.map_append, List.map_cons, List.pairwise_append] at hsorted hsorted'
  obtain ⟨-, -, hlt⟩ := hsorted
  obtain ⟨-, hafter, -⟩ := hsorted'
  rw [List.map_append, List.map_cons, List.mem_append, List.mem_cons, ← fields_eq hbefore] at hmem
  rcases hmem with hmem | hmem | hmem
  · exact lt_irrefl _ (hlt _ hmem _ List.mem_cons_self)
  · exact absurd hmem him.lt.ne
  · exact lt_asymm him.lt ((List.pairwise_cons.mp hafter).1 _ hmem)

/-- **What a reviewer signs off is what is changed, unless a key imitates a line.** Two operations on one
target, each with any record before it, whose diffs are the same text: the upserts assign the same
fields, from the same values to the same values, if and only if at the place where the lists of changes
part no field of one is named like the line of the other, a newline and the start of a further line. -/
theorem same_effect_iff_no_imitation (before before' : Option Obj) (op op' : WriteOperation)
    (hkeys : op.payload.keys.Nodup) (hkeys' : op'.payload.keys.Nodup) (htarget : SameTarget op op')
    (htext : renderDiff before op = renderDiff before' op') :
    SameEffect (before.getD []) op.payload (before'.getD []) op'.payload ↔
      ¬ Imitates (changes (before.getD []) op.payload) (changes (before'.getD []) op'.payload) ∧
        ¬ Imitates (changes (before'.getD []) op'.payload) (changes (before.getD []) op.payload) := by
  constructor
  · intro heffect
    constructor
    · intro him
      obtain ⟨k, hmem, hnot⟩ := him.field_not_mem (changes_sorted hkeys) (changes_sorted hkeys')
      exact hnot ((heffect.fields hkeys hkeys' k).mp hmem)
    · intro him
      obtain ⟨k, hmem, hnot⟩ := him.field_not_mem (changes_sorted hkeys') (changes_sorted hkeys)
      exact hnot ((heffect.fields hkeys hkeys' k).mpr hmem)
  · rintro ⟨hno, hno'⟩
    rcases changes_same_or_imitate_of_text htarget htext with hsame | him | him
    · exact sameEffect_of_changes hkeys hkeys' hsame
    · exact absurd him hno
    · exact absurd him hno'

/-! ## A key that imitates a line -/

theorem changes_singleton (k : String) (v : Json) : changes [] [(k, v)] = [⟨k, none, v⟩] := rfl

theorem changes_pair {k s : String} (h : k < s) (v w : Json) :
    changes [] [(k, v), (s, w)] = [⟨k, none, v⟩, ⟨s, none, w⟩] := by
  have horder : DumpStyle.canonical.order [(k, v), (s, w)] = [(k, v), (s, w)] := by
    show List.insertionSort (fun a b : String × Json => a.1 ≤ b.1) [(k, v), (s, w)] = _
    simp [h.le]
  unfold changes
  rw [horder]
  rfl

/-- The key of one addition that reads like two. -/
def imitating (k : String) (v : Json) (s : String) : String := k ++ ": " ++ fmt v ++ "\n+ " ++ s

theorem imitating_ne (k : String) (v : Json) (s : String) :
    imitating k v s ≠ k ∧ imitating k v s ≠ s := by
  have hlength : (imitating k v s).length = k.length + 2 + (fmt v).length + 3 + s.length := by
    unfold imitating
    simp only [String.length_append]
    rfl
  constructor
  · intro heq
    rw [heq] at hlength
    omega
  · intro heq
    rw [heq] at hlength
    omega

/-- Every key of this kind is confused with the two keys it is made of. -/
theorem imitating_key {k s : String} (h : k < s) (v w : Json) (op : WriteOperation) :
    renderDiff none { op with payload := [(k, v), (s, w)] } =
        renderDiff none { op with payload := [(imitating k v s, w)] } ∧
      ¬ SameEffect [] [(k, v), (s, w)] [] [(imitating k v s, w)] := by
  constructor
  · have haddress : ∀ payload, diffHeader none { op with payload } = diffHeader none op := fun _ => rfl
    have hnewline : ("\n+ " : String) = "\n" ++ "+ " := rfl
    rw [renderDiff_eq, renderDiff_eq]
    unfold diffBody
    simp only [Option.getD_none, changes_pair h, changes_singleton, haddress]
    simp only [FieldChange.lines, FieldChange.addition, imitating, List.flatMap_cons,
      List.flatMap_nil, List.cons_append, List.nil_append, reduceCtorEq, if_false,
      String.intercalate_cons_cons, String.intercalate_singleton, String.append_assoc]
    rw [hnewline, String.append_assoc]
  · intro heffect
    obtain ⟨hk, hs⟩ := imitating_ne k v s
    obtain ⟨hrel, -⟩ := heffect (imitating k v s)
    have hleft : Upsert.Record.delta Json.pyEq (Obj.get? []) (Obj.get? [(k, v), (s, w)])
        (imitating k v s) = none := by
      unfold Upsert.Record.delta Obj.get?
      rw [List.lookup_cons, beq_false_of_ne hk, List.lookup_cons, beq_false_of_ne hs]
      rfl
    have hright : Upsert.Record.delta Json.pyEq (Obj.get? []) (Obj.get? [(imitating k v s, w)])
        (imitating k v s) = some w := by
      unfold Upsert.Record.delta Obj.get?
      rw [List.lookup_cons_self]
      rfl
    rw [hleft, hright] at hrel
    cases hrel

/-- A write of one field whose name reads like two, and one of the two fields. -/
def oneFieldWrite : WriteOperation := { billWrite with payload := [("a: 1\n+ b", .int 2)] }

@[inherit_doc oneFieldWrite]
def twoFieldWrite : WriteOperation := { billWrite with payload := [("a", .int 1), ("b", .int 2)] }

/-- One text for two different changes. -/
theorem diff_text_ambiguous :
    SameTarget twoFieldWrite oneFieldWrite ∧
      renderDiff none twoFieldWrite = renderDiff none oneFieldWrite ∧
      ¬ SameEffect [] twoFieldWrite.payload [] oneFieldWrite.payload := by
  have hab : "a" < "b" := by decide
  have hkey : imitating "a" (.int 1) "b" = "a: 1\n+ b" := by decide +kernel
  have himitating := imitating_key hab (.int 1) (.int 2) billWrite
  rw [hkey] at himitating
  exact ⟨⟨rfl, rfl, rfl, rfl⟩, himitating⟩

/-- Keys without newlines imitate nothing. -/
theorem not_imitates {chs chs' : List FieldChange} (h : ∀ ch ∈ chs', '\n' ∉ ch.field.toList) :
    ¬ Imitates chs chs' := by
  rintro ⟨before, before', ch, ch', after, after', -, rfl, -, rest, hfield⟩
  refine h ch' (by simp) ?_
  rcases hfield with hfield | hfield
  · rw [hfield]
    simp
  · rw [hfield]
    simp

/-- The bill with its fields in another order. -/
def reorderedBillWrite : WriteOperation :=
  { billWrite with payload := [("currency", "USD"), ("memo", "rent"), ("total", .int 12)] }

/-- The hypotheses hold for a bill and the same bill in another order, over one record. -/
theorem bill_same_effect :
    SameEffect [("total", .int 10)] billWrite.payload [("total", .int 10)] reorderedBillWrite.payload := by
  have hclean : ∀ op : WriteOperation, op = billWrite ∨ op = reorderedBillWrite →
      ∀ ch ∈ changes [("total", .int 10)] op.payload, '\n' ∉ ch.field.toList := by
    rintro op (rfl | rfl)
    · decide +kernel
    · decide +kernel
  exact (same_effect_iff_no_imitation (some [("total", .int 10)]) (some [("total", .int 10)]) billWrite
    reorderedBillWrite (by decide) (by decide) ⟨rfl, rfl, rfl, rfl⟩ (by decide +kernel)).mpr
    ⟨not_imitates (hclean _ (.inr rfl)), not_imitates (hclean _ (.inl rfl))⟩

end CaviErp
