import CaviErp.Lib.Proofs.CanonicalProofs

/-!
# Where the strings of a JSON text are

The canonical text of a value, scanned from its start, is outside of every string literal again at its
end; it has no newline anywhere, and a blank only inside a literal. So a blank in it is never followed by
a text that is complete in itself.
-/

namespace Py.JsonText

/-- Where a scan of a text stands. -/
inductive Place where
  | outside
  | inside
  | escaped
deriving DecidableEq, Repr

/-- The place after one more character; `none` where a canonical text has no such character. -/
def Place.next (p : Place) (c : Char) : Option Place :=
  if c.toNat < 32 then none
  else
    match p with
    | outside => if c = '"' then some inside else if c = '\\' ∨ c = ' ' then none else some outside
    | inside => if c = '"' then some outside else if c = '\\' then some escaped else some inside
    | escaped => some inside

def scan (p : Place) (cs : List Char) : Option Place := cs.foldlM Place.next p

@[simp] theorem scan_nil (p : Place) : scan p [] = some p := rfl

theorem scan_cons (p : Place) (c : Char) (cs : List Char) :
    scan p (c :: cs) = (p.next c).bind fun q => scan q cs := rfl

theorem scan_append (p : Place) (cs ds : List Char) :
    scan p (cs ++ ds) = (scan p cs).bind fun q => scan q ds := by
  unfold scan
  rw [List.foldlM_append]
  rfl

theorem scan_append_of {p q : Place} {cs : List Char} (h : scan p cs = some q) (ds : List Char) :
    scan p (cs ++ ds) = scan q ds := by
  rw [scan_append, h, Option.bind_some]

/-! ## The texts of values -/

/-- A character of a token outside of string literals. -/
def IsPlain (c : Char) : Prop := 32 ≤ c.toNat ∧ c ≠ '"' ∧ c ≠ '\\' ∧ c ≠ ' '

theorem scan_plain {cs : List Char} (h : ∀ c ∈ cs, IsPlain c) : scan .outside cs = some .outside := by
  induction cs with
  | nil => rfl
  | cons c cs ih =>
    obtain ⟨hlow, hquote, hback, hblank⟩ := h c List.mem_cons_self
    have hnext : Place.next .outside c = some .outside := by
      have hnot : ¬ c.toNat < 32 := by omega
      simp [Place.next, hnot, hquote, hback, hblank]
    rw [scan_cons, hnext, Option.bind_some]
    exact ih fun d hd => h d (List.mem_cons_of_mem c hd)

theorem isPlain_of_isDigit {c : Char} (h : c.isDigit = true) : IsPlain c := by
  unfold IsPlain
  rcases isDigit_cases h with rfl | rfl | rfl | rfl | rfl | rfl | rfl | rfl | rfl | rfl <;> decide

theorem isPlain_of_mem_signText {neg : Bool} {c : Char} (h : c ∈ signText neg) : IsPlain c := by
  cases neg with
  | true =>
    obtain rfl := List.mem_singleton.mp h
    unfold IsPlain
    decide
  | false => cases h

theorem Whole.isPlain {whole : List Char} (h : Whole whole) : ∀ c ∈ whole, IsPlain c := by
  rcases h with rfl | ⟨d, ds, rfl, -, hd, hds⟩
  · intro c hc
    obtain rfl := List.mem_singleton.mp hc
    exact isPlain_of_isDigit rfl
  · intro c hc
    rcases List.mem_cons.mp hc with rfl | hc
    · exact isPlain_of_isDigit hd
    · exact isPlain_of_isDigit (hds c hc)

theorem scan_int (n : Int) : scan .outside (toString n).toList = some .outside := by
  rw [int_text]
  refine scan_plain fun c hc => ?_
  rcases List.mem_append.mp hc with hc | hc
  · exact isPlain_of_mem_signText hc
  · exact (whole_toDigits _).isPlain c hc

theorem scan_float (x : Binary64) : scan .outside x.jsonChars = some .outside := by
  cases x with
  | finite q =>
    obtain ⟨neg, whole, f, e, htext, h⟩ := Binary64.jsonChars_finite_text q
    rw [htext]
    refine scan_plain fun c hc => ?_
    rcases List.mem_append.mp hc with hc | hc
    · exact isPlain_of_mem_signText hc
    rcases List.mem_append.mp hc with hc | hc
    · exact h.whole.isPlain c hc
    rcases List.mem_append.mp hc with hc | hc
    · cases f with
      | none => cases hc
      | some ds =>
        rcases List.mem_cons.mp hc with rfl | hc
        · unfold IsPlain
          decide
        · exact isPlain_of_isDigit ((h.fraction ds rfl).2 c hc)
    · cases e with
      | none => cases hc
      | some y =>
        obtain ⟨neg', ds⟩ := y
        rcases List.mem_cons.mp hc with rfl | hc
        · unfold IsPlain
          decide
        · rcases List.mem_cons.mp hc with rfl | hc
          · unfold IsPlain
            cases neg' <;> decide
          · exact isPlain_of_isDigit ((h.exponent (neg', ds) rfl).2 c hc)
  | negZero => rfl
  | inf => rfl
  | negInf => rfl
  | nan => rfl

theorem scan_hex4 (n : Nat) : scan .inside (hex4 n) = some .inside := by
  have hdigit : ∀ m, m < 16 → Place.next .inside (Nat.digitChar m) = some .inside := by
    intro m hm
    interval_cases m <;> rfl
  have hmod : ∀ m, m % 16 < 16 := fun m => Nat.mod_lt m (by omega)
  simp only [hex4, scan_cons, hdigit _ (hmod _), Option.bind_some, scan_nil]

/-- A `\u` escape. -/
theorem scan_unicode (n : Nat) (rest : List Char) :
    scan .inside ('\\' :: 'u' :: (hex4 n ++ rest)) = scan .inside rest := by
  have hstart : scan .inside ['\\', 'u'] = some .inside := rfl
  exact (scan_append_of hstart (hex4 n ++ rest)).trans (scan_append_of (scan_hex4 n) rest)

theorem scan_escapeChar (c : Char) : scan .inside (escapeChar c) = some .inside := by
  unfold escapeChar
  split_ifs with hquote hback h₁ h₂ h₃ h₄ h₅ hprint hbasic
  · rfl
  · rfl
  · rfl
  · rfl
  · rfl
  · rfl
  · rfl
  · have hlow : ¬ c.toNat < 32 := by omega
    have hnext : Place.next .inside c = some .inside := by simp [Place.next, hlow, hquote, hback]
    rw [scan_cons, hnext, Option.bind_some, scan_nil]
  · generalize c.toNat = n
    rw [← List.append_nil (hex4 n), scan_unicode, scan_nil]
  · generalize 0xd800 + (c.toNat - 0x10000) / 0x400 = hi
    generalize 0xdc00 + (c.toNat - 0x10000) % 0x400 = lo
    rw [List.cons_append, List.cons_append, scan_unicode, ← List.append_nil (hex4 lo), scan_unicode,
      scan_nil]

theorem scan_quote (s : String) : scan .outside (quote s) = some .outside := by
  have hbody : ∀ cs : List Char, scan .inside (cs.flatMap escapeChar) = some .inside := by
    intro cs
    induction cs with
    | nil => rfl
    | cons c cs ih =>
      rw [List.flatMap_cons, scan_append_of (scan_escapeChar c)]
      exact ih
  have hopen : scan .outside ['"'] = some .inside := rfl
  refine (scan_append_of hopen _).trans ?_
  exact (scan_append_of (hbody _) _).trans rfl

theorem scan_joinChars {ts : List (List Char)} (h : ∀ t ∈ ts, scan .outside t = some .outside) :
    scan .outside (Json.joinChars [','] ts) = some .outside := by
  induction ts with
  | nil => rfl
  | cons t ts ih =>
    have hfirst := h t List.mem_cons_self
    have hrest := ih fun u hu => h u (List.mem_cons_of_mem t hu)
    cases ts with
    | nil => exact hfirst
    | cons u us =>
      have hcomma : scan .outside [','] = some .outside := rfl
      rw [Json.joinChars, List.append_assoc, scan_append_of hfirst, scan_append_of hcomma]
      exact hrest

theorem scan_enclosed {op cl : Char} {cs : List Char} (hop : scan .outside [op] = some .outside)
    (hcs : scan .outside cs = some .outside) (hcl : scan .outside [cl] = some .outside) :
    scan .outside (op :: (cs ++ [cl])) = some .outside := by
  refine (scan_append_of hop _).trans ?_
  exact (scan_append_of hcs _).trans hcl

mutual

theorem scan_compact : ∀ j : Json, scan .outside (dumpChars (spaced [] []) j) = some .outside
  | .null => rfl
  | .bool true => rfl
  | .bool false => rfl
  | .int n => scan_int n
  | .float x => scan_float x
  | .str s => scan_quote s
  | .arr xs => scan_enclosed rfl (scan_joinChars (scan_elements xs)) rfl
  | .obj kvs => by
    rw [dump_obj]
    exact scan_enclosed rfl (scan_joinChars (scan_items kvs)) rfl

theorem scan_elements : ∀ xs : List Json, ∀ t ∈ dumpList (spaced [] []) xs,
    scan .outside t = some .outside
  | [], _, ht => by cases ht
  | x :: xs, t, ht => by
    rcases List.mem_cons.mp ht with rfl | ht
    · exact scan_compact x
    · exact scan_elements xs t ht

theorem scan_items : ∀ kvs : Obj, ∀ t ∈ itemTexts [] [] kvs, scan .outside t = some .outside
  | [], _, ht => by cases ht
  | (k, v) :: kvs, t, ht => by
    rcases List.mem_cons.mp ht with rfl | ht
    · have hcolon : scan .outside [':'] = some .outside := rfl
      unfold itemText
      rw [scan_append_of (scan_quote k)]
      exact (scan_append_of hcolon _).trans (scan_compact v)
    · exact scan_items kvs t ht

end

theorem scan_canonical (j : Json) : scan .outside (dumpChars .canonical j) = some .outside := by
  rw [dumpChars_sortKeys]
  exact scan_compact j.sortKeys

/-! ## What a canonical text does not hold -/

theorem scan_no_newline {p q : Place} {cs : List Char} (h : scan p cs = some q) : '\n' ∉ cs := by
  induction cs generalizing p with
  | nil => exact List.not_mem_nil
  | cons c cs ih =>
    rw [scan_cons] at h
    obtain ⟨p', hp', hcs⟩ := Option.bind_eq_some_iff.mp h
    intro hmem
    rcases List.mem_cons.mp hmem with rfl | hmem
    · cases hp'
    · exact ih hcs hmem

/-- The quotes of a text turn the scan from outside and the scan from inside around together. -/
theorem scan_places_ne {cs : List Char} {p q : Place} (hout : scan .outside cs = some p)
    (hin : scan .inside cs = some q) : p ≠ q := by
  induction cs generalizing p q with
  | nil =>
    obtain rfl := Option.some.inj hout
    obtain rfl := Option.some.inj hin
    decide
  | cons c cs ih =>
    rw [scan_cons] at hout hin
    obtain ⟨p', hp', hout⟩ := Option.bind_eq_some_iff.mp hout
    obtain ⟨q', hq', hin⟩ := Option.bind_eq_some_iff.mp hin
    unfold Place.next at hp' hq'
    by_cases hlow : c.toNat < 32
    · rw [if_pos hlow] at hp'
      cases hp'
    rw [if_neg hlow] at hp' hq'
    by_cases hquote : c = '"'
    · -- the two scans change places
      simp only [if_pos hquote, Option.some.injEq] at hp' hq'
      subst hp' hq'
      exact (ih hin hout).symm
    by_cases hback : c = '\\'
    · simp [hback] at hp'
    · by_cases hblank : c = ' '
      · simp [hblank] at hp'
      · simp only [if_neg hquote, hback, hblank, or_self, if_false, Option.some.injEq] at hp' hq'
        subst hp' hq'
        exact ih hout hin

/-- No canonical text ends in a blank and another canonical text. -/
theorem canonical_ne_append {v w : Json} {cs : List Char} :
    dumpChars .canonical v ≠ cs ++ ' ' :: dumpChars .canonical w := by
  intro h
  have hv := scan_canonical v
  rw [h, scan_append] at hv
  obtain ⟨p, -, hp⟩ := Option.bind_eq_some_iff.mp hv
  rw [scan_cons] at hp
  obtain ⟨q, hq, hw⟩ := Option.bind_eq_some_iff.mp hp
  have hinside : q = .inside := by
    cases p with
    | outside => cases hq
    | inside => exact (Option.some.inj hq).symm
    | escaped => exact (Option.some.inj hq).symm
  rw [hinside] at hw
  exact scan_places_ne (scan_canonical w) hw rfl

end Py.JsonText
