import CaviErp.Lib.Decimal
import CaviErp.Lib.Proofs.JsonTextProofs

/-!
# Decimals and their texts

The text of a decimal is read as the same decimal: sign, coefficient and exponent, or the special value.
-/

namespace Py

namespace Decimal

open JsonText

/-! ## Digits -/

theorem digits_toDigits (n : Nat) : Digits (Nat.toDigits 10 n) :=
  ⟨Nat.toDigits_ne_nil, fun _ hc => Nat.isDigit_of_mem_toDigits (by omega) (by omega) hc⟩

theorem ofDigitChars_zeros (k : Nat) (ds : List Char) :
    Nat.ofDigitChars 10 (List.replicate k '0' ++ ds) 0 = Nat.ofDigitChars 10 ds 0 := by
  induction k with
  | zero => rfl
  | succ k ih =>
    rw [List.replicate_succ, List.cons_append, Nat.ofDigitChars_cons]
    exact ih

/-! ## The parts of a number -/

/-- The text of an exponent, if there is one. -/
def exponentText : Option Int → List Char
  | none => []
  | some e => exponentChars e

theorem exponentPart_exponentText (x : Option Int) : exponentPart (exponentText x) = (x, []) := by
  cases x with
  | none => rfl
  | some e =>
    obtain ⟨hne, hall⟩ := digits_toDigits e.natAbs
    obtain ⟨htake, hdrop⟩ := span_digits hall stops_nil.noDigit
    rw [List.append_nil] at htake hdrop
    have hvalue := Nat.ofDigitChars_ten_toDigits (n := e.natAbs)
    by_cases he : e < 0
    · simp [exponentText, exponentChars, exponentPart, exponentDigits, he, htake, hdrop, hne, hvalue, abs_of_neg he]
    · simp [exponentText, exponentChars, exponentPart, exponentDigits, he, htake, hdrop, hne, hvalue,
        abs_of_nonneg (not_lt.mp he)]

theorem exponentText_head (x : Option Int) {c : Char} {cs : List Char} (h : exponentText x = c :: cs) :
    c = 'E' := by
  cases x with
  | none => cases h
  | some e => exact (List.cons.inj h).1.symm

/-- A number is read of its digits before the point, those behind it and its exponent. -/
theorem ofNumber_text (negative : Bool) {whole : List Char} (f : Option (List Char)) (x : Option Int)
    (hwhole : Digits whole) (hf : ∀ ds, f = some ds → ∀ c ∈ ds, c.isDigit = true) :
    ofNumber negative (whole ++ (fracText f ++ exponentText x)) =
      some (finite negative (Nat.ofDigitChars 10 (whole ++ f.getD []) 0) (x.getD 0 - (f.getD []).length)) := by
  have hexp : NoDigit (exponentText x) := by
    intro c cs h
    rw [exponentText_head x h]
    rfl
  have hrest : NoDigit (fracText f ++ exponentText x) := by
    cases f with
    | none => exact hexp
    | some ds =>
      intro c cs h
      obtain rfl := (List.cons.inj h).1
      rfl
  have hfraction : fractionDigits (fracText f ++ exponentText x) = (f.getD [], exponentText x) := by
    cases f with
    | none =>
      show fractionDigits (exponentText x) = _
      unfold fractionDigits
      split
      · rename_i cs heq
        have hE := exponentText_head x heq
        cases hE
      · rfl
    | some ds =>
      obtain ⟨htake, hdrop⟩ := span_digits (hf ds rfl) hexp
      show fractionDigits ('.' :: (ds ++ exponentText x)) = _
      rw [fractionDigits, htake, hdrop]
      rfl
  obtain ⟨htake, hdrop⟩ := span_digits hwhole.2 hrest
  have hne : ¬ (whole ++ f.getD [] = [] ∨ ([] : List Char) ≠ []) := by
    rintro (h | h)
    · exact hwhole.1 (List.append_eq_nil_iff.mp h).1
    · exact h rfl
  unfold ofNumber
  simp only [htake, hdrop, hfraction, exponentPart_exponentText]
  rw [if_neg hne]

/-! ## Finite decimals -/

/-- The text of a coefficient and an exponent, by its parts. -/
theorem finiteChars_parts (coefficient : Nat) (exponent : Int) :
    ∃ (whole : List Char) (f : Option (List Char)) (x : Option Int),
      finiteChars coefficient exponent = whole ++ (fracText f ++ exponentText x) ∧ Digits whole ∧
        (∀ ds, f = some ds → ∀ c ∈ ds, c.isDigit = true) ∧
        Nat.ofDigitChars 10 (whole ++ f.getD []) 0 = coefficient ∧
        x.getD 0 - (f.getD []).length = exponent := by
  obtain ⟨hne, hall⟩ := digits_toDigits coefficient
  have hvalue := Nat.ofDigitChars_ten_toDigits (n := coefficient)
  have hlength := List.length_pos_iff.mpr hne
  have hnone : ∀ ds : List Char, none = some ds → ∀ c ∈ ds, c.isDigit = true := by
    intro ds h
    cases h
  unfold finiteChars
  dsimp only
  generalize Nat.toDigits 10 coefficient = ds at *
  split
  · rename_i hplain
    split
    · rename_i hleft
      -- zeros between the point and the digits
      refine ⟨['0'], some (List.replicate (-(ds.length + exponent)).toNat '0' ++ ds), none, ?_,
        ⟨by simp, by simp⟩, ?_, ?_, ?_⟩
      · simp [fracText, exponentText]
      · intro ds' h c hc
        obtain rfl := Option.some.inj h
        rcases List.mem_append.mp hc with hc | hc
        · obtain rfl := List.eq_of_mem_replicate hc
          rfl
        · exact hall c hc
      · exact (ofDigitChars_zeros (_ + 1) ds).trans hvalue
      · simp only [Option.getD_none, Option.getD_some, List.length_append, List.length_replicate]
        omega
    · rename_i hleft
      split
      · rename_i hexponent
        exact ⟨ds, none, none, by simp [fracText, exponentText], ⟨hne, hall⟩, hnone, by simpa using hvalue,
          by simpa using hexponent.symm⟩
      · -- the point is among the digits
        have hsome : ds.take (ds.length + exponent).toNat ≠ [] := by
          rw [ne_eq, List.take_eq_nil_iff]
          rintro (h | h)
          · omega
          · exact hne h
        refine ⟨_, some (ds.drop (ds.length + exponent).toNat), none, by simp [fracText, exponentText],
          ⟨hsome, fun c hc => hall c (List.mem_of_mem_take hc)⟩, ?_, ?_, ?_⟩
        · intro ds' h c hc
          obtain rfl := Option.some.inj h
          exact hall c (List.mem_of_mem_drop hc)
        · simpa using hvalue
        · simp only [Option.getD_none, Option.getD_some, List.length_drop]
          omega
  · have hsome : ds.take 1 ≠ [] := by
      rw [ne_eq, List.take_eq_nil_iff]
      rintro (h | h)
      · omega
      · exact hne h
    have hwhole : Digits (ds.take 1) := ⟨hsome, fun c hc => hall c (List.mem_of_mem_take hc)⟩
    split
    · rename_i hone
      refine ⟨ds.take 1, none, some (ds.length + exponent - 1), rfl, hwhole, hnone, ?_, ?_⟩
      · rw [List.take_of_length_le hone.le]
        simpa using hvalue
      · simp only [Option.getD_none, Option.getD_some, List.length_nil]
        omega
    · refine ⟨ds.take 1, some (ds.drop 1), some (ds.length + exponent - 1), rfl, hwhole, ?_, ?_, ?_⟩
      · intro ds' h c hc
        obtain rfl := Option.some.inj h
        exact hall c (List.mem_of_mem_drop hc)
      · show Nat.ofDigitChars 10 (ds.take 1 ++ ds.drop 1) 0 = coefficient
        rw [List.take_append_drop]
        exact hvalue
      · simp only [Option.getD_some, List.length_drop]
        omega

/-! ## Special values -/

theorem toLower_of_isDigit {c : Char} (h : c.isDigit = true) : c.toLower = c := by
  rcases isDigit_cases h with rfl | rfl | rfl | rfl | rfl | rfl | rfl | rfl | rfl | rfl <;> rfl

/-- What starts neither with a digit nor with a point is not a number. -/
theorem ofNumber_of_letter (negative : Bool) {c : Char} (hdigit : c.isDigit = false) (hdot : c ≠ '.')
    (cs : List Char) : ofNumber negative (c :: cs) = none := by
  have htake : (c :: cs).takeWhile Char.isDigit = [] := by simp [hdigit]
  have hdrop : (c :: cs).dropWhile Char.isDigit = c :: cs := by simp [hdigit]
  have hfraction : fractionDigits (c :: cs) = ([], c :: cs) := by
    unfold fractionDigits
    split
    · rename_i cs' heq
      exact absurd (List.cons.inj heq).1 hdot
    · rfl
  unfold ofNumber
  simp only [htake, hdrop, hfraction]
  exact if_pos (.inl rfl)

theorem ofUnsigned_nan (negative signaling : Bool) {payload : List Char}
    (hpayload : ∀ c ∈ payload, c.isDigit = true) :
    ofUnsigned negative ((if signaling then "sNaN".toList else "NaN".toList) ++ payload) =
      some (nan negative signaling (Nat.ofDigitChars 10 payload 0)) := by
  have hlower : payload.map Char.toLower = payload :=
    (List.map_congr_left fun c hc => toLower_of_isDigit (hpayload c hc)).trans (List.map_id _)
  have hall : payload.all Char.isDigit = true := List.all_eq_true.mpr hpayload
  unfold ofUnsigned
  cases signaling with
  | false =>
    show (ofNumber negative ('N' :: 'a' :: 'N' :: payload)).or (ofName negative ('N' :: 'a' :: 'N' :: payload)) = _
    rw [ofNumber_of_letter negative rfl (by decide)]
    simp [ofName, hlower, hall, show Char.toLower 'N' = 'n' from rfl, show Char.toLower 'a' = 'a' from rfl]
  | true =>
    show (ofNumber negative ('s' :: 'N' :: 'a' :: 'N' :: payload)).or
      (ofName negative ('s' :: 'N' :: 'a' :: 'N' :: payload)) = _
    rw [ofNumber_of_letter negative rfl (by decide)]
    simp [ofName, hlower, hall, show Char.toLower 'N' = 'n' from rfl, show Char.toLower 'a' = 'a' from rfl,
      show Char.toLower 's' = 's' from rfl]

theorem ofUnsigned_infinity (negative : Bool) :
    ofUnsigned negative "Infinity".toList = some (infinity negative) := by
  cases negative <;> rfl

/-! ## Signs -/

/-- The text of a decimal without its sign. -/
def magnitude : Decimal → List Char
  | finite _ coefficient exponent => finiteChars coefficient exponent
  | infinity _ => "Infinity".toList
  | nan _ signaling payload =>
    (if signaling then "sNaN".toList else "NaN".toList) ++ if payload = 0 then [] else Nat.toDigits 10 payload

def negative : Decimal → Bool
  | finite negative _ _ => negative
  | infinity negative => negative
  | nan negative _ _ => negative

theorem chars_eq (x : Decimal) : x.chars = signChars x.negative ++ x.magnitude := by
  cases x <;> rfl

theorem nan_magnitude (negative signaling : Bool) (payload : Nat) :
    ∃ text, (nan negative signaling payload).magnitude =
        (if signaling then "sNaN".toList else "NaN".toList) ++ text ∧
      (∀ c ∈ text, c.isDigit = true) ∧ Nat.ofDigitChars 10 text 0 = payload := by
  refine ⟨_, rfl, ?_, ?_⟩
  · intro c hc
    split at hc
    · cases hc
    · exact (digits_toDigits payload).2 c hc
  · split
    · rename_i h
      exact h.symm
    · exact Nat.ofDigitChars_ten_toDigits

theorem ofUnsigned_magnitude (x : Decimal) : ofUnsigned x.negative x.magnitude = some x := by
  cases x with
  | finite negative coefficient exponent =>
    obtain ⟨whole, f, y, htext, hwhole, hf, hvalue, hexponent⟩ := finiteChars_parts coefficient exponent
    show (ofNumber negative (finiteChars coefficient exponent)).or _ = _
    rw [htext, ofNumber_text negative f y hwhole hf, hvalue, hexponent]
    rfl
  | infinity negative => exact ofUnsigned_infinity negative
  | nan negative signaling payload =>
    obtain ⟨text, htext, hdigits, hvalue⟩ := nan_magnitude negative signaling payload
    have hread := ofUnsigned_nan negative signaling hdigits
    rw [← htext, hvalue] at hread
    exact hread

/-! ## There and back -/

/-- A character that is read as it is. -/
def Plain (c : Char) : Prop := isSpace c = false ∧ c ≠ '_'

theorem plain_of_isDigit {c : Char} (h : c.isDigit = true) : Plain c := by
  rcases isDigit_cases h with rfl | rfl | rfl | rfl | rfl | rfl | rfl | rfl | rfl | rfl <;>
    exact ⟨by decide, by decide⟩

theorem plain_of_all {cs : List Char} (h : cs.all (fun c => !isSpace c && c != '_') = true) :
    ∀ c ∈ cs, Plain c := by
  intro c hc
  have hplain := List.all_eq_true.mp h c hc
  simpa [Plain] using hplain

theorem bare_of_plain {cs : List Char} (h : ∀ c ∈ cs, Plain c) : bare cs = cs := by
  have hdrop : ∀ ds : List Char, (∀ c ∈ ds, Plain c) → ds.dropWhile isSpace = ds := by
    intro ds hds
    cases ds with
    | nil => rfl
    | cons c ds => rw [List.dropWhile_cons_of_neg (by simp [(hds c List.mem_cons_self).1])]
  unfold bare
  rw [hdrop cs h, hdrop cs.reverse fun c hc => h c (List.mem_reverse.mp hc), List.reverse_reverse,
    List.filter_eq_self]
  exact fun c hc => decide_eq_true (h c hc).2

theorem plain_exponentText (x : Option Int) : ∀ c ∈ exponentText x, Plain c := by
  intro c hc
  cases x with
  | none => cases hc
  | some e =>
    rcases List.mem_cons.mp hc with rfl | hc
    · exact ⟨by decide, by decide⟩
    · rcases List.mem_cons.mp hc with rfl | hc
      · split
        · exact ⟨by decide, by decide⟩
        · exact ⟨by decide, by decide⟩
      · exact plain_of_isDigit ((digits_toDigits _).2 c hc)

theorem plain_magnitude (x : Decimal) : ∀ c ∈ x.magnitude, Plain c := by
  intro c hc
  cases x with
  | finite negative coefficient exponent =>
    obtain ⟨whole, f, y, htext, hwhole, hf, -, -⟩ := finiteChars_parts coefficient exponent
    rw [show (finite negative coefficient exponent).magnitude = _ from htext] at hc
    rcases List.mem_append.mp hc with hc | hc
    · exact plain_of_isDigit (hwhole.2 c hc)
    · rcases List.mem_append.mp hc with hc | hc
      · cases f with
        | none => cases hc
        | some ds =>
          rcases List.mem_cons.mp hc with rfl | hc
          · exact ⟨by decide, by decide⟩
          · exact plain_of_isDigit (hf ds rfl c hc)
      · exact plain_exponentText y c hc
  | infinity negative =>
    exact @plain_of_all "Infinity".toList (by decide) c hc
  | nan negative signaling payload =>
    obtain ⟨text, htext, hdigits, -⟩ := nan_magnitude negative signaling payload
    rw [htext] at hc
    rcases List.mem_append.mp hc with hc | hc
    · refine @plain_of_all "sNaN".toList (by decide) c ?_
      split at hc
      · exact hc
      · exact List.mem_cons_of_mem _ hc
    · exact plain_of_isDigit (hdigits c hc)

theorem magnitude_head (x : Decimal) : ∃ c cs, x.magnitude = c :: cs ∧ c ≠ '-' ∧ c ≠ '+' := by
  cases x with
  | finite negative coefficient exponent =>
    obtain ⟨whole, f, y, htext, ⟨hne, hdigits⟩, -⟩ := finiteChars_parts coefficient exponent
    cases whole with
    | nil => exact absurd rfl hne
    | cons c cs =>
      have hdigit := hdigits c List.mem_cons_self
      refine ⟨c, _, htext, ?_, ?_⟩
      · rintro rfl
        cases hdigit
      · rintro rfl
        cases hdigit
  | infinity negative => exact ⟨'I', _, rfl, by decide, by decide⟩
  | nan negative signaling payload =>
    cases signaling with
    | true => exact ⟨'s', _, rfl, by decide, by decide⟩
    | false => exact ⟨'N', _, rfl, by decide, by decide⟩

/-- **The text of a decimal is read as the same decimal.** -/
theorem ofText_str (x : Decimal) : ofText x.str = some x := by
  have hplain : ∀ c ∈ x.chars, Plain c := by
    intro c hc
    rw [chars_eq] at hc
    rcases List.mem_append.mp hc with hc | hc
    · unfold signChars at hc
      split at hc
      · obtain rfl := List.mem_singleton.mp hc
        exact ⟨by decide, by decide⟩
      · cases hc
    · exact plain_magnitude x c hc
  obtain ⟨c, cs, hmagnitude, hminus, hplus⟩ := magnitude_head x
  have hread := ofUnsigned_magnitude x
  unfold ofText str
  rw [String.toList_ofList, bare_of_plain hplain, chars_eq]
  cases hsign : x.negative with
  | true =>
    rw [hsign] at hread
    exact hread
  | false =>
    rw [hsign] at hread
    have hbare : signChars false ++ x.magnitude = x.magnitude := rfl
    rw [hbare]
    split
    · rename_i cs' heq
      exact absurd (List.cons.inj (hmagnitude.symm.trans heq)).1 hminus
    · rename_i cs' heq
      exact absurd (List.cons.inj (hmagnitude.symm.trans heq)).1 hplus
    · exact hread

end Decimal

end Py
