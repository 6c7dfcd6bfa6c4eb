import CaviErp.Lib.Proofs.NumeralProofs
import CaviErp.Mapper.NetsuiteRecords

/-!
# Prices in major units

The hundredth part of a whole number is written out as long as it has no more digits than the precision.
Beyond that it is rounded, or written with an exponent.
-/

namespace CaviErp

open Py

/-- Minor units whose hundredth part has no more than 28 digits, zeros at the end not counted beyond the
point. -/
def FitsPrecision (n : Nat) : Prop :=
  n < 10 ^ 28 ∨ (10 ∣ n ∧ n < 10 ^ 29) ∨ (100 ∣ n ∧ n < 10 ^ 30)

/-- A numeral without an exponent that denotes the hundredth part. -/
def IsMajor (v : Int) (text : String) : Prop :=
  Decimal.IsNumeral text.toList ∧ ∃ x, Decimal.ofText text = some x ∧ x.toRat? = some ((v : ℚ) / 100)

section Quotient

open Decimal

/-! ## The quotient by a hundred -/

/-- Whatever is divided by a hundred, the coefficient has no more digits than the precision. -/
theorem divNat_hundred_lt (negative : Bool) (c : Nat) :
    ∃ q e, (finite negative c 0).divNat 100 = finite negative q e ∧ q < 10 ^ precision := by
  unfold divNat
  by_cases hc : c = 0
  · exact ⟨0, 0, if_pos hc, by decide⟩
  · dsimp only
    rw [if_neg hc]
    refine ⟨_, _, rfl, ?_⟩
    split
    · exact fix_lt _ _
    · exact fix_lt _ _

theorem fitsPrecision_length {c : Nat} (h : FitsPrecision c) : numDigits c ≤ 30 := by
  rw [numDigits_le_iff (by omega)]
  rcases h with h | ⟨-, h⟩ | ⟨-, h⟩
  · exact h.trans (by norm_num)
  · exact h.trans (by norm_num)
  · exact h

/-- What is left of the quotient when its zeros are off fits the precision. -/
theorem stripped_lt {c a j k : Nat} (h : FitsPrecision c) (hk : 2 ≤ k) (hj : j ≤ k)
    (hvalue : c * 10 ^ (k - 2) = a * 10 ^ j) (hlast : j < k → a % 10 ≠ 0) :
    a < 10 ^ precision ∧ k ≤ j + 2 := by
  obtain ⟨m, rfl⟩ : ∃ m, k = m + 2 := ⟨k - 2, by omega⟩
  rw [Nat.add_sub_cancel] at hvalue
  have hpow : ∀ i, 0 < 10 ^ i := fun i => Nat.pow_pos (by omega)
  have hcases : j + 1 ≤ m ∨ j = m ∨ j = m + 1 ∨ j = m + 2 := by omega
  rcases hcases with hj | rfl | rfl | rfl
  · -- a zero would be left
    obtain ⟨i, rfl⟩ : ∃ i, m = j + 1 + i := ⟨m - (j + 1), by omega⟩
    have ha : a = 10 * (c * 10 ^ i) := by
      apply Nat.eq_of_mul_eq_mul_right (hpow j)
      rw [← hvalue]
      ring
    have hzero := hlast (by omega)
    omega
  · have ha : c = a := Nat.eq_of_mul_eq_mul_right (hpow j) hvalue
    have hzero := hlast (by omega)
    refine ⟨?_, le_rfl⟩
    rcases h with h | ⟨h, -⟩ | ⟨h, -⟩
    · exact ha ▸ h
    · omega
    · omega
  · have ha : c = 10 * a := by
      apply Nat.eq_of_mul_eq_mul_right (hpow m)
      rw [hvalue]
      ring
    have hzero := hlast (by omega)
    refine ⟨?_, by omega⟩
    show a < 10 ^ 28
    rcases h with h | ⟨-, h⟩ | ⟨h, -⟩
    · omega
    · omega
    · omega
  · have ha : c = 100 * a := by
      apply Nat.eq_of_mul_eq_mul_right (hpow m)
      rw [hvalue]
      ring
    refine ⟨?_, by omega⟩
    show a < 10 ^ 28
    rcases h with h | ⟨-, h⟩ | ⟨-, h⟩
    · omega
    · omega
    · omega

/-- A hundredth part that fits the precision is exact, with two digits at most behind the point. -/
theorem divNat_hundred_exact (negative : Bool) {c : Nat} (h : FitsPrecision c) :
    ∃ (q : Nat) (e : Int), (finite negative c 0).divNat 100 = finite negative q e ∧ e ≤ 0 ∧ -2 ≤ e ∧
      q * 100 = c * 10 ^ (-e).toNat := by
  by_cases hc : c = 0
  · subst hc
    exact ⟨0, 0, rfl, le_rfl, by decide, by simp⟩
  · have hlength := fitsPrecision_length h
    obtain ⟨k, hk⟩ : ∃ k : Nat, (numDigits 100 : Int) - numDigits c + precision + 1 = k + 2 := by
      have hhundred : numDigits 100 = 3 := by decide
      refine ⟨30 - numDigits c, ?_⟩
      rw [hhundred]
      unfold precision
      omega
    have hnum : (k + 2 : Int).toNat = k + 2 := by omega
    have hden : (-(k + 2 : Int)).toNat = 0 := by omega
    have hexact : c * 10 ^ (k + 2) = c * 10 ^ k * 100 := by ring
    obtain ⟨hvalue, hle, hlast⟩ := stripZeros_spec (k + 2) (c * 10 ^ k)
    obtain ⟨hlt, hnear⟩ := stripped_lt h (by omega) hle (by rwa [Nat.add_sub_cancel]) hlast
    refine ⟨(stripZeros (k + 2) (c * 10 ^ k)).1, -(k + 2) + (stripZeros (k + 2) (c * 10 ^ k)).2, ?_, by omega,
      by omega, ?_⟩
    · unfold divNat
      dsimp only
      rw [if_neg hc, hk, hnum, hden, pow_zero, mul_one, hexact, Nat.mul_mod_left, if_pos rfl,
        Nat.mul_div_cancel _ (by omega), fix_of_lt hlt, zero_sub]
    · generalize stripZeros (k + 2) (c * 10 ^ k) = r at *
      have hcount : (-(-((k : Int) + 2) + (r.2 : Int))).toNat = k + 2 - r.2 := by omega
      rw [hcount]
      apply Nat.eq_of_mul_eq_mul_right (Nat.pow_pos (by omega) : 0 < 10 ^ r.2)
      calc r.1 * 100 * 10 ^ r.2 = r.1 * 10 ^ r.2 * 100 := by ring
        _ = c * 10 ^ k * 100 := by rw [← hvalue]
        _ = c * 10 ^ (k + 2) := hexact.symm
        _ = c * 10 ^ (k + 2 - r.2 + r.2) := by rw [Nat.sub_add_cancel hle]
        _ = c * 10 ^ (k + 2 - r.2) * 10 ^ r.2 := by rw [pow_add, mul_assoc]

/-- Only what fits the precision has a hundredth part with so short a coefficient. -/
theorem fitsPrecision_of_exact {q c : Nat} {e : Int} (hq : q < 10 ^ precision)
    (h : q * 100 = c * 10 ^ (-e).toNat) : FitsPrecision c := by
  have hq : q < 10 ^ 28 := hq
  obtain ⟨k, hk⟩ : ∃ k : Nat, (-e).toNat = k := ⟨_, rfl⟩
  rw [hk] at h
  match k, h with
  | 0, h =>
    refine .inr (.inr ⟨⟨q, by omega⟩, by omega⟩)
  | 1, h =>
    refine .inr (.inl ⟨⟨q, by omega⟩, by omega⟩)
  | k + 2, h =>
    refine .inl ?_
    have hcancel : q = c * 10 ^ k := by
      apply Nat.eq_of_mul_eq_mul_right (by omega : 0 < 100)
      rw [h]
      ring
    calc c = c * 1 := (mul_one c).symm
      _ ≤ c * 10 ^ k := Nat.mul_le_mul_left c (Nat.pow_pos (by omega))
      _ = q := hcancel.symm
      _ < 10 ^ 28 := hq

end Quotient

/-! ## What the text denotes -/

/-- The hundredth part, by coefficients. -/
theorem toRat?_hundredth (v : Int) (q : Nat) {e : Int} (he : e ≤ 0) :
    (Decimal.finite (v < 0) q e).toRat? = some ((v : ℚ) / 100) ↔ q * 100 = v.natAbs * 10 ^ (-e).toNat := by
  obtain ⟨k, rfl⟩ : ∃ k : Nat, e = -k := ⟨(-e).toNat, by omega⟩
  have hpow : (10 : ℚ) ^ k ≠ 0 := pow_ne_zero k (by norm_num)
  have hk : (- -(k : Int)).toNat = k := by omega
  have habs : (q : ℚ) * (10 ^ k)⁻¹ = v.natAbs / 100 ↔ q * 100 = v.natAbs * 10 ^ k := by
    rw [← div_eq_mul_inv, div_eq_div_iff hpow (by norm_num)]
    exact_mod_cast Iff.rfl
  unfold Decimal.toRat?
  rw [Option.some.injEq, zpow_neg, zpow_natCast, hk, ← habs]
  rcases lt_or_ge v 0 with hneg | hpos
  · have hint : v = -(v.natAbs : Int) := by omega
    have hv : (v : ℚ) = -(v.natAbs : ℚ) := by
      rw [← Int.cast_natCast, ← Int.cast_neg, ← hint]
    rw [hv]
    simp only [hneg, decide_true, if_true, neg_mul, neg_div, neg_inj]
  · have hint : (v.natAbs : Int) = v := by omega
    have hv : (v : ℚ) = (v.natAbs : ℚ) := by
      rw [← Int.cast_natCast, hint]
    rw [hv]
    simp only [not_lt.mpr hpos, decide_false, Bool.false_eq_true, if_false]

theorem minorToMajor_int (v : Int) {q : Nat} {e : Int}
    (h : (Decimal.finite (v < 0) v.natAbs 0).divNat 100 = .finite (v < 0) q e) :
    minorToMajor (.int v) = .ok (.str (Decimal.finite (v < 0) q e).str) := by
  show Except.ok (Json.str ((Decimal.finite (v < 0) v.natAbs 0).divNat 100).str) = _
  rw [h]

/-- The text of a quotient is what it should be exactly if its exponent is not positive, it does not start
behind five zeros and its coefficient is the right one. -/
theorem isMajor_iff (v : Int) (q : Nat) (e : Int) :
    IsMajor v (Decimal.finite (v < 0) q e).str ↔
      Decimal.Positional q e ∧ q * 100 = v.natAbs * 10 ^ (-e).toNat := by
  unfold IsMajor
  rw [Decimal.ofText_str, Decimal.str, String.toList_ofList, Decimal.isNumeral_iff]
  constructor
  · rintro ⟨hpositional, x, hx, hvalue⟩
    obtain rfl := Option.some.inj hx
    exact ⟨hpositional, (toRat?_hundredth v q hpositional.1).mp hvalue⟩
  · rintro ⟨hpositional, hvalue⟩
    exact ⟨hpositional, _, rfl, (toRat?_hundredth v q hpositional.1).mpr hvalue⟩

theorem isMajor_minorToMajor {v : Int} (h : FitsPrecision v.natAbs) :
    ∃ text, minorToMajor (.int v) = .ok (.str text) ∧ IsMajor v text := by
  obtain ⟨q, e, hdiv, he, hlow, hvalue⟩ := divNat_hundred_exact (v < 0) h
  have hpositional : Decimal.Positional q e := ⟨he, by have := Decimal.numDigits_pos q; omega⟩
  exact ⟨_, minorToMajor_int v hdiv, (isMajor_iff v q e).mpr ⟨hpositional, hvalue⟩⟩

theorem fitsPrecision_of_isMajor {v : Int} {text : String} (h : minorToMajor (.int v) = .ok (.str text))
    (hmajor : IsMajor v text) : FitsPrecision v.natAbs := by
  obtain ⟨q, e, hdiv, hq⟩ := divNat_hundred_lt (v < 0) v.natAbs
  rw [minorToMajor_int v hdiv] at h
  obtain rfl := Json.str.inj (Except.ok.inj h)
  obtain ⟨hpositional, hvalue⟩ := (isMajor_iff v q e).mp hmajor
  exact fitsPrecision_of_exact hq hvalue

/-- One text is the hundredth part of one number only. -/
theorem IsMajor.inj {v w : Int} {text : String} (hv : IsMajor v text) (hw : IsMajor w text) : v = w := by
  obtain ⟨-, x, hx, hvalue⟩ := hv
  obtain ⟨-, y, hy, hvalue'⟩ := hw
  obtain rfl := Option.some.inj (hx.symm.trans hy)
  have hsame : (v : ℚ) / 100 = w / 100 := Option.some.inj (hvalue.symm.trans hvalue')
  exact_mod_cast (div_left_inj' (by norm_num)).mp hsame

/-- **When a price in minor units is carried over exactly.** The text is a numeral without an exponent that
denotes the hundredth part, exactly if that has 28 digits at most; distinct prices of this kind have
distinct texts. -/
theorem minorToMajor_exact_iff (v : Int) :
    ((∃ text, minorToMajor (.int v) = .ok (.str text) ∧ IsMajor v text) ↔ FitsPrecision v.natAbs) ∧
    ∀ w : Int, FitsPrecision v.natAbs → FitsPrecision w.natAbs →
      minorToMajor (.int v) = minorToMajor (.int w) → v = w := by
  refine ⟨⟨?_, isMajor_minorToMajor⟩, ?_⟩
  · rintro ⟨text, htext, hmajor⟩
    exact fitsPrecision_of_isMajor htext hmajor
  · intro w hv hw h
    obtain ⟨text, htext, hmajor⟩ := isMajor_minorToMajor hv
    obtain ⟨text', htext', hmajor'⟩ := isMajor_minorToMajor hw
    rw [htext, htext'] at h
    obtain rfl := Json.str.inj (Except.ok.inj h)
    exact hmajor.inj hmajor'

/-- Two prices of 29 digits that end in a zero. -/
theorem minorToMajor_exact_iff_large :
    minorToMajor (.int (10 ^ 29 - 100)) ≠ minorToMajor (.int (10 ^ 28 + 10)) := by
  intro h
  have hv : FitsPrecision (10 ^ 29 - 100 : Int).natAbs := .inr (.inl ⟨⟨10 ^ 28 - 10, by norm_num⟩, by norm_num⟩)
  have hw : FitsPrecision (10 ^ 28 + 10 : Int).natAbs := .inr (.inl ⟨⟨10 ^ 27 + 1, by norm_num⟩, by norm_num⟩)
  exact absurd ((minorToMajor_exact_iff (10 ^ 29 - 100)).2 (10 ^ 28 + 10) hv hw h) (by decide)

/-- Of 29 digits the last is rounded off, so that two prices have one text; a number of 31 digits is written
with an exponent. -/
theorem minorToMajor_not_exact :
    (¬ ∃ text, minorToMajor (.int (10 ^ 28 + 11)) = .ok (.str text) ∧ IsMajor (10 ^ 28 + 11) text) ∧
      minorToMajor (.int (10 ^ 28 + 11)) = minorToMajor (.int (10 ^ 28 + 10)) ∧
      minorToMajor (.int (10 ^ 30)) = .ok (.str "1.000000000000000000000000000E+28") := by
  refine ⟨?_, by decide +kernel, by decide +kernel⟩
  rintro ⟨text, htext, hmajor⟩
  rcases fitsPrecision_of_isMajor htext hmajor with h | ⟨h, -⟩ | ⟨h, -⟩
  · exact absurd h (by decide)
  · exact absurd h (by decide)
  · exact absurd h (by decide)

end CaviErp
