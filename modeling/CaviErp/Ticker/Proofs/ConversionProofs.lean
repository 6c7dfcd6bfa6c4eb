import CaviErp.Lib.Proofs.DecimalContextProofs
import CaviErp.Ticker.Conversion

/-!
# When a conversion is rounded once

An amount times a rate is rounded to 28 digits before it is rounded to a whole number of minor units. The
result is the exact product rounded half up as long as that first rounding does no harm.
-/

namespace CaviErp

open Py

/-- The nearest whole number, halves away from zero. -/
def roundHalfAway (q : ℚ) : Int := if q < 0 then -⌊-q + 1 / 2⌋ else ⌊q + 1 / 2⌋

open Decimal

theorem floor_add_half (c : Nat) {unit : Nat} (hunit : 0 < unit) :
    ⌊(c : ℚ) / unit + 1 / 2⌋ = (Rounding.halfUp.units false c unit : Int) := by
  have hne : (unit : ℚ) ≠ 0 := by exact_mod_cast hunit.ne'
  have hsum : (c : ℚ) / unit + 1 / 2 = ((2 * c + unit : Nat) : ℚ) / ((2 * unit : Nat) : ℚ) := by
    push_cast
    field_simp
  rw [hsum, Rounding.units_halfUp false hunit]
  exact Rat.floor_natCast_div_natCast _ _

/-- The nearest whole number to a product, by its coefficient and exponent. -/
theorem roundHalfAway_pow (c : Nat) (e : Int) :
    roundHalfAway ((c : ℚ) * 10 ^ e) = (rescale .halfUp false c e 0 : Int) := by
  have hnonneg : ¬ (c : ℚ) * 10 ^ e < 0 := not_lt.mpr (mul_nonneg (Nat.cast_nonneg c) (zpow_nonneg (by norm_num) e))
  unfold roundHalfAway rescale
  rw [if_neg hnonneg]
  rcases le_or_gt 0 e with he | he
  · obtain ⟨k, rfl⟩ : ∃ k : Nat, e = k := ⟨e.toNat, by omega⟩
    rw [if_pos he, sub_zero, Int.toNat_natCast, zpow_natCast]
    have hcast : (c : ℚ) * 10 ^ k + 1 / 2 = ((c * 10 ^ k : Nat) : Int) + 1 / 2 := by
      push_cast
      ring
    rw [hcast, Int.floor_intCast_add]
    norm_num
  · obtain ⟨k, rfl⟩ : ∃ k : Nat, e = -k := ⟨(-e).toNat, by omega⟩
    have hk : (0 - -(k : Int)).toNat = k := by omega
    rw [if_neg (by omega), hk, zpow_neg, zpow_natCast, ← div_eq_mul_inv]
    exact_mod_cast floor_add_half c (Nat.pow_pos (by omega) : 0 < 10 ^ k)

theorem roundHalfAway_neg {q : ℚ} (hq : 0 ≤ q) : roundHalfAway (-q) = -roundHalfAway q := by
  rcases hq.lt_or_eq with hpos | rfl
  · unfold roundHalfAway
    rw [if_pos (by linarith), if_neg (by linarith), neg_neg]
  · rw [neg_zero]
    unfold roundHalfAway
    norm_num

/-- The exact result of a conversion, with its sign. -/
theorem roundHalfAway_amount (amount : Int) (c : Nat) (e : Int) :
    roundHalfAway (amount * ((c : ℚ) * 10 ^ e)) =
      signed (amount < 0) (rescale .halfUp (amount < 0) (amount.natAbs * c) e 0) := by
  have hsign : rescale .halfUp (amount < 0) (amount.natAbs * c) e 0 =
      rescale .halfUp false (amount.natAbs * c) e 0 := rfl
  have hproduct : ((amount.natAbs * c : Nat) : ℚ) * 10 ^ e = (amount.natAbs : ℚ) * ((c : ℚ) * 10 ^ e) := by
    push_cast
    ring
  have hnonneg : (0 : ℚ) ≤ (amount.natAbs : ℚ) * ((c : ℚ) * 10 ^ e) :=
    mul_nonneg (Nat.cast_nonneg _) (mul_nonneg (Nat.cast_nonneg c) (zpow_nonneg (by norm_num) e))
  have hround := roundHalfAway_pow (amount.natAbs * c) e
  rw [hproduct] at hround
  rw [hsign]
  unfold signed
  rcases lt_or_ge amount 0 with hneg | hpos
  · have hint : amount = -(amount.natAbs : Int) := by omega
    have hcast : (amount : ℚ) = -(amount.natAbs : ℚ) := by
      rw [← Int.cast_natCast, ← Int.cast_neg, ← hint]
    rw [if_pos (decide_eq_true hneg), hcast, neg_mul, roundHalfAway_neg hnonneg, hround]
  · have hint : (amount.natAbs : Int) = amount := by omega
    have hcast : (amount : ℚ) = (amount.natAbs : ℚ) := by
      rw [← Int.cast_natCast, hint]
    rw [if_neg (by simpa using hpos), hcast, hround]

theorem convertMinor_eq (rate : Rate) (amount : Int) {c : Nat} {e : Int}
    (hrate : rate.rate = .finite false c e) :
    rate.convertMinor amount = toWhole (amount < 0) (amount.natAbs * c) e := by
  have hmul : (ofInt amount).mul rate.rate = fixed (amount < 0) (amount.natAbs * c) e := by
    rw [hrate]
    show fixed (decide (amount < 0) ^^ false) (amount.natAbs * c) (0 + e) = _
    rw [Bool.xor_false, zero_add]
  unfold Rate.convertMinor toWhole
  rw [hmul]

/-- **When a conversion is exact.** The amount times the rate, rounded half up, is what is returned exactly
if the product is not harmed by the rounding to 28 digits. -/
theorem convertMinor_exact_iff (rate : Rate) (amount : Int) {c : Nat} {e : Int}
    (hrate : rate.rate = .finite false c e) :
    rate.convertMinor amount = .ok (roundHalfAway (amount * ((c : ℚ) * 10 ^ e))) ↔
      RoundsOnce (amount.natAbs * c) e := by
  rw [convertMinor_eq rate amount hrate, roundHalfAway_amount]
  exact toWhole_iff _ _ _

/-- A price at the demonstration rate. -/
theorem convertMinor_exact_iff_euro :
    Rate.convertMinor ⟨"USD", "EUR", .finite false 92 (-2), 0⟩ 12345 =
      .ok (roundHalfAway ((12345 : Int) * ((92 : Nat) * 10 ^ (-2 : Int)))) :=
  (convertMinor_exact_iff ⟨"USD", "EUR", .finite false 92 (-2), 0⟩ 12345 rfl).mpr
    (.inr ⟨by decide, .inl (by decide)⟩)

/-- Half of 1 - 10 ^ -28, from the inverse of a rate of 30, is rounded to the half and then up; an amount of
29 digits cannot be converted at a rate of one. -/
theorem convertMinor_not_exact :
    (StaticRateSource.ofRates [(("USD", "DOP"), .finite false 30 0)]).answer "DOP" "USD" =
        .ok (.finite false 3333333333333333333333333333 (-29)) ∧
      Rate.convertMinor ⟨"DOP", "USD", .finite false 3333333333333333333333333333 (-29), 0⟩ 15 = .ok 1 ∧
      roundHalfAway ((15 : Int) * ((3333333333333333333333333333 : Nat) * 10 ^ (-29 : Int))) = 0 ∧
      Rate.convertMinor ⟨"USD", "USD", .finite false 1 0, 0⟩ (10 ^ 28) = .error .invalidOperation := by
  refine ⟨by decide +kernel, by decide +kernel, ?_, by decide +kernel⟩
  rw [roundHalfAway_amount]
  decide +kernel

end CaviErp
