import CaviErp.Lib.Proofs.DecimalContextProofs

/-!
# Inverses

The inverse of a number is computed to 29 digits at least, and rounded to 28. It is written as a plain
numeral unless it is a whole multiple of ten, which is written with a positive exponent, or too large or
too small.
-/

namespace Py

namespace Decimal

open Rounding

/-- No whole multiple of ten, and from 10 ^ -6 up to 10 ^ 28, as far as 28 digits tell. -/
def PlainValue (y : ℚ) : Prop :=
  (¬ ∃ m : Int, y = 10 * m) ∧ 10 ^ (-6 : Int) - 5 * 10 ^ (-35 : Int) ≤ y ∧ y < 10 ^ 28 - 1 / 2

theorem zpow_ten_le {m n : Int} (h : m ≤ n) : (10 : ℚ) ^ m ≤ 10 ^ n :=
  zpow_le_zpow_right₀ (by norm_num) h

theorem zpow_ten_pos (n : Int) : (0 : ℚ) < 10 ^ n := zpow_pos (by norm_num) n

/-- A number is below the power of ten that its digits reach up to. -/
theorem value_lt (c : Nat) (e : Int) : (c : ℚ) * 10 ^ e < 10 ^ ((numDigits c : Int) + e) := by
  rw [zpow_add₀ (by norm_num), zpow_natCast]
  exact mul_lt_mul_of_pos_right (by exact_mod_cast lt_pow_numDigits c) (zpow_ten_pos e)

theorem le_value {c : Nat} (hc : c ≠ 0) (e : Int) : (10 : ℚ) ^ ((numDigits c : Int) - 1 + e) ≤ c * 10 ^ e := by
  have hpos := numDigits_pos c
  have hsub : (numDigits c : Int) - 1 = ((numDigits c - 1 : Nat) : Int) := by omega
  rw [zpow_add₀ (by norm_num), hsub, zpow_natCast]
  exact mul_le_mul_of_nonneg_right (by exact_mod_cast pow_numDigits_le hc) (zpow_ten_pos e).le

/-! ## Exact inverses -/

/-- A short coefficient without zeros at its end is plain exactly if its value is. -/
theorem positional_iff_plainValue {a : Nat} {f : Int} (ha : a < 10 ^ 28) (hlast : a % 10 ≠ 0) :
    Positional a f ↔ PlainValue (a * 10 ^ f) := by
  have hne : a ≠ 0 := by
    rintro rfl
    exact hlast rfl
  have hdigits : numDigits a ≤ 28 := (numDigits_le_iff (by omega)).mpr ha
  constructor
  · rintro ⟨hexponent, hleft⟩
    refine ⟨?_, ?_, ?_⟩
    · rintro ⟨m, hm⟩
      obtain ⟨k, rfl⟩ : ∃ k : Nat, f = -k := ⟨(-f).toNat, by omega⟩
      have hpow : (10 : ℚ) ^ k ≠ 0 := pow_ne_zero k (by norm_num)
      have hvalue : (a : ℚ) = ((10 * (m * 10 ^ k) : Int) : ℚ) := by
        rw [zpow_neg, zpow_natCast, ← div_eq_mul_inv, div_eq_iff hpow] at hm
        rw [hm]
        push_cast
        ring
      have hint : (a : Int) = 10 * (m * 10 ^ k) := by exact_mod_cast hvalue
      omega
    · have hlow : (10 : ℚ) ^ (-6 : Int) ≤ 10 ^ ((numDigits a : Int) - 1 + f) := zpow_ten_le (by omega)
      have hvalue := le_value hne f
      have hpos := zpow_ten_pos (-35)
      linarith
    · have hone : (10 : ℚ) ^ f ≤ 1 := zpow_le_one_of_nonpos₀ (by norm_num) hexponent
      have hle : (a : ℚ) * 10 ^ f ≤ a := mul_le_of_le_one_right (Nat.cast_nonneg a) hone
      have hbound : (a : ℚ) + 1 ≤ 10 ^ 28 := by exact_mod_cast ha
      linarith
  · rintro ⟨hmultiple, hlow, -⟩
    have hexponent : f ≤ 0 := by
      by_contra hpos
      obtain ⟨k, rfl⟩ : ∃ k : Nat, f = k + 1 := ⟨(f - 1).toNat, by omega⟩
      refine hmultiple ⟨a * 10 ^ k, ?_⟩
      rw [zpow_add_one₀ (by norm_num), zpow_natCast]
      push_cast
      ring
    refine ⟨hexponent, ?_⟩
    by_contra hsmall
    have hcoefficient : (a : ℚ) + 1 ≤ 10 ^ (numDigits a : Int) := by
      rw [zpow_natCast]
      exact_mod_cast lt_pow_numDigits a
    have hvalue : (a : ℚ) * 10 ^ f ≤ 10 ^ ((numDigits a : Int) + f) - 10 ^ f := by
      rw [zpow_add₀ (by norm_num)]
      have hmul := mul_le_mul_of_nonneg_right hcoefficient (zpow_ten_pos f).le
      linarith
    rcases (not_lt.mp hsmall).lt_or_eq with hlt | heq
    · have hseven : (10 : ℚ) ^ ((numDigits a : Int) + f) ≤ 10 ^ (-7 : Int) := zpow_ten_le (by omega)
      have hpos := zpow_ten_pos f
      norm_num at hlow hseven
      linarith
    · have hunit : (10 : ℚ) ^ (-34 : Int) ≤ 10 ^ f := zpow_ten_le (by omega)
      rw [heq] at hvalue
      norm_num at hlow hunit hvalue
      linarith

/-! ## Inverses that are rounded -/

/-- A coefficient of 29 digits is rounded up to a power of ten from the last but five on. -/
theorem units_ten_eq_iff {p : Nat} (h : p < 10 ^ 29) (negative : Bool) :
    halfEven.units negative p 10 = 10 ^ 28 ↔ 10 ^ 29 - 5 ≤ p := by
  rw [units_halfEven]
  split <;> omega

/-- A coefficient of 29 digits with the given exponent, rounded to 28 digits, is a plain numeral. -/
def PlainLong (p : Nat) (g : Int) : Prop :=
  (-34 ≤ g ∧ g ≤ -2) ∨ (g = -35 ∧ 10 ^ 29 - 5 ≤ p) ∨ (g = -1 ∧ p < 10 ^ 29 - 5)

theorem fixed_long_plain {p : Nat} {g : Int} (hlow : 10 ^ 28 ≤ p) (hhigh : p < 10 ^ 29) {x : Decimal}
    (h : fixed false p g = .ok x) : ∃ q f, x = finite false q f ∧ (Positional q f ↔ PlainLong p g) := by
  have hp : p ≠ 0 := by
    rintro rfl
    exact absurd hlow (by decide)
  have hdigits : numDigits p = 29 := numDigits_eq hlow hhigh
  have hpower : numDigits (10 ^ 27) = 28 := by decide
  have hfloor : floorExponent p g = max (g + 1) etiny := by
    unfold floorExponent precision
    rw [hdigits]
    congr 1
    omega
  have hcarry := units_ten_eq_iff hhigh false
  have hlong : 10 ^ 27 ≤ halfEven.units false p 10 := by
    have hdiv : 10 ^ 27 ≤ p / 10 := by omega
    exact hdiv.trans div_le_units
  have hfitsDigits : ∀ q, q < 10 ^ precision → numDigits q ≤ 28 := fun q hq =>
    (numDigits_le_iff (by decide)).mpr hq
  have hcases := fixed_cases false hp g
  rw [h, hfloor] at hcases
  unfold Positional PlainLong
  rcases le_or_gt etiny (g + 1) with hnormal | htiny
  · have hshift : (g + 1 - g).toNat = 1 := by omega
    rw [max_eq_left hnormal, hshift, pow_one] at hcases
    rcases hcases with ⟨-, h⟩ | ⟨-, hle, -⟩ | ⟨-, -, ⟨hfits, h⟩ | ⟨hfull, h⟩⟩
    · cases h
    · omega
    · have hq : numDigits (halfEven.units false p 10) = 28 := numDigits_eq hlong hfits
      have hnot : ¬ 10 ^ 29 - 5 ≤ p := fun hle => absurd (hcarry.mpr hle) (Nat.ne_of_lt hfits)
      refine ⟨_, _, Except.ok.inj h, ?_⟩
      rw [hq]
      omega
    · have hle : 10 ^ 29 - 5 ≤ p := hcarry.mp hfull
      split at h
      · cases h
      · refine ⟨_, _, Except.ok.inj h, ?_⟩
        rw [hpower]
        omega
  · rw [max_eq_right htiny.le] at hcases
    unfold etiny etop at *
    rcases hcases with ⟨-, h⟩ | ⟨-, hle, -⟩ | ⟨-, -, ⟨hfits, h⟩ | ⟨hfull, h⟩⟩
    · cases h
    · omega
    · refine ⟨_, _, Except.ok.inj h, ?_⟩
      have hq := hfitsDigits _ hfits
      omega
    · split at h
      · cases h
      · refine ⟨_, _, Except.ok.inj h, ?_⟩
        rw [hpower]
        omega

/-- A short coefficient is a plain numeral after rounding exactly if it is one before. -/
theorem fixed_short_plain {a : Nat} {f : Int} (hne : a ≠ 0) (ha : a < 10 ^ 28) {x : Decimal}
    (h : fixed false a f = .ok x) :
    ∃ q f', x = finite false q f' ∧ (Positional q f' ↔ Positional a f) := by
  have hdigits : numDigits a ≤ 28 := (numDigits_le_iff (by omega)).mpr ha
  have hpower : numDigits (10 ^ 27) = 28 := by decide
  have hfitsDigits : ∀ q, q < 10 ^ precision → numDigits q ≤ 28 := fun q hq =>
    (numDigits_le_iff (by decide)).mpr hq
  have hfloor : floorExponent a f ≤ f ∨ (f < etiny ∧ floorExponent a f = etiny) := by
    unfold floorExponent precision etiny
    omega
  have hcases := fixed_cases false hne f
  rw [h] at hcases
  unfold Positional
  rcases hcases with ⟨-, h⟩ | ⟨-, -, h⟩ | ⟨-, hlt, ⟨hfits, h⟩ | ⟨hfull, h⟩⟩
  · cases h
  · exact ⟨a, f, Except.ok.inj h, Iff.rfl⟩
  · rcases hfloor with hle | ⟨htiny, hfloor⟩
    · omega
    · refine ⟨_, _, Except.ok.inj h, ?_⟩
      have hq := hfitsDigits _ hfits
      rw [hfloor]
      rw [hfloor] at hq
      unfold etiny at *
      omega
  · rcases hfloor with hle | ⟨htiny, hfloor⟩
    · omega
    · split at h
      · cases h
      · refine ⟨_, _, Except.ok.inj h, ?_⟩
        rw [hfloor, hpower]
        unfold etiny at *
        omega

/-- A number of 29 digits before the point or more of it, scaled. -/
theorem plainValue_iff_long {y : ℚ} {p : Nat} {g : Int} (hlow : 10 ^ 28 ≤ y) (hhigh : y < 10 ^ 29)
    (hp : (10 ^ 29 - 5 : ℚ) ≤ y ↔ 10 ^ 29 - 5 ≤ p) (hmultiple : ¬ ∃ m : Int, y = 10 * m) :
    PlainValue (y * 10 ^ g) ↔ PlainLong p g := by
  have hscale : ∀ {m : Int}, g = m → y * 10 ^ g = y * 10 ^ m := fun h => by rw [h]
  have hpos := zpow_ten_pos g
  have hnone : g ≤ 0 → ¬ ∃ m : Int, y * 10 ^ g = 10 * m := by
    rintro hg ⟨m, hm⟩
    obtain ⟨k, rfl⟩ : ∃ k : Nat, g = -k := ⟨(-g).toNat, by omega⟩
    refine hmultiple ⟨m * 10 ^ k, ?_⟩
    rw [zpow_neg, zpow_natCast, ← div_eq_mul_inv, div_eq_iff (pow_ne_zero k (by norm_num))] at hm
    rw [hm]
    push_cast
    ring
  have hup : y * 10 ^ g < 10 ^ (29 + g) := by
    rw [zpow_add₀ (by norm_num)]
    exact mul_lt_mul_of_pos_right (by exact_mod_cast hhigh) hpos
  have hdown : (10 : ℚ) ^ (28 + g) ≤ y * 10 ^ g := by
    rw [zpow_add₀ (by norm_num)]
    exact mul_le_mul_of_nonneg_right (by exact_mod_cast hlow) hpos.le
  unfold PlainValue PlainLong
  have hranges : g ≤ -36 ∨ g = -35 ∨ (-34 ≤ g ∧ g ≤ -2) ∨ g = -1 ∨ 0 ≤ g := by omega
  rcases hranges with hg | hg | ⟨hg, hg'⟩ | hg | hg
  · refine iff_of_false ?_ (by omega)
    rintro ⟨-, hle, -⟩
    have hseven : (10 : ℚ) ^ (29 + g) ≤ 10 ^ (-7 : Int) := zpow_ten_le (by omega)
    norm_num at hle hseven
    linarith
  · have hhalf : (10 : ℚ) ^ (-6 : Int) - 5 * 10 ^ (-35 : Int) ≤ y * 10 ^ g ↔ (10 ^ 29 - 5 : ℚ) ≤ y := by
      rw [hscale hg]
      constructor
      · intro h
        norm_num at h ⊢
        linarith
      · intro h
        norm_num at h ⊢
        linarith
    have hsix : (10 : ℚ) ^ (29 + g) = 10 ^ (-6 : Int) := by rw [hg]; rfl
    have hsmall : y * 10 ^ g < 10 ^ 28 - 1 / 2 := by
      rw [hsix] at hup
      norm_num at hup ⊢
      linarith
    rw [and_iff_right (hnone (by omega)), and_iff_left hsmall, hhalf, hp]
    omega
  · have hsix : (10 : ℚ) ^ (-6 : Int) ≤ 10 ^ (28 + g) := zpow_ten_le (by omega)
    have hlarge : (10 : ℚ) ^ (29 + g) ≤ 10 ^ (27 : Int) := zpow_ten_le (by omega)
    refine iff_of_true ⟨hnone (by omega), ?_, ?_⟩ (.inl ⟨hg, hg'⟩)
    · have hunit := zpow_ten_pos (-35)
      linarith
    · norm_num at hlarge ⊢
      linarith
  · have hhalf : y * 10 ^ g < 10 ^ 28 - 1 / 2 ↔ ¬ (10 ^ 29 - 5 : ℚ) ≤ y := by
      rw [hscale hg, not_le]
      constructor
      · intro h
        norm_num at h ⊢
        linarith
      · intro h
        norm_num at h ⊢
        linarith
    have hsix : (10 : ℚ) ^ (-6 : Int) - 5 * 10 ^ (-35 : Int) ≤ y * 10 ^ g := by
      have hle : (10 : ℚ) ^ (-6 : Int) ≤ 10 ^ (28 + g) := zpow_ten_le (by omega)
      have hunit := zpow_ten_pos (-35)
      linarith
    rw [and_iff_right (hnone (by omega)), and_iff_right hsix, hhalf, hp]
    omega
  · refine iff_of_false ?_ (by omega)
    rintro ⟨-, -, hlt⟩
    have hle : (10 : ℚ) ^ (28 : Int) ≤ 10 ^ (28 + g) := zpow_ten_le (by omega)
    norm_num at hlt hle
    linarith

/-- An exact quotient of 29 digits or a power of ten, of which the zeros at the end are left off. -/
theorem fixed_exact_plain {t N : Nat} {g : Int} (hlow : 10 ^ 28 ≤ t) (hhigh : t ≤ 10 ^ 29) (hN : 29 ≤ N)
    {x : Decimal} (h : fixed false (stripZeros N t).1 (g + (stripZeros N t).2) = .ok x) :
    ∃ q f, x = finite false q f ∧ (Positional q f ↔ PlainValue (t * 10 ^ g)) := by
  obtain ⟨hstrip, hle, hlast⟩ := stripZeros_spec N t
  generalize stripZeros N t = r at *
  obtain ⟨a, j⟩ := r
  dsimp only at h hstrip hle hlast
  have hne : a ≠ 0 := by
    rintro rfl
    rw [zero_mul] at hstrip
    omega
  have ha : a % 10 ≠ 0 := by
    rcases hle.lt_or_eq with hlt | hall
    · exact hlast hlt
    · -- as many zeros as there are digits: a one
      have hone : 10 ^ 29 ≤ 10 ^ j := Nat.pow_le_pow_right (by omega) (by omega)
      have hmul : a * 10 ^ 29 ≤ a * 10 ^ j := Nat.mul_le_mul_left a hone
      omega
  have hshift : (t : ℚ) * 10 ^ g = a * 10 ^ (g + j) := by
    rw [hstrip, zpow_add₀ (by norm_num), zpow_natCast]
    push_cast
    ring
  rw [hshift]
  by_cases hshort : a < 10 ^ 28
  · obtain ⟨q, f, rfl, hq⟩ := fixed_short_plain hne hshort h
    exact ⟨q, f, rfl, hq.trans (positional_iff_plainValue hshort ha)⟩
  · have hj : j = 0 := by
      by_contra hne
      have hten : 10 ^ 1 ≤ 10 ^ j := Nat.pow_le_pow_right (by omega) (by omega)
      have hmul : a * 10 ^ 1 ≤ a * 10 ^ j := Nat.mul_le_mul_left a hten
      omega
    subst hj
    rw [pow_zero, mul_one] at hstrip
    subst hstrip
    have hlt : t < 10 ^ 29 := by omega
    rw [Nat.cast_zero, add_zero] at h ⊢
    obtain ⟨q, f, rfl, hq⟩ := fixed_long_plain hlow hlt h
    refine ⟨q, f, rfl, hq.trans (plainValue_iff_long ?_ ?_ ?_ ?_).symm⟩
    · exact_mod_cast hlow
    · exact_mod_cast hlt
    · have hcast : ((10 ^ 29 - 5 : Nat) : ℚ) = 10 ^ 29 - 5 := by norm_num
      rw [← hcast, Nat.cast_le]
    · rintro ⟨m, hm⟩
      have hint : (t : Int) = 10 * m := by exact_mod_cast hm
      omega

/-- A quotient between 29 digits and the next, which are taken to show on what side of a half it is. -/
theorem fixed_between_plain {t : Nat} {y : ℚ} {g : Int} (hlow : 10 ^ 28 ≤ t) (hhigh : t < 10 ^ 29)
    (hty : (t : ℚ) < y) (hyt : y < t + 1) {x : Decimal}
    (h : fixed false (if t % 5 = 0 then t + 1 else t) g = .ok x) :
    ∃ q f, x = finite false q f ∧ (Positional q f ↔ PlainValue (y * 10 ^ g)) := by
  have hbounds : 10 ^ 28 ≤ (if t % 5 = 0 then t + 1 else t) ∧ (if t % 5 = 0 then t + 1 else t) < 10 ^ 29 ∧
      (10 ^ 29 - 5 ≤ (if t % 5 = 0 then t + 1 else t) ↔ 10 ^ 29 - 5 ≤ t) := by
    split <;> omega
  obtain ⟨hlow', hhigh', hcarry⟩ := hbounds
  obtain ⟨q, f, rfl, hq⟩ := fixed_long_plain hlow' hhigh' h
  have hlowCast : (10 ^ 28 : ℚ) ≤ t := by exact_mod_cast hlow
  have hhighCast : (t : ℚ) + 1 ≤ 10 ^ 29 := by exact_mod_cast hhigh
  refine ⟨q, f, rfl, hq.trans (plainValue_iff_long (by linarith) (by linarith) ?_ ?_).symm⟩
  · rw [hcarry]
    have hcast : ((10 ^ 29 - 5 : Nat) : ℚ) = 10 ^ 29 - 5 := by norm_num
    rw [← hcast]
    constructor
    · intro hle
      by_contra hnot
      have hless : ((t + 1 : Nat) : ℚ) ≤ ((10 ^ 29 - 5 : Nat) : ℚ) := by exact_mod_cast not_le.mp hnot
      push_cast at hless hle
      linarith
    · intro hle
      have hmore : ((10 ^ 29 - 5 : Nat) : ℚ) ≤ t := by exact_mod_cast hle
      linarith
  · rintro ⟨m, rfl⟩
    have hbelow : (t : Int) < 10 * m := by exact_mod_cast hty
    have habove : 10 * m < (t : Int) + 1 := by exact_mod_cast hyt
    omega

/-! ## The inverse -/

/-- The digits that the inverse of a coefficient is computed to. -/
def inverseDigits (c : Nat) : Nat := 10 ^ (numDigits c + 28) / c

theorem div_one {c : Nat} (hc : c ≠ 0) (e : Int) :
    (ofInt 1).div (finite false c e) = fixed false (quotient 1 0 c e).1 (quotient 1 0 c e).2 := by
  show (if c = 0 then _ else _) = _
  rw [if_neg hc]
  rfl

theorem quotient_one {c : Nat} (e : Int) :
    quotient 1 0 c e =
      if 10 ^ (numDigits c + 28) % c = 0 then
        ((stripZeros (numDigits c + 28) (inverseDigits c)).1,
          -e - (numDigits c + 28 : Nat) + (stripZeros (numDigits c + 28) (inverseDigits c)).2)
      else (if inverseDigits c % 5 = 0 then inverseDigits c + 1 else inverseDigits c,
        -e - (numDigits c + 28 : Nat)) := by
  have hone : numDigits 1 = 1 := by decide
  have hshift : (numDigits c : Int) - numDigits 1 + precision + 1 = (numDigits c + 28 : Nat) := by
    rw [hone]
    unfold precision
    omega
  have hden : (-((numDigits c + 28 : Nat) : Int)).toNat = 0 := by omega
  unfold quotient inverseDigits
  dsimp only
  rw [hshift, hden, Int.toNat_natCast, one_mul, pow_zero, mul_one, zero_sub]

theorem inverseDigits_bounds {c : Nat} (hc : c ≠ 0) :
    10 ^ 28 ≤ inverseDigits c ∧ inverseDigits c ≤ 10 ^ 29 := by
  have hpos : 0 < c := Nat.pos_of_ne_zero hc
  have hdigits := numDigits_pos c
  constructor
  · unfold inverseDigits
    rw [Nat.le_div_iff_mul_le hpos, pow_add, mul_comm]
    exact Nat.mul_le_mul_right _ (lt_pow_numDigits c).le
  · have hsplit : numDigits c + 28 = numDigits c - 1 + 29 := by omega
    unfold inverseDigits
    rw [hsplit, pow_add]
    apply Nat.div_le_of_le_mul
    exact Nat.mul_le_mul_right _ (pow_numDigits_le hc)

/-- The inverse, by the exact quotient of which the digits are computed. -/
theorem inverse_value {c : Nat} (hc : c ≠ 0) (e : Int) :
    1 / ((c : ℚ) * 10 ^ e) =
      (10 ^ (numDigits c + 28) : Nat) / (c : ℚ) * 10 ^ (-e - (numDigits c + 28 : Nat)) := by
  have hne : (c : ℚ) ≠ 0 := by exact_mod_cast hc
  have hpow : (10 : ℚ) ^ e ≠ 0 := (zpow_ten_pos e).ne'
  have hlong : (10 : ℚ) ^ (numDigits c + 28) ≠ 0 := pow_ne_zero _ (by norm_num)
  rw [zpow_sub₀ (by norm_num), zpow_neg, zpow_natCast]
  push_cast
  field_simp

/-- **The inverse of a number, rounded to 28 digits, is a plain numeral exactly if the exact inverse is no
multiple of ten, not too small and not too large.** -/
theorem inverse_plain_iff {c : Nat} (hc : c ≠ 0) (e : Int) {x : Decimal}
    (h : (ofInt 1).div (finite false c e) = .ok x) :
    ∃ q f, x = finite false q f ∧ (Positional q f ↔ PlainValue (1 / ((c : ℚ) * 10 ^ e))) := by
  have hpos : 0 < c := Nat.pos_of_ne_zero hc
  have hcast : (0 : ℚ) < c := by exact_mod_cast hpos
  obtain ⟨hlow, hhigh⟩ := inverseDigits_bounds hc
  have hquot : c * inverseDigits c + 10 ^ (numDigits c + 28) % c = 10 ^ (numDigits c + 28) :=
    Nat.div_add_mod _ _
  have hrest : 10 ^ (numDigits c + 28) % c < c := Nat.mod_lt _ hpos
  have hquotCast : (c : ℚ) * inverseDigits c + (10 ^ (numDigits c + 28) % c : Nat) =
      (10 ^ (numDigits c + 28) : Nat) := by exact_mod_cast hquot
  rw [div_one hc, quotient_one] at h
  rw [inverse_value hc]
  by_cases hexact : 10 ^ (numDigits c + 28) % c = 0
  · have hvalue : ((10 ^ (numDigits c + 28) : Nat) : ℚ) / c = inverseDigits c := by
      rw [div_eq_iff hcast.ne', ← hquotCast, hexact, Nat.cast_zero, add_zero, mul_comm]
    have hdigits := numDigits_pos c
    rw [if_pos hexact] at h
    rw [hvalue]
    exact fixed_exact_plain hlow hhigh (by omega) h
  · have hrestPos : (0 : ℚ) < (10 ^ (numDigits c + 28) % c : Nat) := by
      exact_mod_cast Nat.pos_of_ne_zero hexact
    have hrestLt : ((10 ^ (numDigits c + 28) % c : Nat) : ℚ) < c := by exact_mod_cast hrest
    have hlt : inverseDigits c < 10 ^ 29 := by
      refine lt_of_le_of_ne hhigh fun hfull => hexact ?_
      -- all of it would be a power of ten times the coefficient
      have hsplit : numDigits c + 28 = numDigits c - 1 + 29 := by
        have hdigits := numDigits_pos c
        omega
      have hle : 10 ^ (numDigits c + 28) ≤ c * 10 ^ 29 := by
        rw [hsplit, pow_add]
        exact Nat.mul_le_mul_right _ (pow_numDigits_le hc)
      rw [hfull] at hquot
      omega
    rw [if_neg hexact] at h
    refine fixed_between_plain hlow hlt ?_ ?_ h
    · rw [lt_div_iff₀ hcast]
      linarith
    · rw [div_lt_iff₀ hcast]
      linarith

/-! ## Whole numbers that fit -/

/-- The whole part is carried to the power of ten from the half below it on. -/
theorem halfEven_carries_iff (negative : Bool) {c k : Nat} (hq : c / 10 ^ k < 10 ^ 28) :
    halfEven.units negative c (10 ^ k) = 10 ^ 28 ↔ ¬ 2 * c + 10 ^ k < 2 * 10 ^ 28 * 10 ^ k := by
  have hdiv : 10 ^ k * (c / 10 ^ k) + c % 10 ^ k = c := Nat.div_add_mod c _
  have hmod : c % 10 ^ k < 10 ^ k := Nat.mod_lt c (Nat.pow_pos (by omega))
  rw [units_halfEven]
  generalize c / 10 ^ k = q at *
  generalize c % 10 ^ k = r at *
  subst hdiv
  rcases Nat.lt_or_ge (q + 1) (10 ^ 28) with hfew | hall
  · have hmul : 10 ^ k * (q + 2) ≤ 10 ^ k * 10 ^ 28 := Nat.mul_le_mul_left _ (by omega)
    refine iff_of_false ?_ ?_
    · split <;> omega
    · rw [not_not]
      nlinarith
  · have hlast : q = 10 ^ 28 - 1 := by omega
    subst hlast
    split <;> omega

theorem value_lt_half_iff (c k : Nat) :
    (c : ℚ) * 10 ^ (-(k : Int)) < 10 ^ 28 - 1 / 2 ↔ 2 * c + 10 ^ k < 2 * 10 ^ 28 * 10 ^ k := by
  have hpos : (0 : ℚ) < 10 ^ k := by positivity
  have hcast : (2 * c + 10 ^ k < 2 * 10 ^ 28 * 10 ^ k) ↔
      (2 * (c : ℚ) + 10 ^ k < 2 * 10 ^ 28 * 10 ^ k) := by exact_mod_cast Iff.rfl
  rw [zpow_neg, zpow_natCast, ← div_eq_mul_inv, div_lt_iff₀ hpos, hcast]
  constructor
  · intro h
    linarith
  · intro h
    linarith

/-- A whole number of 28 digits. -/
theorem value_lt_half_of_whole {c k : Nat} (hfull : (numDigits c : Int) + k = 28) :
    (c : ℚ) * 10 ^ (k : Int) < 10 ^ 28 - 1 / 2 := by
  have hup := value_lt c k
  have hexponent : (numDigits c : Int) + k = (28 : Nat) := hfull
  have hwhole : c * 10 ^ k < 10 ^ 28 := by
    rw [← Nat.cast_lt (α := ℚ)]
    push_cast
    rw [hexponent] at hup
    exact_mod_cast hup
  have hcast : (c : ℚ) * 10 ^ k + 1 ≤ 10 ^ 28 := by exact_mod_cast hwhole
  rw [zpow_natCast]
  linarith

/-- Fewer than 28 digits before the point. -/
theorem toWhole_returns_of_less (negative : Bool) {c : Nat} {e : Int} (hc : c ≠ 0)
    (hless : (numDigits c : Int) + e < 28) : ∃ n, toWhole negative c e = .ok n := by
  rcases lt_or_ge ((numDigits c : Int) + e) 0 with hsmall | hlow
  · exact ⟨_, toWhole_of_small negative hc hsmall⟩
  · rcases Nat.lt_or_ge 28 (numDigits c) with hlong | hshort
    · obtain ⟨m, hm⟩ : ∃ m : Nat, (numDigits c : Int) + e = 28 - (m + 1 : Nat) :=
        ⟨(27 - (numDigits c + e)).toNat, by omega⟩
      exact ⟨_, toWhole_of_long negative hlong hm hlow⟩
    · exact ⟨_, toWhole_of_fixed (fixed_of_fits negative hc hshort hlow hless.le)
        ((numDigits_le_iff (by decide)).mp hshort) hless.le⟩

/-- 28 of them, and digits behind it. -/
theorem toWhole_returns_iff_full (negative : Bool) {c : Nat} {e : Int} (hlong : 28 < numDigits c)
    (hfull : (numDigits c : Int) + e = 28) :
    (∃ n, toWhole negative c e = .ok n) ↔ (c : ℚ) * 10 ^ e < 10 ^ 28 - 1 / 2 := by
  obtain ⟨k, rfl⟩ : ∃ k : Nat, e = -k := ⟨(-e).toNat, by omega⟩
  have hk : (- -(k : Int)).toNat = k := by omega
  have hq : c / 10 ^ k < 10 ^ 28 := by
    rw [Nat.div_lt_iff_lt_mul (Nat.pow_pos (by omega)), ← pow_add]
    exact (lt_pow_numDigits c).trans_le (Nat.pow_le_pow_right (by omega) (by omega))
  have hcarry := halfEven_carries_iff negative hq
  have hcases := toWhole_of_full negative hlong hfull
  rw [hk] at hcases
  rw [value_lt_half_iff]
  rcases hcases with ⟨hlt, h⟩ | ⟨heq, h⟩
  · exact iff_of_true ⟨_, h⟩ (not_not.mp fun hnot => absurd (hcarry.mpr hnot) hlt.ne)
  · refine iff_of_false ?_ (hcarry.mp heq)
    rw [h]
    rintro ⟨-, ⟨⟩⟩

/-- A number is rounded to a whole number unless 28 digits are too few for it. -/
theorem toWhole_returns_iff (negative : Bool) (c : Nat) (e : Int) :
    (∃ n, toWhole negative c e = .ok n) ↔ (c : ℚ) * 10 ^ e < 10 ^ 28 - 1 / 2 := by
  by_cases hc : c = 0
  · rw [hc]
    refine iff_of_true ⟨_, toWhole_of_zero negative e⟩ ?_
    rw [Nat.cast_zero, zero_mul]
    norm_num
  · have hranges : 28 < (numDigits c : Int) + e ∨ (numDigits c : Int) + e < 28 ∨
        (numDigits c : Int) + e = 28 := by omega
    rcases hranges with hlarge | hless | hfull
    · obtain ⟨error, herror⟩ := toWhole_of_large negative hc hlarge
      have hdown := le_value hc e
      have hpow : (10 : ℚ) ^ (28 : Int) ≤ 10 ^ ((numDigits c : Int) - 1 + e) := zpow_ten_le (by omega)
      refine iff_of_false (by rw [herror]; rintro ⟨-, ⟨⟩⟩) (not_lt.mpr ?_)
      norm_num at hpow ⊢
      linarith
    · have hup := value_lt c e
      have hpow : (10 : ℚ) ^ ((numDigits c : Int) + e) ≤ 10 ^ (27 : Int) := zpow_ten_le (by omega)
      refine iff_of_true (toWhole_returns_of_less negative hc hless) ?_
      norm_num at hpow ⊢
      linarith
    · rcases Nat.lt_or_ge 28 (numDigits c) with hlong | hshort
      · exact toWhole_returns_iff_full negative hlong hfull
      · obtain ⟨k, rfl⟩ : ∃ k : Nat, e = k := ⟨e.toNat, by omega⟩
        have hfixed := fixed_of_fits negative hc hshort (by omega) hfull.le
        exact iff_of_true ⟨_, toWhole_of_fixed hfixed ((numDigits_le_iff (by decide)).mp hshort) hfull.le⟩
          (value_lt_half_of_whole hfull)

end Decimal

end Py
