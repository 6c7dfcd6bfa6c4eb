import CaviErp.Lib.Proofs.NumeralProofs
import CaviErp.Lib.Proofs.RoundingProofs

/-!
# Whole numbers from products

What is left of a product after it was rounded to the precision and then, half up, to a whole number. It is
the product rounded once as long as the precision is not exceeded, or the first rounding does no harm.
-/

namespace Py

namespace Decimal

open Rounding

/-- A number with its sign. -/
def signed (negative : Bool) (n : Nat) : Int := if negative then -n else n

theorem signed_inj {negative : Bool} {m n : Nat} : signed negative m = signed negative n ↔ m = n := by
  unfold signed
  split <;> omega

variable {negative : Bool} {c : Nat} {e : Int}

/-! ## Rounding to the precision -/

/-- The exponent that a result has at least. -/
def floorExponent (c : Nat) (e : Int) : Int := max (numDigits c + e - precision) etiny

theorem units_le_precision (hlt : e < floorExponent c e) :
    halfEven.units negative c (10 ^ (floorExponent c e - e).toNat) ≤ 10 ^ precision := by
  have hfloor : numDigits c + e - precision ≤ floorExponent c e := le_max_left _ _
  refine units_le_of_le (Nat.pow_pos (by omega)) ?_
  rw [← pow_add]
  refine (lt_pow_numDigits c).le.trans (Nat.pow_le_pow_right (by omega) ?_)
  omega

/-- A number overflows, or is kept, or is rounded; a digit more than fits is a zero. -/
theorem fixed_cases (negative : Bool) (hc : c ≠ 0) (e : Int) :
    (etop < floorExponent c e ∧ fixed negative c e = .error .overflow) ∨
    (floorExponent c e ≤ etop ∧ floorExponent c e ≤ e ∧ fixed negative c e = .ok (finite negative c e)) ∨
    (floorExponent c e ≤ etop ∧ e < floorExponent c e ∧
      let q := halfEven.units negative c (10 ^ (floorExponent c e - e).toNat)
      (q < 10 ^ precision ∧ fixed negative c e = .ok (finite negative q (floorExponent c e))) ∨
      (q = 10 ^ precision ∧ fixed negative c e =
        if etop < floorExponent c e + 1 then .error .overflow
        else .ok (finite negative (10 ^ 27) (floorExponent c e + 1)))) := by
  have hover : etop < numDigits c + e - precision ↔ etop < floorExponent c e := by
    unfold floorExponent etop etiny
    omega
  have hfixed : fixed negative c e =
      if etop < floorExponent c e then .error .overflow
      else if e < floorExponent c e then
        let q := halfEven.units negative c (10 ^ (floorExponent c e - e).toNat)
        let r := if precision < numDigits q then (q / 10, floorExponent c e + 1) else (q, floorExponent c e)
        if etop < r.2 then .error .overflow else .ok (finite negative r.1 r.2)
      else .ok (finite negative c e) := by
    unfold fixed
    rw [if_neg hc]
    simp only [hover]
    rfl
  have hle := @units_le_precision negative c e
  rw [hfixed]
  generalize floorExponent c e = f at *
  rcases lt_or_ge etop f with htop | htop
  · exact .inl ⟨htop, if_pos htop⟩
  · rw [if_neg (not_lt.mpr htop)]
    rcases lt_or_ge e f with hlow | hlow
    · refine .inr (.inr ⟨htop, hlow, ?_⟩)
      rw [if_pos hlow]
      specialize hle hlow
      dsimp only
      generalize halfEven.units negative c (10 ^ (f - e).toNat) = q at *
      rcases hle.lt_or_eq with hfits | rfl
      · have hdigits : ¬ precision < numDigits q := not_lt.mpr ((numDigits_le_iff (by decide)).mpr hfits)
        refine .inl ⟨hfits, ?_⟩
        rw [if_neg hdigits, if_neg (not_lt.mpr htop)]
      · have hdigits : precision < numDigits (10 ^ precision) := by decide
        refine .inr ⟨rfl, ?_⟩
        rw [if_pos hdigits]
        rfl
    · exact .inr (.inl ⟨htop, hlow, if_neg (not_lt.mpr hlow)⟩)

/-- A short coefficient is kept where the exponent is in range. -/
theorem fixed_of_fits (negative : Bool) (hc : c ≠ 0) (hdigits : numDigits c ≤ precision)
    (hlow : 0 ≤ numDigits c + e) (hhigh : numDigits c + e ≤ 28) :
    fixed negative c e = .ok (finite negative c e) := by
  have hfloor : floorExponent c e ≤ etop ∧ floorExponent c e ≤ e := by
    unfold floorExponent etop etiny
    unfold precision at *
    omega
  rcases fixed_cases negative hc e with ⟨htop, -⟩ | ⟨-, -, h⟩ | ⟨-, hlt, -⟩
  · omega
  · exact h
  · omega

/-- More digits before the point than fit are as many after rounding. -/
theorem fixed_of_large (negative : Bool) (hc : c ≠ 0) (hlarge : 28 < numDigits c + e) :
    fixed negative c e = .error .overflow ∨
      ∃ q f, fixed negative c e = .ok (finite negative q f) ∧ q ≠ 0 ∧ 28 < numDigits q + f := by
  have hfloor : floorExponent c e = numDigits c + e - 28 := by
    unfold floorExponent etiny precision
    omega
  rcases fixed_cases negative hc e with ⟨-, h⟩ | ⟨-, -, h⟩ | ⟨-, hlt, ⟨-, h⟩ | ⟨-, h⟩⟩
  · exact .inl h
  · exact .inr ⟨c, e, h, hc, hlarge⟩
  · have hshift : (floorExponent c e - e).toNat = numDigits c - 28 := by omega
    rw [hshift] at h
    refine .inr ⟨_, _, h, ?_⟩
    have hlow : 10 ^ 27 ≤ halfEven.units negative c (10 ^ (numDigits c - 28)) := by
      refine le_trans ?_ div_le_units
      rw [Nat.le_div_iff_mul_le (Nat.pow_pos (by omega)), ← pow_add]
      have hexponent : 27 + (numDigits c - 28) = numDigits c - 1 := by omega
      rw [hexponent]
      exact pow_numDigits_le hc
    have hdigits : ¬ numDigits (halfEven.units negative c (10 ^ (numDigits c - 28))) ≤ 27 := by
      rw [numDigits_le_iff (by omega)]
      exact not_lt.mpr hlow
    refine ⟨?_, by omega⟩
    intro hzero
    rw [hzero] at hlow
    exact absurd hlow (by decide)
  · split at h
    · exact .inl h
    · refine .inr ⟨_, _, h, by decide, ?_⟩
      have hdigits : numDigits (10 ^ 27) = 28 := by decide
      omega

/-- Less than a tenth is less than a tenth after rounding. -/
theorem fixed_of_small (negative : Bool) (hc : c ≠ 0) (hsmall : numDigits c + e < 0) :
    ∃ (q : Nat) (f : Int), fixed negative c e = .ok (finite negative q f) ∧ q < 10 ^ precision ∧ f < 0 ∧
      10 * q ≤ 10 ^ (-f).toNat := by
  have hfloor : floorExponent c e < 0 := by
    unfold floorExponent etiny precision
    omega
  have hten : ∀ f : Int, f < 0 → 10 * 10 ^ (-f - 1).toNat = 10 ^ (-f).toNat := by
    intro f hf
    have hsucc : (-f).toNat = (-f - 1).toNat + 1 := by omega
    rw [hsucc, pow_succ, mul_comm]
  rcases fixed_cases negative hc e with ⟨htop, -⟩ | ⟨-, hle, h⟩ | ⟨-, hlt, hq⟩
  · unfold etop at htop
    omega
  · refine ⟨c, e, h, ?_, by omega, ?_⟩
    · rw [← numDigits_le_iff (by decide)]
      have hmax : numDigits c + e - precision ≤ floorExponent c e := le_max_left _ _
      omega
    · rw [← hten e (by omega)]
      refine Nat.mul_le_mul_left 10 ((lt_pow_numDigits c).le.trans ?_)
      exact Nat.pow_le_pow_right (by omega) (by omega)
  · have hbound : halfEven.units negative c (10 ^ (floorExponent c e - e).toNat) ≤
        10 ^ (-floorExponent c e - 1).toNat := by
      refine units_le_of_le (Nat.pow_pos (by omega)) ?_
      rw [← pow_add]
      exact (lt_pow_numDigits c).le.trans (Nat.pow_le_pow_right (by omega) (by omega))
    rcases hq with ⟨hfits, h⟩ | ⟨heq, h⟩
    · refine ⟨_, _, h, hfits, hfloor, ?_⟩
      rw [← hten _ hfloor]
      exact Nat.mul_le_mul_left 10 hbound
    · rw [heq] at hbound
      have hexponent : precision ≤ (-floorExponent c e - 1).toNat :=
        (Nat.pow_le_pow_iff_right (by omega)).mp hbound
      unfold precision at hexponent
      rw [if_neg (by unfold etop; omega)] at h
      refine ⟨_, _, h, by decide, by omega, ?_⟩
      have hsucc : (-(floorExponent c e + 1)).toNat = (-floorExponent c e - 1).toNat := by omega
      rw [hsucc]
      exact hbound

/-- Rounding keeps the sign. -/
theorem fixed_eq_finite {x : Decimal} (h : fixed negative c e = .ok x) : ∃ q f, x = finite negative q f := by
  by_cases hc : c = 0
  · rw [hc] at h
    exact ⟨_, _, (Except.ok.inj h).symm⟩
  · rcases fixed_cases negative hc e with ⟨-, heq⟩ | ⟨-, -, heq⟩ | ⟨-, -, ⟨-, heq⟩ | ⟨-, heq⟩⟩
    · cases heq.symm.trans h
    · exact ⟨_, _, (Except.ok.inj (heq.symm.trans h)).symm⟩
    · exact ⟨_, _, (Except.ok.inj (heq.symm.trans h)).symm⟩
    · rw [h] at heq
      split at heq
      · cases heq
      · exact ⟨_, _, Except.ok.inj heq⟩

/-! ## Rounding to whole numbers -/

theorem numDigits_mul_pow (hc : c ≠ 0) (k : Nat) : numDigits (c * 10 ^ k) = numDigits c + k := by
  have hpos := numDigits_pos c
  obtain ⟨d, hd⟩ : ∃ d, numDigits c = d + 1 := ⟨numDigits c - 1, by omega⟩
  have hlow := pow_numDigits_le hc
  have hhigh := lt_pow_numDigits c
  rw [hd] at hlow hhigh
  rw [hd, Nat.add_right_comm]
  apply numDigits_eq
  · rw [pow_add]
    exact Nat.mul_le_mul_right _ hlow
  · have hsplit : 10 ^ (d + k + 1) = 10 ^ (d + 1) * 10 ^ k := by ring
    rw [hsplit]
    exact Nat.mul_lt_mul_of_pos_right hhigh (Nat.pow_pos (by omega))

/-- Of a short coefficient with no more digits before the point, the whole number is a short one. -/
theorem numDigits_rescale_le (rounding : Rounding) (negative : Bool) (hfits : c < 10 ^ precision)
    (hlarge : numDigits c + e ≤ 28) : numDigits (rescale rounding negative c e 0) ≤ precision := by
  unfold rescale
  split
  · rename_i hwhole
    by_cases hc : c = 0
    · rw [hc, zero_mul]
      decide
    · rw [numDigits_mul_pow hc]
      unfold precision
      omega
  · rename_i hfraction
    rw [numDigits_le_iff (by decide)]
    have hbound : rounding.units negative c (10 ^ (0 - e).toNat) ≤ 10 ^ 27 := by
      refine units_le_of_le (Nat.pow_pos (by omega)) ?_
      rw [← pow_add]
      refine hfits.le.trans (Nat.pow_le_pow_right (by omega) ?_)
      unfold precision
      omega
    exact hbound.trans_lt (by decide)

theorem fixed_whole (negative : Bool) {q : Nat} (h : numDigits q ≤ precision) :
    fixed negative q 0 = .ok (finite negative q 0) := by
  by_cases hq : q = 0
  · rw [hq]
    rfl
  · unfold precision at h
    exact fixed_of_fits negative hq h (by omega) (by omega)

theorem rescale_zero (rounding : Rounding) (negative : Bool) (e : Int) :
    rescale rounding negative 0 e 0 = 0 := by
  unfold rescale
  split
  · exact zero_mul _
  · have hunits := units_mul rounding negative 0 (Nat.pow_pos (by omega) : 0 < 10 ^ (0 - e).toNat)
    rwa [zero_mul] at hunits

theorem quantize_of_fits (rounding : Rounding) (negative : Bool) (hfits : c < 10 ^ precision)
    (hlarge : numDigits c + e ≤ 28) :
    (finite negative c e).quantize 0 rounding = .ok (finite negative (rescale rounding negative c e 0) 0) := by
  have hdigits := numDigits_rescale_le rounding negative hfits hlarge
  unfold quantize
  dsimp only
  rw [if_neg (by decide)]
  by_cases hc : c = 0
  · rw [if_pos hc, hc, rescale_zero]
    rfl
  · have hadjusted : ¬ (emax < adjusted c e ∨ precision < adjusted c e - 0 + 1) := by
      unfold adjusted emax precision
      omega
    have hwhole : ¬ (emax < adjusted (rescale rounding negative c e 0) 0 ∨
        precision < numDigits (rescale rounding negative c e 0)) := by
      unfold adjusted emax
      unfold precision at hdigits ⊢
      omega
    rw [if_neg hc, if_neg hadjusted, if_neg hwhole]
    exact fixed_whole negative hdigits

theorem quantize_of_large (rounding : Rounding) (negative : Bool) (hc : c ≠ 0)
    (hlarge : 28 < numDigits c + e) :
    (finite negative c e).quantize 0 rounding = .error .invalidOperation := by
  have hadjusted : precision < adjusted c e - 0 + 1 := by
    unfold adjusted precision
    omega
  unfold quantize
  dsimp only
  rw [if_neg (by decide), if_neg hc, if_pos (.inr hadjusted)]

theorem quantize_eq_finite {target : Int} {rounding : Rounding} {x : Decimal}
    (h : (finite negative c e).quantize target rounding = .ok x) : ∃ q f, x = finite negative q f := by
  unfold quantize at h
  dsimp only at h
  split at h
  · cases h
  · split at h
    · exact fixed_eq_finite h
    · split at h
      · cases h
      · split at h
        · cases h
        · exact fixed_eq_finite h

theorem toInt_whole (negative : Bool) (q : Nat) : (finite negative q 0).toInt = .ok (signed negative q) := by
  unfold toInt signed
  simp

/-! ## Rounding twice -/

/-- A number that is rounded to the precision, and then half up to a whole number. -/
def toWhole (negative : Bool) (c : Nat) (e : Int) : Except DecimalError Int := do
  let x ← fixed negative c e
  let y ← x.quantize 0 .halfUp
  y.toInt

/-- The number `c · 10 ^ e` has 28 digits at most before the point, and 28 digits in all or a rest that its
first rounding does not take to the half: of a number with 28 digits before the point, the rest is not the
half of an even number and no digit is carried; of any other, the rest is the half or more, or it is less by
more than what is dropped at most. -/
def RoundsOnce (c : Nat) (e : Int) : Prop :=
  c = 0 ∨ (numDigits c + e ≤ 28 ∧ (numDigits c ≤ 28 ∨
    let unit := 10 ^ (-e).toNat
    let rest := c % unit
    let dropped := 10 ^ (numDigits c - 28)
    if numDigits c + e = 28 then
      ¬ (2 * rest = unit ∧ c / unit % 2 = 0) ∧ ¬ (c / unit + 1 = 10 ^ 28 ∧ unit ≤ 2 * rest)
    else
      unit ≤ 2 * rest ∨ 2 * rest + dropped < unit ∨ (2 * rest + dropped = unit ∧ numDigits c + e = 27)))

theorem toWhole_of_fixed {q : Nat} {f : Int} (h : fixed negative c e = .ok (finite negative q f))
    (hfits : q < 10 ^ precision) (hlarge : numDigits q + f ≤ 28) :
    toWhole negative c e = .ok (signed negative (rescale .halfUp negative q f 0)) := by
  unfold toWhole
  rw [h]
  show ((finite negative q f).quantize 0 .halfUp >>= toInt) = _
  rw [quantize_of_fits .halfUp negative hfits hlarge]
  exact toInt_whole negative _

theorem toWhole_of_zero (negative : Bool) (e : Int) : toWhole negative 0 e = .ok (signed negative 0) := by
  have hfixed : fixed negative 0 e = .ok (finite negative 0 (min (max e etiny) emax)) := rfl
  unfold toWhole
  rw [hfixed]
  show ((finite negative 0 (min (max e etiny) emax)).quantize 0 .halfUp >>= toInt) = _
  rfl

theorem toWhole_of_large (negative : Bool) (hc : c ≠ 0) (hlarge : 28 < numDigits c + e) :
    ∃ error, toWhole negative c e = .error error := by
  unfold toWhole
  rcases fixed_of_large negative hc hlarge with h | ⟨q, f, h, hq, hdigits⟩
  · exact ⟨.overflow, by rw [h]; rfl⟩
  · refine ⟨.invalidOperation, ?_⟩
    rw [h]
    show ((finite negative q f).quantize 0 .halfUp >>= toInt) = _
    rw [quantize_of_large .halfUp negative hq hdigits]
    rfl

theorem toWhole_nonneg {n : Int} (h : toWhole false c e = .ok n) : 0 ≤ n := by
  unfold toWhole at h
  cases hfixed : fixed false c e with
  | error error =>
    rw [hfixed] at h
    cases h
  | ok x =>
    rw [hfixed] at h
    obtain ⟨q, f, rfl⟩ := fixed_eq_finite hfixed
    have h : ((finite false q f).quantize 0 .halfUp >>= toInt) = .ok n := h
    cases hquantize : (finite false q f).quantize 0 .halfUp with
    | error error =>
      rw [hquantize] at h
      cases h
    | ok y =>
      rw [hquantize] at h
      obtain ⟨q', f', rfl⟩ := quantize_eq_finite hquantize
      obtain rfl := Except.ok.inj h
      exact Int.natCast_nonneg _

/-- Less than a tenth is rounded to zero, at once or twice. -/
theorem rescale_of_small (negative : Bool) (he : e < 0) (h : 10 * c ≤ 10 ^ (-e).toNat) :
    rescale .halfUp negative c e 0 = 0 := by
  have hpos : 0 < 10 ^ (-e).toNat := Nat.pow_pos (by omega)
  unfold rescale
  rw [if_neg (by omega), zero_sub]
  exact units_halfUp_of_lt negative (by omega)

theorem pow_of_small (hsmall : numDigits c + e < 0) : 10 * 10 ^ numDigits c ≤ 10 ^ (-e).toNat := by
  rw [← pow_succ']
  exact Nat.pow_le_pow_right (by omega) (by omega)

theorem toWhole_of_small (negative : Bool) (hc : c ≠ 0) (hsmall : numDigits c + e < 0) :
    toWhole negative c e = .ok (signed negative (rescale .halfUp negative c e 0)) := by
  obtain ⟨q, f, h, hfits, hf, htenth⟩ := fixed_of_small negative hc hsmall
  have hlarge : numDigits q + f ≤ 28 := by
    have hdigits : numDigits q ≤ precision := (numDigits_le_iff (by decide)).mpr hfits
    unfold precision at hdigits
    omega
  have hpow := pow_of_small hsmall
  have hlt := lt_pow_numDigits c
  rw [toWhole_of_fixed h hfits hlarge, rescale_of_small negative hf htenth,
    rescale_of_small negative (by omega) (by omega)]

/-- A long number with fewer digits before the point than fit is rounded twice. -/
theorem toWhole_of_long (negative : Bool) {m : Nat} (hdigits : 28 < numDigits c)
    (hm : numDigits c + e = 28 - (m + 1 : Nat)) (hlow : 0 ≤ numDigits c + e) :
    toWhole negative c e = .ok (signed negative (halfUp.units negative
      (halfEven.units negative c (10 ^ (numDigits c - 28))) (10 ^ (m + 1)))) := by
  have hc : c ≠ 0 := by
    rintro rfl
    exact absurd hdigits (by decide)
  have hfloor : floorExponent c e = -(m + 1 : Nat) := by
    unfold floorExponent etiny precision
    omega
  have hshift : (floorExponent c e - e).toNat = numDigits c - 28 := by omega
  rcases fixed_cases negative hc e with ⟨htop, -⟩ | ⟨-, hle, -⟩ | ⟨-, -, ⟨hfits, h⟩ | ⟨hfull, h⟩⟩
  · unfold etop at htop
    omega
  · omega
  · rw [hshift] at hfits h
    have hq : numDigits (halfEven.units negative c (10 ^ (numDigits c - 28))) ≤ precision :=
      (numDigits_le_iff (by decide)).mpr hfits
    unfold precision at hq
    rw [toWhole_of_fixed h hfits (by omega), hfloor]
    unfold rescale
    rw [if_neg (by omega)]
    have hexponent : (0 - -((m + 1 : Nat) : Int)).toNat = m + 1 := by omega
    rw [hexponent]
  · rw [hshift] at hfull
    rw [if_neg (by unfold etop; omega)] at h
    have htwentyEight : numDigits (10 ^ 27) = 28 := by decide
    rw [toWhole_of_fixed h (by decide) (by omega), hfloor, hfull]
    have hmle : m ≤ 27 := by omega
    have hresult : halfUp.units negative (10 ^ precision) (10 ^ (m + 1)) = 10 ^ (27 - m) := by
      have hsplit : 10 ^ precision = 10 ^ (27 - m) * 10 ^ (m + 1) := by
        rw [← pow_add]
        congr 1
        unfold precision
        omega
      rw [hsplit, units_mul _ _ _ (Nat.pow_pos (by omega))]
    rw [hresult]
    unfold rescale
    by_cases hzero : m = 0
    · subst hzero
      rfl
    · rw [if_neg (by omega)]
      have hexponent : (0 - (-((m + 1 : Nat) : Int) + 1)).toNat = m := by omega
      have hsplit : 10 ^ 27 = 10 ^ (27 - m) * 10 ^ m := by
        rw [← pow_add]
        congr 1
        omega
      rw [hexponent, hsplit, units_mul _ _ _ (Nat.pow_pos (by omega))]

/-- A long number with as many digits before the point as fit is rounded to them, ties to even. -/
theorem toWhole_of_full (negative : Bool) (hdigits : 28 < numDigits c) (hfull : numDigits c + e = 28) :
    let q := halfEven.units negative c (10 ^ (-e).toNat)
    (q < 10 ^ 28 ∧ toWhole negative c e = .ok (signed negative q)) ∨
      (q = 10 ^ 28 ∧ toWhole negative c e = .error .invalidOperation) := by
  have hc : c ≠ 0 := by
    rintro rfl
    exact absurd hdigits (by decide)
  have hfloor : floorExponent c e = 0 := by
    unfold floorExponent etiny precision
    omega
  intro q
  rcases fixed_cases negative hc e with ⟨htop, -⟩ | ⟨-, hle, -⟩ | ⟨-, -, ⟨hfits, h⟩ | ⟨hcarry, h⟩⟩
  · unfold etop at htop
    omega
  · omega
  · rw [hfloor, zero_sub] at hfits h
    have hq : numDigits q ≤ precision := (numDigits_le_iff (by decide)).mpr hfits
    unfold precision at hq
    refine .inl ⟨hfits, ?_⟩
    rw [toWhole_of_fixed h hfits (by show (numDigits q : Int) + 0 ≤ 28; omega)]
    unfold rescale
    rw [if_pos le_rfl]
    simp [q]
  · rw [hfloor, zero_sub] at hcarry
    rw [hfloor] at h
    refine .inr ⟨hcarry, ?_⟩
    unfold toWhole
    rw [h]
    rfl

/-! ## When the two roundings are one -/

theorem rescale_of_neg (negative : Bool) (he : e < 0) :
    rescale .halfUp negative c e 0 = halfUp.units negative c (10 ^ (-e).toNat) := by
  unfold rescale
  rw [if_neg (by omega), zero_sub]

/-- Of a number of units, ties go up and to the even number alike but for the halves of even numbers. -/
theorem halfEven_eq_halfUp_iff (negative : Bool) {unit : Nat} :
    halfEven.units negative c unit = halfUp.units negative c unit ↔
      ¬ (2 * (c % unit) = unit ∧ c / unit % 2 = 0) := by
  rw [units_halfEven, units_halfUp_eq]
  split <;> split <;> omega

/-- Of a long number with as many digits before the point as fit, the one rounding is to be half up. -/
theorem toWhole_full_iff (negative : Bool) (hdigits : 28 < numDigits c) (hfull : numDigits c + e = 28) :
    toWhole negative c e = .ok (signed negative (halfUp.units negative c (10 ^ (-e).toNat))) ↔
      ¬ (2 * (c % 10 ^ (-e).toNat) = 10 ^ (-e).toNat ∧ c / 10 ^ (-e).toNat % 2 = 0) ∧
        ¬ (c / 10 ^ (-e).toNat + 1 = 10 ^ 28 ∧ 10 ^ (-e).toNat ≤ 2 * (c % 10 ^ (-e).toNat)) := by
  have hunit : 0 < 10 ^ (-e).toNat := Nat.pow_pos (by omega)
  have hsame := @halfEven_eq_halfUp_iff c negative (10 ^ (-e).toNat)
  have hq : c / 10 ^ (-e).toNat < 10 ^ 28 := by
    rw [Nat.div_lt_iff_lt_mul hunit, ← pow_add]
    exact (lt_pow_numDigits c).trans_le (Nat.pow_le_pow_right (by omega) (by omega))
  have hup := units_halfUp_eq negative c (10 ^ (-e).toNat)
  have heven := units_halfEven negative c (10 ^ (-e).toNat)
  rcases toWhole_of_full negative hdigits hfull with ⟨hlt, h⟩ | ⟨hcarry, h⟩
  · rw [h, Except.ok.injEq, signed_inj, hsame]
    refine (and_iff_left_of_imp fun hnot => ?_).symm
    rintro ⟨hlast, hhalf⟩
    rw [← hsame, hup, if_pos hhalf, hlast] at hnot
    exact absurd hnot hlt.ne
  · rw [h]
    refine iff_of_false nofun ?_
    rintro ⟨-, hcarried⟩
    rw [hcarry] at heven
    split at heven
    · exact hcarried ⟨heven.symm, by omega⟩
    · omega

/-- Of a long number with fewer digits before the point than fit, the second rounding is not to go up from
just below the half. -/
theorem toWhole_long_iff (negative : Bool) {m : Nat} (hdigits : 28 < numDigits c)
    (hm : numDigits c + e = 28 - (m + 1 : Nat)) (hlow : 0 ≤ numDigits c + e) :
    toWhole negative c e = .ok (signed negative (halfUp.units negative c (10 ^ (-e).toNat))) ↔
      10 ^ (-e).toNat ≤ 2 * (c % 10 ^ (-e).toNat) ∨
        2 * (c % 10 ^ (-e).toNat) + 10 ^ (numDigits c - 28) < 10 ^ (-e).toNat ∨
        (2 * (c % 10 ^ (-e).toNat) + 10 ^ (numDigits c - 28) = 10 ^ (-e).toNat ∧ numDigits c + e = 27) := by
  have hten : 10 ^ (m + 1) = 2 * (5 * 10 ^ m) := by ring
  have hsplit : 10 ^ (-e).toNat = 10 ^ (numDigits c - 28) * (2 * (5 * 10 ^ m)) := by
    rw [← hten, ← pow_add]
    congr 1
    omega
  have hodd : 5 * 10 ^ m % 2 = 1 ↔ numDigits c + e = 27 := by
    cases m with
    | zero => exact iff_of_true rfl (by omega)
    | succ m =>
      refine iff_of_false ?_ (by omega)
      rw [pow_succ]
      omega
  have htwice := @halfUp_halfEven_iff negative c (10 ^ (numDigits c - 28)) (5 * 10 ^ m)
    (Nat.pow_pos (by omega)) (Nat.mul_pos (by omega) (Nat.pow_pos (by omega)))
  rw [toWhole_of_long negative hdigits hm hlow, Except.ok.injEq, signed_inj, hten, hsplit, ← hodd]
  exact htwice

/-- **A product is rounded to a whole number as if at once, exactly if its first rounding does no harm.** -/
theorem toWhole_iff (negative : Bool) (c : Nat) (e : Int) :
    toWhole negative c e = .ok (signed negative (rescale .halfUp negative c e 0)) ↔ RoundsOnce c e := by
  by_cases hc : c = 0
  · rw [hc, rescale_zero]
    exact iff_of_true (toWhole_of_zero negative e) (.inl rfl)
  · unfold RoundsOnce
    rw [or_iff_right hc]
    rcases lt_or_ge 28 ((numDigits c : Int) + e) with hlarge | hfits
    · obtain ⟨error, herror⟩ := toWhole_of_large negative hc hlarge
      rw [herror]
      exact iff_of_false nofun fun h => absurd h.1 (not_le.mpr hlarge)
    · rw [and_iff_right hfits]
      rcases lt_or_ge ((numDigits c : Int) + e) 0 with hsmall | hlow
      · refine iff_of_true (toWhole_of_small negative hc hsmall) ?_
        rcases Nat.lt_or_ge 28 (numDigits c) with hlong | hshort
        · refine .inr ?_
          have hpow := pow_of_small hsmall
          have hlt := lt_pow_numDigits c
          have hdropped : 10 ^ (numDigits c - 28) ≤ 10 ^ numDigits c :=
            Nat.pow_le_pow_right (by omega) (Nat.sub_le _ _)
          have hrest : c % 10 ^ (-e).toNat = c := Nat.mod_eq_of_lt (by omega)
          dsimp only
          rw [if_neg (by omega), hrest]
          exact .inr (.inl (by omega))
        · exact .inl hshort
      · rcases Nat.lt_or_ge 28 (numDigits c) with hlong | hshort
        · rw [or_iff_right (not_le.mpr hlong), rescale_of_neg negative (by omega)]
          dsimp only
          rcases eq_or_ne ((numDigits c : Int) + e) 28 with hfull | hless
          · rw [if_pos hfull]
            exact toWhole_full_iff negative hlong hfull
          · rw [if_neg hless]
            obtain ⟨m, hm⟩ : ∃ m : Nat, (numDigits c : Int) + e = 28 - (m + 1 : Nat) :=
              ⟨(27 - (numDigits c + e)).toNat, by omega⟩
            exact toWhole_long_iff negative hlong hm hlow
        · have hfixed := fixed_of_fits negative hc hshort hlow hfits
          exact iff_of_true (toWhole_of_fixed hfixed ((numDigits_le_iff (by decide)).mp hshort) hfits)
            (.inl hshort)

end Decimal

end Py
