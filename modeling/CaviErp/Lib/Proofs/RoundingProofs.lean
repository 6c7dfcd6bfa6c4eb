import CaviErp.Lib.DecimalContext

/-!
# Rounding to units

A number is rounded to its whole units or to one more. Half units go up or to the even number; who rounds
to halves first, ties to even, and half up after that, may go up from just below the half.
-/

namespace Py

namespace Rounding

variable {mode : Rounding} {negative : Bool} {c unit : Nat}

theorem units_cases (mode : Rounding) (negative : Bool) (c unit : Nat) :
    mode.units negative c unit = c / unit ∨ mode.units negative c unit = c / unit + 1 := by
  unfold units
  dsimp only
  split
  · exact .inr rfl
  · exact .inl rfl

theorem div_le_units : c / unit ≤ mode.units negative c unit := by
  rcases units_cases mode negative c unit with h | h <;> omega

theorem units_le : mode.units negative c unit ≤ c / unit + 1 := by
  rcases units_cases mode negative c unit with h | h <;> omega

theorem units_halfEven (negative : Bool) (c unit : Nat) :
    halfEven.units negative c unit = c / unit +
      if unit < 2 * (c % unit) ∨ (unit = 2 * (c % unit) ∧ c / unit % 2 = 1) then 1 else 0 := by
  unfold units increments
  simp only [decide_eq_true_eq]
  split <;> rfl

theorem units_halfUp_eq (negative : Bool) (c unit : Nat) :
    halfUp.units negative c unit = c / unit + if unit ≤ 2 * (c % unit) then 1 else 0 := by
  unfold units increments
  simp only [decide_eq_true_eq]
  split <;> rfl

/-- Half a unit goes up: the whole part of the number and a half. -/
theorem units_halfUp (negative : Bool) (hunit : 0 < unit) :
    halfUp.units negative c unit = (2 * c + unit) / (2 * unit) := by
  have hc : unit * (c / unit) + c % unit = c := Nat.div_add_mod c unit
  have hr : c % unit < unit := Nat.mod_lt c hunit
  rw [units_halfUp_eq]
  generalize c / unit = q at *
  generalize c % unit = r at *
  symm
  split
  · apply Nat.div_eq_of_lt_le
    · nlinarith
    · nlinarith
  · apply Nat.div_eq_of_lt_le
    · nlinarith
    · nlinarith

/-- Whole numbers of units are left as they are. -/
theorem units_mul (mode : Rounding) (negative : Bool) (q : Nat) (hunit : 0 < unit) :
    mode.units negative (q * unit) unit = q := by
  unfold units
  rw [Nat.mul_div_cancel q hunit, Nat.mul_mod_left]
  cases mode <;> simp [increments] <;> omega

/-- Less than half a unit is dropped. -/
theorem units_halfUp_of_lt (negative : Bool) (h : 2 * c < unit) : halfUp.units negative c unit = 0 := by
  rw [units_halfUp negative (by omega)]
  exact Nat.div_eq_of_lt (by omega)

/-- A number below a bound that is a number of units is not rounded beyond it. -/
theorem units_le_of_le {bound : Nat} (hunit : 0 < unit) (h : c ≤ bound * unit) :
    mode.units negative c unit ≤ bound := by
  rcases h.lt_or_eq with hlt | rfl
  · have hq : c / unit < bound := (Nat.div_lt_iff_lt_mul hunit).mpr hlt
    exact units_le.trans hq
  · rw [units_mul mode negative bound hunit]

/-- What is rounded half up after it was rounded to smaller units, ties to even, is what is rounded half up
at once, unless a rest below the half was rounded to the half. -/
theorem halfUp_halfEven_iff (negative : Bool) {p small half : Nat} (hsmall : 0 < small) (hhalf : 0 < half) :
    let big := small * (2 * half)
    halfUp.units negative (halfEven.units negative p small) (2 * half) = halfUp.units negative p big ↔
      big ≤ 2 * (p % big) ∨ 2 * (p % big) + small < big ∨ (2 * (p % big) + small = big ∧ half % 2 = 1) := by
  intro big
  have hbig : 0 < big := Nat.mul_pos hsmall (by omega)
  obtain ⟨i, r, hr, rfl⟩ : ∃ i r, r < big ∧ p = big * i + r :=
    ⟨p / big, p % big, Nat.mod_lt p hbig, (Nat.div_add_mod p big).symm⟩
  obtain ⟨t, s, hs, rfl⟩ : ∃ t s, s < small ∧ r = small * t + s :=
    ⟨r / small, r % small, Nat.mod_lt r hsmall, (Nat.div_add_mod r small).symm⟩
  have ht : t < 2 * half := by
    by_contra hle
    have hmul : small * (2 * half) ≤ small * t := Nat.mul_le_mul_left small (not_lt.mp hle)
    omega
  have hrest : (big * i + (small * t + s)) % big = small * t + s := by
    rw [Nat.mul_add_mod, Nat.mod_eq_of_lt hr]
  have hsplit : big * i + (small * t + s) = small * (2 * half * i + t) + s := by ring
  have hquotient : (big * i + (small * t + s)) / small = 2 * half * i + t := by
    rw [hsplit, Nat.mul_add_div hsmall, Nat.div_eq_of_lt hs, add_zero]
  have hmod : (big * i + (small * t + s)) % small = s := by
    rw [hsplit, Nat.mul_add_mod, Nat.mod_eq_of_lt hs]
  have hparity : (2 * half * i + t) % 2 = t % 2 := by
    rw [mul_assoc, Nat.mul_add_mod]
  -- what the first rounding adds
  obtain ⟨inc, hinc, hfirst⟩ : ∃ inc, (inc = if small < 2 * s ∨ (small = 2 * s ∧ t % 2 = 1) then 1 else 0) ∧
      halfEven.units negative (big * i + (small * t + s)) small = 2 * half * i + (t + inc) := by
    refine ⟨_, rfl, ?_⟩
    rw [units_halfEven, hquotient, hmod, hparity, add_assoc]
  have hone : inc ≤ 1 := by
    rw [hinc]
    split <;> omega
  have htwice : halfUp.units negative (2 * half * i + (t + inc)) (2 * half) =
      i + if half ≤ t + inc then 1 else 0 := by
    rw [units_halfUp negative (by omega)]
    have hsum : 2 * (2 * half * i + (t + inc)) + 2 * half =
        2 * (2 * half) * i + (2 * (t + inc) + 2 * half) := by ring
    rw [hsum, Nat.mul_add_div (by omega)]
    congr 1
    split
    · exact Nat.div_eq_of_lt_le (by omega) (by omega)
    · exact Nat.div_eq_of_lt (by omega)
  have honce : halfUp.units negative (big * i + (small * t + s)) big =
      i + if big ≤ 2 * (small * t + s) then 1 else 0 := by
    rw [units_halfUp negative hbig]
    have hsum : 2 * (big * i + (small * t + s)) + big = 2 * big * i + (2 * (small * t + s) + big) := by ring
    rw [hsum, Nat.mul_add_div (by omega)]
    congr 1
    split
    · exact Nat.div_eq_of_lt_le (by omega) (by omega)
    · exact Nat.div_eq_of_lt (by omega)
  rw [hfirst, htwice, honce, hrest]
  have hbound : big = 2 * (small * half) := by
    show small * (2 * half) = _
    ring
  -- the rest against the half, in small units
  rcases lt_trichotomy (t + 1) half with hlow | heq | hhigh
  · have hmul : small * (t + 2) ≤ small * half := Nat.mul_le_mul_left small hlow
    have hdist : small * (t + 2) = small * t + 2 * small := by ring
    rw [if_neg (by omega), if_neg (by omega)]
    exact iff_of_true rfl (.inr (.inl (by omega)))
  · have hmul : small * half = small * t + small := by
      rw [← heq]
      ring
    rw [if_neg (by omega : ¬ big ≤ 2 * (small * t + s))]
    by_cases hup : small < 2 * s ∨ (small = 2 * s ∧ t % 2 = 1)
    · rw [if_pos hup] at hinc
      rw [if_pos (by omega)]
      omega
    · rw [if_neg hup] at hinc
      rw [if_neg (by omega)]
      omega
  · have hmul : small * half ≤ small * t := Nat.mul_le_mul_left small (by omega)
    rw [if_pos (by omega), if_pos (by omega)]
    exact iff_of_true rfl (.inl (by omega))

end Rounding

end Py
