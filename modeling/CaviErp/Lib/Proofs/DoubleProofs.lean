import CaviErp.Lib.Double
import Mathlib.Tactic.Linarith
import Mathlib.Tactic.Positivity

/-!
# Rounding to doubles

A double is rounded to itself, and rounding keeps the order: within one power of two it is the rounding of
integers, and a power of two lies between the results on either side of it.
-/

namespace Py.Binary64

/-! ## Rounding to integers -/

theorem roundHalfEven_intCast (n : Int) : roundHalfEven n = n := by
  unfold roundHalfEven
  simp only [Int.floor_intCast, sub_self]
  rw [if_pos (by norm_num)]

theorem floor_le_roundHalfEven (q : ℚ) : ⌊q⌋ ≤ roundHalfEven q := by
  unfold roundHalfEven
  simp only
  split_ifs <;> omega

theorem roundHalfEven_le_floor (q : ℚ) : roundHalfEven q ≤ ⌊q⌋ + 1 := by
  unfold roundHalfEven
  simp only
  split_ifs <;> omega

theorem roundHalfEven_mono {p q : ℚ} (h : p ≤ q) : roundHalfEven p ≤ roundHalfEven q := by
  rcases (Int.floor_le_floor h).eq_or_lt with hfloor | hfloor
  · unfold roundHalfEven
    simp only [hfloor]
    split_ifs <;> first | omega | linarith
  · have hp := roundHalfEven_le_floor p
    have hq := floor_le_roundHalfEven q
    omega

/-! ## Rounding to doubles -/

/-- The exponent of the last place of a double. -/
def place (q : ℚ) : Int := max (Int.log 2 q - 52) (-1074)

theorem roundDouble_eq (q : ℚ) : roundDouble q = roundHalfEven (q / 2 ^ place q) * 2 ^ place q := rfl

theorem two_zpow_pos (e : Int) : (0 : ℚ) < 2 ^ e := zpow_pos (by norm_num) e

theorem roundDouble_zero : roundDouble 0 = 0 := by
  rw [roundDouble_eq, zero_div]
  have hzero : roundHalfEven ((0 : Int) : ℚ) = 0 := roundHalfEven_intCast 0
  rw [Int.cast_zero] at hzero
  rw [hzero, Int.cast_zero, zero_mul]

theorem roundDouble_le {q : ℚ} {n : Int} (h : q ≤ n * 2 ^ place q) : roundDouble q ≤ n * 2 ^ place q := by
  have hscaled : roundHalfEven (q / 2 ^ place q) ≤ n := by
    rw [← roundHalfEven_intCast n]
    exact roundHalfEven_mono ((div_le_iff₀ (two_zpow_pos _)).mpr h)
  rw [roundDouble_eq]
  exact mul_le_mul_of_nonneg_right (by exact_mod_cast hscaled) (two_zpow_pos _).le

theorem le_roundDouble {q : ℚ} {n : Int} (h : n * 2 ^ place q ≤ q) : n * 2 ^ place q ≤ roundDouble q := by
  have hscaled : n ≤ roundHalfEven (q / 2 ^ place q) := by
    rw [← roundHalfEven_intCast n]
    exact roundHalfEven_mono ((le_div_iff₀ (two_zpow_pos _)).mpr h)
  rw [roundDouble_eq]
  exact mul_le_mul_of_nonneg_right (by exact_mod_cast hscaled) (two_zpow_pos _).le

theorem roundDouble_nonneg {q : ℚ} (hq : 0 ≤ q) : 0 ≤ roundDouble q := by
  have hle : ((0 : Int) : ℚ) * 2 ^ place q ≤ q := by
    rw [Int.cast_zero, zero_mul]
    exact hq
  have hround := le_roundDouble hle
  rw [Int.cast_zero, zero_mul] at hround
  exact hround

theorem roundDouble_nonpos {q : ℚ} (hq : q ≤ 0) : roundDouble q ≤ 0 := by
  have hle : q ≤ ((0 : Int) : ℚ) * 2 ^ place q := by
    rw [Int.cast_zero, zero_mul]
    exact hq
  have hround := roundDouble_le hle
  rw [Int.cast_zero, zero_mul] at hround
  exact hround

theorem place_mono {p q : ℚ} (hp : 0 < p) (h : p ≤ q) : place p ≤ place q :=
  max_le_max_right _ (Int.sub_le_sub_right (Int.log_mono_right hp h) 52)

/-- A positive number is below the power of two with 53 digits before its last place. -/
theorem lt_two_zpow {q : ℚ} : q < 2 ^ (53 + place q) := by
  have hlog : q < 2 ^ (Int.log 2 q + 1) := Int.lt_zpow_succ_log_self (b := 2) (by norm_num) q
  have hexp : Int.log 2 q + 1 ≤ 53 + place q := by
    unfold place
    omega
  exact hlog.trans_le (zpow_le_zpow_right₀ (by norm_num) hexp)

theorem roundDouble_mono {p q : ℚ} (hp : 0 ≤ p) (h : p ≤ q) : roundDouble p ≤ roundDouble q := by
  rcases hp.eq_or_lt with rfl | hp
  · rw [roundDouble_zero]
    exact roundDouble_nonneg h
  rcases (place_mono hp h).eq_or_lt with hplace | hplace
  · rw [roundDouble_eq, roundDouble_eq, ← hplace]
    have hround := roundHalfEven_mono (div_le_div_of_nonneg_right h (two_zpow_pos (place p)).le)
    exact mul_le_mul_of_nonneg_right (by exact_mod_cast hround) (two_zpow_pos _).le
  · -- the larger number is beyond a power of two that the smaller one is not rounded past
    have hlog : place q = Int.log 2 q - 52 := by
      unfold place at hplace ⊢
      omega
    have hbelow : p ≤ ((2 ^ 53 : Int) : ℚ) * 2 ^ place p := by
      refine lt_two_zpow.le.trans_eq ?_
      rw [zpow_add₀ (by norm_num)]
      norm_num
    have habove : ((2 ^ 52 : Int) : ℚ) * 2 ^ place q ≤ q := by
      refine Eq.trans_le ?_ (Int.zpow_log_le_self (b := 2) (by norm_num) (hp.trans_le h))
      rw [show Int.log 2 q = 52 + place q by omega, Nat.cast_ofNat, zpow_add₀ (by norm_num)]
      norm_num
    calc roundDouble p ≤ ((2 ^ 53 : Int) : ℚ) * 2 ^ place p := roundDouble_le hbelow
      _ = ((2 ^ 52 : Int) : ℚ) * 2 ^ (place p + 1) := by
        rw [zpow_add₀ (by norm_num)]
        push_cast
        ring
      _ ≤ ((2 ^ 52 : Int) : ℚ) * 2 ^ place q :=
        mul_le_mul_of_nonneg_left (zpow_le_zpow_right₀ (by norm_num) hplace) (by norm_num)
      _ ≤ roundDouble q := le_roundDouble habove

theorem nearest_mono {p q : ℚ} (h : p ≤ q) : nearest p ≤ nearest q := by
  unfold nearest
  by_cases hp : p < 0
  · rw [if_pos hp]
    by_cases hq : q < 0
    · rw [if_pos hq]
      exact neg_le_neg (roundDouble_mono (by linarith) (neg_le_neg h))
    · rw [if_neg hq]
      have hneg := roundDouble_nonneg (show 0 ≤ -p by linarith)
      have hpos := roundDouble_nonneg (not_lt.mp hq)
      linarith
  · rw [if_neg hp, if_neg (by linarith)]
    exact roundDouble_mono (not_lt.mp hp) h

/-! ## Doubles -/

/-- A positive double is a multiple of its last place. -/
theorem IsDouble.exists_multiple {q : ℚ} (hq : 0 < q) (h : IsDouble q) : ∃ n : Int, q = n * 2 ^ place q := by
  obtain ⟨m, e, hm, he, -, rfl⟩ := h
  have hlt : (m : ℚ) * 2 ^ e < 2 ^ (53 + e) := by
    have hm53 : m < 2 ^ 53 := (abs_lt.mp hm).2
    calc (m : ℚ) * 2 ^ e < ((2 ^ 53 : Int) : ℚ) * 2 ^ e :=
          mul_lt_mul_of_pos_right (by exact_mod_cast hm53) (two_zpow_pos e)
      _ = 2 ^ (53 + e) := by
        rw [zpow_add₀ (by norm_num)]
        norm_num
  have hlog : Int.log 2 ((m : ℚ) * 2 ^ e) < 53 + e := (Int.lt_zpow_iff_log_lt (b := 2) (by norm_num) hq).mp hlt
  obtain ⟨k, hk⟩ : ∃ k : Nat, e = k + place ((m : ℚ) * 2 ^ e) := by
    refine ⟨(e - place ((m : ℚ) * 2 ^ e)).toNat, ?_⟩
    unfold place
    omega
  refine ⟨m * 2 ^ k, ?_⟩
  have hpow : (2 : ℚ) ^ e = 2 ^ k * 2 ^ place ((m : ℚ) * 2 ^ e) := by
    rw [← zpow_natCast, ← zpow_add₀ (by norm_num), ← hk]
  conv_lhs => rw [hpow]
  push_cast
  ring

theorem IsDouble.neg {q : ℚ} (h : IsDouble q) : IsDouble (-q) := by
  obtain ⟨m, e, hm, he, he', rfl⟩ := h
  exact ⟨-m, e, by rwa [abs_neg], he, he', by push_cast; ring⟩

theorem IsDouble.roundDouble_eq_self {q : ℚ} (hq : 0 < q) (h : IsDouble q) : roundDouble q = q := by
  obtain ⟨n, hn⟩ := h.exists_multiple hq
  have hscaled : q / 2 ^ place q = n := (div_eq_iff (two_zpow_pos _).ne').mpr hn
  rw [roundDouble_eq, hscaled, roundHalfEven_intCast]
  exact hn.symm

/-- A double is rounded to itself. -/
theorem IsDouble.nearest_eq_self {q : ℚ} (h : IsDouble q) : nearest q = q := by
  unfold nearest
  rcases lt_trichotomy q 0 with hq | rfl | hq
  · rw [if_pos hq, h.neg.roundDouble_eq_self (by linarith), neg_neg]
  · rw [if_neg (lt_irrefl _), roundDouble_zero]
  · rw [if_neg hq.not_gt, h.roundDouble_eq_self hq]

theorem isDouble_intCast {n : Int} (h : |n| < 2 ^ 53) : IsDouble n :=
  ⟨n, 0, h, by omega, by omega, by rw [zpow_zero, mul_one]⟩

/-- A difference that is a double is not rounded. -/
theorem sub_of_isDouble {a b : ℚ} (h : IsDouble (a - b)) : sub a b = a - b := h.nearest_eq_self

theorem sub_mono {a a' b b' : ℚ} (ha : a ≤ a') (hb : b' ≤ b) : sub a b ≤ sub a' b' :=
  nearest_mono (sub_le_sub ha hb)

theorem add_mono {a a' b b' : ℚ} (ha : a ≤ a') (hb : b ≤ b') : add a b ≤ add a' b' :=
  nearest_mono (add_le_add ha hb)

/-- What is before a rounded bound is before the bound itself, if it is a double. -/
theorem IsDouble.lt_of_lt_nearest {a q : ℚ} (ha : IsDouble a) (h : a < nearest q) : a < q := by
  by_contra hle
  have hround := nearest_mono (not_lt.mp hle)
  rw [ha.nearest_eq_self] at hround
  exact absurd h (not_lt.mpr hround)

end Py.Binary64
