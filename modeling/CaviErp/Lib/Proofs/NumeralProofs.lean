import CaviErp.Lib.DecimalContext
import CaviErp.Lib.Proofs.DecimalProofs

/-!
# Numerals without an exponent

The text of a decimal is a plain numeral exactly if its exponent is not positive and its first digit is not
too far behind the point. With that go the lengths of coefficients, and what of their zeros can be left off.
-/

namespace Py

namespace Decimal

open JsonText

/-! ## Lengths of coefficients -/

theorem numDigits_pos (n : Nat) : 0 < numDigits n :=
  List.length_pos_iff.mpr Nat.toDigits_ne_nil

theorem numDigits_le_iff {n k : Nat} (hk : 0 < k) : numDigits n ≤ k ↔ n < 10 ^ k :=
  Nat.length_toDigits_le_iff (by omega) hk

theorem lt_pow_numDigits (n : Nat) : n < 10 ^ numDigits n :=
  (numDigits_le_iff (numDigits_pos n)).mp le_rfl

theorem pow_numDigits_le {n : Nat} (hn : n ≠ 0) : 10 ^ (numDigits n - 1) ≤ n := by
  rcases Nat.eq_zero_or_pos (numDigits n - 1) with hone | hmore
  · rw [hone, pow_zero]
    exact Nat.one_le_iff_ne_zero.mpr hn
  · by_contra hlt
    have hle : numDigits n ≤ numDigits n - 1 := (numDigits_le_iff hmore).mpr (not_le.mp hlt)
    have hpos := numDigits_pos n
    omega

/-- A coefficient other than zero has as many digits as there are powers of ten up to it. -/
theorem numDigits_eq {n k : Nat} (hlow : 10 ^ k ≤ n) (hhigh : n < 10 ^ (k + 1)) : numDigits n = k + 1 := by
  have hle : numDigits n ≤ k + 1 := (numDigits_le_iff (by omega)).mpr hhigh
  have hlt : 10 ^ k < 10 ^ numDigits n := hlow.trans_lt (lt_pow_numDigits n)
  have hgt : k < numDigits n := (Nat.pow_lt_pow_iff_right (by omega)).mp hlt
  omega

/-- Zeros that are left off. -/
theorem stripZeros_spec (k n : Nat) :
    n = (stripZeros k n).1 * 10 ^ (stripZeros k n).2 ∧ (stripZeros k n).2 ≤ k ∧
      ((stripZeros k n).2 < k → (stripZeros k n).1 % 10 ≠ 0) := by
  induction k generalizing n with
  | zero => exact ⟨(mul_one n).symm, le_rfl, fun h => absurd h (lt_irrefl _)⟩
  | succ k ih =>
    rw [stripZeros]
    by_cases hzero : n % 10 = 0
    · obtain ⟨hvalue, hle, hlast⟩ := ih (n / 10)
      rw [if_pos hzero]
      refine ⟨?_, Nat.succ_le_succ hle, fun h => hlast (Nat.lt_of_succ_lt_succ h)⟩
      dsimp only
      rw [pow_succ, ← mul_assoc, ← hvalue]
      omega
    · rw [if_neg hzero]
      exact ⟨(mul_one n).symm, Nat.zero_le _, fun _ => hzero⟩

/-! ## The coefficient that is kept -/

theorem fix_of_lt {c : Nat} (h : c < 10 ^ precision) (e : Int) : fix c e = (c, e) := by
  have hdigits : numDigits c ≤ precision := (numDigits_le_iff (by decide)).mpr h
  have hexcess : numDigits c - precision = 0 := Nat.sub_eq_zero_of_le hdigits
  unfold fix
  simp only [hexcess, pow_zero, Nat.div_one, Nat.mod_one]
  rw [if_neg (by omega : ¬ (1 < 2 * 0 ∨ (1 = 2 * 0 ∧ c % 2 = 1))), if_neg (not_lt.mpr hdigits)]
  simp

theorem fix_lt (c : Nat) (e : Int) : (fix c e).1 < 10 ^ precision := by
  have hunit : 0 < 10 ^ (numDigits c - precision) := Nat.pow_pos (by omega)
  have hq : c / 10 ^ (numDigits c - precision) < 10 ^ precision := by
    rw [Nat.div_lt_iff_lt_mul hunit, ← pow_add]
    exact (lt_pow_numDigits c).trans_le (Nat.pow_le_pow_right (by omega) (by omega))
  have hbound : ∀ q, q ≤ 10 ^ precision →
      (if precision < numDigits q then (q / 10, e + (numDigits c - precision : Nat) + 1)
        else (q, e + (numDigits c - precision : Nat))).1 < 10 ^ precision := by
    intro q hle
    split
    · have hten : q / 10 ≤ 10 ^ precision / 10 := Nat.div_le_div_right hle
      exact hten.trans_lt (by decide)
    · rename_i hfits
      exact (numDigits_le_iff (by decide)).mp (not_lt.mp hfits)
  unfold fix
  dsimp only
  apply hbound
  split
  · exact hq
  · exact hq.le

/-! ## Numerals -/

/-- A numeral without an exponent: a sign, digits, and digits behind a point if there is one. -/
def IsNumeral (cs : List Char) : Prop :=
  ∃ (negative : Bool) (whole : List Char) (f : Option (List Char)),
    cs = signChars negative ++ (whole ++ fracText f) ∧ Digits whole ∧ ∀ ds, f = some ds → Digits ds

theorem IsNumeral.no_exponent {cs : List Char} (h : IsNumeral cs) : 'E' ∉ cs := by
  obtain ⟨negative, whole, f, rfl, hwhole, hf⟩ := h
  have hdigits : ∀ {ds : List Char}, (∀ c ∈ ds, c.isDigit = true) → 'E' ∉ ds := by
    intro ds hds hE
    exact absurd (hds 'E' hE) (by decide)
  rw [List.mem_append, List.mem_append]
  rintro (hsign | hE | hE)
  · cases negative <;> simp [signChars] at hsign
  · exact hdigits hwhole.2 hE
  · cases f with
    | none => cases hE
    | some ds =>
      rcases List.mem_cons.mp hE with hdot | hE
      · exact absurd hdot (by decide)
      · exact hdigits (hf ds rfl).2 hE

/-- A text is positional unless the exponent is positive or the digits start too far behind the point. -/
def Positional (coefficient : Nat) (exponent : Int) : Prop :=
  exponent ≤ 0 ∧ -6 < (numDigits coefficient : Int) + exponent

theorem finiteChars_positional {coefficient : Nat} {exponent : Int} (h : Positional coefficient exponent) :
    ∃ whole f, finiteChars coefficient exponent = whole ++ fracText f ∧ Digits whole ∧
      ∀ ds, f = some ds → Digits ds := by
  obtain ⟨hexponent, hleft⟩ := h
  obtain ⟨hne, hall⟩ := digits_toDigits coefficient
  have hlength := List.length_pos_iff.mpr hne
  unfold numDigits at hleft
  unfold finiteChars
  dsimp only
  generalize Nat.toDigits 10 coefficient = ds at *
  rw [if_pos ⟨hexponent, hleft⟩]
  split
  · -- zeros between the point and the digits
    refine ⟨['0'], some (List.replicate (-(ds.length + exponent)).toNat '0' ++ ds), rfl,
      ⟨by simp, by simp⟩, ?_⟩
    intro ds' h
    obtain rfl := Option.some.inj h
    refine ⟨by simp [hne], fun c hc => ?_⟩
    rcases List.mem_append.mp hc with hc | hc
    · obtain rfl := List.eq_of_mem_replicate hc
      rfl
    · exact hall c hc
  · rename_i hpoint
    split
    · exact ⟨ds, none, (List.append_nil ds).symm, ⟨hne, hall⟩, nofun⟩
    · -- the point is among the digits
      have htake : ds.take (ds.length + exponent).toNat ≠ [] := by
        rw [ne_eq, List.take_eq_nil_iff]
        rintro (h | h)
        · omega
        · exact hne h
      have hdrop : ds.drop (ds.length + exponent).toNat ≠ [] := by
        rw [ne_eq, List.drop_eq_nil_iff]
        omega
      refine ⟨_, some _, rfl, ⟨htake, fun c hc => hall c (List.mem_of_mem_take hc)⟩, ?_⟩
      intro ds' h
      obtain rfl := Option.some.inj h
      exact ⟨hdrop, fun c hc => hall c (List.mem_of_mem_drop hc)⟩

theorem mem_finiteChars_of_not_positional {coefficient : Nat} {exponent : Int}
    (h : ¬ Positional coefficient exponent) : 'E' ∈ finiteChars coefficient exponent := by
  unfold Positional numDigits at h
  unfold finiteChars
  dsimp only
  rw [if_neg h]
  simp [exponentChars]

/-- The text of a number is a numeral without an exponent exactly if it is positional. -/
theorem isNumeral_iff (negative : Bool) (coefficient : Nat) (exponent : Int) :
    IsNumeral (finite negative coefficient exponent).chars ↔ Positional coefficient exponent := by
  constructor
  · intro h
    by_contra hnot
    exact h.no_exponent (List.mem_append_right _ (mem_finiteChars_of_not_positional hnot))
  · intro h
    obtain ⟨whole, f, htext, hwhole, hf⟩ := finiteChars_positional h
    exact ⟨negative, whole, f, congrArg (signChars negative ++ ·) htext, hwhole, hf⟩

end Decimal

end Py
