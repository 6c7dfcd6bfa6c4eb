import CaviErp.Lib.Json

/-!
# Arithmetic on floats

A sum or a difference of `float`s is the exact one, rounded to the nearest double. Overflow is left out: a
result beyond the largest double keeps its value here, where Python has an infinity of the same sign.
-/

namespace Py.Binary64

/-- A rational number that is a finite double. -/
def IsDouble (q : ℚ) : Prop :=
  ∃ m e : Int, |m| < 2 ^ 53 ∧ -1074 ≤ e ∧ e ≤ 971 ∧ q = m * 2 ^ e

/-- The double nearest to a rational number, ties to even. -/
def nearest (q : ℚ) : ℚ := if q < 0 then -roundDouble (-q) else roundDouble q

/-- `a + b`. -/
def add (a b : ℚ) : ℚ := nearest (a + b)

/-- `a - b`. -/
def sub (a b : ℚ) : ℚ := nearest (a - b)

end Py.Binary64
