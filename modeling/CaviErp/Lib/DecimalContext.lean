import CaviErp.Lib.Decimal

/-!
# Decimal arithmetic in a context

`getcontext()` as it is by default: 28 digits, exponents up to 999999 either way, and an exception for an
invalid operation, a division by zero and an overflow. Results are rounded to the precision, ties to even;
`quantize` rounds as it is told. A number is rounded as a whole number of units and a rest.
-/

namespace Py

/-- What is raised: the signals that are trapped, and what `int(x)` raises. -/
inductive DecimalError where
  | invalidOperation
  | divisionByZero
  | overflow
  /-- `ValueError`: cannot convert NaN to integer. -/
  | nanToInt
  /-- `OverflowError`: cannot convert Infinity to integer. -/
  | infinityToInt
deriving DecidableEq, Repr

/-- `ROUND_CEILING` .. `ROUND_05UP`. -/
inductive Rounding where
  | ceiling
  | down
  | floor
  | halfDown
  | halfEven
  | halfUp
  | up
  | zeroFiveUp
deriving DecidableEq, Repr

namespace Rounding

/-- Whether `q` units and a rest are rounded to `q + 1` units. -/
def increments (mode : Rounding) (negative : Bool) (q rest unit : Nat) : Bool :=
  match mode with
  | ceiling => rest != 0 && !negative
  | down => false
  | floor => rest != 0 && negative
  | halfDown => decide (unit < 2 * rest)
  | halfEven => decide (unit < 2 * rest ∨ (unit = 2 * rest ∧ q % 2 = 1))
  | halfUp => decide (unit ≤ 2 * rest)
  | up => rest != 0
  | zeroFiveUp => rest != 0 && (q % 10 == 0 || q % 10 == 5)

/-- The units that a number is rounded to. -/
def units (mode : Rounding) (negative : Bool) (coefficient unit : Nat) : Nat :=
  let q := coefficient / unit
  if mode.increments negative q (coefficient % unit) unit then q + 1 else q

end Rounding

namespace Decimal

/-! ## The context -/

/-- `Emax`. -/
def emax : Int := 999999

/-- `Etiny()`: the exponent that no result is below. -/
def etiny : Int := -1000026

/-- `Etop()`: the exponent that no result with all digits is above. -/
def etop : Int := 999972

/-- `x.adjusted()`: the exponent of the first digit. -/
def adjusted (coefficient : Nat) (exponent : Int) : Int := exponent + numDigits coefficient - 1

/-- `_fix`. -/
def fixed (negative : Bool) (coefficient : Nat) (exponent : Int) : Except DecimalError Decimal :=
  if coefficient = 0 then .ok (finite negative 0 (min (max exponent etiny) emax))
  else
    let expMin : Int := numDigits coefficient + exponent - precision
    if etop < expMin then .error .overflow
    else
      let expMin := max expMin etiny
      if exponent < expMin then
        let q := Rounding.halfEven.units negative coefficient (10 ^ (expMin - exponent).toNat)
        -- rounding up can add a digit, which is then a zero
        let r := if precision < numDigits q then (q / 10, expMin + 1) else (q, expMin)
        if etop < r.2 then .error .overflow else .ok (finite negative r.1 r.2)
      else .ok (finite negative coefficient exponent)

/-- What becomes of operands one of which is no number. -/
def ofNans : Decimal → Decimal → Except DecimalError Decimal
  | nan _ true _, _ => .error .invalidOperation
  | _, nan _ true _ => .error .invalidOperation
  | nan negative false payload, _ => .ok (nan negative false (payload % 10 ^ precision))
  | _, nan negative false payload => .ok (nan negative false (payload % 10 ^ precision))
  | x, _ => .ok x

/-! ## Operations -/

/-- `x * y`. -/
def mul : Decimal → Decimal → Except DecimalError Decimal
  | finite s c e, finite t d f => fixed (s ^^ t) (c * d) (e + f)
  | infinity s, infinity t => .ok (infinity (s ^^ t))
  | infinity s, finite t d _ => if d = 0 then .error .invalidOperation else .ok (infinity (s ^^ t))
  | finite s c _, infinity t => if c = 0 then .error .invalidOperation else .ok (infinity (s ^^ t))
  | x, y => ofNans x y

/-- The quotient of coefficients other than zero, with its exponent: as near as it can be to the difference
of the exponents if it is exact, or else with digits enough to be rounded. -/
def quotient (c : Nat) (e : Int) (d : Nat) (f : Int) : Nat × Int :=
  let shift : Int := (numDigits d : Int) - numDigits c + precision + 1
  let num := c * 10 ^ shift.toNat
  let den := d * 10 ^ (-shift).toNat
  let q := num / den
  if num % den = 0 then
    let stripped := stripZeros shift.toNat q
    (stripped.1, e - f - shift + stripped.2)
  else (if q % 5 = 0 then q + 1 else q, e - f - shift)

/-- `x / y`. -/
def div : Decimal → Decimal → Except DecimalError Decimal
  | finite s c e, finite t d f =>
    if d = 0 then (if c = 0 then .error .invalidOperation else .error .divisionByZero)
    else if c = 0 then fixed (s ^^ t) 0 (e - f)
    else fixed (s ^^ t) (quotient c e d f).1 (quotient c e d f).2
  | infinity _, infinity _ => .error .invalidOperation
  | infinity s, finite t _ _ => .ok (infinity (s ^^ t))
  | finite s _ _, infinity t => .ok (finite (s ^^ t) 0 etiny)
  | x, y => ofNans x y

/-- `_rescale`, of a coefficient other than zero. -/
def rescale (rounding : Rounding) (negative : Bool) (coefficient : Nat) (exponent target : Int) : Nat :=
  if target ≤ exponent then coefficient * 10 ^ (exponent - target).toNat
  else rounding.units negative coefficient (10 ^ (target - exponent).toNat)

/-- `x.quantize(y, rounding)`, for the exponent of a finite `y`. -/
def quantize (x : Decimal) (target : Int) (rounding : Rounding) : Except DecimalError Decimal :=
  match x with
  | finite negative coefficient exponent =>
    if target < etiny ∨ emax < target then .error .invalidOperation
    else if coefficient = 0 then fixed negative 0 target
    else if emax < adjusted coefficient exponent ∨ precision < adjusted coefficient exponent - target + 1 then
      .error .invalidOperation
    else
      let q := rescale rounding negative coefficient exponent target
      if emax < adjusted q target ∨ precision < numDigits q then .error .invalidOperation
      else fixed negative q target
  | infinity _ => .error .invalidOperation
  | nan _ true _ => .error .invalidOperation
  | nan negative false payload => .ok (nan negative false (payload % 10 ^ precision))

/-- `int(x)`. -/
def toInt : Decimal → Except DecimalError Int
  | finite negative coefficient exponent =>
    let n : Nat := coefficient * 10 ^ exponent.toNat / 10 ^ (-exponent).toNat
    .ok (if negative then -n else n)
  | infinity _ => .error .infinityToInt
  | nan _ _ _ => .error .nanToInt

/-! ## What a number is -/

/-- The rational number that is denoted. -/
def toRat? : Decimal → Option ℚ
  | finite negative coefficient exponent =>
    some ((if negative then -(coefficient : ℚ) else coefficient) * 10 ^ exponent)
  | _ => none

end Decimal

end Py
