import CaviErp.Lib.JsonText

/-!
# Decimal numbers

Python's `decimal.Decimal` under the default context (28 digits, ties to even), as far as the program
uses it: integers, quotients by an integer, `str()` and `Decimal(text)`. A coefficient and an exponent are
not normalised, so `1.50` and `1.5` are different values of one number. Exponents do not overflow.
-/

namespace Py

inductive Decimal where
  /-- `± coefficient · 10 ^ exponent`. -/
  | finite (negative : Bool) (coefficient : Nat) (exponent : Int)
  | infinity (negative : Bool)
  | nan (negative signaling : Bool) (payload : Nat)
deriving DecidableEq, Repr

namespace Decimal

/-- `Decimal(n)`. -/
def ofInt (n : Int) : Decimal := finite (n < 0) n.natAbs 0

/-! ## Quotients -/

/-- `getcontext().prec`. -/
def precision : Nat := 28

def numDigits (n : Nat) : Nat := (Nat.toDigits 10 n).length

/-- A coefficient rounded to the precision, with its exponent. -/
def fix (coefficient : Nat) (exponent : Int) : Nat × Int :=
  let excess := numDigits coefficient - precision
  let unit := 10 ^ excess
  let q := coefficient / unit
  let twice := 2 * (coefficient % unit)
  let q := if unit < twice ∨ (unit = twice ∧ q % 2 = 1) then q + 1 else q
  -- rounding up can add a digit, which is then a zero
  if precision < numDigits q then (q / 10, exponent + excess + 1) else (q, exponent + excess)

/-- At most the given number of trailing zeros less, with how many these were. -/
def stripZeros : Nat → Nat → Nat × Nat
  | 0, n => (n, 0)
  | k + 1, n =>
    if n % 10 = 0 then
      let r := stripZeros k (n / 10)
      (r.1, r.2 + 1)
    else (n, 0)

/-- `x / n` for a positive integer: the exact quotient with its exponent as near to that of `x` as it can
be, or else enough digits of it to round. -/
def divNat (x : Decimal) (n : Nat) : Decimal :=
  match x with
  | finite negative coefficient exponent =>
    if coefficient = 0 then finite negative 0 exponent
    else
      let shift : Int := (numDigits n : Int) - numDigits coefficient + precision + 1
      let num := coefficient * 10 ^ shift.toNat
      let den := n * 10 ^ (-shift).toNat
      let q := num / den
      let r :=
        if num % den = 0 then
          let stripped := stripZeros shift.toNat q
          fix stripped.1 (exponent - shift + stripped.2)
        else fix (if q % 5 = 0 then q + 1 else q) (exponent - shift)
      finite negative r.1 r.2
  | x => x

/-! ## Text -/

/-- `E%+d`. -/
def exponentChars (e : Int) : List Char :=
  'E' :: (if e < 0 then '-' else '+') :: Nat.toDigits 10 e.natAbs

/-- The text of a coefficient and an exponent: positional unless the exponent is positive or there are
more than five zeros behind the point. -/
def finiteChars (coefficient : Nat) (exponent : Int) : List Char :=
  let ds := Nat.toDigits 10 coefficient
  let left : Int := ds.length + exponent
  if exponent ≤ 0 ∧ -6 < left then
    if left ≤ 0 then '0' :: '.' :: (List.replicate (-left).toNat '0' ++ ds)
    else if exponent = 0 then ds
    else ds.take left.toNat ++ '.' :: ds.drop left.toNat
  else ds.take 1 ++ ((if ds.length = 1 then [] else '.' :: ds.drop 1) ++ exponentChars (left - 1))

def signChars (negative : Bool) : List Char := if negative then ['-'] else []

def chars : Decimal → List Char
  | finite negative coefficient exponent => signChars negative ++ finiteChars coefficient exponent
  | infinity negative => signChars negative ++ "Infinity".toList
  | nan negative signaling payload =>
    signChars negative ++ ((if signaling then "sNaN".toList else "NaN".toList) ++
      if payload = 0 then [] else Nat.toDigits 10 payload)

/-- `str(x)`. -/
def str (x : Decimal) : String := String.ofList x.chars

/-- The digits behind the point, if there is one, and what follows. -/
def fractionDigits : List Char → List Char × List Char
  | '.' :: cs => (cs.takeWhile Char.isDigit, cs.dropWhile Char.isDigit)
  | cs => ([], cs)

/-- A number after its sign: digits on at least one side of the point. -/
def ofNumber (negative : Bool) (cs : List Char) : Option Decimal :=
  let f := fractionDigits (cs.dropWhile Char.isDigit)
  let ds := cs.takeWhile Char.isDigit ++ f.1
  let e := JsonText.exponentPart f.2
  if ds = [] ∨ e.2 ≠ [] then none
  else some (finite negative (Nat.ofDigitChars 10 ds 0) (e.1.getD 0 - f.1.length))

/-- The name of a special value, in any case, after its sign. -/
def ofName (negative : Bool) (cs : List Char) : Option Decimal :=
  let name := cs.map Char.toLower
  let signaling := decide (name.head? = some 's')
  let quiet := if signaling then name.tail else name
  if name = "inf".toList ∨ name = "infinity".toList then some (infinity negative)
  else if quiet.take 3 = "nan".toList ∧ (quiet.drop 3).all Char.isDigit then
    some (nan negative signaling (Nat.ofDigitChars 10 (quiet.drop 3) 0))
  else none

def ofUnsigned (negative : Bool) (cs : List Char) : Option Decimal :=
  (ofNumber negative cs).or (ofName negative cs)

/-- What is read of a text: blanks around it and underscores in it do not count. -/
def bare (cs : List Char) : List Char :=
  ((cs.dropWhile isSpace).reverse.dropWhile isSpace).reverse.filter (· ≠ '_')

/-- `Decimal(text)`; `none` where it raises. -/
def ofText (s : String) : Option Decimal :=
  match bare s.toList with
  | '-' :: cs => ofUnsigned true cs
  | '+' :: cs => ofUnsigned false cs
  | cs => ofUnsigned false cs

end Decimal

end Py
