import CaviErp.Lib.DecimalContext
import CaviErp.Ticker.Ticker

/-!
# Conversions and the rate table

`agents/ticker/ticker.py`: `Rate.convert_minor`, and the source that answers from a fixed table, inverse and
identity pairs included.
-/

namespace CaviErp

open Py

/-- `convert_minor`: the product is rounded to the precision, and then to the exponent of `Decimal(1)`. -/
def Rate.convertMinor (rate : Rate) (amountMinor : Int) (rounding : Rounding := .halfUp) :
    Except DecimalError Int := do
  let product ← (Decimal.ofInt amountMinor).mul rate.rate
  let converted ← product.quantize 0 rounding
  converted.toInt

/-- What `fetch` raises. -/
inductive RateError where
  | rateNotFound (e : RateNotFound)
  | decimal (e : DecimalError)
deriving DecidableEq, Repr

structure StaticRateSource where
  /-- `_rates`, by upper-case codes. -/
  rates : String × String → Option Decimal
  calls : Nat := 0

namespace StaticRateSource

open Ticker (upper)

/-- `StaticRateSource(rates)`: of two items with the same codes in upper case the last wins. -/
def ofRates (rates : List ((String × String) × Decimal)) : StaticRateSource where
  rates := rates.foldl (fun table r => Function.update table (upper r.1.1, upper r.1.2) (some r.2)) fun _ => none

/-- What `fetch` returns. -/
def answer (source : StaticRateSource) (base quote : String) : Except RateError Decimal :=
  let base := upper base
  let quote := upper quote
  if base = quote then .ok (Decimal.ofInt 1)
  else
    match source.rates (base, quote) with
    | some rate => .ok rate
    | none =>
      match source.rates (quote, base) with
      | some inverse => ((Decimal.ofInt 1).div inverse).mapError .decimal
      | none => .error (.rateNotFound ⟨"no rate for " ++ base ++ "->" ++ quote⟩)

def fetch (source : StaticRateSource) (base quote : String) :
    Except RateError Decimal × StaticRateSource :=
  (source.answer base quote, { source with calls := source.calls + 1 })

end StaticRateSource

end CaviErp
