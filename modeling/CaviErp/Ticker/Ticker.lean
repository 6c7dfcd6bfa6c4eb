import CaviErp.Base.Contract
import CaviErp.Lib.Action
import CaviErp.Lib.Decimal
import CaviErp.Lib.Double
import CaviErp.Lib.Unwinding

/-!
# Ticker

`agents/ticker/ticker.py`, exchange rates that are read through a cache: a lookup hits the rate source on a
miss, and what the source answers is kept for the time to live. The cache holds texts. The instant at which an
entry expires is a sum of floats.
-/

namespace CaviErp

open Py

structure RateNotFound where
  message : String
deriving DecidableEq, Repr

/-- What a lookup can raise. -/
inductive TickerError where
  | rateNotFound (e : RateNotFound)
  | py (e : PyError)
  /-- `decimal.InvalidOperation`. -/
  | invalidOperation
deriving DecidableEq, Repr

structure Rate where
  base : String
  quote : String
  /-- What one unit of `base` is in `quote`. -/
  rate : Decimal
  asOf : ℚ
deriving DecidableEq, Repr

/-! ## Cache backends -/

/-- `CacheBackend`, over its own state, with the clock reading of each call. -/
structure CacheBackend (σ : Type) where
  get : (key : String) → (now : ℚ) → σ → Option String × σ
  set : (key value : String) → (ttlSeconds : Int) → (now : ℚ) → σ → σ

/-- `self._clock() + ttl_seconds`: the integer becomes a float first. -/
def expiry (ttlSeconds : Int) (now : ℚ) : ℚ := Binary64.add now (Binary64.nearest ttlSeconds)

/-- `_data`: when an entry expires, and its value. -/
abbrev InMemoryCache := String → Option (ℚ × String)

namespace InMemoryCache

/-- `get`: an entry that has expired is deleted. -/
def get (key : String) (now : ℚ) (data : InMemoryCache) : Option String × InMemoryCache :=
  match data key with
  | none => (none, data)
  | some (expiresAt, value) =>
    if expiresAt ≤ now then (none, Function.update data key none) else (some value, data)

def set (key value : String) (ttlSeconds : Int) (now : ℚ) (data : InMemoryCache) : InMemoryCache :=
  Function.update data key (some (expiry ttlSeconds now, value))

def backend : CacheBackend InMemoryCache := ⟨get, set⟩

end InMemoryCache

/-! ## Ticker -/

/-- A call of `get_rate`, with what it meets: the clock, which stands still for as long, and what the rate
source answers. -/
structure Lookup where
  base : String
  quote : String
  now : ℚ
  fetch : String → String → Except RateNotFound Decimal

/-- A call of the rate source. -/
structure Fetch where
  base : String
  quote : String
  now : ℚ
  answer : Except RateNotFound Decimal

namespace Ticker

/-- `upper()`, of ASCII text. -/
def upper (code : String) : String := String.ofList (code.toList.map Char.toUpper)

def cacheKey (base quote : String) : String := "ticker:rate:" ++ base ++ ":" ++ quote

def encode (rate : Rate) : String :=
  dumps .default (.obj [("base", .str rate.base), ("quote", .str rate.quote), ("rate", .str rate.rate.str),
    ("as_of", .float (.finite rate.asOf))])

/-- `d[key]`, a text. The fields of a blob have the types that `encode` writes. -/
def textItem (d : Json) (key : String) : Except TickerError String :=
  match item d key with
  | .ok (.str s) => .ok s
  | .ok _ => .error (.py (.typeError key))
  | .error e => .error (.py e)

/-- `d[key]`, a number. -/
def numberItem (d : Json) (key : String) : Except TickerError ℚ :=
  match item d key with
  | .ok (.float (.finite q)) => .ok q
  | .ok (.float .negZero) => .ok 0
  | .ok (.int n) => .ok n
  | .ok _ => .error (.py (.typeError key))
  | .error e => .error (.py e)

def decode (blob : String) : Except TickerError Rate :=
  match loads blob with
  | none => .error (.py .jsonDecodeError)
  | some d => do
    let base ← textItem d "base"
    let quote ← textItem d "quote"
    let text ← textItem d "rate"
    match Decimal.ofText text with
    | none => .error .invalidOperation
    | some rate => do
      let asOf ← numberItem d "as_of"
      return ⟨base, quote, rate, asOf⟩

/-- The cache, and the calls of the rate source. -/
structure World (σ : Type) where
  cache : σ
  fetches : List Fetch := []

variable {σ : Type} (cache : CacheBackend σ) (ttl : Int)

def cacheGet (key : String) (now : ℚ) : Action (World σ) TickerError (Option String) := fun w =>
  (.ok (cache.get key now w.cache).1, { w with cache := (cache.get key now w.cache).2 })

def cacheSet (key value : String) (now : ℚ) : Action (World σ) TickerError Unit := fun w =>
  (.ok (), { w with cache := cache.set key value ttl now w.cache })

/-- `self._source.fetch(base, quote)`. -/
def sourceFetch (call : Lookup) (base quote : String) : Action (World σ) TickerError Decimal := fun w =>
  ((call.fetch base quote).mapError .rateNotFound,
    { w with fetches := w.fetches ++ [⟨base, quote, call.now, call.fetch base quote⟩] })

def getRate (call : Lookup) : Action (World σ) TickerError Rate := do
  let base := upper call.base
  let quote := upper call.quote
  let key := cacheKey base quote
  let cached ← cacheGet cache key call.now
  match cached with
  | some blob => Action.ofExcept (decode blob)
  | none =>
    let answer ← sourceFetch call base quote
    let rate : Rate := ⟨base, quote, answer, call.now⟩
    cacheSet cache ttl key (encode rate) call.now
    return rate

/-- A call, with what it returns and the calls of the rate source that it makes. -/
def step (s : σ) (call : Lookup) : (Except TickerError Rate × List Fetch) × σ :=
  let r := getRate cache ttl call ⟨s, []⟩
  ((r.1, r.2.fetches), r.2.cache)

/-- The calls of a run over an `InMemoryCache` that is empty at first. -/
def rates (calls : List Lookup) : List (Lookup × Except TickerError Rate × List Fetch) :=
  Unwinding.outputs (step InMemoryCache.backend ttl) (fun _ => none) calls

/-! ## What is expected of it -/

/-- A currency code, in any letter case. -/
def IsCode (code : String) : Prop := code.toList.length = 3 ∧ ∀ c ∈ code.toList, c.isAlpha = true

/-- A run of lookups for currency codes, at a clock that does not go back; its readings are floats whose texts
are read as they were. -/
structure Lookups (calls : List Lookup) : Prop where
  clock : (calls.map Lookup.now).Pairwise (· ≤ ·)
  codes : ∀ c ∈ calls, IsCode c.base ∧ IsCode c.quote
  floats : ∀ c ∈ calls, Binary64.IsDouble c.now
  rereads : ∀ c ∈ calls, (Binary64.finite c.now).reread = .finite c.now

/-- The answers of the rate source, in order. -/
def answered (run : List (Lookup × Except TickerError Rate × List Fetch)) : List Fetch :=
  (run.flatMap fun x => x.2.2).filter fun f => f.answer.isOk

/-- Each rate is the source's answer for the requested pair at a time that is less than the time to live
ago, what is raised is what the source raises, and the source answers for a pair again when its answer has
expired, at the instant that `expires` gives for it. -/
structure Fresh (expires : ℚ → ℚ) (run : List (Lookup × Except TickerError Rate × List Fetch)) : Prop where
  returned : ∀ pre call rate fetches post, run = pre ++ (call, .ok rate, fetches) :: post →
    rate.base = upper call.base ∧ rate.quote = upper call.quote ∧
      (∃ source ∈ pre.map Prod.fst ++ [call], source.now = rate.asOf ∧
        source.fetch rate.base rate.quote = .ok rate.rate) ∧
      0 ≤ call.now - rate.asOf ∧ call.now - rate.asOf < (ttl : ℚ)
  raised : ∀ call e fetches, (call, .error e, fetches) ∈ run →
    ∃ raised, e = .rateNotFound raised ∧ call.fetch (upper call.base) (upper call.quote) = .error raised
  apart : (answered run).Pairwise fun f g =>
    f.base = g.base → f.quote = g.quote → expires f.now ≤ g.now

end Ticker

end CaviErp
