import CaviErp.Lib.JsonText

/-!
# ECMAScript values

The values of a script that reads and writes JSON: every number is a double, and a property that is not there
is `undefined`. An object is converted to a string without a look at a `toString` or `valueOf` of its own.
-/

namespace Js

open Py

inductive Value where
  | undefined
  | null
  | bool (b : Bool)
  | number (x : Binary64)
  | string (s : String)
  | array (xs : List Value)
  | object (kvs : List (String × Value))

/-! ## `JSON.parse` -/

def ofInt (n : Int) : Binary64 := Binary64.ofDecimal (n < 0) n.natAbs 0

mutual

/-- `JSON.parse` of the text that `json.dumps` gives a value. Python writes the special floats, which are no
JSON; the keys of a `dict` are distinct. -/
def parse : Json → Option Value
  | .null => some .null
  | .bool b => some (.bool b)
  | .int n => some (.number (ofInt n))
  | .float x => if x = .inf ∨ x = .negInf ∨ x = .nan then none else some (.number x.reread)
  | .str s => some (.string s)
  | .arr xs => (parseList xs).map .array
  | .obj kvs => (parseItems kvs).map .object

def parseList : List Json → Option (List Value)
  | [] => some []
  | x :: xs => (parse x).bind fun v => (parseList xs).map (v :: ·)

def parseItems : Obj → Option (List (String × Value))
  | [] => some []
  | (k, x) :: kvs => (parse x).bind fun v => (parseItems kvs).map ((k, v) :: ·)

end

/-! ## Conversions -/

/-- `Number::toString` of a positive finite number. -/
def positiveChars (q : ℚ) : List Char :=
  let c := Binary64.shortest q
  let ds := Binary64.digits c.1.natAbs
  let point : Int := (Nat.toDigits 10 c.1.natAbs).length + c.2
  if -6 < point ∧ point ≤ 21 then
    if point ≤ 0 then
      '0' :: '.' :: List.replicate (-point).toNat '0' ++ ds
    else if ds.length ≤ point.toNat then
      ds ++ List.replicate (point.toNat - ds.length) '0'
    else
      ds.take point.toNat ++ '.' :: ds.drop point.toNat
  else
    ds.take 1 ++ (if ds.length = 1 then [] else '.' :: ds.drop 1) ++
      'e' :: (if point - 1 < 0 then '-' else '+') :: Nat.toDigits 10 (point - 1).natAbs

/-- `String(x)` of a number. -/
def numberChars : Binary64 → List Char
  | .finite q => if q = 0 then ['0'] else if q < 0 then '-' :: positiveChars (-q) else positiveChars q
  | .negZero => ['0']
  | .inf => "Infinity".toList
  | .negInf => "-Infinity".toList
  | .nan => "NaN".toList

mutual

/-- The text of a value in a template literal. -/
def Value.text : Value → String
  | .undefined => "undefined"
  | .null => "null"
  | .bool b => if b then "true" else "false"
  | .number x => String.ofList (numberChars x)
  | .string s => s
  | .array xs => ",".intercalate (elementTexts xs)
  | .object _ => "[object Object]"

def elementTexts : List Value → List String
  | [] => []
  | .undefined :: xs => "" :: elementTexts xs
  | .null :: xs => "" :: elementTexts xs
  | x :: xs => x.text :: elementTexts xs

end

/-- White space and line terminators. -/
def isSpace (c : Char) : Bool :=
  let n := c.toNat
  (9 ≤ n && n ≤ 13) || n == 0x20 || n == 0xa0 || n == 0x1680 || (0x2000 ≤ n && n ≤ 0x200a) ||
    n == 0x2028 || n == 0x2029 || n == 0x202f || n == 0x205f || n == 0x3000 || n == 0xfeff

/-- The digits of a literal such as `0x1F`, after its prefix. -/
def radixValue (base : Nat) (cs : List Char) : Option Nat :=
  if cs.isEmpty then none
  else cs.foldl (fun n c => n.bind fun n => (JsonText.hexVal c).bind fun d =>
    if d < base then some (n * base + d) else none) (some 0)

/-- A decimal literal without its sign. -/
def unsignedValue (negative : Bool) (cs : List Char) : Option Binary64 :=
  if cs = "Infinity".toList then some (if negative then .negInf else .inf)
  else
    let whole := cs.takeWhile Char.isDigit
    let f : List Char × List Char := match cs.dropWhile Char.isDigit with
      | '.' :: rest => (rest.takeWhile Char.isDigit, rest.dropWhile Char.isDigit)
      | rest => ([], rest)
    let e := JsonText.exponentPart f.2
    if (whole ++ f.1).isEmpty ∨ ¬ e.2.isEmpty then none
    else some (Binary64.ofDecimal negative (Nat.ofDigitChars 10 (whole ++ f.1) 0)
      (e.1.getD 0 - f.1.length))

/-- `Number(s)`. -/
def numberOf (s : String) : Binary64 :=
  let digits : Option Nat → Binary64 := fun n => (n.map fun n => Binary64.ofDecimal false n 0).getD .nan
  match ((s.toList.dropWhile isSpace).reverse.dropWhile isSpace).reverse with
  | [] => .finite 0
  | '0' :: 'x' :: cs | '0' :: 'X' :: cs => digits (radixValue 16 cs)
  | '0' :: 'o' :: cs | '0' :: 'O' :: cs => digits (radixValue 8 cs)
  | '0' :: 'b' :: cs | '0' :: 'B' :: cs => digits (radixValue 2 cs)
  | '-' :: cs => (unsignedValue true cs).getD .nan
  | '+' :: cs => (unsignedValue false cs).getD .nan
  | cs => (unsignedValue false cs).getD .nan

namespace Value

/-- `Number(v)`. -/
def toNumber : Value → Binary64
  | .undefined => .nan
  | .null => .finite 0
  | .bool b => .finite (if b then 1 else 0)
  | .number x => x
  | .string s => numberOf s
  | .array xs => numberOf (array xs).text
  | .object _ => .nan

/-- `v > 0`. -/
def positive (v : Value) : Bool :=
  match v.toNumber with
  | .finite q => 0 < q
  | .inf => true
  | _ => false

/-- `v.k`, where `k` is the name of no built-in property. -/
def prop : Value → String → Value
  | .object kvs, k => (kvs.lookup k).getD .undefined
  | _, _ => .undefined

/-- `v ?? w`. -/
def orElse : Value → Value → Value
  | .undefined, w => w
  | .null, w => w
  | v, _ => v

/-! ## `JSON.stringify` -/

/-- What `json.loads` reads in the text of a number; the special ones are written as `null`. -/
def stringifiedNumber : Binary64 → Json
  | .finite q => (loads (String.ofList (numberChars (.finite q)))).getD .null
  | .negZero => .int 0
  | _ => .null

mutual

/-- What `json.loads` reads in the text of `JSON.stringify(v)`; `undefined` has none. -/
def stringified : Value → Option Json
  | .undefined => none
  | .null => some .null
  | .bool b => some (.bool b)
  | .number x => some (stringifiedNumber x)
  | .string s => some (.str s)
  | .array xs => some (.arr (stringifiedList xs))
  | .object kvs => some (.obj (stringifiedItems kvs))

def stringifiedList : List Value → List Json
  | [] => []
  | x :: xs => (stringified x).getD .null :: stringifiedList xs

/-- A property that is `undefined` is left out. -/
def stringifiedItems : List (String × Value) → Obj
  | [] => []
  | (k, v) :: kvs =>
    match stringified v with
    | none => stringifiedItems kvs
    | some j => (k, j) :: stringifiedItems kvs

end

end Value

end Js
