import CaviErp.Lib.Json

/-!
# Reading JSON text

`json.loads` as a recursive-descent parser over characters. Every call spends one unit of fuel, and
the length of the text is fuel enough. Of two members of an object with one key the last wins. A
`\u` escape that is half of a surrogate pair is refused, since a `Char` cannot hold it.
-/

namespace Py

/-- `float(text)` of the decimal `±s · 10^e`. -/
def Binary64.ofDecimal (neg : Bool) (s : Nat) (e : Int) : Binary64 :=
  let q := if s = 0 then 0 else roundDouble (decimal s e)
  if q = 0 then (if neg then .negZero else .finite 0)
  else if 2 ^ 1024 ≤ q then (if neg then .negInf else .inf)
  else .finite (if neg then -q else q)

namespace JsonText

/-- The whitespace of JSON. -/
def isWs (c : Char) : Bool := c == ' ' || c == '\t' || c == '\n' || c == '\r'

def skipWs (cs : List Char) : List Char := cs.dropWhile isWs

/-! ## Strings -/

/-- The value of a hexadecimal digit. -/
def hexVal (c : Char) : Option Nat :=
  if c.isDigit then some (c.toNat - '0'.toNat)
  else if 'a' ≤ c ∧ c ≤ 'f' then some (c.toNat - 'a'.toNat + 10)
  else if 'A' ≤ c ∧ c ≤ 'F' then some (c.toNat - 'A'.toNat + 10)
  else none

def hexQuad : List Char → Option (Nat × List Char)
  | a :: b :: c :: d :: rest => do
    let a ← hexVal a
    let b ← hexVal b
    let c ← hexVal c
    let d ← hexVal d
    return (((a * 16 + b) * 16 + c) * 16 + d, rest)
  | _ => none

/-- The escapes of one letter. -/
def simpleEscape (c : Char) : Option Char :=
  if c = '"' then some '"'
  else if c = '\\' then some '\\'
  else if c = '/' then some '/'
  else if c = 'b' then some '\x08'
  else if c = 'f' then some '\x0c'
  else if c = 'n' then some '\n'
  else if c = 'r' then some '\r'
  else if c = 't' then some '\t'
  else none

/-- The second half of a surrogate pair whose first half was `hi`. -/
def lowSurrogate (hi : Nat) : List Char → Option (Char × List Char)
  | '\\' :: 'u' :: cs => do
    let (lo, rest) ← hexQuad cs
    if 0xdc00 ≤ lo ∧ lo < 0xe000 then
      return (Char.ofNat (0x10000 + (hi - 0xd800) * 0x400 + (lo - 0xdc00)), rest)
    else none
  | _ => none

/-- What follows a backslash. -/
def escape : List Char → Option (Char × List Char)
  | [] => none
  | c :: cs =>
    if c = 'u' then do
      let (n, rest) ← hexQuad cs
      if 0xd800 ≤ n ∧ n < 0xdc00 then lowSurrogate n rest
      else if 0xdc00 ≤ n ∧ n < 0xe000 then none
      else return (Char.ofNat n, rest)
    else (simpleEscape c).map fun d => (d, cs)

/-- The rest of a string literal, after its opening quote. -/
def stringBody : Nat → List Char → Option (List Char × List Char)
  | 0, _ => none
  | _ + 1, [] => none
  | n + 1, c :: cs =>
    if c = '"' then some ([], cs)
    else if c = '\\' then do
      let (d, rest) ← escape cs
      let (s, rest) ← stringBody n rest
      return (d :: s, rest)
    else if c.toNat < 32 then none
    else do
      let (s, rest) ← stringBody n cs
      return (c :: s, rest)

/-! ## Numbers -/

/-- The optional fraction of a number: its digits, and what follows. -/
def fraction : List Char → Option (List Char) × List Char
  | '.' :: cs =>
    if (cs.takeWhile Char.isDigit).isEmpty then (none, '.' :: cs)
    else (some (cs.takeWhile Char.isDigit), cs.dropWhile Char.isDigit)
  | cs => (none, cs)

/-- The digits of an exponent whose sign is known, with `all` the text before its letter. -/
def exponentDigits (neg : Bool) (all cs : List Char) : Option Int × List Char :=
  if (cs.takeWhile Char.isDigit).isEmpty then (none, all)
  else
    let e : Int := Nat.ofDigitChars 10 (cs.takeWhile Char.isDigit) 0
    (some (if neg then -e else e), cs.dropWhile Char.isDigit)

/-- The optional exponent of a number, and what follows. -/
def exponentPart : List Char → Option Int × List Char
  | c :: cs =>
    if c = 'e' ∨ c = 'E' then
      match cs with
      | '-' :: ds => exponentDigits true (c :: cs) ds
      | '+' :: ds => exponentDigits false (c :: cs) ds
      | ds => exponentDigits false (c :: cs) ds
    else (none, c :: cs)
  | [] => (none, [])

/-- A number after its sign and whole part: an `int`, unless a fraction or an exponent follows. -/
def numberTail (neg : Bool) (whole cs : List Char) : Json × List Char :=
  let f := fraction cs
  let e := exponentPart f.2
  match f.1, e.1 with
  | none, none =>
    let n : Int := Nat.ofDigitChars 10 whole 0
    (.int (if neg then -n else n), e.2)
  | f, x =>
    let ds := f.getD []
    (.float (Binary64.ofDecimal neg (Nat.ofDigitChars 10 (whole ++ ds) 0)
      (x.getD 0 - ds.length)), e.2)

/-- A number after its sign: no superfluous leading zero. -/
def unsignedNumber (neg : Bool) : List Char → Option (Json × List Char)
  | [] => none
  | c :: cs =>
    if c = '0' then some (numberTail neg ['0'] cs)
    else if c.isDigit then
      some (numberTail neg (c :: cs.takeWhile Char.isDigit) (cs.dropWhile Char.isDigit))
    else none

/-! ## Values -/

/-- A value that starts with none of `"`, `{` and `[`. -/
def scalar : List Char → Option (Json × List Char)
  | 'n' :: 'u' :: 'l' :: 'l' :: rest => some (.null, rest)
  | 't' :: 'r' :: 'u' :: 'e' :: rest => some (.bool true, rest)
  | 'f' :: 'a' :: 'l' :: 's' :: 'e' :: rest => some (.bool false, rest)
  | 'N' :: 'a' :: 'N' :: rest => some (.float .nan, rest)
  | 'I' :: 'n' :: 'f' :: 'i' :: 'n' :: 'i' :: 't' :: 'y' :: rest => some (.float .inf, rest)
  | '-' :: 'I' :: 'n' :: 'f' :: 'i' :: 'n' :: 'i' :: 't' :: 'y' :: rest =>
    some (.float .negInf, rest)
  | '-' :: cs => unsignedNumber true cs
  | cs => unsignedNumber false cs

mutual

/-- A value at the head of the text, and the text after it. -/
def value : Nat → List Char → Option (Json × List Char)
  | 0, _ => none
  | _ + 1, [] => none
  | n + 1, c :: cs =>
    if c = '"' then (stringBody n cs).map fun r => (.str (String.ofList r.1), r.2)
    else if c = '{' then
      match skipWs cs with
      | '}' :: rest => some (.obj [], rest)
      | cs => (members n cs).map fun r => (.obj (r.1.foldl (fun o kv => Obj.set o kv.1 kv.2) []), r.2)
    else if c = '[' then
      match skipWs cs with
      | ']' :: rest => some (.arr [], rest)
      | cs => (elements n cs).map fun r => (.arr r.1, r.2)
    else scalar (c :: cs)

/-- The elements of a non-empty array, up to and with its closing bracket. -/
def elements : Nat → List Char → Option (List Json × List Char)
  | 0, _ => none
  | n + 1, cs =>
    match value n cs with
    | none => none
    | some (x, rest) =>
      match skipWs rest with
      | ']' :: rest => some ([x], rest)
      | ',' :: rest => (elements n (skipWs rest)).map fun r => (x :: r.1, r.2)
      | _ => none

/-- The members of a non-empty object, up to and with its closing brace. -/
def members : Nat → List Char → Option (List (String × Json) × List Char)
  | 0, _ => none
  | _ + 1, [] => none
  | n + 1, c :: cs =>
    if c = '"' then
      match stringBody n cs with
      | none => none
      | some (k, rest) =>
        match skipWs rest with
        | ':' :: rest =>
          match value n (skipWs rest) with
          | none => none
          | some (v, rest) =>
            match skipWs rest with
            | '}' :: rest => some ([(String.ofList k, v)], rest)
            | ',' :: rest =>
              (members n (skipWs rest)).map fun r => ((String.ofList k, v) :: r.1, r.2)
            | _ => none
        | _ => none
    else none

end

/-- A text that is one value between whitespace. -/
def document (cs : List Char) : Option Json :=
  match value (cs.length + 1) (skipWs cs) with
  | none => none
  | some (j, rest) => if (skipWs rest).isEmpty then some j else none

end JsonText

/-- `json.loads(text)`; `none` for a `JSONDecodeError`. -/
def loads (s : String) : Option Json :=
  if s.toList.head? = some (Char.ofNat 0xfeff) then none else JsonText.document s.toList

/-! ## There and back -/

/-- What the text of a float is read as. -/
def Binary64.reread (x : Binary64) : Binary64 :=
  match JsonText.scalar x.jsonChars with
  | some (.float y, _) => y
  | _ => x

namespace Json

mutual

/-- What the text of a value is read as: items of one key become one. -/
def reread : Json → Json
  | .null => .null
  | .bool b => .bool b
  | .int n => .int n
  | .float x => .float x.reread
  | .str s => .str s
  | .arr xs => .arr (rereadList xs)
  | .obj kvs => .obj ((rereadItems kvs).foldl (fun o kv => Obj.set o kv.1 kv.2) [])

def rereadList : List Json → List Json
  | [] => []
  | x :: xs => reread x :: rereadList xs

def rereadItems : Obj → Obj
  | [] => []
  | (k, v) :: kvs => (k, reread v) :: rereadItems kvs

end

end Json

end Py
