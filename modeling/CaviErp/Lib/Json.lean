import Mathlib.Data.Rat.Floor
import Mathlib.Data.Int.Log
import Mathlib.Data.List.Sort

/-!
# JSON values as a Python program sees them

`json.loads` yields `None`, `bool`, `int`, `float`, `str`, `list` and `dict`; the program then treats
these dynamically (truthiness, `str()`, `==`, `dict()`, hashing). A `Json` is one such value. A `dict`
is its list of items in insertion order.

A `float` is kept as the rational number it denotes. Characters are Unicode scalar values, so a
string with a lone surrogate has no counterpart here. `str()` of a *container* follows `repr` except
that non-ASCII characters are all taken as printable.
-/

namespace Py

/-- A Python `float`: a finite binary64 value by the rational it denotes, or a special value. -/
inductive Binary64 where
  | finite (q : ℚ)
  | negZero
  | inf
  | negInf
  | nan
deriving DecidableEq, Repr

/-- A value that `json.loads` can return. -/
inductive Json where
  | null
  | bool (b : Bool)
  | int (n : Int)
  | float (x : Binary64)
  | str (s : String)
  | arr (xs : List Json)
  | obj (kvs : List (String × Json))
deriving Repr

/-- A `dict` with string keys, as its items in insertion order. -/
abbrev Obj := List (String × Json)

instance : Coe String Json := ⟨Json.str⟩

instance : Coe Int Json := ⟨Json.int⟩

namespace Json

/-! ## Decidable equality -/

mutual

/-- Structural equality test. -/
def same : Json → Json → Bool
  | null, null => true
  | bool a, bool b => a == b
  | int a, int b => a == b
  | float a, float b => decide (a = b)
  | str a, str b => a == b
  | arr a, arr b => sameList a b
  | obj a, obj b => sameItems a b
  | _, _ => false

def sameList : List Json → List Json → Bool
  | [], [] => true
  | a :: as, b :: bs => same a b && sameList as bs
  | _, _ => false

def sameItems : Obj → Obj → Bool
  | [], [] => true
  | (k, a) :: as, (l, b) :: bs => k == l && same a b && sameItems as bs
  | _, _ => false

end

mutual

theorem same_iff : ∀ a b : Json, same a b = true ↔ a = b
  | null, b => by cases b <;> simp [same]
  | bool _, b => by cases b <;> simp [same]
  | int _, b => by cases b <;> simp [same]
  | float _, b => by cases b <;> simp [same]
  | str _, b => by cases b <;> simp [same]
  | arr as, b => by
    cases b with
    | arr bs => simp [same, sameList_iff as bs]
    | _ => simp [same]
  | obj as, b => by
    cases b with
    | obj bs => simp [same, sameItems_iff as bs]
    | _ => simp [same]

theorem sameList_iff : ∀ as bs : List Json, sameList as bs = true ↔ as = bs
  | [], bs => by cases bs <;> simp [sameList]
  | a :: as, bs => by
    cases bs with
    | nil => simp [sameList]
    | cons b bs => simp [sameList, same_iff a b, sameList_iff as bs]

theorem sameItems_iff : ∀ as bs : Obj, sameItems as bs = true ↔ as = bs
  | [], bs => by cases bs <;> simp [sameItems]
  | (k, a) :: as, bs => by
    cases bs with
    | nil => simp [sameItems]
    | cons b bs =>
      obtain ⟨l, b⟩ := b
      simp [sameItems, same_iff a b, sameItems_iff as bs, and_assoc]

end

instance : DecidableEq Json := fun a b => decidable_of_iff _ (same_iff a b)

end Json

/-! ## Floats -/

namespace Binary64

/-- Round to the nearest integer, ties to even. -/
def roundHalfEven (q : ℚ) : Int :=
  let f := ⌊q⌋
  let r := q - f
  if r < 1 / 2 then f else if 1 / 2 < r then f + 1 else if f % 2 = 0 then f else f + 1

/-- The binary64 value nearest to a positive rational (before the overflow check). -/
def roundDouble (q : ℚ) : ℚ :=
  let ulp : ℚ := 2 ^ max (Int.log 2 q - 52) (-1074)
  roundHalfEven (q / ulp) * ulp

def decimal (s : Int) (e : Int) : ℚ := s * 10 ^ e

/-- The candidates `s · 10^e` with `n` significant digits around a positive rational, nearest
first. -/
def candidates (q : ℚ) (n : Nat) : List (Int × Int) :=
  let e := Int.log 10 q - n + 1
  let s := roundHalfEven (q / 10 ^ e)
  [(s, e), (s + 1, e), (s - 1, e)]

/-- The shortest decimal that rounds to a positive binary64 value; 17 digits always suffice. -/
def shortest (q : ℚ) : Int × Int :=
  (((List.range 17).flatMap fun n => candidates q (n + 1)).find? fun c =>
    roundDouble (decimal c.1 c.2) == q).getD (roundHalfEven (q / 10 ^ (Int.log 10 q - 16)), Int.log 10 q - 16)

/-- The decimal digits of `n`, without trailing zeros (but at least one digit). -/
def digits (n : Nat) : List Char :=
  match ((Nat.toDigits 10 n).reverse.dropWhile (· == '0')).reverse with
  | [] => ['0']
  | ds => ds

/-- A decimal exponent as `repr` writes it: a sign and at least two digits. -/
def exponent (e : Int) : List Char :=
  (if e < 0 then '-' else '+') ::
    (if e.natAbs < 10 then ['0'] else []) ++ Nat.toDigits 10 e.natAbs

/-- `repr` of a positive finite `float`, from its shortest decimal: positional when the decimal point
falls between the 4th leading zero and the 16th digit, else with an exponent. -/
def reprPos (q : ℚ) : List Char :=
  let c := shortest q
  let ds := digits c.1.natAbs
  let point : Int := (Nat.toDigits 10 c.1.natAbs).length + c.2
  if -4 < point ∧ point ≤ 16 then
    if point ≤ 0 then
      '0' :: '.' :: List.replicate (-point).toNat '0' ++ ds
    else if ds.length ≤ point.toNat then
      ds ++ List.replicate (point.toNat - ds.length) '0' ++ ['.', '0']
    else
      ds.take point.toNat ++ '.' :: ds.drop point.toNat
  else
    ds.take 1 ++ (if ds.length = 1 then [] else '.' :: ds.drop 1) ++ 'e' :: exponent (point - 1)

/-- The text `json.dumps` gives a `float`: `repr`, with the JavaScript names of the special values. -/
def jsonChars : Binary64 → List Char
  | finite q =>
    if q = 0 then "0.0".toList else if q < 0 then '-' :: reprPos (-q) else reprPos q
  | negZero => "-0.0".toList
  | inf => "Infinity".toList
  | negInf => "-Infinity".toList
  | nan => "NaN".toList

def str : Binary64 → String
  | inf => "inf"
  | negInf => "-inf"
  | nan => "nan"
  | x => String.ofList x.jsonChars

def isInteger : Binary64 → Bool
  | finite q => q.den == 1
  | negZero => true
  | _ => false

/-- `int(x)`; `none` where Python raises. -/
def toInt : Binary64 → Option Int
  | finite q => some (q.num.tdiv q.den)
  | negZero => some 0
  | _ => none

/-- `x < m` for an integer `m`. -/
def ltInt (x : Binary64) (m : Int) : Bool :=
  match x with
  | finite q => q < m
  | negZero => 0 < m
  | negInf => true
  | _ => false

end Binary64

namespace Json

/-! ## Reading a value -/

/-- `bool(x)`. -/
def truthy : Json → Bool
  | null => false
  | bool b => b
  | int n => n != 0
  | float (.finite q) => q != 0
  | float .negZero => false
  | float _ => true
  | str s => s != ""
  | arr xs => !xs.isEmpty
  | obj kvs => !kvs.isEmpty

/-- The value as a dictionary key, with equal numbers identified (`1 == 1.0 == True`); `none` for a
value that cannot be hashed. -/
def dictKey : Json → Option Json
  | arr _ => none
  | obj _ => none
  | bool b => some (int b.toInt)
  | float (.finite q) => some (if q.den = 1 then int q.num else float (.finite q))
  | float .negZero => some (int 0)
  | j => some j

/-- `repr` of a character inside a string quoted with `q`. -/
def reprChar (q c : Char) : List Char :=
  if c = q ∨ c = '\\' then ['\\', c]
  else if c = '\n' then ['\\', 'n']
  else if c = '\r' then ['\\', 'r']
  else if c = '\t' then ['\\', 't']
  else if c.toNat < 32 ∨ c.toNat = 127 then
    ['\\', 'x', Nat.digitChar (c.toNat / 16), Nat.digitChar (c.toNat % 16)]
  else [c]

/-- `repr` of a string: single quotes unless it holds a single and no double quote. -/
def reprStr (s : String) : List Char :=
  let q := if s.toList.contains '\'' && !s.toList.contains '"' then '"' else '\''
  q :: s.toList.flatMap (reprChar q) ++ [q]

def joinChars (sep : List Char) : List (List Char) → List Char
  | [] => []
  | [x] => x
  | x :: y :: rest => x ++ sep ++ joinChars sep (y :: rest)

mutual

def repr : Json → List Char
  | null => "None".toList
  | bool true => "True".toList
  | bool false => "False".toList
  | int n => (toString n).toList
  | float x => x.str.toList
  | str s => reprStr s
  | arr xs => '[' :: joinChars ", ".toList (reprList xs) ++ [']']
  | obj kvs => '{' :: joinChars ", ".toList (reprItems kvs) ++ ['}']

def reprList : List Json → List (List Char)
  | [] => []
  | x :: xs => repr x :: reprList xs

def reprItems : Obj → List (List Char)
  | [] => []
  | (k, v) :: kvs => (reprStr k ++ ": ".toList ++ repr v) :: reprItems kvs

end

/-- `str(x)`: a string is itself, anything else its `repr`. -/
def pyStr : Json → String
  | str s => s
  | j => String.ofList (repr j)

/-- A number by its numeric value, as `==` compares it; `None` for what is not a finite number. -/
def number : Json → Option ℚ
  | bool b => some (b.toInt : ℚ)
  | int n => some (n : ℚ)
  | float (.finite q) => some q
  | float .negZero => some 0
  | _ => none

mutual

/-- `a == b`: numbers by value, lists elementwise, dictionaries as maps. `nan` differs from itself. -/
def pyEq : Json → Json → Bool
  | null, null => true
  | str a, str b => a == b
  | float .inf, float .inf => true
  | float .negInf, float .negInf => true
  | arr as, arr bs => pyEqList as bs
  | obj as, obj bs => as.length == bs.length && pyEqItems as bs
  | a, b =>
    match a.number, b.number with
    | some p, some q => p == q
    | _, _ => false

def pyEqList : List Json → List Json → Bool
  | [], [] => true
  | a :: as, b :: bs => pyEq a b && pyEqList as bs
  | _, _ => false

/-- Every item of the first dictionary is in the second with an equal value. -/
def pyEqItems : Obj → Obj → Bool
  | [], _ => true
  | (k, a) :: as, bs =>
    (match bs.lookup k with
      | some b => pyEq a b
      | none => false) && pyEqItems as bs

end

end Json

/-! ## Dictionaries -/

namespace Obj

/-- `d.get(k)`, with absence told apart from `None`. -/
def get? (o : Obj) (k : String) : Option Json := o.lookup k

/-- `d.get(k)`: `None` when absent. -/
def get (o : Obj) (k : String) : Json := (o.get? k).getD Json.null

/-- `d[k] = v`: the item keeps its place, or is added at the end. -/
def set : Obj → String → Json → Obj
  | [], k, v => [(k, v)]
  | (l, w) :: o, k, v => if l = k then (k, v) :: o else (l, w) :: set o k v

def keys (o : Obj) : List String := o.map Prod.fst

theorem get?_set (o : Obj) (k l : String) (v : Json) :
    (o.set k v).get? l = if l = k then some v else o.get? l := by
  induction o with
  | nil =>
    by_cases h : l = k
    · simp [set, get?, h]
    · simp [set, get?, h, List.lookup_cons, beq_eq_false_iff_ne.mpr h]
  | cons kv o ih =>
    obtain ⟨k', w⟩ := kv
    rw [set]
    by_cases hk : k' = k
    · rw [if_pos hk]
      by_cases h : l = k
      · simp [get?, h]
      · simp [get?, h, List.lookup_cons, hk, beq_eq_false_iff_ne.mpr h]
    · rw [if_neg hk]
      by_cases h : l = k'
      · have hne : ¬ l = k := fun hl => hk (h.symm.trans hl)
        simp [get?, h, hk]
      · have hne : (l == k') = false := beq_eq_false_iff_ne.mpr h
        have ih' : List.lookup l (set o k v) = if l = k then some v else List.lookup l o := ih
        simp only [get?, List.lookup_cons, hne]
        exact ih'

theorem keys_set (d : Obj) (k : String) (v : Json) :
    Obj.keys (d.set k v) = if k ∈ d.keys then d.keys else d.keys ++ [k] := by
  induction d with
  | nil => rfl
  | cons kv d ih =>
    obtain ⟨l, w⟩ := kv
    rw [Obj.set]
    by_cases hl : l = k
    · rw [if_pos hl, if_pos (by rw [← hl]; exact List.mem_cons_self)]
      exact congrArg (· :: Obj.keys d) hl.symm
    · have hcons : ∀ e : Obj, Obj.keys ((l, w) :: e) = l :: e.keys := fun _ => rfl
      rw [if_neg hl, hcons, hcons, ih]
      by_cases hk : k ∈ Obj.keys d
      · rw [if_pos hk, if_pos (List.mem_cons_of_mem _ hk)]
      · rw [if_neg hk, if_neg fun h => hk ((List.mem_cons.mp h).resolve_left (Ne.symm hl))]
        rfl

theorem set_of_not_mem {d : Obj} {k : String} (h : k ∉ d.keys) (v : Json) : d.set k v = d ++ [(k, v)] := by
  induction d with
  | nil => rfl
  | cons kv d ih =>
    obtain ⟨hne, hrest⟩ := not_or.mp (mt List.mem_cons.mpr h)
    rw [Obj.set, if_neg (Ne.symm hne), ih hrest]
    rfl

/-- Items with distinct keys, none of which is there yet, are added as they are. -/
theorem foldl_set {d e : Obj} (he : e.keys.Nodup) (h : ∀ k ∈ e.keys, k ∉ d.keys) :
    e.foldl (fun d kv => d.set kv.1 kv.2) d = d ++ e := by
  induction e generalizing d with
  | nil => exact (List.append_nil d).symm
  | cons kv e ih =>
    obtain ⟨hfresh, he⟩ := List.nodup_cons.mp he
    have hkv : kv.1 ∉ d.keys := h _ List.mem_cons_self
    have hrest : ∀ k ∈ Obj.keys e, k ∉ (d.set kv.1 kv.2).keys := by
      intro k hk
      rw [keys_set, if_neg hkv, List.mem_append, List.mem_singleton]
      rintro (hd | rfl)
      · exact h k (List.mem_cons_of_mem _ hk) hd
      · exact hfresh hk
    rw [List.foldl_cons, ih he hrest, set_of_not_mem hkv, List.append_assoc]
    rfl

/-- A dictionary without one of its keys. -/
theorem get?_filter_ne (o : Obj) (k l : String) :
    Obj.get? (o.filter fun kv => kv.1 ≠ k) l = if l = k then none else o.get? l := by
  induction o with
  | nil => simp [get?]
  | cons kv o ih =>
    obtain ⟨k', w⟩ := kv
    have ih' : List.lookup l (o.filter fun kv => kv.1 ≠ k) =
        if l = k then none else List.lookup l o := ih
    by_cases hk : k' = k
    · rw [List.filter_cons_of_neg (by simpa using hk)]
      by_cases h : l = k
      · simpa [get?, h] using ih'
      · have hne : (l == k') = false := beq_eq_false_iff_ne.mpr (hk ▸ h)
        simpa [get?, List.lookup_cons, hne, h] using ih'
    · rw [List.filter_cons_of_pos (by simpa using hk)]
      by_cases h : l = k'
      · have hne : ¬ l = k := fun hl => hk (h.symm.trans hl)
        simp [get?, h, hk]
      · have hne : (l == k') = false := beq_eq_false_iff_ne.mpr h
        simpa [get?, List.lookup_cons, hne] using ih'

end Obj

/-- The two components `dict()` reads from an element of a sequence of pairs; keys of a `Json`
dictionary are strings, so a pair with another key is refused. -/
def pairOf : Json → Option (String × Json)
  | .arr [.str k, v] => some (k, v)
  | .str s =>
    match s.toList with
    | [a, b] => some (String.singleton a, .str (String.singleton b))
    | _ => none
  | .obj [(k, _), (l, _)] => some (k, .str l)
  | _ => none

/-- `dict(x)`: a copy of a dictionary, or the dictionary of a sequence of pairs (the last of two pairs
with one key wins); `none` where Python raises. -/
def dictOf : Json → Option Obj
  | .obj kvs => some kvs
  | .arr xs => (xs.mapM pairOf).map fun ps => ps.foldl (fun o p => o.set p.1 p.2) []
  | .str s => if s = "" then some [] else none
  | _ => none

/-! ## `int()` -/

/-- A character that `str.strip()` removes, within ASCII. -/
def isSpace (c : Char) : Bool :=
  c == ' ' || (9 ≤ c.toNat && c.toNat ≤ 13) || (28 ≤ c.toNat && c.toNat ≤ 31)

/-- A blank outside ASCII. -/
def isWideSpace (c : Char) : Bool :=
  (0x2000 ≤ c.toNat && c.toNat ≤ 0x200a) ||
    [0x85, 0xa0, 0x1680, 0x2028, 0x2029, 0x202f, 0x205f, 0x3000].contains c.toNat

/-- The decimal digits zero outside ASCII (Unicode 14); each stands before the other nine. -/
def wideZeros : List Nat :=
  [0x660, 0x6f0, 0x7c0, 0x966, 0x9e6, 0xa66, 0xae6, 0xb66, 0xbe6, 0xc66, 0xce6, 0xd66, 0xde6, 0xe50,
    0xed0, 0xf20, 0x1040, 0x1090, 0x17e0, 0x1810, 0x1946, 0x19d0, 0x1a80, 0x1a90, 0x1b50, 0x1bb0,
    0x1c40, 0x1c50, 0xa620, 0xa8d0, 0xa900, 0xa9d0, 0xa9f0, 0xaa50, 0xabf0, 0xff10, 0x104a0,
    0x10d30, 0x11066, 0x110f0, 0x11136, 0x111d0, 0x112f0, 0x11450, 0x114d0, 0x11650, 0x116c0,
    0x11730, 0x118e0, 0x11950, 0x11c50, 0x11d50, 0x11da0, 0x16a60, 0x16ac0, 0x16b50, 0x1d7ce,
    0x1d7d8, 0x1d7e2, 0x1d7ec, 0x1d7f6, 0x1e140, 0x1e2f0, 0x1e950, 0x1fbf0]

/-- A character of a number as `int()` reads it: blanks and decimal digits become those of ASCII. -/
def asciiChar (c : Char) : Char :=
  if c.toNat < 127 then c
  else if isWideSpace c then ' '
  else
    match wideZeros.find? fun z => z ≤ c.toNat ∧ c.toNat < z + 10 with
    | some z => Char.ofNat ('0'.toNat + (c.toNat - z))
    | none => '?'

/-- A blank that `int()` passes over: not all of those that `str.strip()` removes. -/
def isNumberSpace (c : Char) : Bool := c == ' ' || (9 ≤ c.toNat && c.toNat ≤ 13)

/-- Decimal digits with single underscores between them. -/
def intDigits : Nat → List Char → Option Nat
  | acc, [] => some acc
  | _, ['_'] => none
  | acc, '_' :: c :: cs =>
    if c.isDigit then intDigits (acc * 10 + (c.toNat - '0'.toNat)) cs else none
  | acc, c :: cs => if c.isDigit then intDigits (acc * 10 + (c.toNat - '0'.toNat)) cs else none

/-- `int(text)`: surrounding blanks and a sign are allowed. -/
def parseInt (s : String) : Option Int :=
  match (((s.toList.map asciiChar).dropWhile isNumberSpace).reverse.dropWhile isNumberSpace).reverse with
  | '-' :: c :: cs => if c.isDigit then (intDigits 0 (c :: cs)).map fun n => -(n : Int) else none
  | '+' :: c :: cs => if c.isDigit then (intDigits 0 (c :: cs)).map fun n => (n : Int) else none
  | c :: cs => if c.isDigit then (intDigits 0 (c :: cs)).map fun n => (n : Int) else none
  | [] => none

/-- `int(x)`; `none` where Python raises. -/
def Json.toInt : Json → Option Int
  | .int n => some n
  | .bool b => some b.toInt
  | .float x => x.toInt
  | .str s => parseInt s
  | _ => none

/-! ## `json.dumps` -/

/-- The options of `json.dumps` the program uses. -/
structure DumpStyle where
  sortKeys : Bool
  itemSep : List Char
  keySep : List Char

/-- `json.dumps(x)`. -/
def DumpStyle.default : DumpStyle := ⟨false, [',', ' '], [':', ' ']⟩

/-- `json.dumps(x, sort_keys=True, separators=(",", ":"))`. -/
def DumpStyle.canonical : DumpStyle := ⟨true, [','], [':']⟩

/-- Four lower-case hexadecimal digits. -/
def hex4 (n : Nat) : List Char :=
  [Nat.digitChar (n / 4096 % 16), Nat.digitChar (n / 256 % 16),
    Nat.digitChar (n / 16 % 16), Nat.digitChar (n % 16)]

/-- One character inside a JSON string under `ensure_ascii`. -/
def escapeChar (c : Char) : List Char :=
  if c = '"' then ['\\', '"']
  else if c = '\\' then ['\\', '\\']
  else if c = '\n' then ['\\', 'n']
  else if c = '\r' then ['\\', 'r']
  else if c = '\t' then ['\\', 't']
  else if c = '\x0c' then ['\\', 'f']
  else if c = '\x08' then ['\\', 'b']
  else if 32 ≤ c.toNat ∧ c.toNat ≤ 126 then [c]
  else if c.toNat < 0x10000 then '\\' :: 'u' :: hex4 c.toNat
  else
    -- a surrogate pair
    '\\' :: 'u' :: hex4 (0xd800 + (c.toNat - 0x10000) / 0x400) ++
      '\\' :: 'u' :: hex4 (0xdc00 + (c.toNat - 0x10000) % 0x400)

def quote (s : String) : List Char := '"' :: s.toList.flatMap escapeChar ++ ['"']

/-- The items in the order `json.dumps` writes them. -/
def DumpStyle.order {α : Type} (st : DumpStyle) (kvs : List (String × α)) : List (String × α) :=
  if st.sortKeys then kvs.insertionSort (fun a b => a.1 ≤ b.1) else kvs

mutual

/-- `json.dumps`, on characters. -/
def dumpChars (st : DumpStyle) : Json → List Char
  | .null => "null".toList
  | .bool true => "true".toList
  | .bool false => "false".toList
  | .int n => (toString n).toList
  | .float x => x.jsonChars
  | .str s => quote s
  | .arr xs => '[' :: Json.joinChars st.itemSep (dumpList st xs) ++ [']']
  | .obj kvs =>
    '{' :: Json.joinChars st.itemSep
      ((st.order (dumpItems st kvs)).map fun kv => quote kv.1 ++ st.keySep ++ kv.2) ++ ['}']

def dumpList (st : DumpStyle) : List Json → List (List Char)
  | [] => []
  | x :: xs => dumpChars st x :: dumpList st xs

def dumpItems (st : DumpStyle) : Obj → List (String × List Char)
  | [] => []
  | (k, v) :: kvs => (k, dumpChars st v) :: dumpItems st kvs

end

def dumps (st : DumpStyle) (j : Json) : String := String.ofList (dumpChars st j)

/-! ## Equal values -/

mutual

/-- The value with the keys of every object in order. -/
def Json.sortKeys : Json → Json
  | .arr xs => .arr (sortKeysList xs)
  | .obj kvs => .obj ((sortKeysItems kvs).insertionSort fun a b => a.1 ≤ b.1)
  | j => j

def sortKeysList : List Json → List Json
  | [] => []
  | x :: xs => x.sortKeys :: sortKeysList xs

def sortKeysItems : Obj → Obj
  | [] => []
  | (k, v) :: kvs => (k, v.sortKeys) :: sortKeysItems kvs

end

/-- Equal JSON values: the same but for the order of the keys in objects. -/
def Json.SameValue (a b : Json) : Prop := a.sortKeys = b.sortKeys

end Py
