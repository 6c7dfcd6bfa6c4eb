import CaviErp.Lib.JsonText

/-!
# Strings with halves of surrogate pairs

A Python `str` is a list of code points, and may hold one half of a surrogate pair without the other: `json.loads`
reads `"\ud800"` as such a string. No `String` is one. A `Text` is any `str`, and a `Wide` any value that
`json.loads` can return; those without halves are the `String`s and the `Json` values.
-/

namespace Py

/-- A code point. -/
inductive Point where
  | char (c : Char)
  /-- `U+D800`, or one of the 2047 code points after it. -/
  | half (n : Fin 0x800)
deriving DecidableEq, Repr

namespace Point

/-- `ord(c)`. -/
def code : Point → Nat
  | char c => c.toNat
  | half n => 0xd800 + n

/-- `chr(n)`; `none` beyond Unicode. -/
def ofCode (n : Nat) : Option Point :=
  if h : 0xd800 ≤ n ∧ n < 0xe000 then some (half ⟨n - 0xd800, by omega⟩)
  else if n < 0x110000 then some (char (Char.ofNat n))
  else none

def char? : Point → Option Char
  | char c => some c
  | half _ => none

end Point

/-- A Python `str`. -/
abbrev Text := List Point

namespace Text

def ofString (s : String) : Text := s.toList.map .char

/-- The text as a `String`, which it has an encoding as UTF-8 for; `none` for a text with a half. -/
def string? (t : Text) : Option String := (t.mapM Point.char?).map String.ofList

/-- A text that is read without regard to halves: each stands as a character that is not a digit, a blank or
a letter. -/
def blurred (t : Text) : String := String.ofList (t.map fun p => p.char?.getD '\ufffd')

/-- `repr` of a code point inside a string quoted with `q`. -/
def reprPoint (q : Char) : Point → List Char
  | .char c => Json.reprChar q c
  | .half n => '\\' :: 'u' :: hex4 (0xd800 + n)

/-- `repr(t)`. -/
def repr (t : Text) : List Char :=
  let q := if t.contains (.char '\'') && !t.contains (.char '"') then '"' else '\''
  q :: t.flatMap (reprPoint q) ++ [q]

/-- A code point inside a JSON string under `ensure_ascii`. -/
def escapePoint : Point → List Char
  | .char c => escapeChar c
  | .half n => '\\' :: 'u' :: hex4 (0xd800 + n)

def quote (t : Text) : List Char := '"' :: t.flatMap escapePoint ++ ['"']

end Text

instance : Coe String Text := ⟨Text.ofString⟩

/-- A value that `json.loads` can return. -/
inductive Wide where
  | null
  | bool (b : Bool)
  | int (n : Int)
  | float (x : Binary64)
  | str (t : Text)
  | arr (xs : List Wide)
  | obj (kvs : List (Text × Wide))

/-- A `dict` with strings for keys, as its items in insertion order. -/
abbrev WideObj := List (Text × Wide)

namespace Wide

/-! ## Values without halves -/

mutual

def ofJson : Json → Wide
  | .null => null
  | .bool b => bool b
  | .int n => int n
  | .float x => float x
  | .str s => str s
  | .arr xs => arr (ofJsonList xs)
  | .obj kvs => obj (ofItems kvs)

def ofJsonList : List Json → List Wide
  | [] => []
  | x :: xs => ofJson x :: ofJsonList xs

def ofItems : Obj → WideObj
  | [] => []
  | (k, v) :: kvs => (Text.ofString k, ofJson v) :: ofItems kvs

end

mutual

/-- The value with its strings read without regard to halves. -/
def blurred : Wide → Json
  | null => .null
  | bool b => .bool b
  | int n => .int n
  | float x => .float x
  | str t => .str t.blurred
  | arr xs => .arr (blurredList xs)
  | obj kvs => .obj (blurredItems kvs)

def blurredList : List Wide → List Json
  | [] => []
  | x :: xs => blurred x :: blurredList xs

def blurredItems : WideObj → Obj
  | [] => []
  | (k, v) :: kvs => (k.blurred, blurred v) :: blurredItems kvs

end

/-! ## Reading a value -/

/-- `bool(x)`. -/
def truthy : Wide → Bool
  | null => false
  | bool b => b
  | int n => n != 0
  | float (.finite q) => q != 0
  | float .negZero => false
  | float _ => true
  | str t => !t.isEmpty
  | arr xs => !xs.isEmpty
  | obj kvs => !kvs.isEmpty

/-- The value has a hash. -/
def hashable : Wide → Bool
  | arr _ => false
  | obj _ => false
  | _ => true

mutual

/-- `repr(x)`: halves are escaped. -/
def repr : Wide → List Char
  | null => "None".toList
  | bool true => "True".toList
  | bool false => "False".toList
  | int n => (toString n).toList
  | float x => x.str.toList
  | str t => t.repr
  | arr xs => '[' :: Json.joinChars ", ".toList (reprList xs) ++ [']']
  | obj kvs => '{' :: Json.joinChars ", ".toList (reprItems kvs) ++ ['}']

def reprList : List Wide → List (List Char)
  | [] => []
  | x :: xs => repr x :: reprList xs

def reprItems : WideObj → List (List Char)
  | [] => []
  | (k, v) :: kvs => (k.repr ++ ": ".toList ++ repr v) :: reprItems kvs

end

/-- `str(x)`: a string is itself, anything else its `repr`. -/
def pyStr : Wide → Text
  | str t => t
  | x => Text.ofString (String.ofList (repr x))

mutual

/-- `json.dumps(x)`, on characters. -/
def dumpChars : Wide → List Char
  | null => "null".toList
  | bool true => "true".toList
  | bool false => "false".toList
  | int n => (toString n).toList
  | float x => x.jsonChars
  | str t => t.quote
  | arr xs => '[' :: Json.joinChars [',', ' '] (dumpList xs) ++ [']']
  | obj kvs => '{' :: Json.joinChars [',', ' '] (dumpItems kvs) ++ ['}']

def dumpList : List Wide → List (List Char)
  | [] => []
  | x :: xs => dumpChars x :: dumpList xs

def dumpItems : WideObj → List (List Char)
  | [] => []
  | (k, v) :: kvs => (k.quote ++ [':', ' '] ++ dumpChars v) :: dumpItems kvs

end

def dumps (x : Wide) : String := String.ofList (dumpChars x)

end Wide

namespace WideObj

/-- `d.get(k)`, with absence told apart from `None`. -/
def get? (o : WideObj) (k : String) : Option Wide := o.lookup (Text.ofString k)

/-- `d.get(k)`: `None` when absent. -/
def get (o : WideObj) (k : String) : Wide := (get? o k).getD .null

/-- `d[k] = v`: the item keeps its place, or is added at the end. -/
def set : WideObj → Text → Wide → WideObj
  | [], k, v => [(k, v)]
  | (l, w) :: o, k, v => if l = k then (k, v) :: o else (l, w) :: set o k v

end WideObj

end Py
