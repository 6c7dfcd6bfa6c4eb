import CaviErp.Lib.Text

/-!
# Reading JSON of any code points

`json.loads` of a `str`, as `JsonText` reads it but with halves of surrogate pairs: a half may stand in a string
literal, or be written as an escape to which the other half is not added.
-/

namespace Py

namespace TextJson

open JsonText (hexQuad simpleEscape)

/-- The characters before the first half, and the text from there on. -/
def chars : Text → List Char × Text
  | [] => ([], [])
  | .char c :: t => (c :: (chars t).1, (chars t).2)
  | .half n :: t => ([], .half n :: t)

/-- What reads characters, on a text: a half is no part of what it reads. -/
def onChars {α : Type} (read : List Char → Option (α × List Char)) (t : Text) : Option (α × Text) :=
  (read (chars t).1).map fun r => (r.1, r.2.map .char ++ (chars t).2)

def isWs : Point → Bool
  | .char c => JsonText.isWs c
  | .half _ => false

def skipWs (t : Text) : Text := t.dropWhile isWs

/-! ## Strings -/

/-- The character of a surrogate pair whose first half is `hi`, if the escape of a second half follows. -/
def lowHalf (hi : Nat) : Text → Option (Char × Text)
  | .char '\\' :: .char 'u' :: t => do
    let (lo, rest) ← onChars hexQuad t
    if 0xd800 ≤ hi ∧ hi < 0xdc00 ∧ 0xdc00 ≤ lo ∧ lo < 0xe000 then
      return (Char.ofNat (0x10000 + (hi - 0xd800) * 0x400 + (lo - 0xdc00)), rest)
    else none
  | _ => none

/-- What follows a backslash. -/
def escape : Text → Option (Point × Text)
  | .char 'u' :: t => do
    let (n, rest) ← onChars hexQuad t
    match lowHalf n rest with
    | some (c, rest) => return (.char c, rest)
    | none => (Point.ofCode n).map fun p => (p, rest)
  | .char c :: t => (simpleEscape c).map fun d => (.char d, t)
  | _ => none

/-- The rest of a string literal, after its opening quote. -/
def stringBody : Nat → Text → Option (Text × Text)
  | 0, _ => none
  | _ + 1, [] => none
  | n + 1, p :: t =>
    if p = .char '"' then some ([], t)
    else if p = .char '\\' then do
      let (q, rest) ← escape t
      let (s, rest) ← stringBody n rest
      return (q :: s, rest)
    else if p.code < 32 then none
    else do
      let (s, rest) ← stringBody n t
      return (p :: s, rest)

/-! ## Values -/

mutual

/-- A value at the head of the text, and the text after it. -/
def value : Nat → Text → Option (Wide × Text)
  | 0, _ => none
  | _ + 1, [] => none
  | n + 1, p :: t =>
    if p = .char '"' then (stringBody n t).map fun r => (.str r.1, r.2)
    else if p = .char '{' then
      match skipWs t with
      | .char '}' :: rest => some (.obj [], rest)
      | t => (members n t).map fun r => (.obj (r.1.foldl (fun o kv => WideObj.set o kv.1 kv.2) []), r.2)
    else if p = .char '[' then
      match skipWs t with
      | .char ']' :: rest => some (.arr [], rest)
      | t => (elements n t).map fun r => (.arr r.1, r.2)
    else (onChars JsonText.scalar (p :: t)).map fun r => (Wide.ofJson r.1, r.2)

/-- The elements of a non-empty array, up to and with its closing bracket. -/
def elements : Nat → Text → Option (List Wide × Text)
  | 0, _ => none
  | n + 1, t =>
    match value n t with
    | none => none
    | some (x, rest) =>
      match skipWs rest with
      | .char ']' :: rest => some ([x], rest)
      | .char ',' :: rest => (elements n (skipWs rest)).map fun r => (x :: r.1, r.2)
      | _ => none

/-- The members of a non-empty object, up to and with its closing brace. -/
def members : Nat → Text → Option (WideObj × Text)
  | 0, _ => none
  | _ + 1, [] => none
  | n + 1, p :: t =>
    if p = .char '"' then
      match stringBody n t with
      | none => none
      | some (k, rest) =>
        match skipWs rest with
        | .char ':' :: rest =>
          match value n (skipWs rest) with
          | none => none
          | some (v, rest) =>
            match skipWs rest with
            | .char '}' :: rest => some ([(k, v)], rest)
            | .char ',' :: rest => (members n (skipWs rest)).map fun r => ((k, v) :: r.1, r.2)
            | _ => none
        | _ => none
    else none

end

/-- A text that is one value between whitespace. -/
def document (t : Text) : Option Wide :=
  match value (t.length + 1) (skipWs t) with
  | none => none
  | some (x, rest) => if (skipWs rest).isEmpty then some x else none

end TextJson

/-- `json.loads(text)`; `none` for a `JSONDecodeError`. -/
def Text.loads (t : Text) : Option Wide :=
  if t.head? = some (.char (Char.ofNat 0xfeff)) then none else TextJson.document t

end Py
