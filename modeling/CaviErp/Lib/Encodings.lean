import CaviErp.Lib.TextJson

/-!
# Reading JSON bytes

`json.loads` of `bytes`: the encoding is told from the first bytes, as `json.detect_encoding` does, and the
bytes are decoded before they are parsed. Halves of surrogate pairs are decoded like other code points.
-/

namespace Py

/-- The encodings of JSON; those with a mark have lost it when they are decoded. -/
inductive Encoding where
  | utf8
  | utf8Sig
  | utf16 (bigEndian marked : Bool)
  | utf32 (bigEndian marked : Bool)
deriving DecidableEq, Repr

/-- `json.detect_encoding`. -/
def detectEncoding : List UInt8 → Encoding
  | 0x00 :: 0x00 :: 0xfe :: 0xff :: _ => .utf32 true true
  | 0xff :: 0xfe :: 0x00 :: 0x00 :: _ => .utf32 false true
  | 0xfe :: 0xff :: _ => .utf16 true true
  | 0xff :: 0xfe :: _ => .utf16 false true
  | 0xef :: 0xbb :: 0xbf :: _ => .utf8Sig
  | a :: b :: c :: d :: _ =>
    if a = 0 then (if b = 0 then .utf32 true false else .utf16 true false)
    else if b = 0 then (if c = 0 ∧ d = 0 then .utf32 false false else .utf16 false false)
    else .utf8
  | [a, b] => if a = 0 then .utf16 true false else if b = 0 then .utf16 false false else .utf8
  | _ => .utf8

/-- The payload of a continuation byte. -/
def continuation (b : UInt8) : Option Nat :=
  if 0x80 ≤ b ∧ b < 0xc0 then some (b.toNat - 0x80) else none

/-- UTF-8 without overlong forms. -/
def decodeUtf8 : List UInt8 → Option Text
  | [] => some []
  | a :: bs =>
    if a < 0x80 then (decodeUtf8 bs).map (.char (Char.ofNat a.toNat) :: ·)
    else if a < 0xc2 then none
    else
      match bs with
      | b :: bs =>
        if a < 0xe0 then do
          let x ← continuation b
          let p ← Point.ofCode ((a.toNat - 0xc0) * 0x40 + x)
          (decodeUtf8 bs).map (p :: ·)
        else
          match bs with
          | c :: bs =>
            if a < 0xf0 then do
              let x ← continuation b
              let y ← continuation c
              let n := ((a.toNat - 0xe0) * 0x40 + x) * 0x40 + y
              if n < 0x800 then none
              else do
                let p ← Point.ofCode n
                (decodeUtf8 bs).map (p :: ·)
            else
              match bs with
              | d :: bs => do
                let x ← continuation b
                let y ← continuation c
                let z ← continuation d
                let n := (((a.toNat - 0xf0) * 0x40 + x) * 0x40 + y) * 0x40 + z
                if n < 0x10000 then none
                else do
                  let p ← Point.ofCode n
                  (decodeUtf8 bs).map (p :: ·)
              | [] => none
          | [] => none
      | [] => none

/-- The 16-bit units of the bytes. -/
def units16 (bigEndian : Bool) : List UInt8 → Option (List Nat)
  | [] => some []
  | [_] => none
  | a :: b :: bs =>
    (units16 bigEndian bs).map
      ((if bigEndian then a.toNat * 0x100 + b.toNat else b.toNat * 0x100 + a.toNat) :: ·)

/-- The code points of the units: two halves that fit are one character. -/
def decodeUtf16 : List Nat → Option Text
  | [] => some []
  | u :: us => do
    let p ← Point.ofCode u
    match us with
    | [] => some [p]
    | v :: vs =>
      if 0xd800 ≤ u ∧ u < 0xdc00 ∧ 0xdc00 ≤ v ∧ v < 0xe000 then do
        let q ← Point.ofCode (0x10000 + (u - 0xd800) * 0x400 + (v - 0xdc00))
        (decodeUtf16 vs).map (q :: ·)
      else (decodeUtf16 (v :: vs)).map (p :: ·)

def decodeUtf32 (bigEndian : Bool) : List UInt8 → Option Text
  | [] => some []
  | a :: b :: c :: d :: bs => do
    let (w, x, y, z) := if bigEndian then (a, b, c, d) else (d, c, b, a)
    let p ← Point.ofCode (((w.toNat * 0x100 + x.toNat) * 0x100 + y.toNat) * 0x100 + z.toNat)
    (decodeUtf32 bigEndian bs).map (p :: ·)
  | _ => none

/-- `b.decode(encoding, 'surrogatepass')`; `none` for a `UnicodeDecodeError`. -/
def decode (encoding : Encoding) (bs : List UInt8) : Option Text :=
  match encoding with
  | .utf8 => decodeUtf8 bs
  | .utf8Sig => decodeUtf8 (bs.drop 3)
  | .utf16 bigEndian marked =>
    (units16 bigEndian (if marked then bs.drop 2 else bs)).bind decodeUtf16
  | .utf32 bigEndian marked => decodeUtf32 bigEndian (if marked then bs.drop 4 else bs)

example : decode (detectEncoding [0x7b, 0xc3, 0xa9, 0x7d]) [0x7b, 0xc3, 0xa9, 0x7d] =
    some [.char '{', .char 'é', .char '}'] := by decide

end Py
