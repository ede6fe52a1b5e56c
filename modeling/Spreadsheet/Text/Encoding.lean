import Spreadsheet.Text.Surrogate

/-!
# Encodings of text

Bytes are read as the code points of UTF-8, UTF-16 or UTF-32. Files hold strict UTF-8, which is a
text of characters. The body of a reply announces its encoding by a byte order mark or by the place
of its zero bytes, and may hold encoded surrogates.
-/

namespace Spreadsheet.Text

/-- A code point that a text may hold: in a strict text no surrogate. -/
def allowed? (strict : Bool) (n : Nat) : Option Nat :=
  if 0x110000 ≤ n || strict && isSurrogate n then none else some n

/-- The low six bits of a byte that continues a character. -/
def continuation? (b : UInt8) : Option Nat :=
  if 0x80 ≤ b.toNat ∧ b.toNat < 0xc0 then some (b.toNat - 0x80) else none

/-- The code point of a character of two bytes. -/
def code2? (a b : UInt8) : Option Nat :=
  match continuation? b with
  | some y => some ((a.toNat - 0xc0) * 0x40 + y)
  | none => none

/-- The code point of a character of three bytes, which none of two could hold. -/
def code3? (a b c : UInt8) : Option Nat :=
  match continuation? b, continuation? c with
  | some y, some z =>
    let n := (a.toNat - 0xe0) * 0x1000 + y * 0x40 + z
    if 0x800 ≤ n then some n else none
  | _, _ => none

/-- The code point of a character of four bytes, which none of three could hold. -/
def code4? (a b c d : UInt8) : Option Nat :=
  match continuation? b, continuation? c, continuation? d with
  | some y, some z, some w =>
    let n := (a.toNat - 0xf0) * 0x40000 + y * 0x1000 + z * 0x40 + w
    if 0x10000 ≤ n then some n else none
  | _, _, _ => none

/-- The code points of UTF-8 bytes. -/
def decodeUtf8 (strict : Bool) : List UInt8 → Option (List Nat)
  | [] => some []
  | a :: rest =>
    if a.toNat < 0x80 then (decodeUtf8 strict rest).map (a.toNat :: ·)
    else if a.toNat < 0xc2 then none
    else
      match rest with
      | [] => none
      | b :: rest =>
        if a.toNat < 0xe0 then
          match (code2? a b).bind (allowed? strict) with
          | some n => (decodeUtf8 strict rest).map (n :: ·)
          | none => none
        else
          match rest with
          | [] => none
          | c :: rest =>
            if a.toNat < 0xf0 then
              match (code3? a b c).bind (allowed? strict) with
              | some n => (decodeUtf8 strict rest).map (n :: ·)
              | none => none
            else
              match rest with
              | [] => none
              | d :: rest =>
                if a.toNat < 0xf5 then
                  match (code4? a b c d).bind (allowed? strict) with
                  | some n => (decodeUtf8 strict rest).map (n :: ·)
                  | none => none
                else none

/-- The text of the bytes of a file. -/
def decodeFile (bytes : List UInt8) : Option (List Char) :=
  (decodeUtf8 true bytes).map fun codes => codes.map Char.ofNat

/-- Pairs of bytes as numbers; `none` if one byte is left over. -/
def units16? (bigEndian : Bool) : List UInt8 → Option (List Nat)
  | [] => some []
  | [_] => none
  | a :: b :: rest =>
    let n := if bigEndian then a.toNat * 0x100 + b.toNat else b.toNat * 0x100 + a.toNat
    (units16? bigEndian rest).map (n :: ·)

/-- The code points of UTF-16 units. -/
def decodeUnits16 : List Nat → List Nat
  | [] => []
  | [n] => [n]
  | m :: n :: rest =>
    if isHighSurrogate m && isLowSurrogate n then pairCode m n :: decodeUnits16 rest
    else m :: decodeUnits16 (n :: rest)

/-- The code points of UTF-16 bytes. -/
def decodeUtf16 (bigEndian : Bool) (bytes : List UInt8) : Option (List Nat) :=
  (units16? bigEndian bytes).map decodeUnits16

/-- The code points of UTF-32 bytes. -/
def decodeUtf32 (bigEndian : Bool) : List UInt8 → Option (List Nat)
  | [] => some []
  | a :: b :: c :: d :: rest =>
    let n := if bigEndian then
        a.toNat * 0x1000000 + b.toNat * 0x10000 + c.toNat * 0x100 + d.toNat
      else d.toNat * 0x1000000 + c.toNat * 0x10000 + b.toNat * 0x100 + a.toNat
    match allowed? false n with
    | some n => (decodeUtf32 bigEndian rest).map (n :: ·)
    | none => none
  | _ => none

/-- The code points of bytes whose encoding shows in their first four. -/
def decodeDetected (bytes : List UInt8) : Option (List Nat) :=
  match bytes with
  | 0x00 :: 0x00 :: 0xfe :: 0xff :: rest => decodeUtf32 true rest
  | 0xff :: 0xfe :: 0x00 :: 0x00 :: rest => decodeUtf32 false rest
  | 0xfe :: 0xff :: rest => decodeUtf16 true rest
  | 0xff :: 0xfe :: rest => decodeUtf16 false rest
  | 0xef :: 0xbb :: 0xbf :: rest => decodeUtf8 false rest
  | a :: b :: c :: d :: _ =>
    if a == 0 then if b == 0 then decodeUtf32 true bytes else decodeUtf16 true bytes
    else if b == 0 then
      if c == 0 && d == 0 then decodeUtf32 false bytes else decodeUtf16 false bytes
    else decodeUtf8 false bytes
  | [a, b] =>
    if a == 0 then decodeUtf16 true bytes
    else if b == 0 then decodeUtf16 false bytes
    else decodeUtf8 false bytes
  | _ => decodeUtf8 false bytes

end Spreadsheet.Text
