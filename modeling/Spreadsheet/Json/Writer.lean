import Spreadsheet.Json.Basic
import Spreadsheet.Number.Shortest

/-!
# Writing JSON

A value is written on one line, with a blank after each comma and colon, and in the printable
characters of ASCII: every other character is escaped by its UTF-16 units, and a surrogate that
stands alone by itself.
-/

namespace Spreadsheet.Json

open Text

/-- The escape of a UTF-16 unit. -/
def unitEscape (n : Nat) : List Char := '\\' :: 'u' :: hexChars 4 n

/-- A character inside a string. -/
def escapeChar (c : Char) : List Char :=
  if c == '"' then ['\\', '"']
  else if c == '\\' then ['\\', '\\']
  else if c == '\n' then ['\\', 'n']
  else if c == '\r' then ['\\', 'r']
  else if c == '\t' then ['\\', 't']
  else if c == '\x08' then ['\\', 'b']
  else if c == '\x0c' then ['\\', 'f']
  else
    let n := c.toNat
    if 0x20 ≤ n && n < 0x7f then [c]
    else if n < 0x10000 then unitEscape n
    else unitEscape (0xd800 + (n - 0x10000) / 0x400) ++ unitEscape (0xdc00 + (n - 0x10000) % 0x400)

/-- A code point inside a string. -/
def escapeCode (n : Nat) : List Char := if isSurrogate n then unitEscape n else escapeChar (Char.ofNat n)

/-- A string between quotes. -/
def stringChars : JsonText → List Char
  | .whole text => '"' :: text.toList.flatMap escapeChar ++ ['"']
  | .broken codes => '"' :: codes.flatMap escapeCode ++ ['"']

/-- The text of a double. -/
def floatText (x : Float) : String := Number.shortest "NaN" "Infinity" x

mutual

/-- The text of a value. -/
def chars : Json → List Char
  | .null => ['n', 'u', 'l', 'l']
  | .bool true => ['t', 'r', 'u', 'e']
  | .bool false => ['f', 'a', 'l', 's', 'e']
  | .int n => (signedDecimal n).toList
  | .float x => (floatText x).toList
  | .string s => stringChars s
  | .array items => '[' :: itemsChars items ++ [']']
  | .object entries => '\x7b' :: entriesChars entries ++ ['\x7d']

/-- The texts of items with commas between. -/
def itemsChars : List Json → List Char
  | [] => []
  | [v] => chars v
  | v :: w :: rest => chars v ++ ',' :: ' ' :: itemsChars (w :: rest)

/-- The texts of entries with commas between. -/
def entriesChars : List (JsonText × Json) → List Char
  | [] => []
  | [(k, v)] => stringChars k ++ ':' :: ' ' :: chars v
  | (k, v) :: e :: rest => stringChars k ++ ':' :: ' ' :: chars v ++ ',' :: ' ' :: entriesChars (e :: rest)

end

/-- The text of a value. -/
def render (v : Json) : String := String.ofList v.chars

end Spreadsheet.Json
