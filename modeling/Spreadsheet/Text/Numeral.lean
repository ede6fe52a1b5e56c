/-!
# Numbers in text

Decimal numerals without leading zeros, and lower-case hexadecimal numerals of a fixed width.
-/

namespace Spreadsheet.Text

/-- The decimal numeral of a natural number. -/
def decimalChars (n : Nat) : List Char := Nat.toDigits 10 n

/-- The decimal numeral of a natural number. -/
def decimal (n : Nat) : String := String.ofList (decimalChars n)

/-- The decimal numeral of an integer. -/
def signedDecimal : Int → String
  | .ofNat n => decimal n
  | .negSucc n => "-" ++ decimal (n + 1)

/-- The lower-case hexadecimal digit of a value below sixteen. -/
def hexDigit (n : Nat) : Char := Nat.digitChar n

/-- The last `width` hexadecimal digits of a number, with leading zeros. -/
def hexChars : Nat → Nat → List Char
  | 0, _ => []
  | width + 1, n => hexChars width (n / 16) ++ [hexDigit (n % 16)]

/-- The last `width` hexadecimal digits of a number, with leading zeros. -/
def hex (width n : Nat) : String := String.ofList (hexChars width n)

/-- The value of a hexadecimal digit in either case. -/
def hexValue? (c : Char) : Option Nat :=
  if '0' ≤ c ∧ c ≤ '9' then some (c.toNat - 48)
  else if 'a' ≤ c ∧ c ≤ 'f' then some (c.toNat - 87)
  else if 'A' ≤ c ∧ c ≤ 'F' then some (c.toNat - 55)
  else none

/-- The value of a hexadecimal numeral in either case; `none` if a character is no digit. -/
def hexNumeral? (cs : List Char) : Option Nat :=
  cs.foldl (fun acc c => acc.bind fun n => (hexValue? c).map (n * 16 + ·)) (some 0)

end Spreadsheet.Text
