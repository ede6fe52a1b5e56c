import Spreadsheet.Number.Double

/-!
# The shortest decimal text of a double

A double is written with the fewest digits that read back as the same double, and of those with
the digits nearest to it. The digits stand positionally for exponents from `-4` to `15`, with at
least one digit after the point, and otherwise in scientific notation with an exponent of at least
two digits.
-/

namespace Spreadsheet.Number

open Text

/-- The exponent of the first digit: the largest `e` with `10 ^ e ≤ num / den`. -/
def leadingExponent (num den : Nat) : Int :=
  if den ≤ num then ((decimalChars (num / den)).length : Int) - 1
  else
    let k := (decimalChars (den / num)).length
    if den ≤ num * Nat.pow 10 (k - 1) then 1 - (k : Int) else -(k : Int)

/-- The numbers of `places` digits next to the magnitude with the given bits, nearest first, of
which the first that reads back as those bits is the answer. -/
def digitsOfLength? (bits places : Nat) : Option (Nat × Int) :=
  let units := unitsOfBits bits
  let exponent := leadingExponent units unitsPerOne - (places - 1 : Nat)
  let num := units * Nat.pow 10 (-exponent).toNat
  let den := unitsPerOne * Nat.pow 10 exponent.toNat
  let near := roundDiv halfEven num den
  let far := if near * den ≤ num then near + 1 else near - 1
  [near, far].find? (fun digits =>
    nearestBits (digits * Nat.pow 10 exponent.toNat) (Nat.pow 10 (-exponent).toNat) == bits) |>.map
    fun digits => (digits, exponent)

/-- The shortest digits of a positive magnitude and the exponent of the last one. -/
def shortestDigits (bits : Nat) : Nat × Int :=
  ((List.range 17).findSome? fun k => digitsOfLength? bits (k + 1)).getD (0, 0)

/-- A positional or scientific text of digits, the first of which has the given exponent. -/
def layoutDigits (digits : List Char) (exponent : Int) : List Char :=
  if -4 ≤ exponent ∧ exponent < 16 then
    if exponent < 0 then '0' :: '.' :: List.replicate (-exponent - 1).toNat '0' ++ digits
    else
      let whole := exponent.toNat + 1
      let fraction := digits.drop whole
      digits.take whole ++ List.replicate (whole - digits.length) '0' ++ '.' ::
        (if fraction.isEmpty then ['0'] else fraction)
  else
    let power := decimalChars exponent.natAbs
    let mantissa := match digits with
      | d :: e :: rest => d :: '.' :: e :: rest
      | _ => digits
    mantissa ++ 'e' :: (if exponent < 0 then '-' else '+') ::
      (if power.length < 2 then '0' :: power else power)

/-- The digits without the zeros at their end. -/
def trimZeros (digits : List Char) : List Char := (digits.reverse.dropWhile (· == '0')).reverse

/-- The text of digits, given as a number and the exponent of the last one. -/
def layoutNumber : Nat × Int → List Char
  | (digits, last) =>
    let chars := decimalChars digits
    layoutDigits (trimZeros chars) (last + (chars.length : Int) - 1)

/-- The shortest text of a positive magnitude. -/
def shortestChars (bits : Nat) : List Char := layoutNumber (shortestDigits bits)

/-- The shortest text of a double, with given words for the values that are no numbers. -/
def shortest (nan infinity : String) (x : Float) : String :=
  let bits := x.toBits.toNat % Nat.pow 2 63
  let sign := if Nat.pow 2 63 ≤ x.toBits.toNat then "-" else ""
  if infinityBits < bits then nan
  else if bits = infinityBits then sign ++ infinity
  else if bits = 0 then sign ++ "0.0"
  else sign ++ String.ofList (shortestChars bits)

end Spreadsheet.Number
