import Spreadsheet.Text.Numeral

/-!
# Doubles as exact numbers

Every finite double is a whole number of units of `2 ^ -1074`, with a sign. Reading a double as
such a number makes comparison with fractions exact, and rounding a fraction to the nearest double
is one rounded division, ties to even.
-/

namespace Spreadsheet.Number

/-- The quotient rounded to the nearest natural number. `tieUp k` says whether a value halfway
between `k` and `k + 1` becomes `k + 1`. -/
def roundDiv (tieUp : Nat → Bool) (num den : Nat) : Nat :=
  let k := num / den
  let r := num % den
  if 2 * r < den then k
  else if den < 2 * r then k + 1
  else if tieUp k then k + 1
  else k

/-- Halves go away from zero. -/
def halfUp (_ : Nat) : Bool := true

/-- Halves go to the even neighbour. -/
def halfEven (k : Nat) : Bool := k % 2 == 1

/-- How many units make one. -/
def unitsPerOne : Nat := Nat.pow 2 1074

/-- What the bits of a double say. -/
inductive Reading where
  | nan
  | infinite (negative : Bool)
  | finite (negative : Bool) (units : Nat)
  deriving DecidableEq, Repr

/-- The bits of the positive infinity. Smaller patterns are the finite magnitudes in ascending
order. -/
def infinityBits : Nat := 2047 * Nat.pow 2 52

/-- The units of the finite magnitude with the given bits. -/
def unitsOfBits (bits : Nat) : Nat :=
  let step := Nat.pow 2 52
  if bits < step then bits else (step + bits % step) * Nat.pow 2 (bits / step - 1)

/-- Reads a double. -/
def read (x : Float) : Reading :=
  let bits := x.toBits.toNat
  let negative := Nat.pow 2 63 ≤ bits
  let magnitude := bits % Nat.pow 2 63
  if magnitude < infinityBits then .finite negative (unitsOfBits magnitude)
  else if magnitude = infinityBits then .infinite negative
  else .nan

/-- The bits of the double nearest to the fraction `num / den`, ties to even; infinity if the
rounded value is too large. -/
def nearestBits (num den : Nat) : Nat :=
  let scaled := num * unitsPerOne
  let shift := (scaled / den).log2 - 52
  min infinityBits (shift * Nat.pow 2 52 + roundDiv halfEven scaled (den * Nat.pow 2 shift))

/-- The double with a sign and the bits of a magnitude. -/
def ofSignBits (negative : Bool) (bits : Nat) : Float :=
  Float.ofBits (UInt64.ofNat (if negative then Nat.pow 2 63 + bits else bits))

/-- The double nearest to a fraction with a sign. -/
def nearest (negative : Bool) (num den : Nat) : Float := ofSignBits negative (nearestBits num den)

/-- The double nearest to a decimal fraction `digits * 10 ^ exponent`. A value far outside the
range of the doubles is settled by its size, without computing the power. -/
def ofDecimal (negative : Bool) (digits : Nat) (exponent : Int) : Float :=
  let size : Int := (Text.decimalChars digits).length
  if digits = 0 || size + exponent < -330 then ofSignBits negative 0
  else if 320 < size + exponent then ofSignBits negative infinityBits
  else if 0 ≤ exponent then nearest negative (digits * Nat.pow 10 exponent.toNat) 1
  else nearest negative digits (Nat.pow 10 (-exponent).toNat)

end Spreadsheet.Number
