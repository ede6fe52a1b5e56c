import Spreadsheet.Number.Double

/-!
# Results in hundredths

A result is shown with two decimal places, halves away from zero, without zeros at the end of the
fraction and without a negative zero. A formula that reads another formula reads the rounded
number.
-/

namespace Spreadsheet.Number

open Text

/-- A whole number of hundredths with a sign. -/
structure Hundredths where
  negative : Bool
  count : Nat
  deriving DecidableEq, Repr

namespace Hundredths

/-- The nearest hundredths of a number of units, halves away from zero. -/
def ofUnits (negative : Bool) (units : Nat) : Hundredths :=
  ⟨negative, roundDiv halfUp (100 * units) unitsPerOne⟩

/-- The digits of the fraction, without zeros at the end. -/
def fractionChars (cents : Nat) : List Char :=
  if cents = 0 then []
  else if cents % 10 = 0 then ['.', Nat.digitChar (cents / 10)]
  else ['.', Nat.digitChar (cents / 10), Nat.digitChar (cents % 10)]

/-- The decimal text. -/
def chars (h : Hundredths) : List Char :=
  let magnitude := decimalChars (h.count / 100) ++ fractionChars (h.count % 100)
  if h.negative && h.count != 0 then '-' :: magnitude else magnitude

/-- The nearest double; the sign of zero is kept. -/
def toFloat (h : Hundredths) : Float := nearest h.negative h.count 100

end Hundredths

/-- The text of a double in hundredths. -/
def displayChars (x : Float) : List Char :=
  match read x with
  | .finite negative units => (Hundredths.ofUnits negative units).chars
  | .nan => ['N', 'a', 'N']
  | .infinite negative => (if negative then ['-'] else []) ++ ['I', 'n', 'f', 'i', 'n', 'i', 't', 'y']

/-- The text of a double in hundredths. -/
def display (x : Float) : String := String.ofList (displayChars x)

/-- The double rounded to hundredths. -/
def round (x : Float) : Float :=
  match read x with
  | .finite negative units => (Hundredths.ofUnits negative units).toFloat
  | _ => x

/-- Whether a double is a number that has hundredths. -/
def isFinite (x : Float) : Bool :=
  match read x with
  | .finite _ _ => true
  | _ => false

/-- The text of a double in hundredths and the rounded double; an infinity has none. -/
def displayAndRound? (x : Float) : Option (String × Float) :=
  match read x with
  | .infinite _ => none
  | _ => some (display x, round x)

/-- The number as a token of arithmetic; a negative one stands in brackets. -/
def token (x : Float) : String :=
  match displayChars x with
  | '-' :: cs => String.ofList ('(' :: '-' :: cs ++ [')'])
  | cs => String.ofList cs

/-- The text with one decimal place, halves to the even tenth. -/
def tenths (units : Nat) : String :=
  let count := roundDiv halfEven (10 * units) unitsPerOne
  decimal (count / 10) ++ "." ++ decimal (count % 10)

end Spreadsheet.Number
