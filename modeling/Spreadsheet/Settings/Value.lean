import Spreadsheet.Json.Basic
import Spreadsheet.Number.Double
import Spreadsheet.Text.Blank
import Spreadsheet.Text.Digit

/-!
# Values of settings

A setting is a whole number, a number or a text. Numbers may also be given as texts: a whole number
in its plain form, or padded with blanks, a plus, zeros in front, single underscores between its
digits and a fraction of zeros; a number as a decimal fraction with an exponent, or as a word for
infinity or for no number.
-/

namespace Spreadsheet

open Text

/-- Why a value is refused. -/
inductive SettingFault where
  /-- A text that is no whole number. -/
  | unreadableInteger
  /-- A text with too many digits, or a double beyond the whole numbers of 64 bits. -/
  | longInteger
  /-- A number that is not whole. -/
  | fractional
  /-- An infinity, or no number, where a whole number should be. -/
  | notFinite
  /-- A value of a type that whole numbers are not read from. -/
  | noInteger
  /-- A text that is no number. -/
  | unreadableNumber
  /-- A value of a type that numbers are not read from. -/
  | noNumber
  /-- A value that is no text. -/
  | noText
  | tooFewRows (given : Int)
  | columnsOutOfRange (given : Int)
  | negative (given : Int)
  | unknownSeverity (given : String)
  deriving DecidableEq, Repr

namespace SettingValue

/-! ## Blanks, signs and underscores -/

/-- A blank around a number; the four information separators do not count. -/
def isSpace (c : Char) : Bool := isBlank c && !(0x1c ≤ c.toNat && c.toNat ≤ 0x1f)

/-- A text without the blanks around it. -/
def trim (cs : List Char) : List Char :=
  ((cs.dropWhile isSpace).reverse.dropWhile isSpace).reverse

/-- Whether a number is negative, and the text after its sign. -/
def sign : List Char → Bool × List Char
  | '-' :: rest => (true, rest)
  | '+' :: rest => (false, rest)
  | cs => (false, cs)

/-- The text without underscores, of which none may stand at an end or beside another. -/
def withoutUnderscores? : List Char → Option (List Char)
  | [] => some []
  | ['_'] => none
  | '_' :: '_' :: _ => none
  | c :: rest => (withoutUnderscores? rest).map fun cs => if c == '_' then cs else c :: cs

/-- The text without single underscores between other characters; `none` if an underscore stands
anywhere else. -/
def ungrouped? : List Char → Option (List Char)
  | '_' :: _ => none
  | cs => withoutUnderscores? cs

/-! ## Texts of whole numbers -/

/-- A minus, if one is in front, and the text after it. -/
def minus : List Char → Bool × List Char
  | '-' :: rest => (true, rest)
  | cs => (false, cs)

/-- Whether a text starts with a number in its plain form that has too many digits. -/
def isOverlong (cs : List Char) : Bool :=
  let digits := (minus cs).2.takeWhile Char.isDigit
  digits.head? != some '0' && maxNumeralDigits < digits.length

/-- A whole number in its plain form: a minus or nothing, and digits of which the first is no zero
unless it is the only one. -/
def plainInteger? (cs : List Char) : Option Int :=
  let (negative, digits) := minus cs
  if digits.isEmpty || !digits.all Char.isDigit || isOverlong cs ||
      digits.head? == some '0' && digits.length != 1 then none
  else
    let n : Int := numeralValue digits
    some (if negative then -n else n)

/-- The text after the zeros and underscores in front of it. What follows them starts with another
digit, a minus or a point, and a point keeps the character before it; if nothing follows, the last
character is kept. -/
def afterZeros? : Char → List Char → Option (List Char)
  | last, [] => some [last]
  | last, c :: rest =>
    if c == '0' || c == '_' then afterZeros? c rest
    else if c.isDigit || c == '-' then some (c :: rest)
    else if c == '.' then some (last :: c :: rest)
    else none

/-- A text that starts with a digit, without needless zeros in front. -/
def withoutLeadingZeros? : List Char → Option (List Char)
  | [] => none
  | c :: rest =>
    if c == '0' then afterZeros? c rest
    else if c.isDigit then some (c :: rest)
    else none

/-- The text without a fraction of zeros. A point alone is no fraction. -/
def withoutZeroFraction (cs : List Char) : List Char :=
  match cs.dropWhile (· != '.') with
  | _ :: zero :: zeros =>
    if (zero :: zeros).all (· == '0') then cs.takeWhile (· != '.') else cs
  | _ => cs

/-- The plain form of a text that is padded: with blanks around it, a plus, zeros in front, a
fraction of zeros or underscores between digits. -/
def tidied? (cs : List Char) : Option (List Char) :=
  let cs := trim cs
  let (negative, unsigned) := match cs with
    | '+' :: rest => (false, rest)
    | _ => minus cs
  (withoutLeadingZeros? unsigned).bind fun digits =>
    (ungrouped? (withoutZeroFraction digits)).map fun digits =>
      if negative then '-' :: digits else digits

/-- The whole number that a text stands for. Only a number that is in its plain form from the start
can be too long; any other that is long is unreadable. -/
def integerOfText (text : String) : Except SettingFault Int :=
  let cs := text.toList
  if isOverlong cs then .error .longInteger
  else
    match (plainInteger? cs).or ((tidied? cs).bind plainInteger?) with
    | some n => .ok n
    | none => .error .unreadableInteger

/-! ## Texts of numbers -/

/-- The text in small letters. -/
def lower (cs : List Char) : List Char := cs.map Char.toLower

/-- An exponent, if there is one; `none` if it is malformed. -/
def exponent? : List Char → Option Int
  | [] => some 0
  | c :: rest =>
    let (negative, digits) := sign rest
    if (c == 'e' || c == 'E') && !digits.isEmpty && digits.all Char.isDigit then
      let n : Int := numeralValue digits
      some (if negative then -n else n)
    else none

/-- The decimal fraction that a text without a sign stands for. -/
def fraction? (negative : Bool) (cs : List Char) : Option Float :=
  let whole := cs.takeWhile Char.isDigit
  let rest := cs.dropWhile Char.isDigit
  let (places, rest) := match rest with
    | '.' :: after => (after.takeWhile Char.isDigit, after.dropWhile Char.isDigit)
    | _ => ([], rest)
  if whole.isEmpty && places.isEmpty then none
  else
    (exponent? rest).map fun e =>
      Number.ofDecimal negative (numeralValue (whole ++ places)) (e - places.length)

/-- The number that a text without blanks stands for. -/
def number? (cs : List Char) : Option Float :=
  let (negative, rest) := sign cs
  let word := String.ofList (lower rest)
  if word == "inf" || word == "infinity" then
    some (Number.ofSignBits negative Number.infinityBits)
  else if word == "nan" then some (Number.ofSignBits negative (Number.infinityBits + Nat.pow 2 51))
  else fraction? negative rest

/-- The number that a text stands for. Underscores are read only in a text without blanks. -/
def numberOfText (text : String) : Except SettingFault Float :=
  let cs := text.toList
  match (number? (trim cs)).or ((ungrouped? cs).bind number?) with
  | some x => .ok x
  | none => .error .unreadableNumber

/-! ## Values -/

/-- The whole number that a double is, which has to be smaller than `2 ^ 63` without its sign. -/
def integerOfFloat (x : Float) : Except SettingFault Int :=
  match Number.read x with
  | .finite negative units =>
    if units % Number.unitsPerOne ≠ 0 then .error .fractional
    else if units / Number.unitsPerOne < Nat.pow 2 63 then
      let n : Int := (units / Number.unitsPerOne : Nat)
      .ok (if negative then -n else n)
    else .error .longInteger
  | _ => .error .notFinite

/-- The whole number in a value. -/
def integer : Json → Except SettingFault Int
  | .int n => .ok n
  | .bool b => .ok (if b then 1 else 0)
  | .float x => integerOfFloat x
  | .string text => integerOfText text.text
  | _ => .error .noInteger

/-- The number in a value. -/
def number : Json → Except SettingFault Float
  | .float x => .ok x
  | .bool b => .ok (if b then 1 else 0)
  | .int n =>
    let bits := Number.nearestBits n.natAbs 1
    if bits < Number.infinityBits then .ok (Number.ofSignBits (n < 0) bits) else .error .noNumber
  | .string text => numberOfText text.text
  | _ => .error .noNumber

/-- The text in a value. -/
def text : Json → Except SettingFault String
  | .string text => .ok text.text
  | _ => .error .noText

end SettingValue

end Spreadsheet
