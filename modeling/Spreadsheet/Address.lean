import Spreadsheet.Text.Blank
import Spreadsheet.Text.Digit
import Spreadsheet.Text.Letter
import Spreadsheet.Text.Numeral
import Spreadsheet.Text.Quoted

/-!
# Addresses

A cell is addressed by a column, one of the letters `A` to `Z`, and a row, counted from one in
text. Inside, both count from zero. Each address has one canonical name, such as `C12`; reading
also accepts a small letter, leading zeros, digits of any script and blanks around.
-/

namespace Spreadsheet

open Text

/-- A column and a row, both counted from zero. -/
structure Address where
  row : Nat
  column : Fin 26
  deriving DecidableEq, Repr

/-- Why a text or a pair of numbers is no address. -/
inductive AddressError where
  | malformed (text : String)
  | tooManyDigits (count : Nat)
  | rowOutOfRange (row : Int)
  | columnOutOfRange (index : Int)
  | notALetter (text : String)
  /-- The upper case of a column letter is not one character. -/
  | noCapital (length : Nat)
  deriving DecidableEq, Repr

def AddressError.message : AddressError → String
  | .malformed text => "Invalid cell address: " ++ quoted text
  | .tooManyDigits count =>
    "Exceeds the limit (4300 digits) for integer string conversion: value has " ++ decimal count ++
      " digits; use sys.set_int_max_str_digits() to increase the limit"
  | .rowOutOfRange row => "Row out of range: " ++ signedDecimal row
  | .columnOutOfRange index => "Column index out of range: " ++ signedDecimal index
  | .notALetter text => "Invalid column letter: " ++ quoted text
  | .noCapital length =>
    "ord() expected a character, but string of length " ++ decimal length ++ " found"

/-! ## Columns -/

/-- The letter of a column. -/
def columnLetter (column : Fin 26) : Char := Char.ofNat (65 + column.val)

/-- The column with a number counted from one. -/
def columnOfIndex (index : Int) : Except AddressError (Fin 26) :=
  if h : 1 ≤ index ∧ index ≤ 26 then .ok ⟨(index - 1).toNat, by omega⟩
  else .error (.columnOutOfRange index)

/-- The number of a letter: one for `A`, and so on by code point for any other letter. -/
def columnIndex (text : String) : Except AddressError Int :=
  match text.toList with
  | [c] =>
    if isLetter c then
      match capital c with
      | .single code => .ok (code - 64)
      | .expansion length => .error (.noCapital length)
    else .error (.notALetter text)
  | _ => .error (.notALetter text)

/-- The column of an ASCII letter in either case. -/
def columnOfLetter? (c : Char) : Option (Fin 26) :=
  if h : 65 ≤ c.toNat ∧ c.toNat ≤ 90 then some ⟨c.toNat - 65, by omega⟩
  else if h : 97 ≤ c.toNat ∧ c.toNat ≤ 122 then some ⟨c.toNat - 97, by omega⟩
  else none

namespace Address

/-! ## Canonical names -/

/-- The canonical name: the letter and the row counted from one. -/
def nameChars (a : Address) : List Char := columnLetter a.column :: decimalChars (a.row + 1)

/-- The canonical name: the letter and the row counted from one. -/
def name (a : Address) : String := String.ofList a.nameChars

/-- The address of a row and a column, both counted from one. -/
def ofRowColumn (row column : Int) : Except AddressError Address :=
  if row < 1 then .error (.rowOutOfRange row)
  else (columnOfIndex column).map fun c => ⟨(row - 1).toNat, c⟩

/-- The row counted from one. -/
def rowNumber (a : Address) : Nat := a.row + 1

/-- The column counted from one. -/
def columnNumber (a : Address) : Nat := a.column.val + 1

/-! ## Reading -/

/-- The digits of a row number without leading zeros; a lone zero stays. -/
def significantDigits (digits : List Char) : List Char :=
  match digits.dropWhile (· == '0') with
  | [] => digits.take 1
  | rest => rest

/-- The column letter and the digits of the row in a text that has the form of an address. -/
def split? (cs : List Char) : Option (Fin 26 × List Char) :=
  match cs.dropWhile isBlank with
  | [] => none
  | c :: rest =>
    match columnOfLetter? c with
    | none => none
    | some column =>
      let digits := rest.takeWhile isDigit
      if digits.isEmpty || !(rest.dropWhile isDigit).all isBlank then none
      else some (column, significantDigits digits)

/-- Reads an address. -/
def parse (text : String) : Except AddressError Address :=
  match split? text.toList with
  | none => .error (.malformed text)
  | some (column, digits) =>
    if digits.length > maxNumeralDigits then .error (.tooManyDigits digits.length)
    else
      match numeralValue digits with
      | 0 => .error (.malformed text)
      | row + 1 => .ok ⟨row, column⟩

/-! ## Blocks of addresses -/

/-- The first `columns` columns. -/
def firstColumns (columns : Nat) : List (Fin 26) :=
  (List.finRange 26).filter fun c => c.val < columns

/-- The addresses of the first `rows` rows and `columns` columns, row by row. -/
def block (rows columns : Nat) : List Address :=
  (List.range rows).flatMap fun r => (firstColumns columns).map fun c => ⟨r, c⟩

theorem mem_block {rows columns : Nat} {a : Address} :
    a ∈ block rows columns ↔ a.row < rows ∧ a.column.val < columns := by
  obtain ⟨r, c⟩ := a
  simp [block, firstColumns]

/-- The addresses of a block whose size is given by any two integers: none if one of them is not
positive, and an error if there is a row with too many columns. -/
def blockOfSize (rows columns : Int) : Except AddressError (List Address) :=
  if 1 ≤ rows ∧ 26 < columns then .error (.columnOutOfRange 27)
  else .ok (block rows.toNat columns.toNat)

end Address

/-! ## References -/

/-- What a formula refers to: a cell, or a name that is no address in any grid. -/
inductive Reference where
  | cell (address : Address)
  | unknown (text : String)
  deriving DecidableEq, Repr

namespace Reference

/-- Reads a reference; a text that is no address stands for itself. -/
def ofText (text : String) : Reference :=
  match Address.parse text with
  | .ok a => .cell a
  | .error _ => .unknown text

/-- The canonical name of a cell, and an unknown name as it is. -/
def name : Reference → String
  | .cell a => a.name
  | .unknown text => text

end Reference

end Spreadsheet
