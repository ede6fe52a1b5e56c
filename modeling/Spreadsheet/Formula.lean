import Spreadsheet.Address

/-!
# Formula texts

A formula is an equals sign and a body. A body is cut into runs of word characters and runs of
other characters; a word that starts with capitals and digits holds a reference in front. So a
reference is never found inside a longer word, and replacing it leaves all other text alone.
-/

namespace Spreadsheet.Formula

open Text

/-- The characters of words: a reference starts only where no such character stands before. -/
def isWordChar (c : Char) : Bool := c.isAlphanum || c == '_'

/-- The characters that a body may hold: those of references, numbers, operators and brackets. -/
def isBodyChar (c : Char) : Bool :=
  c.isAlphanum || c == '+' || c == '-' || c == '*' || c == '/' || c == '(' || c == ')' ||
    c == '.' || c == ' '

/-- Whether a body holds a character that no formula may hold. -/
def hasForeignChar (body : String) : Bool := body.toList.any fun c => !isBodyChar c

/-- Whether a text is taken for a formula. -/
def isFormula (text : String) : Bool := text.toList.head? == some '='

/-- The body of a formula: the text without blanks around it and without the equals sign. -/
def bodyChars (cs : List Char) : List Char :=
  match stripChars cs with
  | '=' :: rest => stripChars rest
  | cs => cs

/-- The body of a formula: the text without blanks around it and without the equals sign. -/
def body (formula : String) : String := String.ofList (bodyChars formula.toList)

/-- A part of a body: a reference, as written, or other text. -/
inductive Piece where
  | reference (token : List Char)
  | other (text : List Char)
  deriving DecidableEq, Repr

/-- The pieces of a run of word characters or of a run of other characters: capitals and then
digits in front are a reference. -/
def piecesOfRun (run : List Char) : List Piece :=
  let capitals := run.takeWhile Char.isUpper
  let rest := run.dropWhile Char.isUpper
  let digits := rest.takeWhile Char.isDigit
  if capitals.isEmpty || digits.isEmpty then [.other run]
  else [.reference (capitals ++ digits), .other (rest.dropWhile Char.isDigit)]

/-- The pieces of a body, in order. -/
def pieces (cs : List Char) : List Piece :=
  (cs.splitBy fun a b => isWordChar a == isWordChar b).flatMap piecesOfRun

/-- What the reference of a piece refers to. -/
def Piece.reference? : Piece → Option Reference
  | .reference token => some (.ofText (String.ofList token))
  | .other _ => none

/-- The references of a body in order of their first occurrence. -/
def references (body : String) : List Reference :=
  ((pieces body.toList).filterMap Piece.reference?).eraseDups

/-- The text that replaces a piece. -/
def Piece.substitute (value : Reference → String) : Piece → List Char
  | .reference token => (value (.ofText (String.ofList token))).toList
  | .other text => text

/-- The body with each reference replaced by its value. -/
def substitute (value : Reference → String) (body : String) : String :=
  String.ofList ((pieces body.toList).flatMap (Piece.substitute value))

/-- The body with each reference replaced by the value found for it; the first reference without a
value is the error. -/
def substitute? (value : Reference → Option String) (body : String) : Except Reference String :=
  match (references body).find? fun r => (value r).isNone with
  | some r => .error r
  | none => .ok (substitute (fun r => (value r).getD "") body)

end Spreadsheet.Formula
