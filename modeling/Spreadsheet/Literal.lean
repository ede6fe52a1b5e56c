import Spreadsheet.Text.Blank
import Spreadsheet.Text.Digit

/-!
# Literals

A literal is a numeral with an optional dollar sign before it, an optional fraction and an optional
percent sign after it. A partial literal is what may stand in a cell while a literal is being
typed. Both forms allow one line feed at the end. The token of a cell's text is the numeral that a
formula reads from it.
-/

namespace Spreadsheet.Literal

open Text

/-- Nothing follows but at most one line feed. -/
def atEnd : List Char → Bool
  | [] => true
  | [c] => c == '\n'
  | _ => false

/-- The text without a character that may stand in front. -/
def dropOptional (c : Char) : List Char → List Char
  | [] => []
  | d :: rest => if d == c then rest else d :: rest

/-- A partial literal: every part may still be missing. -/
def isPartialChars (cs : List Char) : Bool :=
  let rest := (dropOptional '$' cs).dropWhile isDigit
  let rest := match rest with
    | '.' :: fraction => fraction.dropWhile isDigit
    | _ => rest
  atEnd (dropOptional '%' rest)

/-- An unsigned numeral with an optional fraction and an optional percent sign. -/
def isNumeralChars (cs : List Char) : Bool :=
  let rest := cs.dropWhile isDigit
  (cs.takeWhile isDigit != []) &&
    match rest with
    | '.' :: fraction =>
      (fraction.takeWhile isDigit != []) && atEnd (dropOptional '%' (fraction.dropWhile isDigit))
    | _ => atEnd (dropOptional '%' rest)

/-- A complete literal. -/
def isCompleteChars (cs : List Char) : Bool := isNumeralChars (dropOptional '$' cs)

/-- Whether a text may be on the way to a literal. -/
def isPartial (text : String) : Bool := isPartialChars text.toList

/-- Whether a text is a literal. -/
def isComplete (text : String) : Bool := isCompleteChars text.toList

/-- Dollar signs, commas and blanks do not count in a number. -/
def isSeparator (c : Char) : Bool := c == '$' || c == ',' || isBlank c

/-- The number that a formula reads from a cell's text, as a token of arithmetic: zero for an empty
cell, and `none` if the text is no number. -/
def tokenChars? (cs : List Char) : Option (List Char) :=
  let kept := cs.filter fun c => !isSeparator c
  if kept.isEmpty then some ['0']
  else if isNumeralChars kept then some kept
  else none

/-- The number that a formula reads from a cell's text, as a token of arithmetic. -/
def token? (text : String) : Option String := (tokenChars? text.toList).map String.ofList

end Spreadsheet.Literal
