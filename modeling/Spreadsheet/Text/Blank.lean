/-!
# Blank characters

The white space of Unicode together with the four information separators. Texts are stripped of
blanks at both ends before they are read.
-/

namespace Spreadsheet.Text

/-- Whether a character is blank. The zero-width space is not. -/
def isBlank (c : Char) : Bool :=
  let n := c.toNat
  (0x09 ≤ n && n ≤ 0x0d) || (0x1c ≤ n && n ≤ 0x20) || n == 0x85 || n == 0xa0 || n == 0x1680 ||
    (0x2000 ≤ n && n ≤ 0x200a) || n == 0x2028 || n == 0x2029 || n == 0x202f || n == 0x205f ||
    n == 0x3000

/-- The text without the blanks at its end. -/
def stripRight (cs : List Char) : List Char :=
  cs.foldr (fun c rest => if rest.isEmpty && isBlank c then [] else c :: rest) []

/-- The text without the blanks at either end. -/
def stripChars (cs : List Char) : List Char := stripRight (cs.dropWhile isBlank)

/-- The text without the blanks at either end. -/
def strip (s : String) : String := String.ofList (stripChars s.toList)

end Spreadsheet.Text
