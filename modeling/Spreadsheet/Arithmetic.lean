import Spreadsheet.FormulaError
import Spreadsheet.Number.Hundredths

/-!
# Arithmetic

Expressions of numbers with `+ - * /`, signs, brackets and percent signs, over doubles. An
expression is split at its rightmost operator of lowest precedence outside brackets, so that
operators of one precedence associate to the left; the left operand is evaluated first.
-/

namespace Spreadsheet.Arithmetic

open Text Number

/-! ## Operators -/

inductive Operator where
  | add
  | sub
  | mul
  | div
  deriving DecidableEq, Repr

/-- The sign of addition or subtraction. -/
def additive? : Char → Option Operator
  | '+' => some .add
  | '-' => some .sub
  | _ => none

/-- The sign of multiplication or division. -/
def multiplicative? : Char → Option Operator
  | '*' => some .mul
  | '/' => some .div
  | _ => none

/-- The value of an operation. A quotient by zero has none. -/
def Operator.apply (op : Operator) (a b : Float) : Except EvaluationError Float :=
  match op with
  | .add => .ok (a + b)
  | .sub => .ok (a - b)
  | .mul => .ok (a * b)
  | .div => if b == 0 then .error .divisionByZero else .ok (a / b)

/-! ## Numbers -/

/-- The double nearest to an unsigned numeral with an optional point, at least one digit and no
exponent. -/
def number? (cs : List Char) : Option Float :=
  let whole := cs.takeWhile isDigit
  match cs.dropWhile isDigit with
  | [] => if whole.isEmpty then none else some (ofDecimal false (numeralValue whole) 0)
  | '.' :: fraction =>
    if fraction.all isDigit && !(whole.isEmpty && fraction.isEmpty) then
      some (ofDecimal false (numeralValue (whole ++ fraction)) (-(fraction.length : Int)))
    else none
  | _ => none

/-! ## Splitting -/

/-- Whether the last character before an operator, blanks apart, makes it a binary one. The text
before is given in reverse. -/
def endsOperand (before : List Char) : Bool :=
  match before.dropWhile (· == ' ') with
  | [] => false
  | c :: _ => !(c == '(' || (additive? c).isSome || (multiplicative? c).isSome)

/-- Whether a text holds nothing but blanks. -/
def isBlankText (cs : List Char) : Bool := cs.all isBlank

/-- Scans from the end for a binary operator outside brackets with text on both sides. `before` is
the text not yet scanned, in reverse. -/
def splitFrom (operator? : Char → Option Operator) :
    (depth : Int) → (before after : List Char) → Option (List Char × Operator × List Char)
  | _, [], _ => none
  | depth, c :: before, after =>
    if c == ')' then splitFrom operator? (depth + 1) before (c :: after)
    else if c == '(' then splitFrom operator? (depth - 1) before (c :: after)
    else
      match operator? c with
      | some op =>
        if depth == 0 && endsOperand before && !isBlankText before && !isBlankText after then
          some (stripChars before.reverse, op, stripChars after)
        else splitFrom operator? depth before (c :: after)
      | none => splitFrom operator? depth before (c :: after)

/-- The operands and the operator at which an expression is split. -/
def split? (cs : List Char) : Option (List Char × Operator × List Char) :=
  (splitFrom additive? 0 cs.reverse []).or (splitFrom multiplicative? 0 cs.reverse [])

/-- The text up to the bracket that closes `depth + 1` open ones, and the text after it. -/
def closeBracket? : (depth : Nat) → List Char → Option (List Char × List Char)
  | _, [] => none
  | 0, ')' :: rest => some ([], rest)
  | depth + 1, ')' :: rest => (closeBracket? depth rest).map fun p => (')' :: p.1, p.2)
  | depth, '(' :: rest => (closeBracket? (depth + 1) rest).map fun p => ('(' :: p.1, p.2)
  | depth, c :: rest => (closeBracket? depth rest).map fun p => (c :: p.1, p.2)

/-! ## Evaluation -/

/-- How deep an expression may be nested: operands, brackets, signs and percent signs each count
one level. Each of them takes a level of the stack, of which the calls that lead here leave a few
more or less; the limit is taken to be the same on every way. -/
def maxNesting : Nat := 970

/-- What an expression without a binary operator outside brackets is made of. -/
inductive Form where
  | percent (operand : List Char)
  | bracket (inner : List Char)
  | negative (operand : List Char)
  | positive (operand : List Char)
  | number (value : Float)

/-- The form of an expression without a binary operator outside brackets. -/
def form (cs : List Char) : Except EvaluationError Form :=
  if cs.getLast? == some '%' then .ok (.percent cs.dropLast)
  else
    match cs with
    | '(' :: rest =>
      match closeBracket? 0 rest with
      | some (inner, []) => .ok (.bracket inner)
      | _ => .error .unbalanced
    | '-' :: rest => .ok (.negative rest)
    | '+' :: rest => .ok (.positive rest)
    | _ =>
      match number? cs with
      | some x => .ok (.number x)
      | none => .error (.unreadable (String.ofList cs))

/-- The value of an expression that is nested at most as deep as given. -/
def valueChars : (nesting : Nat) → List Char → Except EvaluationError Float
  | 0, _ => .error .nestedTooDeeply
  | nesting + 1, text =>
    let cs := stripChars text
    if cs.isEmpty then .error .incomplete
    else
      match split? cs with
      | some (left, op, right) =>
        match valueChars nesting left with
        | .error e => .error e
        | .ok a =>
          match valueChars nesting right with
          | .error e => .error e
          | .ok b => op.apply a b
      | none =>
        match form cs with
        | .error e => .error e
        | .ok (.percent operand) => (valueChars nesting operand).map (· / 100)
        | .ok (.bracket inner) => valueChars nesting inner
        | .ok (.negative operand) => (valueChars nesting operand).map (- ·)
        | .ok (.positive operand) => valueChars nesting operand
        | .ok (.number x) => .ok x

/-- The value of an expression, which has to be finite. -/
def evaluate (expression : String) : Except EvaluationError Float :=
  match valueChars maxNesting expression.toList with
  | .error e => .error e
  | .ok x => if isFinite x then .ok x else .error .notFinite

end Spreadsheet.Arithmetic
