import Spreadsheet.Address
import Spreadsheet.Json.Token

/-!
# Reading JSON

The tokens drive a machine whose stack holds the arrays and objects that are still open. It stops
at the first token that cannot stand where it is, and at a bracket inside too many others.
-/

namespace Spreadsheet

open Text

/-- What a bracket opens. -/
inductive Bracket where
  | array
  | object
  deriving DecidableEq, Repr

def Bracket.word : Bracket → String
  | .array => "array"
  | .object => "object"

/-- Why no JSON value is read from a text. -/
inductive JsonError where
  | malformed
  | longInteger (digits : Nat)
  /-- An array or object stands inside too many others. -/
  | tooDeep (innermost : Bracket)
  deriving DecidableEq, Repr

def JsonError.message : JsonError → String
  | .malformed => "Malformed JSON"
  | .longInteger digits => (AddressError.tooManyDigits digits).message
  | .tooDeep innermost => "maximum recursion depth exceeded while decoding a JSON " ++
      innermost.word ++ " from a unicode string"

namespace Json

/-- So many arrays and objects may stand inside each other. Reading takes a level of the stack for
each of them, and this is what the stack leaves to a session that is loaded from the outermost level
of a program. The limit is taken to be the same for every caller; callers further in leave less. -/
def maxDepth : Nat := 993

/-- An array or an object whose last value is still to come. -/
inductive Frame where
  /-- The items before, in reverse. -/
  | array (items : List Json)
  | object (entries : List (JsonText × Json)) (key : JsonText)

/-- What the machine waits for, and below it the open arrays and objects. -/
inductive Place where
  | value (stack : List Frame)
  /-- The first item of an array, or its end. -/
  | firstItem (stack : List Frame)
  /-- A comma after an item, or the end of the array. -/
  | afterItem (items : List Json) (stack : List Frame)
  /-- The first key of an object, or its end. -/
  | firstKey (stack : List Frame)
  | key (entries : List (JsonText × Json)) (stack : List Frame)
  | colon (entries : List (JsonText × Json)) (key : JsonText) (stack : List Frame)
  /-- A comma after an entry, or the end of the object. -/
  | afterEntry (entries : List (JsonText × Json)) (stack : List Frame)
  | done (result : Json)

/-- The place after a value is complete. -/
def deliver (v : Json) : List Frame → Place
  | [] => .done v
  | .array items :: stack => .afterItem (v :: items) stack
  | .object entries key :: stack => .afterEntry (Pairs.set key v entries) stack

/-- The place after a bracket is opened. -/
def openBracket (stack : List Frame) (bracket : Bracket) : Except JsonError Place :=
  if stack.length < maxDepth then
    match bracket with
    | .array => .ok (.firstItem stack)
    | .object => .ok (.firstKey stack)
  else .error (.tooDeep bracket)

/-- A token that starts a value. -/
def beginValue (stack : List Frame) : Token → Except JsonError Place
  | .openArray => openBracket stack .array
  | .openObject => openBracket stack .object
  | .string s => .ok (deliver (.string s) stack)
  | .scalar v => .ok (deliver v stack)
  | .longInteger digits => .error (.longInteger digits)
  | _ => .error .malformed

/-- One token. -/
def step : Place → Token → Except JsonError Place
  | .value stack, t => beginValue stack t
  | .firstItem stack, .closeArray => .ok (deliver (.array []) stack)
  | .firstItem stack, t => beginValue (.array [] :: stack) t
  | .afterItem items stack, .comma => .ok (.value (.array items :: stack))
  | .afterItem items stack, .closeArray => .ok (deliver (.array items.reverse) stack)
  | .firstKey stack, .closeObject => .ok (deliver (.object []) stack)
  | .firstKey stack, .string key => .ok (.colon [] key stack)
  | .key entries stack, .string key => .ok (.colon entries key stack)
  | .colon entries key stack, .colon => .ok (.value (.object entries key :: stack))
  | .afterEntry entries stack, .comma => .ok (.key entries stack)
  | .afterEntry entries stack, .closeObject => .ok (deliver (.object entries) stack)
  | _, _ => .error .malformed

/-- The value that tokens make from a place on. -/
def run : Place → List Token → Except JsonError Json
  | .done v, [] => .ok v
  | _, [] => .error .malformed
  | place, t :: rest =>
    match step place t with
    | .ok next => run next rest
    | .error e => .error e

/-- Reads a text of code points that holds one value. -/
def parseCodes (codes : List Nat) : Except JsonError Json :=
  run (.value []) (tokens (codes.flatMap marked))

/-- Reads a text that holds one value. -/
def parseChars (cs : List Char) : Except JsonError Json := parseCodes (cs.map Char.toNat)

/-- Reads a text that holds one value. -/
def parse (text : String) : Except JsonError Json := parseChars text.toList

end Json

end Spreadsheet
