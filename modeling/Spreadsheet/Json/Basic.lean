import Spreadsheet.Json.Text
import Spreadsheet.Pairs

/-!
# JSON values

Whole numbers and doubles are kept apart, as their texts tell them apart. An object keeps its
entries in the order in which the keys were first given; a later value of a key replaces an
earlier one in its place.
-/

namespace Spreadsheet

inductive Json where
  | null
  | bool (value : Bool)
  | int (value : Int)
  | float (value : Float)
  | string (value : JsonText)
  | array (items : List Json)
  | object (entries : List (JsonText × Json))
  deriving Inhabited

namespace Json

/-- The value of a key, or `null` without one. -/
def lookup (key : String) (entries : List (JsonText × Json)) : Json :=
  (Pairs.get? (key : JsonText) entries).getD .null

/-- The entries of an object. -/
def entries? : Json → Option (List (JsonText × Json))
  | .object entries => some entries
  | _ => none

/-- Whether a value counts as present: neither `null` nor `false` nor zero nor empty. -/
def isTruthy : Json → Bool
  | .null => false
  | .bool b => b
  | .int n => n != 0
  | .float x => !(x == 0)
  | .string s => !s.codes.isEmpty
  | .array items => !items.isEmpty
  | .object entries => !entries.isEmpty

end Json

end Spreadsheet
