/-!
# Paths

A path is cut into parts at its slashes. A part is the name of an entry, or a step up to the
directory above.
-/

namespace Spreadsheet

/-- A path by its parts. An empty part in front stands for the root. -/
structure Path where
  parts : List String
  deriving DecidableEq, Repr

/-- A place by the names that lead to it from where a path starts, the last one first. Steps up from
there are kept. -/
abbrev Place := List String

namespace Place

/-- The place that a part leads to from a place. There is nothing above the root. -/
def enter : Place → String → Place
  | [], part => [part]
  | name :: above, part =>
    if part != ".." || name == ".." then part :: name :: above
    else if name == "" then name :: above
    else above

/-- Whether a place has a name and lies below where the path starts. -/
def isBelow (place : Place) : Bool := place.getLast?.any fun top => top != ".." && top != ""

/-- Whether a place is where the path starts or above. -/
def isAbove (place : Place) : Bool := place.all fun name => name == ".." || name == ""

/-- The names from where the path starts, with slashes between them. -/
def spelled (place : Place) : String := "/".intercalate place.reverse

end Place

namespace Path

/-- The texts between the slashes of a text. -/
def pieces : List Char → List (List Char)
  | [] => [[]]
  | c :: rest =>
    if c == '/' then [] :: pieces rest
    else
      match pieces rest with
      | [] => [[c]]
      | piece :: more => (c :: piece) :: more

/-- The path that a text gives. Empty pieces and single dots lead nowhere. -/
def ofText (text : String) : Path :=
  let leads (piece : List Char) : Bool := !piece.isEmpty && piece != ['.']
  let kept := match pieces text.toList with
    | [] :: rest@(_ :: _) => [] :: rest.filter leads
    | all => all.filter leads
  ⟨kept.map String.ofList⟩

/-- The text of a path. -/
def text (p : Path) : String := "/".intercalate p.parts

/-- Whether a path ends in a step up. -/
def endsUp (p : Path) : Bool := p.parts.getLast? == some ".."

/-- Where a path leads. -/
def place (p : Path) : Place := p.parts.foldl Place.enter []

/-- The places that parts lead to one after another. -/
def placesAlong (place : Place) : List String → List Place
  | [] => []
  | part :: rest => place.enter part :: placesAlong (place.enter part) rest

/-- The directories that a path leads through before its last part. -/
def way (p : Path) : List Place := placesAlong [] p.parts.dropLast

end Path

end Spreadsheet
