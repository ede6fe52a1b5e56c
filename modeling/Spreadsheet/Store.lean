import Spreadsheet.Json.Reader
import Spreadsheet.Json.Writer
import Spreadsheet.Path
import Spreadsheet.Snapshot
import Spreadsheet.Text.Encoding

/-!
# The snapshot file

A store keeps one snapshot in a file. Saving replaces the file as a whole and makes the directories
on the way to it. Loading gives the entries of the object in the file; a file that cannot be opened
or holds anything else counts as none, but bytes that are no text, whole numbers that are too long
and brackets that are too deep are faults.
-/

namespace Spreadsheet

/-- What is found where the file should be. -/
inductive FileState where
  | missing
  | file (bytes : List UInt8)
  /-- A directory stands in its place. -/
  | directory
  /-- The way to it leads through another file. -/
  | blocked
  deriving DecidableEq, Repr

/-- A snapshot file: its path, whether the directories on the way exist, and what is found there. -/
structure Store where
  path : Path
  reachable : Bool := false
  state : FileState := .missing
  deriving DecidableEq, Repr

/-- Why a file could not be read. -/
inductive LoadError where
  /-- The bytes are no text. -/
  | undecodable
  | longInteger (digits : Nat)
  | tooDeep (innermost : Bracket)
  deriving DecidableEq, Repr

/-- Why a file could not be written or removed, or a directory not made. -/
inductive WriteError where
  /-- A directory stands in the place of the file. -/
  | directory
  | blocked
  /-- There is something in the place of the directory. -/
  | occupied
  /-- The path ends in a step up, and what it leads to cannot be replaced. -/
  | stepUp
  deriving DecidableEq, Repr

namespace Store

/-! ## The way to the file -/

/-- Whether a path leads to a directory as soon as the directories on its way exist. -/
def leadsBack (path : Path) : Bool := path.place.isAbove || path.way.contains path.place

/-- The store with the directories on the way made, of which the path may lead back to one. -/
def reach (s : Store) : Store :=
  match s.state with
  | .missing =>
    { s with reachable := true, state := if leadsBack s.path then .directory else .missing }
  | .file _ | .directory => { s with reachable := true }
  | .blocked => s

/-- The store at a path, before anything is made. -/
def ofPath (path : String) : Store :=
  let s : Store := { path := Path.ofText path }
  if s.path.way.isEmpty then s.reach else s

/-! ## Reading -/

/-- A text with a line feed at the end of each line, also where a carriage return was. -/
def withLineFeeds : List Char → List Char
  | '\r' :: '\n' :: rest => '\n' :: withLineFeeds rest
  | '\r' :: rest => '\n' :: withLineFeeds rest
  | c :: rest => c :: withLineFeeds rest
  | [] => []

/-- The text in the file, if there is a file. -/
def text? (s : Store) : Except LoadError (Option String) :=
  match s.state with
  | .file bytes =>
    match Text.decodeFile bytes with
    | some cs => .ok (some (String.ofList (withLineFeeds cs)))
    | none => .error .undecodable
  | _ => .ok none

/-- The entries of the object that a text holds; `none` if it holds no object. -/
def entriesOfText (cs : List Char) : Except LoadError (Option (List (JsonText × Json))) :=
  match Json.parseChars cs with
  | .ok value => .ok value.entries?
  | .error .malformed => .ok none
  | .error (.longInteger digits) => .error (.longInteger digits)
  | .error (.tooDeep innermost) => .error (.tooDeep innermost)

/-- The entries of the stored snapshot, if there is one. -/
def load (s : Store) : Except LoadError (Option (List (JsonText × Json))) :=
  match s.state with
  | .file bytes =>
    match Text.decodeFile bytes with
    | some cs => entriesOfText cs
    | none => .error .undecodable
  | _ => .ok none

/-! ## Writing -/

/-- The store with given bytes in the file. -/
def holding (s : Store) (bytes : List UInt8) : Store :=
  { s with reachable := true, state := .file bytes }

/-- Writes bytes to the file. A write that fails has made the directories on the way. -/
def write (s : Store) (bytes : List UInt8) : Except WriteError Store :=
  match s.reach.state with
  | .directory => .error .directory
  | .blocked => .error .blocked
  | _ => .ok (s.holding bytes)

/-- Makes a directory in place of the file. -/
def makeDirectory (s : Store) : Except WriteError Store :=
  match s.reach.state with
  | .missing => .ok { s with reachable := true, state := .directory }
  | .blocked => .error .blocked
  | _ => .error .occupied

/-- Replaces the file by a snapshot in its stored form. A save that fails has made the directories
on the way. -/
def save (s : Store) (snapshot : Json) : Except WriteError Store :=
  match s.reach.state with
  | .directory => .error (if s.path.endsUp then .stepUp else .directory)
  | .blocked => .error .blocked
  | _ => .ok (s.holding snapshot.render.toUTF8.toList)

/-- Removes the file, if there is one. -/
def clear (s : Store) : Except WriteError Store :=
  match s.state with
  | .directory => .error .directory
  | .blocked => .error .blocked
  | _ => .ok { s with state := .missing }

/-! ## Listing -/

/-- The places of the directories that exist and of what is found in place of the file. -/
def places (s : Store) : List Place :=
  let way := if s.reachable then s.path.way else []
  match s.state with
  | .file _ | .directory => way ++ [s.path.place]
  | _ => way

/-- The paths of what is found below where the path of the store starts, each once, in order. -/
def listing (s : Store) : List String :=
  ((s.places.filter Place.isBelow).map Place.spelled).eraseDups.mergeSort fun a b => a ≤ b

end Store

end Spreadsheet
