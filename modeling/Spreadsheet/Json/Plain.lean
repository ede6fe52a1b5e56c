import Spreadsheet.Json.Basic
import Spreadsheet.Number.Shortest

/-!
# Plain text of JSON values

A cell's value is a text. Where a snapshot or a reply holds another value, it is shown as plain
text: a string as it is, and inside an array or an object between quotes. A value is not shown if too
many values stand inside each other in it.
-/

namespace Spreadsheet.Json

open Text

mutual

/-- The text of a value, strings between quotes. -/
def inspectChars : Json → List Char
  | .null => ['N', 'o', 'n', 'e']
  | .bool true => ['T', 'r', 'u', 'e']
  | .bool false => ['F', 'a', 'l', 's', 'e']
  | .int n => (signedDecimal n).toList
  | .float x => (Number.shortest "nan" "inf" x).toList
  | .string s => s.quotedChars
  | .array items => '[' :: inspectItems items ++ [']']
  | .object entries => '\x7b' :: inspectEntries entries ++ ['\x7d']

/-- The texts of items with commas between. -/
def inspectItems : List Json → List Char
  | [] => []
  | [v] => inspectChars v
  | v :: w :: rest => inspectChars v ++ ',' :: ' ' :: inspectItems (w :: rest)

/-- The texts of entries with commas between. -/
def inspectEntries : List (JsonText × Json) → List Char
  | [] => []
  | [(k, v)] => k.quotedChars ++ ':' :: ' ' :: inspectChars v
  | (k, v) :: e :: rest =>
    k.quotedChars ++ ':' :: ' ' :: inspectChars v ++ ',' :: ' ' :: inspectEntries (e :: rest)

end

/-- The text of a value, strings between quotes. -/
def inspect (v : Json) : String := String.ofList v.inspectChars

/-- The text of a value, a string as it is. -/
def plain : Json → JsonText
  | .string s => s
  | v => v.inspect

/-! ## What can be shown -/

mutual

/-- How many values stand inside each other, the value itself included. -/
def depth : Json → Nat
  | .array items => depthOfItems items + 1
  | .object entries => depthOfEntries entries + 1
  | _ => 1

/-- The depth of the deepest item. -/
def depthOfItems : List Json → Nat
  | [] => 0
  | v :: rest => max v.depth (depthOfItems rest)

/-- The depth of the deepest value of an entry. -/
def depthOfEntries : List (JsonText × Json) → Nat
  | [] => 0
  | (_, v) :: rest => max v.depth (depthOfEntries rest)

end

/-- In a value that is shown so many values may stand inside each other. As in reading, this is what
the stack leaves to a session that is loaded from the outermost level of a program. -/
def maxShown : Nat := 997

/-- Whether a value can be shown. A string always can, as it is taken as it is. -/
def isShowable : Json → Bool
  | .string _ => true
  | v => v.depth ≤ maxShown

theorem depthOfItems_le_iff {items : List Json} {n : Nat} :
    depthOfItems items ≤ n ↔ ∀ v ∈ items, v.depth ≤ n := by
  induction items with
  | nil => simp [depthOfItems]
  | cons v rest ih => rw [depthOfItems, Nat.max_le, ih, List.forall_mem_cons]

theorem depthOfEntries_le_iff {entries : List (JsonText × Json)} {n : Nat} :
    depthOfEntries entries ≤ n ↔ ∀ e ∈ entries, e.2.depth ≤ n := by
  induction entries with
  | nil => simp [depthOfEntries]
  | cons e rest ih =>
    obtain ⟨k, v⟩ := e
    rw [depthOfEntries, Nat.max_le, ih, List.forall_mem_cons]

theorem isShowable_of_depth_le {v : Json} (h : v.depth ≤ maxShown) : v.isShowable = true := by
  cases v <;> first | rfl | exact decide_eq_true h

end Spreadsheet.Json
