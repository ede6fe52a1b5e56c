import Spreadsheet.Text.Quoted
import Spreadsheet.Text.Surrogate

/-!
# Texts in JSON

A string of JSON is a text of code points, and surrogates may stand alone in it. Most are strings of
characters; one with a surrogate alone is kept as its code points. Main statement:
`ofCodes_codes_whole`, a string of characters is never broken.
-/

namespace Spreadsheet

open Text

/-- The text of a string or a key of JSON. -/
inductive JsonText where
  | whole (text : String)
  /-- Code points, of which some are surrogates. -/
  | broken (codes : List Nat)
  deriving DecidableEq, Repr, Inhabited

instance : Coe String JsonText := ⟨.whole⟩

namespace JsonText

/-- The text of code points. -/
def ofCodes (codes : List Nat) : JsonText :=
  if codes.any isSurrogate then .broken codes else .whole (String.ofList (codes.map Char.ofNat))

/-- The code points. -/
def codes : JsonText → List Nat
  | .whole text => text.toList.map Char.toNat
  | .broken codes => codes

/-- The characters, with the replacement character for a surrogate. -/
def text : JsonText → String
  | .whole text => text
  | .broken codes =>
    String.ofList (codes.map fun n => if isSurrogate n then '\ufffd' else Char.ofNat n)

/-- The text between quotes, where a surrogate is escaped by its code point. -/
def quotedChars (t : JsonText) : List Char :=
  match t with
  | .whole text => Text.quotedChars text.toList
  | .broken codes =>
    let quote := quoteFor t.text.toList
    let piece (n : Nat) : List Char :=
      if isSurrogate n then '\\' :: 'u' :: hexChars 4 n else escapeChar quote (Char.ofNat n)
    quote :: codes.flatMap piece ++ [quote]

/-- The text between quotes, where a surrogate is escaped by its code point. -/
def quoted (t : JsonText) : String := String.ofList t.quotedChars

theorem ofCodes_codes_whole (text : String) :
    ofCodes (JsonText.whole text).codes = .whole text := by
  have h : ((JsonText.whole text).codes.any isSurrogate) = false := by
    simp only [codes, List.any_map, List.any_eq_false, Function.comp_apply]
    exact fun c _ => Bool.not_eq_true _ ▸ isSurrogate_toNat c
  simp only [ofCodes, h]
  simp [codes, Function.comp_def]

end JsonText

end Spreadsheet
