import Spreadsheet.Proofs.Json.Depth
import Spreadsheet.Proofs.Store.Restoring

/-!
# What is loaded from a file

**Theorem (`loads_iff`).** What comes of loading is determined by the bytes of the file. There are
three faults: the bytes are no text, a whole number is too long, or brackets are too deep. Otherwise the
entries of an object are loaded, and any other file counts as none. A text of moderate extent is
therefore loaded, whatever stands in it (`exists_load`).

No entry that is loaded is nested too deep to be shown (`not_tooDeep_of_load`).
-/

namespace Spreadsheet

open Json Text

namespace Store

variable {s : Store} {text : String} {result : Except LoadError (Option (List (JsonText × Json)))}

/-- What may come of loading a file. -/
inductive Loads (s : Store) : Except LoadError (Option (List (JsonText × Json))) → Prop
  | absent : (∀ bytes, s.state ≠ .file bytes) → s.Loads (.ok none)
  | object {text : String} {entries : List (JsonText × Json)} : s.Holds text →
    parse text = .ok (.object entries) → s.Loads (.ok (some entries))
  | value {text : String} {v : Json} : s.Holds text → parse text = .ok v → v.entries? = none →
    s.Loads (.ok none)
  | malformed {text : String} : s.Holds text → parse text = .error .malformed → s.Loads (.ok none)
  /-- The bytes are those of no text. -/
  | undecodable {bytes : List UInt8} : s.state = .file bytes →
    (∀ text : String, bytes ≠ text.toUTF8.toList) → s.Loads (.error .undecodable)
  /-- So many digits stand in a row. -/
  | longInteger {text : String} {n : Nat} : s.Holds text → parse text = .error (.longInteger n) →
    maxNumeralDigits < n → HasDigits text.toList n → s.Loads (.error (.longInteger n))
  /-- Too many brackets are opened. -/
  | tooDeep {text : String} {b : Bracket} : s.Holds text → parse text = .error (.tooDeep b) →
    maxDepth < text.toList.countP isOpeningChar → s.Loads (.error (.tooDeep b))

theorem Holds.loads (h : s.Holds text) : s.Loads s.load := by
  rw [h.load_eq]
  unfold entriesOfText
  cases hparse : parseChars text.toList with
  | ok v =>
    dsimp only
    cases hentries : v.entries? with
    | none => exact .value h hparse hentries
    | some entries =>
      cases v with
      | object own =>
        cases hentries
        exact .object h hparse
      | _ => cases hentries
  | error e =>
    cases e with
    | malformed => exact .malformed h hparse
    | longInteger n =>
      obtain ⟨hlong, hdigits⟩ := digits_of_longInteger hparse
      exact .longInteger h hparse hlong hdigits
    | tooDeep b => exact .tooDeep h hparse (openings_of_tooDeep hparse)

theorem loads_load (s : Store) : s.Loads s.load := by
  cases hstate : s.state with
  | file bytes =>
    cases hdecode : decodeFile bytes with
    | some cs =>
      have hholds : s.Holds (String.ofList cs) := by
        rw [Holds, hstate, ← decodeFile_eq_some_iff.1 (hdecode.trans (by rw [String.toList_ofList]))]
      exact hholds.loads
    | none =>
      have hload : s.load = .error .undecodable := by
        rw [load, hstate]
        dsimp only
        rw [hdecode]
      rw [hload]
      exact .undecodable hstate (decodeFile_eq_none_iff.1 hdecode)
  | _ =>
    have hload : s.load = .ok none := by rw [load, hstate]
    rw [hload]
    exact .absent (by simp [hstate])

/-- **The bytes of the file determine what is loaded.** -/
theorem loads_iff : s.Loads result ↔ s.load = result := by
  refine ⟨fun h => ?_, fun h => h ▸ s.loads_load⟩
  cases h with
  | absent h =>
    unfold load
    split
    · rename_i bytes hstate
      exact absurd hstate (h bytes)
    · rfl
  | undecodable hstate hbytes =>
    unfold load
    rw [hstate]
    dsimp only
    rw [decodeFile_eq_none_iff.2 hbytes]
  | value hholds hparse hentries =>
    rw [parse] at hparse
    rw [hholds.load_eq, entriesOfText, hparse, ← hentries]
  | object hholds hparse | malformed hholds hparse | longInteger hholds hparse
  | tooDeep hholds hparse =>
    rw [parse] at hparse
    simp only [hholds.load_eq, entriesOfText, hparse, entries?]

/-- There is no file, or its bytes are those of a text without too many digits in a row and without
too many opening brackets. -/
def Moderate (s : Store) : Prop :=
  ∀ bytes, s.state = .file bytes → ∃ text : String, bytes = text.toUTF8.toList ∧
    (∀ n, HasDigits text.toList n → n ≤ maxNumeralDigits) ∧
      text.toList.countP isOpeningChar ≤ maxDepth

/-- **Moderate files are loaded**, whatever they hold. -/
theorem exists_load (h : s.Moderate) : ∃ stored, s.load = .ok stored := by
  have hsame : ∀ {text text' : String}, text.toUTF8.toList = text'.toUTF8.toList →
      text.toList = text'.toList := by
    intro text text' hbytes
    exact Option.some.inj ((decodeFile_eq_some_iff.2 rfl).symm.trans
      (decodeFile_eq_some_iff.2 hbytes))
  have hloads := s.loads_load
  generalize s.load = result at hloads
  cases hloads with
  | undecodable hstate hbytes =>
    obtain ⟨text, htext, -⟩ := h _ hstate
    exact absurd htext (hbytes text)
  | longInteger hholds hparse hlong hdigits =>
    obtain ⟨text, htext, hrow, -⟩ := h _ hholds
    exact absurd (hrow _ (hsame htext ▸ hdigits)) (Nat.not_le.2 hlong)
  | tooDeep hholds hparse hopenings =>
    obtain ⟨text, htext, -, hbrackets⟩ := h _ hholds
    exact absurd hbrackets (Nat.not_le.2 (hsame htext ▸ hopenings))
  | _ => exact ⟨_, rfl⟩

/-- **What is loaded can be shown**, in a grid of any size. -/
theorem not_tooDeep_of_load {entries : List (JsonText × Json)} (h : s.load = .ok (some entries))
    (rows columns : Int) : ∀ e ∈ entries, ¬ Snapshot.TooDeep rows columns e := by
  rintro e he ⟨a, fields, -, -, -, hfields, key, -, hno, hdeep⟩
  cases loads_iff.2 h with
  | object hholds hparse =>
    have hshown := isShowable_lookup_of_parseCodes hparse he (congrArg entries? hfields) key
    rw [Snapshot.isShowable_eq_false_iff.2 ⟨hno, hdeep⟩] at hshown
    cases hshown

end Store

end Spreadsheet
