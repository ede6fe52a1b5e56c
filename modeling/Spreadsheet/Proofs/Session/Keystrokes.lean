import Spreadsheet.Proofs.Literal.Prefixes
import Spreadsheet.Proofs.Session.Refusals
import Spreadsheet.Proofs.Session.Typing
import Spreadsheet.Proofs.Session.Unswept

/-!
# Literals and formulas can be typed

A text is typed into a cell one key at a time: each key is an edit of the cell with the text so far,
and the text is refused if it is neither a formula nor on the way to a literal.

**Theorem (`typed_through`).** In a loaded session every literal and every text that is taken for a
formula can be typed into every cell. Each key is accepted, whatever was focused before and whatever
goes on between the keys, and the buffer holds the text so far.

The texts in front of a literal are partial literals (`Literal.isPartial_of_prefix`), and those in
front of a formula start with its equals sign (`accepts_of_prefix`). What is kept from key to key is
that the address names the cell (`locate_edit`).
-/

namespace Spreadsheet

/-- Whether a move is no call: the end of a window of quiet, a save that goes on, or a change of the
file by others. -/
def Session.Move.isBackground : Session.Move → Bool
  | .call _ _ => false
  | _ => true

/-- A key that is pressed at some time, after other things went on in the background. -/
structure Keystroke where
  character : Char
  background : List Session.Move := []
  clock : Option Nat := none

namespace Keystroke

/-- The characters that are typed. -/
def characters (keys : List Keystroke) : List Char := keys.map character

/-- The text that is typed. -/
def text (keys : List Keystroke) : String := String.ofList (characters keys)

end Keystroke

namespace Session

variable {s : Session} {clock : Option Nat} {a : Address} {address text front : String}

/-- The edit for a key, with the text so far. -/
def press (s : Session) (address : String) (before : List Char) (k : Keystroke) :
    Outcome (Except SessionError Bool) :=
  (s.run k.background).edit k.clock address (String.ofList (before ++ [k.character]))

/-- Keys pressed in order: the answers to the edits, and the session in the end. -/
def type (s : Session) (address : String) (before : List Char) :
    List Keystroke → List (Except SessionError Bool) × Session
  | [] => ([], s)
  | k :: keys =>
    let done := s.press address before k
    let later := done.session.type address (before ++ [k.character]) keys
    (done.result :: later.1, later.2)

/-! ## Texts that are accepted -/

/-- What stands in front of a literal or of a formula is accepted. -/
theorem accepts_of_prefix
    (htext : Literal.isComplete text = true ∨ Formula.isFormula text = true)
    (hfront : front.toList <+: text.toList) (hne : front.toList ≠ []) : accepts front = true := by
  unfold accepts
  rcases htext with htext | htext
  · rw [Literal.isPartial_of_prefix (Literal.isPartial_of_isComplete htext) hfront, Bool.or_true]
  · obtain ⟨c, rest, hcons⟩ := List.exists_cons_of_ne_nil hne
    have hhead : front.toList.head? = text.toList.head? := by
      obtain ⟨later, hlater⟩ := hfront
      rw [← hlater, hcons]
      rfl
    have hformula : Formula.isFormula front = true := by
      rw [Formula.isFormula, hhead]
      exact htext
    rw [hformula]
    rfl

/-! ## One key -/

/-- Texts name the same cells in a session that is loaded as the other one and has a grid of the
same size. -/
theorem locate_congr {t : Session} (hloaded : t.loaded = s.loaded)
    (hsize : t.sheet.grid.SameSize s.sheet.grid) (address : String) :
    t.locate address = s.locate address := by
  unfold locate Grid.locate
  rw [hloaded]
  simp only [Grid.contains_congr hsize]

theorem locate_focusAt (clock : Option Nat) (s : Session) (a : Address) (address : String) :
    (s.focusAt clock a).session.locate address = s.locate address := by
  obtain ⟨-, -, -, hloaded⟩ := focusAt_session clock s a
  have hleft : (s.left clock a).loaded = s.loaded := by
    rcases left_cases clock s a with heq | ⟨e, -, heq⟩
    · rw [heq]
    · rw [heq, loaded_commitAt]
  exact locate_congr (hloaded.trans hleft) (sameSize_focusAt clock s a) address

/-- After an edit the texts name the cells that they named before. -/
theorem locate_edit (clock : Option Nat) (s : Session) (address text other : String) :
    (s.edit clock address text).session.locate other = s.locate other := by
  rcases edit_cases clock s address text with heq | ⟨a, -, t, e, ⟨-, ht⟩ | ⟨-, ht⟩, heq⟩
  · rw [heq]
  · rw [heq, ht]
    rfl
  · rw [heq, ht]
    exact locate_focusAt clock s a other

theorem locate_background {moves : List Move} (hmoves : ∀ v ∈ moves, v.isBackground = true)
    (address : String) : (s.run moves).locate address = s.locate address := by
  induction moves generalizing s with
  | nil => rfl
  | cons v moves ih =>
    obtain ⟨hv, hrest⟩ := List.forall_mem_cons.1 hmoves
    refine (ih hrest).trans ?_
    cases v with
    | call _ _ => cases hv
    | _ => rfl

/-- An edit of a cell with a text that is accepted leaves the text in the buffer. -/
theorem edit_of_accepts (clock : Option Nat) (hlocate : s.locate address = .ok a)
    (haccepts : accepts text = true) :
    (s.edit clock address text).result = .ok true ∧
      (s.edit clock address text).session.editing = some ⟨a, text⟩ := by
  have hresult : (s.edit clock address text).result = .ok true := by
    rw [result_edit hlocate, haccepts]
  refine ⟨hresult, ?_⟩
  obtain ⟨b, hb, hediting⟩ := editing_edit hresult
  rw [Except.ok.inj (hlocate.symm.trans hb)]
  exact hediting

/-- **The step lemma.** A key is accepted if the text so far is, and the cell can be typed into
further. -/
theorem press_of_accepts {before : List Char} {k : Keystroke} (hlocate : s.locate address = .ok a)
    (hbackground : ∀ v ∈ k.background, v.isBackground = true)
    (haccepts : accepts (String.ofList (before ++ [k.character])) = true) :
    (s.press address before k).result = .ok true ∧
      (s.press address before k).session.editing =
        some ⟨a, String.ofList (before ++ [k.character])⟩ ∧
      (s.press address before k).session.locate address = .ok a := by
  have hthere : (s.run k.background).locate address = .ok a :=
    (locate_background hbackground address).trans hlocate
  obtain ⟨hresult, hediting⟩ := edit_of_accepts k.clock hthere haccepts
  exact ⟨hresult, hediting, (locate_edit k.clock _ address _ address).trans hthere⟩

/-! ## All keys -/

/-- **The run lemma.** If all texts on the way are accepted, so is each key. -/
theorem type_of_accepts {keys : List Keystroke} {before : List Char}
    (hlocate : s.locate address = .ok a)
    (hbackground : ∀ k ∈ keys, ∀ v ∈ k.background, v.isBackground = true)
    (haccepts : ∀ cs, cs <+: Keystroke.characters keys → cs ≠ [] →
      accepts (String.ofList (before ++ cs)) = true) :
    (s.type address before keys).1 = keys.map (fun _ => .ok true) ∧
      (keys ≠ [] → (s.type address before keys).2.editing =
        some ⟨a, String.ofList (before ++ Keystroke.characters keys)⟩) := by
  induction keys generalizing s before with
  | nil => exact ⟨rfl, fun h => absurd rfl h⟩
  | cons k keys ih =>
    obtain ⟨hk, hrest⟩ := List.forall_mem_cons.1 hbackground
    have hfirst : accepts (String.ofList (before ++ [k.character])) = true :=
      haccepts [k.character] ⟨Keystroke.characters keys, rfl⟩ (List.cons_ne_nil _ _)
    obtain ⟨hresult, hediting, hthere⟩ := press_of_accepts hlocate hk hfirst
    have hkeys : ∀ cs, cs <+: Keystroke.characters keys → cs ≠ [] →
        accepts (String.ofList (before ++ [k.character] ++ cs)) = true := by
      intro cs hcs _
      rw [List.append_assoc]
      exact haccepts (k.character :: cs) (List.cons_prefix_cons.2 ⟨rfl, hcs⟩) (List.cons_ne_nil _ _)
    obtain ⟨hanswers, hlast⟩ := ih hthere hrest hkeys
    refine ⟨?_, fun _ => ?_⟩
    · simp only [type, hresult, hanswers, List.map_cons]
    · simp only [type]
      cases keys with
      | nil => exact hediting
      | cons k' keys =>
        rw [hlast (List.cons_ne_nil _ _), List.append_assoc]
        rfl

/-- **Literals and formulas can be typed.** All texts in front of a partial literal or of a literal
are partial literals. So in a loaded session every literal, and every text that is taken for a
formula, is accepted key by key in every cell. The text so far stands in the buffer after each key,
and the whole text in the end. -/
theorem typed_through :
    (∀ text front : String, Literal.isPartial text = true ∨ Literal.isComplete text = true →
      front.toList <+: text.toList → Literal.isPartial front = true) ∧
    ∀ (s : Session) (address : String) (a : Address) (keys : List Keystroke),
      s.loaded = true → s.sheet.grid.locate address = .ok a →
      (∀ k ∈ keys, ∀ v ∈ k.background, v.isBackground = true) →
      Literal.isComplete (Keystroke.text keys) = true ∨
        Formula.isFormula (Keystroke.text keys) = true →
      (s.type address [] keys).2.editingText = Keystroke.text keys ∧
        ∀ front, front <+: keys →
          (s.type address [] front).1 = front.map (fun _ => .ok true) ∧
            (front ≠ [] → (s.type address [] front).2.editing = some ⟨a, Keystroke.text front⟩) := by
  refine ⟨fun text front htext hfront => ?_,
    fun s address a keys hloaded hcell hbackground htext => ?_⟩
  · exact Literal.isPartial_of_prefix (htext.elim id Literal.isPartial_of_isComplete) hfront
  · have hlocate : s.locate address = .ok a := by rw [locate, if_pos hloaded, hcell]
    have hfront : ∀ front, front <+: keys →
        (s.type address [] front).1 = front.map (fun _ => .ok true) ∧
          (front ≠ [] →
            (s.type address [] front).2.editing = some ⟨a, Keystroke.text front⟩) := by
      intro front hfront
      have hkeys : ∀ k ∈ front, ∀ v ∈ k.background, v.isBackground = true :=
        fun k hk => hbackground k (hfront.subset hk)
      refine type_of_accepts hlocate hkeys fun cs hcs hne => ?_
      refine accepts_of_prefix htext ?_ ?_
      · rw [Keystroke.text, String.toList_ofList, String.toList_ofList]
        exact hcs.trans (hfront.map Keystroke.character)
      · rw [String.toList_ofList]
        exact hne
    have hne : keys ≠ [] := by
      rintro rfl
      exact absurd htext (by decide)
    refine ⟨?_, hfront⟩
    rw [editingText, (hfront keys List.prefix_rfl).2 hne]
    rfl

/-- A sheet in which a formula is being edited in the second cell. -/
def formulaFocused : Session :=
  (ofStore twoCells storedFive).run [.call (some 0) .load, .call (some 0) (.edit "B1" "=A1")]

/-- The keys of a percentage. The window of quiet ends before the last one. -/
def percentageKeys : List Keystroke :=
  [⟨'$', [], some 0⟩, ⟨'7', [], some 200⟩, ⟨'%', [.fire 1000], some 1200⟩]

/-- The first key commits the other cell. -/
theorem typed_percentage :
    formulaFocused.loaded = true ∧
      formulaFocused.sheet.grid.locate "a01" = .ok ⟨0, 0⟩ ∧
      (∀ k ∈ percentageKeys, ∀ v ∈ k.background, v.isBackground = true) ∧
      Literal.isComplete (Keystroke.text percentageKeys) = true ∧
      Literal.isPartial "$" = true ∧
      (formulaFocused.type "a01" [] percentageKeys).1 = [.ok true, .ok true, .ok true] ∧
      (formulaFocused.type "a01" [] percentageKeys).2.editing = some ⟨⟨0, 0⟩, "$7%"⟩ := by
  have hloaded : formulaFocused.loaded = true := by decide +kernel
  have hcell : formulaFocused.sheet.grid.locate "a01" = .ok ⟨0, 0⟩ := by decide +kernel
  have hbackground : ∀ k ∈ percentageKeys, ∀ v ∈ k.background, v.isBackground = true := by
    simp [percentageKeys, Move.isBackground]
  have hcomplete : Literal.isComplete (Keystroke.text percentageKeys) = true := by decide +kernel
  obtain ⟨hpartial, htype⟩ := typed_through
  obtain ⟨-, hfront⟩ := htype formulaFocused "a01" ⟨0, 0⟩ percentageKeys hloaded hcell hbackground
    (.inl hcomplete)
  obtain ⟨hanswers, hlast⟩ := hfront percentageKeys List.prefix_rfl
  exact ⟨hloaded, hcell, hbackground, hcomplete,
    hpartial (Keystroke.text percentageKeys) "$" (.inr hcomplete) ⟨['7', '%'], by decide +kernel⟩,
    hanswers, hlast (List.cons_ne_nil _ _)⟩

end Session

end Spreadsheet
