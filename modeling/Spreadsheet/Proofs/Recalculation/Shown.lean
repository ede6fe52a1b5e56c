import Spreadsheet.Proofs.Recalculation.Dependents
import Spreadsheet.Proofs.Substitution.Tokens

/-!
# What a formula reads where a cell shows the same

A formula reads the token of a literal, or the token of a rounded result. Which of the two it is
does not matter: cells that show the same text have the same token, as long as they show what they
hold (`Stands.unique`). For a result is only shown like a literal if it is written like one, and then
its token is the literal's.

So the token of a cell that shows its result can be told from its text alone (`stands_of_resolve`,
`resolve_of_stands`).
-/

namespace Spreadsheet

open Text

/-! ## Displays -/

namespace Number

/-- Numbers that are shown alike have the same token. -/
theorem token_congr {x y : Float} (h : display x = display y) : token x = token y := by
  have hchars : displayChars x = displayChars y := by
    rw [← String.toList_ofList (l := displayChars x), ← String.toList_ofList (l := displayChars y)]
    exact congrArg String.toList h
  unfold token
  rw [hchars]

/-- A display is no number for a formula, or it is its own token. -/
theorem tokenChars?_displayChars (x : Float) :
    (Literal.isCompleteChars (displayChars x) = false ∧
        Literal.tokenChars? (displayChars x) = none) ∨
      Literal.tokenChars? (displayChars x) = some (displayChars x) ∧
        token x = String.ofList (displayChars x) := by
  unfold token displayChars
  split
  · rename_i negative units hread
    obtain ⟨whole, fraction, hnumeral⟩ :=
      numeral_hundredths (Hundredths.ofUnits negative units).count
    unfold Hundredths.chars
    generalize decimalChars ((Hundredths.ofUnits negative units).count / 100) ++
      Hundredths.fractionChars ((Hundredths.ofUnits negative units).count % 100) = text at hnumeral ⊢
    have hkept : text.filter (fun c => !Literal.isSeparator c) = text :=
      List.filter_eq_self.2 fun c hc => by rw [Literal.not_isSeparator hnumeral hc]; rfl
    dsimp only
    split
    · -- No numeral starts with a minus sign.
      have hminus : isDigit '-' = false := by decide
      have hsign : Literal.isSeparator '-' = false := by decide
      refine .inl ⟨?_, ?_⟩
      · simp [Literal.isCompleteChars, Literal.dropOptional, Literal.isNumeralChars, hminus]
      · rw [Literal.tokenChars?, List.filter_cons_of_pos (by rw [hsign]; rfl), hkept]
        simp [Literal.isNumeralChars, hminus]
    · have hfirst : ∀ c : Char, isDigit c = false → c ≠ '.' → ∀ rest, text ≠ c :: rest :=
        fun c hdigit hpoint rest heq =>
          hnumeral.not_mem hdigit hpoint (heq ▸ List.mem_cons_self)
      have hdollar : Literal.dropOptional '$' text = text := by
        cases htext : text with
        | nil => rfl
        | cons c rest =>
          have hc : c ≠ '$' := fun hc => hfirst '$' (by decide) (by decide) rest (hc ▸ htext)
          simp [Literal.dropOptional, hc]
      have hne : text.isEmpty = false := List.isEmpty_eq_false_iff.2 hnumeral.ne_nil
      rw [Literal.isCompleteChars, hdollar, Literal.tokenChars?, hkept, hne]
      cases hchars : Literal.isNumeralChars text with
      | false => exact .inl ⟨rfl, rfl⟩
      | true =>
        refine .inr ⟨rfl, ?_⟩
        split
        · exact absurd rfl (hfirst '-' (by decide) (by decide) _)
        · rfl
  · exact .inl (by decide)
  · rename_i negative _
    cases negative <;> exact .inl (by decide)

/-- A display that is read as a number is read as that of its token. -/
theorem eq_token_of_display {x : Float} {t : String}
    (h : Literal.token? (display x) = some t) : t = token x := by
  unfold Literal.token? display at h
  rw [String.toList_ofList] at h
  rcases tokenChars?_displayChars x with ⟨-, hnone⟩ | ⟨hchars, htoken⟩
  · rw [hnone] at h
    cases h
  · rw [hchars] at h
    rw [htoken]
    exact (Option.some.inj h).symm

/-- A display that is written like a literal is read as the token. -/
theorem token?_display {x : Float} (h : Literal.isComplete (display x) = true) :
    Literal.token? (display x) = some (token x) := by
  unfold Literal.isComplete at h
  unfold Literal.token?
  rw [display, String.toList_ofList] at h ⊢
  rcases tokenChars?_displayChars x with ⟨hfalse, -⟩ | ⟨hchars, htoken⟩
  · rw [hfalse] at h
    cases h
  · rw [hchars, htoken]
    rfl

theorem display_ne_empty (x : Float) : display x ≠ "" := by
  intro h
  have hnil : displayChars x = [] := by
    rw [← String.toList_ofList (l := displayChars x)]
    exact congrArg String.toList h
  unfold displayChars at hnil
  split at hnil
  · unfold Hundredths.chars at hnil
    dsimp only at hnil
    split at hnil
    · cases hnil
    · exact decimalChars_ne_nil _ (List.append_eq_nil_iff.1 hnil).1
  · cases hnil
  · split at hnil <;> cases hnil

end Number

/-! ## Texts that stand for tokens -/

/-- What a cell without a formula may show. -/
def Literal.Proper (value : String) : Prop :=
  value = "" ∨ Literal.isComplete value = true ∨ value = ErrorState.error.sentinel

/-- A text that is shown stands for a token, as a result or as a literal. -/
inductive Stands (value token : String) : Prop
  | result {x : Float} : value = Number.display x → token = Number.token x → Stands value token
  | literal : Literal.token? value = some token → Stands value token

theorem display_ne_sentinel (x : Float) {state : ErrorState} (h : state ≠ .none) :
    Number.display x ≠ state.sentinel := by
  intro heq
  have hnone := ofSentinel_display x
  rw [heq, ofSentinel_sentinel] at hnone
  exact h hnone

namespace Stands

variable {value token token' : String}

theorem token?_eq (h : Stands value token) (hproper : Literal.Proper value) :
    Literal.token? value = some token := by
  cases h with
  | literal htoken => exact htoken
  | @result x hvalue htoken =>
    rw [hvalue] at hproper ⊢
    rw [htoken]
    rcases hproper with hempty | hcomplete | hsentinel
    · exact absurd hempty (Number.display_ne_empty x)
    · exact Number.token?_display hcomplete
    · exact absurd hsentinel (display_ne_sentinel x (by decide))

theorem eq_of_token? (h : Stands value token) (htoken : Literal.token? value = some token') :
    token' = token := by
  cases h with
  | literal htoken' => exact Option.some.inj (htoken.symm.trans htoken')
  | result hvalue htoken' =>
    rw [htoken']
    exact Number.eq_token_of_display (hvalue ▸ htoken)

/-- **What is shown determines the token.** -/
theorem unique (h : Stands value token) (h' : Stands value token') : token = token' := by
  cases h with
  | literal htoken => exact h'.eq_of_token? htoken
  | @result x hvalue htoken =>
    cases h' with
    | literal htoken' => exact ((result hvalue htoken).eq_of_token? htoken').symm
    | @result y hvalue' htoken' =>
      rw [htoken, htoken']
      exact Number.token_congr (hvalue.symm.trans hvalue')

theorem ne_sentinel (h : Stands value token) {state : ErrorState} (hstate : state ≠ .none) :
    value ≠ state.sentinel := by
  cases h with
  | @result x hvalue _ => exact fun heq => display_ne_sentinel x hstate (hvalue.symm.trans heq)
  | literal htoken =>
    rintro rfl
    cases state with
    | none => exact hstate rfl
    | error =>
      rw [show Literal.token? ErrorState.error.sentinel = none by decide] at htoken
      cases htoken
    | circular =>
      rw [show Literal.token? ErrorState.circular.sentinel = none by decide] at htoken
      cases htoken

end Stands

/-! ## Cells that show what they hold -/

theorem Cell.isError_ofResult_ok (formula : String) (x : Float) :
    (Cell.ofResult formula (.ok x)).isError = false := by
  rw [(Cell.marked_ofResult formula (.ok x)).isError]
  show (ErrorState.ofSentinel (Number.display x) != .none) = false
  rw [ofSentinel_display]
  rfl

namespace Grid

variable {g : Grid} {a : Address} {c : Cell} {formula token : String} {path : List Reference}
  {x : Float}

/-- Without a formula there is nothing in a cell but a literal or the mark of an error. -/
def Proper (g : Grid) : Prop :=
  ∀ a c, g.get? a = some c → c.formula = none → Literal.Proper c.value

/-- A formula cell resolves to the token of its result. -/
theorem evaluate_of_resolve (hc : g.get? a = some c) (hf : c.formula = some formula)
    (h : g.resolve path (.cell a) = .ok token) :
    ∃ x, (g.evaluateFormula formula (.cell a) []).1 = .ok x ∧ token = Number.token x := by
  have hfind : g.find? (.cell a) = some c := hc
  have hres : g.resolve [] (.cell a) = .ok token := resolve_of_avoids h fun _ _ => List.not_mem_nil
  rw [resolve_of_formula List.not_mem_nil hfind hf, List.nil_append] at hres
  rw [evaluateFormula, evaluate_nil, plainValue]
  cases hvalue : Formula.valueBy (g.resolve [.cell a]) (Formula.body formula) with
  | error e => simp [hvalue, Except.map] at hres
  | ok x =>
    rw [hvalue] at hres
    exact ⟨x, rfl, (Except.ok.inj hres).symm⟩

theorem resolve_of_evaluate (hc : g.get? a = some c) (hf : c.formula = some formula)
    (h : (g.evaluateFormula formula (.cell a) []).1 = .ok x) :
    g.resolve [] (.cell a) = .ok (Number.token x) := by
  have hfind : g.find? (.cell a) = some c := hc
  rw [evaluateFormula, evaluate_nil, plainValue] at h
  rw [resolve_of_formula List.not_mem_nil hfind hf, List.nil_append, h]
  rfl

/-- What a cell that resolves shows stands for its token, and it is no error. -/
theorem stands_of_resolve (hmarked : c.Marked) (hc : g.get? a = some c) (hshows : c.Shows g a)
    (h : g.resolve path (.cell a) = .ok token) :
    Stands c.value token ∧ c.isError = false := by
  cases hf : c.formula with
  | some formula =>
    obtain ⟨x, hx, htoken⟩ := evaluate_of_resolve hc hf h
    rw [hshows formula hf, hx]
    exact ⟨.result rfl htoken, Cell.isError_ofResult_ok formula x⟩
  | none =>
    obtain ⟨hmem, d, hd, hcase⟩ := resolve_ok_cases h
    obtain rfl : c = d := Option.some.inj (hc.symm.trans hd)
    rcases hcase with ⟨formula, x, hformula, -⟩ | ⟨-, htoken⟩
    · rw [hf] at hformula
      cases hformula
    · refine ⟨.literal htoken, Bool.eq_false_iff.2 fun herror => ?_⟩
      rw [hmarked.token?_eq_none herror] at htoken
      cases htoken

/-- A cell that shows a text for a token, and shows what it holds, resolves to the token. -/
theorem resolve_of_stands (hproper : c.formula = none → Literal.Proper c.value)
    (hc : g.get? a = some c) (hshows : c.Shows g a) (h : Stands c.value token) :
    g.resolve [] (.cell a) = .ok token := by
  cases hf : c.formula with
  | some formula =>
    have hcell := hshows formula hf
    cases hresult : (g.evaluateFormula formula (.cell a) []).1 with
    | error e =>
      rw [hresult] at hcell
      rw [hcell] at h
      have hstate : e.state ≠ .none := by cases e <;> simp [FormulaError.state]
      exact absurd rfl (h.ne_sentinel hstate)
    | ok x =>
      rw [hresult] at hcell
      rw [hcell] at h
      rw [resolve_of_evaluate hc hf hresult, h.unique (.result rfl rfl)]
  | none =>
    have hfind : g.find? (.cell a) = some c := hc
    rw [resolve_of_literal List.not_mem_nil hfind hf, h.token?_eq (hproper hf)]

end Grid

end Spreadsheet
