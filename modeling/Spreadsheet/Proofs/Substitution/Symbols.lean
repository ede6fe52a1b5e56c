import Mathlib.Data.List.SplitBy
import Spreadsheet.Formula
import Spreadsheet.Proofs.Substitution.Filling

/-!
# The symbols of a body

A body is read as a word of characters and references. Putting tokens in place of the references is
filling that word (`fill_symbols`).

Main result: `symbols_apart`. References stand apart from digits and from each other, because a
reference starts where no word character stands before, and takes all the digits that follow. Only a
point may touch a reference.
-/

namespace Spreadsheet.Formula

open Arithmetic Text

/-- The symbols of a piece. -/
def Piece.symbols : Piece → List (Char ⊕ Reference)
  | .reference token => [.inr (.ofText (String.ofList token))]
  | .other text => text.map .inl

/-- The body as a word of characters and references. -/
def symbols (body : String) : List (Char ⊕ Reference) :=
  (pieces body.toList).flatMap Piece.symbols

/-! ## Filling -/

theorem fill_piece (tokens : Reference → String) (p : Piece) :
    fill (fun r => (tokens r).toList) p.symbols = p.substitute tokens := by
  cases p with
  | reference token => exact List.append_nil _
  | other text => exact fill_map_inl _ _

theorem fill_symbols (tokens : Reference → String) (body : String) :
    fill (fun r => (tokens r).toList) (symbols body) = (substitute tokens body).toList := by
  rw [substitute, String.toList_ofList, symbols, fill, List.flatMap_assoc]
  exact congrArg (fun f => (pieces body.toList).flatMap f) (funext (fill_piece tokens))

/-! ## Runs -/

/-- The symbols of a run. -/
def symbolsOfRun (run : List Char) : List (Char ⊕ Reference) :=
  (piecesOfRun run).flatMap Piece.symbols

theorem symbols_eq (body : String) :
    symbols body = ((body.toList.splitBy fun a b => isWordChar a == isWordChar b).map
      symbolsOfRun).flatten := by
  rw [symbols, pieces, List.flatMap_assoc, List.flatMap_def]
  rfl

/-- Whether a symbol belongs to words. -/
def isWordSymbol : Char ⊕ Reference → Bool := Sum.elim isWordChar fun _ => true

/-- Neighbours in the symbols of a body. -/
def Adjacent : Char ⊕ Reference → Char ⊕ Reference → Prop
  | .inl _, .inl _ => True
  | .inl c, .inr _ => isWordChar c = false
  | .inr _, .inl c => c.isDigit = false
  | .inr _, .inr _ => False

theorem isWordChar_of_isUpper {c : Char} (h : c.isUpper = true) : isWordChar c = true := by
  simp [isWordChar, Char.isAlphanum, Char.isAlpha, h]

theorem isWordChar_of_isDigit {c : Char} (h : c.isDigit = true) : isWordChar c = true := by
  simp [isWordChar, Char.isAlphanum, h]

theorem isChain_text (cs : List Char) :
    (cs.map (Sum.inl : Char → Char ⊕ Reference)).IsChain Adjacent :=
  (List.isChain_map _).2 (List.pairwise_of_forall fun _ _ => trivial).isChain

/-- The symbols of a run are all in words or all outside, and a reference takes all its digits. -/
theorem symbolsOfRun_spec {run : List Char} {b : Bool} (hne : run ≠ [])
    (hrun : ∀ c ∈ run, isWordChar c = b) :
    symbolsOfRun run ≠ [] ∧ (∀ x ∈ symbolsOfRun run, isWordSymbol x = b) ∧
      (symbolsOfRun run).IsChain Adjacent := by
  rw [symbolsOfRun, piecesOfRun]
  split
  · rw [List.flatMap_cons, List.flatMap_nil, List.append_nil]
    refine ⟨by simpa [Piece.symbols] using hne, fun x hx => ?_, isChain_text run⟩
    obtain ⟨c, hc, rfl⟩ := List.mem_map.1 hx
    exact hrun c hc
  · rename_i hreference
    rw [Bool.or_eq_true, not_or] at hreference
    set rest := (run.dropWhile Char.isUpper).dropWhile Char.isDigit with hrest
    obtain ⟨c, hc⟩ := List.exists_mem_of_ne_nil (run.takeWhile Char.isUpper)
      (by simpa using hreference.1)
    have hb : b = true :=
      (hrun c (List.takeWhile_subset _ hc)).symm.trans
        (isWordChar_of_isUpper (List.mem_takeWhile_imp hc))
    have hsub : ∀ c ∈ rest, c ∈ run :=
      fun c hc => List.dropWhile_subset _ (List.dropWhile_subset _ hc)
    simp only [List.flatMap_cons, List.flatMap_nil, List.append_nil, Piece.symbols,
      List.singleton_append]
    refine ⟨List.cons_ne_nil _ _, fun x hx => ?_,
      List.isChain_cons.2 ⟨fun y hy => ?_, isChain_text rest⟩⟩
    · rcases List.mem_cons.1 hx with rfl | hx
      · exact hb.symm
      · obtain ⟨d, hd, rfl⟩ := List.mem_map.1 hx
        exact hrun d (hsub d hd)
    · obtain ⟨d, hd, rfl⟩ := Option.map_eq_some_iff.1 ((List.head?_map ..).symm.trans hy)
      have hnot := List.head?_dropWhile_not Char.isDigit (run.dropWhile Char.isUpper)
      rw [← hrest, hd] at hnot
      show d.isDigit = false
      simpa using hnot

/-- Symbols of which only one belongs to words may be neighbours. -/
theorem adjacent_of_ne {x y : Char ⊕ Reference} (h : isWordSymbol x ≠ isWordSymbol y) :
    Adjacent x y := by
  cases x with
  | inl c =>
    cases y with
    | inl d => trivial
    | inr r =>
      show isWordChar c = false
      simpa [isWordSymbol] using h
  | inr q =>
    cases y with
    | inl d =>
      have hword : isWordChar d = false := by simpa [isWordSymbol] using h.symm
      cases hdigit : d.isDigit with
      | false => exact hdigit
      | true => exact absurd (isWordChar_of_isDigit hdigit) (by simp [hword])
    | inr r => exact absurd rfl h

/-- A run is all in words or all outside. -/
theorem isWordChar_of_mem_run {cs run : List Char}
    (h : run ∈ cs.splitBy fun a b => isWordChar a == isWordChar b) :
    ∃ b, ∀ c ∈ run, isWordChar c = b := by
  have hchain : run.IsChain fun a b => isWordChar a = isWordChar b :=
    (List.isChain_of_mem_splitBy h).imp fun _ _ => beq_iff_eq.1
  have : IsTrans Char fun a b => isWordChar a = isWordChar b := ⟨fun _ _ _ => Eq.trans⟩
  cases run with
  | nil => exact ⟨true, nofun⟩
  | cons d run =>
    refine ⟨isWordChar d, fun c hc => ?_⟩
    rcases List.mem_cons.1 hc with rfl | hc
    · rfl
    · exact (List.rel_of_pairwise_cons (List.isChain_iff_pairwise.1 hchain) hc).symm

/-- References stand apart from digits and from each other. -/
theorem symbols_adjacent (body : String) : (symbols body).IsChain Adjacent := by
  have hspec : ∀ run ∈ body.toList.splitBy fun a b => isWordChar a == isWordChar b,
      ∃ b, (∀ c ∈ run, isWordChar c = b) ∧ symbolsOfRun run ≠ [] ∧
        (∀ x ∈ symbolsOfRun run, isWordSymbol x = b) ∧ (symbolsOfRun run).IsChain Adjacent := by
    intro run hrun
    obtain ⟨b, hb⟩ := isWordChar_of_mem_run hrun
    exact ⟨b, hb, symbolsOfRun_spec (List.ne_nil_of_mem_splitBy hrun) hb⟩
  rw [symbols_eq, List.isChain_flatten]
  · refine ⟨fun l hl => ?_, (List.isChain_map _).2 ?_⟩
    · obtain ⟨run, hrun, rfl⟩ := List.mem_map.1 hl
      obtain ⟨b, -, -, -, hchain⟩ := hspec run hrun
      exact hchain
    · refine (List.isChain_getLast_head_splitBy _ _).imp_of_mem_imp
        fun run run' hrun hrun' hne => ?_
      obtain ⟨b, hb, -, hsymbols, -⟩ := hspec run hrun
      obtain ⟨b', hb', -, hsymbols', -⟩ := hspec run' hrun'
      obtain ⟨hnil, hnil', hdiffers⟩ := hne
      have hbb' : b ≠ b' := by
        rw [hb _ (List.getLast_mem hnil), hb' _ (List.head_mem hnil')] at hdiffers
        simpa using hdiffers
      intro x hx y hy
      refine adjacent_of_ne ?_
      rw [hsymbols x (List.mem_of_getLast? hx), hsymbols' y (List.mem_of_head? hy)]
      exact hbb'
  · rintro hnil
    obtain ⟨run, hrun, hempty⟩ := List.mem_map.1 hnil
    obtain ⟨b, -, hne, -⟩ := hspec run hrun
    exact hne hempty

/-! ## Points -/

/-- Neighbours of which none is a reference that touches a point. -/
def ClearOfPoint : Char ⊕ Reference → Char ⊕ Reference → Prop
  | .inl c, .inr _ => c ≠ '.'
  | .inr _, .inl c => c ≠ '.'
  | _, _ => True

theorem mem_of_mem_symbolsOfRun {run : List Char} {c : Char} (h : .inl c ∈ symbolsOfRun run) :
    c ∈ run := by
  rw [symbolsOfRun, piecesOfRun] at h
  split at h
  · simpa [Piece.symbols] using h
  · simp only [List.flatMap_cons, List.flatMap_nil, List.append_nil, Piece.symbols,
      List.singleton_append, List.mem_cons, reduceCtorEq, false_or, List.mem_map, Sum.inl.injEq,
      exists_eq_right] at h
    exact List.dropWhile_subset _ (List.dropWhile_subset _ h)

theorem mem_of_mem_symbols {body : String} {c : Char} (h : .inl c ∈ symbols body) :
    c ∈ body.toList := by
  rw [symbols_eq] at h
  obtain ⟨l, hl, hc⟩ := List.mem_flatten.1 h
  obtain ⟨run, hrun, rfl⟩ := List.mem_map.1 hl
  rw [← List.flatten_splitBy (fun a b => isWordChar a == isWordChar b) body.toList]
  exact List.mem_flatten_of_mem hrun (mem_of_mem_symbolsOfRun hc)

theorem toNat_of_isBodyChar {c : Char} (h : isBodyChar c = true) : c.toNat < 0x80 := by
  have hpunctuation : ∀ c ∈ ['+', '-', '*', '/', '(', ')', '.', ' '], c.toNat < 0x80 := by simp
  by_cases halphanum : c.isAlphanum = true
  · simp only [Char.isAlphanum, Char.isAlpha, Char.isUpper, Char.isLower, Char.isDigit,
      Bool.or_eq_true, Bool.and_eq_true, decide_eq_true_eq, ge_iff_le,
      UInt32.le_iff_toNat_le] at halphanum
    have hlast : 'Z'.val.toNat = 90 ∧ 'z'.val.toNat = 122 ∧ '9'.val.toNat = 57 := ⟨rfl, rfl, rfl⟩
    have hval : c.toNat = c.val.toNat := rfl
    omega
  · refine hpunctuation c ?_
    simpa [isBodyChar, halphanum, or_assoc] using h

/-- The digits of a body are the ten of ASCII. -/
theorem isDigit_of_isBodyChar {c : Char} (h : isBodyChar c = true)
    (hdigit : Text.isDigit c = true) : c.isDigit = true := by
  have hfirst : ∀ z ∈ zeroCodes, z < 0x80 → z = 0x30 := by decide
  have hascii := toNat_of_isBodyChar h
  obtain ⟨z, hz, k, hk, hc⟩ := exists_zero_of_isDigit hdigit
  have hzero := hfirst z hz (by omega)
  have hrange : 0x30 ≤ c.toNat ∧ c.toNat ≤ 0x39 := by omega
  exact Char.isDigit_iff_toNat.2 hrange

/-- References of a body stand apart, points aside. -/
theorem symbols_apart {body : String} (hbody : hasForeignChar body = false)
    (hpoint : (symbols body).IsChain ClearOfPoint) : (symbols body).IsChain Apart := by
  have hdigit : ∀ {c}, .inl c ∈ symbols body → c.isDigit = false → Text.isDigit c = false := by
    intro c hc hascii
    have hall := List.any_eq_false.1 hbody c (mem_of_mem_symbols hc)
    cases h : Text.isDigit c with
    | false => rfl
    | true =>
      rw [isDigit_of_isBodyChar (by simpa using hall) h] at hascii
      cases hascii
  rw [List.isChain_iff_forall_rel_of_append_cons_cons] at hpoint ⊢
  intro x y l r heq
  have hadjacent := List.isChain_iff_forall_rel_of_append_cons_cons.1 (symbols_adjacent body) heq
  have hclear := hpoint heq
  have hx : x ∈ symbols body := by simp [heq]
  have hy : y ∈ symbols body := by simp [heq]
  match x, y with
  | .inl _, .inl _ => trivial
  | .inl c, .inr _ =>
    refine ⟨hdigit hx ?_, hclear⟩
    cases h : c.isDigit with
    | false => rfl
    | true => exact (isWordChar_of_isDigit h).symm.trans hadjacent
  | .inr _, .inl c => exact ⟨hdigit hy hadjacent, hclear⟩
  | .inr _, .inr _ => exact hadjacent

end Spreadsheet.Formula
