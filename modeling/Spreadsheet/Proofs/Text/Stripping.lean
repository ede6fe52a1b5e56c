import Mathlib.Data.List.TakeWhile
import Spreadsheet.Text.Blank
import Spreadsheet.Text.Digit

/-!
# Stripped texts

A text is stripped of the blanks at both ends, and of nothing else. So a stripped text is not
stripped any further (`strip_strip`).
-/

namespace Spreadsheet.Text

/-! ## What is stripped -/

theorem stripRight_cons (c : Char) (cs : List Char) :
    stripRight (c :: cs) =
      if (stripRight cs).isEmpty && isBlank c then [] else c :: stripRight cs := rfl

theorem stripRight_append (xs ys : List Char) :
    stripRight (xs ++ ys) =
      if (stripRight ys).isEmpty then stripRight xs else xs ++ stripRight ys := by
  induction xs with
  | nil =>
    rw [List.nil_append, List.nil_append]
    cases stripRight ys <;> rfl
  | cons c xs ih =>
    rw [List.cons_append, stripRight_cons, ih]
    cases h : (stripRight ys).isEmpty with
    | true => rfl
    | false =>
      have hne : (xs ++ stripRight ys).isEmpty = false := by
        rw [List.isEmpty_eq_false_iff] at h ⊢
        exact List.append_ne_nil_of_right_ne_nil xs h
      simp only [Bool.false_eq_true, if_false, hne, Bool.false_and, List.cons_append]

theorem stripRight_append_of_ne_nil {xs ys : List Char} (h : stripRight ys ≠ []) :
    stripRight (xs ++ ys) = xs ++ stripRight ys := by
  rw [stripRight_append, if_neg (by simpa using h)]

theorem stripRight_of_all {w : List Char} (h : ∀ c ∈ w, isBlank c = true) : stripRight w = [] := by
  induction w with
  | nil => rfl
  | cons c w ih =>
    rw [stripRight_cons, ih fun x hx => h x (List.mem_cons_of_mem _ hx), h c List.mem_cons_self]
    rfl

/-- A text ends where its blanks begin, if there is no blank at the end. -/
theorem stripRight_concat_of_not_blank {c : Char} (h : isBlank c = false) (xs : List Char)
    {w : List Char} (hw : ∀ c ∈ w, isBlank c = true) : stripRight (xs ++ c :: w) = xs ++ [c] := by
  have hc : stripRight (c :: w) = [c] := by
    rw [stripRight_cons, stripRight_of_all hw, h]
    rfl
  rw [stripRight_append_of_ne_nil (by simp [hc]), hc]

/-- What is stripped at the end is blank. -/
theorem exists_stripRight (cs : List Char) :
    ∃ w, cs = stripRight cs ++ w ∧ ∀ c ∈ w, isBlank c = true := by
  induction cs with
  | nil => exact ⟨[], rfl, nofun⟩
  | cons c cs ih =>
    obtain ⟨w, hcs, hw⟩ := ih
    rw [stripRight_cons]
    by_cases h : ((stripRight cs).isEmpty && isBlank c) = true
    · rw [if_pos h]
      obtain ⟨hnil, hc⟩ := Bool.and_eq_true_iff.1 h
      rw [List.isEmpty_iff.1 hnil, List.nil_append] at hcs
      refine ⟨c :: w, by rw [hcs, List.nil_append], fun x hx => ?_⟩
      rcases List.mem_cons.1 hx with rfl | hx
      · exact hc
      · exact hw x hx
    · rw [if_neg h]
      exact ⟨w, by rw [List.cons_append, ← hcs], hw⟩

/-- What is stripped at both ends is blank. -/
theorem exists_stripChars (cs : List Char) :
    ∃ w v, cs = w ++ (stripChars cs ++ v) ∧ (∀ c ∈ w, isBlank c = true) ∧
      ∀ c ∈ v, isBlank c = true := by
  obtain ⟨v, hv, hblank⟩ := exists_stripRight (cs.dropWhile isBlank)
  refine ⟨cs.takeWhile isBlank, v, ?_, fun c => List.mem_takeWhile_imp, hblank⟩
  rw [stripChars, ← hv, List.takeWhile_append_dropWhile]

theorem not_isBlank_of_getLast?_stripRight {cs : List Char} {c : Char}
    (h : (stripRight cs).getLast? = some c) : isBlank c = false := by
  induction cs with
  | nil => cases h
  | cons x cs ih =>
    rw [stripRight_cons] at h
    split at h
    · cases h
    · rename_i hkeep
      rw [List.getLast?_cons] at h
      cases hlast : (stripRight cs).getLast? with
      | some y =>
        rw [hlast] at h
        cases h
        exact ih hlast
      | none =>
        rw [hlast] at h
        cases h
        rw [List.getLast?_eq_none_iff.1 hlast] at hkeep
        simpa using hkeep

theorem not_isBlank_of_head?_stripChars {cs : List Char} {c : Char}
    (h : (stripChars cs).head? = some c) : isBlank c = false := by
  obtain ⟨v, hv, -⟩ := exists_stripRight (cs.dropWhile isBlank)
  have hhead : (cs.dropWhile isBlank).head? = some c := by
    rw [hv, List.head?_append, ← stripChars, h]
    rfl
  have hnot := List.head?_dropWhile_not isBlank cs
  rw [hhead] at hnot
  simpa using hnot

theorem stripChars_subset (cs : List Char) : stripChars cs ⊆ cs := by
  obtain ⟨w, v, hcs, -, -⟩ := exists_stripChars cs
  intro c hc
  rw [hcs]
  exact List.mem_append_right _ (List.mem_append_left _ hc)

theorem isBlank_of_isDigit {c : Char} (h : isDigit c = true) : isBlank c = false := by
  have hall : ∀ z ∈ zeroCodes, ∀ k < 10, isBlank (Char.ofNat (z + k)) = false := by decide
  obtain ⟨z, hz, k, hk, hc⟩ := exists_zero_of_isDigit h
  have hblank := hall z hz k hk
  rwa [← hc, Char.ofNat_toNat] at hblank

/-! ## Stripping twice -/

theorem stripRight_stripRight (cs : List Char) : stripRight (stripRight cs) = stripRight cs := by
  cases hlast : (stripRight cs).getLast? with
  | none =>
    rw [List.getLast?_eq_none_iff.1 hlast]
    rfl
  | some c =>
    obtain ⟨ys, hys⟩ := List.getLast?_eq_some_iff.1 hlast
    have hblanks : ∀ c ∈ ([] : List Char), isBlank c = true := by simp
    rw [hys, stripRight_concat_of_not_blank (not_isBlank_of_getLast?_stripRight hlast) ys hblanks]

theorem stripChars_stripChars (cs : List Char) : stripChars (stripChars cs) = stripChars cs := by
  have hfront : (stripChars cs).dropWhile isBlank = stripChars cs := by
    cases hcs : stripChars cs with
    | nil => rfl
    | cons c rest =>
      have hc : isBlank c = false := not_isBlank_of_head?_stripChars (hcs ▸ List.head?_cons)
      rw [List.dropWhile_cons, hc]
      rfl
  have hstrip : stripChars (stripChars cs) = stripRight (stripChars cs) :=
    congrArg stripRight hfront
  rw [hstrip, stripChars, stripRight_stripRight]

theorem strip_strip (text : String) : strip (strip text) = strip text := by
  unfold strip
  rw [String.toList_ofList, stripChars_stripChars]

end Spreadsheet.Text
