import Spreadsheet.Literal
import Spreadsheet.Proofs.Arithmetic.Reading
import Spreadsheet.Proofs.Text.Numerals
import Spreadsheet.Proofs.Text.Stripping

/-!
# The tokens of numbers

What is pasted into a formula for a reference is the token of a cell's text or of a rounded result:
a numeral, a numeral with a percent sign behind, or a negative numeral in brackets (`Token`). Each
is an expression of its own, with its own tree.
-/

namespace Spreadsheet

open Text

/-! ## Shapes -/

namespace Arithmetic

/-- A token and its tree. -/
inductive Token : List Char → Tree Empty → Prop
  | plain {text whole fraction : List Char} :
      Numeral text whole fraction → Token text (.number whole fraction)
  | percent {text whole fraction : List Char} :
      Numeral text whole fraction → Token (text ++ ['%']) (.percent (.number whole fraction))
  | negative {text whole fraction : List Char} :
      Numeral text whole fraction →
      Token ('(' :: '-' :: (text ++ [')'])) (.bracket (.negative (.number whole fraction)))

theorem Numeral.derives {text whole fraction : List Char} (h : Numeral text whole fraction) :
    Derives .plain .atom text (.number whole fraction) := by
  have hderives := Derives.number (A := .plain) (w := []) (v := []) nofun h nofun
  rwa [show Alphabet.plain.char = id from rfl, List.map_id, List.nil_append, List.append_nil]
    at hderives

theorem Numeral.derives_negative {text whole fraction : List Char}
    (h : Numeral text whole fraction) :
    Derives .plain .signed ('-' :: text) (.negative (.number whole fraction)) :=
  .negative (w := []) nofun (.ofAtom h.derives)

namespace Token

variable {text p q : List Char} {t : Tree Empty} {c : Char}

/-- A token is a factor. -/
theorem derives (h : Token text t) : Derives .plain .factor text t := by
  cases h with
  | plain h => exact .ofSigned (.ofAtom h.derives)
  | percent h => exact .percent (.ofSigned (.ofAtom h.derives)) (w := []) nofun
  | negative h =>
    exact .ofSigned (.ofAtom (.bracket (w := []) (v := []) nofun h.derives_negative.isSum nofun))

/-- The value of a token is the value of its tree. -/
theorem value (h : Token text t) : valueChars maxNesting text = t.value Empty.elim := by
  have hdepth : t.depth ≤ 3 := by cases h <;> simp [Tree.depth]
  exact h.derives.reads.valueChars_eq (hdepth.trans (by decide))

/-- A token consists of digits, points and what it adds to them. -/
theorem inert_or_mem (h : Token text t) :
    ∀ c ∈ text, (isDigit c = true ∨ c = '.') ∨ c ∈ ['%', '(', '-', ')'] := by
  intro c hc
  cases h with
  | plain h => exact .inl (h.digit_or_point c hc)
  | percent h =>
    rcases List.mem_append.1 hc with hc | hc
    · exact .inl (h.digit_or_point c hc)
    · rw [List.mem_singleton.1 hc]
      exact .inr (by decide)
  | negative h =>
    simp only [List.mem_cons, List.mem_append, List.not_mem_nil, or_false] at hc
    rcases hc with rfl | rfl | hc | rfl
    · exact .inr (by decide)
    · exact .inr (by decide)
    · exact .inl (h.digit_or_point c hc)
    · exact .inr (by decide)

theorem not_isBlank (h : Token text t) : ∀ c ∈ text, isBlank c = false := by
  intro c hc
  have hadded : ∀ c ∈ ['%', '(', '-', ')'], isBlank c = false := by simp [isBlank]
  rcases h.inert_or_mem c hc with (hdigit | rfl) | hmem
  · exact isBlank_of_isDigit hdigit
  · decide
  · exact hadded c hmem

theorem ne_nil (h : Token text t) : text ≠ [] := h.derives.ne_nil

/-- The only operator in a token is the sign behind a bracket. -/
theorem operator (h : Token (p ++ c :: q) t) (hc : c ∈ operators) : p = ['('] := by
  generalize hs : p ++ c :: q = s at h
  have hmem : c ∈ s := hs ▸ List.mem_append_right p List.mem_cons_self
  cases h with
  | plain h => exact absurd hc (inert_of_numeral h c hmem).1
  | percent h =>
    rcases List.mem_append.1 hmem with hmem | hmem
    · exact absurd hc (inert_of_numeral h c hmem).1
    · rw [List.mem_singleton.1 hmem] at hc
      exact absurd hc (by decide)
  | @negative digits _ _ h =>
    have hnot : c ∉ digits ++ [')'] := by
      intro hmem
      rcases List.mem_append.1 hmem with hmem | hmem
      · exact (inert_of_numeral h c hmem).1 hc
      · rw [List.mem_singleton.1 hmem] at hc
        exact absurd hc (by decide)
    have hopen : c ∉ ['('] := by
      intro hmem
      rw [List.mem_singleton.1 hmem] at hc
      exact absurd hc (by decide)
    have hcut : ['('] ++ '-' :: (digits ++ [')']) = p ++ c :: q := hs.symm
    exact ((List.append_cons_inj_of_notMem hopen hnot).1 hcut).1.symm

/-- A percent sign stands at the end of a token, behind a numeral. -/
theorem percent_sign (h : Token (p ++ '%' :: q) t) :
    q = [] ∧
      ∃ whole fraction, Numeral p whole fraction ∧ t = .percent (.number whole fraction) := by
  generalize hs : p ++ '%' :: q = s at h
  have hmem : '%' ∈ s := hs ▸ List.mem_append_right p List.mem_cons_self
  cases h with
  | plain h => exact absurd hmem (h.not_mem (by decide) (by decide))
  | @percent digits whole fraction h =>
    obtain ⟨rfl, -, rfl⟩ := (List.append_cons_inj_of_notMem
      (h.not_mem (by decide) (by decide)) List.not_mem_nil).1 hs.symm
    exact ⟨rfl, whole, fraction, h, rfl⟩
  | negative h =>
    have hnot := h.not_mem (c := '%') (by decide) (by decide)
    simp [hnot] at hmem

/-- A bracket opens a token, before a negative numeral. -/
theorem opening_bracket (h : Token (p ++ '(' :: q) t) :
    p = [] ∧ ∃ digits whole fraction, Numeral digits whole fraction ∧
      q = '-' :: (digits ++ [')']) ∧ t = .bracket (.negative (.number whole fraction)) := by
  generalize hs : p ++ '(' :: q = s at h
  have hmem : '(' ∈ s := hs ▸ List.mem_append_right p List.mem_cons_self
  cases h with
  | plain h => exact absurd hmem (h.not_mem (by decide) (by decide))
  | percent h =>
    have hnot := h.not_mem (c := '(') (by decide) (by decide)
    simp [hnot] at hmem
  | @negative digits whole fraction h =>
    have hnot : '(' ∉ '-' :: (digits ++ [')']) := by
      simp [h.not_mem (c := '(') (by decide) (by decide)]
    obtain ⟨rfl, -, rfl⟩ := (List.append_cons_inj_of_notMem List.not_mem_nil hnot).1 hs.symm
    exact ⟨rfl, digits, whole, fraction, h, rfl, rfl⟩

end Token

end Arithmetic

/-! ## Where tokens come from -/

open Arithmetic

/-! ### Texts of cells -/

namespace Literal

/-- What may follow a numeral is a percent sign, unless a line feed ends the text. -/
theorem eq_percent_of_atEnd {rest : List Char} (hlast : rest.getLast? ≠ some '\n')
    (h : atEnd (dropOptional '%' rest) = true) : rest = [] ∨ rest = ['%'] := by
  have hend : ∀ {l : List Char}, atEnd l = true → l = [] ∨ l = ['\n'] := by
    intro l hl
    match l, hl with
    | [], _ => exact .inl rfl
    | [c], hl => exact .inr (by simpa [atEnd] using hl)
  cases rest with
  | nil => exact .inl rfl
  | cons c rest =>
    rw [dropOptional] at h
    split at h
    · rename_i hc
      rcases hend h with rfl | rfl
      · exact .inr (by rw [beq_iff_eq.1 hc])
      · exact absurd rfl hlast
    · rcases hend h with hnil | hline
      · exact .inl hnil
      · rw [hline] at hlast
        exact absurd rfl hlast

/-- A numeral with an optional percent sign behind is a token. -/
theorem token_of_numeral {text whole fraction rest : List Char} (h : Numeral text whole fraction)
    (hrest : rest = [] ∨ rest = ['%']) : ∃ t, Token (text ++ rest) t := by
  rcases hrest with rfl | rfl
  · rw [List.append_nil]
    exact ⟨_, .plain h⟩
  · exact ⟨_, .percent h⟩

/-- What is read as a number is a numeral and what may follow it. -/
theorem exists_numeral {cs : List Char} (h : isNumeralChars cs = true) :
    ∃ digits whole fraction rest, cs = digits ++ rest ∧ Numeral digits whole fraction ∧
      atEnd (dropOptional '%' rest) = true := by
  have hsplit := List.takeWhile_append_dropWhile (p := isDigit) (l := cs)
  have hdigits : ∀ c ∈ cs.takeWhile isDigit, isDigit c = true := fun c => List.mem_takeWhile_imp
  simp only [isNumeralChars, Bool.and_eq_true, bne_iff_ne] at h
  obtain ⟨hne, h⟩ := h
  split at h
  · rename_i fraction hfraction
    simp only [Bool.and_eq_true, bne_iff_ne] at h
    have hsplit' := List.takeWhile_append_dropWhile (p := isDigit) (l := fraction)
    refine ⟨_, _, _, _, ?_, .point (.inl hne) hdigits
      (fun c (hc : c ∈ fraction.takeWhile isDigit) => List.mem_takeWhile_imp hc), h.2⟩
    rw [List.append_assoc, List.cons_append, hsplit', ← hfraction, hsplit]
  · exact ⟨_, _, _, _, hsplit.symm, .whole hne hdigits, h⟩

/-- A text without blanks at its ends does not end in a line feed. -/
theorem getLast?_ne_of_strip {text : String} (hstrip : strip text = text) :
    text.toList.getLast? ≠ some '\n' := by
  intro hlast
  have hchars : stripChars text.toList = text.toList := by
    have := congrArg String.toList hstrip
    rwa [strip, String.toList_ofList] at this
  rw [← hchars] at hlast
  exact absurd (not_isBlank_of_getLast?_stripRight hlast) (by decide)

theorem dropOptional_cases (c : Char) (cs : List Char) :
    dropOptional c cs = cs ∨ cs = c :: dropOptional c cs := by
  cases cs with
  | nil => exact .inl rfl
  | cons d rest =>
    rw [dropOptional]
    split_ifs with hd
    · exact .inr (by rw [beq_iff_eq.1 hd])
    · exact .inl rfl

/-- An optional percent sign. -/
def percentSign (percent : Bool) : List Char := if percent then ['%'] else []

theorem eq_of_mem_percentSign {percent : Bool} {c : Char} (h : c ∈ percentSign percent) : c = '%' := by
  cases percent with
  | false => cases h
  | true => exact List.mem_singleton.1 h

/-- A literal is an optional dollar sign, a numeral, and an optional percent sign. -/
theorem exists_numeral_of_isComplete {text : String} (hstrip : strip text = text)
    (h : isComplete text = true) :
    ∃ digits whole fraction percent, Numeral digits whole fraction ∧
      dropOptional '$' text.toList = digits ++ percentSign percent := by
  obtain ⟨digits, whole, fraction, rest, hsplit, hnumeral, hend⟩ := exists_numeral h
  have hlast : rest.getLast? ≠ some '\n' := by
    intro hlast
    have hrest : (dropOptional '$' text.toList).getLast? = some '\n' := by
      rw [hsplit, List.getLast?_append, hlast]
      rfl
    rcases dropOptional_cases '$' text.toList with heq | heq
    · exact getLast?_ne_of_strip hstrip (heq ▸ hrest)
    · refine getLast?_ne_of_strip hstrip ?_
      rw [heq, List.getLast?_cons, hrest]
      rfl
  rcases eq_percent_of_atEnd hlast hend with rfl | rfl
  · exact ⟨digits, whole, fraction, false, hnumeral, hsplit⟩
  · exact ⟨digits, whole, fraction, true, hnumeral, hsplit⟩

/-- No character of a numeral is a separator. -/
theorem not_isSeparator {digits whole fraction : List Char} (h : Numeral digits whole fraction)
    {c : Char} (hc : c ∈ digits) : isSeparator c = false := by
  rcases h.digit_or_point c hc with hdigit | rfl
  · have hdollar : c ≠ '$' := ne_of_isDigit hdigit (by decide)
    have hcomma : c ≠ ',' := ne_of_isDigit hdigit (by decide)
    simp [isSeparator, hdollar, hcomma, isBlank_of_isDigit hdigit]
  · decide

/-- Only the dollar sign is dropped from a literal. -/
theorem tokenChars?_eq {cs : List Char}
    (hcs : ∀ c ∈ dropOptional '$' cs, isSeparator c = false)
    (h : isCompleteChars cs = true) : tokenChars? cs = some (dropOptional '$' cs) := by
  have hself : (dropOptional '$' cs).filter (fun c => !isSeparator c) = dropOptional '$' cs :=
    List.filter_eq_self.2 fun c hc => by rw [hcs c hc]; rfl
  have hkept : cs.filter (fun c => !isSeparator c) = dropOptional '$' cs := by
    rcases dropOptional_cases '$' cs with heq | heq
    · rw [← hself, heq]
    · rw [heq, List.filter_cons_of_neg (by decide), ← heq, hself]
  have hne : (dropOptional '$' cs).isEmpty = false := by
    rw [List.isEmpty_eq_false_iff]
    intro hnil
    rw [isCompleteChars, hnil] at h
    exact absurd h (by decide)
  rw [tokenChars?, hkept, hne]
  exact if_pos h

/-- What is read as a number is a token if it has no blanks. -/
theorem token_of_isNumeralChars {cs : List Char} (hblank : ∀ c ∈ cs, isBlank c = false)
    (h : isNumeralChars cs = true) : ∃ t, Token cs t := by
  obtain ⟨digits, whole, fraction, rest, rfl, hnumeral, hend⟩ := exists_numeral h
  refine token_of_numeral hnumeral (eq_percent_of_atEnd (fun hlast => ?_) hend)
  have hline := hblank '\n' (List.mem_append_right _ (List.mem_of_getLast? hlast))
  exact absurd hline (by decide)

/-- The text of a cell that is a number has a token. -/
theorem token_of_tokenChars? {cs text : List Char} (h : tokenChars? cs = some text) :
    ∃ t, Token text t := by
  simp only [tokenChars?] at h
  split at h
  · cases h
    exact ⟨_, .plain (.whole (by simp) (fun c hc => List.mem_singleton.1 hc ▸ by decide))⟩
  · split at h
    · rename_i hnumeral
      cases h
      refine token_of_isNumeralChars (fun c hc => ?_) hnumeral
      have hkept := (List.mem_filter.1 hc).2
      simp only [isSeparator, Bool.not_eq_true', Bool.or_eq_false_iff] at hkept
      exact hkept.2
    · cases h

end Literal

/-! ### Results -/

namespace Number

/-- The digits of the fraction of hundredths. -/
theorem exists_fraction {cents : Nat} (h : cents < 100) :
    ∃ fraction, Hundredths.fractionChars cents = (if fraction = [] then [] else '.' :: fraction) ∧
      (∀ c ∈ fraction, c.isDigit = true) ∧ fraction.getLast? ≠ some '0' ∧
      numeralValue fraction * 100 = cents * 10 ^ fraction.length := by
  have hvalue : ∀ {d}, d < 10 → (digitValue? (Nat.digitChar d)).getD 0 = d := by decide
  have hlast : ∀ {d}, d < 10 → d ≠ 0 → Nat.digitChar d ≠ '0' := by decide
  unfold Hundredths.fractionChars
  split_ifs with hnone htenths
  · exact ⟨[], by simp, by simp, by simp, by simp [hnone, numeralValue]⟩
  · refine ⟨[Nat.digitChar (cents / 10)], by simp, by simp; omega,
      by simpa using hlast (d := cents / 10) (by omega) (by omega), ?_⟩
    have hread := hvalue (d := cents / 10) (by omega)
    simp only [numeralValue, List.foldl, List.length, hread]
    omega
  · refine ⟨[Nat.digitChar (cents / 10), Nat.digitChar (cents % 10)], by simp,
      by simp; omega, by simpa using hlast (d := cents % 10) (by omega) htenths, ?_⟩
    have hread := hvalue (d := cents / 10) (by omega)
    have hread' := hvalue (d := cents % 10) (by omega)
    simp only [numeralValue, List.foldl, List.length, hread, hread']
    omega

/-- The text of hundredths without a sign is a numeral. -/
theorem numeral_hundredths (count : Nat) :
    ∃ whole fraction,
      Numeral (decimalChars (count / 100) ++ Hundredths.fractionChars (count % 100)) whole fraction := by
  obtain ⟨fraction, hchars, hfraction, -, -⟩ :=
    exists_fraction (Nat.mod_lt count (by decide : 0 < 100))
  have hdigits : ∀ c ∈ decimalChars (count / 100), isDigit c = true :=
    fun c => isDigit_of_mem_decimalChars
  rw [hchars]
  split_ifs
  · rw [List.append_nil]
    exact ⟨_, _, .whole (decimalChars_ne_nil _) hdigits⟩
  · exact ⟨_, _, .point (.inl (decimalChars_ne_nil _)) hdigits
      fun c hc => isDigit_of_ascii (hfraction c hc)⟩

theorem displayChars_of_read {x : Float} {negative : Bool} {units : Nat}
    (h : read x = .finite negative units) :
    displayChars x = (Hundredths.ofUnits negative units).chars := by
  rw [displayChars, h]

/-- The token of hundredths; those below zero stand in brackets. -/
theorem toList_token {x : Float} {h : Hundredths} (hx : displayChars x = h.chars) :
    (token x).toList =
      if h.negative && h.count != 0 then
        '(' :: '-' ::
          (decimalChars (h.count / 100) ++ Hundredths.fractionChars (h.count % 100) ++ [')'])
      else decimalChars (h.count / 100) ++ Hundredths.fractionChars (h.count % 100) := by
  obtain ⟨whole, fraction, hnumeral⟩ := numeral_hundredths h.count
  have hminus : '-' ∉ _ := hnumeral.not_mem (c := '-') (by decide) (by decide)
  unfold token
  rw [hx, Hundredths.chars]
  generalize decimalChars _ ++ Hundredths.fractionChars _ = text at *
  split_ifs with hneg
  · exact String.toList_ofList
  · split
    · exact absurd List.mem_cons_self hminus
    · exact String.toList_ofList

/-- A finite result has a token. -/
theorem token_of_isFinite {x : Float} (h : isFinite x = true) :
    ∃ t, Token (token x).toList t := by
  unfold isFinite at h
  split at h
  · rename_i negative units hread
    obtain ⟨whole, fraction, hnumeral⟩ :=
      numeral_hundredths (Hundredths.ofUnits negative units).count
    rw [toList_token (displayChars_of_read hread)]
    split_ifs
    · exact ⟨_, .negative hnumeral⟩
    · exact ⟨_, .plain hnumeral⟩
  · cases h

end Number

end Spreadsheet
