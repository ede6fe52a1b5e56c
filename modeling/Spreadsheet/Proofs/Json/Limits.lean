import Mathlib.Data.List.Infix
import Mathlib.Data.List.TakeWhile
import Spreadsheet.Json.Plain
import Spreadsheet.Json.Reader

/-!
# Texts that are beyond the limits of a reader

Two kinds of texts are not read although their grammar may be right.

**Theorem (`digits_of_longInteger`).** A whole number is too long only where so many digits stand in a
row in the text.

**Theorem (`openings_of_tooDeep`).** Brackets are too deep only in a text that opens more of them than
may stand inside each other.

Tokens are cut off one after another, so what is left is always the end of the text
(`suffix_stringUnits?`, `scalar?_cases`), and no token opens a bracket but one for a bracket in the
text. The machine opens one level at most with each token (`step_cases`).
-/

namespace Spreadsheet.Json

open Text

/-! ## What is cut off -/

/-- A part of a string, in front of others. -/
theorem suffix_of_map {u : StringUnit} {us : List StringUnit} {cs more rest : List Char}
    (hrest : ∀ {vs r}, stringUnits? cs = some (vs, r) → r <:+ cs)
    (h : (stringUnits? cs).map (fun p => (u :: p.1, p.2)) = some (us, rest)) (hmore : cs <:+ more) :
    rest <:+ more := by
  obtain ⟨⟨vs, r⟩, hp, hq⟩ := Option.map_eq_some_iff.1 h
  cases hq
  exact (hrest hp).trans hmore

theorem suffix_stringUnits? {cs : List Char} {us : List StringUnit} {rest : List Char}
    (h : stringUnits? cs = some (us, rest)) : rest <:+ cs := by
  fun_induction stringUnits? cs generalizing us rest with
  | case1 => cases h
  | case2 rest' =>
    cases h
    exact List.suffix_cons _ _
  | case3 => cases h
  | case4 a b c d r n hn ih => exact suffix_of_map ih h ⟨['\\', 'u', a, b, c, d], rfl⟩
  | case5 => cases h
  | case6 c r hc e he ih => exact suffix_of_map ih h ⟨['\\', c], rfl⟩
  | case7 bits r ih => exact suffix_of_map ih h ⟨['\x01', bits], rfl⟩
  | case8 => cases h
  | case9 c r h1 h2 h3 h4 hc ih => exact suffix_of_map ih h ⟨[c], rfl⟩

theorem eq_append_of_digits? {cs ds rest : List Char} (h : digits? cs = some (ds, rest)) :
    cs = ds ++ rest ∧ ∀ c ∈ ds, c.isDigit = true := by
  unfold digits? at h
  dsimp only at h
  split at h
  · cases h
  · cases h
    exact ⟨List.takeWhile_append_dropWhile.symm, fun c => List.mem_takeWhile_imp⟩

theorem suffix_digits? {cs ds rest : List Char} (h : digits? cs = some (ds, rest)) :
    rest <:+ cs :=
  ⟨ds, (eq_append_of_digits? h).1.symm⟩

theorem eq_append_of_wholePart? {cs ds rest : List Char} (h : wholePart? cs = some (ds, rest)) :
    cs = ds ++ rest ∧ ∀ c ∈ ds, c.isDigit = true := by
  unfold wholePart? at h
  split at h
  · cases h
    exact ⟨rfl, by simp⟩
  · exact eq_append_of_digits? h

theorem suffix_fraction? {cs ds rest : List Char} (h : fraction? cs = some (ds, rest)) :
    rest <:+ cs := by
  unfold fraction? at h
  split at h
  · exact (suffix_digits? h).trans (List.suffix_cons _ _)
  · cases h

theorem suffix_exponent? {cs rest : List Char} {e : Int} (h : exponent? cs = some (e, rest)) :
    rest <:+ cs := by
  have hmap : ∀ {f : List Char × List Char → Int} {xs : List Char},
      (digits? xs).map (fun p => (f p, p.2)) = some (e, rest) → rest <:+ xs := by
    intro f xs hxs
    obtain ⟨⟨ds, r⟩, hd, hr⟩ := Option.map_eq_some_iff.1 hxs
    cases hr
    exact suffix_digits? hd
  unfold exponent? at h
  split at h
  · split at h
    · split at h
      · exact (hmap h).trans ⟨[_, _], rfl⟩
      · exact (hmap h).trans ⟨[_, _], rfl⟩
      · exact (hmap h).trans (List.suffix_cons _ _)
    · cases h
  · cases h

theorem suffix_afterWord? {word cs rest : List Char} (h : afterWord? word cs = some rest) :
    rest <:+ cs := by
  fun_induction afterWord? word cs with
  | case1 cs =>
    cases h
    exact List.suffix_refl _
  | case2 => cases h
  | case3 w word c cs hc ih => exact (ih h).trans (List.suffix_cons c cs)
  | case4 => cases h

/-! ## Long integers -/

/-- A text has so many decimal digits in a row. -/
def HasDigits (cs : List Char) (n : Nat) : Prop :=
  ∃ ds, ds.length = n ∧ (∀ c ∈ ds, c.isDigit = true) ∧ ds <:+: cs

theorem HasDigits.mono {cs more : List Char} {n : Nat} (h : HasDigits cs n)
    (hpart : cs <:+: more) : HasDigits more n := by
  obtain ⟨ds, hlength, hdigits, hin⟩ := h
  exact ⟨ds, hlength, hdigits, hin.trans hpart⟩

/-- A token for a number or a word of a text, with no other values in it. A whole number that is too
long has all its digits in the text. -/
def ScalarOf (cs : List Char) (t : Token) : Prop :=
  (∃ v, t = .scalar v ∧ v.depth = 1) ∨ ∃ n, t = .longInteger n ∧ maxNumeralDigits < n ∧ HasDigits cs n

theorem ScalarOf.mono {cs more : List Char} {t : Token} (h : ScalarOf cs t) (hpart : cs <:+: more) :
    ScalarOf more t := by
  rcases h with hscalar | ⟨n, ht, hlong, hdigits⟩
  · exact .inl hscalar
  · exact .inr ⟨n, ht, hlong, hdigits.mono hpart⟩

theorem number?_cases {negative : Bool} {cs rest : List Char} {t : Token}
    (h : number? negative cs = some (t, rest)) : ScalarOf cs t ∧ rest <:+ cs := by
  unfold number? at h
  split at h
  · cases h
  · rename_i whole r hwhole
    obtain ⟨hcs, hdigits⟩ := eq_append_of_wholePart? hwhole
    have hr : r <:+ cs := ⟨whole, hcs.symm⟩
    split at h
    · split at h
      · rename_i hlong
        cases h
        exact ⟨.inr ⟨_, rfl, hlong, whole, rfl, hdigits, [], rest, hcs.symm⟩, hr⟩
      · cases h
        exact ⟨.inl ⟨_, rfl, rfl⟩, hr⟩
    · rename_i fraction exponent hne
      simp only [Option.some.injEq, Prod.mk.injEq] at h
      obtain ⟨ht, hrest⟩ := h
      refine ⟨.inl ⟨_, ht.symm, rfl⟩, ?_⟩
      have hafter : (fraction? r).elim r Prod.snd <:+ r := by
        cases hf : fraction? r with
        | none => exact List.suffix_refl r
        | some p => exact suffix_fraction? hf
      rw [← hrest]
      cases he : exponent? ((fraction? r).elim r Prod.snd) with
      | none => exact hafter.trans hr
      | some p => exact (suffix_exponent? he).trans (hafter.trans hr)

theorem depth_of_mem_words {w : String × Json} (h : w ∈ words) : w.2.depth = 1 := by
  simp only [words, List.mem_cons, List.not_mem_nil, or_false] at h
  rcases h with rfl | rfl | rfl | rfl | rfl | rfl <;> rfl

theorem word?_cases {first : Char} {cs rest : List Char} {t : Token}
    (h : word? first cs = some (t, rest)) : (∃ v, t = .scalar v ∧ v.depth = 1) ∧ rest <:+ cs := by
  unfold word? at h
  obtain ⟨w, hmem, hw⟩ := List.exists_of_findSome?_eq_some h
  split at hw
  · split at hw
    · obtain ⟨r, hr, hq⟩ := Option.map_eq_some_iff.1 hw
      cases hq
      exact ⟨⟨_, rfl, depth_of_mem_words hmem⟩, suffix_afterWord? hr⟩
    · cases hw
  · cases hw

theorem scalar?_cases {c : Char} {cs rest : List Char} {t : Token}
    (h : scalar? c cs = some (t, rest)) : ScalarOf (c :: cs) t ∧ rest <:+ c :: cs := by
  have hword : ∀ {first : Char}, word? first cs = some (t, rest) →
      ScalarOf (c :: cs) t ∧ rest <:+ c :: cs := by
    intro first hword
    obtain ⟨hscalar, hrest⟩ := word?_cases hword
    exact ⟨.inl hscalar, hrest.trans (List.suffix_cons c cs)⟩
  unfold scalar? at h
  split at h
  · exact number?_cases h
  · split at h
    · rcases Option.or_eq_some_iff.1 h with h | ⟨-, h⟩
      · exact hword h
      · obtain ⟨hscalar, hrest⟩ := number?_cases h
        exact ⟨hscalar.mono (List.suffix_cons c cs).isInfix, hrest.trans (List.suffix_cons c cs)⟩
    · exact hword h

/-! ## Tokens of a text -/

/-- The characters that open brackets. -/
def isOpeningChar (c : Char) : Bool := c == '[' || c == '{'

/-- The tokens that open brackets. -/
def Token.isOpening : Token → Bool
  | .openArray | .openObject => true
  | _ => false

/-- A bracket of a text is a token of its own, and all other tokens are cut from the text too. -/
theorem punctuation?_isOpening {c : Char} {t : Token} (h : punctuation? c = some t) :
    t.isOpening = isOpeningChar c ∧ ∀ n, t ≠ .longInteger n := by
  unfold punctuation? at h
  split at h <;> cases h <;> exact ⟨rfl, fun _ => Token.noConfusion⟩

theorem ScalarOf.isOpening_eq_false {cs : List Char} {t : Token} (h : ScalarOf cs t) :
    t.isOpening = false := by
  rcases h with ⟨v, rfl, -⟩ | ⟨n, rfl, -⟩ <;> rfl

/-- All brackets of which there are tokens stand in the text. -/
theorem openings_tokens (cs : List Char) :
    (tokens cs).countP Token.isOpening ≤ cs.countP isOpeningChar := by
  fun_induction tokens cs with
  | case1 => exact Nat.le_refl 0
  | case2 c rest hspace ih =>
    rw [List.countP_cons]
    exact Nat.le_trans ih (Nat.le_add_right _ _)
  | case3 c rest hspace t ht ih =>
    rw [List.countP_cons, List.countP_cons, (punctuation?_isOpening ht).1]
    exact Nat.add_le_add_right ih _
  | case4 c rest hspace hnone hquote units after hunits ih =>
    have hafter := (suffix_stringUnits? hunits).sublist.countP_le (p := isOpeningChar)
    rw [List.countP_cons, List.countP_cons, if_neg (by simp [Token.isOpening])]
    omega
  | case5 => exact Nat.zero_le _
  | case6 c rest hspace hnone hquote t after hscalar ih =>
    obtain ⟨ht, hrest⟩ := scalar?_cases hscalar
    rw [List.countP_cons, ht.isOpening_eq_false, if_neg Bool.false_ne_true]
    exact Nat.le_trans ih hrest.sublist.countP_le
  | case7 => exact Nat.zero_le _

/-- The digits of a whole number that is too long stand in the text. -/
theorem digits_of_mem_tokens {cs : List Char} {n : Nat} (h : .longInteger n ∈ tokens cs) :
    maxNumeralDigits < n ∧ HasDigits cs n := by
  have hmore : ∀ {cs more : List Char}, cs <:+ more → maxNumeralDigits < n ∧ HasDigits cs n →
      maxNumeralDigits < n ∧ HasDigits more n :=
    fun hsuffix h => ⟨h.1, h.2.mono hsuffix.isInfix⟩
  fun_induction tokens cs with
  | case1 => cases h
  | case2 c rest hspace ih => exact hmore (List.suffix_cons c rest) (ih h)
  | case3 c rest hspace t ht ih =>
    rcases List.mem_cons.1 h with heq | h
    · exact absurd heq.symm ((punctuation?_isOpening ht).2 n)
    · exact hmore (List.suffix_cons c rest) (ih h)
  | case4 c rest hspace hnone hquote units after hunits ih =>
    rcases List.mem_cons.1 h with heq | h
    · cases heq
    · exact hmore ((suffix_stringUnits? hunits).trans (List.suffix_cons c rest)) (ih h)
  | case5 =>
    cases List.mem_singleton.1 h
  | case6 c rest hspace hnone hquote t after hscalar ih =>
    obtain ⟨ht, hrest⟩ := scalar?_cases hscalar
    rcases List.mem_cons.1 h with rfl | h
    · rcases ht with ⟨v, hv, -⟩ | ⟨m, hm, hdigits⟩
      · cases hv
      · exact Token.longInteger.inj hm ▸ hdigits
    · exact hmore hrest (ih h)
  | case7 => cases List.mem_singleton.1 h

/-! ## The machine -/

/-- How many arrays and objects are open at a place. -/
def Place.depth : Place → Nat
  | .value stack => stack.length
  | .firstItem stack | .afterItem _ stack | .firstKey stack | .key _ stack | .colon _ _ stack
  | .afterEntry _ stack => stack.length + 1
  | .done _ => 0

theorem depth_deliver (v : Json) (stack : List Frame) : (deliver v stack).depth = stack.length := by
  cases stack with
  | nil => rfl
  | cons f stack => cases f <;> rfl

/-- What a token does that starts a value. -/
theorem beginValue_cases {stack : List Frame} {t : Token} {result : Except JsonError Place}
    (h : beginValue stack t = result) :
    (∃ place, result = .ok place ∧ place.depth ≤ stack.length + t.isOpening.toNat) ∨
      (∃ b, result = .error (.tooDeep b) ∧ t.isOpening = true ∧ maxDepth ≤ stack.length) ∨
      (∃ n, result = .error (.longInteger n) ∧ t = .longInteger n) ∨ result = .error .malformed := by
  have hopen : ∀ b, (∃ place, openBracket stack b = .ok place ∧ place.depth ≤ stack.length + 1) ∨
      (openBracket stack b = .error (.tooDeep b) ∧ maxDepth ≤ stack.length) := by
    intro b
    unfold openBracket
    split
    · cases b <;> exact .inl ⟨_, rfl, Nat.le_refl _⟩
    · rename_i hdeep
      exact .inr ⟨rfl, Nat.not_lt.1 hdeep⟩
  rw [← h]
  cases t with
  | openArray =>
    rcases hopen .array with ⟨place, hplace, hdepth⟩ | ⟨herror, hdeep⟩
    · exact .inl ⟨place, hplace, hdepth⟩
    · exact .inr (.inl ⟨.array, herror, rfl, hdeep⟩)
  | openObject =>
    rcases hopen .object with ⟨place, hplace, hdepth⟩ | ⟨herror, hdeep⟩
    · exact .inl ⟨place, hplace, hdepth⟩
    · exact .inr (.inl ⟨.object, herror, rfl, hdeep⟩)
  | string s => exact .inl ⟨_, rfl, Nat.le_of_eq (depth_deliver _ _)⟩
  | scalar v => exact .inl ⟨_, rfl, Nat.le_of_eq (depth_deliver _ _)⟩
  | longInteger n => exact .inr (.inr (.inl ⟨n, rfl, rfl⟩))
  | _ => exact .inr (.inr (.inr rfl))

/-- **The step lemma.** A token opens one level at most. -/
theorem step_cases {place : Place} {t : Token} {result : Except JsonError Place}
    (h : step place t = result) :
    (∃ next, result = .ok next ∧ next.depth ≤ place.depth + t.isOpening.toNat) ∨
      (∃ b, result = .error (.tooDeep b) ∧ t.isOpening = true ∧ maxDepth ≤ place.depth) ∨
      (∃ n, result = .error (.longInteger n) ∧ t = .longInteger n) ∨ result = .error .malformed := by
  unfold step at h
  split at h
  · exact beginValue_cases h
  · exact .inl ⟨_, h.symm, by rw [depth_deliver]; exact Nat.le_succ _⟩
  · exact beginValue_cases h
  · exact .inl ⟨_, h.symm, Nat.le_refl _⟩
  · exact .inl ⟨_, h.symm, by rw [depth_deliver]; exact Nat.le_succ _⟩
  · exact .inl ⟨_, h.symm, by rw [depth_deliver]; exact Nat.le_succ _⟩
  · exact .inl ⟨_, h.symm, Nat.le_refl _⟩
  · exact .inl ⟨_, h.symm, Nat.le_refl _⟩
  · exact .inl ⟨_, h.symm, Nat.le_refl _⟩
  · exact .inl ⟨_, h.symm, Nat.le_refl _⟩
  · exact .inl ⟨_, h.symm, by rw [depth_deliver]; exact Nat.le_succ _⟩
  · exact .inr (.inr (.inr h.symm))

/-- **The run lemma.** -/
theorem run_error {place : Place} {ts : List Token} {e : JsonError} (h : run place ts = .error e) :
    (∀ b, e = .tooDeep b → maxDepth < place.depth + ts.countP Token.isOpening) ∧
      ∀ n, e = .longInteger n → .longInteger n ∈ ts := by
  induction ts generalizing place with
  | nil =>
    unfold run at h
    split at h
    · cases h
    · obtain rfl := Except.error.inj h
      exact ⟨fun _ => JsonError.noConfusion, fun _ => JsonError.noConfusion⟩
    · rename_i heq
      cases heq
  | cons t rest ih =>
    rw [run] at h
    cases hstep : step place t with
    | ok next =>
      rw [hstep] at h
      obtain ⟨hdeep, hlong⟩ := ih h
      have hdepth : next.depth ≤ place.depth + t.isOpening.toNat := by
        rcases step_cases hstep with ⟨_, hnext, hdepth⟩ | ⟨_, herror, -⟩ | ⟨_, herror, -⟩ | herror
        · exact Except.ok.inj hnext ▸ hdepth
        · cases herror
        · cases herror
        · cases herror
      refine ⟨fun b hb => ?_, fun n hn => List.mem_cons_of_mem t (hlong n hn)⟩
      have hrest := hdeep b hb
      rw [List.countP_cons]
      cases hopening : t.isOpening <;> rw [hopening] at hdepth <;>
        simp only [Bool.toNat_false, Bool.toNat_true, Bool.false_eq_true, if_true, if_false]
          at hdepth ⊢ <;> omega
    | error e' =>
      rw [hstep] at h
      obtain rfl := Except.error.inj h
      rcases step_cases hstep with ⟨_, hnext, -⟩ | ⟨b, herror, hopening, hdeep⟩ | ⟨n, herror, rfl⟩ |
        herror
      · cases hnext
      · obtain rfl := Except.error.inj herror
        refine ⟨fun _ _ => ?_, fun _ => JsonError.noConfusion⟩
        rw [List.countP_cons, if_pos hopening]
        omega
      · obtain rfl := Except.error.inj herror
        refine ⟨fun _ => JsonError.noConfusion, fun m hm => ?_⟩
        obtain rfl := JsonError.longInteger.inj hm
        exact List.mem_cons_self
      · obtain rfl := Except.error.inj herror
        exact ⟨fun _ => JsonError.noConfusion, fun _ => JsonError.noConfusion⟩

/-! ## Texts -/

/-- The character that stands for one of a text that is cut into tokens. -/
def markedChar (c : Char) : Char := if c = surrogateMark then '\x02' else c

theorem flatMap_marked_toNat (cs : List Char) :
    (cs.map Char.toNat).flatMap marked = cs.map markedChar := by
  induction cs with
  | nil => rfl
  | cons c cs ih =>
    have hc : marked c.toNat = [markedChar c] := by
      unfold marked markedChar
      rw [isSurrogate_toNat, if_neg Bool.false_ne_true, Char.ofNat_toNat]
      by_cases h : c = surrogateMark
      · rw [if_pos h, if_pos (congrArg Char.toNat h)]
      · rw [if_neg h, if_neg fun hcode => h (Char.toNat_inj.1 hcode)]
    rw [List.map_cons, List.flatMap_cons, ih, hc]
    rfl

theorem isOpeningChar_markedChar (c : Char) :
    isOpeningChar (markedChar c) = isOpeningChar c := by
  unfold markedChar
  split
  · rename_i h
    rw [h]
    decide
  · rfl

theorem eq_of_isDigit_markedChar {c : Char} (h : (markedChar c).isDigit = true) :
    markedChar c = c := by
  unfold markedChar at h ⊢
  split
  · rename_i hc
    rw [if_pos hc] at h
    exact absurd h (by decide)
  · rfl

theorem HasDigits.of_marked {cs : List Char} {n : Nat} (h : HasDigits (cs.map markedChar) n) :
    HasDigits cs n := by
  obtain ⟨ds, hlength, hdigits, before, after, hmap⟩ := h
  obtain ⟨front, back, hcs, hfront, -⟩ := List.append_eq_map_iff.1 hmap
  obtain ⟨first, es, rfl, -, hes⟩ := List.append_eq_map_iff.1 hfront.symm
  have hsame : es = ds := by
    rw [← hes]
    refine ((List.map_congr_left fun c hc => ?_).trans (List.map_id es)).symm
    exact eq_of_isDigit_markedChar (hdigits _ (hes ▸ List.mem_map_of_mem hc))
  exact ⟨ds, hlength, hdigits, first, back, by rw [hcs, hsame]⟩

variable {cs : List Char}

/-- **A whole number is too long** only where so many digits stand in a row. -/
theorem digits_of_longInteger {n : Nat} (h : parseChars cs = .error (.longInteger n)) :
    maxNumeralDigits < n ∧ HasDigits cs n := by
  rw [parseChars, parseCodes, flatMap_marked_toNat] at h
  obtain ⟨hlong, hdigits⟩ := digits_of_mem_tokens ((run_error h).2 n rfl)
  exact ⟨hlong, HasDigits.of_marked hdigits⟩

/-- **Brackets are too deep** only where too many are opened. -/
theorem openings_of_tooDeep {b : Bracket} (h : parseChars cs = .error (.tooDeep b)) :
    maxDepth < cs.countP isOpeningChar := by
  rw [parseChars, parseCodes, flatMap_marked_toNat] at h
  have hdepth := (run_error h).1 b rfl
  have hopenings := openings_tokens (cs.map markedChar)
  have hsame : isOpeningChar ∘ markedChar = isOpeningChar := funext isOpeningChar_markedChar
  rw [List.countP_map, hsame] at hopenings
  have hstart : (Place.value []).depth = 0 := rfl
  omega

end Spreadsheet.Json
