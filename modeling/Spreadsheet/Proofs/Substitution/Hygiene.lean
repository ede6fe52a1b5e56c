import Spreadsheet.Proofs.Substitution.Symbols

/-!
# Substitution is hygienic

Main result: `substitution_hygienic`. If no reference touches a point, then the text with tokens in
place of the references has a value exactly if the body itself is an expression with the references
as atoms, and then the value is that of the body's tree, each reference standing for the number of
its token.

A point is the one neighbour that a token does not stand apart from: in `A1.5` the token and the
fraction merge into another number (`token_merges_with_point`).
-/

namespace Spreadsheet

open Arithmetic Text

/-! ## Names in trees -/

namespace Arithmetic

variable {ν : Type} {w : List (Char ⊕ ν)} {u : Tree ν} {L : Level} {n : ν}
  {values values' : ν → Except EvaluationError Float} {v : Float}

/-- The names in a tree. -/
def Tree.names : Tree ν → List ν
  | .number _ _ => []
  | .name n => [n]
  | .bracket t | .negative t | .positive t | .percent t => t.names
  | .binary l _ r => l.names ++ r.names

theorem Tree.value_congr (h : ∀ n ∈ u.names, values n = values' n) :
    u.value values = u.value values' := by
  induction u with
  | number whole fraction => rfl
  | name n => exact h n List.mem_cons_self
  | bracket t ih | positive t ih => exact ih h
  | negative t ih | percent t ih => rw [Tree.value, Tree.value, ih h]
  | binary l op r ihl ihr =>
    rw [Tree.value, Tree.value, ihl fun n hn => h n (List.mem_append_left _ hn),
      ihr fun n hn => h n (List.mem_append_right _ hn)]

/-- If a tree has a value, its names have. -/
theorem Tree.name_value (h : u.value values = .ok v) : ∀ n ∈ u.names, ∃ x, values n = .ok x := by
  induction u generalizing v with
  | number whole fraction => exact nofun
  | name n =>
    intro m hm
    rw [List.mem_singleton.1 hm]
    exact ⟨v, h⟩
  | bracket t ih | positive t ih => exact ih h
  | negative t ih | percent t ih =>
    obtain ⟨x, hx, -⟩ := Tree.ok_of_map h
    exact ih hx
  | binary l op r ihl ihr =>
    rw [Tree.value] at h
    split at h
    · cases h
    · rename_i x hx
      split at h
      · cases h
      · rename_i y hy
        intro n hn
        exact (List.mem_append.1 hn).elim (ihl hx n) (ihr hy n)

theorem Alphabet.Blank.name_notMem (hw : (Alphabet.named ν).Blank w) : .inr n ∉ w := by
  intro hn
  cases hw _ hn

/-- The names in the tree are those in the word. -/
theorem Derives.mem_names (h : Derives (.named ν) L w u) : n ∈ u.names ↔ .inr n ∈ w := by
  induction h with
  | sum _ _ _ ihl ihr | product _ _ _ ihl ihr => simp [Tree.names, ihl, ihr]
  | ofProduct _ ih | ofFactor _ ih | ofSigned _ ih | ofAtom _ ih => exact ih
  | percent _ hw ih => simp [Tree.names, ih, hw.name_notMem]
  | negative hw _ ih | positive hw _ ih => simp [Tree.names, ih, hw.name_notMem]
  | number hw _ hv => simp [Tree.names, hw.name_notMem, hv.name_notMem, Alphabet.named]
  | name hw hv => simp [Tree.names, hw.name_notMem, hv.name_notMem]
  | bracket hw _ hv ih => simp [Tree.names, ih, hw.name_notMem, hv.name_notMem]

/-! ## Filled words -/

variable {tokens : ν → List Char}

/-- A filled word has the values of the word. -/
theorem valueChars_fill {depth : Nat} (htokens : Tokens tokens) (hw : w.IsChain Apart)
    (hplain : PlainBlanks (fill tokens w))
    (hdepth : ∀ t, Derives .plain .sum (fill tokens w) t → t.depth ≤ depth) :
    valueChars depth (fill tokens w) = .ok v ↔
      ∃ u : Tree ν, Derives (.named ν) .sum w u ∧ u.value (valueOf tokens) = .ok v := by
  rw [value_iff_derives hplain hdepth]
  constructor
  · rintro ⟨t, ht, hv⟩
    obtain ⟨u, hu, hvalue⟩ := derives_of_fill htokens ht rfl hw
    exact ⟨u, hu, hvalue.trans hv⟩
  · rintro ⟨u, hu, hv⟩
    obtain ⟨t, ht, hvalue⟩ := (fill_derives htokens hu).resolve_right (by simp)
    exact ⟨t, ht, hvalue.trans hv⟩

/-- A character of an expression. -/
def IsExpressionChar (c : Char) : Prop :=
  isDigit c = true ∨ c ∈ operators ∨ c ∈ ['.', '%', '(', ')', ' ']

theorem Derives.isExpressionChar {s : List Char} {t : Tree Empty} (h : Derives .plain L s t) :
    ∀ c ∈ s, IsExpressionChar c := by
  have hblank : ∀ {w : List Char}, Alphabet.plain.Blank w → ∀ c ∈ w, IsExpressionChar c :=
    fun hw c hc => .inr (.inr ((hw c hc).symm ▸ by decide))
  induction h with
  | sum _ hop _ ihl ihr =>
    rw [List.forall_mem_append, List.forall_mem_cons]
    exact ⟨ihl, .inr (.inl (isKind_additive? _ _ hop)), ihr⟩
  | product _ hop _ ihl ihr =>
    rw [List.forall_mem_append, List.forall_mem_cons]
    exact ⟨ihl, .inr (.inl (isKind_multiplicative? _ _ hop)), ihr⟩
  | ofProduct _ ih | ofFactor _ ih | ofSigned _ ih | ofAtom _ ih => exact ih
  | percent _ hw ih =>
    rw [List.forall_mem_append, List.forall_mem_cons]
    exact ⟨ih, .inr (.inr (by decide)), hblank hw⟩
  | negative hw _ ih | positive hw _ ih =>
    rw [List.forall_mem_append, List.forall_mem_cons]
    exact ⟨hblank hw, .inr (.inl (by decide)), ih⟩
  | number hw hnumeral hv =>
    rw [show Alphabet.plain.char = id from rfl, List.map_id, List.forall_mem_append,
      List.forall_mem_append]
    refine ⟨hblank hw, fun c hc => ?_, hblank hv⟩
    rcases hnumeral.digit_or_point c hc with hdigit | rfl
    · exact .inl hdigit
    · exact .inr (.inr (by decide))
  | @name _ _ n _ _ => exact n.elim
  | bracket hw _ hv ih =>
    rw [List.forall_mem_append, List.forall_mem_cons, List.forall_mem_append, List.forall_mem_cons]
    exact ⟨hblank hw, .inr (.inr (by decide)), ih, .inr (.inr (by decide)), hblank hv⟩

end Arithmetic

/-! ## Tokens -/

namespace Number

/-- The texts of the doubles that are no finite numbers. -/
def outsideTexts : List String := ["NaN", "Infinity", "(-Infinity)"]

theorem token_mem_outsideTexts {x : Float} (h : isFinite x = false) : token x ∈ outsideTexts := by
  unfold isFinite at h
  split at h
  · cases h
  · rename_i hread
    unfold token displayChars
    cases hx : read x with
    | finite negative units => exact absurd hx (hread negative units)
    | nan => decide
    | infinite negative => cases negative <;> decide

/-- A text with such a token in it is no expression. -/
theorem not_isExpressionChar_of_mem_outsideTexts {text : String} (h : text ∈ outsideTexts) :
    ∃ c ∈ text.toList, ¬IsExpressionChar c := by
  have hn : ¬IsExpressionChar 'N' := by
    unfold IsExpressionChar
    decide
  have hi : ¬IsExpressionChar 'I' := by
    unfold IsExpressionChar
    decide
  simp only [outsideTexts, List.mem_cons, List.not_mem_nil, or_false] at h
  rcases h with rfl | rfl | rfl
  · exact ⟨'N', by simp, hn⟩
  · exact ⟨'I', by simp, hi⟩
  · exact ⟨'I', by simp, hi⟩

end Number

/-! ## Bodies -/

namespace Formula

/-- Where a token comes from: the text of a cell or a number. -/
def IsToken (token : String) : Prop :=
  (∃ text, Literal.token? text = some token) ∨ ∃ x, token = Number.token x

theorem token_or_outside {token : String} (h : IsToken token) :
    (∃ t, Token token.toList t) ∨ token ∈ Number.outsideTexts := by
  rcases h with ⟨text, htext⟩ | ⟨x, rfl⟩
  · obtain ⟨cs, hcs, rfl⟩ := Option.map_eq_some_iff.1 htext
    rw [String.toList_ofList]
    exact .inl (Literal.token_of_tokenChars? hcs)
  · cases hx : Number.isFinite x with
    | true => exact .inl (Number.token_of_isFinite hx)
    | false => exact .inr (Number.token_mem_outsideTexts hx)

theorem IsToken.not_isBlank {token : String} (h : IsToken token) :
    ∀ c ∈ token.toList, isBlank c = false := by
  rcases token_or_outside h with ⟨t, ht⟩ | hmem
  · exact ht.not_isBlank
  · simp only [Number.outsideTexts, List.mem_cons, List.not_mem_nil, or_false] at hmem
    rcases hmem with rfl | rfl | rfl <;> simp [isBlank]

/-- The only blank of a body is the plain one. -/
theorem eq_blank_of_isBodyChar {c : Char} (h : isBodyChar c = true) (hblank : isBlank c = true) :
    c = ' ' := by
  have hall : ∀ n ∈ [9, 10, 11, 12, 13, 28, 29, 30, 31, 32],
      isBodyChar (Char.ofNat n) = true → Char.ofNat n = ' ' := by decide
  have hascii := toNat_of_isBodyChar h
  have hcode : c.toNat ∈ [9, 10, 11, 12, 13, 28, 29, 30, 31, 32] := by
    simp only [isBlank, Bool.or_eq_true, Bool.and_eq_true, decide_eq_true_eq, beq_iff_eq] at hblank
    simp only [List.mem_cons, List.not_mem_nil, or_false]
    omega
  have hc := hall c.toNat hcode
  rw [Char.ofNat_toNat] at hc
  exact hc h

theorem plainBlanks_fill {body : String} {tokens : Reference → String}
    (htokens : ∀ r, IsToken (tokens r)) (hbody : hasForeignChar body = false) :
    PlainBlanks (fill (fun r => (tokens r).toList) (symbols body)) := by
  intro c hc hblank
  obtain ⟨x, hx, hc⟩ := List.mem_flatMap.1 hc
  cases x with
  | inl d =>
    rw [List.mem_singleton.1 hc] at hblank ⊢
    have hall := List.any_eq_false.1 hbody d (mem_of_mem_symbols hx)
    exact eq_blank_of_isBodyChar (by simpa using hall) hblank
  | inr r => exact absurd hblank (by simp [(htokens r).not_isBlank c hc])

theorem evaluate_eq_ok_iff {expression : String} {v : Float} :
    evaluate expression = .ok v ↔
      valueChars maxNesting expression.toList = .ok v ∧ Number.isFinite v = true := by
  unfold evaluate
  split
  · rename_i e he
    simp [he]
  · rename_i x hx
    rw [hx]
    split
    · rename_i hfinite
      constructor
      · intro h
        cases h
        exact ⟨rfl, hfinite⟩
      · exact And.left
    · rename_i hfinite
      constructor
      · exact nofun
      · rintro ⟨h, hv⟩
        cases h
        exact absurd hv hfinite

/-- The filled symbols of a body have the values of the body. -/
theorem valueChars_symbols {body : String} {tokens : Reference → String} {v : Float}
    (htokens : ∀ r, IsToken (tokens r)) (hbody : hasForeignChar body = false)
    (hpoint : (symbols body).IsChain ClearOfPoint)
    (hdepth : ∀ t, Derives .plain .sum (substitute tokens body).toList t → t.depth ≤ maxNesting) :
    valueChars maxNesting (substitute tokens body).toList = .ok v ↔
      ∃ u, Derives (.named Reference) .sum (symbols body) u ∧
        u.value (fun r => valueChars maxNesting (tokens r).toList) = .ok v := by
  have hplain := plainBlanks_fill htokens hbody
  rw [← fill_symbols] at hdepth ⊢
  by_cases hall : ∀ r, .inr r ∈ symbols body → ∃ t, Token (tokens r).toList t
  · -- References outside the body may have any token, so let them have one.
    classical
    let chosen : Reference → List Char :=
      fun r => if .inr r ∈ symbols body then (tokens r).toList else ['0']
    have hchosen : Tokens chosen := by
      intro r
      by_cases hr : .inr r ∈ symbols body
      · simpa only [chosen, if_pos hr] using hall r hr
      · simp only [chosen, if_neg hr]
        exact ⟨_, .plain (.whole (by simp) (fun c hc => List.mem_singleton.1 hc ▸ by decide))⟩
    have hfill : fill (fun r => (tokens r).toList) (symbols body) = fill chosen (symbols body) := by
      refine List.flatMap_congr fun x hx => ?_
      cases x with
      | inl c => rfl
      | inr r => simp only [Sum.elim_inr, chosen, if_pos hx]
    rw [hfill] at hplain hdepth ⊢
    rw [valueChars_fill hchosen (symbols_apart hbody hpoint) hplain hdepth]
    refine exists_congr fun u => and_congr_right fun hu => ?_
    rw [Tree.value_congr]
    intro r hr
    simp only [valueOf, chosen, if_pos (hu.mem_names.1 hr)]
  · obtain ⟨r, hr, hno⟩ : ∃ r, .inr r ∈ symbols body ∧ ¬∃ t, Token (tokens r).toList t := by
      simpa using hall
    obtain ⟨c, hc, hother⟩ := Number.not_isExpressionChar_of_mem_outsideTexts
      ((token_or_outside (htokens r)).resolve_left hno)
    constructor
    · intro h
      obtain ⟨t, ht, -⟩ := exists_reads h
      refine absurd ((ht.derives hplain).isExpressionChar c ?_) hother
      exact List.mem_flatMap.2 ⟨.inr r, hr, hc⟩
    · rintro ⟨u, hu, hv⟩
      obtain ⟨x, hx⟩ := Tree.name_value hv r (hu.mem_names.2 hr)
      obtain ⟨t, ht, -⟩ := exists_reads hx
      refine absurd ((ht.derives fun c hc hblank => ?_).isExpressionChar c hc) hother
      exact absurd hblank (by simp [(htokens r).not_isBlank c hc])

/-- If no reference touches a point, then a body with tokens in place of its references has a value
exactly if the body derives from the grammar with whole references as atoms and the arithmetic of
its tree succeeds. The value is that of the tree, each reference standing for its token's number. -/
theorem substitution_hygienic (body : String) (tokens : Reference → String)
    (htokens : ∀ r, IsToken (tokens r)) (hbody : hasForeignChar body = false)
    (hpoint : (symbols body).IsChain ClearOfPoint)
    (hdepth : ∀ t, Derives .plain .sum (substitute tokens body).toList t → t.depth ≤ maxNesting)
    (v : Float) :
    evaluate (substitute tokens body) = .ok v ↔
      ∃ u, Derives (.named Reference) .sum (symbols body) u ∧
        u.value (fun r => valueChars maxNesting (tokens r).toList) = .ok v ∧
        Number.isFinite v = true := by
  rw [evaluate_eq_ok_iff, valueChars_symbols htokens hbody hpoint hdepth]
  constructor
  · rintro ⟨⟨u, hu, hv⟩, hfinite⟩
    exact ⟨u, hu, hv, hfinite⟩
  · rintro ⟨u, hu, hv, hfinite⟩
    exact ⟨⟨u, hu, hv⟩, hfinite⟩

/-- A percentage and a negative number in one body. -/
theorem signed_percentage_hygienic :
    ∃ tokens : Reference → String, (∀ r, IsToken (tokens r)) ∧
      hasForeignChar "-A1*(2+B3)" = false ∧ (symbols "-A1*(2+B3)").IsChain ClearOfPoint ∧
      (∀ t, Derives .plain .sum (substitute tokens "-A1*(2+B3)").toList t → t.depth ≤ maxNesting) ∧
      substitute tokens "-A1*(2+B3)" = "-5%*(2+(-5))" ∧
      ∃ u, Derives (.named Reference) .sum (symbols "-A1*(2+B3)") u ∧
        u.value (fun r => valueChars maxNesting (tokens r).toList) = .ok (-(5 / 100) * (2 + -5)) ∧
        Number.isFinite (-(5 / 100) * (2 + -5)) = true := by
  let tokens : Reference → String := fun r => if r = .ofText "A1" then "5%" else "(-5)"
  have htokens : ∀ r, IsToken (tokens r) := by
    intro r
    simp only [tokens]
    split
    · exact .inl ⟨"5%", by decide +kernel⟩
    · exact .inr ⟨-5, by decide +kernel⟩
  have hbody : hasForeignChar "-A1*(2+B3)" = false := by decide +kernel
  have hsymbols : symbols "-A1*(2+B3)" = [.inl '-', .inr (.ofText "A1"), .inl '*', .inl '(',
      .inl '2', .inl '+', .inr (.ofText "B3"), .inl ')'] := by decide +kernel
  have hpoint : (symbols "-A1*(2+B3)").IsChain ClearOfPoint := by
    rw [hsymbols]
    simp [ClearOfPoint]
  have htext : substitute tokens "-A1*(2+B3)" = "-5%*(2+(-5))" := by decide +kernel
  have hdepth : ∀ t, Derives .plain .sum (substitute tokens "-A1*(2+B3)").toList t →
      t.depth ≤ maxNesting := by
    intro t ht
    rw [htext] at ht
    exact ht.depth_le_length.trans (by decide)
  refine ⟨tokens, htokens, hbody, hpoint, hdepth, htext, ?_⟩
  exact (substitution_hygienic _ tokens htokens hbody hpoint hdepth _).1
    (by rw [htext]; decide +kernel)

/-- Next to a point a token merges: with `5` for the reference, `A1.5` has the value of `5.5`, but
it is no expression. -/
theorem token_merges_with_point :
    IsToken "5" ∧ hasForeignChar "A1.5" = false ∧
      (∀ t, Derives .plain .sum (substitute (fun _ => "5") "A1.5").toList t →
        t.depth ≤ maxNesting) ∧
      ¬∀ v, evaluate (substitute (fun _ => "5") "A1.5") = .ok v ↔
        ∃ u, Derives (.named Reference) .sum (symbols "A1.5") u ∧
          u.value (fun _ => valueChars maxNesting "5".toList) = .ok v ∧
          Number.isFinite v = true := by
  have htext : substitute (fun _ => "5") "A1.5" = "5.5" := by decide +kernel
  refine ⟨.inl ⟨"5", by decide +kernel⟩, by decide +kernel, fun t ht => ?_, fun h => ?_⟩
  · rw [htext] at ht
    exact ht.depth_le_length.trans (by decide)
  · obtain ⟨u, hu, -⟩ := (h (11 / 2)).1 (by rw [htext]; decide +kernel)
    -- With a percentage for the reference the text would derive too, but it cannot be read.
    have hpercent : Tokens fun _ : Reference => ['5', '%'] :=
      fun _ => ⟨_, .percent (.whole (by simp) (fun c hc => List.mem_singleton.1 hc ▸ by decide))⟩
    obtain ⟨t, ht, -⟩ := (fill_derives hpercent hu).resolve_right (by simp)
    have hfill : fill (fun _ => ['5', '%']) (symbols "A1.5") = "5%.5".toList := by decide +kernel
    rw [hfill] at ht
    have hvalue := ht.reads.valueChars_eq (ht.depth_le_length.trans (by decide : 4 ≤ maxNesting))
    have hunreadable : valueChars maxNesting "5%.5".toList = .error (.unreadable "5%.5") := by
      decide +kernel
    cases Tree.divisionByZero_of_value nofun (hvalue.symm.trans hunreadable)

end Formula

end Spreadsheet
