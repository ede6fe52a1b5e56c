import Spreadsheet.Json.Reader
import Spreadsheet.Json.Writer
import Spreadsheet.Proofs.Text.Numerals

/-!
# JSON is read back

What is written as JSON is read back as it was (`parseChars_chars`). It is said of values of which
the text is read back wherever a value may stand, in front of any other text (`Readable`). Texts and
`null` are such values, and so are objects of such values with different keys
(`readable_object`), so that the property is built up along a value like its text.

**Texts.** A character is written as it is, as an escape or as two, and each way the parts that are
read join to the character again (`exists_units`). No part of one character joins with a part of the
next, because only the two escapes of one character are surrogates.

**ASCII.** Only printable characters of ASCII are written, none of which announces a surrogate to
the reader (`flatMap_marked`).
-/

namespace Spreadsheet.Json

open Text

/-! ## Printable characters of ASCII -/

/-- All characters are printable ones of ASCII. -/
def Ascii (cs : List Char) : Prop := ∀ c ∈ cs, 0x20 ≤ c.toNat ∧ c.toNat < 0x7f

@[simp]
theorem ascii_nil : Ascii [] := by simp [Ascii]

@[simp]
theorem ascii_cons {c : Char} {cs : List Char} :
    Ascii (c :: cs) ↔ (0x20 ≤ c.toNat ∧ c.toNat < 0x7f) ∧ Ascii cs := by
  simp [Ascii]

@[simp]
theorem ascii_append {cs ds : List Char} : Ascii (cs ++ ds) ↔ Ascii cs ∧ Ascii ds := by
  simp only [Ascii, List.forall_mem_append]

theorem ascii_flatMap {α : Type} {xs : List α} {f : α → List Char} (h : ∀ x, Ascii (f x)) :
    Ascii (xs.flatMap f) := by
  intro c hc
  obtain ⟨x, -, hx⟩ := List.mem_flatMap.1 hc
  exact h x c hx

/-- Text of printable characters of ASCII is cut into tokens as it is. -/
theorem flatMap_marked {cs : List Char} (h : Ascii cs) :
    (cs.map Char.toNat).flatMap marked = cs := by
  induction cs with
  | nil => rfl
  | cons c cs ih =>
    obtain ⟨hc, hcs⟩ := ascii_cons.1 h
    have hmark : ¬c.toNat = surrogateMark.toNat := by
      intro hmark
      rw [hmark] at hc
      exact absurd hc.1 (by decide)
    rw [List.map_cons, List.flatMap_cons, ih hcs, marked, isSurrogate_toNat, if_neg (by simp),
      if_neg hmark, Char.ofNat_toNat]
    rfl

theorem ascii_hexChars (width n : Nat) : Ascii (hexChars width n) := by
  have hdigit : ∀ m < 16, Ascii [hexDigit m] := by
    simp only [ascii_cons, ascii_nil, and_true]
    decide
  induction width generalizing n with
  | zero => exact ascii_nil
  | succ width ih => exact ascii_append.2 ⟨ih (n / 16), hdigit _ (Nat.mod_lt n (by decide))⟩

theorem ascii_unitEscape (n : Nat) : Ascii (unitEscape n) := by
  simp [unitEscape, ascii_hexChars]

/-! ## Pairs of surrogates -/

/-- The upper half of the pair that stands for a code point beyond the first plane. -/
def highHalf (n : Nat) : Nat := 0xd800 + (n - 0x10000) / 0x400

/-- The lower half of the pair that stands for a code point beyond the first plane. -/
def lowHalf (n : Nat) : Nat := 0xdc00 + (n - 0x10000) % 0x400

theorem lt_of_isHighSurrogate {n : Nat} (h : isHighSurrogate n = true) : n < 0x10000 := by
  simp only [isHighSurrogate, Bool.and_eq_true, decide_eq_true_eq] at h
  omega

theorem lt_of_isLowSurrogate {n : Nat} (h : isLowSurrogate n = true) : n < 0x10000 := by
  simp only [isLowSurrogate, Bool.and_eq_true, decide_eq_true_eq] at h
  omega

/-- A code point beyond the first plane is the one of its two halves. -/
theorem halves_spec {n : Nat} (h : 0x10000 ≤ n) (hn : n < 0x110000) :
    isHighSurrogate (highHalf n) = true ∧ isLowSurrogate (lowHalf n) = true ∧
      pairCode (highHalf n) (lowHalf n) = n := by
  refine ⟨?_, ?_, ?_⟩
  · unfold isHighSurrogate highHalf
    rw [Bool.and_eq_true, decide_eq_true_eq, decide_eq_true_eq]
    omega
  · unfold isLowSurrogate lowHalf
    rw [Bool.and_eq_true, decide_eq_true_eq, decide_eq_true_eq]
    omega
  · unfold pairCode highHalf lowHalf
    omega

theorem not_isHighSurrogate_toNat (c : Char) : isHighSurrogate c.toNat = false :=
  (Bool.or_eq_false_iff.1 (isSurrogate_toNat c)).1

theorem toNat_lt (c : Char) : c.toNat < 0x110000 := by
  rcases c.valid with h | ⟨-, h⟩
  · exact Nat.lt_trans h (by decide)
  · exact h

/-! ## Ways to write a character -/

/-- A character is written as a letter behind a backslash, as it is, as its code point, or as a
pair. -/
theorem escapeChar_cases (c : Char) :
    (∃ letter, escapeChar c = ['\\', letter] ∧ escaped? letter = some c ∧ Ascii [letter]) ∨
      (escapeChar c = [c] ∧ c ≠ '"' ∧ c ≠ '\\' ∧ Ascii [c]) ∨
      (escapeChar c = unitEscape c.toNat ∧ c.toNat < 0x10000) ∨
      (escapeChar c = unitEscape (highHalf c.toNat) ++ unitEscape (lowHalf c.toNat) ∧
        0x10000 ≤ c.toNat) := by
  by_cases hletter : c ∈ ['"', '\\', '\n', '\r', '\t', '\x08', '\x0c']
  · left
    simp only [List.mem_cons, List.not_mem_nil, or_false] at hletter
    rcases hletter with rfl | rfl | rfl | rfl | rfl | rfl | rfl <;>
      exact ⟨_, rfl, rfl, by simp⟩
  · right
    simp only [List.mem_cons, List.not_mem_nil, or_false, not_or] at hletter
    simp only [escapeChar, beq_iff_eq, hletter, if_false, Bool.and_eq_true, decide_eq_true_eq]
    by_cases hplain : 0x20 ≤ c.toNat ∧ c.toNat < 0x7f
    · left
      simp [hplain, hletter]
    · right
      by_cases hplane : c.toNat < 0x10000
      · simp [hplain, hplane]
      · right
        refine ⟨?_, Nat.le_of_not_lt hplane⟩
        simp [hplain, hplane, highHalf, lowHalf]

theorem ascii_escapeChar (c : Char) : Ascii (escapeChar c) := by
  rcases escapeChar_cases c with ⟨letter, hc, -, h⟩ | ⟨hc, -, -, h⟩ | ⟨hc, -⟩ | ⟨hc, -⟩
  · simpa [hc] using h
  · simpa [hc] using h
  · simpa [hc] using ascii_unitEscape c.toNat
  · simpa [hc] using ⟨ascii_unitEscape _, ascii_unitEscape _⟩

/-! ## Texts -/

/-- A part that is no upper half of a pair stands for itself. -/
theorem joinUnits_cons {u : StringUnit} (h : isHighSurrogate u.code = false)
    (us : List StringUnit) : joinUnits (u :: us) = u.code :: joinUnits us := by
  cases us with
  | nil => rfl
  | cons v us =>
    cases u with
    | raw m => simp [joinUnits]
    | escaped m =>
      have hm : isHighSurrogate m = false := h
      cases v with
      | raw n => simp [joinUnits]
      | escaped n => simp [joinUnits, hm, StringUnit.code]

/-- The two halves of a pair stand for one code point. -/
theorem joinUnits_pair {m n : Nat} (hm : isHighSurrogate m = true) (hn : isLowSurrogate n = true)
    (us : List StringUnit) :
    joinUnits (.escaped m :: .escaped n :: us) = pairCode m n :: joinUnits us := by
  simp [joinUnits, hm, hn]

theorem stringUnits?_unitEscape {n : Nat} (h : n < 0x10000) (rest : List Char) :
    stringUnits? (unitEscape n ++ rest) =
      (stringUnits? rest).map fun p => (.escaped n :: p.1, p.2) := by
  have hread : hexNumeral? (hexChars 4 n) = some n := hexNumeral?_hexChars h
  obtain ⟨a, b, c, d, hdigits⟩ : ∃ a b c d, hexChars 4 n = [a, b, c, d] := ⟨_, _, _, _, rfl⟩
  rw [hdigits] at hread
  rw [unitEscape, hdigits]
  simp only [List.cons_append, List.nil_append, stringUnits?, hread]

theorem stringUnits?_letter {c e : Char} (h : escaped? c = some e) (rest : List Char) :
    stringUnits? ('\\' :: c :: rest) =
      (stringUnits? rest).map fun p => (.escaped e.toNat :: p.1, p.2) := by
  have hu : c ≠ 'u' := by
    rintro rfl
    cases h
  rw [stringUnits?]
  · rw [h]
  · intro _ _ _ _ _ hc
    exact absurd hc hu

theorem stringUnits?_raw {c : Char} (hquote : c ≠ '"') (hslash : c ≠ '\\') (h : 0x20 ≤ c.toNat)
    (rest : List Char) :
    stringUnits? (c :: rest) = (stringUnits? rest).map fun p => (.raw c.toNat :: p.1, p.2) := by
  have hmark : c ≠ '\x01' := by
    rintro rfl
    exact absurd h (by decide)
  rw [stringUnits?]
  · rw [if_neg (by omega)]
  all_goals simp_all

/-- **A character is read back.** Whatever follows, the parts that are read join to it. -/
theorem exists_units (c : Char) :
    ∃ us : List StringUnit,
      (∀ rest, stringUnits? (escapeChar c ++ rest) =
        (stringUnits? rest).map fun p => (us ++ p.1, p.2)) ∧
      ∀ more, joinUnits (us ++ more) = c.toNat :: joinUnits more := by
  have hself := not_isHighSurrogate_toNat c
  rcases escapeChar_cases c with ⟨letter, hc, h, -⟩ | ⟨hc, hquote, hslash, h⟩ | ⟨hc, h⟩ | ⟨hc, h⟩
  · refine ⟨[.escaped c.toNat], fun rest => ?_, joinUnits_cons hself⟩
    rw [hc]
    exact stringUnits?_letter h rest
  · refine ⟨[.raw c.toNat], fun rest => ?_, joinUnits_cons hself⟩
    rw [hc]
    exact stringUnits?_raw hquote hslash (ascii_cons.1 h).1.1 rest
  · refine ⟨[.escaped c.toNat], fun rest => ?_, joinUnits_cons hself⟩
    rw [hc]
    exact stringUnits?_unitEscape h rest
  · obtain ⟨hhigh, hlow, hpair⟩ := halves_spec h (toNat_lt c)
    refine ⟨[.escaped (highHalf c.toNat), .escaped (lowHalf c.toNat)], fun rest => ?_,
      fun more => ?_⟩
    · rw [hc, List.append_assoc, stringUnits?_unitEscape (lt_of_isHighSurrogate hhigh),
        stringUnits?_unitEscape (lt_of_isLowSurrogate hlow), Option.map_map]
      rfl
    · have hjoin := joinUnits_pair hhigh hlow more
      rw [hpair] at hjoin
      exact hjoin

/-- A text is read back up to its closing quote. -/
theorem exists_textUnits (cs rest : List Char) :
    ∃ us, stringUnits? (cs.flatMap escapeChar ++ '"' :: rest) = some (us, rest) ∧
      joinUnits us = cs.map Char.toNat := by
  induction cs with
  | nil => exact ⟨[], by simp [stringUnits?], rfl⟩
  | cons c cs ih =>
    obtain ⟨us, hus, hjoin⟩ := ih
    obtain ⟨vs, hvs, hchar⟩ := exists_units c
    refine ⟨vs ++ us, ?_, ?_⟩
    · rw [List.flatMap_cons, List.append_assoc, hvs, hus]
      rfl
    · rw [hchar, hjoin, List.map_cons]

/-! ## Tokens -/

theorem tokens_space (rest : List Char) : tokens (' ' :: rest) = tokens rest := by
  rw [tokens]
  rfl

theorem tokens_punctuation {c : Char} {t : Token} (h : punctuation? c = some t)
    (hspace : isSpace c = false) (rest : List Char) : tokens (c :: rest) = t :: tokens rest := by
  rw [tokens, hspace, h]
  rfl

theorem tokens_scalar {c : Char} {rest after : List Char} {t : Token} (hspace : isSpace c = false)
    (hpunctuation : punctuation? c = none) (hquote : c ≠ '"')
    (h : scalar? c rest = some (t, after)) : tokens (c :: rest) = t :: tokens after := by
  rw [tokens, hspace, hpunctuation]
  simp only [Bool.false_eq_true, if_false, beq_eq_false_iff_ne.2 hquote]
  split
  · rename_i found
    rw [h] at found
    cases found
    rfl
  · rename_i missing
    rw [h] at missing
    cases missing

theorem tokens_null (rest : List Char) :
    tokens ('n' :: 'u' :: 'l' :: 'l' :: rest) = .scalar .null :: tokens rest :=
  tokens_scalar rfl rfl (by decide) rfl

theorem tokens_quote {rest after : List Char} {us : List StringUnit}
    (h : stringUnits? rest = some (us, after)) :
    tokens ('"' :: rest) = .string (.ofCodes (joinUnits us)) :: tokens after := by
  have hspace : isSpace '"' = false := by decide
  have hpunctuation : punctuation? '"' = none := rfl
  rw [tokens, hspace, hpunctuation]
  simp only [Bool.false_eq_true, if_false, beq_self_eq_true, if_true]
  split
  · rename_i found
    rw [h] at found
    cases found
    rfl
  · rename_i missing
    rw [h] at missing
    cases missing

theorem tokens_string (text : String) (rest : List Char) :
    tokens (stringChars (.whole text) ++ rest) = .string (.whole text) :: tokens rest := by
  obtain ⟨us, hus, hjoin⟩ := exists_textUnits text.toList rest
  have htext : JsonText.ofCodes (joinUnits us) = .whole text := by
    rw [hjoin]
    exact JsonText.ofCodes_codes_whole text
  rw [stringChars, List.append_assoc, List.cons_append, List.singleton_append, tokens_quote hus,
    htext]

/-! ## Values -/

theorem run_step {place next : Place} {t : Token} (h : step place t = .ok next)
    (ts : List Token) : run place (t :: ts) = run next ts := by
  rw [run, h]

/-- Wherever the value may stand with so many brackets inside, its text is read back as the value. -/
structure Readable (depth : Nat) (v : Json) : Prop where
  ascii : Ascii v.chars
  reads : ∀ (stack : List Frame) (rest : List Char), stack.length + depth ≤ maxDepth →
    run (.value stack) (tokens (v.chars ++ rest)) = run (deliver v stack) (tokens rest)

theorem readable_null (depth : Nat) : Readable depth .null where
  ascii := by simp [chars]
  reads stack rest _ := by
    simp only [chars, List.cons_append, List.nil_append, tokens_null]
    exact run_step rfl _

theorem ascii_stringChars (text : String) : Ascii (stringChars (.whole text)) := by
  simp [stringChars, ascii_flatMap ascii_escapeChar]

theorem readable_string (depth : Nat) (text : String) :
    Readable depth (.string (.whole text)) where
  ascii := by simpa [chars] using ascii_stringChars text
  reads stack rest _ := by
    rw [chars, tokens_string]
    exact run_step rfl _

/-! ## Objects -/

/-- The keys are texts of characters, and the values are read back. -/
def ReadableEntries (depth : Nat) (entries : List (JsonText × Json)) : Prop :=
  ∀ e ∈ entries, (∃ text, e.1 = .whole text) ∧ e.2.Readable depth

variable {depth : Nat}

theorem ascii_entriesChars : ∀ {entries : List (JsonText × Json)},
    ReadableEntries depth entries → Ascii (entriesChars entries)
  | [], _ => by simp [entriesChars]
  | [(k, v)], h => by
    obtain ⟨⟨text, rfl⟩, hv⟩ := h _ List.mem_cons_self
    simp [entriesChars, ascii_stringChars, hv.ascii]
  | (k, v) :: e :: rest, h => by
    obtain ⟨⟨text, rfl⟩, hv⟩ := h _ List.mem_cons_self
    have hrest := ascii_entriesChars fun f hf => h f (List.mem_cons_of_mem _ hf)
    simp [entriesChars, ascii_stringChars, hv.ascii, hrest]

/-- One entry, after others with other keys. -/
theorem run_entry {text : String} {v : Json} (hv : v.Readable depth)
    {before : List (JsonText × Json)} (hkey : .whole text ∉ before.map Prod.fst)
    {stack : List Frame} (hroom : stack.length + 1 + depth ≤ maxDepth) (rest : List Char) :
    run (.key before stack)
        (tokens (stringChars (.whole text) ++ ':' :: ' ' :: (v.chars ++ rest))) =
      run (.afterEntry (before ++ [(.whole text, v)]) stack) (tokens rest) := by
  have hcolon : tokens (':' :: ' ' :: (v.chars ++ rest)) =
      .colon :: tokens (v.chars ++ rest) := by
    rw [tokens_punctuation rfl rfl, tokens_space]
  rw [tokens_string, hcolon, run_step rfl, run_step rfl,
    hv.reads (.object before (.whole text) :: stack) rest hroom, deliver,
    Pairs.set_of_not_mem hkey]

theorem not_mem_of_nodup {before more : List (JsonText × Json)} {key : JsonText} {v : Json}
    (h : ((before ++ (key, v) :: more).map Prod.fst).Nodup) : key ∉ before.map Prod.fst := by
  rw [List.map_append, List.map_cons, List.nodup_append] at h
  intro hkey
  exact h.2.2 key hkey key List.mem_cons_self rfl

/-- The entries of an object up to its end, after others with other keys. -/
theorem run_entries : ∀ (before : List (JsonText × Json)) {entries : List (JsonText × Json)},
    entries ≠ [] → ReadableEntries depth entries → ((before ++ entries).map Prod.fst).Nodup →
    ∀ {stack : List Frame}, stack.length + 1 + depth ≤ maxDepth → ∀ rest : List Char,
    run (.key before stack) (tokens (entriesChars entries ++ '\x7d' :: rest)) =
      run (deliver (.object (before ++ entries)) stack) (tokens rest)
  | _, [], hne, _, _, _, _, _ => absurd rfl hne
  | before, [(k, v)], _, h, hkeys, stack, hroom, rest => by
    obtain ⟨⟨text, rfl⟩, hv⟩ := h _ List.mem_cons_self
    rw [entriesChars, List.append_assoc, List.cons_append, List.cons_append,
      run_entry hv (not_mem_of_nodup hkeys) hroom, tokens_punctuation rfl rfl, run_step rfl]
  | before, (k, v) :: e :: more, _, h, hkeys, stack, hroom, rest => by
    obtain ⟨⟨text, rfl⟩, hv⟩ := h _ List.mem_cons_self
    have hmore := run_entries (before ++ [(.whole text, v)]) (List.cons_ne_nil e more)
      (fun f hf => h f (List.mem_cons_of_mem _ hf)) (by simpa using hkeys) hroom rest
    simp only [entriesChars, List.append_assoc, List.cons_append, List.nil_append] at hmore ⊢
    rw [run_entry hv (not_mem_of_nodup hkeys) hroom, tokens_punctuation rfl rfl, tokens_space,
      run_step rfl, hmore]

theorem exists_entriesChars (key : JsonText) (v : Json) (more : List (JsonText × Json)) :
    ∃ cs, entriesChars ((key, v) :: more) = stringChars key ++ cs := by
  cases more with
  | nil => exact ⟨_, rfl⟩
  | cons e more =>
    refine ⟨':' :: ' ' :: v.chars ++ ',' :: ' ' :: entriesChars (e :: more), ?_⟩
    simp only [entriesChars, List.append_assoc]

/-- The first key is read like the others. -/
theorem run_firstKey (stack : List Frame) (key : JsonText) (ts : List Token) :
    run (.firstKey stack) (.string key :: ts) = run (.key [] stack) (.string key :: ts) := by
  rw [run_step rfl, run_step rfl]

/-- **Objects of what is read back are read back**, one bracket deeper. -/
theorem readable_object {entries : List (JsonText × Json)} (h : ReadableEntries depth entries)
    (hkeys : (entries.map Prod.fst).Nodup) : Readable (depth + 1) (.object entries) where
  ascii := by simp [chars, ascii_entriesChars h]
  reads stack rest hroom := by
    have hopen : step (.value stack) .openObject = .ok (.firstKey stack) := by
      simp only [step, beginValue, openBracket]
      rw [if_pos (by omega)]
    simp only [chars, List.append_assoc, List.cons_append, List.nil_append]
    rw [tokens_punctuation rfl rfl, run_step hopen]
    match entries, h, hkeys with
    | [], _, _ => rw [entriesChars, List.nil_append, tokens_punctuation rfl rfl, run_step rfl]
    | (k, v) :: more, h, hkeys =>
      have hentries := run_entries [] (List.cons_ne_nil (k, v) more) h hkeys
        (show stack.length + 1 + depth ≤ maxDepth by omega) rest
      obtain ⟨⟨text, rfl⟩, -⟩ := h _ List.mem_cons_self
      obtain ⟨cs, hcs⟩ := exists_entriesChars (.whole text) v more
      rw [hcs, List.append_assoc, tokens_string] at hentries ⊢
      rw [run_firstKey, hentries, List.nil_append]

/-! ## Whole texts -/

/-- **What is written is read back.** -/
theorem parseChars_chars {v : Json} (h : v.Readable depth) (hdepth : depth ≤ maxDepth) :
    parseChars v.chars = .ok v := by
  have hreads := h.reads [] [] (by simpa using hdepth)
  rw [List.append_nil] at hreads
  rw [parseChars, parseCodes, flatMap_marked h.ascii, hreads, tokens, deliver, run]

end Spreadsheet.Json
