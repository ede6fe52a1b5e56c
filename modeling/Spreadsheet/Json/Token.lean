import Spreadsheet.Json.Basic
import Spreadsheet.Number.Double
import Spreadsheet.Text.Digit

/-!
# Tokens of JSON

A text is cut into brackets, separators, strings, numbers and words. What is no token ends the
list as `malformed`. A string may hold any character from the space on, and surrogates. A pair of
surrogates that are both escaped is one character.
-/

namespace Spreadsheet.Json

open Text

inductive Token where
  | openArray
  | closeArray
  | openObject
  | closeObject
  | comma
  | colon
  | string (value : JsonText)
  /-- A number or a word. -/
  | scalar (value : Json)
  /-- A whole number with more digits than can be read. -/
  | longInteger (digits : Nat)
  | malformed

/-! ## Surrogates in a text -/

/-- Announces a surrogate in a text that is cut into tokens, where its low bits follow as a character.
No text of JSON holds this character itself, neither in a string nor outside. -/
def surrogateMark : Char := '\x01'

/-- What stands for a code point in a text that is cut into tokens. The mark itself is replaced by
another character that no text of JSON holds. -/
def marked (n : Nat) : List Char :=
  if isSurrogate n then [surrogateMark, Char.ofNat (n - 0xd800)]
  else if n = surrogateMark.toNat then ['\x02']
  else [Char.ofNat n]

/-! ## Strings -/

/-- A part of a string: a code point as it is, or one that is escaped. -/
inductive StringUnit where
  | raw (code : Nat)
  | escaped (code : Nat)

/-- The character of a one-letter escape. -/
def escaped? : Char → Option Char
  | '"' => some '"'
  | '\\' => some '\\'
  | '/' => some '/'
  | 'b' => some '\x08'
  | 'f' => some '\x0c'
  | 'n' => some '\n'
  | 'r' => some '\r'
  | 't' => some '\t'
  | _ => none

/-- The parts of a string up to its closing quote, and the text after it. -/
def stringUnits? : List Char → Option (List StringUnit × List Char)
  | [] => none
  | '"' :: rest => some ([], rest)
  | '\\' :: 'u' :: a :: b :: c :: d :: rest =>
    match hexNumeral? [a, b, c, d] with
    | none => none
    | some n => (stringUnits? rest).map fun p => (.escaped n :: p.1, p.2)
  | '\\' :: c :: rest =>
    match escaped? c with
    | none => none
    | some e => (stringUnits? rest).map fun p => (.escaped e.toNat :: p.1, p.2)
  | '\x01' :: bits :: rest =>
    (stringUnits? rest).map fun p => (.raw (0xd800 + bits.toNat) :: p.1, p.2)
  | c :: rest =>
    if c.toNat < 0x20 then none else (stringUnits? rest).map fun p => (.raw c.toNat :: p.1, p.2)

theorem length_stringUnits? {cs : List Char} {us : List StringUnit} {rest : List Char}
    (h : stringUnits? cs = some (us, rest)) : rest.length < cs.length := by
  fun_induction stringUnits? cs generalizing us rest with
  | case1 => simp at h
  | case2 => simp_all
  | case3 => simp at h
  | case4 a b c d r n hn ih =>
    obtain ⟨⟨vs, r'⟩, hp, hq⟩ := Option.map_eq_some_iff.1 h
    cases hq
    have := ih hp
    simp only [List.length_cons]
    omega
  | case5 => simp at h
  | case6 c r hc e he ih =>
    obtain ⟨⟨vs, r'⟩, hp, hq⟩ := Option.map_eq_some_iff.1 h
    cases hq
    have := ih hp
    simp only [List.length_cons]
    omega
  | case7 bits r ih =>
    obtain ⟨⟨vs, r'⟩, hp, hq⟩ := Option.map_eq_some_iff.1 h
    cases hq
    have := ih hp
    simp only [List.length_cons]
    omega
  | case8 => simp at h
  | case9 c r h1 h2 h3 h4 hc ih =>
    obtain ⟨⟨vs, r'⟩, hp, hq⟩ := Option.map_eq_some_iff.1 h
    cases hq
    have := ih hp
    simp only [List.length_cons]
    omega

/-- The code point of a part. -/
def StringUnit.code : StringUnit → Nat
  | .raw code => code
  | .escaped code => code

/-- The code points of parts, of which an escaped high and an escaped low surrogate in a row make
one. -/
def joinUnits : List StringUnit → List Nat
  | [] => []
  | [u] => [u.code]
  | .escaped m :: .escaped n :: rest =>
    if isHighSurrogate m && isLowSurrogate n then pairCode m n :: joinUnits rest
    else m :: joinUnits (.escaped n :: rest)
  | u :: v :: rest => u.code :: joinUnits (v :: rest)

/-! ## Numbers -/

/-- The digits in front of a text, if there are any, and the text after them. -/
def digits? (cs : List Char) : Option (List Char × List Char) :=
  let digits := cs.takeWhile Char.isDigit
  if digits.isEmpty then none else some (digits, cs.dropWhile Char.isDigit)

/-- The whole part of a number: a zero alone, or digits that start with none. -/
def wholePart? : List Char → Option (List Char × List Char)
  | '0' :: rest => some (['0'], rest)
  | cs => digits? cs

/-- The fraction of a number, if one follows. -/
def fraction? : List Char → Option (List Char × List Char)
  | '.' :: rest => digits? rest
  | _ => none

/-- The exponent of a number, if one follows. -/
def exponent? : List Char → Option (Int × List Char)
  | c :: rest =>
    if c == 'e' || c == 'E' then
      match rest with
      | '+' :: rest => (digits? rest).map fun p => (numeralValue p.1, p.2)
      | '-' :: rest => (digits? rest).map fun p => (-(numeralValue p.1 : Int), p.2)
      | _ => (digits? rest).map fun p => (numeralValue p.1, p.2)
    else none
  | [] => none

/-- An unsigned number and the text after it. -/
def number? (negative : Bool) (cs : List Char) : Option (Token × List Char) :=
  match wholePart? cs with
  | none => none
  | some (whole, rest) =>
    match fraction? rest, exponent? ((fraction? rest).elim rest Prod.snd) with
    | none, none =>
      if whole.length > maxNumeralDigits then some (.longInteger whole.length, rest)
      else
        let n : Int := numeralValue whole
        some (.scalar (.int (if negative then -n else n)), rest)
    | fraction, exponent =>
      let places := fraction.elim [] Prod.fst
      let power := exponent.elim 0 Prod.fst - places.length
      some (.scalar (.float (Number.ofDecimal negative (numeralValue (whole ++ places)) power)),
        exponent.elim (fraction.elim rest Prod.snd) Prod.snd)

theorem length_digits? {cs ds rest : List Char} (h : digits? cs = some (ds, rest)) :
    rest.length < cs.length := by
  simp only [digits?] at h
  split at h
  · simp at h
  · rename_i hne
    cases h
    have hlen := congrArg List.length (List.takeWhile_append_dropWhile (p := Char.isDigit) (l := cs))
    have hpos := List.length_pos_iff.2 (mt List.isEmpty_iff.2 hne)
    rw [List.length_append] at hlen
    omega

theorem length_wholePart? {cs ds rest : List Char} (h : wholePart? cs = some (ds, rest)) :
    rest.length < cs.length := by
  unfold wholePart? at h
  split at h
  · cases h; simp
  · exact length_digits? h

theorem length_fraction? {cs ds rest : List Char} (h : fraction? cs = some (ds, rest)) :
    rest.length ≤ cs.length := by
  unfold fraction? at h
  split at h
  · have := length_digits? h
    simp only [List.length_cons]
    omega
  · simp at h

theorem length_exponent? {cs rest : List Char} {e : Int} (h : exponent? cs = some (e, rest)) :
    rest.length ≤ cs.length := by
  unfold exponent? at h
  repeat' split at h
  all_goals simp only [Option.map_eq_some_iff, reduceCtorEq] at h
  all_goals
    obtain ⟨⟨ds, r⟩, hd, hr⟩ := h
    cases hr
    have := length_digits? hd
    simp only [List.length_cons] at *
    omega

theorem length_number? {negative : Bool} {cs rest : List Char} {t : Token}
    (h : number? negative cs = some (t, rest)) : rest.length < cs.length := by
  unfold number? at h
  split at h
  · simp at h
  · rename_i whole r hw
    have h1 := length_wholePart? hw
    split at h
    · split at h <;> cases h <;> exact h1
    · rename_i fraction exponent hne
      simp only [Option.some.injEq, Prod.mk.injEq] at h
      obtain ⟨-, rfl⟩ := h
      cases hf : fraction? r with
      | none =>
        simp only [Option.elim_none]
        cases he : exponent? r with
        | none => simpa using h1
        | some p =>
          obtain ⟨e, r₂⟩ := p
          simpa using Nat.lt_of_le_of_lt (length_exponent? he) h1
      | some q =>
        obtain ⟨ds, r₂⟩ := q
        have h2 := length_fraction? hf
        simp only [Option.elim_some]
        cases he : exponent? r₂ with
        | none => simpa using Nat.lt_of_le_of_lt h2 h1
        | some p =>
          obtain ⟨e, r₃⟩ := p
          have h3 := length_exponent? he
          simpa using Nat.lt_of_le_of_lt h3 (Nat.lt_of_le_of_lt h2 h1)

/-! ## Words -/

/-- The text after a word that stands in front. -/
def afterWord? : List Char → List Char → Option (List Char)
  | [], cs => some cs
  | _ :: _, [] => none
  | w :: word, c :: cs => if w == c then afterWord? word cs else none

/-- The words with a value. -/
def words : List (String × Json) :=
  [("null", .null), ("true", .bool true), ("false", .bool false),
    ("NaN", .float (Float.ofBits 0x7ff8000000000000)),
    ("Infinity", .float (Float.ofBits 0x7ff0000000000000)),
    ("-Infinity", .float (Float.ofBits 0xfff0000000000000))]

/-- A word in front of a text, less its first character. -/
def word? (first : Char) (cs : List Char) : Option (Token × List Char) :=
  words.findSome? fun w =>
    match w.1.toList with
    | c :: more => if c == first then (afterWord? more cs).map fun r => (.scalar w.2, r) else none
    | [] => none

theorem length_afterWord? {word cs rest : List Char} (h : afterWord? word cs = some rest) :
    rest.length ≤ cs.length := by
  fun_induction afterWord? word cs with
  | case1 => simp_all
  | case2 => simp at h
  | case3 w word c cs hc ih => exact Nat.le_trans (ih h) (by simp)
  | case4 => simp at h

theorem length_word? {first : Char} {cs rest : List Char} {t : Token}
    (h : word? first cs = some (t, rest)) : rest.length ≤ cs.length := by
  simp only [word?] at h
  obtain ⟨w, -, hw⟩ := List.exists_of_findSome?_eq_some h
  split at hw
  · split at hw
    · obtain ⟨r, hr, hq⟩ := Option.map_eq_some_iff.1 hw
      cases hq
      exact length_afterWord? hr
    · simp at hw
  · simp at hw

/-! ## Tokens -/

/-- Brackets and separators. -/
def punctuation? : Char → Option Token
  | '[' => some .openArray
  | ']' => some .closeArray
  | '{' => some .openObject
  | '}' => some .closeObject
  | ',' => some .comma
  | ':' => some .colon
  | _ => none

/-- The four characters that may stand between tokens. -/
def isSpace (c : Char) : Bool := c == ' ' || c == '\t' || c == '\n' || c == '\r'

/-- A number or a word that starts with a given character. -/
def scalar? (c : Char) (rest : List Char) : Option (Token × List Char) :=
  if c.isDigit then number? false (c :: rest)
  else if c == '-' then (word? c rest).or (number? true rest)
  else word? c rest

theorem length_scalar? {c : Char} {cs rest : List Char} {t : Token}
    (h : scalar? c cs = some (t, rest)) : rest.length ≤ cs.length := by
  unfold scalar? at h
  split at h
  · exact Nat.le_of_lt_succ (length_number? h)
  · split at h
    · rcases Option.or_eq_some_iff.1 h with h | ⟨-, h⟩
      · exact length_word? h
      · exact Nat.le_of_lt (length_number? h)
    · exact length_word? h

/-- The tokens of a text. -/
def tokens : List Char → List Token
  | [] => []
  | c :: rest =>
    if isSpace c then tokens rest
    else
      match punctuation? c with
      | some t => t :: tokens rest
      | none =>
        if c == '"' then
          match _h : stringUnits? rest with
          | some (units, after) => .string (.ofCodes (joinUnits units)) :: tokens after
          | none => [.malformed]
        else
          match _h : scalar? c rest with
          | some (t, after) => t :: tokens after
          | none => [.malformed]
  termination_by cs => cs.length
  decreasing_by
    · simp
    · simp
    · have := length_stringUnits? _h
      simp only [List.length_cons]
      omega
    · have := length_scalar? _h
      simp only [List.length_cons]
      omega

end Spreadsheet.Json
