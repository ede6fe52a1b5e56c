import Spreadsheet.Text.Encoding

/-!
# Bytes of text

A text is encoded as bytes, one to four for each character. Files are decoded strictly.

**Theorem (`decodeFile_eq_some_iff`).** Bytes are decoded to a text exactly if they are the bytes of
this text. So the only bytes that are not decoded are those of no text.

Both directions go by characters: the bytes of a character are decoded to it (`decodeUtf8_append`), and
what is decoded first are the bytes of a character (`eq_append_of_decodeUtf8`).
-/

namespace Spreadsheet.Text

/-! ## Code points of characters -/

theorem allowed?_eq_some_iff {n m : Nat} :
    allowed? true n = some m ↔ n = m ∧ n.isValidChar := by
  unfold allowed?
  split
  · rename_i h
    simp only [Bool.true_and, Bool.or_eq_true, decide_eq_true_eq, isSurrogate_iff] at h
    simp only [reduceCtorEq, Nat.isValidChar, false_iff]
    omega
  · rename_i h
    simp only [Bool.true_and, Bool.or_eq_true, decide_eq_true_eq, isSurrogate_iff] at h
    simp only [Option.some.injEq, Nat.isValidChar]
    omega

theorem allowed?_toNat (c : Char) : allowed? true c.toNat = some c.toNat :=
  allowed?_eq_some_iff.2 ⟨rfl, c.valid⟩

theorem toNat_ofNat {n : Nat} (h : n.isValidChar) : (Char.ofNat n).toNat = n := by
  rw [Char.ofNat, dif_pos h]
  rfl

/-! ## The bytes of a character -/

theorem toNat_byte {n : Nat} (h : n < 256) : (UInt8.ofNat n).toNat = n :=
  UInt8.toNat_ofNat_of_lt h

theorem continuation?_byte {n : Nat} (h : n < 64) : continuation? (UInt8.ofNat (n + 128)) = some n := by
  rw [continuation?, toNat_byte (by omega), if_pos (by omega), Nat.add_sub_cancel]

theorem eq_byte_of_continuation? {b : UInt8} {n : Nat} (h : continuation? b = some n) :
    b.toNat = n + 128 ∧ n < 64 := by
  unfold continuation? at h
  split at h
  · have hn := Option.some.inj h
    omega
  · cases h

theorem code2?_bytes {n : Nat} (h : 127 < n) (h' : n ≤ 2047) :
    code2? (UInt8.ofNat (n / 64 % 32 + 192)) (UInt8.ofNat (n % 64 + 128)) = some n := by
  rw [code2?, continuation?_byte (Nat.mod_lt n (by decide)), toNat_byte (by omega)]
  dsimp only
  congr 1
  omega

theorem code3?_bytes {n : Nat} (h : 2047 < n) (h' : n ≤ 65535) :
    code3? (UInt8.ofNat (n / 4096 % 16 + 224)) (UInt8.ofNat (n / 64 % 64 + 128))
      (UInt8.ofNat (n % 64 + 128)) = some n := by
  have hn : (n / 4096 % 16 + 224 - 0xe0) * 0x1000 + n / 64 % 64 * 0x40 + n % 64 = n := by omega
  rw [code3?, continuation?_byte (Nat.mod_lt _ (by decide)),
    continuation?_byte (Nat.mod_lt n (by decide)), toNat_byte (by omega)]
  dsimp only
  rw [hn, if_pos (by omega)]

theorem code4?_bytes {n : Nat} (h : 65535 < n) (h' : n < 0x110000) :
    code4? (UInt8.ofNat (n / 262144 % 8 + 240)) (UInt8.ofNat (n / 4096 % 64 + 128))
      (UInt8.ofNat (n / 64 % 64 + 128)) (UInt8.ofNat (n % 64 + 128)) = some n := by
  have hn : (n / 262144 % 8 + 240 - 0xf0) * 0x40000 + n / 4096 % 64 * 0x1000 + n / 64 % 64 * 0x40 +
      n % 64 = n := by omega
  rw [code4?, continuation?_byte (Nat.mod_lt _ (by decide)),
    continuation?_byte (Nat.mod_lt _ (by decide)),
    continuation?_byte (Nat.mod_lt n (by decide)), toNat_byte (by omega)]
  dsimp only
  rw [hn, if_pos (by omega)]

/-- **The bytes of a character are decoded to it.** -/
theorem decodeUtf8_append (c : Char) (rest : List UInt8) :
    decodeUtf8 true (String.utf8EncodeChar c ++ rest) =
      (decodeUtf8 true rest).map (c.toNat :: ·) := by
  have hallowed := allowed?_toNat c
  have hbound : c.toNat < 0x110000 := by
    rcases c.valid with h | ⟨-, h⟩
    · exact Nat.lt_trans h (by decide)
    · exact h
  have hvalue : c.val.toNat = c.toNat := rfl
  unfold String.utf8EncodeChar
  rw [hvalue]
  generalize c.toNat = n at hallowed hbound
  dsimp only
  split
  · rw [List.singleton_append, decodeUtf8.eq_def]
    dsimp only
    rw [toNat_byte (by omega), if_pos (by omega)]
  · split
    · rw [List.cons_append, List.singleton_append, decodeUtf8.eq_def]
      dsimp only
      rw [toNat_byte (by omega), if_neg (by omega), if_neg (by omega), if_pos (by omega),
        code2?_bytes (by omega) (by omega), Option.bind_some, hallowed]
    · split
      · rw [List.cons_append, List.cons_append, List.singleton_append, decodeUtf8.eq_def]
        dsimp only
        rw [toNat_byte (by omega), if_neg (by omega), if_neg (by omega), if_neg (by omega),
          if_pos (by omega), code3?_bytes (by omega) (by omega), Option.bind_some, hallowed]
      · rw [List.cons_append, List.cons_append, List.cons_append, List.singleton_append,
          decodeUtf8.eq_def]
        dsimp only
        rw [toNat_byte (by omega), if_neg (by omega), if_neg (by omega), if_neg (by omega),
          if_neg (by omega), if_pos (by omega), code4?_bytes (by omega) (by omega),
          Option.bind_some, hallowed]

/-! ## What is decoded to a character -/

theorem byte_eq {n : Nat} {b : UInt8} (h : n = b.toNat) : UInt8.ofNat n = b := by
  rw [h, UInt8.ofNat_toNat]

variable {a b d e : UInt8} {c : Char}

theorem utf8EncodeChar_of_byte (ha : a.toNat < 0x80) (h : a.toNat = c.toNat) :
    String.utf8EncodeChar c = [a] := by
  have hvalue : c.val.toNat = c.toNat := rfl
  unfold String.utf8EncodeChar
  rw [hvalue, ← h]
  dsimp only
  rw [if_pos (by omega), UInt8.ofNat_toNat]

theorem utf8EncodeChar_of_code2? (ha : 0xc2 ≤ a.toNat) (ha' : a.toNat < 0xe0)
    (h : code2? a b = some c.toNat) : String.utf8EncodeChar c = [a, b] := by
  have hvalue : c.val.toNat = c.toNat := rfl
  unfold code2? at h
  split at h
  · rename_i y hy
    obtain ⟨hb, hy⟩ := eq_byte_of_continuation? hy
    have hn := Option.some.inj h
    unfold String.utf8EncodeChar
    rw [hvalue, ← hn]
    dsimp only
    rw [if_neg (by omega), if_pos (by omega), byte_eq (b := a) (by omega),
      byte_eq (b := b) (by omega)]
  · cases h

theorem utf8EncodeChar_of_code3? (ha : 0xe0 ≤ a.toNat) (ha' : a.toNat < 0xf0)
    (h : code3? a b d = some c.toNat) : String.utf8EncodeChar c = [a, b, d] := by
  have hvalue : c.val.toNat = c.toNat := rfl
  unfold code3? at h
  split at h
  · rename_i y z hy hz
    obtain ⟨hb, hy⟩ := eq_byte_of_continuation? hy
    obtain ⟨hd, hz⟩ := eq_byte_of_continuation? hz
    dsimp only at h
    split at h
    · have hn := Option.some.inj h
      unfold String.utf8EncodeChar
      rw [hvalue, ← hn]
      dsimp only
      rw [if_neg (by omega), if_neg (by omega), if_pos (by omega), byte_eq (b := a) (by omega),
        byte_eq (b := b) (by omega), byte_eq (b := d) (by omega)]
    · cases h
  · cases h

theorem utf8EncodeChar_of_code4? (ha : 0xf0 ≤ a.toNat) (ha' : a.toNat < 0xf5)
    (h : code4? a b d e = some c.toNat) : String.utf8EncodeChar c = [a, b, d, e] := by
  have hvalue : c.val.toNat = c.toNat := rfl
  unfold code4? at h
  split at h
  · rename_i y z w hy hz hw
    obtain ⟨hb, hy⟩ := eq_byte_of_continuation? hy
    obtain ⟨hd, hz⟩ := eq_byte_of_continuation? hz
    obtain ⟨he, hw⟩ := eq_byte_of_continuation? hw
    dsimp only at h
    split at h
    · have hn := Option.some.inj h
      unfold String.utf8EncodeChar
      rw [hvalue, ← hn]
      dsimp only
      rw [if_neg (by omega), if_neg (by omega), if_neg (by omega), byte_eq (b := a) (by omega),
        byte_eq (b := b) (by omega), byte_eq (b := d) (by omega), byte_eq (b := e) (by omega)]
    · cases h
  · cases h

/-- A code point that is allowed is that of a character. -/
theorem exists_of_bind_allowed? {code? : Option Nat} {n : Nat}
    (h : code?.bind (allowed? true) = some n) : ∃ c : Char, n = c.toNat ∧ code? = some c.toNat := by
  obtain ⟨m, hm, hallowed⟩ := Option.bind_eq_some_iff.1 h
  obtain ⟨rfl, hvalid⟩ := allowed?_eq_some_iff.1 hallowed
  exact ⟨Char.ofNat m, (toNat_ofNat hvalid).symm, by rw [toNat_ofNat hvalid, hm]⟩

/-- What is decoded first is a character, if its code point is that of the bytes that encode it. -/
theorem exists_of_map_cons {code? : Option Nat} {m n : Nat} {encoded rest : List UInt8}
    {codes : List Nat} (hm : code?.bind (allowed? true) = some m)
    (hencoded : ∀ c : Char, code? = some c.toNat → String.utf8EncodeChar c = encoded)
    (h : (decodeUtf8 true rest).map (m :: ·) = some (n :: codes)) :
    ∃ (c : Char) (later : List UInt8), n = c.toNat ∧
      encoded ++ rest = String.utf8EncodeChar c ++ later ∧ decodeUtf8 true later = some codes := by
  obtain ⟨c, hc, hcode⟩ := exists_of_bind_allowed? hm
  obtain ⟨decoded, hdecoded, heq⟩ := Option.map_eq_some_iff.1 h
  obtain ⟨rfl, rfl⟩ := List.cons.inj heq
  exact ⟨c, rest, hc, by rw [hencoded c hcode], hdecoded⟩

/-- **What is decoded first are the bytes of a character.** -/
theorem eq_append_of_decodeUtf8 {bytes : List UInt8} {n : Nat} {codes : List Nat}
    (h : decodeUtf8 true bytes = some (n :: codes)) :
    ∃ (c : Char) (rest : List UInt8), n = c.toNat ∧ bytes = String.utf8EncodeChar c ++ rest ∧
      decodeUtf8 true rest = some codes := by
  revert h
  -- One, two, three or four bytes are decoded to a code point; in all other cases there is none.
  fun_cases decodeUtf8 true bytes
  case case2 a rest ha =>
    have hallowed : (some a.toNat).bind (allowed? true) = some a.toNat :=
      allowed?_eq_some_iff.2 ⟨rfl, .inl (by omega)⟩
    exact exists_of_map_cons hallowed fun c hc => utf8EncodeChar_of_byte ha (Option.some.inj hc)
  case case5 a _ hlow b rest hhigh m hm =>
    exact exists_of_map_cons hm fun c => utf8EncodeChar_of_code2? (by omega) hhigh
  case case8 a _ _ b hlow d rest hhigh m hm =>
    exact exists_of_map_cons hm fun c => utf8EncodeChar_of_code3? (by omega) hhigh
  case case11 a _ _ b _ d hlow e rest hhigh m hm =>
    exact exists_of_map_cons hm fun c => utf8EncodeChar_of_code4? (by omega) hhigh
  all_goals exact fun h => by cases h

/-! ## Files -/

theorem decodeUtf8_flatMap (cs : List Char) :
    decodeUtf8 true (cs.flatMap String.utf8EncodeChar) = some (cs.map Char.toNat) := by
  induction cs with
  | nil => rfl
  | cons c cs ih =>
    rw [List.flatMap_cons, decodeUtf8_append, ih]
    rfl

/-- Only nothing is decoded to nothing. -/
theorem eq_nil_of_decodeUtf8 {bytes : List UInt8} (h : decodeUtf8 true bytes = some []) :
    bytes = [] := by
  revert h
  fun_cases decodeUtf8 true bytes <;> simp

theorem exists_of_decodeUtf8 {bytes : List UInt8} {codes : List Nat}
    (h : decodeUtf8 true bytes = some codes) :
    ∃ cs : List Char, codes = cs.map Char.toNat ∧ bytes = cs.flatMap String.utf8EncodeChar := by
  induction codes generalizing bytes with
  | nil => exact ⟨[], rfl, eq_nil_of_decodeUtf8 h⟩
  | cons n codes ih =>
    obtain ⟨c, rest, rfl, rfl, hrest⟩ := eq_append_of_decodeUtf8 h
    obtain ⟨cs, rfl, rfl⟩ := ih hrest
    exact ⟨c :: cs, rfl, rfl⟩

theorem toList_eq (bytes : ByteArray) : bytes.toList = bytes.data.toList := by
  have hloop : ∀ (i : Nat) (before : List UInt8),
      ByteArray.toList.loop bytes i before = before.reverse ++ bytes.data.toList.drop i := by
    intro i before
    fun_induction ByteArray.toList.loop bytes i before with
    | case1 i before hi ih =>
      have hlt : i < bytes.data.toList.length := by simpa using hi
      have hget : bytes.get! i = bytes.data.toList[i] := by
        simp [ByteArray.get!, hi]
      rw [ih, List.drop_eq_getElem_cons hlt, List.reverse_cons, List.append_assoc, hget]
      rfl
    | case2 i before hi =>
      rw [List.drop_eq_nil_of_le (by simpa using hi), List.append_nil]
  exact (hloop 0 []).trans (by simp)

/-- The bytes of a text are those of its characters. -/
theorem toUTF8_toList (text : String) :
    text.toUTF8.toList = text.toList.flatMap String.utf8EncodeChar :=
  calc text.toUTF8.toList = (String.ofList text.toList).toUTF8.toList := by
        rw [String.ofList_toList]
    _ = text.toList.flatMap String.utf8EncodeChar := by
        rw [toList_eq, String.toUTF8_eq_toByteArray, String.toByteArray_ofList, List.utf8Encode,
          List.toList_data_toByteArray]

/-- **Bytes are decoded to a text exactly if they are its bytes.** -/
theorem decodeFile_eq_some_iff {bytes : List UInt8} {text : String} :
    decodeFile bytes = some text.toList ↔ bytes = text.toUTF8.toList := by
  have hchars : ∀ cs : List Char, (cs.map Char.toNat).map Char.ofNat = cs := by
    intro cs
    simp [Function.comp_def]
  rw [toUTF8_toList, decodeFile, Option.map_eq_some_iff]
  constructor
  · rintro ⟨codes, hdecode, htext⟩
    obtain ⟨cs, rfl, rfl⟩ := exists_of_decodeUtf8 hdecode
    rw [← htext, hchars]
  · rintro rfl
    exact ⟨_, decodeUtf8_flatMap text.toList, hchars text.toList⟩

/-- Bytes that are not decoded are those of no text. -/
theorem decodeFile_eq_none_iff {bytes : List UInt8} :
    decodeFile bytes = none ↔ ∀ text : String, bytes ≠ text.toUTF8.toList := by
  constructor
  · intro hnone text hbytes
    rw [decodeFile_eq_some_iff.2 hbytes] at hnone
    cases hnone
  · intro hno
    cases hdecode : decodeFile bytes with
    | none => rfl
    | some cs =>
      refine absurd (decodeFile_eq_some_iff.1 ?_) (hno (String.ofList cs))
      rw [hdecode, String.toList_ofList]

end Spreadsheet.Text
