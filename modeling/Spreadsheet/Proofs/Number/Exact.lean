import Mathlib
import Spreadsheet.Proofs.Arithmetic.Signs
import Spreadsheet.Proofs.Number.Nearest

/-!
# The exact value of a double

A finite double is a rational number (`exact`).

**Theorem (`le_iff_exact_le`).** Finite doubles are compared as their exact values. So the two zeros,
which differ in their sign only, are equal (`beq_iff_exact_eq`).

**Theorem (`isNearest_nearest`).** The double that is taken for a fraction with a sign is the finite
double nearest to it, and of two that are equally near it is the even one.

Both are about the bits of a double without its sign, its magnitude. Mantissa and exponent are those of
the magnitude read as one number (`Unpacks`), so comparing exponents before mantissas is comparing
magnitudes, and the units of a magnitude ascend with it (`strictMono_unitsOfBits`).
-/

namespace Spreadsheet.Number

open Float.Model (Format UnpackedFloat)

variable {x y : Float} {negative : Bool}

/-! ## Magnitudes -/

/-- A magnitude as a mantissa in units of the last place. -/
theorem exists_mantissa (bits : Nat) :
    ∃ s m, bits = s * 2 ^ 52 + m ∧ m < 2 ^ 53 ∧ (s = 0 ∨ 2 ^ 52 ≤ m) :=
  ⟨bits / 2 ^ 52 - 1, bits - (bits / 2 ^ 52 - 1) * 2 ^ 52, by omega, by omega, by omega⟩

/-- The next magnitude has one unit of the last place more. -/
theorem strictMono_unitsOfBits : StrictMono unitsOfBits := by
  refine strictMono_nat_of_lt_succ fun bits => ?_
  obtain ⟨s, m, rfl, hm, hs⟩ := exists_mantissa bits
  rw [Nat.add_assoc, unitsOfBits_mantissa hm.le hs,
    unitsOfBits_mantissa hm (hs.imp_right Nat.le_succ_of_le)]
  exact Nat.mul_lt_mul_of_pos_right (Nat.lt_succ_self m) (Nat.two_pow_pos s)

theorem unitsOfBits_zero : unitsOfBits 0 = 0 := rfl

/-- A natural number with a sign. -/
def signed (negative : Bool) (n : Nat) : ℤ := if negative then -n else n

@[simp] theorem signed_zero (negative : Bool) : signed negative 0 = 0 := by
  cases negative <;> rfl

@[simp] theorem signed_true (n : Nat) : signed true n = -n := rfl

@[simp] theorem signed_false (n : Nat) : signed false n = n := rfl

/-! ## Unpacked doubles -/

/-- The sign of an unpacked double. -/
def signOf (negative : Bool) : UnpackedFloat.Sign := if negative then .negative else .positive

/-- An unpacked double with the sign and the magnitude that it comes from. -/
inductive Unpacks : UnpackedFloat → (negative : Bool) → (magnitude : Nat) → Prop
  | zero {negative : Bool} : Unpacks (.zero (signOf negative)) negative 0
  | finite {negative : Bool} {k s m : Nat} {e : ℤ} (hm : 0 < m) (hk : k = s * 2 ^ 52 + m)
      (hsize : m < 2 ^ 53) (hs : s = 0 ∨ 2 ^ 52 ≤ m) (he : e = s - 1074) :
      Unpacks (.finite (signOf negative) m e hm) negative k

/-- The sign is the highest bit. -/
theorem ofBitVec_unpackSign (bits : UInt64) :
    UnpackedFloat.Sign.ofBitVec (@UnpackedFloat.unpackSign .binary64 bits.toBitVec) =
      signOf (2 ^ 63 ≤ bits.toNat) := by
  have hword : bits.toNat < 2 ^ 64 := bits.toNat_lt
  have hsign : (@UnpackedFloat.unpackSign .binary64 bits.toBitVec).toNat = bits.toNat / 2 ^ 63 := by
    simp [UnpackedFloat.unpackSign, Format.binary64, Nat.shiftRight_eq_div_pow]
    omega
  have hzero : @UnpackedFloat.unpackSign .binary64 bits.toBitVec = 0#1 ↔ ¬2 ^ 63 ≤ bits.toNat := by
    rw [← BitVec.toNat_inj, hsign]
    simp only [BitVec.toNat_ofNat]
    omega
  by_cases h : 2 ^ 63 ≤ bits.toNat
  · simp only [UnpackedFloat.Sign.ofBitVec, signOf, hzero, h, not_true_eq_false, if_false,
      decide_true, if_true]
  · simp only [UnpackedFloat.Sign.ofBitVec, signOf, hzero, h, not_false_eq_true, if_true,
      decide_false, Bool.false_eq_true, if_false]

/-- What the bits of a finite double unpack to. -/
theorem unpacks_unpack (bits : UInt64) (h : bits.toNat % 2 ^ 63 < infinityBits) :
    Unpacks (UnpackedFloat.unpack .binary64 bits.toBitVec) (2 ^ 63 ≤ bits.toNat)
      (bits.toNat % 2 ^ 63) := by
  have hbits : bits.toNat % 2 ^ 63 < 2047 * 2 ^ 52 := h
  have hmantissa : (@UnpackedFloat.unpackMantissa .binary64 bits.toBitVec).toNat =
      bits.toNat % 2 ^ 52 := by
    simp [UnpackedFloat.unpackMantissa, Format.binary64]
  have hexponent := toNat_unpackExponent bits
  simp only [UnpackedFloat.unpack, ofBitVec_unpackSign]
  split_ifs with hlast hnan hzero hnone
  · rw [hlast] at hexponent
    exact absurd hexponent (by simp; omega)
  · rw [hlast] at hexponent
    exact absurd hexponent (by simp; omega)
  · have hmagnitude : bits.toNat % 2 ^ 63 = 0 := by
      rw [hzero] at hexponent
      rw [hnone] at hmantissa
      simp at hexponent hmantissa
      omega
    rw [hmagnitude]
    exact .zero
  · have hmagnitude : bits.toNat % 2 ^ 63 =
        0 * 2 ^ 52 + (@UnpackedFloat.unpackMantissa .binary64 bits.toBitVec).toNat := by
      rw [hzero] at hexponent
      simp at hexponent
      omega
    refine .finite _ hmagnitude (by omega) (.inl rfl) ?_
    simp [hzero, Format.exponentBias]
  · have hnormal : (1#1 ++ @UnpackedFloat.unpackMantissa .binary64 bits.toBitVec).toNat =
        2 ^ 52 + bits.toNat % 2 ^ 52 := by
      rw [BitVec.toNat_append, ← Nat.shiftLeft_add_eq_or_of_lt (BitVec.isLt _), hmantissa]
      rfl
    have hpositive : 0 < (@UnpackedFloat.unpackExponent .binary64 bits.toBitVec).toNat :=
      Nat.pos_of_ne_zero fun h => hzero (BitVec.eq_of_toNat_eq h)
    have hmagnitude : bits.toNat % 2 ^ 63 =
        ((@UnpackedFloat.unpackExponent .binary64 bits.toBitVec).toNat - 1) * 2 ^ 52 +
          (1#1 ++ @UnpackedFloat.unpackMantissa .binary64 bits.toBitVec).toNat := by
      omega
    refine .finite _ hmagnitude (by omega) (.inr (by omega)) ?_
    simp only [Format.exponentBias]
    omega

/-- Infinities and what is no number have the last magnitudes. -/
theorem isFinite_iff : isFinite x = true ↔ x.toBits.toNat % 2 ^ 63 < infinityBits := by
  constructor
  · intro h
    by_contra hnot
    simp only [isFinite, read, Nat.pow_eq, if_neg hnot] at h
    split_ifs at h
  · intro h
    simp only [isFinite, read, Nat.pow_eq, if_pos h]

/-- A finite double has a magnitude. -/
theorem exists_magnitude (h : isFinite x = true) :
    ∃ negative magnitude, magnitude < infinityBits ∧ x.toBits.toNat % 2 ^ 63 = magnitude ∧
      read x = .finite negative (unitsOfBits magnitude) ∧
      Unpacks x.toModel.unpack negative magnitude := by
  have hfinite := isFinite_iff.1 h
  refine ⟨_, _, hfinite, rfl, ?_, unpacks_unpack _ hfinite⟩
  rw [read]
  exact if_pos hfinite

/-- The sign is the highest bit. -/
theorem sign_of_read {negative : Bool} {units : Nat} (h : read x = .finite negative units) :
    2 ^ 63 ≤ x.toBits.toNat ↔ negative = true := by
  have hfinite : x.toBits.toNat % 2 ^ 63 < infinityBits := isFinite_iff.1 (by rw [isFinite, h])
  rw [read] at h
  obtain ⟨hsign, -⟩ := Reading.finite.inj ((if_pos hfinite).symm.trans h)
  rw [← hsign, decide_eq_true_iff]
  rfl

/-! ## Order -/

/-- Exponents are compared before mantissas, which compares magnitudes. -/
theorem compare_magnitudes {s m s' m' : Nat} (hm : m < 2 ^ 53) (hm' : m' < 2 ^ 53)
    (hs : s = 0 ∨ 2 ^ 52 ≤ m) (hs' : s' = 0 ∨ 2 ^ 52 ≤ m') :
    (compare (s - 1074 : ℤ) (s' - 1074)).then (compare m m') =
      compare (s * 2 ^ 52 + m) (s' * 2 ^ 52 + m') := by
  rcases Nat.lt_trichotomy s s' with hlt | rfl | hgt
  · rw [compare_lt_iff_lt.2 (by omega : (s - 1074 : ℤ) < s' - 1074),
      compare_lt_iff_lt.2 (by omega : s * 2 ^ 52 + m < s' * 2 ^ 52 + m')]
    rfl
  · rw [compare_eq_iff_eq.2 (rfl : (s - 1074 : ℤ) = s - 1074), Ordering.eq_then]
    rcases Nat.lt_trichotomy m m' with hlt | rfl | hgt
    · rw [compare_lt_iff_lt.2 hlt, compare_lt_iff_lt.2 (Nat.add_lt_add_left hlt _)]
    · rw [compare_eq_iff_eq.2 rfl, compare_eq_iff_eq.2 rfl]
    · rw [compare_gt_iff_gt.2 hgt, compare_gt_iff_gt.2 (Nat.add_lt_add_left hgt _)]
  · rw [compare_gt_iff_gt.2 (by omega : (s - 1074 : ℤ) > s' - 1074),
      compare_gt_iff_gt.2 (by omega : s * 2 ^ 52 + m > s' * 2 ^ 52 + m')]
    rfl

theorem compare_natCast (a b : Nat) : compare (a : ℤ) (b : ℤ) = compare a b := by
  rcases Nat.lt_trichotomy a b with h | rfl | h
  · rw [compare_lt_iff_lt.2 h, compare_lt_iff_lt.2 (Int.ofNat_lt.2 h)]
  · rw [compare_eq_iff_eq.2 rfl, compare_eq_iff_eq.2 rfl]
  · rw [compare_gt_iff_gt.2 h, compare_gt_iff_gt.2 (Int.ofNat_lt.2 h)]

theorem compare_neg_neg (a b : ℤ) : compare (-a) (-b) = (compare a b).swap := by
  rcases lt_trichotomy a b with h | rfl | h
  · rw [compare_lt_iff_lt.2 h, compare_gt_iff_gt.2 (neg_lt_neg h)]
    rfl
  · rw [compare_eq_iff_eq.2 rfl, compare_eq_iff_eq.2 rfl]
    rfl
  · rw [compare_gt_iff_gt.2 h, compare_lt_iff_lt.2 (neg_lt_neg h)]
    rfl

/-- **Doubles are ordered as their magnitudes with their signs.** -/
theorem Unpacks.compare_eq {u v : UnpackedFloat} {n n' : Bool} {k k' : Nat}
    (hu : Unpacks u n k) (hv : Unpacks v n' k') :
    u.compare v = some (compare (signed n k) (signed n' k')) := by
  cases hu with
  | zero =>
    cases hv with
    | zero => cases n <;> cases n' <;> rfl
    | finite hm' hk' =>
      rw [signed_zero]
      cases n'
      · rw [compare_lt_iff_lt.2 (by rw [signed_false]; omega)]
        rfl
      · rw [compare_gt_iff_gt.2 (by rw [signed_true]; omega)]
        rfl
  | finite hm hk hsize hs he =>
    cases hv with
    | zero =>
      rw [signed_zero]
      cases n
      · rw [compare_gt_iff_gt.2 (by rw [signed_false]; omega)]
        rfl
      · rw [compare_lt_iff_lt.2 (by rw [signed_true]; omega)]
        rfl
    | finite hm' hk' hsize' hs' he' =>
      have hmagnitudes := compare_magnitudes hsize hsize' hs hs'
      rw [← hk, ← hk', ← he, ← he'] at hmagnitudes
      cases n <;> cases n'
      · rw [signed_false, signed_false, compare_natCast, ← hmagnitudes]
        rfl
      · rw [compare_gt_iff_gt.2 (by rw [signed_false, signed_true]; omega)]
        rfl
      · rw [compare_lt_iff_lt.2 (by rw [signed_false, signed_true]; omega)]
        rfl
      · rw [signed_true, signed_true, compare_neg_neg, compare_natCast, ← hmagnitudes]
        rfl

/-! ## Exact values -/

/-- The units of a double with its sign; what is no number counts as zero. -/
def signedUnits (x : Float) : ℤ :=
  match read x with
  | .finite negative units => signed negative units
  | _ => 0

/-- The exact value of a double; what is no number counts as zero. -/
def exact (x : Float) : ℚ := signedUnits x / unitsPerOne

theorem signedUnits_of_read {negative : Bool} {units : Nat} (h : read x = .finite negative units) :
    signedUnits x = signed negative units := by
  rw [signedUnits, h]

theorem unitsPerOne_cast_pos : (0 : ℚ) < unitsPerOne := Nat.cast_pos.2 unitsPerOne_pos

theorem exact_le_exact : exact x ≤ exact y ↔ signedUnits x ≤ signedUnits y := by
  rw [exact, exact, div_le_div_iff_of_pos_right unitsPerOne_cast_pos, Int.cast_le]

/-- The units ascend with the magnitudes, also below zero. -/
theorem signed_units_le {n n' : Bool} {k k' : Nat} :
    signed n (unitsOfBits k) ≤ signed n' (unitsOfBits k') ↔ signed n k ≤ signed n' k' := by
  have hle := strictMono_unitsOfBits.le_iff_le (a := k) (b := k')
  have hge := strictMono_unitsOfBits.le_iff_le (a := k') (b := k)
  have hzero := strictMono_unitsOfBits.injective.eq_iff (a := k) (b := 0)
  have hzero' := strictMono_unitsOfBits.injective.eq_iff (a := k') (b := 0)
  rw [unitsOfBits_zero] at hzero hzero'
  cases n <;> cases n' <;> simp only [signed_true, signed_false] <;> omega

/-- How two finite doubles compare. -/
theorem compare_unpack (hx : isFinite x = true) (hy : isFinite y = true) :
    ∃ i j : ℤ, x.toModel.unpack.compare y.toModel.unpack = some (compare i j) ∧
      (i ≤ j ↔ exact x ≤ exact y) ∧ (j ≤ i ↔ exact y ≤ exact x) := by
  obtain ⟨n, k, -, -, hread, hunpacks⟩ := exists_magnitude hx
  obtain ⟨n', k', -, -, hread', hunpacks'⟩ := exists_magnitude hy
  refine ⟨_, _, hunpacks.compare_eq hunpacks', ?_, ?_⟩
  · rw [exact_le_exact, signedUnits_of_read hread, signedUnits_of_read hread', signed_units_le]
  · rw [exact_le_exact, signedUnits_of_read hread, signedUnits_of_read hread', signed_units_le]

/-- **Finite doubles are compared as their exact values.** -/
theorem le_iff_exact_le (hx : isFinite x = true) (hy : isFinite y = true) :
    x ≤ y ↔ exact x ≤ exact y := by
  obtain ⟨i, j, hcompare, hle, -⟩ := compare_unpack hx hy
  have hany : x ≤ y ↔ (x.toModel.unpack.compare y.toModel.unpack).any (·.isLE) = true :=
    decide_eq_true_iff
  rw [hany, hcompare, ← hle, Option.any_some, Std.isLE_compare]

theorem beq_iff_exact_eq (hx : isFinite x = true) (hy : isFinite y = true) :
    (x == y) = true ↔ exact x = exact y := by
  obtain ⟨i, j, hcompare, hle, hge⟩ := compare_unpack hx hy
  have hbeq : (x == y) = (x.toModel.unpack.compare y.toModel.unpack == some .eq) := rfl
  rw [hbeq, hcompare, beq_iff_eq, Option.some_inj, compare_eq_iff_eq, le_antisymm_iff, hle, hge,
    ← le_antisymm_iff]

/-! ## Negation -/

/-- A magnitude and a sign determine what is unpacked. -/
theorem Unpacks.eq_neg {u v : UnpackedFloat} {k : Nat} (hu : Unpacks u true k)
    (hv : Unpacks v false k) : u = v.neg := by
  cases hu with
  | zero =>
    cases hv with
    | zero => rfl
    | finite => omega
  | @finite _ _ s m e hm hk hsize hs he =>
    cases hv with
    | zero => omega
    | @finite _ _ s' m' e' hm' hk' hsize' hs' he' =>
      obtain ⟨rfl, rfl⟩ : m = m' ∧ e = e' := by omega
      rfl

/-- A double that is negated has the other sign. -/
theorem neg_ofSignBits {bits : Nat} (h : bits < infinityBits) :
    -ofSignBits false bits = ofSignBits true bits := by
  have hbits : bits < 2047 * 2 ^ 52 := h
  have hpositive : (UInt64.ofNat bits).toNat = bits :=
    UInt64.toNat_ofNat_of_lt' (by show _ < 2 ^ 64; omega)
  have hnegative : (UInt64.ofNat (2 ^ 63 + bits)).toNat = 2 ^ 63 + bits :=
    UInt64.toNat_ofNat_of_lt' (by show _ < 2 ^ 64; omega)
  have hu := unpacks_unpack (UInt64.ofNat bits) (by rw [hpositive]; omega)
  have hv := unpacks_unpack (UInt64.ofNat (2 ^ 63 + bits)) (by rw [hnegative]; omega)
  rw [hpositive, decide_eq_false (by omega), Nat.mod_eq_of_lt (by omega)] at hu
  rw [hnegative, decide_eq_true (by omega), Nat.add_mod_left, Nat.mod_eq_of_lt (by omega)] at hv
  refine congrArg Float.ofModel ?_
  show (Float.Model.pack _).neg = Float.Model.pack _
  rw [← pack_neg]
  exact congrArg Float.Model.pack (hv.eq_neg hu).symm

/-! ## The nearest double -/

/-- The finite double nearest to a number; of two that are equally near, the even one. -/
structure IsNearest (r : ℚ) (x : Float) : Prop where
  finite : isFinite x = true
  nearest : ∀ y, isFinite y = true → |exact x - r| ≤ |exact y - r|
  even : ∀ y, isFinite y = true → exact y ≠ exact x → |exact x - r| = |exact y - r| →
    x.toBits.toNat % 2 = 0

theorem abs_natCast_sub (a b : Nat) : |(a - b : ℚ)| = Nat.dist a b := by
  rcases Nat.le_total a b with h | h
  · rw [Nat.dist_eq_sub_of_le h, abs_sub_comm, abs_of_nonneg (sub_nonneg.2 (Nat.cast_le.2 h)),
      Nat.cast_sub h]
  · rw [Nat.dist_eq_sub_of_le_right h, abs_of_nonneg (sub_nonneg.2 (Nat.cast_le.2 h)),
      Nat.cast_sub h]

/-- The distance of a fraction from a number of units. -/
theorem abs_units_sub {den : Nat} (hden : 0 < den) (units num : Nat) :
    |(units / unitsPerOne - num / den : ℚ)| =
      Nat.dist (num * unitsPerOne) (units * den) / (unitsPerOne * den) := by
  have hden' : (0 : ℚ) < den := Nat.cast_pos.2 hden
  have hcommon : (units / unitsPerOne - num / den : ℚ) =
      ((units * den : Nat) - (num * unitsPerOne : Nat)) / (unitsPerOne * den) := by
    have := unitsPerOne_cast_pos.ne'
    field_simp
    push_cast
    ring
  rw [hcommon, abs_div, abs_natCast_sub, Nat.dist_comm,
    abs_of_pos (mul_pos unitsPerOne_cast_pos hden')]

/-- No magnitude is nearer to a fraction than the one taken for it. -/
theorem abs_nearestBits_sub {num den : Nat} (hden : 0 < den) (h : nearestBits num den < infinityBits)
    (bits : Nat) :
    |(unitsOfBits (nearestBits num den) / unitsPerOne - num / den : ℚ)| ≤
        |(unitsOfBits bits / unitsPerOne - num / den : ℚ)| ∧
      (|(unitsOfBits (nearestBits num den) / unitsPerOne - num / den : ℚ)| =
          |(unitsOfBits bits / unitsPerOne - num / den : ℚ)| →
        unitsOfBits bits ≠ unitsOfBits (nearestBits num den) → nearestBits num den % 2 = 0) := by
  have hscale : (0 : ℚ) < unitsPerOne * den := mul_pos unitsPerOne_cast_pos (Nat.cast_pos.2 hden)
  rw [abs_units_sub hden, abs_units_sub hden, div_le_div_iff_of_pos_right hscale,
    div_left_inj' hscale.ne', Nat.cast_le, Nat.cast_inj]
  exact nearestBits_nearest hden h bits

theorem cast_signed_true (n : Nat) : (signed true n : ℚ) = -n := by
  rw [signed_true, Int.cast_neg, Int.cast_natCast]

theorem cast_signed_false (n : Nat) : (signed false n : ℚ) = n := by
  rw [signed_false, Int.cast_natCast]

/-- A sign that both numbers have does not count in their distance. -/
theorem abs_signed_sub (negative : Bool) (units num den : Nat) :
    |(signed negative units / unitsPerOne - signed negative num / den : ℚ)| =
      |(units / unitsPerOne - num / den : ℚ)| := by
  cases negative
  · rw [cast_signed_false, cast_signed_false]
  · rw [cast_signed_true, cast_signed_true, neg_div, neg_div, neg_sub_neg, abs_sub_comm]

/-- Numbers of different signs are as far apart as their sum. -/
theorem abs_signed_not_sub (negative : Bool) (units num den : Nat) :
    |(signed (!negative) units / unitsPerOne - signed negative num / den : ℚ)| =
      units / unitsPerOne + num / den := by
  have hunits : (0 : ℚ) ≤ units / unitsPerOne :=
    div_nonneg (Nat.cast_nonneg _) unitsPerOne_cast_pos.le
  have hnum : (0 : ℚ) ≤ num / den := div_nonneg (Nat.cast_nonneg _) (Nat.cast_nonneg _)
  cases negative
  · rw [Bool.not_false, cast_signed_true, cast_signed_false, neg_div, ← neg_add', abs_neg,
      abs_of_nonneg (add_nonneg hunits hnum)]
  · rw [Bool.not_true, cast_signed_true, cast_signed_false, neg_div, sub_neg_eq_add,
      abs_of_nonneg (add_nonneg hunits hnum)]

/-- Some magnitude is as near to a fraction as a double is to the fraction with a sign: its own, or
zero if it has the other sign. -/
theorem exists_near_magnitude (negative : Bool) (num den : Nat) (hy : isFinite y = true) :
    ∃ bits, |(unitsOfBits bits / unitsPerOne - num / den : ℚ)| ≤
        |exact y - signed negative num / den| ∧
      (|(unitsOfBits bits / unitsPerOne - num / den : ℚ)| = |exact y - signed negative num / den| →
        exact y = signed negative (unitsOfBits bits) / unitsPerOne) := by
  obtain ⟨n, bits, -, -, hread, -⟩ := exists_magnitude hy
  rw [exact, signedUnits_of_read hread]
  by_cases hn : n = negative
  · subst hn
    exact ⟨bits, (abs_signed_sub n _ num den).ge, fun _ => rfl⟩
  · obtain rfl : n = !negative := by rwa [Bool.eq_not]
    have hnum : (0 : ℚ) ≤ num / den := div_nonneg (Nat.cast_nonneg _) (Nat.cast_nonneg _)
    rw [abs_signed_not_sub]
    refine ⟨0, ?_⟩
    rw [unitsOfBits_zero, Nat.cast_zero, zero_div, zero_sub, abs_neg, abs_of_nonneg hnum]
    refine ⟨le_add_of_nonneg_left (div_nonneg (Nat.cast_nonneg _) unitsPerOne_cast_pos.le),
      fun heq => ?_⟩
    have hzero : unitsOfBits bits = 0 := by
      have hquotient := right_eq_add.1 heq
      rwa [div_eq_zero_iff, or_iff_left unitsPerOne_cast_pos.ne', Nat.cast_eq_zero] at hquotient
    rw [hzero, signed_zero, signed_zero]

theorem isFinite_nearest {num den : Nat} (h : nearestBits num den < infinityBits) :
    isFinite (Number.nearest negative num den) = true := by
  rw [Number.nearest, isFinite, read_ofSignBits negative h]

/-- **The double that is taken for a fraction is the nearest one.** -/
theorem isNearest_nearest (negative : Bool) {num den : Nat} (hden : 0 < den)
    (h : num < overflow * den) :
    IsNearest (signed negative num / den) (Number.nearest negative num den) := by
  have hbits := (nearestBits_lt_infinityBits_iff hden).2 h
  have hread := read_ofSignBits negative hbits
  have hfinite : isFinite (Number.nearest negative num den) = true := isFinite_nearest hbits
  have hexact : exact (Number.nearest negative num den) =
      signed negative (unitsOfBits (nearestBits num den)) / unitsPerOne := by
    rw [exact, Number.nearest, signedUnits_of_read hread]
  refine ⟨hfinite, fun y hy => ?_, fun y hy hne heq => ?_⟩
  · obtain ⟨bits, hle, -⟩ := exists_near_magnitude negative num den hy
    rw [hexact, abs_signed_sub]
    exact (abs_nearestBits_sub hden hbits bits).1.trans hle
  · obtain ⟨bits, hle, hsame⟩ := exists_near_magnitude negative num den hy
    rw [hexact, abs_signed_sub] at heq
    obtain ⟨hnearest, heven⟩ := abs_nearestBits_sub hden hbits bits
    have htie := le_antisymm hle (heq ▸ hnearest)
    rw [hsame htie, hexact] at hne
    have hlast := heven (heq.trans htie.symm) fun h => hne (by rw [h])
    -- The last bit of the double is that of its magnitude.
    obtain ⟨n, k, -, hk, hread', -⟩ := exists_magnitude hfinite
    rw [Number.nearest, hread] at hread'
    have hmagnitude : nearestBits num den = k :=
      strictMono_unitsOfBits.injective (Reading.finite.inj hread').2
    omega

end Spreadsheet.Number
