import Mathlib
import Spreadsheet.Proofs.Number.Exact

/-!
# Percentages are finite

**Theorem (`isFinite_div_hundred`).** A finite double divided by a hundred is finite.

The quotient of the mantissas has at most 54 bits, and its exponent is smaller than that of the largest
double by more than rounding may add (`packable_roundWithAccuracy`).
-/

namespace Spreadsheet.Number

open Float.Model (Format UnpackedFloat)
open Float.Model.UnpackedFloat (ExtendedMantissa Accuracy Sign)

/-! ## Rounding -/

theorem mantissa_shiftRight_le (em : ExtendedMantissa) (n : Nat) : (em >>> n).mantissa ≤ em.mantissa := by
  induction n with
  | zero => exact le_rfl
  | succ n ih => exact (Nat.div_le_self _ 2).trans ih

theorem roundedMantissa_le (em : ExtendedMantissa) : em.roundedMantissa ≤ em.mantissa + 1 := by
  obtain ⟨m, roundBit, stickyBit⟩ := em
  cases roundBit <;> cases stickyBit <;>
    simp only [ExtendedMantissa.roundedMantissa, ExtendedMantissa.accuracy,
      Accuracy.roundToNearestEven] <;> omega

theorem log2_le {m k : Nat} (h : m < 2 ^ (k + 1)) : m.log2 ≤ k := by
  rcases Nat.eq_zero_or_pos m with rfl | hpos
  · rw [Nat.log2_zero]
    exact Nat.zero_le k
  · exact Nat.le_of_lt_succ ((Nat.log2_lt hpos.ne').2 h)

/-- A mantissa is shifted by the bits that it has too many. -/
theorem shiftToTargetExponent_le {m k : Nat} {e : ℤ} (accuracy : Accuracy) (hm : m < 2 ^ (52 + k + 1))
    (he : -1074 ≤ e) :
    (UnpackedFloat.shiftToTargetExponent .binary64 m e accuracy).1.mantissa ≤ m ∧
      e ≤ (UnpackedFloat.shiftToTargetExponent .binary64 m e accuracy).2 ∧
      (UnpackedFloat.shiftToTargetExponent .binary64 m e accuracy).2 ≤ e + k := by
  have hlog := log2_le hm
  have hinitial : (ExtendedMantissa.ofMantissaAndAccuracy m accuracy).mantissa = m := by
    rcases accuracy with _ | (_ | _ | _) <;> rfl
  refine ⟨(mantissa_shiftRight_le _ _).trans hinitial.le, ?_, ?_⟩ <;>
    simp only [UnpackedFloat.shiftToTargetExponent, UnpackedFloat.shiftToExponent,
      Format.targetExponent, Float.Model.totalExponent, Format.mantissaBits, Format.minExponent] <;>
    omega

/-- A number that is small enough to be packed. -/
def Packable : UnpackedFloat → Prop
  | .zero _ => True
  | .finite _ _ e _ => e ≤ 971
  | _ => False

/-- Rounding adds three to the exponent at most, if the mantissa has 54 bits. -/
theorem packable_roundWithAccuracy {m : Nat} {e : ℤ} (s : Sign) (accuracy : Accuracy)
    (hm : m < 2 ^ 54) (hlow : -1074 ≤ e) (hhigh : e ≤ 968) :
    Packable (UnpackedFloat.roundWithAccuracy .binary64 s m e accuracy) := by
  obtain ⟨hmantissa, hge, hle⟩ := shiftToTargetExponent_le (k := 1) accuracy hm hlow
  unfold UnpackedFloat.roundWithAccuracy
  generalize UnpackedFloat.shiftToTargetExponent .binary64 m e accuracy = first at *
  obtain ⟨em, e'⟩ := first
  have hrounded := roundedMantissa_le em
  dsimp only at *
  obtain ⟨-, -, hfinal⟩ := shiftToTargetExponent_le (k := 2) (e := e') .exact
    (show em.roundedMantissa < 2 ^ 55 by omega) (by omega)
  split_ifs
  · trivial
  · show _ ≤ _
    omega

/-! ## Packing -/

/-- The last exponent is that of infinities and of what is no number. -/
theorem isFinite_of_exponent {x : Float}
    (h : @UnpackedFloat.unpackExponent .binary64 x.toBits.toBitVec ≠ -1#11) : isFinite x = true := by
  have hexponent := toNat_unpackExponent x.toBits
  have hlast : (@UnpackedFloat.unpackExponent .binary64 x.toBits.toBitVec).toNat ≠ 2047 :=
    fun heq => h (BitVec.eq_of_toNat_eq heq)
  rw [isFinite_iff]
  show _ < 2047 * 2 ^ 52
  omega

/-- What is packed without overflow is finite. -/
theorem isFinite_pack {u : UnpackedFloat} (h : Packable u) :
    isFinite (.ofModel (Float.Model.pack u)) = true := by
  refine isFinite_of_exponent ?_
  show UnpackedFloat.unpackExponent (UnpackedFloat.pack .binary64 u) ≠ _
  cases u with
  | infinity => exact h.elim
  | notANumber => exact h.elim
  | zero s =>
    rw [UnpackedFloat.pack, UnpackedFloat.packedZero, UnpackedFloat.unpackExponent_packComponents]
    decide
  | finite s m e hm =>
    have h : e ≤ 971 := h
    have hbias : Format.binary64.exponentBias = 1023 := rfl
    rw [UnpackedFloat.pack]
    dsimp only
    split_ifs with hoverflow
    · rw [hbias] at hoverflow
      omega
    · rw [UnpackedFloat.unpackExponent_packComponents]
      intro hlast
      have hlast := congrArg BitVec.toNat hlast
      rw [BitVec.toNat_ofNat, show (-1#11).toNat = 2047 from rfl] at hlast
      rw [hbias] at hoverflow hlast
      omega
    · rw [UnpackedFloat.unpackExponent_packComponents]
      decide

/-! ## Division -/

/-- A hundred is a mantissa of 53 bits, shifted by 46. -/
theorem unpack_hundred :
    (100 : Float).toModel.unpack = .finite .positive (100 * 2 ^ 46) (-46) (by decide) := rfl

/-- A mantissa that was shifted by as many bits as it lacks is not too large as a quotient. -/
theorem quotient_lt {m k : Nat} (h : m.log2 + k ≤ 105) : m <<< k / (100 * 2 ^ 46) < 2 ^ 54 := by
  rw [Nat.shiftLeft_eq, Nat.div_lt_iff_lt_mul (by decide)]
  calc m * 2 ^ k < 2 ^ (m.log2 + 1) * 2 ^ k :=
        Nat.mul_lt_mul_of_pos_right Nat.lt_log2_self (Nat.two_pow_pos k)
    _ = 2 ^ (m.log2 + 1 + k) := (Nat.pow_add 2 _ k).symm
    _ ≤ 2 ^ 106 := Nat.pow_le_pow_right (by decide) (by omega)
    _ ≤ 2 ^ 54 * (100 * 2 ^ 46) := by decide

/-- **A finite double divided by a hundred is finite.** -/
theorem isFinite_div_hundred {x : Float} (h : isFinite x = true) : isFinite (x / 100) = true := by
  obtain ⟨negative, magnitude, hmagnitude, -, -, hunpacks⟩ := exists_magnitude h
  refine isFinite_pack (u := UnpackedFloat.div .binary64 x.toModel.unpack
    (100 : Float).toModel.unpack) ?_
  rw [unpack_hundred]
  generalize x.toModel.unpack = u at hunpacks ⊢
  cases hunpacks with
  | zero => trivial
  | @finite _ _ s m e hm hk hsize hs he =>
    have hmagnitude : magnitude < 2047 * 2 ^ 52 := hmagnitude
    have hlog : m.log2 ≤ 52 := log2_le hsize
    have hlog' : Nat.log2 (100 * 2 ^ 46) = 52 := by decide +kernel
    simp only [UnpackedFloat.div, UnpackedFloat.divCore, Format.targetExponent,
      Float.Model.totalExponent, Format.mantissaBits, Format.minExponent]
    rw [hlog']
    exact packable_roundWithAccuracy _ _ (quotient_lt (by omega)) (by omega) (by omega)

end Spreadsheet.Number
