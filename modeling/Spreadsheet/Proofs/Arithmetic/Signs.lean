import Mathlib
import Spreadsheet.Number.Double

/-!
# The sign of a quotient

Main result: `neg_divide`. A quotient changes its sign with its dividend, so a sign may stand inside
or outside of a percentage.

A double is packed from a sign, a mantissa and an exponent. Division works on unpacked numbers and
rounds mantissas without regard to the sign (`unpacked_neg_div`). What is left is that packing is
blind to the sign too: the sign is a bit of its own (`unpack_packComponents_neg`).
-/

namespace Spreadsheet.Number

open Float.Model (Format UnpackedFloat)

/-! ## Unpacked numbers -/

theorem sign_neg_div (s s' : UnpackedFloat.Sign) : -s / s' = -(s / s') := by
  cases s <;> cases s' <;> rfl

theorem roundWithAccuracy_neg (spec : Format) (s : UnpackedFloat.Sign) (m : Nat) (e : Int)
    (accuracy : UnpackedFloat.Accuracy) :
    UnpackedFloat.roundWithAccuracy spec (-s) m e accuracy =
      (UnpackedFloat.roundWithAccuracy spec s m e accuracy).neg := by
  simp only [UnpackedFloat.roundWithAccuracy]
  split <;> rfl

theorem unpacked_neg_div (spec : Format) (u v : UnpackedFloat) :
    UnpackedFloat.div spec u.neg v = (UnpackedFloat.div spec u v).neg := by
  cases u <;> cases v <;>
    simp only [UnpackedFloat.neg, UnpackedFloat.div, sign_neg_div, roundWithAccuracy_neg]

/-! ## Packing -/

theorem unpack_packComponents_neg {spec : Format} (s : UnpackedFloat.Sign)
    (e : BitVec spec.exponentBits) (m : BitVec spec.mantissaBitsWithoutImplicit) :
    UnpackedFloat.unpack spec (UnpackedFloat.packComponents spec (-s) e m) =
      (UnpackedFloat.unpack spec (UnpackedFloat.packComponents spec s e m)).neg := by
  simp only [UnpackedFloat.unpack, UnpackedFloat.unpackExponent_packComponents,
    UnpackedFloat.unpackMantissa_packComponents, UnpackedFloat.unpackSign_packComponents,
    UnpackedFloat.Sign.ofBitVec_toBitVec]
  split
  · split <;> rfl
  · split
    · split <;> rfl
    · rfl

/-- Packing rounds a number the same way with either sign. -/
theorem unpack_pack_neg (u : UnpackedFloat) :
    (Float.Model.pack u.neg).unpack = (Float.Model.pack u).unpack.neg := by
  show UnpackedFloat.unpack .binary64 (UnpackedFloat.pack .binary64 u.neg) =
    (UnpackedFloat.unpack .binary64 (UnpackedFloat.pack .binary64 u)).neg
  cases u with
  | notANumber =>
    rw [UnpackedFloat.neg, UnpackedFloat.pack, UnpackedFloat.unpack_packedNaN]
    rfl
  | infinity s => exact unpack_packComponents_neg s _ _
  | zero s => exact unpack_packComponents_neg s _ _
  | finite s m e hm =>
    simp only [UnpackedFloat.neg, UnpackedFloat.pack]
    split
    · exact unpack_packComponents_neg s _ _
    · split <;> exact unpack_packComponents_neg s _ _

theorem pack_unpack (a : Float.Model) : Float.Model.pack a.unpack = a := by
  obtain ⟨bits, hvalid⟩ := a
  simp only [Float.Model.pack, Float.Model.unpack, UnpackedFloat.pack_unpack_of_valid hvalid]

theorem unpack_neg (a : Float.Model) : a.neg.unpack = a.unpack.neg := by
  rw [Float.Model.neg, unpack_pack_neg, pack_unpack]

theorem pack_neg (u : UnpackedFloat) : Float.Model.pack u.neg = (Float.Model.pack u).neg := by
  rw [Float.Model.neg, ← unpack_pack_neg, pack_unpack]

/-! ## Doubles -/

theorem model_neg_div (a b : Float.Model) : a.neg.div b = (a.div b).neg := by
  rw [Float.Model.div, Float.Model.div, unpack_neg, unpacked_neg_div, pack_neg]

/-- A quotient changes its sign with its dividend. -/
theorem neg_divide (x y : Float) : -x / y = -(x / y) :=
  congrArg Float.ofModel (model_neg_div x.toModel y.toModel)

end Spreadsheet.Number
