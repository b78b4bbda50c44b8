import Mathlib

/-!
# Adding positive zero to a double

`x + 0.0` is `x` bit for bit, except for `x = -0.0`.  A count kept in a double
starts at `0.0` and grows by `1.0` or `0.0`, so its sign bit stays clear and
the additions of `0.0` can be left out.
-/

namespace MatrixDB.Lib

open Float.Model
open Float.Model.UnpackedFloat

/-- Not a number, or a clear sign. -/
def ClearSign : UnpackedFloat → Prop
  | .notANumber => True
  | .infinity sign => sign = .positive
  | .zero sign => sign = .positive
  | .finite sign _ _ _ => sign = .positive

/-! ## Signs -/

theorem clearSign_unpack {bits : BitVec Format.binary64.numBits}
    (clear : unpackSign bits = 0#1) :
    ClearSign (UnpackedFloat.unpack .binary64 bits) := by
  have positive : Sign.ofBitVec (unpackSign bits) = .positive := by
    rw [clear]
    rfl
  unfold UnpackedFloat.unpack
  simp only [positive]
  split
  · split
    · rfl
    · trivial
  · split
    · split
      · rfl
      · rfl
    · rfl

theorem unpackSign_pack {unpacked : UnpackedFloat}
    (clear : ClearSign unpacked) :
    unpackSign (UnpackedFloat.pack .binary64 unpacked) = 0#1 := by
  cases unpacked with
  | notANumber => exact unpackSign_packComponents ..
  | infinity sign =>
      obtain rfl : sign = .positive := clear
      exact unpackSign_packComponents ..
  | zero sign =>
      obtain rfl : sign = .positive := clear
      exact unpackSign_packComponents ..
  | finite sign mantissa exponent positive =>
      obtain rfl : sign = .positive := clear
      simp only [UnpackedFloat.pack]
      split
      · exact unpackSign_packComponents ..
      · split
        · exact unpackSign_packComponents ..
        · exact unpackSign_packComponents ..

theorem clearSign_round (mantissa : Nat) (exponent : Int) :
    ClearSign (UnpackedFloat.round .binary64 .positive mantissa exponent) := by
  unfold UnpackedFloat.round UnpackedFloat.roundWithAccuracy
  simp only
  split
  · rfl
  · rfl

theorem clearSign_normalize {mantissa : Int} (exponent : Int)
    (positive : 0 ≤ mantissa) :
    ClearSign (UnpackedFloat.normalize .binary64 mantissa exponent .positive) := by
  unfold UnpackedFloat.normalize
  split
  · rename_i below
    have negative : mantissa < 0 := Int.compare_eq_lt.mp below
    omega
  · rfl
  · exact clearSign_round mantissa.toNat exponent

/-- A sum of clear signs has a clear sign. -/
theorem clearSign_add {left right : UnpackedFloat} (leftClear : ClearSign left)
    (rightClear : ClearSign right) :
    ClearSign (UnpackedFloat.add .binary64 left right) := by
  cases left with
  | notANumber => trivial
  | infinity sign =>
      obtain rfl : sign = .positive := leftClear
      cases right with
      | notANumber => trivial
      | infinity other =>
          obtain rfl : other = .positive := rightClear
          rfl
      | zero other => rfl
      | finite other mantissa exponent positive => rfl
  | zero sign =>
      obtain rfl : sign = .positive := leftClear
      cases right with
      | notANumber => trivial
      | infinity other => exact rightClear
      | zero other =>
          obtain rfl : other = .positive := rightClear
          rfl
      | finite other mantissa exponent positive => exact rightClear
  | finite sign mantissa exponent positive =>
      obtain rfl : sign = .positive := leftClear
      cases right with
      | notANumber => trivial
      | infinity other => exact rightClear
      | zero other => rfl
      | finite other mantissa' exponent' positive' =>
          obtain rfl : other = .positive := rightClear
          apply clearSign_normalize
          exact Int.add_nonneg (Int.natCast_nonneg _) (Int.natCast_nonneg _)

/-! ## Doubles -/

/-- Not a number, or a clear sign bit. -/
def FloatClear (x : Float) : Prop := ClearSign x.toModel.unpack

theorem floatClear_add {x y : Float} (left : FloatClear x)
    (right : FloatClear y) : FloatClear (x + y) := by
  apply clearSign_unpack
  exact unpackSign_pack (clearSign_add left right)

theorem floatClear_zero : FloatClear 0.0 := by
  apply clearSign_unpack
  decide +kernel

theorem floatClear_one : FloatClear 1.0 := by
  apply clearSign_unpack
  decide +kernel

theorem unpack_zero : (0.0 : Float).toModel.unpack = .zero .positive := by
  have bits : (0.0 : Float).toModel.toBits = 0 := by decide +kernel
  unfold Float.Model.unpack
  rw [bits]
  rfl

theorem unpackedAdd_zero {unpacked : UnpackedFloat}
    (clear : ClearSign unpacked) :
    UnpackedFloat.add .binary64 unpacked (.zero .positive) = unpacked := by
  cases unpacked with
  | zero sign =>
      obtain rfl : sign = .positive := clear
      rfl
  | _ => rfl

/-- Adding `0.0` changes no clear double. -/
theorem add_zero_of_clear {x : Float} (clear : FloatClear x) :
    x + 0.0 = x := by
  have packed : Float.Model.pack x.toModel.unpack = x.toModel := by
    have bits := pack_unpack_of_valid x.toModel.valid
    unfold Float.Model.pack Float.Model.unpack
    simp only [bits]
  calc
    x + 0.0 =
        .ofModel (.pack (UnpackedFloat.add .binary64 x.toModel.unpack
          (0.0 : Float).toModel.unpack)) := rfl
    _ = .ofModel (.pack x.toModel.unpack) := by
      rw [unpack_zero, unpackedAdd_zero clear]
    _ = x := by rw [packed]

end MatrixDB.Lib
