import MatrixDB.Lib.FloatZero

/-!
# Whole numbers in a double

A double holds every whole number below 2^53, and the sum of two of them is
exact while it stays there.  Their bit patterns are in the order of the
numbers, so that a comparison of bits is a comparison of values.
-/

namespace MatrixDB.Lib

open Float.Model
open Float.Model.UnpackedFloat

/-! ## Rounding what fits -/

theorem repeat_shiftRightOne (mantissa shift : Nat) :
    Nat.repeat ExtendedMantissa.shiftRightOne shift
        ⟨mantissa * 2 ^ shift, false, false⟩ =
      ⟨mantissa, false, false⟩ := by
  induction shift generalizing mantissa with
  | zero => simp [Nat.repeat]
  | succ shift induction =>
      have halved : mantissa * 2 ^ (shift + 1) = 2 * mantissa * 2 ^ shift := by
        rw [Nat.pow_succ, Nat.mul_comm 2 mantissa, Nat.mul_assoc,
          Nat.mul_comm 2]
      rw [Nat.repeat, halved, induction]
      simp [ExtendedMantissa.shiftRightOne]

theorem log2_mul_pow {mantissa : Nat} (positive : 0 < mantissa)
    (shift : Nat) :
    (mantissa * 2 ^ shift).log2 = mantissa.log2 + shift := by
  have nonzero : mantissa ≠ 0 := Nat.pos_iff_ne_zero.mp positive
  have room : 0 < 2 ^ shift := Nat.two_pow_pos shift
  have scaled : mantissa * 2 ^ shift ≠ 0 :=
    Nat.mul_ne_zero nonzero (Nat.pos_iff_ne_zero.mp room)
  apply (Nat.log2_eq_iff scaled).mpr
  constructor
  · rw [Nat.pow_add]
    exact Nat.mul_le_mul_right _ (Nat.log2_self_le nonzero)
  · rw [Nat.add_right_comm, Nat.pow_add]
    exact Nat.mul_lt_mul_of_pos_right Nat.lt_log2_self room

theorem shiftToTargetExponent_exact {mantissa : Nat}
    (normal : mantissa.log2 = 52) (positive : 0 < mantissa) {exponent : Int}
    (least : -1074 ≤ exponent) (shift : Nat) :
    shiftToTargetExponent .binary64 (mantissa * 2 ^ shift) (exponent - shift)
        .exact = (⟨mantissa, false, false⟩, exponent) := by
  have target : Format.binary64.targetExponent
      (totalExponent (mantissa * 2 ^ shift) (exponent - shift)) =
        exponent := by
    simp only [Format.targetExponent, totalExponent,
      log2_mul_pow positive shift, normal, Format.mantissaBits,
      Format.minExponent]
    norm_num
    omega
  unfold shiftToTargetExponent shiftToExponent
  simp only [target, sub_sub_cancel, Int.toNat_natCast,
    ExtendedMantissa.ofMantissaAndAccuracy, sub_add_cancel, Prod.mk.injEq,
    and_true]
  exact repeat_shiftRightOne mantissa shift

theorem roundWithAccuracy_exact {mantissa : Nat}
    (normal : mantissa.log2 = 52) (positive : 0 < mantissa) {exponent : Int}
    (least : -1074 ≤ exponent) (sign : Sign) (shift : Nat) :
    roundWithAccuracy .binary64 sign (mantissa * 2 ^ shift)
        (exponent - shift) .exact =
      .finite sign mantissa exponent positive := by
  have first := shiftToTargetExponent_exact normal positive least shift
  have second := shiftToTargetExponent_exact normal positive least 0
  simp only [pow_zero, Nat.mul_one, Nat.cast_zero, sub_zero] at second
  unfold roundWithAccuracy
  simp only [first, ExtendedMantissa.roundedMantissa,
    ExtendedMantissa.accuracy, Accuracy.roundToNearestEven, second]
  rw [dif_neg (Nat.pos_iff_ne_zero.mp positive)]

/-! ## Whole numbers -/

/-- The significand of a whole number, with its leading bit in place. -/
def wholeMantissa (n : Nat) : Nat := n * 2 ^ (52 - n.log2)

def wholeExponent (n : Nat) : Int := n.log2 - 52

theorem wholeMantissa_pos {n : Nat} (positive : 0 < n) :
    0 < wholeMantissa n := Nat.mul_pos positive (Nat.two_pow_pos _)

/-- A whole number below 2^53 as a double. -/
def whole (n : Nat) : UnpackedFloat :=
  if positive : 0 < n then
    .finite .positive (wholeMantissa n) (wholeExponent n)
      (wholeMantissa_pos positive)
  else .zero .positive

theorem log2_small {n : Nat} (small : n < 2 ^ 53) : n.log2 ≤ 52 := by
  by_cases zero : n = 0
  · simp [zero]
  · have below := (Nat.log2_lt zero).mpr small
    omega

theorem log2_wholeMantissa {n : Nat} (positive : 0 < n)
    (small : n < 2 ^ 53) : (wholeMantissa n).log2 = 52 := by
  have narrow := log2_small small
  rw [wholeMantissa, log2_mul_pow positive]
  omega

/-- Rounding finds a whole number however far its binary point is shifted. -/
theorem normalize_whole {n : Nat} (small : n < 2 ^ 53) (shift : Nat) :
    UnpackedFloat.normalize .binary64 ((n * 2 ^ shift : Nat) : Int) (-shift)
        .positive = whole n := by
  by_cases positive : 0 < n
  · have narrow := log2_small small
    have scaled : (0 : Int) < (n * 2 ^ shift : Nat) :=
      Int.natCast_pos.mpr (Nat.mul_pos positive (Nat.two_pow_pos shift))
    have target : Format.binary64.targetExponent
        (totalExponent (n * 2 ^ shift) (-shift)) = wholeExponent n := by
      simp only [Format.targetExponent, totalExponent,
        log2_mul_pow positive shift, Format.mantissaBits, Format.minExponent,
        wholeExponent]
      norm_num
      omega
    have normal := log2_wholeMantissa positive small
    have least : -1074 ≤ wholeExponent n := by
      unfold wholeExponent
      omega
    unfold UnpackedFloat.normalize whole
    rw [Int.compare_eq_gt.mpr scaled, dif_pos positive]
    simp only [UnpackedFloat.round, Int.toNat_natCast, target,
      decreaseExponent, Nat.shiftLeft_eq]
    -- The point is left of its place or right of it.
    by_cases left : shift ≤ 52 - n.log2
    · have mantissa :
          n * 2 ^ shift * 2 ^ (-(shift : Int) - wholeExponent n).toNat =
            wholeMantissa n := by
        rw [Nat.mul_assoc, ← Nat.pow_add, wholeMantissa]
        congr 2
        unfold wholeExponent
        omega
      have exponent : -(shift : Int) -
          (-(shift : Int) - wholeExponent n).toNat = wholeExponent n := by
        unfold wholeExponent
        omega
      rw [mantissa, exponent]
      simpa using roundWithAccuracy_exact normal (wholeMantissa_pos positive)
        least .positive 0
    · have none : (-(shift : Int) - wholeExponent n).toNat = 0 := by
        unfold wholeExponent
        omega
      have mantissa : n * 2 ^ shift =
          wholeMantissa n * 2 ^ (shift - (52 - n.log2)) := by
        rw [wholeMantissa, Nat.mul_assoc, ← Nat.pow_add]
        congr 2
        omega
      have exponent : -(shift : Int) =
          wholeExponent n - (shift - (52 - n.log2) : Nat) := by
        unfold wholeExponent
        omega
      rw [none, pow_zero, Nat.mul_one, Nat.cast_zero, sub_zero, mantissa,
        exponent]
      exact roundWithAccuracy_exact normal (wholeMantissa_pos positive) least
        .positive _
  · obtain rfl : n = 0 := by omega
    simp [UnpackedFloat.normalize, whole]

theorem decreaseExponent_whole (n : Nat) {exponent : Int}
    (lower : exponent ≤ wholeExponent n) (narrow : n.log2 ≤ 52) :
    (decreaseExponent (wholeMantissa n) (wholeExponent n) exponent).1 =
      n * 2 ^ (-exponent).toNat := by
  have shifts : 52 - n.log2 + (wholeExponent n - exponent).toNat =
      (-exponent).toNat := by
    unfold wholeExponent at *
    omega
  rw [decreaseExponent, Nat.shiftLeft_eq, wholeMantissa, Nat.mul_assoc,
    ← Nat.pow_add, shifts]

/-- A sum below 2^53 is exact. -/
theorem add_whole {a b : Nat} (small : a + b < 2 ^ 53) :
    UnpackedFloat.add .binary64 (whole a) (whole b) = whole (a + b) := by
  by_cases aPositive : 0 < a
  · by_cases bPositive : 0 < b
    · have aNarrow := log2_small (show a < 2 ^ 53 by omega)
      have bNarrow := log2_small (show b < 2 ^ 53 by omega)
      have sum := normalize_whole small
        (-(min (wholeExponent a) (wholeExponent b))).toNat
      have point : -((-(min (wholeExponent a) (wholeExponent b))).toNat : Int) =
          min (wholeExponent a) (wholeExponent b) := by
        unfold wholeExponent
        omega
      rw [point, Nat.add_mul, Int.natCast_add] at sum
      rw [← sum, whole, whole, dif_pos aPositive, dif_pos bPositive]
      simp only [UnpackedFloat.add, Sign.apply,
        decreaseExponent_whole a (Int.min_le_left _ _) aNarrow,
        decreaseExponent_whole b (Int.min_le_right _ _) bNarrow]
    · obtain rfl : b = 0 := by omega
      simp [whole, aPositive, UnpackedFloat.add]
  · obtain rfl : a = 0 := by omega
    by_cases bPositive : 0 < b
    · simp [whole, bPositive, UnpackedFloat.add]
    · obtain rfl : b = 0 := by omega
      rfl

/-! ## Bit patterns -/

theorem wholeMantissa_bounds {n : Nat} (positive : 0 < n)
    (small : n < 2 ^ 53) :
    2 ^ 52 ≤ wholeMantissa n ∧ wholeMantissa n < 2 ^ 53 := by
  have nonzero := Nat.pos_iff_ne_zero.mp (wholeMantissa_pos positive)
  exact (Nat.log2_eq_iff nonzero).mp (log2_wholeMantissa positive small)

theorem pack_whole {n : Nat} (positive : 0 < n) (small : n < 2 ^ 53) :
    UnpackedFloat.pack .binary64 (whole n) =
      packComponents .binary64 .positive (BitVec.ofNat 11 (n.log2 + 1023))
        (BitVec.ofNat 52 (wholeMantissa n)) := by
  have narrow := log2_small small
  have biased : (wholeExponent n + 1023 + 52).toNat = n.log2 + 1023 := by
    unfold wholeExponent
    omega
  rw [whole, dif_pos positive]
  simp only [UnpackedFloat.pack, Format.exponentBias, Format.mantissaBits,
    log2_wholeMantissa positive small]
  norm_num [biased]
  omega

/-- Nothing is lost in the 64 bits. -/
theorem unpack_pack_whole {n : Nat} (small : n < 2 ^ 53) :
    (Float.Model.pack (whole n)).unpack = whole n := by
  by_cases positive : 0 < n
  · have narrow := log2_small small
    have bounds := wholeMantissa_bounds positive small
    have exponentBits : (BitVec.ofNat 11 (n.log2 + 1023)).toNat =
        n.log2 + 1023 := by
      rw [BitVec.toNat_ofNat]
      exact Nat.mod_eq_of_lt (by omega)
    have notOnes : BitVec.ofNat 11 (n.log2 + 1023) ≠ -1#11 := by
      intro ones
      have same := congrArg BitVec.toNat ones
      rw [exponentBits] at same
      norm_num at same
      omega
    have notZero : BitVec.ofNat 11 (n.log2 + 1023) ≠ 0#11 := by
      intro zeros
      have same := congrArg BitVec.toNat zeros
      rw [exponentBits] at same
      norm_num at same
    have mantissa : (1#1 ++ BitVec.ofNat 52 (wholeMantissa n)).toNat =
        wholeMantissa n := by
      have split : wholeMantissa n = 2 ^ 52 + wholeMantissa n % 2 ^ 52 := by
        omega
      rw [BitVec.toNat_append, BitVec.toNat_ofNat, BitVec.toNat_ofNat,
        ← Nat.shiftLeft_add_eq_or_of_lt (Nat.mod_lt _ (Nat.two_pow_pos 52)),
        Nat.shiftLeft_eq]
      omega
    have exponent : ((BitVec.ofNat 11 (n.log2 + 1023)).toNat : Int) -
        (1023 + 52) = wholeExponent n := by
      rw [exponentBits, wholeExponent]
      omega
    simp only [Float.Model.unpack, Float.Model.pack, pack_whole positive small,
      UnpackedFloat.unpack, unpackExponent_packComponents,
      unpackMantissa_packComponents, unpackSign_packComponents,
      if_neg notOnes, if_neg notZero]
    simp only [whole, dif_pos positive, UnpackedFloat.finite.injEq]
    exact ⟨rfl, mantissa, exponent⟩
  · obtain rfl : n = 0 := by omega
    have zero : whole 0 = .zero .positive := rfl
    rw [zero]
    simp only [Float.Model.unpack, Float.Model.pack, UnpackedFloat.pack,
      unpack_packedZero]

/-! ## Doubles -/

theorem toFloat_whole {n : Nat} (small : n < 2 ^ 53) :
    n.toUInt64.toFloat = .ofModel (.pack (whole n)) := by
  have exact := normalize_whole small 0
  have narrow : n.toUInt64.toNat = n :=
    UInt64.toNat_ofNat_of_lt' (by simp only [UInt64.size]; omega)
  simp only [pow_zero, Nat.mul_one, Nat.cast_zero, neg_zero] at exact
  unfold UInt64.toFloat Float.Model.ofUInt64 UnpackedFloat.ofUInt64
    UnpackedFloat.ofNat UnpackedFloat.ofInt
  rw [narrow, exact]

theorem unpack_one : (Float.ofBits 0x3FF0000000000000).toModel.unpack =
    .finite .positive (2 ^ 52) (-52) (Nat.two_pow_pos 52) := by
  have bits : (Float.ofBits 0x3FF0000000000000).toModel.toBits =
      0x3FF0000000000000 := by decide +kernel
  unfold Float.Model.unpack
  rw [bits]
  rfl

theorem mul_whole_one {n : Nat} (small : n < 2 ^ 53) :
    UnpackedFloat.mul .binary64 (whole n)
        (.finite .positive (2 ^ 52) (-52) (Nat.two_pow_pos 52)) =
      whole n := by
  by_cases positive : 0 < n
  · have least : -1074 ≤ wholeExponent n := by
      unfold wholeExponent
      omega
    have rounded := roundWithAccuracy_exact
      (log2_wholeMantissa positive small) (wholeMantissa_pos positive) least
      .positive 52
    simp only [whole, dif_pos positive, UnpackedFloat.mul]
    exact rounded
  · obtain rfl : n = 0 := by omega
    rfl

theorem ofNat_whole {n : Nat} (small : n < 2 ^ 53) :
    Float.ofNat n = .ofModel (.pack (whole n)) := by
  have fast : n < 2 ^ 53 ∧ 0 ≤ 22 := ⟨small, Nat.zero_le _⟩
  calc
    Float.ofNat n =
        n.toUInt64.toFloat * Float.ofBits 0x3FF0000000000000 := by
      change Float.ofScientific n false 0 = _
      unfold Float.ofScientific
      rw [dif_pos fast]
      rfl
    _ = .ofModel (.pack (UnpackedFloat.mul .binary64
          n.toUInt64.toFloat.toModel.unpack
          (Float.ofBits 0x3FF0000000000000).toModel.unpack)) := rfl
    _ = .ofModel (.pack (whole n)) := by
      rw [toFloat_whole small, unpack_one, unpack_pack_whole small,
        mul_whole_one small]

/-- A sum of counts is exact below 2^53. -/
theorem ofNat_add_ofNat {a b : Nat} (small : a + b < 2 ^ 53) :
    Float.ofNat a + Float.ofNat b = Float.ofNat (a + b) := by
  have aSmall : a < 2 ^ 53 := by omega
  have bSmall : b < 2 ^ 53 := by omega
  rw [ofNat_whole aSmall, ofNat_whole bSmall, ofNat_whole small]
  calc
    Float.ofModel (.pack (whole a)) + .ofModel (.pack (whole b)) =
        .ofModel (.pack (UnpackedFloat.add .binary64
          (Float.Model.pack (whole a)).unpack
          (Float.Model.pack (whole b)).unpack)) := rfl
    _ = .ofModel (.pack (whole (a + b))) := by
      rw [unpack_pack_whole aSmall, unpack_pack_whole bSmall,
        add_whole small]

theorem toNat_packComponents {exponent mantissa : Nat}
    (inside : exponent < 2 ^ 11) :
    (packComponents .binary64 .positive (BitVec.ofNat 11 exponent)
      (BitVec.ofNat 52 mantissa)).toNat =
        exponent * 2 ^ 52 + mantissa % 2 ^ 52 := by
  unfold packComponents
  rw [BitVec.toNat_append, BitVec.toNat_append, BitVec.toNat_ofNat,
    Nat.mod_eq_of_lt inside,
    ← Nat.shiftLeft_add_eq_or_of_lt (BitVec.isLt _), BitVec.toNat_ofNat,
    Nat.shiftLeft_eq]
  change ((0 <<< 11) ||| exponent) * 2 ^ 52 + _ = _
  rw [Nat.zero_shiftLeft, Nat.zero_or]

theorem toBits_ofNat {n : Nat} (positive : 0 < n) (small : n < 2 ^ 53) :
    (Float.ofNat n).toBits.toNat =
      (n.log2 + 1022) * 2 ^ 52 + wholeMantissa n := by
  have narrow := log2_small small
  have bounds := wholeMantissa_bounds positive small
  rw [ofNat_whole small]
  change (UnpackedFloat.pack .binary64 (whole n)).toNat = _
  rw [pack_whole positive small, toNat_packComponents (by omega)]
  omega

theorem toBits_zero : (Float.ofNat 0).toBits = 0 := by
  decide +kernel

/-- The bits of counts are in the order of the counts. -/
theorem toBits_ofNat_lt {a b : Nat} (below : a < b) (small : b < 2 ^ 53) :
    (Float.ofNat a).toBits < (Float.ofNat b).toBits := by
  have bPositive : 0 < b := by omega
  have bBounds := wholeMantissa_bounds bPositive small
  apply UInt64.lt_iff_toNat_lt.mpr
  rw [toBits_ofNat bPositive small]
  by_cases aPositive : 0 < a
  · have aSmall : a < 2 ^ 53 := by omega
    have aBounds := wholeMantissa_bounds aPositive aSmall
    have order : a.log2 ≤ b.log2 :=
      (Nat.le_log2 (by omega)).mpr
        (Nat.le_trans (Nat.log2_self_le (by omega)) (by omega))
    rw [toBits_ofNat aPositive aSmall]
    by_cases same : a.log2 = b.log2
    · have mantissas : wholeMantissa a < wholeMantissa b := by
        unfold wholeMantissa
        rw [same]
        exact Nat.mul_lt_mul_of_pos_right below (Nat.two_pow_pos _)
      rw [same]
      omega
    · omega
  · obtain rfl : a = 0 := by omega
    rw [toBits_zero]
    change 0 < _
    omega

theorem toBits_ofNat_inj {a b : Nat} (aSmall : a < 2 ^ 53)
    (bSmall : b < 2 ^ 53)
    (same : (Float.ofNat a).toBits = (Float.ofNat b).toBits) : a = b := by
  rcases Nat.lt_trichotomy a b with below | equal | above
  · exact absurd same (UInt64.ne_of_lt (toBits_ofNat_lt below bSmall))
  · exact equal
  · exact absurd same.symm (UInt64.ne_of_lt (toBits_ofNat_lt above aSmall))

/-! ## Larger numbers -/

theorem repeat_shiftRightOne_mantissa (shift : Nat) (em : ExtendedMantissa) :
    (Nat.repeat ExtendedMantissa.shiftRightOne shift em).mantissa =
      em.mantissa / 2 ^ shift := by
  induction shift with
  | zero => simp [Nat.repeat]
  | succ shift induction =>
      rw [Nat.repeat, ExtendedMantissa.shiftRightOne, induction,
        Nat.div_div_eq_div_mul, Nat.pow_succ]

theorem roundedMantissa_bounds (em : ExtendedMantissa) :
    em.mantissa ≤ em.roundedMantissa ∧
      em.roundedMantissa ≤ em.mantissa + 1 := by
  unfold ExtendedMantissa.roundedMantissa Accuracy.roundToNearestEven
  split <;> omega

/-- What fits, or is one too large for that, fits. -/
theorem shiftToTargetExponent_fits {mantissa : Nat} {exponent : Int}
    (least : 2 ^ 52 ≤ mantissa) (most : mantissa ≤ 2 ^ 53)
    (inside : -1074 ≤ exponent) :
    ∃ fits later, shiftToTargetExponent .binary64 mantissa exponent .exact =
        (⟨fits, false, false⟩, later) ∧
      2 ^ 52 ≤ fits ∧ fits < 2 ^ 53 ∧
      exponent ≤ later ∧ later ≤ exponent + 1 := by
  by_cases full : mantissa = 2 ^ 53
  · have shifted := shiftToTargetExponent_exact
      (Nat.log2_two_pow (n := 52)) (Nat.two_pow_pos 52)
      (show -1074 ≤ exponent + 1 by omega) 1
    have same : (exponent + 1 - (1 : Nat) : Int) = exponent := by omega
    rw [← Nat.pow_add, same] at shifted
    subst full
    exact ⟨_, _, shifted, Nat.le_refl _, by decide, by omega, Int.le_refl _⟩
  · have normal : mantissa.log2 = 52 :=
      (Nat.log2_eq_iff (by omega)).mpr ⟨least, by omega⟩
    have shifted := shiftToTargetExponent_exact normal (by omega) inside 0
    rw [pow_zero, Nat.mul_one, Nat.cast_zero, sub_zero] at shifted
    exact ⟨_, _, shifted, least, by omega, Int.le_refl _, by omega⟩

/-- A larger number is rounded to one with its exponent, or the next. -/
theorem roundWithAccuracy_large {n : Nat} (large : 2 ^ 53 ≤ n) :
    ∃ mantissa exponent positive,
      roundWithAccuracy .binary64 .positive (n * 2 ^ 53) (-53) .exact =
        .finite .positive mantissa exponent positive ∧
      2 ^ 52 ≤ mantissa ∧ mantissa < 2 ^ 53 ∧
      (n.log2 : Int) - 52 ≤ exponent ∧ exponent ≤ n.log2 - 51 := by
  have nonzero : n ≠ 0 := by omega
  have wide : 53 ≤ n.log2 := (Nat.le_log2 nonzero).mpr large
  have target : Format.binary64.targetExponent
      (totalExponent (n * 2 ^ 53) (-53)) = n.log2 - 52 := by
    simp only [Format.targetExponent, totalExponent,
      log2_mul_pow (Nat.pos_of_ne_zero nonzero) 53, Format.mantissaBits,
      Format.minExponent]
    norm_num
    omega
  have shift : ((n.log2 : Int) - 52 - -53).toNat = n.log2 + 1 := by omega
  have first : shiftToTargetExponent .binary64 (n * 2 ^ 53) (-53) .exact =
      (Nat.repeat ExtendedMantissa.shiftRightOne (n.log2 + 1)
        ⟨n * 2 ^ 53, false, false⟩, (n.log2 : Int) - 52) := by
    unfold shiftToTargetExponent shiftToExponent
    simp only [target, shift, ExtendedMantissa.ofMantissaAndAccuracy]
    congr 1
    omega
  have bounds := roundedMantissa_bounds
    (Nat.repeat ExtendedMantissa.shiftRightOne (n.log2 + 1)
      ⟨n * 2 ^ 53, false, false⟩)
  have below : 2 ^ 52 ≤ n * 2 ^ 53 / 2 ^ (n.log2 + 1) := by
    apply (Nat.le_div_iff_mul_le (Nat.two_pow_pos _)).mpr
    rw [← Nat.pow_add, show 52 + (n.log2 + 1) = n.log2 + 53 by omega,
      Nat.pow_add]
    exact Nat.mul_le_mul_right _ (Nat.log2_self_le nonzero)
  have above : n * 2 ^ 53 / 2 ^ (n.log2 + 1) < 2 ^ 53 := by
    apply (Nat.div_lt_iff_lt_mul (Nat.two_pow_pos _)).mpr
    rw [Nat.mul_comm]
    exact Nat.mul_lt_mul_of_pos_left Nat.lt_log2_self (Nat.two_pow_pos _)
  rw [repeat_shiftRightOne_mantissa] at bounds
  dsimp only at bounds
  generalize Nat.repeat ExtendedMantissa.shiftRightOne (n.log2 + 1)
    ⟨n * 2 ^ 53, false, false⟩ = shifted at first bounds
  obtain ⟨fits, later, second, least, most, low, high⟩ :=
    shiftToTargetExponent_fits (show 2 ^ 52 ≤ shifted.roundedMantissa by omega)
      (by omega) (show -1074 ≤ (n.log2 : Int) - 52 by omega)
  refine ⟨fits, later, by omega, ?_, least, most, low, by omega⟩
  unfold roundWithAccuracy
  simp only [first, second]
  rw [dif_neg (by omega)]

theorem ofNat_large {n : Nat} (large : 2 ^ 53 ≤ n) :
    Float.ofNat n = .ofModel (.pack (roundWithAccuracy .binary64 .positive
      (n * 2 ^ 53) (-53) .exact)) := by
  have slow : ¬ (n < 2 ^ 53 ∧ 0 ≤ 22) := by omega
  have nonzero : n ≠ 0 := by omega
  have scaled : UnpackedFloat.ofScientific .binary64 n 0 =
      roundWithAccuracy .binary64 .positive (n * 2 ^ 53) (-53) .exact := by
    unfold UnpackedFloat.ofScientific
    rw [dif_neg nonzero, if_neg (by decide), if_neg (by
      norm_num [Format.exponentBits]), if_pos (Int.le_refl 0)]
    simp only [UnpackedFloat.mul, Nat.shiftLeft_eq, Format.mantissaBits]
    norm_num
    rfl
  change Float.ofScientific n false 0 = _
  unfold Float.ofScientific
  rw [dif_neg slow]
  change Float.ofModel (.pack (UnpackedFloat.ofScientific .binary64 n 0)) = _
  rw [scaled]

/-- A larger number is far below its bits. -/
theorem toBits_ofNat_large {n : Nat} (large : 2 ^ 53 ≤ n)
    (fits : n < 2 ^ 64) : 2 ^ 62 ≤ (Float.ofNat n).toBits.toNat := by
  obtain ⟨mantissa, exponent, positive, rounded, least, most, low, high⟩ :=
    roundWithAccuracy_large large
  have wide : 53 ≤ n.log2 := (Nat.le_log2 (by omega)).mpr large
  have narrow : n.log2 < 64 := (Nat.log2_lt (by omega)).mpr fits
  rw [ofNat_large large, rounded]
  change 2 ^ 62 ≤ (UnpackedFloat.pack .binary64
    (.finite .positive mantissa exponent positive)).toNat
  have normal : mantissa.log2 = 52 :=
    (Nat.log2_eq_iff (by omega)).mpr ⟨least, most⟩
  obtain ⟨biased, same⟩ : ∃ biased : Nat, exponent + 1023 + 52 = biased :=
    Int.eq_ofNat_of_zero_le (by omega)
  have packed : UnpackedFloat.pack .binary64
      (.finite .positive mantissa exponent positive) =
        packComponents .binary64 .positive (BitVec.ofNat 11 biased)
          (BitVec.ofNat 52 mantissa) := by
    simp only [UnpackedFloat.pack, Format.exponentBias, Format.mantissaBits,
      normal]
    norm_num [same]
    omega
  rw [packed, toNat_packComponents (by omega)]
  omega

end MatrixDB.Lib
