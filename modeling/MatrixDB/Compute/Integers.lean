import MatrixDB.Compute.Typed
import Mathlib.Algebra.Order.Group.Int

/-!
# Aggregates over integers

`uint32` and `int64` columns hold integers, and their reducers accumulate
modulo 2^64.  This is the specification of the four aggregates, and the proof
that the loops of both types meet it.
-/

namespace MatrixDB

open Lib

/-- Sum modulo 2^64, extremum, or number of rows.  The extremum of no row is
the sentinel. -/
def integerAggregate (least greatest : Int) (op : MatrixAggOp)
    (values : List Int) : UInt64 :=
  if op = AGG_SUM then UInt64.ofInt values.sum
  else if op = AGG_MIN then UInt64.ofInt (values.min?.getD least)
  else if op = AGG_MAX then UInt64.ofInt (values.max?.getD greatest)
  else UInt64.ofNat values.length

/-- The comparison of a filter. -/
def MatrixCmp.holds (cmp : MatrixCmp) (x a b : Int) : Bool :=
  match cmp with
  | .GT => a < x
  | .GE => a ≤ x
  | .LT => x < a
  | .LE => x ≤ a
  | .EQ => x = a
  | .NE => x ≠ a
  | .BETWEEN => a ≤ x ∧ x ≤ b

/-- A kernel that computes with integers: `val` and `acc` are the integers a
value and an accumulator stand for. -/
structure IntegerKernel {V A : Type} (K : AggKernel V A) (val : V → Int)
    (acc : A → Int) : Prop where
  widen : ∀ v, acc (K.widen v) = val v
  below : ∀ v a, K.below v a = decide (val v < acc a)
  above : ∀ v a, K.above v a = decide (acc a < val v)
  least : ∀ v, val v ≤ acc K.minInit
  greatest : ∀ v, acc K.maxInit ≤ val v
  encode : ∀ a, K.encode a = UInt64.ofInt (acc a)
  add : ∀ a b, K.encode (K.add a b) = K.encode a + K.encode b
  zero : K.encode K.zero = 0
  one : K.encode K.one = 1
  counts : ∀ rows, K.ofRows rows =
    (fun count => K.add count K.one)^[rows] K.zero

theorem u32Kernel_integer :
    IntegerKernel u32Kernel (fun v => (v.toNat : Int))
      (fun a => (a.toNat : Int)) where
  widen v := by simp [u32Kernel]
  below v a := by simp [u32Kernel, UInt64.lt_iff_toNat_lt]
  above v a := by simp [u32Kernel, UInt64.lt_iff_toNat_lt]
  least v := by
    have bound := v.toNat_lt
    simp only [u32Kernel, UInt64.reduceToNat]
    omega
  greatest v := by simp [u32Kernel]
  encode a := by
    have bound := a.toNat_lt
    simp only [u32Kernel, id, UInt64.ofInt]
    rw [Int.emod_eq_of_lt (by omega) (by omega), Int.toNat_natCast,
      UInt64.ofNat_toNat]
  add a b := rfl
  zero := rfl
  one := rfl
  counts rows := by
    induction rows with
    | zero => rfl
    | succ rows induction =>
        rw [Function.iterate_succ_apply', ← induction]
        exact UInt64.ofNat_add rows 1

theorem toUInt64_eq_ofInt (a : Int64) : a.toUInt64 = UInt64.ofInt a.toInt := by
  apply UInt64.toNat_inj.mp
  have bits : BitVec.ofInt 64 a.toInt = a.toBitVec := BitVec.ofInt_toInt
  calc
    a.toUInt64.toNat = (BitVec.ofInt 64 a.toInt).toNat := by
      rw [bits]
      rfl
    _ = (a.toInt % 2 ^ 64).toNat := BitVec.toNat_ofInt a.toInt
    _ = (UInt64.ofInt a.toInt).toNat := by
      rw [UInt64.ofInt, UInt64.toNat_ofNat_of_lt']
      have below := Int.emod_lt_of_pos a.toInt (by decide : (0 : Int) < 2 ^ 64)
      have size : UInt64.size = 2 ^ 64 := rfl
      omega

theorem i64Kernel_integer :
    IntegerKernel i64Kernel Int64.toInt Int64.toInt where
  widen v := rfl
  below v a := by simp [i64Kernel, Int64.lt_iff_toInt_lt]
  above v a := by simp [i64Kernel, Int64.lt_iff_toInt_lt]
  least v := by
    have bound := v.toInt_lt
    simp only [i64Kernel, Int64.toInt_maxValue]
    omega
  greatest v := by
    have bound := v.le_toInt
    simp only [i64Kernel, Int64.toInt_minValue]
    omega
  encode a := toUInt64_eq_ofInt a
  add a b := Int64.toUInt64_add a b
  zero := rfl
  one := rfl
  counts rows := by
    induction rows with
    | zero => rfl
    | succ rows induction =>
        rw [Function.iterate_succ_apply', ← induction]
        exact Int64.ofNat_add rows 1

namespace IntegerKernel

variable {V A : Type} {K : AggKernel V A} {val : V → Int} {acc : A → Int}

theorem encode_sum (integer : IntegerKernel K val acc) (values : List V)
    (start : A) :
    K.encode (values.foldl (fun s v => K.add s (K.widen v)) start) =
      K.encode start + UInt64.ofInt (values.map val).sum := by
  induction values generalizing start with
  | nil => exact (UInt64.add_zero _).symm
  | cons v values induction =>
      rw [List.foldl_cons, induction, integer.add, List.map_cons,
        List.sum_cons, UInt64.ofInt_add, integer.encode (K.widen v),
        integer.widen, UInt64.add_assoc]

theorem encode_count (integer : IntegerKernel K val acc) (values : List V)
    (start : A) :
    K.encode (values.foldl (fun c _ => K.add c K.one) start) =
      K.encode start + UInt64.ofNat values.length := by
  induction values generalizing start with
  | nil => simp
  | cons v values induction =>
      rw [List.foldl_cons, induction, integer.add, integer.one,
        List.length_cons, UInt64.ofNat_add, UInt64.add_assoc,
        UInt64.add_comm 1]
      rfl

theorem acc_min (integer : IntegerKernel K val acc) (values : List V)
    (start : A) :
    acc (values.foldl
      (fun m v => if K.below v m then K.widen v else m) start) =
      (values.map val).foldl min (acc start) := by
  induction values generalizing start with
  | nil => rfl
  | cons v values induction =>
      rw [List.foldl_cons, induction, List.map_cons, List.foldl_cons]
      congr 1
      rw [integer.below]
      by_cases smaller : val v < acc start
      · simp [smaller, integer.widen, Int.le_of_lt smaller]
      · simp [smaller, Int.not_lt.mp smaller]

theorem acc_max (integer : IntegerKernel K val acc) (values : List V)
    (start : A) :
    acc (values.foldl
      (fun m v => if K.above v m then K.widen v else m) start) =
      (values.map val).foldl max (acc start) := by
  induction values generalizing start with
  | nil => rfl
  | cons v values induction =>
      rw [List.foldl_cons, induction, List.map_cons, List.foldl_cons]
      congr 1
      rw [integer.above]
      by_cases larger : acc start < val v
      · simp [larger, integer.widen, Int.le_of_lt larger]
      · simp [larger, Int.not_lt.mp larger]

theorem foldl_min_bounded {bound : Int} {values : List Int}
    (bounded : ∀ x ∈ values, x ≤ bound) :
    values.foldl min bound = values.min?.getD bound := by
  cases values with
  | nil => rfl
  | cons x values =>
      have first : x ≤ bound := bounded x List.mem_cons_self
      rw [List.foldl_cons, min_eq_right first]
      rfl

theorem foldl_max_bounded {bound : Int} {values : List Int}
    (bounded : ∀ x ∈ values, bound ≤ x) :
    values.foldl max bound = values.max?.getD bound := by
  cases values with
  | nil => rfl
  | cons x values =>
      have first : bound ≤ x := bounded x List.mem_cons_self
      rw [List.foldl_cons, max_eq_right first]
      rfl

/-- A fold of the kernel is the aggregate of the integers. -/
theorem encode_fold (integer : IntegerKernel K val acc) (op : MatrixAggOp)
    (values : List V) :
    K.encode (K.fold op values) =
      integerAggregate (acc K.minInit) (acc K.maxInit) op
        (values.map val) := by
  unfold AggKernel.fold integerAggregate AggKernel.groupInit
  by_cases sum : op = AGG_SUM
  · subst sum
    have summed := integer.encode_sum values K.zero
    rw [integer.zero, UInt64.zero_add] at summed
    exact summed
  by_cases least : op = AGG_MIN
  · subst least
    have folded := integer.acc_min values K.minInit
    rw [foldl_min_bounded] at folded
    · rw [integer.encode]
      exact congrArg UInt64.ofInt folded
    · intro x member
      obtain ⟨v, _, equal⟩ := List.mem_map.mp member
      rw [← equal]
      exact integer.least v
  by_cases greatest : op = AGG_MAX
  · subst greatest
    have folded := integer.acc_max values K.maxInit
    rw [foldl_max_bounded] at folded
    · rw [integer.encode]
      exact congrArg UInt64.ofInt folded
    · intro x member
      obtain ⟨v, _, equal⟩ := List.mem_map.mp member
      rw [← equal]
      exact integer.greatest v
  · have counting : K.groupStep op = fun c _ => K.add c K.one := by
      funext c v
      simp [AggKernel.groupStep, sum, least, greatest]
    have counted := integer.encode_count values K.zero
    rw [integer.zero, UInt64.zero_add] at counted
    simp only [counting, if_neg sum, if_neg least, if_neg greatest,
      List.length_map]
    exact counted

theorem encode_reduceRows (integer : IntegerKernel K val acc)
    (op : MatrixAggOp) (n : Nat) (keep : Nat → Bool) (v : Nat → V) :
    K.encode (K.reduceRows op n keep v) =
      integerAggregate (acc K.minInit) (acc K.maxInit) op
        (((List.range n).filter keep).map fun row => val (v row)) := by
  rw [K.reduceRows_eq, integer.encode_fold, List.map_map]
  rfl

theorem encode_reduceAll (integer : IntegerKernel K val acc)
    (op : MatrixAggOp) (n : Nat) (v : Nat → V) :
    K.encode (K.reduceAll v n op) =
      integerAggregate (acc K.minInit) (acc K.maxInit) op
        ((List.range n).map fun row => val (v row)) := by
  rw [K.reduceAll_eq integer.counts, integer.encode_fold, List.map_map]
  rfl

theorem encode_groupRows (integer : IntegerKernel K val acc)
    (op : MatrixAggOp) (n : Nat) (groups : UInt32) (keep : Nat → Bool)
    (keys : Nat → UInt32) (v : Nat → V) :
    (K.groupRows op n groups keep keys v).map K.encode =
      (List.range groups.toNat).map fun g =>
        integerAggregate (acc K.minInit) (acc K.maxInit) op
          (((List.range n).filter fun row =>
            keep row && (keys row).toNat = g).map fun row => val (v row)) := by
  rw [K.groupRows_eq, List.map_map]
  apply List.map_congr_left
  intro g _
  rw [Function.comp_apply, integer.encode_fold, List.map_map]
  rfl

/-- Unfiltered or filtered on the values themselves. -/
theorem encode_scalar (integer : IntegerKernel K val acc) (filtered : Bool)
    (hit : V → Bool) (v : Nat → V) (n : Nat) (op : MatrixAggOp) :
    (if filtered then K.reducePred hit v n op none
      else some (K.reduceAll v n op)).map K.encode =
      some (integerAggregate (acc K.minInit) (acc K.maxInit) op
        (((List.range n).filter fun row =>
          !filtered || hit (v row)).map fun row => val (v row))) := by
  cases filtered with
  | true =>
      have reduced := integer.encode_reduceRows op n (fun row => hit (v row)) v
      simpa [AggKernel.reducePred, liveRows] using reduced
  | false =>
      have reduced := integer.encode_reduceAll op n v
      simpa using reduced

/-- The grouped form, without a null mask. -/
theorem encode_grouped (integer : IntegerKernel K val acc) (filtered : Bool)
    (hit : V → Bool) (keys : Nat → UInt32) (v : Nat → V) (n : Nat)
    (groups : UInt32) (op : MatrixAggOp) :
    (if filtered then K.groupReduceImpl hit keys v n groups op none
      else K.groupReduceImpl (fun _ => true) keys v n groups op none).map
        (List.map K.encode) =
      some ((List.range groups.toNat).map fun g =>
        integerAggregate (acc K.minInit) (acc K.maxInit) op
          (((List.range n).filter fun row =>
            (!filtered || hit (v row)) && (keys row).toNat = g).map
              fun row => val (v row))) := by
  have reduced := integer.encode_groupRows op n groups
    (fun row => !filtered || hit (v row)) keys v
  cases filtered with
  | true => simpa [AggKernel.groupReduceImpl, liveRows] using reduced
  | false => simpa [AggKernel.groupReduceImpl, liveRows] using reduced

end IntegerKernel

/-! ## Predicates over integers -/

theorem matrixPredMatch_eq (v : UInt32) (p : MatrixPredicate) :
    matrixPredMatch v p = p.cmp.holds v.toNat p.a.toNat p.b.toNat := by
  unfold matrixPredMatch predMatch MatrixCmp.holds
  cases p.cmp with
  | GT => simp [UInt32.lt_iff_toNat_lt]
  | GE => simp [UInt32.le_iff_toNat_le]
  | LT => simp [UInt32.lt_iff_toNat_lt]
  | LE => simp [UInt32.le_iff_toNat_le]
  | EQ =>
      rw [Bool.eq_iff_iff]
      simp [UInt32.toNat_inj]
  | NE =>
      rw [Bool.eq_iff_iff]
      simp [UInt32.toNat_inj]
  | BETWEEN => simp [UInt32.le_iff_toNat_le]

theorem matrixPredMatchI64_eq (v : Int64) (p : MatrixPredicateI64) :
    matrixPredMatchI64 v p = p.cmp.holds v.toInt p.a.toInt p.b.toInt := by
  unfold matrixPredMatchI64 predMatch MatrixCmp.holds
  cases p.cmp with
  | GT => simp [Int64.lt_iff_toInt_lt]
  | GE => simp [Int64.le_iff_toInt_le]
  | LT => simp [Int64.lt_iff_toInt_lt]
  | LE => simp [Int64.le_iff_toInt_le]
  | EQ =>
      rw [Bool.eq_iff_iff]
      simp [Int64.toInt_inj]
  | NE =>
      rw [Bool.eq_iff_iff]
      simp [Int64.toInt_inj]
  | BETWEEN => simp [Int64.le_iff_toInt_le]

end MatrixDB
