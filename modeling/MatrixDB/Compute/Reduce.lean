import MatrixDB.Lib.Bytes
import MatrixDB.Lib.FloatZero
import MatrixDB.Lib.IndexedLoop
import Mathlib.Logic.Function.Iterate

/-!
# The CPU reducers (`compute.hpp`)

Twenty-one loops, one for each element type and each of unfiltered,
null-aware, filtered, filtered by another column, and the grouped forms of
these.  They are written once, over what a type accumulates into, and every
source function is an instance.

An array is a function of the row; whoever takes a pointer checks that the
rows it will read are there.  A `double` is `Float`, whose NaN has one bit
pattern; a NaN read from a column is never copied into a result except through
an addition, whose payload the language leaves open.
-/

namespace MatrixDB

open Lib

/-- `enum MatrixAggOp : uint32_t`; a value off the wire can be any number,
which every `switch` treats as a count. -/
abbrev MatrixAggOp := UInt32

def AGG_COUNT : MatrixAggOp := 0
def AGG_SUM : MatrixAggOp := 1
def AGG_MIN : MatrixAggOp := 2
def AGG_MAX : MatrixAggOp := 3

inductive MatrixType where
  | U32
  | I64
  | F64
  deriving DecidableEq, Repr

inductive MatrixCmp where
  | GT
  | GE
  | LT
  | LE
  | EQ
  | NE
  | BETWEEN
  deriving DecidableEq, Repr

/-! ## Predicates -/

/-- `MatrixPredicate` and its two siblings. -/
structure Predicate (V : Type) where
  cmp : MatrixCmp
  a : V
  b : V

abbrev MatrixPredicate := Predicate UInt32
abbrev MatrixPredicateI64 := Predicate Int64
abbrev MatrixPredicateF64 := Predicate Float

section
variable {V : Type} [LT V] [DecidableLT V] [LE V] [DecidableLE V] [BEq V]

def predMatch (v : V) (p : Predicate V) : Bool :=
  match p.cmp with
  | .GE => v ≥ p.a
  | .LT => v < p.a
  | .LE => v ≤ p.a
  | .EQ => v == p.a
  | .NE => v != p.a
  | .BETWEEN => v ≥ p.a && v ≤ p.b
  | .GT => v > p.a

end

def matrixPredMatch (v : UInt32) (p : MatrixPredicate) : Bool := predMatch v p
def matrixPredMatchI64 (v : Int64) (p : MatrixPredicateI64) : Bool :=
  predMatch v p
def matrixPredMatchF64 (v : Float) (p : MatrixPredicateF64) : Bool :=
  predMatch v p

/-! ## Accumulators -/

/-- What a column of `V` is reduced into.  Counting adds `one` or `zero` for
every row, so `zero` must leave a count alone. -/
structure AggKernel (V A : Type) where
  zero : A
  one : A
  add : A → A → A
  widen : V → A
  below : V → A → Bool
  above : V → A → Bool
  minInit : A
  maxInit : A
  ofRows : Nat → A
  encode : A → UInt64
  count_add_zero : ∀ rows : Nat,
    add ((fun count => add count one)^[rows] zero) zero =
      (fun count => add count one)^[rows] zero

theorem count_f64_clear (rows : Nat) :
    FloatClear ((fun count => count + 1.0)^[rows] (0.0 : Float)) := by
  induction rows with
  | zero => exact floatClear_zero
  | succ rows induction =>
      rw [Function.iterate_succ_apply']
      exact floatClear_add induction floatClear_one

def u32Kernel : AggKernel UInt32 UInt64 where
  zero := 0
  one := 1
  add := (· + ·)
  widen := UInt32.toUInt64
  below v m := v.toUInt64 < m
  above v m := v.toUInt64 > m
  minInit := 0xFFFFFFFFFFFFFFFF
  maxInit := 0
  ofRows := UInt64.ofNat
  encode := id
  count_add_zero _ := UInt64.add_zero _

def i64Kernel : AggKernel Int64 Int64 where
  zero := 0
  one := 1
  add := (· + ·)
  widen := id
  below v m := v < m
  above v m := v > m
  minInit := Int64.maxValue
  maxInit := Int64.minValue
  ofRows := Int64.ofNat
  encode := Int64.toUInt64
  count_add_zero _ := Int64.add_zero _

def f64Infinity : Float := Float.ofBits 0x7FF0000000000000
def f64NegInfinity : Float := Float.ofBits 0xFFF0000000000000

def f64Kernel : AggKernel Float Float where
  zero := 0.0
  one := 1.0
  add := (· + ·)
  widen := id
  below v m := v < m
  above v m := v > m
  minInit := f64Infinity
  maxInit := f64NegInfinity
  ofRows := Float.ofNat
  encode := Float.toBits
  count_add_zero rows := add_zero_of_clear (count_f64_clear rows)

namespace AggKernel

variable {V A : Type} (K : AggKernel V A)

/-! ## The loops -/

/-- The scalar loops: `keep` is the condition under which a row counts. -/
def reduceRows (op : MatrixAggOp) (n : Nat) (keep : Nat → Bool)
    (v : Nat → V) : A :=
  if op = AGG_SUM then
    guardedLoop n keep (fun s i => K.add s (K.widen (v i))) K.zero
  else if op = AGG_MIN then
    guardedLoop n keep
      (fun m i => if K.below (v i) m then K.widen (v i) else m) K.minInit
  else if op = AGG_MAX then
    guardedLoop n keep
      (fun m i => if K.above (v i) m then K.widen (v i) else m) K.maxInit
  else
    (List.range n).foldl
      (fun c i => K.add c (if keep i then K.one else K.zero)) K.zero

/-- The unfiltered scalar loops; a count needs no loop. -/
def reduceAll (v : Nat → V) (n : Nat) (op : MatrixAggOp) : A :=
  if op = AGG_SUM ∨ op = AGG_MIN ∨ op = AGG_MAX then
    K.reduceRows op n (fun _ => true) v
  else K.ofRows n

/-- The value every group starts from. -/
def groupInit (op : MatrixAggOp) : A :=
  if op = AGG_MIN then K.minInit
  else if op = AGG_MAX then K.maxInit
  else K.zero

/-- The `switch` inside the grouped loops. -/
def groupStep (op : MatrixAggOp) (accumulator : A) (v : V) : A :=
  if op = AGG_SUM then K.add accumulator (K.widen v)
  else if op = AGG_MIN then
    if K.below v accumulator then K.widen v else accumulator
  else if op = AGG_MAX then
    if K.above v accumulator then K.widen v else accumulator
  else K.add accumulator K.one

/-- The grouped loops: one accumulator for each key below `groups`. -/
def groupRows (op : MatrixAggOp) (n : Nat) (groups : UInt32)
    (keep : Nat → Bool) (keys : Nat → UInt32) (v : Nat → V) : List A :=
  scatterLoop n (fun i => keep i && keys i < groups)
    (fun i => (keys i).toNat) (fun accumulator i =>
      K.groupStep op accumulator (v i))
    (List.replicate groups.toNat (K.groupInit op))

end AggKernel

/-- `nulls[i] == 0` for the first `n` rows.  No pointer means no NULL row, and
`none` stands for a read past the end of the mask. -/
def liveRows (nulls : Option Bytes) (n : Nat) : Option (Nat → Bool) :=
  match nulls with
  | none => some fun _ => true
  | some mask =>
      if n ≤ mask.length then some fun i => mask.getD i 0 == 0 else none

namespace AggKernel

variable {V A : Type} (K : AggKernel V A)

def reduceAllNullable (v : Nat → V) (n : Nat) (op : MatrixAggOp)
    (nulls : Bytes) : Option A :=
  (liveRows (some nulls) n).map fun live => K.reduceRows op n live v

def reducePred (hit : V → Bool) (v : Nat → V) (n : Nat) (op : MatrixAggOp)
    (nulls : Option Bytes) : Option A :=
  (liveRows nulls n).map fun live =>
    K.reduceRows op n (fun i => live i && hit (v i)) v

def reduceFilteredBy (f : Nat → UInt32) (p : MatrixPredicate) (a : Nat → V)
    (n : Nat) (op : MatrixAggOp) : A :=
  K.reduceRows op n (fun i => matrixPredMatch (f i) p) a

/-- The grouped loop of one type; `hit` is the `WHERE` of the filtered
instance and always true in the other. -/
def groupReduceImpl (hit : V → Bool) (keys : Nat → UInt32) (values : Nat → V)
    (n : Nat) (groups : UInt32) (op : MatrixAggOp) (nulls : Option Bytes) :
    Option (List A) :=
  (liveRows nulls n).map fun live =>
    K.groupRows op n groups (fun i => live i && hit (values i)) keys values

def groupReduceFilteredBy (keys : Nat → UInt32) (f : Nat → UInt32)
    (p : MatrixPredicate) (values : Nat → V) (n : Nat) (groups : UInt32)
    (op : MatrixAggOp) : List A :=
  K.groupRows op n groups (fun i => matrixPredMatch (f i) p) keys values

end AggKernel

/-! ## The source functions -/

def matrixCpuReduceAll := u32Kernel.reduceAll
def matrixCpuReduceAllI64 := i64Kernel.reduceAll
def matrixCpuReduceAllF64 := f64Kernel.reduceAll

def matrixCpuReduceAllNullable := u32Kernel.reduceAllNullable
def matrixCpuReduceAllI64Nullable := i64Kernel.reduceAllNullable
def matrixCpuReduceAllF64Nullable := f64Kernel.reduceAllNullable

def matrixCpuReducePred (v : Nat → UInt32) (n : Nat) (p : MatrixPredicate) :=
  u32Kernel.reducePred (matrixPredMatch · p) v n
def matrixCpuReducePredI64 (v : Nat → Int64) (n : Nat)
    (p : MatrixPredicateI64) :=
  i64Kernel.reducePred (matrixPredMatchI64 · p) v n
def matrixCpuReducePredF64 (v : Nat → Float) (n : Nat)
    (p : MatrixPredicateF64) :=
  f64Kernel.reducePred (matrixPredMatchF64 · p) v n

def matrixCpuGroupReduce := u32Kernel.groupReduceImpl fun _ => true
def matrixCpuGroupReduceI64 := i64Kernel.groupReduceImpl fun _ => true
def matrixCpuGroupReduceF64 := f64Kernel.groupReduceImpl fun _ => true

def matrixCpuGroupReducePred (p : MatrixPredicate) :=
  u32Kernel.groupReduceImpl (matrixPredMatch · p)
def matrixCpuGroupReduceI64Pred (p : MatrixPredicateI64) :=
  i64Kernel.groupReduceImpl (matrixPredMatchI64 · p)
def matrixCpuGroupReduceF64Pred (p : MatrixPredicateF64) :=
  f64Kernel.groupReduceImpl (matrixPredMatchF64 · p)

def matrixCpuReduceFilteredBy := u32Kernel.reduceFilteredBy
def matrixCpuReduceFilteredByI64 := i64Kernel.reduceFilteredBy
def matrixCpuReduceFilteredByF64 := f64Kernel.reduceFilteredBy

def matrixCpuGroupReduceFilteredBy := u32Kernel.groupReduceFilteredBy
def matrixCpuGroupReduceFilteredByI64 := i64Kernel.groupReduceFilteredBy
def matrixCpuGroupReduceFilteredByF64 := f64Kernel.groupReduceFilteredBy

/-! ## What the loops compute -/

namespace AggKernel

variable {V A : Type} (K : AggKernel V A)

/-- An aggregate over a list of values, one after another. -/
def fold (op : MatrixAggOp) (values : List V) : A :=
  values.foldl (K.groupStep op) (K.groupInit op)

/-- Rows that do not count add `zero`, and that changes no count. -/
theorem count_rows (keep : Nat → Bool) (indices : List Nat) (rows : Nat) :
    indices.foldl (fun c i => K.add c (if keep i then K.one else K.zero))
        ((fun count => K.add count K.one)^[rows] K.zero) =
      (indices.filter keep).foldl (fun c _ => K.add c K.one)
        ((fun count => K.add count K.one)^[rows] K.zero) := by
  induction indices generalizing rows with
  | nil => rfl
  | cons i indices induction =>
      by_cases kept : keep i
      · have counted := induction (rows + 1)
        rw [Function.iterate_succ_apply'] at counted
        simpa [kept] using counted
      · simpa [kept, K.count_add_zero] using induction rows

theorem reduceRows_eq (op : MatrixAggOp) (n : Nat) (keep : Nat → Bool)
    (v : Nat → V) :
    K.reduceRows op n keep v =
      K.fold op (((List.range n).filter keep).map v) := by
  unfold reduceRows fold groupInit
  rw [List.foldl_map]
  simp only [guardedLoop_eq]
  by_cases sum : op = AGG_SUM
  · subst sum
    rfl
  by_cases least : op = AGG_MIN
  · subst least
    rfl
  by_cases greatest : op = AGG_MAX
  · subst greatest
    rfl
  · simp only [groupStep, if_neg sum, if_neg least, if_neg greatest]
    exact K.count_rows keep (List.range n) 0

/-- Where counting one by one gives the number of rows, the unfiltered loops
are the others with every row kept. -/
theorem reduceAll_eq
    (counts : ∀ rows, K.ofRows rows =
      (fun count => K.add count K.one)^[rows] K.zero)
    (v : Nat → V) (n : Nat) (op : MatrixAggOp) :
    K.reduceAll v n op = K.fold op ((List.range n).map v) := by
  have kept := K.reduceRows_eq op n (fun _ => true) v
  rw [List.filter_eq_self.mpr (fun _ _ => rfl)] at kept
  unfold reduceAll
  split
  · exact kept
  · rename_i counting
    simp only [not_or] at counting
    rw [fold, List.foldl_map]
    simp only [groupStep, groupInit, if_neg counting.1, if_neg counting.2.1,
      if_neg counting.2.2]
    rw [counts, List.foldl_const, List.length_range]

theorem groupRows_eq (op : MatrixAggOp) (n : Nat) (groups : UInt32)
    (keep : Nat → Bool) (keys : Nat → UInt32) (v : Nat → V) :
    K.groupRows op n groups keep keys v =
      (List.range groups.toNat).map fun g =>
        K.fold op (((List.range n).filter fun i =>
          keep i && (keys i).toNat = g).map v) := by
  unfold groupRows
  rw [scatterLoop_replicate]
  apply List.map_congr_left
  intro g inside
  rw [fold, List.foldl_map]
  apply congrArg
  apply List.filter_congr
  intro i _
  have below : g < groups.toNat := List.mem_range.mp inside
  by_cases own : (keys i).toNat = g
  · have small : keys i < groups := UInt32.lt_iff_toNat_lt.mpr (own ▸ below)
    simp [own, small]
  · simp [own]

end AggKernel

/-! ## Typed columns -/

/-- `const uint32_t*` over a column's bytes. -/
def u32At (bytes : Bytes) (row : Nat) : UInt32 :=
  u32OfBytes ((bytes.drop (4 * row)).take 4)

def u64At (bytes : Bytes) (row : Nat) : UInt64 :=
  u64OfBytes ((bytes.drop (8 * row)).take 8)

/-- `const int64_t*` over a column's bytes. -/
def i64At (bytes : Bytes) (row : Nat) : Int64 := (u64At bytes row).toInt64

/-- `const double*` over a column's bytes. -/
def f64At (bytes : Bytes) (row : Nat) : Float := Float.ofBits (u64At bytes row)

end MatrixDB
