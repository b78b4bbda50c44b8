import MatrixDB.Catalog.Transparency
import MatrixDB.Cli.Aggregates
import MatrixDB.Query.Comparisons
import Mathlib.Tactic.IntervalCases

/-!
# What the shell prints (`matrix_cli.hpp`)

Numbers, the decoders of results, and lines.  Bytes are text; what an output
stream makes of a `double` is an argument, as `strtod` is.
-/

namespace MatrixDB

open Lib CostArith

/-! ## Numbers as text -/

/-- `std::to_string` of an unsigned number. -/
def decimal (n : Nat) : Bytes :=
  (Nat.toDigits 10 n).map fun c => UInt8.ofNat c.toNat

/-- `std::to_string` of a signed number. -/
def signedDecimal (n : Int) : Bytes :=
  if n < 0 then '-'.toUInt8 :: decimal n.natAbs else decimal n.natAbs

/-- The last digit comes off the end. -/
theorem decimal_eq (n : Nat) :
    decimal n = (if n < 10 then [] else decimal (n / 10)) ++
      [UInt8.ofNat (48 + n % 10)] := by
  have digit : ∀ d < 10, UInt8.ofNat (Nat.digitChar d).toNat =
      UInt8.ofNat (48 + d) := by
    intro d below
    interval_cases d <;> rfl
  unfold decimal
  rw [Nat.toDigits_eq_if (by decide)]
  split
  · rename_i small
    rw [List.map_singleton, digit n small, Nat.mod_eq_of_lt small]
    rfl
  · have last := digit (n % 10) (Nat.mod_lt n (by decide))
    rw [List.map_append, List.map_singleton, last]

/-- A number is read back from its digits. -/
theorem digitsValue_decimal (n : Nat) : digitsValue (decimal n) = n := by
  induction n using Nat.strongRecOn with
  | ind n induction =>
      have small : (48 + n % 10) % 256 - 48 = n % 10 := by omega
      rw [decimal_eq]
      split
      · rename_i below
        simp only [digitsValue, List.nil_append, List.foldl_cons,
          List.foldl_nil, UInt8.toNat_ofNat', Nat.reducePow, small]
        omega
      · have shorter := induction (n / 10) (by omega)
        unfold digitsValue at shorter ⊢
        rw [List.foldl_append, shorter]
        simp only [List.foldl_cons, List.foldl_nil, UInt8.toNat_ofNat',
          Nat.reducePow, small]
        omega

theorem decimal_inj {a b : Nat} : decimal a = decimal b ↔ a = b := by
  constructor
  · intro same
    have read := congrArg digitsValue same
    rwa [digitsValue_decimal, digitsValue_decimal] at read
  · rintro rfl
    rfl

/-- `std::strtoull` in base ten: blanks, a sign, digits, and the largest value
when there are too many. -/
def strtoull (text : Bytes) : UInt64 :=
  let body := text.dropWhile isSpace
  let signed := body.head? = some '-'.toUInt8 ∨ body.head? = some '+'.toUInt8
  let digits := (if signed then body.drop 1 else body).takeWhile isDigit
  let value := digitsValue digits
  if 2 ^ 64 ≤ value then 0xFFFFFFFFFFFFFFFF
  else if body.head? = some '-'.toUInt8 then -UInt64.ofNat value
  else UInt64.ofNat value

/-! ## Lines -/

/-- `enum class OutMode`. -/
inductive OutMode where
  | LIST
  | CSV
  | TABLE
  deriving DecidableEq, Repr

/-- A line of output: the fields of a row, an error, or the note that not all
rows were shown. -/
inductive CliLine where
  | row (fields : List Bytes)
  | error (message : Bytes)
  | more (total : Nat) (what : Bytes) (shown : Nat)
  deriving DecidableEq

/-- A bar between two blanks. -/
def bar : Bytes := [32, 0xE2, 0x94, 0x82, 32]

def ellipsis : Bytes := [0xE2, 0x80, 0xA6]

/-- The separator of a mode; a table is made of listed rows. -/
def OutMode.sep : OutMode → Bytes
  | .CSV => ascii ","
  | .LIST => bar
  | .TABLE => bar

def CliLine.text (sep : Bytes) : CliLine → Bytes
  | .row fields => sep.intercalate fields
  | .error message => ascii "Error: " ++ message
  | .more total what shown =>
      ellipsis ++ ascii " (" ++ decimal total ++ ascii " " ++ what ++
        ascii ", showing " ++ decimal shown ++ ascii ")"

/-- What is written for some lines. -/
def printed (mode : OutMode) (lines : List CliLine) : Bytes :=
  lines.flatMap fun line => line.text mode.sep ++ [10]

/-! ## Decoders -/

variable {κ : Type} (printDouble : UInt64 → Bytes)

namespace Catalog

variable (catalog : Catalog κ)

/-- A value by the storage type of its column. -/
def decodeNum (col : UInt64) (v : UInt64) : Bytes :=
  match catalog.columnType col with
  | .I64 => signedDecimal v.toInt64.toInt
  | .F64 => printDouble v
  | .U32 => decimal v.toNat

/-- A count is taken for an integer, whatever its column is. -/
def decodeAgg (q : MatrixQuery) (v : UInt64) : Bytes :=
  if q.agg = AGG_COUNT then decimal v.toNat
  else catalog.decodeNum printDouble q.valueCol v

/-- A projected value: a code is decoded to its string. -/
def decodeProj (col : UInt64) (v : UInt64) : Bytes :=
  if 0 < catalog.stringDictSize col then catalog.stringDecode col v.toUInt32
  else catalog.decodeNum printDouble col v

/-- The label of a group. -/
def groupLabel (key : UInt64) (v : UInt64) : Bytes :=
  if 0 < catalog.stringDictSize key then catalog.stringDecode key v.toUInt32
  else decimal v.toNat

/-- A row of a grouped result. -/
def groupRow (q : MatrixQuery) (group : UInt64 × UInt64) : CliLine :=
  .row [catalog.groupLabel q.keyCol group.1,
    catalog.decodeAgg printDouble q group.2]

/-! ## Aggregates of gathered values -/

/-- `AggResult`: the text, and a number to compare by. -/
structure AggResult where
  text : Bytes
  order : Float

def f64Max : Float := Float.ofBits 0x7FEFFFFFFFFFFFFF
def f64Lowest : Float := Float.ofBits 0xFFEFFFFFFFFFFFFF

/-- The loop of `reduce_agg` in one type, and zero when there is nothing to
reduce. -/
def gatheredAgg {A : Type} [LT A] [DecidableLT A] [Add A]
    (zero least greatest : A) (agg : MatrixAggOp) (vals : List A) : A :=
  if vals.isEmpty then zero
  else
    vals.foldl
      (fun acc v =>
        if agg = AGG_SUM then acc + v
        else if agg = AGG_MIN then if v < acc then v else acc
        else if v > acc then v else acc)
      (if agg = AGG_SUM then zero
        else if agg = AGG_MIN then greatest
        else least)

def reduceAgg (col : UInt64) (agg : MatrixAggOp) (vals : List UInt64) :
    AggResult :=
  if agg = AGG_COUNT then
    { text := decimal vals.length
      order := (UInt64.ofNat vals.length).toFloat }
  else
    match catalog.columnType col with
    | .F64 =>
        let acc := gatheredAgg 0.0 f64Lowest f64Max agg
          (vals.map Float.ofBits)
        { text := printDouble acc.toBits, order := acc }
    | .I64 =>
        let acc := gatheredAgg 0 Int64.minValue Int64.maxValue agg
          (vals.map UInt64.toInt64)
        { text := signedDecimal acc.toInt, order := acc.toFloat }
    | .U32 =>
        let acc := gatheredAgg 0 0 0xFFFFFFFFFFFFFFFF agg
          (vals.map fun v => v &&& 0xFFFFFFFF)
        { text := decimal acc.toNat, order := acc.toFloat }

/-! ## What a query leaves alone -/

theorem Keeps.sameData {before after : Catalog κ} (keeps : Keeps before after) :
    SameData before after :=
  (SameData.refl before).moved keeps

section
variable {before after : Catalog κ} (same : SameShown before after)

include same

theorem SameShown.stringDictSize (id : UInt64) :
    after.stringDictSize id = before.stringDictSize id := by
  rw [Catalog.stringDictSize, ← same.stringDicts]
  rfl

theorem SameShown.stringDecode (id : UInt64) (code : UInt32) :
    after.stringDecode id code = before.stringDecode id code := by
  rw [Catalog.stringDecode, ← same.stringDicts]
  rfl

theorem SameShown.decodeNum (col v : UInt64) :
    after.decodeNum printDouble col v = before.decodeNum printDouble col v := by
  simp only [Catalog.decodeNum, ← same.columnType]

theorem SameShown.decodeAgg (q : MatrixQuery) (v : UInt64) :
    after.decodeAgg printDouble q v = before.decodeAgg printDouble q v := by
  simp only [Catalog.decodeAgg, same.decodeNum]

theorem SameShown.decodeProj (col v : UInt64) :
    after.decodeProj printDouble col v =
      before.decodeProj printDouble col v := by
  simp only [Catalog.decodeProj, same.stringDictSize, same.stringDecode,
    same.decodeNum]

theorem SameShown.groupLabel (key v : UInt64) :
    after.groupLabel key v = before.groupLabel key v := by
  simp only [Catalog.groupLabel, same.stringDictSize, same.stringDecode]

theorem SameShown.groupRow (q : MatrixQuery) (group : UInt64 × UInt64) :
    after.groupRow printDouble q group =
      before.groupRow printDouble q group := by
  simp only [Catalog.groupRow, same.groupLabel, same.decodeAgg]

theorem SameShown.reduceAgg (col : UInt64) (agg : MatrixAggOp)
    (vals : List UInt64) :
    after.reduceAgg printDouble col agg vals =
      before.reduceAgg printDouble col agg vals := by
  simp only [Catalog.reduceAgg, ← same.columnType]

end

end Catalog

end MatrixDB
