import MatrixDB.Catalog.Loading
import MatrixDB.Catalog.Lockstep
import MatrixDB.Catalog.Rows
import MatrixDB.Lib.Buckets

/-!
# The hash joins against nested loops

A join builds a table over the left keys and reads it at each of the right
ones.  Its result is that of two nested loops, and it leaves both columns, or
the one column on both sides, where they were.
-/

namespace MatrixDB

open Lib CostArith

/-! ## Building and probing -/

theorem foldl_count {A : Type} (items : List A) (start : UInt64) :
    items.foldl (fun count _ => count + 1) start =
      start + UInt64.ofNat items.length := by
  induction items generalizing start with
  | nil => simp
  | cons item items induction =>
      rw [List.foldl_cons, induction, List.length_cons, UInt64.ofNat_add,
        UInt64.add_assoc, UInt64.add_comm 1]
      rfl

section
variable {K : Type} [DecidableEq K] (left right : Nat → K)
  (leftRows rightRows : Nat)

theorem joinProbe_eq :
    joinProbe (joinBuild left leftRows) right rightRows =
      (matchingPairs left leftRows right rightRows).map fun pair =>
        (UInt64.ofNat pair.1, UInt64.ofNat pair.2) := by
  have bucket : ∀ k, ((joinBuild left leftRows).lookup k).getD [] =
      ((List.range leftRows).filter fun i => left i = k).map
        UInt64.ofNat := by
    intro k
    have seen := getD_intoBuckets left []
      (fun rows i => rows ++ [UInt64.ofNat i]) (List.range leftRows) k
    rw [List.foldl_append_eq_append, List.nil_append] at seen
    rw [List.map_eq_flatMap]
    exact seen
  unfold joinProbe matchingPairs
  rw [List.map_flatMap]
  apply List.flatMap_congr
  intro j _
  rw [bucket, List.map_map, List.map_map]
  rfl

theorem countProbe_eq :
    countProbe (countBuild left leftRows) right rightRows =
      UInt64.ofNat (matchingPairs left leftRows right rightRows).length := by
  have counted : ∀ k, ((countBuild left leftRows).lookup k).getD 0 =
      UInt64.ofNat
        ((List.range leftRows).filter fun i => left i = k).length := by
    intro k
    have seen := getD_intoBuckets left 0 (fun (count : UInt64) _ => count + 1)
      (List.range leftRows) k
    rw [foldl_count, UInt64.zero_add] at seen
    exact seen
  unfold countProbe
  induction rightRows with
  | zero => rfl
  | succ rightRows induction =>
      have grown : matchingPairs left leftRows right (rightRows + 1) =
          matchingPairs left leftRows right rightRows ++
            ((List.range leftRows).filter fun i =>
              left i = right rightRows).map fun i => (i, rightRows) := by
        rw [matchingPairs, List.range_succ, List.flatMap_append]
        simp [matchingPairs]
      rw [List.range_succ, List.foldl_append, induction, grown,
        List.length_append, List.length_map, UInt64.ofNat_add]
      simp only [List.foldl_cons, List.foldl_nil, counted]

end

/-! ## Joins of columns -/

section
variable {K : Type}

/-- A join as its documentation has it: each pair of rows with equal keys,
once, by the right row and then by the left one. -/
structure NestedLoop (left : Nat → K) (leftRows : Nat) (right : Nat → K)
    (rightRows : Nat) (pairs : List (UInt64 × UInt64)) : Prop where
  matching : ∀ i j, (i, j) ∈ pairs ↔
    i.toNat < leftRows ∧ j.toNat < rightRows ∧ left i.toNat = right j.toNat
  once : pairs.Nodup
  ordered : pairs.Pairwise fun p q => p.2 < q.2 ∨ p.2 = q.2 ∧ p.1 < q.1

variable [DecidableEq K] {left right : Nat → K} {leftRows rightRows : Nat}

/-- Rows that 64 bits can count. -/
theorem nestedLoop_joinProbe (leftFits : leftRows < 2 ^ 64)
    (rightFits : rightRows < 2 ^ 64) :
    NestedLoop left leftRows right rightRows
      (joinProbe (joinBuild left leftRows) right rightRows) := by
  have ordered : (joinProbe (joinBuild left leftRows) right rightRows).Pairwise
      fun p q => p.2 < q.2 ∨ p.2 = q.2 ∧ p.1 < q.1 := by
    rw [joinProbe_eq]
    apply List.pairwise_map.mpr
    apply List.Pairwise.imp_of_mem _ ordered_matchingPairs
    rintro ⟨i, j⟩ ⟨i', j'⟩ member member' less
    obtain ⟨inside, inside', _⟩ := mem_matchingPairs.mp member
    obtain ⟨inside₂, inside₂', _⟩ := mem_matchingPairs.mp member'
    have row : ∀ {n : Nat}, n < 2 ^ 64 → (UInt64.ofNat n).toNat = n :=
      fun small => UInt64.toNat_ofNat_of_lt' small
    simp only [UInt64.lt_iff_toNat_lt]
    rw [row (by omega), row (by omega), row (by omega), row (by omega)]
    rcases less with less | ⟨same, less⟩
    · exact .inl less
    · exact .inr ⟨congrArg UInt64.ofNat same, less⟩
  refine ⟨?_, ?_, ordered⟩
  · intro i j
    rw [joinProbe_eq, List.mem_map]
    constructor
    · rintro ⟨⟨i', j'⟩, member, same⟩
      cases same
      obtain ⟨inside, inside', equal⟩ := mem_matchingPairs.mp member
      have small : i' < 2 ^ 64 := by omega
      have small' : j' < 2 ^ 64 := by omega
      rw [UInt64.toNat_ofNat_of_lt' small, UInt64.toNat_ofNat_of_lt' small']
      exact ⟨inside, inside', equal⟩
    · intro found
      exact ⟨(i.toNat, j.toNat), mem_matchingPairs.mpr found, by simp⟩
  · apply List.Pairwise.imp _ ordered
    rintro ⟨i, j⟩ ⟨i', j'⟩ less same
    cases same
    rcases less with less | ⟨_, less⟩
    · exact UInt64.lt_irrefl _ less
    · exact UInt64.lt_irrefl _ less

end

namespace Catalog

variable {κ : Type} {catalog : Catalog κ}

/-- Every column has the bytes and the tier that it had. -/
structure Untouched (before after : Catalog κ) : Prop where
  contents : ∀ id, after.contents id = before.contents id
  place : ∀ id, after.place id = before.place id

theorem rows_lt (wellFormed : catalog.WellFormed) {id : UInt64}
    {column : ColumnView} (seen : catalog.view id = some column) :
    column.rows < 2 ^ 64 := by
  have sized := wellFormed.sized id _ (contents_of_view seen)
  have fewer : column.rows ≤ column.bytes.length := Nat.div_le_self _ _
  unfold MAX_VECTOR_BYTES at sized
  omega

section
variable (wellFormed : catalog.WellFormed) {l r : UInt64}
  {left right : ColumnView} (leftSeen : catalog.view l = some left)
  (rightSeen : catalog.view r = some right)

include wellFormed leftSeen rightSeen in
theorem joinable_eq {ty : MatrixType} (leftTyped : left.type = ty)
    (rightTyped : right.type = ty) : catalog.joinable ty l r = true := by
  simp [joinable, catalogHas_view wellFormed, leftSeen, rightSeen,
    columnType_of_view leftSeen, columnType_of_view rightSeen, leftTyped,
    rightTyped]

include wellFormed leftSeen rightSeen in
/-- A reduction of two columns that stay where they are. -/
theorem withBorrowed_pair {A : Type} {reduce : Catalog κ → Option A}
    {result : A}
    (reduced : ∀ lent, Lends lent l left → Lends lent r right →
      reduce lent = some result) :
    ∃ after, Keeps catalog after ∧ Untouched catalog after ∧
      catalog.withBorrowed [l, r] reduce = some (result, after) := by
  have registered : ∀ id ∈ [l, r], (catalog.contents id).isSome := by
    intro id member
    rcases List.mem_pair.mp member with rfl | rfl
    · exact registered_of_view leftSeen
    · exact registered_of_view rightSeen
  have reduces : ∀ lent, Lent catalog [l, r] lent →
      reduce lent = some result := by
    intro lent shows
    exact reduced lent (shows.lends (by simp) leftSeen)
      (shows.lends (by simp) rightSeen)
  obtain ⟨after, keeps, ran⟩ :=
    withBorrowed_eq wellFormed registered reduces
  have same := samePlaces_withBorrowed _ _ ran
  exact ⟨after, keeps, ⟨keeps.contents, same.columns⟩, ran⟩

include wellFormed leftSeen rightSeen in
theorem hashJoin_eq (leftU32 : left.type = .U32)
    (rightU32 : right.type = .U32) :
    ∃ after, Keeps catalog after ∧ Untouched catalog after ∧
      catalog.hashJoin l r =
        some (joinProbe (joinBuild (u32At left.bytes) left.rows)
          (u32At right.bytes) right.rows, after) := by
  rw [hashJoin, if_pos (joinable_eq wellFormed leftSeen rightSeen leftU32
    rightU32)]
  apply withBorrowed_pair wellFormed leftSeen rightSeen
  intro lent lendsLeft lendsRight
  have leftFits := u32Rows_eq (Nat.mul_div_le left.bytes.length 4)
  have rightFits := u32Rows_eq (Nat.mul_div_le right.bytes.length 4)
  simp only [lendsLeft.hostBytes, lendsLeft.sizeBytes, lendsRight.hostBytes,
    lendsRight.sizeBytes, Option.bind_eq_bind, Option.bind_some, leftFits,
    rightFits, ColumnView.rows, leftU32, rightU32, MatrixType.width]

include wellFormed leftSeen rightSeen in
theorem hashJoinI64_eq (leftI64 : left.type = .I64)
    (rightI64 : right.type = .I64) :
    ∃ after, Keeps catalog after ∧ Untouched catalog after ∧
      catalog.hashJoinI64 l r =
        some (joinProbe (joinBuild (i64At left.bytes) left.rows)
          (i64At right.bytes) right.rows, after) := by
  rw [hashJoinI64, if_pos (joinable_eq wellFormed leftSeen rightSeen leftI64
    rightI64)]
  apply withBorrowed_pair wellFormed leftSeen rightSeen
  intro lent lendsLeft lendsRight
  have leftFits := i64Rows_eq (Nat.mul_div_le left.bytes.length 8)
  have rightFits := i64Rows_eq (Nat.mul_div_le right.bytes.length 8)
  simp only [lendsLeft.hostBytes, lendsLeft.sizeBytes, lendsRight.hostBytes,
    lendsRight.sizeBytes, Option.bind_eq_bind, Option.bind_some, leftFits,
    rightFits, ColumnView.rows, leftI64, rightI64, MatrixType.width]

include wellFormed leftSeen rightSeen in
theorem hashJoinCount_eq (leftU32 : left.type = .U32)
    (rightU32 : right.type = .U32) :
    ∃ after, Keeps catalog after ∧ Untouched catalog after ∧
      catalog.hashJoinCount l r =
        some (countProbe (countBuild (u32At left.bytes) left.rows)
          (u32At right.bytes) right.rows, after) := by
  rw [hashJoinCount, if_pos (joinable_eq wellFormed leftSeen rightSeen
    leftU32 rightU32)]
  apply withBorrowed_pair wellFormed leftSeen rightSeen
  intro lent lendsLeft lendsRight
  have leftFits := u32Rows_eq (Nat.mul_div_le left.bytes.length 4)
  have rightFits := u32Rows_eq (Nat.mul_div_le right.bytes.length 4)
  simp only [lendsLeft.hostBytes, lendsLeft.sizeBytes, lendsRight.hostBytes,
    lendsRight.sizeBytes, Option.bind_eq_bind, Option.bind_some, leftFits,
    rightFits, ColumnView.rows, leftU32, rightU32, MatrixType.width]

include wellFormed leftSeen rightSeen in
/-- The joins of two columns of keys are nested loops, the count is the size of
the join, and no column changes. -/
theorem joins_nested_loop :
    (left.type = .U32 → right.type = .U32 →
      (∃ pairs after, catalog.hashJoin l r = some (pairs, after) ∧
        NestedLoop (u32At left.bytes) left.rows (u32At right.bytes)
          right.rows pairs ∧ Untouched catalog after) ∧
      ∃ pairs joined count counted,
        catalog.hashJoin l r = some (pairs, joined) ∧
        catalog.hashJoinCount l r = some (count, counted) ∧
        count = UInt64.ofNat pairs.length ∧ Untouched catalog counted) ∧
    (left.type = .I64 → right.type = .I64 →
      ∃ pairs after, catalog.hashJoinI64 l r = some (pairs, after) ∧
        NestedLoop (i64At left.bytes) left.rows (i64At right.bytes)
          right.rows pairs ∧ Untouched catalog after) := by
  have leftFits := rows_lt wellFormed leftSeen
  have rightFits := rows_lt wellFormed rightSeen
  constructor
  · intro leftU32 rightU32
    obtain ⟨after, _, untouched, ran⟩ :=
      hashJoin_eq wellFormed leftSeen rightSeen leftU32 rightU32
    obtain ⟨counted, _, untouched', ran'⟩ :=
      hashJoinCount_eq wellFormed leftSeen rightSeen leftU32 rightU32
    refine ⟨⟨_, after, ran, nestedLoop_joinProbe leftFits rightFits,
      untouched⟩, _, after, _, counted, ran, ran', ?_, untouched'⟩
    rw [countProbe_eq, joinProbe_eq, List.length_map]
  · intro leftI64 rightI64
    obtain ⟨after, _, untouched, ran⟩ :=
      hashJoinI64_eq wellFormed leftSeen rightSeen leftI64 rightI64
    exact ⟨_, after, ran, nestedLoop_joinProbe leftFits rightFits, untouched⟩

end

/-- A column of two equal keys, joined with itself. -/
theorem joins_nested_loop_itself :
    ∃ catalog : Catalog ℚ, (fresh 1024).loadScanColumn 7 [4, 4] =
        some catalog ∧
      ∃ pairs after, catalog.hashJoin 7 7 = some (pairs, after) ∧
        NestedLoop (u32At ([4, 4].flatMap u32Bytes)) 2
          (u32At ([4, 4].flatMap u32Bytes)) 2 pairs ∧
        Untouched catalog after := by
  have made : ((fresh 1024 : Catalog ℚ).loadScanColumn 7 [4, 4]).isSome := by
    decide +kernel
  obtain ⟨catalog, loaded⟩ := Option.isSome_iff_exists.mp made
  have loads := loadScanColumn_loads (wellFormed_fresh 1024) loaded
  exact ⟨catalog, loaded, ((joins_nested_loop loads.wellFormed
    loads.view_self loads.view_self).1 rfl rfl).1⟩

end Catalog

end MatrixDB
