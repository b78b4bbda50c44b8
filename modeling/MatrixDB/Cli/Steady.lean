import MatrixDB.Cli.Router
import MatrixDB.Catalog.Transparency

/-!
# A line of the shell leaves the columns as they are

A line moves columns between the tiers and back, and what it prints does not
depend on where they lie.
-/

namespace MatrixDB

open Lib CostArith

namespace Catalog

variable {κ : Type} [SoundCost κ]

namespace Kept

section
variable {data left right : Catalog κ} (kept : Kept data left right)
  (strtod : Bytes → StrtodResult) (printDouble : UInt64 → Bytes)
  (ns ns' : Nat → UInt64) (mode : OutMode) (line : Bytes)

include kept

omit [SoundCost κ] in
theorem failure (message : Bytes) :
    Twin (Kept data) (MatrixDB.failure message left)
      (MatrixDB.failure message right) := .pure kept

theorem runDistinct :
    Twin (Kept data) (left.runDistinct line) (right.runDistinct line) := by
  refine .bind (kept.distinctQuery line) ?_
  intro n one two kept
  cases n with
  | none => exact kept.failure _
  | some n => exact .pure kept

theorem runHaving (cut : Nat) :
    Twin (Kept data) (left.runHaving strtod printDouble ns line cut)
      (right.runHaving strtod printDouble ns' line cut) := by
  refine .bind (kept.parseQuery strtod _) ?_
  rintro status ⟨q, one⟩ ⟨_, two⟩ ⟨rfl, kept⟩
  apply Twin.ite Iff.rfl
  · intro _
    refine .bind (kept.havingQuery strtod (ns 0) (ns' 0) line) ?_
    intro groups one two kept
    have row : two.groupRow printDouble q = one.groupRow printDouble q :=
      funext (kept.same.groupRow printDouble q)
    dsimp only
    rw [row]
    exact .pure kept
  · intro _
    exact kept.failure _

theorem runAverage :
    Twin (Kept data) (left.runAverage strtod printDouble ns line)
      (right.runAverage strtod printDouble ns' line) := by
  refine .bind (kept.avgQuery strtod ns ns' line) ?_
  intro averages one two kept
  dsimp only
  split
  · exact kept.failure _
  · exact .pure kept
  · exact .pure kept

omit kept in
theorem runTerms (rest : Bytes) (terms : List Bytes)
    (columns : List AggregateColumn) (kept : Kept data left right) :
    Twin (Kept data) (Catalog.runTerms strtod ns rest terms columns left)
      (Catalog.runTerms strtod ns' rest terms columns right) := by
  induction terms generalizing columns left right with
  | nil => exact .pure kept
  | cons term terms induction =>
      refine .bind (kept.parseQuery strtod _) ?_
      rintro status ⟨q, one⟩ ⟨_, two⟩ ⟨rfl, kept⟩
      apply Twin.ite Iff.rfl
      · intro _
        refine .bind (kept.executeQuery _ _ q) ?_
        rintro status ⟨r, one⟩ ⟨_, two⟩ ⟨rfl, kept⟩
        apply Twin.ite Iff.rfl
        · intro _
          exact induction _ kept
        · intro _
          exact .pure kept
      · intro _
        exact .pure kept

theorem runMulti :
    Twin (Kept data) (left.runMulti strtod printDouble ns line)
      (right.runMulti strtod printDouble ns' line) := by
  refine .bind (runTerms strtod ns ns' _ _ [] kept) ?_
  intro columns one two kept
  have decode : two.decodeAgg printDouble = one.decodeAgg printDouble :=
    funext fun q => funext (kept.same.decodeAgg printDouble q)
  have row : two.multiRow printDouble = one.multiRow printDouble := by
    funext key columns g
    unfold Catalog.multiRow
    rw [decode, kept.same.groupLabel]
  dsimp only
  split
  · exact kept.failure _
  · exact kept.failure _
  · rw [decode, row]
    split
    · rename_i first others _
      cases (List.range first.result.length).mapM (one.multiRow printDouble
        first.query.keyCol (first :: others)) with
      | none => exact Twin.none
      | some rows => exact .pure kept
    · exact .pure kept

theorem runSingle :
    Twin (Kept data) (left.runSingle strtod printDouble ns line)
      (right.runSingle strtod printDouble ns' line) := by
  refine .bind (kept.parseQuery strtod line) ?_
  rintro status ⟨q, one⟩ ⟨_, two⟩ ⟨rfl, kept⟩
  apply Twin.ite Iff.rfl
  · intro _
    refine .bind (kept.executeQuery (ns 0) (ns' 0) q) ?_
    rintro status ⟨out, one⟩ ⟨_, two⟩ ⟨rfl, kept⟩
    have row : two.groupRow printDouble q = one.groupRow printDouble q :=
      funext (kept.same.groupRow printDouble q)
    have decode : two.decodeAgg printDouble q = one.decodeAgg printDouble q :=
      funext (kept.same.decodeAgg printDouble q)
    apply Twin.ite Iff.rfl
    · intro _
      apply Twin.ite Iff.rfl
      · intro _
        refine .bind (kept.topQuery strtod (ns 1) (ns' 1) line) ?_
        intro groups one two kept
        have row : two.groupRow printDouble q = one.groupRow printDouble q :=
          funext (kept.same.groupRow printDouble q)
        dsimp only
        rw [row]
        exact .pure kept
      · intro _
        dsimp only
        rw [row, decode]
        apply Twin.ite Iff.rfl
        · intro _
          exact .pure kept
        · intro _
          exact .pure kept
    · intro _
      exact kept.failure _
  · intro _
    exact kept.failure _

omit [SoundCost κ] in
theorem runProjection :
    Twin (Kept data) (left.runProjection strtod printDouble mode line)
      (right.runProjection strtod printDouble mode line) := by
  unfold Catalog.runProjection
  simp only [kept.columnId]
  apply Twin.ite Iff.rfl
  · intro _
    exact kept.failure _
  · intro _
    refine .bind (kept.projectQuery strtod line) ?_
    intro out one two kept
    have decode : two.decodeProj printDouble = one.decodeProj printDouble :=
      funext fun col => funext (kept.same.decodeProj printDouble col)
    dsimp only
    rw [decode]
    exact .pure kept

/-! ### Joins -/

omit [SoundCost κ] in
theorem joinPairs (kt : MatrixType) (lkey rkey : UInt64) :
    Twin (Kept data) (left.joinPairs kt lkey rkey)
      (right.joinPairs kt lkey rkey) := by
  unfold Catalog.joinPairs
  split
  · exact kept.hashJoinI64 lkey rkey
  · exact kept.hashJoin lkey rkey

omit [SoundCost κ] in
theorem joinAggregate (select : Bytes) (tail : List Bytes) :
    left.joinAggregate strtod select tail =
      right.joinAggregate strtod select tail := by
  have group : left.joinGroup strtod = right.joinGroup strtod := by
    funext tail
    unfold Catalog.joinGroup
    simp only [kept.columnId]
  unfold Catalog.joinAggregate
  rw [group]
  simp only [kept.columnId]

omit [SoundCost κ] in
theorem runJoinAggregate (kt : MatrixType) (lkey rkey : UInt64)
    (j : JoinAggregate) :
    Twin (Kept data) (left.runJoinAggregate printDouble kt lkey rkey j)
      (right.runJoinAggregate printDouble kt lkey rkey j) := by
  refine .bind (kept.joinPairs kt lkey rkey) ?_
  intro pr one two kept
  refine .bind (kept.gather j.lcol _) ?_
  intro lv one two kept
  apply Twin.ite Iff.rfl
  · intro _
    rw [kept.same.reduceAgg]
    exact .pure kept
  · intro _
    refine .bind (kept.gather j.gcol _) ?_
    intro gv one two kept
    simp only [kept.same.reduceAgg, kept.same.groupLabel]
    exact .pure kept

omit [SoundCost κ] in
theorem runJoinProjection (kt : MatrixType) (lkey rkey : UInt64)
    (select : Bytes) (tail : List Bytes) :
    Twin (Kept data)
      (left.runJoinProjection printDouble mode kt lkey rkey select tail)
      (right.runJoinProjection printDouble mode kt lkey rkey select tail) := by
  unfold Catalog.runJoinProjection
  split
  · exact kept.failure _
  apply Twin.ite Iff.rfl
  · intro _
    exact kept.failure _
  intro _
  simp only [kept.columnId]
  apply Twin.ite Iff.rfl
  · intro _
    exact kept.failure _
  intro _
  refine .bind (kept.joinPairs kt lkey rkey) ?_
  intro pr one two kept
  refine .bind (kept.gather _ _) ?_
  intro lv one two kept
  refine .bind (kept.gather _ _) ?_
  intro rv one two kept
  simp only [kept.same.decodeProj]
  exact .pure kept

omit [SoundCost κ] in
theorem joinBranch (kt : MatrixType) (lkey rkey : UInt64) (select : Bytes)
    (tail : List Bytes) :
    Twin (Kept data)
      (left.joinBranch printDouble strtod mode kt lkey rkey select tail)
      (right.joinBranch printDouble strtod mode kt lkey rkey select tail) := by
  apply Twin.ite Iff.rfl
  · intro _
    refine .map (kept.hashJoinCount lkey rkey) ?_
    intro count one two kept
    exact ⟨rfl, kept⟩
  intro _
  apply Twin.ite Iff.rfl
  · intro _
    rw [kept.joinAggregate]
    split
    · exact kept.failure _
    · exact kept.runJoinAggregate printDouble kt lkey rkey _
  · intro _
    exact kept.runJoinProjection printDouble mode kt lkey rkey select tail

omit [SoundCost κ] in
theorem runJoin :
    Twin (Kept data) (left.runJoin printDouble strtod mode line)
      (right.runJoin printDouble strtod mode line) := by
  unfold Catalog.runJoin
  split
  · exact kept.failure _
  simp only [kept.columnId, kept.columnType, kept.same.stringDictSize]
  apply Twin.ite Iff.rfl
  · intro _
    exact kept.failure _
  intro _
  apply Twin.ite Iff.rfl
  · intro _
    exact kept.failure _
  intro _
  apply Twin.ite Iff.rfl
  · intro _
    exact kept.failure _
  intro _
  exact kept.joinBranch strtod printDouble mode _ _ _ _ _

/-! ### Lines -/

theorem runSql :
    Twin (Kept data) (left.runSql strtod printDouble ns mode line)
      (right.runSql strtod printDouble ns' mode line) := by
  unfold Catalog.runSql
  split
  · exact kept.runJoin strtod printDouble mode line
  · exact kept.runDistinct line
  · exact kept.runHaving strtod printDouble ns ns' line _
  · exact kept.runAverage strtod printDouble ns ns' line
  · exact kept.runMulti strtod printDouble ns ns' line
  · exact kept.runSingle strtod printDouble ns ns' line
  · exact kept.runProjection strtod printDouble mode line

end

end Kept

/-- A line that is run leaves the data as they are. -/
theorem Settled.runSql {catalog after : Catalog κ}
    (settled : catalog.Settled) {strtod : Bytes → StrtodResult}
    {printDouble : UInt64 → Bytes} {ns : Nat → UInt64} {mode : OutMode}
    {line : Bytes} {lines : List CliLine}
    (ran : catalog.runSql strtod printDouble ns mode line =
      some (lines, after)) : SameData catalog after ∧ after.Settled := by
  have kept := (settled.kept.runSql strtod printDouble ns ns mode line).ensures
    _ _ ran
  exact ⟨kept.data, kept.left⟩

end Catalog

end MatrixDB
