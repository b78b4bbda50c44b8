import MatrixDB.Catalog.RoundTrip

/-!
# Cut snapshots

A fresh engine refuses a beginning of a saved file wherever it ends, except
where the two older formats end and in the count of a trailing section: a count
that is cut off is taken for the end of an older file.
-/

namespace MatrixDB

open Lib

variable {κ : Type}

namespace Catalog

/-- Where the dictionaries begin. -/
def columnsEnd (catalog : Catalog κ) (order : WalkOrder) : Nat :=
  (catalog.columnsPart order).length

/-- Where the null masks begin. -/
def dictsEnd (catalog : Catalog κ) (order : WalkOrder) : Nat :=
  catalog.columnsEnd order + (catalog.dictsPart order).length

/-- The cut leaves some of a section's count, and the reader gets that far. -/
def CutsCount (catalog : Catalog κ) (order : WalkOrder) (cut : Nat) : Prop :=
  (catalog.NamesFit ∧ catalog.columnsEnd order < cut ∧
    cut < catalog.columnsEnd order + 8) ∨
  (catalog.NamesFit ∧ catalog.StringsFit ∧ catalog.dictsEnd order < cut ∧
    cut < catalog.dictsEnd order + 8)

theorem take_of_parts {front back : Bytes} {cut : Nat}
    (beyond : front.length ≤ cut) :
    (front ++ back).take cut = front ++ back.take (cut - front.length) := by
  rw [List.take_append, List.take_of_length_le beyond]

theorem take_proper {whole : Bytes} {cut : Nat} (strict : cut < whole.length) :
    whole.take cut <+: whole ∧ whole.take cut ≠ whole := by
  refine ⟨List.take_prefix cut whole, ?_⟩
  intro same
  have length := congrArg List.length same
  rw [List.length_take] at length
  omega

theorem take_within {front : Bytes} (back : Bytes) {cut : Nat}
    (within : cut < front.length) :
    (front ++ back).take cut <+: front ∧
      (front ++ back).take cut ≠ front := by
  rw [List.take_append_of_le_length (Nat.le_of_lt within)]
  exact take_proper within

theorem length_dictsPart_ge (saver : Catalog κ) (order : WalkOrder) :
    8 ≤ (saver.dictsPart order).length := by
  rw [dictsPart, List.length_append, length_u64Bytes]
  exact Nat.le_add_right 8 _

/-- A dictionary takes room behind the count. -/
theorem dictsEnd_gt (saver : Catalog κ) {order : WalkOrder}
    (some : order.dicts ≠ []) :
    saver.columnsEnd order + 8 < saver.dictsEnd order := by
  obtain ⟨id, ids, dicts⟩ := List.exists_cons_of_ne_nil some
  rw [dictsEnd, dictsPart, dicts, List.flatMap_cons]
  simp only [dictRecord, List.length_append, length_u64Bytes]
  omega

theorem dictsEnd_le (saver : Catalog κ) (order : WalkOrder) :
    saver.dictsEnd order ≤ (saver.snapshot order).length := by
  rw [snapshot_eq, List.length_append, List.length_append, ← Nat.add_assoc]
  exact Nat.le_add_right _ _

/-- A load returns false if its last section did. -/
theorem refused_map_iff {made : Option (Option Bytes × Catalog κ)} :
    (∃ left, (made.map fun result : Option Bytes × Catalog κ =>
      (result.1.isSome, result.2)) = some (false, left)) ↔
      ∃ left, made = some (none, left) := by
  constructor
  · rintro ⟨left, same⟩
    obtain ⟨⟨out, catalog⟩, rfl, equal⟩ := Option.map_eq_some_iff.mp same
    cases out with
    | none => exact ⟨catalog, rfl⟩
    | some rest => cases equal
  · rintro ⟨left, rfl⟩
    exact ⟨left, rfl⟩

section
variable {saver : Catalog κ} {order : WalkOrder}

/-- A cut behind the columns is refused unless it is in the count of the
dictionaries, or behind them in the count of the masks. -/
theorem loadTrailing_take (coded : saver.Coded) (walks : order.Walks saver)
    (counted : order.Counted) {columns : Catalog κ}
    (back : ColumnsBack saver order.columns columns) {cut : Nat}
    (strict : cut <
      (saver.dictsPart order ++ saver.masksPart order).length) :
    (∃ left, loadTrailing
      ((saver.dictsPart order ++ saver.masksPart order).take cut) columns =
        some (none, left)) ↔
      ¬ (cut < 8 ∨ (saver.StringsFit ∧
        (saver.dictsPart order).length ≤ cut ∧
        cut < (saver.dictsPart order).length + 8)) := by
  have counts := length_dictsPart_ge saver order
  have length : ((saver.dictsPart order ++ saver.masksPart order).take
      cut).length = cut := by
    rw [List.length_take, Nat.min_eq_left (Nat.le_of_lt strict)]
  obtain ⟨short, long, cuts⟩ :=
    loadTrailing_dicts coded walks counted back
  by_cases within : cut < (saver.dictsPart order).length
  · obtain ⟨part, proper⟩ := take_within (saver.masksPart order) within
    obtain ⟨missing, bad⟩ := cuts _ part proper
    rw [length] at missing bad
    by_cases few : cut < 8
    · rw [missing few]
      simp [few]
    · obtain ⟨left, refused⟩ := bad (Nat.not_lt.mp few)
      rw [refused]
      have inside : ¬ (saver.dictsPart order).length ≤ cut :=
        Nat.not_le.mpr within
      simp [few, inside]
  · have beyond := Nat.not_lt.mp within
    have few : ¬ cut < 8 := by omega
    rw [take_of_parts beyond]
    by_cases strings : saver.StringsFit
    · obtain ⟨dicts, dictsBack, read⟩ := short strings
      obtain ⟨_, _, cuts⟩ := loadSection_masks coded walks counted
        (dictsBack.nullMasks back)
      rw [List.length_append] at strict
      have rest : ((saver.masksPart order).take
          (cut - (saver.dictsPart order).length)).length =
          cut - (saver.dictsPart order).length := by
        rw [List.length_take]
        omega
      obtain ⟨part, proper⟩ := take_proper
        (by omega : cut - (saver.dictsPart order).length <
          (saver.masksPart order).length)
      obtain ⟨missing, bad⟩ := cuts _ part proper
      rw [rest] at missing bad
      rw [read]
      by_cases fewer : cut - (saver.dictsPart order).length < 8
      · rw [missing fewer]
        have behind : cut < (saver.dictsPart order).length + 8 := by omega
        simp [strings, beyond, behind]
      · obtain ⟨left, refused⟩ := bad (Nat.not_lt.mp fewer)
        rw [refused]
        have behind : ¬ cut < (saver.dictsPart order).length + 8 := by omega
        simp [few, behind]
    · obtain ⟨left, refused⟩ := long strings
        ((saver.masksPart order).take (cut - (saver.dictsPart order).length))
      rw [refused]
      simp [few, strings]

/-- A cut file is refused unless the cut is in a count that the reader gets
to. -/
theorem loadCatalog_take [CostArith κ] (saved : saver.WellFormed) (coded : saver.Coded)
    (walks : order.Walks saver) (counted : order.Counted) {cut : Nat}
    (strict : cut < (saver.snapshot order).length)
    (notDicts : cut ≠ saver.columnsEnd order)
    (notMasks : cut ≠ saver.dictsEnd order) (hostCap : Nat) :
    (∃ left, (fresh hostCap : Catalog κ).loadCatalog
      ((saver.snapshot order).take cut) = some (false, left)) ↔
      ¬ saver.CutsCount order cut := by
  have counts := length_dictsPart_ge saver order
  obtain ⟨named, unnamed, cuts⟩ := loadCatalog_columns saved walks hostCap
  unfold CutsCount dictsEnd columnsEnd
  unfold dictsEnd columnsEnd at notMasks
  unfold columnsEnd at notDicts
  rw [snapshot_eq] at strict ⊢
  by_cases within : cut < (saver.columnsPart order).length
  · obtain ⟨part, proper⟩ := take_within
      (saver.dictsPart order ++ saver.masksPart order) within
    obtain ⟨left, refused⟩ := cuts _ part proper
    have front : ¬ (saver.columnsPart order).length < cut := by omega
    have middle : ¬ (saver.columnsPart order).length +
        (saver.dictsPart order).length < cut := by omega
    rw [refused]
    simp [front, middle]
  · have beyond := Nat.not_lt.mp within
    rw [take_of_parts beyond]
    by_cases names : saver.NamesFit
    · obtain ⟨columns, back, read⟩ := named names
      rw [List.length_append] at strict
      have trailing := loadTrailing_take coded walks counted back
        (by omega : cut - (saver.columnsPart order).length <
          (saver.dictsPart order ++ saver.masksPart order).length)
      have counting : cut - (saver.columnsPart order).length < 8 ↔
          (saver.columnsPart order).length < cut ∧
            cut < (saver.columnsPart order).length + 8 := by
        omega
      have masking : ((saver.dictsPart order).length ≤
          cut - (saver.columnsPart order).length ∧
            cut - (saver.columnsPart order).length <
              (saver.dictsPart order).length + 8) ↔
          ((saver.columnsPart order).length +
            (saver.dictsPart order).length < cut ∧
          cut < (saver.columnsPart order).length +
            (saver.dictsPart order).length + 8) := by
        omega
      rw [read, refused_map_iff, trailing, counting, masking]
      simp only [names, true_and]
    · obtain ⟨left, refused⟩ := unnamed names
        ((saver.dictsPart order ++ saver.masksPart order).take
          (cut - (saver.columnsPart order).length))
      rw [refused]
      simp [names]

end

end Catalog

namespace Analytics

variable [SoundCost κ] {strtod : Bytes → StrtodResult} {engine : Analytics κ}
  {order : Catalog.WalkOrder}

/-- A fresh engine refuses a proper beginning of a saved file that does not end
where a trailing section begins exactly if it does not end within the count of
one that the reader gets to. -/
theorem truncation_detected_iff (live : Live strtod engine)
    (walks : order.Walks engine.catalog) (counted : order.Counted)
    {room : Nat} {file : Bytes} {saved : Catalog κ}
    (written : engine.catalog.saveCatalog room order =
      some (some file, saved)) {cut : Nat} (strict : cut < file.length)
    (notDicts : cut ≠ engine.catalog.columnsEnd order)
    (notMasks : cut ≠ engine.catalog.dictsEnd order) (hostCap : Nat) :
    (∃ left, (Catalog.fresh hostCap : Catalog κ).loadCatalog (file.take cut) =
      some (false, left)) ↔ ¬ engine.catalog.CutsCount order cut := by
  have wellFormed := live.settled.wellFormed
  obtain ⟨_, _, ran, _, whole⟩ := Catalog.saveCatalog_eq wellFormed room
    fun id => (Catalog.mem_columns_iff wellFormed walks id).mp
  cases written.symm.trans ran
  have content := whole file rfl
  subst content
  exact Catalog.loadCatalog_take wellFormed live.coded walks counted strict
    notDicts notMasks hostCap

/-- A file that ends behind the count of its dictionaries is refused. -/
theorem truncation_detected_stocked :
    ∃ (engine : Analytics ℚ) (file : Bytes) (saved : Catalog ℚ),
      Live noNumber engine ∧
      engine.catalog.saveCatalog 1000 ⟨[7], [7], [7]⟩ =
        some (some file, saved) ∧
      ∃ left, (Catalog.fresh 8 : Catalog ℚ).loadCatalog
        (file.take (engine.catalog.columnsEnd ⟨[7], [7], [7]⟩ + 8)) =
          some (false, left) := by
  obtain ⟨engine, live, stocked⟩ := exists_stocked
  obtain ⟨saved, ran⟩ := stocked.saves live
  have later := engine.catalog.dictsEnd_gt
    (by decide : (⟨[7], [7], [7]⟩ : Catalog.WalkOrder).dicts ≠ [])
  have longer := engine.catalog.dictsEnd_le ⟨[7], [7], [7]⟩
  refine ⟨engine, _, saved, live, ran, ?_⟩
  apply (truncation_detected_iff live stocked.walks ⟨by decide, by decide⟩ ran
    (by omega) (by omega) (by omega) 8).mpr
  rintro (⟨_, _, within⟩ | ⟨_, _, beyond, _⟩)
  · exact Nat.lt_irrefl _ within
  · omega

/-- A file that ends one byte into that count is accepted, without the
dictionary and the mask. -/
theorem truncation_missed :
    ∃ (engine : Analytics ℚ) (order : Catalog.WalkOrder) (file : Bytes)
      (saved : Catalog ℚ) (cut : Nat),
      Live noNumber engine ∧ order.Walks engine.catalog ∧ order.Counted ∧
      engine.catalog.saveCatalog 1000 order = some (some file, saved) ∧
      cut < file.length ∧ cut ≠ engine.catalog.columnsEnd order ∧
      cut ≠ engine.catalog.dictsEnd order ∧
      engine.catalog.stringDicts.keys = [7] ∧
      engine.catalog.nullMasks.keys = [7] ∧
      ∃ restored, (Catalog.fresh 8 : Catalog ℚ).loadCatalog (file.take cut) =
          some (true, restored) ∧
        restored.stringDicts = ∅ ∧ restored.nullMasks = ∅ := by
  obtain ⟨engine, live, stocked⟩ := exists_stocked
  have wellFormed := live.settled.wellFormed
  obtain ⟨saved, ran⟩ := stocked.saves live
  have later := engine.catalog.dictsEnd_gt
    (by decide : (⟨[7], [7], [7]⟩ : Catalog.WalkOrder).dicts ≠ [])
  have longer := engine.catalog.dictsEnd_le ⟨[7], [7], [7]⟩
  have keys := stocked.keys
  simp only [List.cons.injEq, and_true] at keys
  refine ⟨engine, ⟨[7], [7], [7]⟩, _, saved,
    engine.catalog.columnsEnd ⟨[7], [7], [7]⟩ + 1, live, stocked.walks,
    ⟨by decide, by decide⟩, ran, by omega, by omega, by omega, keys.2.1,
    keys.2.2, ?_⟩
  obtain ⟨columns, back, read⟩ :=
    (Catalog.loadCatalog_columns wellFormed stocked.walks 8).1 fun id has =>
      castLe (stocked.names id has) (by decide)
  refine ⟨columns, ?_, back.stringDicts, back.nullMasks⟩
  have one : ∀ {rest : Bytes}, (rest.take 1).length < 8 := by
    intro rest
    exact lt_of_le_of_lt (List.length_take_le 1 rest) (by decide)
  rw [Catalog.snapshot_eq, Catalog.columnsEnd,
    Catalog.take_of_parts (Nat.le_add_right _ 1), Nat.add_sub_cancel_left,
    read, Catalog.loadTrailing, Catalog.loadSection_missing one]
  rfl

end Analytics

end MatrixDB
